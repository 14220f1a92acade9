import IndicatorFormula.Proofs.Substitution.Extraction

/-! What references of dimensional kinds are resolved to.

An item and the identifier of the reference that it was found for name the same thing in two ways:
the item composes its dotted identifier of the members that exist, the identifier of the parts as
they were written. Both agree, except that an item forgets wildcards behind its last member. -/

set_option autoImplicit false
namespace IndicatorFormula

theorem ReferenceKind.isUid_ne_nil {text : Text} (uid : isUid text = true) : text ≠ [] := by
  rintro rfl
  exact absurd uid (by decide)

theorem ReferenceKind.point_not_mem_of_isUid {text : Text} (uid : isUid text = true) :
    '.' ∉ text := by
  intro member
  simp only [isUid, Bool.and_eq_true, List.all_eq_true] at uid
  have inner : '.' ∈ if text.getLast? = some '\n' then text.dropLast else text := by
    split
    · rename_i last
      obtain ⟨more, rfl⟩ := List.getLast?_eq_some_iff.mp last
      simpa using member
    · exact member
  exact absurd (uid.2 _ inner) (by decide)

/-- Parts without a problem are there and not empty, hold no points, and only operands may have
wildcards. -/
theorem ReferenceKind.badPart?_eq_none {kind : ReferenceKind} {index : Nat}
    {parts : List (Option Text)} (sound : kind.badPart? index parts = none) :
    ∃ texts : List Text, parts = texts.map some ∧
      ∀ text ∈ texts, text ≠ [] ∧ '.' ∉ text ∧ (kind ≠ .dataElementOperand → text ≠ wildcard) := by
  induction parts generalizing index with
  | nil => exact ⟨[], rfl, by simp⟩
  | cons part parts ih =>
    unfold badPart? at sound
    split at sound
    · rename_i accepted
      obtain ⟨texts, rfl, each⟩ := ih sound
      have present : ∃ text, part = some text ∧ text ≠ [] ∧ '.' ∉ text ∧
          (kind ≠ .dataElementOperand → text ≠ wildcard) := by
        rcases Bool.or_eq_true_iff.mp accepted with star | uid
        · simp only [Bool.and_eq_true, decide_eq_true_eq] at star
          exact ⟨wildcard, star.1.1, by decide, by decide, fun other => absurd star.1.2 other⟩
        · cases part with
          | none => cases uid
          | some text =>
            refine ⟨text, rfl, isUid_ne_nil uid, point_not_mem_of_isUid uid, fun _ same => ?_⟩
            rw [same] at uid
            exact absurd uid (by decide)
      obtain ⟨text, rfl, own⟩ := present
      exact ⟨text :: texts, rfl, List.forall_mem_cons.mpr ⟨own, each⟩⟩
    · cases sound

theorem ReferenceKind.problem?_eq_none {kind : ReferenceKind} {parts : List (Option Text)}
    (sound : kind.problem? parts = none) :
    kind.partCounts.1 ≤ parts.length ∧ parts.length ≤ kind.partCounts.2 ∧
      kind.badPart? 0 parts = none := by
  simp only [problem?] at sound
  split at sound
  · cases sound
  split at sound
  · cases sound
  · rename_i fits
    simp only [Bool.or_eq_true, decide_eq_true_eq, not_or, Nat.not_lt] at fits
    refine ⟨fits.1, fits.2, ?_⟩
    cases bad : kind.badPart? 0 parts with
    | none => rfl
    | some part => simp [bad] at sound

theorem ReferenceKind.exists_metric {first second : Text}
    (sound : ReferenceKind.reportingRate.problem? [some first, some second] = none) :
    ∃ metric, Metric.ofName? second = some metric := by
  obtain ⟨-, -, good⟩ := problem?_eq_none sound
  rw [← Option.isSome_iff_exists, ← Option.ne_none_iff_isSome]
  simpa [problem?, partCounts, good] using sound

namespace Catalog

variable {catalog : Catalog} {α : Type} {uidOf : α → Text} {objects : List α}

theorem uid_of_find? {uid : Option Text} {object : α}
    (found : find? uidOf objects uid = some object) :
    uid = some (uidOf object) ∧ uidOf object ≠ [] ∧ uidOf object ≠ wildcard := by
  unfold find? at found
  cases uid with
  | none => cases found
  | some uid =>
    simp only at found
    split at found
    · cases found
    · rename_i usable
      have same : uidOf object = uid := by simpa using List.find?_some found
      subst same
      simpa using usable

/-- What an operand keeps of a part: its uid, unless it is the wildcard. -/
theorem operandCombo?_eq_some {part : Option Text} {combo : Option Entry}
    (found : catalog.operandCombo? part = some combo) :
    (combo = none ∧ (part = none ∨ part = some wildcard)) ∨
      ∃ entry, combo = some entry ∧ part = some entry.uid ∧ entry.uid ≠ [] ∧
        entry.uid ≠ wildcard := by
  unfold operandCombo? at found
  split at found
  · rename_i entry exists_
    cases found
    exact .inr ⟨entry, rfl, uid_of_find? exists_⟩
  · split at found
    · rename_i absent
      cases found
      exact .inl ⟨rfl, by simpa using absent⟩
    · cases found

theorem resolve_eq_item {kind : ReferenceKind} {parts : List (Option Text)} {item : DimensionalItem}
    (resolved : catalog.resolve kind parts = .ok (.item item)) :
    kind.problem? parts = none ∧
      ∃ id, kind.itemId? parts = some id ∧ catalog.item? id = .ok (some item) := by
  unfold resolve at resolved
  split at resolved
  · cases resolved
  rename_i sound
  dsimp only at resolved
  split at resolved
  case h_2 => cases resolved
  rename_i object found
  cases resolved
  have looked : ((kind.itemId? parts).bind fun id => (catalog.item? id).toOption.join) =
      some item := by
    cases kind with
    | constant | orgUnitGroup | days => simp at found
    | _ => simpa [Option.bind_eq_some_iff] using found
  obtain ⟨id, identified, found⟩ := Option.bind_eq_some_iff.mp looked
  refine ⟨sound, id, identified, ?_⟩
  cases read : catalog.item? id with
  | error unknown => simp [read, Except.toOption] at found
  | ok result => simpa [read, Except.toOption] using found

end Catalog

theorem Metric.name_of_ofName? {name : Text} {metric : Metric}
    (found : ofName? name = some metric) : metric.name = name := by
  simpa using List.find?_some found

def EndsWild (parts : List (Option Text)) : Prop :=
  parts.getLast? = some (some wildcard)

/-- Holds of the parts of an operand all of whose option combinations are the wildcard. -/
def WildOnly (parts : List (Option Text)) : Prop :=
  parts.tail ≠ [] ∧ ∀ part ∈ parts.tail, part = some wildcard

instance (parts : List (Option Text)) : Decidable (EndsWild parts) :=
  inferInstanceAs (Decidable (_ = _))

instance (parts : List (Option Text)) : Decidable (WildOnly parts) :=
  inferInstanceAs (Decidable (_ ∧ _))

theorem join_ne_join_append {first other : Text} (firsts rest : List Text) :
    Text.join ['.'] (first :: firsts) ≠ Text.join ['.'] (first :: firsts ++ other :: rest) := by
  intro same
  have lengths := congrArg List.length same
  clear same
  induction firsts generalizing first with
  | nil => simp [Text.join, List.intercalate_cons_cons] at lengths
  | cons second firsts ih =>
    refine @ih second ?_
    simpa [Text.join, List.intercalate_cons_cons] using lengths

namespace Catalog

variable {catalog : Catalog} {item : DimensionalItem}

theorem operand_of_item? {uid : Text} {first second : Option Text}
    (found : catalog.item? ⟨.dataElementOperand, uid, first, second⟩ = .ok (some item)) :
    ∃ element categoryCombo attributeCombo, item =
        .operand (some element) categoryCombo attributeCombo ∧ element.uid = uid ∧
      catalog.dataElement? (some uid) = some element ∧
      catalog.operandCombo? first = some categoryCombo ∧
      catalog.operandCombo? second = some attributeCombo := by
  simp only [item?, Except.ok.injEq, Option.bind_eq_bind, Option.bind_eq_some_iff, pure,
    Option.some.injEq] at found
  obtain ⟨element, listed, categoryCombo, ofFirst, attributeCombo, ofSecond, rfl⟩ := found
  cases (uid_of_find? listed).1
  exact ⟨element, categoryCombo, attributeCombo, rfl, rfl, listed, ofFirst, ofSecond⟩

theorem operand_keyed {uid first : Text} {second : Option Text}
    (found : catalog.item? ⟨.dataElementOperand, uid, some first, second⟩ = .ok (some item)) :
    (item.itemType = .dataElementOperand ↔
        ¬ WildOnly (some uid :: some first :: (second.map some).toList)) ∧
      (item.dimensionItem = dotted [some uid, some first, second] ↔
        ¬ EndsWild (some uid :: some first :: (second.map some).toList)) := by
  obtain ⟨element, categoryCombo, attributeCombo, rfl, rfl, listed, ofFirst, ofSecond⟩ :=
    operand_of_item? found
  obtain ⟨-, leads, -⟩ := uid_of_find? listed
  have star : wildcard ≠ [] := by decide
  -- Each combination is either the wildcard, which the operand forgets, or one of its members; the
  -- second may be absent.
  rcases operandCombo?_eq_some ofFirst with ⟨rfl, absent | same⟩ | ⟨combo, rfl, present, own⟩
  · cases absent
  · rw [Option.some.inj same]
    rcases operandCombo?_eq_some ofSecond with ⟨rfl, rfl | rfl⟩ | ⟨combo', rfl, rfl, own'⟩ <;>
      simp [DimensionalItem.itemType, DimensionalItem.dimensionItem, DimensionalItem.uid?, WildOnly,
        EndsWild, dotted, *]
    · exact join_ne_join_append [] []
    · exact join_ne_join_append [] [wildcard]
  · rw [Option.some.inj present]
    rcases operandCombo?_eq_some ofSecond with ⟨rfl, rfl | rfl⟩ | ⟨combo', rfl, rfl, own'⟩ <;>
      simp [DimensionalItem.itemType, DimensionalItem.dimensionItem, DimensionalItem.uid?, WildOnly,
        EndsWild, dotted, *]
    exact join_ne_join_append [combo.uid] []

theorem single_keyed {type : ItemType} {uid : Text}
    (single : type = .dataElement ∨ type = .programIndicator)
    (found : catalog.item? ⟨type, uid, none, none⟩ = .ok (some item)) :
    item.itemType = type ∧ item.dimensionItem = dotted [some uid, none, none] := by
  have whole : uid ≠ [] → dotted [some uid, none, none] = uid := fun leads => by
    have := dotted_map_some (show ∀ part ∈ [uid], part ≠ [] by simpa using leads)
    simpa [dotted, Text.join] using this
  rcases single with rfl | rfl
  all_goals
    obtain ⟨object, listed, rfl⟩ := Option.map_eq_some_iff.mp (Except.ok.inj found)
    obtain ⟨same, leads, -⟩ := uid_of_find? listed
    cases same
    exact ⟨rfl, (whole leads).symm⟩

theorem pair_keyed {type : ItemType} {first second : Text}
    (pair : type = .programDataElement ∨ type = .programAttribute ∨ type = .reportingRate)
    (found : catalog.item? ⟨type, first, some second, none⟩ = .ok (some item)) :
    item.itemType = type ∧ item.dimensionItem = dotted [some first, some second, none] := by
  rcases pair with rfl | rfl | rfl
  · simp only [item?, Except.ok.injEq, Option.bind_eq_bind, Option.bind_eq_some_iff, pure,
      Option.some.injEq] at found
    obtain ⟨program, ofFirst, element, ofSecond, rfl⟩ := found
    cases (uid_of_find? ofFirst).1
    cases (uid_of_find? ofSecond).1
    exact ⟨rfl, rfl⟩
  · simp only [item?, Except.ok.injEq, Option.bind_eq_bind, Option.bind_eq_some_iff, pure,
      Option.some.injEq] at found
    obtain ⟨program, ofFirst, trackedAttribute, ofSecond, rfl⟩ := found
    cases (uid_of_find? ofFirst).1
    cases (uid_of_find? ofSecond).1
    exact ⟨rfl, rfl⟩
  · simp only [item?] at found
    split at found
    · cases found
    · rename_i dataSet ofFirst
      split at found
      · rename_i metric ofSecond
        cases found
        cases (uid_of_find? ofFirst).1
        cases Metric.name_of_ofName? ofSecond
        exact ⟨rfl, rfl⟩
      · cases found

/-- An item is keyed like the identifier of its reference, except that it forgets wildcards behind
its last member. -/
theorem resolve_keyed {kind : ReferenceKind} {parts : List (Option Text)}
    (resolved : catalog.resolve kind parts = .ok (.item item)) :
    ∃ id, kind.itemId? parts = some id ∧ catalog.item? id = .ok (some item) ∧
      (item.itemType = id.type ↔ ¬ WildOnly parts) ∧
      (item.dimensionItem = id.dimensionItem ↔ ¬ EndsWild parts) := by
  obtain ⟨sound, id, identified, found⟩ := resolve_eq_item resolved
  obtain ⟨least, greatest, good⟩ := ReferenceKind.problem?_eq_none sound
  obtain ⟨texts, rfl, each⟩ := ReferenceKind.badPart?_eq_none good
  refine ⟨id, identified, found, ?_⟩
  simp only [ReferenceKind.itemId?, sound, Option.isSome_none, Bool.false_eq_true,
    ↓reduceIte] at identified
  cases kind with
  | constant | orgUnitGroup | days | aggregate => cases identified
  | dataElementOperand =>
    rcases texts with - | ⟨uid, - | ⟨first, - | ⟨second, - | ⟨third, texts⟩⟩⟩⟩
    · exact absurd least (by decide)
    · cases identified
      obtain ⟨element, listed, -⟩ := Option.map_eq_some_iff.mp (Except.ok.inj found)
      obtain ⟨same, -, other⟩ := uid_of_find? listed
      cases same
      have keyed := single_keyed (.inl rfl) found
      simp [keyed, WildOnly, EndsWild, other, ItemId.dimensionItem]
    · cases identified
      exact operand_keyed found
    · cases identified
      exact operand_keyed found
    · simp only [List.length_map, List.length_cons, ReferenceKind.partCounts] at greatest
      omega
  | programIndicator =>
    obtain ⟨uid, rfl⟩ :=
      List.length_eq_one_iff.mp (List.length_map some ▸ Nat.le_antisymm greatest least)
    cases identified
    have keyed := single_keyed (.inr rfl) found
    have tame := (each uid (by simp)).2.2 (by decide)
    simp [keyed, WildOnly, EndsWild, tame, ItemId.dimensionItem]
  | _ =>
    obtain ⟨first, second, rfl⟩ :=
      List.length_eq_two.mp (List.length_map some ▸ Nat.le_antisymm greatest least)
    cases identified
    have keyed := pair_keyed (by simp) found
    have tame := (each second (by simp)).2.2 (by decide)
    simp [keyed, WildOnly, EndsWild, tame, ItemId.dimensionItem]

end Catalog

theorem outcome_wellFormed (formula : Text) (found : List Reference) :
    (wellFormed formula found).outcome =
      .ok (found.filter fun reference => reference.problem?.isNone) := by
  induction found with
  | nil => rfl
  | cons reference found ih =>
    unfold wellFormed
    cases problem : reference.problem? with
    | some problem =>
      simp only [Traced.outcome_bind, ih, problem, Option.isNone_some, Bool.false_eq_true,
        not_false_eq_true, List.filter_cons_of_neg]
      rfl
    | none =>
      simp only [Traced.outcome_bind, ih, problem, Option.isNone_none, List.filter_cons_of_pos]
      rfl

theorem mem_mapM {α β ε : Type} {step : α → Except ε β} {items : List α}
    (each : ∀ item ∈ items, ∃ value, step item = .ok value) :
    ∃ values, items.mapM step = .ok values ∧
      ∀ item ∈ items, ∀ value, step item = .ok value → value ∈ values := by
  induction items with
  | nil => exact ⟨[], rfl, by simp⟩
  | cons item items ih =>
    obtain ⟨value, stepped⟩ := each item List.mem_cons_self
    obtain ⟨values, ran, all⟩ := ih fun item member => each item (List.mem_cons_of_mem _ member)
    refine ⟨value :: values,
      by simp [List.mapM_cons, stepped, ran, bind, Except.bind, pure, Except.pure], ?_⟩
    intro other member value' stepped'
    rcases List.mem_cons.mp member with rfl | member
    · rw [stepped] at stepped'
      cases stepped'
      exact List.mem_cons_self
    · exact List.mem_cons_of_mem _ (all other member value' stepped')

namespace Catalog

variable {catalog : Catalog} {item : DimensionalItem}

theorem item?_of_itemId? {kind : ReferenceKind} {parts : List (Option Text)} {id : ItemId}
    (identified : kind.itemId? parts = some id) : ∃ found, catalog.item? id = .ok found := by
  unfold ReferenceKind.itemId? at identified
  split at identified
  · cases identified
  rename_i sound
  replace sound : kind.problem? parts = none := by simpa using sound
  obtain ⟨least, greatest, good⟩ := ReferenceKind.problem?_eq_none sound
  obtain ⟨texts, rfl, -⟩ := ReferenceKind.badPart?_eq_none good
  cases kind with
  | constant | orgUnitGroup | days | aggregate => cases identified
  | reportingRate =>
    match texts, least, greatest with
    | [first, second], _, _ =>
      cases identified
      obtain ⟨metric, known⟩ := ReferenceKind.exists_metric sound
      simp only [item?]
      cases catalog.dataSet? (some first) with
      | none => exact ⟨none, rfl⟩
      | some dataSet => exact ⟨some (.reportingRate dataSet metric), by simp [known]⟩
  | dataElementOperand =>
    match texts, least, greatest with
    | [uid], _, _ | [uid, first], _, _ | [uid, first, second], _, _ =>
      cases identified
      exact ⟨_, rfl⟩
  | programIndicator =>
    match texts, least, greatest with
    | [uid], _, _ =>
      cases identified
      exact ⟨_, rfl⟩
  | programDataElement | programAttribute =>
    match texts, least, greatest with
    | [first, second], _, _ =>
      cases identified
      exact ⟨_, rfl⟩

theorem mem_extractItems {formula : Text} {reference : Reference}
    (member : reference ∈ references formula)
    (resolved : catalog.resolveReference reference = .ok (.item item)) :
    ∃ items, (extractItems catalog formula).outcome = .ok items ∧ item ∈ items := by
  obtain ⟨sound, id, identified, found⟩ := resolve_eq_item resolved
  obtain ⟨ids, extracted, listed⟩ : ∃ ids, (extractIds formula).outcome = .ok ids ∧
      ids.items =
        (((references formula).filter fun reference => reference.problem?.isNone).filterMap
          Reference.itemId?).eraseDups := by
    unfold extractIds
    rw [Traced.outcome_bind, outcome_wellFormed]
    exact ⟨_, rfl, rfl⟩
  have returns : ∀ id ∈ ids.items, ∃ found, catalog.item? id = .ok found := by
    rw [listed]
    intro id within
    obtain ⟨reference, -, identified⟩ := List.mem_filterMap.mp (List.mem_eraseDups.mp within)
    exact item?_of_itemId? identified
  have present : id ∈ ids.items := by
    have kept : reference.problem?.isNone = true := Option.isNone_iff_eq_none.mpr sound
    rw [listed]
    exact List.mem_eraseDups.mpr
      (List.mem_filterMap.mpr ⟨reference, List.mem_filter.mpr ⟨member, kept⟩, identified⟩)
  obtain ⟨values, ran, all⟩ := mem_mapM returns
  refine ⟨(values.filterMap fun value => value).eraseDups, ?_, ?_⟩
  · unfold extractItems items
    rw [Traced.outcome_bind, extracted]
    change (Traced.ofExcept (Except.mapError _ (List.mapM catalog.item? ids.items >>= _))).outcome =
      _
    rw [ran]
    rfl
  · exact List.mem_eraseDups.mpr (List.mem_filterMap.mpr ⟨some item, all id present _ found, rfl⟩)

end Catalog

/-- An item that a reference of a dimensional kind is resolved to has the type of its identifier,
unless all option combinations are wildcards, and its key, unless a wildcard comes last. Then it is
one of the items that are extracted from a formula with the reference, and a number that is supplied
under its key is found for the reference. -/
theorem resolve_supplied {catalog : Catalog} {kind : ReferenceKind} {parts : List (Option Text)}
    {item : DimensionalItem} (resolved : catalog.resolve kind parts = .ok (.item item)) :
    ∃ id, kind.itemId? parts = some id ∧ (item.itemType = id.type ↔ ¬ WildOnly parts) ∧
      (item.dimensionItem = id.dimensionItem ↔ ¬ EndsWild parts) ∧
      ∀ formula, ∀ reference ∈ references formula, reference.kind = kind →
        reference.presentParts = parts →
        (∃ items, (extractItems catalog formula).outcome = .ok items ∧ item ∈ items) ∧
          ∀ (inputs : Inputs) (x : Number), ¬ EndsWild parts →
            Supplies inputs.values item.dimensionItem x →
            inputs.supply.number? reference = some x := by
  obtain ⟨id, identified, found, type, key⟩ := Catalog.resolve_keyed resolved
  refine ⟨id, identified, type, key, ?_⟩
  rintro formula reference member rfl rfl
  refine ⟨Catalog.mem_extractItems member resolved, fun inputs x tame supplied => ?_⟩
  have dimensional : reference.isDimensional = true := by
    obtain ⟨kind, texts⟩ := reference
    cases kind <;> first | rfl | skip
    all_goals
      unfold ReferenceKind.itemId? at identified
      split at identified <;> cases identified
  obtain ⟨id', identified', same⟩ :=
    Reference.itemId?_of_legible (legible_of_mem_references member) dimensional
      (Catalog.resolve_eq_item resolved).1
  rw [show reference.itemId? = some id from identified] at identified'
  cases identified'
  rw [Supply.number?_of_isDimensional _ dimensional, ← same, ← key.mpr tame]
  exact lookup_valueTable supplied

/-- The parts of `#` and `{a.*.b}`, of which only the last one counts. -/
theorem resolve_supplied_attribute :
    let catalog : Catalog := { dataElements := [⟨['a'], ['A']⟩], optionCombos := [⟨['b'], ['B']⟩] }
    let formula := "#{a.*.b} + 1".toList
    let reference : Reference := ⟨.dataElementOperand, [['a'], ['*'], ['b']]⟩
    let item : DimensionalItem := .operand (some ⟨['a'], ['A']⟩) none (some ⟨['b'], ['B']⟩)
    let inputs : Inputs := { values := [(.text "a.*.b".toList, some (.int 5))] }
    references formula = [reference] ∧ catalog.resolveReference reference = .ok (.item item) ∧
      item.itemType = .dataElementOperand ∧ item.dimensionItem = "a.*.b".toList ∧
      (extractItems catalog formula).outcome = .ok [item] ∧
      inputs.supply.number? reference = some (.int 5) := by
  intro catalog formula reference item inputs
  have read : references formula = [reference] := by decide +kernel
  have resolved : catalog.resolveReference reference = .ok (.item item) := by decide +kernel
  have id : reference.itemId? = some ⟨.dataElementOperand, ['a'], some ['*'], some ['b']⟩ := by
    decide +kernel
  obtain ⟨_, identified, type, key, found⟩ := resolve_supplied resolved
  cases id.symm.trans identified
  have tame : ¬ EndsWild reference.presentParts := by decide
  have key := key.mpr tame
  obtain ⟨-, number⟩ := found formula reference (read ▸ List.mem_singleton_self _) rfl rfl
  have only : (extractItems catalog formula).outcome = .ok [item] := by decide +kernel
  have supplied : Supplies inputs.values item.dimensionItem (.int 5) := by
    rw [key]
    exact ⟨⟨_, List.mem_singleton_self _, rfl⟩, List.forall_mem_singleton.mpr fun _ => rfl⟩
  exact ⟨read, resolved, type.mpr (by decide), key, only, number inputs _ tame supplied⟩

/-- The item for `#` and `{a.*}` is keyed like the data element, so a value that is supplied under
it is missed. -/
theorem resolve_wildcard_missed :
    ∃ (catalog : Catalog) (reference : Reference) (item : DimensionalItem) (id : ItemId), references
          "#{a.*}".toList = [reference] ∧ catalog.resolveReference reference = .ok (.item item) ∧
      reference.itemId? = some id ∧ (extractItems catalog "#{a.*}".toList).outcome = .ok [item] ∧
      item.itemType ≠ id.type ∧ item.dimensionItem ≠ id.dimensionItem ∧
      (Inputs.supply { values := [(.text item.dimensionItem, some (.int 5))] }).number? reference =
        none :=
  ⟨{ dataElements := [⟨['a'], ['A']⟩] }, ⟨.dataElementOperand, [['a'], ['*']]⟩,
     .operand (some ⟨['a'], ['A']⟩) none none, ⟨.dataElementOperand, ['a'], some ['*'], none⟩,
     by decide +kernel⟩

end IndicatorFormula
