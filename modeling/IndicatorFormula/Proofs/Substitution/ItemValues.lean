import IndicatorFormula.Proofs.Catalog.Identifier
import IndicatorFormula.Proofs.Formula.Locality
import IndicatorFormula.Proofs.Substitution.Counting

/-! Values that are supplied under the identifiers of items.

A reference finds the value of its item by the dotted identifier alone, which says nothing of the
type of the item. So the values of all items with the same parts are one to it, and the last of them
counts. -/

set_option autoImplicit false
namespace IndicatorFormula

/-- The last number that is given for an identifier of which a condition holds. -/
def lastNumber? (holds : ItemId → Prop) [DecidablePred holds]
    (entries : List (ItemId × Option Number)) : Option Number :=
  ((entries.filter fun entry => holds entry.1).filterMap Prod.snd).getLast?

section Numbers

variable {holds : ItemId → Prop} [DecidablePred holds] {entries : List (ItemId × Option Number)}

theorem lastNumber?_eq_none_iff :
    lastNumber? holds entries = none ↔ ∀ entry ∈ entries, holds entry.1 → entry.2 = none := by
  simp [lastNumber?]

theorem lastNumber?_congr {others : ItemId → Prop} [DecidablePred others]
    (same : ∀ entry ∈ entries, holds entry.1 ↔ others entry.1) :
    lastNumber? holds entries = lastNumber? others entries := by
  rw [lastNumber?, List.filter_congr fun entry member => decide_eq_decide.mpr (same entry member),
    lastNumber?]

/-- An identifier has its own number if the others of which the condition holds have none. -/
theorem lastNumber?_eq_lookup {id : ItemId} (distinct : (entries.map Prod.fst).Nodup)
    (own : holds id) (alone : ∀ entry ∈ entries, holds entry.1 → entry.1 ≠ id → entry.2 = none) :
    lastNumber? holds entries = (entries.lookup id).join := by
  induction entries with
  | nil => rfl
  | cons first entries ih =>
    obtain ⟨other, number⟩ := first
    obtain ⟨new, distinct⟩ := List.nodup_cons.mp distinct
    obtain ⟨here, alone⟩ := List.forall_mem_cons.mp alone
    by_cases same : other = id
    · subst same
      have later : (entries.filter fun entry => holds entry.1).filterMap Prod.snd = [] := by
        simp only [List.filterMap_eq_nil_iff, List.mem_filter, decide_eq_true_eq]
        rintro entry ⟨member, held⟩
        exact alone entry member held fun same => new (List.mem_map.mpr ⟨entry, member, same⟩)
      cases number <;> simp [lastNumber?, own, later]
    · have later := ih distinct alone
      have none : holds other → number = none := fun held => here held same
      rw [List.lookup_cons, beq_false_of_ne (Ne.symm same), ← later, lastNumber?, lastNumber?]
      by_cases held : holds other
      · simp [held, none held]
      · simp [held]

end Numbers

theorem lookup_valueTable_items {entries : List (ItemId × Option Number)}
    (distinct : (entries.map Prod.fst).Nodup) (key : Text) :
    (valueTable (entries.map fun entry => (.item entry.1, entry.2))).lookup key =
      lastNumber? (fun id => id.dimensionItem = key) entries := by
  have kept : supplyAll (entries.map fun entry => (ValueKey.item entry.1, entry.2)) = _ :=
    supplyAll_of_nodup <| by
    have keys : (entries.map fun entry => (ValueKey.item entry.1, entry.2)).map Prod.fst =
        (entries.map Prod.fst).map ValueKey.item := by simp
    rw [keys]
    exact distinct.map fun _ _ => ValueKey.item.inj
  rw [valueTable, kept, lookup_supplyAll, lastNumber?]
  congr 1
  clear distinct kept
  induction entries with
  | nil => rfl
  | cons first entries ih =>
    obtain ⟨id, number⟩ := first
    by_cases stands : id.dimensionItem = key <;> cases number <;>
      simpa [ValueKey.dimensionItem, stands] using ih

/-- What filling in gives if the references of the formula itself are replaced: it is skipped for
the items in the formula, or counts them, and each reference is replaced by its number. -/
structure Filling.Replaces (numbers : Supply) (strategy : Strategy) (formula : Text)
    (filling : Filling) : Prop where
  counts : filling.Counts numbers
    (strategy.SkipsFor numbers ((references formula).filter Reference.isDimensional))
    ((references formula).filter Reference.isDimensional)
  written : ¬ filling.Skipped → formula ≠ [] →
    ∃ text, writtenText numbers (Piece.ofText (capitalizeCalls formula)) = .ok text ∧
      filling.result = .text text

section Untested

variable {settings : Settings} {strategy : Strategy} {inputs : Inputs} {formula : Text}

theorem fillPieces_replaces (numbers : Supply) (strategy : Strategy) (formula : Text) :
    Returns (fun filling => (if strategy = .skipIfAllMissing then filling.skipIfAllMissing
        else filling).Replaces numbers strategy formula) (fun _ => ¬ numbers.Written)
      (fillPieces numbers (strategy = .skipIfAnyMissing)
        (Piece.ofText (capitalizeCalls formula))) := by
  have counts :=
    fillPieces_counts numbers (strategy = .skipIfAnyMissing)
      (Piece.ofText (capitalizeCalls formula))
  have items : Piece.items (Piece.ofText (capitalizeCalls formula)) =
      (references formula).filter Reference.isDimensional := by
    rw [← references_capitalizeCalls]
    rfl
  rw [items] at counts
  cases filled : fillPieces numbers (strategy = .skipIfAnyMissing)
    (Piece.ofText (capitalizeCalls formula)) with
  | error fault =>
    rw [filled] at counts
    exact counts
  | ok filling =>
    rw [filled] at counts
    refine ⟨counts.decided, fun kept _ => ?_⟩
    have same := Filling.eq_of_not_skipped kept
    rw [same] at kept ⊢
    have never := fillPieces_of_not_skipped filled kept
    have result := fillPieces_written numbers (Piece.ofText (capitalizeCalls formula))
    rw [never] at result
    cases written : writtenText numbers (Piece.ofText (capitalizeCalls formula)) with
    | error fault =>
      rw [written] at result
      cases result
    | ok text =>
      rw [written] at result
      exact ⟨text, rfl, Except.ok.inj result⟩

theorem fill_replaces (strict : Bool) (named : settings.strategy inputs.strategy = .ok strategy)
    (scalar : CallPiece.ofText aggregateFunctions formula = formula.map .plain)
    (untested : CallPiece.ofText nullTest formula = formula.map .plain) :
    Returns (Filling.Replaces inputs.supply strategy formula) (fun _ => ¬ inputs.supply.Written)
      (fill settings inputs strict formula).outcome := by
  by_cases empty : formula = []
  · subst empty
    have none : (references []).filter Reference.isDimensional = [] := by
      simp [references, Piece.ofText, Piece.ofTextFrom, Piece.references]
    have kept : ¬ Filling.Skipped { result := .empty } := fun impossible => by cases impossible
    have skips : ¬ strategy.SkipsFor inputs.supply [] := by
      cases strategy <;> simp [Strategy.SkipsFor]
    refine ⟨?_, fun _ some => absurd rfl some⟩
    rw [none]
    exact ⟨iff_of_false kept skips, fun _ => rfl, fun _ => rfl⟩
  · have pieces := fillPieces_replaces inputs.supply strategy formula
    rw [fill_eq_fillUnder empty named]
    unfold fillUnder
    simp only [substituteSamples_plain _ _ strict scalar, pure_bind,
      substituteNullTests_plain _ strict untested]
    rw [Traced.outcome_bind]
    cases filled : fillPieces inputs.supply (strategy = .skipIfAnyMissing)
      (Piece.ofText (capitalizeCalls formula)) with
    | error fault =>
      rw [filled] at pieces
      exact pieces
    | ok filling =>
      rw [filled] at pieces
      exact pieces

end Untested

/-- Where values are supplied for identifiers, an item has the last one for an identifier with its
parts. -/
theorem Inputs.number?_of_items {inputs : Inputs} {entries : List (ItemId × Option Number)}
    {reference : Reference}
    (keyed : inputs.values = entries.map fun entry => (.item entry.1, entry.2))
    (distinct : (entries.map Prod.fst).Nodup)
    (built : ∀ entry ∈ entries, ∃ kind parts, ReferenceKind.itemId? kind parts = some entry.1)
    (legible : reference.Legible) (dimensional : reference.isDimensional = true) :
    inputs.supply.number? reference =
      lastNumber? (fun id => id.parts = reference.parts) entries := by
  rw [Supply.number?_of_isDimensional _ dimensional, Inputs.supply, keyed,
    lookup_valueTable_items distinct]
  refine lastNumber?_congr fun entry member => ?_
  obtain ⟨kind, parts, built⟩ := built entry member
  exact dimensionItem_eq_key_iff built legible dimensional

variable {settings : Settings} {context : SubstitutionContext} {strategy : Strategy}

/-- Where values are supplied for identifiers and nothing is called that is replaced first, each
item of a formula is replaced by the last value for an identifier with its parts, whatever the type
of that is, and is missing if there is none. This is the value for its own identifier unless one of
another type has the same parts and a value. -/
theorem substitute_itemValues {entries : List (ItemId × Option Number)} {formula : Text}
    (keyed : context.inputs.values = entries.map fun entry => (.item entry.1, entry.2))
    (distinct : (entries.map Prod.fst).Nodup)
    (built : ∀ entry ∈ entries, ∃ kind parts, ReferenceKind.itemId? kind parts = some entry.1)
    (sound : ∀ reference ∈ references formula, reference.problem? = none)
    (scalar : CallPiece.ofText aggregateFunctions formula = formula.map .plain)
    (untested : CallPiece.ofText nullTest formula = formula.map .plain)
    (named : settings.strategy context.inputs.strategy = .ok strategy) :
    (∀ reference ∈ references formula, reference.isDimensional = true →
        ∃ id, reference.itemId? = some id ∧ id.parts = reference.parts ∧
          context.inputs.supply.number? reference =
            lastNumber? (fun other => other.parts = id.parts) entries ∧
          (context.inputs.supply.number? reference = none ↔
            ∀ entry ∈ entries, entry.1.parts = id.parts → entry.2 = none) ∧
          ((∀ entry ∈ entries, entry.1.parts = id.parts → entry.1.type ≠ id.type → entry.2 = none) →
            context.inputs.supply.number? reference = (entries.lookup id).join)) ∧
      (∀ filling, (substitute settings .evaluate context formula).outcome = .ok (.filled filling) →
        filling.Replaces context.inputs.supply strategy formula) ∧
      (context.inputs.supply.Written →
        ∃ filling, (substitute settings .evaluate context formula).outcome =
          .ok (.filled filling)) := by
  refine ⟨fun reference member dimensional => ?_, ?_⟩
  · have legible := legible_of_mem_references member
    obtain ⟨id, identified, dots⟩ :=
      Reference.itemId?_of_legible legible dimensional (sound reference member)
    have same : id.parts = reference.parts :=
      (dimensionItem_eq_key_iff identified legible dimensional).mp dots
    have number := Inputs.number?_of_items keyed distinct built legible dimensional
    rw [← same] at number
    refine ⟨id, identified, same, number, number ▸ lastNumber?_eq_none_iff, fun alone => ?_⟩
    rw [number]
    refine lastNumber?_eq_lookup distinct rfl
      fun entry member shared differs => alone entry member shared fun type => ?_
    obtain ⟨kind, parts, built⟩ := built entry member
    exact differs (ReferenceKind.eq_of_parts built identified type shared)
  · have replaces := fill_replaces context.strict named scalar untested
    rw [substitute, Traced.outcome_bind]
    cases outcome : (fill settings context.inputs context.strict formula).outcome with
    | error failure =>
      rw [outcome] at replaces
      refine ⟨fun filling impossible => ?_, fun written => absurd written replaces⟩
      cases impossible
    | ok filling =>
      rw [outcome] at replaces
      refine ⟨fun other same => ?_, fun _ => ⟨filling, rfl⟩⟩
      cases same
      exact replaces

theorem substitute_itemValues_shared :
    let entries : List (ItemId × Option Number) :=
      [(⟨.dataElement, ['a'], none, none⟩, some (.int 1)),
        (⟨.dataElementOperand, ['a'], some ['b'], none⟩, some (.int 2)),
        (⟨.programDataElement, ['a'], some ['b'], none⟩, none)]
    let inputs : Inputs := { values := entries.map fun entry => (.item entry.1, entry.2) }
    let reference : Reference := ⟨.programDataElement, [['a'], ['b']]⟩
    let formula := "#{a} + D{a.b}".toList
    let filling : Filling := ⟨.text "1.0 + 2.0".toList, 2, 2⟩
    inputs.supply.number? reference = some (.int 2) ∧
      (substitute {} .evaluate { inputs } formula).outcome = .ok (.filled filling) ∧
      filling.Replaces inputs.supply .neverSkip formula := by
  intro entries inputs reference formula filling
  have built : ∀ entry ∈ entries, ∃ kind parts, ReferenceKind.itemId? kind parts = some entry.1 :=
    List.forall_mem_cons.mpr ⟨⟨.dataElementOperand, [some ['a']], by decide +kernel⟩,
      List.forall_mem_cons.mpr ⟨⟨.dataElementOperand, [some ['a'], some ['b']], by decide +kernel⟩,
        List.forall_mem_cons.mpr
          ⟨⟨.programDataElement, [some ['a'], some ['b']], by decide +kernel⟩, nofun⟩⟩⟩
  have outcome : (substitute {} .evaluate { inputs } formula).outcome = .ok (.filled filling) := by
    decide +kernel
  have known : reference.itemId? = some ⟨.programDataElement, ['a'], some ['b'], none⟩ := by
    decide +kernel
  obtain ⟨numbers, each, -⟩ :=
    @substitute_itemValues {} { inputs } .neverSkip entries formula rfl (by decide +kernel) built
      (by decide +kernel) (by decide +kernel) (by decide +kernel) rfl
  obtain ⟨id, identified, -, last, -⟩ := numbers reference (by decide +kernel) rfl
  cases known.symm.trans identified
  exact ⟨last.trans (by decide +kernel), outcome, each filling outcome⟩

/-- A value for a program indicator takes the place of the one for a data element with the same
uid. -/
theorem substitute_confuses_types :
    (references "#{deA}".toList = [⟨.dataElementOperand, ["deA".toList]⟩] ∧
        Reference.problem? ⟨.dataElementOperand, ["deA".toList]⟩ = none ∧
        CallPiece.ofText aggregateFunctions "#{deA}".toList = "#{deA}".toList.map .plain ∧
        CallPiece.ofText nullTest "#{deA}".toList = "#{deA}".toList.map .plain) ∧
      (Reference.itemId? ⟨.dataElementOperand, ["deA".toList]⟩ =
          some ⟨.dataElement, "deA".toList, none, none⟩ ∧
        Reference.itemId? ⟨.programIndicator, ["deA".toList]⟩ =
          some ⟨.programIndicator, "deA".toList, none, none⟩) ∧
      (Number.int 1).literal = .ok "1.0".toList ∧
      (substitute {} .evaluate { inputs := { values := [(.item
                ⟨.dataElement, "deA".toList, none, none⟩, some (.int 1)),
            (.item ⟨.programIndicator, "deA".toList, none, none⟩, some (.int 2))] } }
          "#{deA}".toList).outcome =
        .ok (.filled { result := .text "2.0".toList, itemsFound := 1, valuesFound := 1 }) := by
  decide +kernel

end IndicatorFormula
