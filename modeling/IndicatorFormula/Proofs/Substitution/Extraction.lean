import IndicatorFormula.Proofs.Substitution.Coverage
import IndicatorFormula.Substitution.Mode

/-! What is extracted from a valid formula covers what is looked up when the formula is filled
in. -/

set_option autoImplicit false
namespace IndicatorFormula

theorem dotted_map_some {parts : List Text} (each : ∀ part ∈ parts, part ≠ []) :
    dotted (parts.map some) = Text.join ['.'] parts := by
  have kept : parts.filter (fun part => !part.isEmpty) = parts :=
    List.filter_eq_self.mpr fun part member => by simpa using each part member
  simp only [dotted, List.filterMap_map]
  rw [show parts.filterMap (id ∘ some) = parts from List.filterMap_some, kept]

namespace Reference

variable {reference : Reference}

theorem itemId?_of_legible (legible : reference.Legible)
    (dimensional : reference.isDimensional = true) (sound : reference.problem? = none) :
    ∃ id, reference.itemId? = some id ∧ id.dimensionItem = reference.key := by
  obtain ⟨kind, parts⟩ := reference
  have typed : ∀ count, ∃ type, kind.itemType? count = some type := by
    intro count
    revert dimensional
    cases kind <;> simp [isDimensional, ReferenceKind.isDimensional, ReferenceKind.itemType?]
  cases legible with
  | days => cases dimensional
  | braced member some few each =>
    obtain ⟨type, typed⟩ := typed parts.length
    have filled : ∀ part ∈ parts, part ≠ [] := fun part member => (each part member).1
    have found : itemId? ⟨kind, parts⟩ = (parts.map Option.some).head?.join.map fun first =>
        ⟨type, first, (parts.map Option.some)[1]?.join, (parts.map Option.some)[2]?.join⟩ := by
      have sound : kind.problem? (parts.map Option.some) = none := sound
      simp only [itemId?, presentParts, ReferenceKind.itemId?, sound, List.length_map, typed]
      cases (parts.map Option.some).head?.join <;> rfl
    have whole := dotted_map_some filled
    rw [found]
    -- There are three parts at most, one for each slot of an identifier.
    rcases parts with - | ⟨first, - | ⟨second, - | ⟨third, - | ⟨fourth, parts⟩⟩⟩⟩
    · exact absurd rfl some
    · exact ⟨_, rfl, whole⟩
    · exact ⟨_, rfl, whole⟩
    · exact ⟨_, rfl, whole⟩
    · simp only [List.length_cons] at few
      omega

end Reference

theorem legible_of_mem_references {formula : Text} {reference : Reference}
    (member : reference ∈ references formula) : reference.Legible :=
  (Piece.exists_of_mem_ofText (Piece.mem_references_iff.mp member)).1

variable {catalog : Catalog} {allowAggregates : Bool} {formula : Text}

/-- References tell nothing against a formula exactly if each of them stands for an object. -/
theorem objection?_eq_none_iff :
    objection? catalog formula = none ↔
      ∀ reference ∈ references formula, ∃ object, catalog.resolveReference reference =
        .ok object := by
  constructor
  · intro none reference member
    have checked : ∀ check ∈ existenceChecks, check.1 reference = true →
        ∃ object, catalog.resolveReference reference = .ok object := by
      intro check within applies
      have none := List.findSome?_eq_none_iff.mp none check within
      have silent :=
        List.findSome?_eq_none_iff.mp none reference (List.mem_filter.mpr ⟨member, applies⟩)
      unfold referenceObjection? at silent
      split at silent
      · exact ⟨_, by assumption⟩
      · cases silent
      · cases silent
    have items := checked (Reference.isDimensional, .itemMissing) (by simp [existenceChecks])
    have constants :=
      checked (fun reference => reference.kind = .constant, .constantMissing)
        (by simp [existenceChecks])
    have groups := checked (fun reference => reference.kind = .orgUnitGroup, .orgUnitGroupMissing)
      (by simp [existenceChecks])
    -- Every kind that is read in a formula is looked up by one of these checks, except the number
    -- of days.
    cases legible_of_mem_references member with
    | days => exact ⟨.days, rfl⟩
    | @braced kind parts braced =>
      cases kind <;>
        first
        | exact absurd braced (by decide)
        | exact items rfl
        | exact constants rfl
        | exact groups rfl
  · intro resolves
    refine List.findSome?_eq_none_iff.mpr
      fun check _ => List.findSome?_eq_none_iff.mpr fun reference member => ?_
    obtain ⟨object, resolved⟩ := resolves reference (List.mem_filter.mp member).1
    rw [referenceObjection?, resolved]

theorem Accepted.problem?_eq_none (accepted : Accepted catalog allowAggregates formula)
    {reference : Reference} (member : reference ∈ references formula) :
    reference.problem? = none := by
  obtain ⟨object, resolved⟩ := objection?_eq_none_iff.mp accepted.value.2.1 reference member
  cases malformed : reference.problem? with
  | none => rfl
  | some problem =>
    have malformed : reference.kind.problem? reference.presentParts = some problem := malformed
    simp [Catalog.resolveReference, Catalog.resolve, malformed] at resolved

def ReferencedIds.ofReferences (found : List Reference) : ReferencedIds where
  items := (found.filterMap Reference.itemId?).eraseDups
  constants :=
    ((found.filter fun reference => reference.kind = .constant).map Reference.key).eraseDups
  orgUnitGroups :=
    ((found.filter fun reference => reference.kind = .orgUnitGroup).map Reference.key).eraseDups

theorem wellFormed_eq {found : List Reference}
    (each : ∀ reference ∈ found, reference.problem? = none) (formula : Text) :
    wellFormed formula found = pure found := by
  induction found with
  | nil => rfl
  | cons reference found ih =>
    simp only [wellFormed, each reference List.mem_cons_self, ih fun other member =>
      each other (List.mem_cons_of_mem _ member), pure_bind]

theorem Accepted.extractIds_eq (accepted : Accepted catalog allowAggregates formula) :
    extractIds formula = pure (.ofReferences (references formula)) := by
  unfold extractIds
  rw [wellFormed_eq fun reference member => accepted.problem?_eq_none member, pure_bind]
  rfl

/-- What is supplied for identifiers is the same. -/
structure Inputs.Agree (ids : ReferencedIds) (inputs other : Inputs) : Prop where
  strategy : inputs.strategy = other.strategy
  days : SameNumber inputs.days other.days
  samples : inputs.samples = none ∧ other.samples = none
  items : ∀ id ∈ ids.items, SameNumber (inputs.supply.values.lookup id.dimensionItem)
    (other.supply.values.lookup id.dimensionItem)
  constants : ∀ uid ∈ ids.constants, SameNumber (inputs.constants.lookup uid)
    (other.constants.lookup uid)
  orgUnitGroups : ∀ uid ∈ ids.orgUnitGroups, SameNumber (inputs.groupCounts.lookup uid)
    (other.groupCounts.lookup uid)

def Inputs.Covers (ids : ReferencedIds) (inputs : Inputs) : Prop :=
  ∀ id ∈ ids.items, (inputs.supply.values.lookup id.dimensionItem).isSome = true

namespace Accepted

variable {inputs other : Inputs}

theorem exists_id (accepted : Accepted catalog allowAggregates formula) {reference : Reference}
    (member : reference ∈ references formula) (dimensional : reference.isDimensional = true) :
    ∃ id ∈ (ReferencedIds.ofReferences (references formula)).items, id.dimensionItem =
      reference.key := by
  obtain ⟨id, identified, key⟩ :=
    Reference.itemId?_of_legible (legible_of_mem_references member) dimensional
      (accepted.problem?_eq_none member)
  exact ⟨id, List.mem_eraseDups.mpr (List.mem_filterMap.mpr ⟨reference, member, identified⟩), key⟩

theorem sameNumber (accepted : Accepted catalog allowAggregates formula)
    (agree : Inputs.Agree (.ofReferences (references formula)) inputs other) {reference : Reference}
    (member : reference ∈ references formula) :
    SameNumber (inputs.supply.number? reference) (other.supply.number? reference) := by
  have listed : ∀ kind, reference.kind = kind →
      reference.key ∈
        (((references formula).filter fun found => found.kind = kind).map
          Reference.key).eraseDups := by
    intro kind same
    exact List.mem_eraseDups.mpr
      (List.mem_map_of_mem (List.mem_filter.mpr ⟨member, by simpa using same⟩))
  -- Items are found under their identifiers, and the others under their keys.
  by_cases dimensional : reference.isDimensional = true
  · obtain ⟨id, within, key⟩ := accepted.exists_id member dimensional
    rw [Supply.number?_of_isDimensional _ dimensional,
      Supply.number?_of_isDimensional _ dimensional, ← key]
    exact agree.items id within
  · cases kind : reference.kind with
    | constant =>
      simp only [Supply.number?, kind]
      exact agree.constants _ (listed _ kind)
    | orgUnitGroup =>
      simp only [Supply.number?, kind]
      exact agree.orgUnitGroups _ (listed _ kind)
    | days =>
      simp only [Supply.number?, kind]
      exact agree.days
    | aggregate =>
      cases legible_of_mem_references member with
      | days => cases kind
      | braced braced =>
        cases kind
        exact absurd braced (by decide)
    | _ => simp [Reference.isDimensional, ReferenceKind.isDimensional, kind] at dimensional

variable {parts : List Part}

/-- What is read behind the passes stands for references of the formula. -/
theorem exists_reference (prepared : Prepared formula parts) {hasValue : Text → Bool}
    {found : Reference}
    (member : .reference found ∈ Piece.ofText (Prepared.rewritten parts hasValue))
    (other : found.kind ≠ .days) :
    ∃ reference ∈ references formula, reference.kind = found.kind ∧ reference.key = found.key :=
  (prepared.keyed hasValue).reference member other

theorem fillUnder_congr (accepted : Accepted catalog allowAggregates formula)
    (agree : Inputs.Agree (.ofReferences (references formula)) inputs other) (strategy : Strategy)
    (strict strict' : Bool) :
    fillUnder strategy inputs strict formula = fillUnder strategy other strict' formula := by
  obtain ⟨parts, prepared⟩ := accepted.prepared
  rw [prepared.fillUnder_eq strategy agree.samples.1,
    prepared.fillUnder_eq strategy agree.samples.2]
  have tests : Prepared.rewritten parts (fun key => (inputs.supply.values.lookup key).isSome) =
      Prepared.rewritten parts fun key => (other.supply.values.lookup key).isSome :=
    prepared.rewritten_congr fun reference member dimensional => by
      have same := (accepted.sameNumber agree member).isSome
      rwa [Supply.number?_of_isDimensional _ dimensional,
        Supply.number?_of_isDimensional _ dimensional] at same
  rw [tests, fillPieces_congr _ fun found member => ?_]
  by_cases days : found.kind = .days
  · simp only [Supply.number?, days]
    exact agree.days
  · obtain ⟨reference, within, kind, key⟩ := exists_reference prepared member days
    rw [← Supply.number?_congr _ kind key, ← Supply.number?_congr _ kind key]
    exact accepted.sameNumber agree within

/-- A formula all of whose items have values is not skipped, and all are counted. -/
theorem fillUnder_all (accepted : Accepted catalog allowAggregates formula)
    (none : inputs.samples = none) (covers : inputs.Covers (.ofReferences (references formula)))
    (strategy : Strategy) (strict : Bool) :
    Returns (fun filling => ¬ filling.Skipped ∧ filling.itemsFound = filling.valuesFound)
      (fun _ => ¬ inputs.supply.Written) (fillUnder strategy inputs strict formula).outcome := by
  obtain ⟨parts, prepared⟩ := accepted.prepared
  rw [prepared.fillUnder_eq strategy none, Traced.outcome_bind]
  have all : Returns (fun filling => ¬ filling.Skipped ∧ filling.itemsFound = filling.valuesFound)
      (fun _ => ¬ inputs.supply.Written) (fillPieces inputs.supply (strategy = .skipIfAnyMissing)
      (Piece.ofText
        (Prepared.rewritten parts fun key => (inputs.supply.values.lookup key).isSome))) :=
    fillPieces_all _ fun found member dimensional => by
      obtain ⟨reference, within, kind, key⟩ :=
        exists_reference prepared member (Reference.kind_ne_days dimensional)
      have dimensional' : reference.isDimensional = true := by rwa [Reference.isDimensional, kind]
      obtain ⟨id, listed, same⟩ := accepted.exists_id within dimensional'
      rw [Supply.number?_of_isDimensional _ dimensional, ← key, ← same]
      exact covers id listed
  revert all
  cases fillPieces inputs.supply _ _ with
  | error fault => exact id
  | ok filling =>
    rintro ⟨kept, equal⟩
    change Returns _ _ (Except.ok _)
    split
    -- As many values as items are there, so not all of them are missing.
    · have same : filling.skipIfAllMissing = filling :=
        if_neg fun missing => missing.1 (equal ▸ missing.2)
      rw [same]
      exact ⟨kept, equal⟩
    · exact ⟨kept, equal⟩

end Accepted

/-- What is extracted from a valid formula covers what it is filled in with. It gives the same text
and the same counts in contexts without samples that agree on all extracted identifiers, and where
all extracted items have values, it is not skipped, whatever the strategy, and all items that are
found have values. -/
theorem substitute_covered {catalog : Catalog} {formula : Text}
    (valid : validateRule catalog formula = .ok .valid ∨
      validatePredictor catalog formula = .ok .valid) :
    ∃ ids, (∀ settings context, (substitute settings .extractIds context formula).outcome =
        .ok (.extracted ids)) ∧
      (∀ settings context other, Inputs.Agree ids context.inputs other.inputs →
        substitute settings .evaluate context formula =
          substitute settings .evaluate other formula) ∧
      ∀ settings context, context.inputs.samples = none → context.inputs.Covers ids →
        (∀ filling, (substitute settings .evaluate context formula).outcome =
              .ok (.filled filling) →
            ¬ filling.Skipped ∧ filling.itemsFound = filling.valuesFound) ∧
          ∀ strategy, settings.strategy context.inputs.strategy = .ok strategy →
            context.inputs.supply.Written →
            ∃ filling, (substitute settings .evaluate context formula).outcome =
              .ok (.filled filling) := by
  obtain ⟨allowAggregates, accepted⟩ : ∃ allowAggregates, Accepted catalog allowAggregates
      formula :=
    valid.elim (fun valid => ⟨_, accepted_of_validateRule valid⟩)
      fun valid => ⟨_, accepted_of_validatePredictor valid⟩
  have some : formula.isEmpty = false := by simpa using accepted.value.1
  refine ⟨.ofReferences (references formula), fun settings context => ?_,
    fun settings context other agree => ?_, fun settings context none covers => ?_⟩
  · simp only [substitute, accepted.extractIds_eq, pure_bind]
    rfl
  · simp only [substitute, fill, some, Bool.false_eq_true, ↓reduceIte, agree.strategy]
    congr 2
    funext strategy
    exact accepted.fillUnder_congr agree strategy _ _
  · have all := fun strategy => accepted.fillUnder_all none covers strategy context.strict
    simp only [substitute, fill, some, Bool.false_eq_true, ↓reduceIte, Traced.outcome_bind]
    cases settings.strategy context.inputs.strategy with
    | error failure => exact ⟨by rintro _ ⟨⟩, by rintro _ ⟨⟩⟩
    | ok strategy =>
      have all := all strategy
      change (∀ filling, (fillUnder strategy _ _ _).outcome >>= _ = _ → _) ∧ _
      cases ran : (fillUnder strategy context.inputs context.strict formula).outcome with
      | error failure =>
        rw [ran] at all
        exact ⟨by rintro _ ⟨⟩, fun _ _ written => absurd written all⟩
      | ok filling =>
        rw [ran] at all
        refine ⟨?_, fun _ _ _ => ⟨filling, ?_⟩⟩
        · rintro _ ⟨⟩
          exact all
        · change (fillUnder strategy _ _ _).outcome >>= _ = _
          rw [ran]
          rfl

/-- Numbers under other uids are not looked up, and what counts of a number is the double that it is
converted to. -/
theorem substitute_covered_element :
    let formula := "IF(isNull(#{a}), C{c}, #{a} - [days])".toList
    let ids : ReferencedIds := ⟨[⟨.dataElement, ['a'], none, none⟩], [['c']], []⟩
    let bare : SubstitutionContext :=
      { inputs := { values := [(.text ['a'], none)], constants := [(['c'], .int 3)] } }
    let other : SubstitutionContext :=
      { inputs :=
          { values := [(.text ['b'], some (.int 7))], constants := [(['c'], .double (.ofInt 3))] }
        strict := true }
    let covering : SubstitutionContext :=
      { inputs :=
          { values := [(.text ['a'], some (.int 2))]
            strategy := some Strategy.skipIfAnyMissing.name } }
    let filling : Filling := ⟨.text "IF(false, 0, 2.0 - 0)".toList, 1, 1⟩
    (substitute {} .extractIds {} formula).outcome = .ok (.extracted ids) ∧
      bare.inputs.Agree ids other.inputs ∧
      (substitute {} .evaluate bare formula).outcome =
        .ok (.filled ⟨.text "IF(true, 3.0, 0 - 0)".toList, 0, 0⟩) ∧
      substitute {} .evaluate other formula = substitute {} .evaluate bare formula ∧
      covering.inputs.Covers ids ∧
      (substitute {} .evaluate covering formula).outcome = .ok (.filled filling) ∧
      ¬ filling.Skipped ∧ filling.itemsFound = filling.valuesFound := by
  intro formula ids bare other covering filling
  let catalog : Catalog :=
    { dataElements := [⟨['a'], ['A']⟩], constants := [⟨⟨['c'], ['C']⟩, .ofInt 1⟩] }
  have valid : validateRule catalog formula = .ok .valid := by decide +kernel
  obtain ⟨extracted, extracts, same, covered⟩ := substitute_covered (.inl valid)
  have known : (substitute {} .extractIds {} formula).outcome = .ok (.extracted ids) := by
    decide +kernel
  cases (extracts {} {}).symm.trans known
  have three : Number.toDouble (.int 3) = .ok (.ofInt 3) := by decide +kernel
  have agree : bare.inputs.Agree ids other.inputs := {
    strategy := rfl
    days := rfl
    samples := ⟨rfl, rfl⟩
    items := List.forall_mem_singleton.mpr rfl
    constants := List.forall_mem_singleton.mpr (congrArg some three)
    orgUnitGroups := nofun }
  have covers : covering.inputs.Covers ids := List.forall_mem_singleton.mpr rfl
  have filled : (substitute {} .evaluate bare formula).outcome =
      .ok (.filled ⟨.text "IF(true, 3.0, 0 - 0)".toList, 0, 0⟩) := by decide +kernel
  have complete : (substitute {} .evaluate covering formula).outcome = .ok (.filled filling) := by
    decide +kernel
  exact ⟨known, agree, filled, (same {} bare other agree).symm, covers, complete,
    (covered {} covering rfl covers).1 filling complete⟩

end IndicatorFormula
