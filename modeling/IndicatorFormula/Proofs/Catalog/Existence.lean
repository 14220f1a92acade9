import IndicatorFormula.Proofs.Catalog.Identifier

/-! When references are resolved.

Resolving a reference takes steps that are not possible for every reference: a kind may have no
objects, parts may be too few for a look-up or make no identifier, and a metric may be unknown. The
check of the parts comes first, and what it lets through never gets stuck. Whether there is an
object is then a question of the uids alone: each of them has to be in the table for its place. -/

set_option autoImplicit false
namespace IndicatorFormula

section Parts

variable {kind : ReferenceKind} {parts : List (Option Text)}

theorem ReferenceKind.eq_single (one : kind.partCounts = (1, 1))
    (sound : kind.problem? parts = none) :
    ∃ uid, parts = [some uid] ∧ uid ≠ [] ∧ uid ≠ wildcard := by
  obtain ⟨least, greatest, good⟩ := problem?_eq_none sound
  obtain ⟨texts, rfl, each⟩ := badPart?_eq_none good
  rw [one, List.length_map] at least greatest
  obtain ⟨uid, rfl⟩ := List.length_eq_one_iff.mp (Nat.le_antisymm greatest least)
  obtain ⟨leads, -, own⟩ := each uid List.mem_cons_self
  exact ⟨uid, rfl, leads, own (by rintro rfl; cases one)⟩

theorem ReferenceKind.eq_pair (two : kind.partCounts = (2, 2))
    (sound : kind.problem? parts = none) :
    ∃ first second, parts = [some first, some second] ∧ (first ≠ [] ∧ first ≠ wildcard) ∧
      second ≠ [] ∧ second ≠ wildcard := by
  obtain ⟨least, greatest, good⟩ := problem?_eq_none sound
  obtain ⟨texts, rfl, each⟩ := badPart?_eq_none good
  rw [two, List.length_map] at least greatest
  obtain ⟨first, second, rfl⟩ := List.length_eq_two.mp (Nat.le_antisymm greatest least)
  have own : ∀ uid ∈ [first, second], uid ≠ [] ∧ uid ≠ wildcard := fun uid member =>
    ⟨(each uid member).1, (each uid member).2.2 (by rintro rfl; cases two)⟩
  exact ⟨first, second, rfl, own first (by simp), own second (by simp)⟩

end Parts

namespace Catalog

inductive Stuck where
  /-- Nothing in a catalog is of the kind. -/
  | noObjects
  /-- The part that is to be looked up is not there. -/
  | noPart
  /-- The parts make no identifier of an item. -/
  | noIdentifier
  | unknownMetric (unknown : UnknownMetric)
  deriving DecidableEq, Repr

def search (catalog : Catalog) (kind : ReferenceKind) (parts : List (Option Text)) :
    Except Stuck (Option CatalogObject) :=
  match kind with
  | .constant =>
    match parts with
    | uid :: _ => .ok ((catalog.constant? uid).map .constant)
    | [] => .error .noPart
  | .orgUnitGroup =>
    match parts with
    | uid :: _ => .ok ((catalog.orgUnitGroup? uid).map .orgUnitGroup)
    | [] => .error .noPart
  | .days => .ok (some .days)
  | .aggregate => .error .noObjects
  | _ =>
    match kind.itemId? parts with
    | some id => do return (← (catalog.item? id).mapError .unknownMetric).map .item
    | none => .error .noIdentifier

def settle (kind : ReferenceKind) (parts : List (Option Text)) :
    Option CatalogObject → Except ReferenceError CatalogObject
  | some object => .ok object
  | none => .error (.missing kind (dotted parts))

/-- Resolves a reference like `resolve`, but with every step that can get stuck. -/
def resolveStepwise (catalog : Catalog) (kind : ReferenceKind) (parts : List (Option Text)) :
    Except Stuck (Except ReferenceError CatalogObject) :=
  match kind.problem? parts with
  | some problem => return .error (.malformed problem)
  | none => do return settle kind parts (← catalog.search kind parts)

/-- The uids of the objects that the part behind `index` others is looked up among, if that part
names an object. The second part of a reporting rate names a metric. -/
def table? (catalog : Catalog) (kind : ReferenceKind) (index : Nat) : Option (List Text) :=
  match kind, index with
  | .dataElementOperand, 0 | .programDataElement, 1 => some (catalog.dataElements.map Entry.uid)
  | .dataElementOperand, _ => some (catalog.optionCombos.map Entry.uid)
  | .programDataElement, 0 | .programAttribute, 0 => some (catalog.programs.map Entry.uid)
  | .programAttribute, 1 => some (catalog.attributes.map Entry.uid)
  | .programIndicator, 0 => some (catalog.programIndicators.map fun indicator => indicator.uid)
  | .reportingRate, 0 => some (catalog.dataSets.map Entry.uid)
  | .constant, 0 => some (catalog.constants.map fun constant => constant.uid)
  | .orgUnitGroup, 0 => some (catalog.orgUnitGroups.map fun group => group.uid)
  | _, _ => none

/-- Holds if an object exists that is named by a uid behind `index` other parts. The wildcard names
none. -/
def Named (catalog : Catalog) (kind : ReferenceKind) (index : Nat) (uid : Text) : Prop :=
  uid ≠ wildcard → ∀ uids ∈ catalog.table? kind index, uid ∈ uids

def HasNamed (catalog : Catalog) (kind : ReferenceKind) (parts : List (Option Text)) : Prop :=
  ∀ part ∈ parts.zipIdx, ∀ uid ∈ part.1, catalog.Named kind part.2 uid

variable {catalog : Catalog} {kind : ReferenceKind} {α : Type} {uidOf : α → Text} {objects : List α}
  {uid : Text} {index : Nat}

theorem isSome_find?_iff (table : catalog.table? kind index = some (objects.map uidOf))
    (own : uid ≠ [] ∧ uid ≠ wildcard) :
    (find? uidOf objects (some uid)).isSome = true ↔ catalog.Named kind index uid := by
  simp [find?, own, List.find?_isSome, Named, table]

theorem isSome_operandCombo?_iff
    (table : catalog.table? kind index = some (catalog.optionCombos.map Entry.uid))
    (leads : uid ≠ []) :
    (catalog.operandCombo? (some uid)).isSome = true ↔ catalog.Named kind index uid := by
  by_cases star : uid = wildcard
  · subst star
    exact iff_of_true rfl fun own => absurd rfl own
  · rw [← isSome_find?_iff table ⟨leads, star⟩]
    change _ ↔ (catalog.optionCombo? (some uid)).isSome = true
    unfold operandCombo?
    cases catalog.optionCombo? (some uid) <;> simp [star]

theorem resolve_eq_settle {parts : List (Option Text)} (sound : kind.problem? parts = none)
    {found : Option CatalogObject} (searched : catalog.search kind parts = .ok found) :
    catalog.resolve kind parts = settle kind parts found := by
  have looked {id : ItemId} {item : Option DimensionalItem}
      (identified : kind.itemId? parts = some id) (read : catalog.item? id = .ok item) : (do
        let id ← kind.itemId? parts
        let item ← (catalog.item? id).toOption.join
        return CatalogObject.item item) = item.map .item := by
    rw [identified]
    cases item <;> simp [read, Except.toOption]
  cases kind with
  | constant | orgUnitGroup =>
    cases parts with
    | nil => cases searched
    | cons uid parts =>
      cases searched
      simp only [resolve, sound, List.head?_cons, Option.join_some]
      rfl
  | days =>
    cases searched
    simp only [resolve, sound]
    rfl
  | aggregate => cases searched
  | _ =>
    simp only [search] at searched
    split at searched
    · rename_i id identified
      obtain ⟨item, read, same⟩ := bind_eq_ok_iff.mp searched
      cases same
      have read : catalog.item? id = .ok item := by
        cases returned : catalog.item? id <;> simp_all
      simp only [resolve, sound, looked identified read]
      rfl
    · cases searched

theorem head_ne_wildcard {parts : List (Option Text)}
    (good : kind.badPart? 0 (some uid :: parts) = none) : uid ≠ wildcard := by
  rintro rfl
  have refused : kind.acceptsPart 0 (some wildcard) = false := by
    cases kind <;> decide
  simp [ReferenceKind.badPart?, refused] at good

theorem hasNamed_nil : catalog.HasNamed kind [] ↔ True := by
  simp [HasNamed]

theorem hasNamed_single : catalog.HasNamed kind [some uid] ↔ catalog.Named kind 0 uid := by
  simp [HasNamed]

theorem hasNamed_pair {first second : Text} :
    catalog.HasNamed kind [some first, some second] ↔
      catalog.Named kind 0 first ∧ catalog.Named kind 1 second := by
  simp [HasNamed]

theorem hasNamed_triple {first second third : Text} :
    catalog.HasNamed kind [some first, some second, some third] ↔
      catalog.Named kind 0 first ∧ catalog.Named kind 1 second ∧ catalog.Named kind 2 third := by
  simp [HasNamed]

variable {first second : Option Text} {item : Option DimensionalItem}

theorem isSome_bind_iff {β : Type} {x : Option α} {next : α → Option β} {later : Prop}
    (each : ∀ value, (next value).isSome = true ↔ later) :
    (x >>= next).isSome = true ↔ x.isSome = true ∧ later := by
  cases x with
  | none => simp
  | some value => simpa using each value

theorem isSome_both_iff {β γ : Type} {x : Option α} {y : Option β} {make : α → β → γ} :
    (do return make (← x) (← y)).isSome = true ↔ x.isSome = true ∧ y.isSome = true :=
  isSome_bind_iff
    fun _ => (isSome_bind_iff fun _ => iff_of_true rfl trivial).trans (iff_of_eq (and_true _))

theorem isSome_operand_iff
    (read : catalog.item? ⟨.dataElementOperand, uid, first, second⟩ = .ok item) :
    item.isSome = true ↔
      (catalog.dataElement? (some uid)).isSome = true ∧
        (catalog.operandCombo? first).isSome = true ∧
        (catalog.operandCombo? second).isSome = true := by
  cases read
  exact isSome_bind_iff fun element => isSome_both_iff

theorem isSome_reportingRate_iff
    (read : catalog.item? ⟨.reportingRate, uid, first, second⟩ = .ok item) :
    item.isSome = true ↔ (catalog.dataSet? (some uid)).isSome = true := by
  simp only [item?] at read
  split at read
  · rename_i absent
    cases read
    simp [absent]
  · rename_i dataSet listed
    split at read
    · cases read
      simp [listed]
    · cases read

theorem isSome_item?_operand_iff {parts : List (Option Text)}
    (sound : ReferenceKind.dataElementOperand.problem? parts = none) {id : ItemId}
    (identified : ReferenceKind.dataElementOperand.itemId? parts = some id)
    (read : catalog.item? id = .ok item) :
    item.isSome = true ↔ catalog.HasNamed .dataElementOperand parts := by
  obtain ⟨least, greatest, good⟩ := ReferenceKind.problem?_eq_none sound
  obtain ⟨texts, rfl, each⟩ := ReferenceKind.badPart?_eq_none good
  simp only [ReferenceKind.itemId?, sound, Option.isSome_none, Bool.false_eq_true,
    ↓reduceIte] at identified
  have element {uid : Text} (leads : uid ≠ []) (own : uid ≠ wildcard) :
      (catalog.dataElement? (some uid)).isSome = true ↔ catalog.Named .dataElementOperand 0 uid :=
    isSome_find?_iff rfl ⟨leads, own⟩
  have combo (place : Nat) {uid : Text} (leads : uid ≠ []) :
      (catalog.operandCombo? (some uid)).isSome = true ↔
        catalog.Named .dataElementOperand (place + 1) uid :=
    isSome_operandCombo?_iff rfl leads
  have absent : (catalog.operandCombo? none).isSome = true := rfl
  rcases texts with - | ⟨uid, - | ⟨first, - | ⟨second, - | ⟨third, texts⟩⟩⟩⟩
  · exact absurd least (by decide)
  · cases identified
    cases read
    rw [Option.isSome_map, element (each uid (by simp)).1 (head_ne_wildcard good)]
    exact hasNamed_single.symm
  · cases identified
    have found := (and_iff_left absent).trans (combo 0 (each first (by simp)).1)
    exact (isSome_operand_iff read).trans ((and_congr
        (element (each uid (by simp)).1 (head_ne_wildcard good)) found).trans hasNamed_pair.symm)
  · cases identified
    have found := and_congr (combo 0 (each first (by simp)).1) (combo 1 (each second (by simp)).1)
    exact (isSome_operand_iff read).trans ((and_congr
        (element (each uid (by simp)).1 (head_ne_wildcard good)) found).trans hasNamed_triple.symm)
  · simp only [List.map_cons, List.length_cons, List.length_map,
      ReferenceKind.partCounts] at greatest
    omega

theorem isSome_item?_iff {parts : List (Option Text)} (sound : kind.problem? parts = none)
    {id : ItemId} (identified : kind.itemId? parts = some id) (read : catalog.item? id = .ok item) :
    item.isSome = true ↔ catalog.HasNamed kind parts := by
  by_cases operand : kind = .dataElementOperand
  · subst operand
    exact isSome_item?_operand_iff sound identified read
  simp only [ReferenceKind.itemId?, sound, Option.isSome_none, Bool.false_eq_true,
    ↓reduceIte] at identified
  cases kind with
  | constant | orgUnitGroup | days | aggregate => cases identified
  | dataElementOperand => exact absurd rfl operand
  | programIndicator =>
    obtain ⟨uid, rfl, own⟩ := ReferenceKind.eq_single rfl sound
    cases identified
    cases read
    have found : (catalog.programIndicator? (some uid)).isSome = true ↔
        catalog.Named .programIndicator 0 uid :=
      isSome_find?_iff rfl own
    rw [Option.isSome_map, found]
    exact hasNamed_single.symm
  | reportingRate =>
    obtain ⟨uid, metric, rfl, own, -⟩ := ReferenceKind.eq_pair rfl sound
    cases identified
    have found : (catalog.dataSet? (some uid)).isSome = true ↔ catalog.Named .reportingRate 0 uid :=
      isSome_find?_iff rfl own
    have unnamed : catalog.Named .reportingRate 1 metric := fun _ _ none => by cases none
    exact (isSome_reportingRate_iff read).trans
      (found.trans ((and_iff_left unnamed).symm.trans hasNamed_pair.symm))
  | programDataElement =>
    obtain ⟨uid, element, rfl, own, own'⟩ := ReferenceKind.eq_pair rfl sound
    cases identified
    cases read
    have first : (catalog.program? (some uid)).isSome = true ↔
        catalog.Named .programDataElement 0 uid :=
      isSome_find?_iff rfl own
    have second : (catalog.dataElement? (some element)).isSome = true ↔
        catalog.Named .programDataElement 1 element :=
      isSome_find?_iff rfl own'
    exact isSome_both_iff.trans ((and_congr first second).trans hasNamed_pair.symm)
  | programAttribute =>
    obtain ⟨uid, trackedAttribute, rfl, own, own'⟩ := ReferenceKind.eq_pair rfl sound
    cases identified
    cases read
    have first : (catalog.program? (some uid)).isSome = true ↔
        catalog.Named .programAttribute 0 uid :=
      isSome_find?_iff rfl own
    have second : (catalog.trackedAttribute? (some trackedAttribute)).isSome = true ↔
        catalog.Named .programAttribute 1 trackedAttribute :=
      isSome_find?_iff rfl own'
    exact isSome_both_iff.trans ((and_congr first second).trans hasNamed_pair.symm)

/-- What the check of the parts lets through is looked up to the end, and it is found if all that it
names is there. -/
theorem search_returns (catalog : Catalog) {parts : List (Option Text)}
    (sound : kind.problem? parts = none) :
    ∃ found, catalog.search kind parts = .ok found ∧
      (found.isSome = true ↔ catalog.HasNamed kind parts) := by
  cases dimensional : kind.isDimensional with
  | true =>
    obtain ⟨id, identified⟩ := ReferenceKind.exists_itemId? dimensional sound
    obtain ⟨item, read⟩ : ∃ item, catalog.item? id = .ok item := item?_of_itemId? identified
    refine ⟨item.map .item, ?_,
      by rw [Option.isSome_map]; exact isSome_item?_iff sound identified read⟩
    cases kind with
    | constant | orgUnitGroup | days | aggregate => cases dimensional
    | _ =>
      simp only [search, identified, read]
      rfl
  | false =>
    cases kind with
    | constant | orgUnitGroup =>
      obtain ⟨uid, rfl, own⟩ := ReferenceKind.eq_single rfl sound
      refine ⟨_, rfl, ?_⟩
      rw [Option.isSome_map]
      exact (isSome_find?_iff rfl own).trans hasNamed_single.symm
    | days =>
      obtain rfl :=
        List.length_eq_zero_iff.mp (Nat.le_zero.mp (ReferenceKind.problem?_eq_none sound).2.1)
      exact ⟨_, rfl, iff_of_true rfl (hasNamed_nil.mpr trivial)⟩
    | aggregate => simp [ReferenceKind.problem?] at sound
    | _ => cases dimensional

end Catalog

theorem exists_metric_of_itemId? {kind : ReferenceKind} {parts : List (Option Text)} {id : ItemId}
    (identified : kind.itemId? parts = some id) (type : id.type = .reportingRate) :
    ∃ metric, id.second.bind Metric.ofName? = some metric := by
  obtain ⟨-, -, typed⟩ := ReferenceKind.itemId?_eq_some identified
  obtain rfl : .reportingRate = kind := by rw [← ReferenceKind.kind_itemType? typed, type]; rfl
  unfold ReferenceKind.itemId? at identified
  split at identified
  · cases identified
  rename_i sound
  replace sound := Option.not_isSome_iff_eq_none.mp sound
  obtain ⟨uid, metric, rfl, -⟩ := ReferenceKind.eq_pair rfl sound
  cases identified
  exact ReferenceKind.exists_metric sound

/-- Resolving never gets stuck, for no kind and no parts. A reference is malformed if the check of
its parts says so; else it is resolved if all objects exist that its parts name, and missing if not.
The metric of a reporting rate is known before it is looked up. -/
theorem resolve_exact (catalog : Catalog) (kind : ReferenceKind) (parts : List (Option Text)) :
    catalog.resolveStepwise kind parts = .ok (catalog.resolve kind parts) ∧
      (∀ problem, catalog.resolve kind parts = .error (.malformed problem) ↔
        kind.problem? parts = some problem) ∧
      ((∃ object, catalog.resolve kind parts = .ok object) ↔
        kind.problem? parts = none ∧ catalog.HasNamed kind parts) ∧
      (catalog.resolve kind parts = .error (.missing kind (dotted parts)) ↔
        kind.problem? parts = none ∧ ¬ catalog.HasNamed kind parts) ∧
      ∀ id, kind.itemId? parts = some id → id.type = .reportingRate →
        ∃ metric, id.second.bind Metric.ofName? = some metric := by
  have metrics (id : ItemId) (identified : kind.itemId? parts = some id)
    (type : id.type = .reportingRate) :=
    exists_metric_of_itemId? identified type
  cases checked : kind.problem? parts with
  | some problem =>
    have refused : catalog.resolve kind parts = .error (.malformed problem) := by
      simp only [Catalog.resolve, checked]
    refine ⟨?_, ?_, ?_, ?_, metrics⟩
    · simp only [Catalog.resolveStepwise, checked, refused]
      rfl
    all_goals simp [refused]
  | none =>
    obtain ⟨found, searched, named⟩ := catalog.search_returns checked
    have settled := Catalog.resolve_eq_settle checked searched
    rw [settled, ← named]
    refine ⟨?_, ?_, ?_, ?_, metrics⟩
    · simp only [Catalog.resolveStepwise, checked, searched]
      rfl
    all_goals cases found <;> simp [Catalog.settle]

end IndicatorFormula
