import Mathlib.Data.List.Induction
import IndicatorFormula.Substitution.Filling

/-! What is supplied for keys, and finite numbers in it.

A table holds no values but those that were supplied for it, and for each key the last of these. So
all numbers for references are finite if all supplied ones are. -/

set_option autoImplicit false
namespace IndicatorFormula

def Number.IsFinite (x : Number) : Prop :=
  ∃ negative m, x.toDouble = .ok (.finite negative m)

instance (x : Number) : Decidable x.IsFinite :=
  decidable_of_iff (x.toDouble.toOption.any Double.isFinite = true) (by
    unfold Number.IsFinite
    rcases x.toDouble with _ | (_ | _ | _) <;> simp [Except.toOption, Double.isFinite])

structure Inputs.Finite (inputs : Inputs) : Prop where
  values : ∀ entry ∈ inputs.values, ∀ x ∈ entry.2, x.IsFinite
  constants : ∀ entry ∈ inputs.constants, entry.2.IsFinite
  groupCounts : ∀ entry ∈ inputs.groupCounts, entry.2.IsFinite
  days : ∀ x ∈ inputs.days, x.IsFinite

theorem mem_of_lookup {κ α : Type} [BEq κ] [LawfulBEq κ] {entries : List (κ × α)} {key : κ}
    {value : α} (found : entries.lookup key = some value) : (key, value) ∈ entries := by
  obtain ⟨before, after, same, -⟩ := List.lookup_eq_some_iff.mp found
  simp [same]

section Table

variable {κ α : Type} [DecidableEq κ]

theorem mem_supply {key : κ} {value : α} {entries : List (κ × α)} {entry : κ × α}
    (member : entry ∈ supply key value entries) : entry = (key, value) ∨ entry ∈ entries := by
  induction entries with
  | nil => exact .inl (List.mem_singleton.mp member)
  | cons former entries ih =>
    unfold supply at member
    split at member
    · rename_i same
      rcases List.mem_cons.mp member with rfl | member
      · exact .inl (by rw [same])
      · exact .inr (List.mem_cons_of_mem _ member)
    · rcases List.mem_cons.mp member with rfl | member
      · exact .inr List.mem_cons_self
      · exact (ih member).imp_right (List.mem_cons_of_mem _)

theorem supplyAll_concat (entries : List (κ × α)) (last : κ × α) :
    supplyAll (entries ++ [last]) = supply last.1 last.2 (supplyAll entries) := by
  simp [supplyAll]

theorem mem_supplyAll {entries : List (κ × α)} {entry : κ × α}
    (member : entry ∈ supplyAll entries) : entry ∈ entries := by
  induction entries using List.reverseRecOn with
  | nil => exact member
  | append_singleton entries last ih =>
    rw [supplyAll_concat] at member
    rcases mem_supply member with rfl | within
    · exact List.mem_concat_self
    · exact List.mem_append_left _ (ih within)

theorem supply_of_not_mem {key : κ} {value : α} {entries : List (κ × α)}
    (new : key ∉ entries.map Prod.fst) : supply key value entries = entries ++ [(key, value)] := by
  induction entries with
  | nil => rfl
  | cons first entries ih =>
    obtain ⟨differs, new⟩ := not_or.mp fun old => new (List.mem_cons.mpr old)
    rw [supply, if_neg (Ne.symm differs), ih new, List.cons_append]

theorem supplyAll_of_nodup {entries : List (κ × α)} (distinct : (entries.map Prod.fst).Nodup) :
    supplyAll entries = entries := by
  induction entries using List.reverseRecOn with
  | nil => rfl
  | append_singleton entries last ih =>
    rw [List.map_append, List.nodup_append] at distinct
    rw [supplyAll_concat, ih distinct.1]
    exact supply_of_not_mem fun old => distinct.2.2 _ old _ (List.mem_singleton_self _) rfl

variable [BEq κ] [LawfulBEq κ]

theorem lookup_supply (key other : κ) (value : α) (entries : List (κ × α)) :
    (supply key value entries).lookup other = if other = key then some value
      else entries.lookup other := by
  induction entries with
  | nil =>
    rw [supply, List.lookup_cons]
    by_cases same : other = key
    · simp [same]
    · simp [same, beq_false_of_ne same]
  | cons first entries ih =>
    obtain ⟨known, former⟩ := first
    unfold supply
    split
    · rename_i same
      subst same
      rw [List.lookup_cons, List.lookup_cons]
      by_cases same : other = known
      · simp [same]
      · simp [same, beq_false_of_ne same]
    · rename_i differs
      rw [List.lookup_cons, List.lookup_cons, ih]
      by_cases here : other = known
      · simp [here, differs]
      · simp [beq_false_of_ne here]

/-- Of several values that are supplied for a key, the last one counts. -/
theorem lookup_supplyAll (key : κ) (entries : List (κ × α)) :
    (supplyAll entries).lookup key = ((entries.filter (·.1 = key)).map Prod.snd).getLast? := by
  induction entries using List.reverseRecOn with
  | nil => rfl
  | append_singleton entries last ih =>
    rw [supplyAll_concat, lookup_supply, ih, List.filter_append, List.map_append,
      List.getLast?_append]
    by_cases same : last.1 = key
    · simp [same]
    · simp [same, Ne.symm same]

theorem exists_lookup_supplyAll {entries : List (κ × α)} {entry : κ × α}
    (member : entry ∈ entries) : ∃ value, (supplyAll entries).lookup entry.1 = some value := by
  rw [← Option.isSome_iff_exists, lookup_supplyAll, List.getLast?_isSome]
  exact List.ne_nil_of_mem (List.mem_map_of_mem (List.mem_filter.mpr ⟨member, decide_eq_true rfl⟩))

end Table

theorem mem_of_lookup_valueTable {values : List (ValueKey × Option Number)} {key : Text}
    {x : Number} (found : (valueTable values).lookup key = some x) :
    ∃ entry ∈ values, entry.1.dimensionItem = key ∧ entry.2 = some x := by
  obtain ⟨entry, listed, present⟩ := List.mem_filterMap.mp (mem_supplyAll (mem_of_lookup found))
  obtain ⟨value, given, equal⟩ := Option.map_eq_some_iff.mp present
  exact ⟨entry, mem_supplyAll listed, congrArg Prod.fst equal,
    by rw [given, ← (Prod.mk.inj equal).2]⟩

/-- Holds of values among which there are some for keys that stand for a text, all of them the same
number. -/
def Supplies (values : List (ValueKey × Option Number)) (key : Text) (x : Number) : Prop :=
  (∃ entry ∈ values, entry.1.dimensionItem = key) ∧
    ∀ entry ∈ values, entry.1.dimensionItem = key → entry.2 = some x

theorem lookup_valueTable {values : List (ValueKey × Option Number)} {key : Text} {x : Number}
    (supplied : Supplies values key x) : (valueTable values).lookup key = some x := by
  obtain ⟨⟨⟨own, value⟩, member, stands⟩, same⟩ := supplied
  obtain ⟨value', listed⟩ := exists_lookup_supplyAll member
  have listed := mem_of_lookup listed
  cases same _ (mem_supplyAll listed) stands
  have present : (key, x) ∈ (supplyAll values).filterMap fun entry =>
      entry.2.map fun value => (entry.1.dimensionItem, value) :=
    List.mem_filterMap.mpr ⟨_, listed, by simpa using stands⟩
  obtain ⟨z, found⟩ : ∃ z, (valueTable values).lookup key = some z :=
    exists_lookup_supplyAll present
  obtain ⟨entry, within, stands', given⟩ := mem_of_lookup_valueTable found
  rw [found, ← given, same entry within stands']

namespace Supply

theorem number?_congr {reference other : Reference} (numbers : Supply)
    (kind : reference.kind = other.kind) (key : reference.key = other.key) :
    numbers.number? reference = numbers.number? other := by
  simp only [number?, kind, key]

theorem number?_of_isDimensional {reference : Reference} (numbers : Supply)
    (dimensional : reference.isDimensional = true) :
    numbers.number? reference = numbers.values.lookup reference.key := by
  obtain ⟨kind, parts⟩ := reference
  revert dimensional
  cases kind <;> simp [Reference.isDimensional, ReferenceKind.isDimensional, number?]

def Finite (numbers : Supply) : Prop :=
  ∀ reference, ∀ x ∈ numbers.number? reference, x.IsFinite

theorem finite_of_inputs {inputs : Inputs} (finite : inputs.Finite) : inputs.supply.Finite := by
  have values : ∀ key, ∀ x ∈ (valueTable inputs.values).lookup key, x.IsFinite := by
    intro key x found
    obtain ⟨entry, within, -, given⟩ := mem_of_lookup_valueTable found
    exact finite.values entry within x given
  have table : ∀ {table : Table Number}, (∀ entry ∈ table, entry.2.IsFinite) →
      ∀ key, ∀ x ∈ table.lookup key, x.IsFinite := by
    intro table each key x found
    exact each _ (mem_of_lookup found)
  intro reference x found
  unfold number? at found
  split at found
  · exact table finite.constants _ x found
  · exact table finite.groupCounts _ x found
  · exact finite.days x found
  · exact values _ x found

def double (numbers : Supply) (reference : Reference) : Except Fault Double :=
  match numbers.number? reference with
  | some x => x.toDouble
  | none => .ok (.zero false)

end Supply
end IndicatorFormula
