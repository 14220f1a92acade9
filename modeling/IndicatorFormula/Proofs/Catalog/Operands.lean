import IndicatorFormula.Proofs.Catalog.Identifier
import Mathlib.Data.List.DropRight

/-! The operands of a formula, against the items that its references are resolved to.

Both name data elements with option combinations, but an operand is made of the first two parts of a
reference alone. So the two have the same keys exactly as long as no reference names an attribute
option combination. -/

set_option autoImplicit false
namespace IndicatorFormula

/-- The parts of a reference up to the last one that is no wildcard. -/
def namedParts (parts : List Text) : List Text :=
  parts.rdropWhile (· == wildcard)

/-- Holds of the parts of a reference to an attribute option combination other than the wildcard. -/
def NamesAttribute (parts : List Text) : Prop :=
  ∃ uid ∈ parts[2]?, uid ≠ wildcard

def Catalog.Finds (catalog : Catalog) (reference : Reference) : Prop :=
  ∃ object, catalog.resolveReference reference = .ok object

def operandKeys (catalog : Catalog) (formula : Text) : List Text :=
  (extractOperands catalog formula).map DimensionalItem.dimensionItem

def resolvedKey? (catalog : Catalog) (reference : Reference) : Option Text :=
  match catalog.resolveReference reference with
  | .ok (.item item) => some item.dimensionItem
  | _ => none

def resolvedKeys (catalog : Catalog) (formula : Text) : List Text :=
  (operandReferences formula).filterMap (resolvedKey? catalog)

instance (parts : List Text) : Decidable (NamesAttribute parts) :=
  inferInstanceAs (Decidable (∃ uid ∈ parts[2]?, uid ≠ wildcard))

instance (catalog : Catalog) (reference : Reference) : Decidable (catalog.Finds reference) :=
  match same : catalog.resolveReference reference with
  | .ok object => isTrue ⟨object, same⟩
  | .error _ => isFalse fun ⟨_, found⟩ => by cases same.symm.trans found

theorem namedParts_leads (parts : List Text) : namedParts parts <+: parts :=
  List.rdropWhile_prefix _ _

theorem namedParts_take_leads (parts : List Text) : namedParts (parts.take 2) <+: parts :=
  (namedParts_leads _).trans <| List.take_prefix 2 parts

theorem namedParts_single {uid : Text} (own : uid ≠ wildcard) : namedParts [uid] = [uid] := by
  simp [namedParts, List.rdropWhile, own]

theorem namedParts_wildcard (parts : List Text) :
    namedParts (parts ++ [wildcard]) = namedParts parts :=
  List.rdropWhile_concat_pos _ _ _ (by decide)

theorem namedParts_concat {uid : Text} (own : uid ≠ wildcard) (parts : List Text) :
    namedParts (parts ++ [uid]) = parts ++ [uid] :=
  List.rdropWhile_concat_neg _ _ _ (by simpa using own)

theorem NamesAttribute.lt_length {parts : List Text} (names : NamesAttribute parts) :
    2 < parts.length := by
  obtain ⟨uid, third, -⟩ := names
  exact (List.getElem?_eq_some_iff.mp third).1

theorem NamesAttribute.namedParts {parts : List Text} (names : NamesAttribute parts)
    (few : parts.length ≤ 3) : namedParts parts = parts := by
  have many := names.lt_length
  obtain ⟨first, second, third, rfl⟩ := List.length_eq_three.mp (Nat.le_antisymm few many)
  obtain ⟨uid, same, own⟩ := names
  cases same
  exact namedParts_concat own [first, second]

/-- Without its third part a reference names less just if that part is an option combination. -/
theorem namedParts_take {parts : List Text} (few : parts.length ≤ 3) :
    namedParts (parts.take 2) = namedParts parts ↔ ¬ NamesAttribute parts := by
  refine ⟨fun same names => ?_, fun plain => ?_⟩
  · have kept := (namedParts_leads (parts.take 2)).length_le
    rw [same, names.namedParts few] at kept
    have many := names.lt_length
    simp only [List.length_take] at kept
    omega
  · match parts, few with
    | [], _ | [_], _ | [_, _], _ => rfl
    | [uid, first, second], _ =>
      obtain rfl : second = wildcard := by
        by_contra own
        exact plain ⟨second, rfl, own⟩
      exact (namedParts_wildcard [uid, first]).symm

theorem namedParts_ne_nil {uid : Text} (own : uid ≠ wildcard) (parts : List Text) :
    namedParts (uid :: parts) ≠ [] := by
  intro none
  have star := List.rdropWhile_eq_nil_iff.mp none uid List.mem_cons_self
  exact own (by simpa using star)

theorem Separate.of_leads {parts others : List Text} (separate : Separate others)
    (some : parts ≠ []) (leading : parts <+: others) : Separate parts :=
  ⟨some, fun part member => separate.2 part (leading.subset member)⟩

namespace Catalog

variable {catalog : Catalog}

theorem optionCombo?_of_operandCombo? {part : Option Text} {combo : Option Entry}
    (found : catalog.operandCombo? part = some combo) : catalog.optionCombo? part = combo := by
  unfold operandCombo? at found
  split at found
  · rename_i entry listed
    cases found
    exact listed
  · rename_i absent
    split at found
    · cases found
      exact absent
    · cases found

theorem eq_item_of_resolve {kind : ReferenceKind} {parts : List (Option Text)}
    {object : CatalogObject} (dimensional : kind.isDimensional = true)
    (resolved : catalog.resolve kind parts = .ok object) : ∃ item, object = .item item := by
  unfold resolve at resolved
  split at resolved
  · cases resolved
  dsimp only at resolved
  split at resolved
  case h_2 => cases resolved
  rename_i found
  cases resolved
  cases kind with
  | constant | orgUnitGroup | days | aggregate => cases dimensional
  | _ =>
    obtain ⟨id, -, found⟩ := Option.bind_eq_some_iff.mp found
    obtain ⟨item, -, found⟩ := Option.bind_eq_some_iff.mp found
    exact ⟨item, (Option.some.inj found).symm⟩

theorem operand_of_resolveReference {reference : Reference} {object : CatalogObject}
    (kind : reference.kind = .dataElementOperand)
    (resolved : catalog.resolveReference reference = .ok object) :
    ∃ element, catalog.dataElement? (some element.uid) = some element ∧
      (reference.parts = [element.uid] ∧ object = .item (.dataElement element) ∨
        ∃ first second categoryCombo attributeCombo, reference.parts =
            element.uid :: first :: second.toList ∧
          object = .item (.operand (some element) categoryCombo attributeCombo) ∧
          catalog.operandCombo? (some first) = some categoryCombo ∧
          catalog.operandCombo? second = some attributeCombo) := by
  obtain ⟨_, parts⟩ := reference
  cases kind
  obtain ⟨item, rfl⟩ := eq_item_of_resolve rfl resolved
  obtain ⟨sound, id, identified, found⟩ := resolve_eq_item resolved
  obtain ⟨least, greatest, -⟩ := ReferenceKind.problem?_eq_none sound
  simp only [ReferenceKind.itemId?, sound, Option.isSome_none, Bool.false_eq_true,
    ↓reduceIte] at identified
  rcases parts with - | ⟨uid, - | ⟨first, - | ⟨second, - | ⟨third, parts⟩⟩⟩⟩
  · exact absurd least (by decide)
  · cases identified
    obtain ⟨element, listed, same⟩ := Option.map_eq_some_iff.mp (Except.ok.inj found)
    cases same
    cases (uid_of_find? listed).1
    exact ⟨element, listed, .inl ⟨rfl, rfl⟩⟩
  · cases identified
    obtain ⟨element, categoryCombo, attributeCombo, rfl, rfl, listed, ofFirst, ofSecond⟩ :=
      operand_of_item? found
    exact ⟨element, listed,
      .inr ⟨first, none, categoryCombo, attributeCombo, rfl, rfl, ofFirst, ofSecond⟩⟩
  · cases identified
    obtain ⟨element, categoryCombo, attributeCombo, rfl, rfl, listed, ofFirst, ofSecond⟩ :=
      operand_of_item? found
    exact ⟨element, listed,
      .inr ⟨first, some second, categoryCombo, attributeCombo, rfl, rfl, ofFirst, ofSecond⟩⟩
  · simp only [Reference.presentParts, List.length_map, List.length_cons,
      ReferenceKind.partCounts] at greatest
    omega

/-- An operand is keyed by the parts of its reference up to the last one that is no wildcard. -/
theorem dimensionItem_operand {element : Entry} {first : Text} {second : Option Text}
    {categoryCombo attributeCombo : Option Entry} (leads : element.uid ≠ [])
    (own : element.uid ≠ wildcard)
    (ofFirst : catalog.operandCombo? (some first) = some categoryCombo)
    (ofSecond : catalog.operandCombo? second = some attributeCombo) :
    (DimensionalItem.operand (some element) categoryCombo attributeCombo).dimensionItem =
      Text.join ['.'] (namedParts (element.uid :: first :: second.toList)) := by
  have star : wildcard ≠ [] := by decide
  -- Each combination is either the wildcard, which the operand forgets, or one of its members; the
  -- second may be absent.
  rcases operandCombo?_eq_some ofFirst with ⟨rfl, absent | same⟩ | ⟨combo, rfl, same, own'⟩
  · cases absent
  all_goals
    rw [Option.some.inj same]
    rcases operandCombo?_eq_some ofSecond with ⟨rfl, rfl | rfl⟩ | ⟨combo', rfl, rfl, own''⟩ <;>
      simp [DimensionalItem.dimensionItem, DimensionalItem.uid?, namedParts, List.rdropWhile,
        dotted, *]

end Catalog

variable {catalog : Catalog}

/-- How the operand and the item for a reference are keyed: by the parts up to the last one that is
no wildcard, where the operand has the first two parts only. -/
structure KeyedByParts (catalog : Catalog) (reference : Reference) : Prop where
  item : resolvedKey? catalog reference = some (Text.join ['.'] (namedParts reference.parts))
  operand : (operandOf catalog reference).dimensionItem =
    Text.join ['.'] (namedParts (reference.parts.take 2))
  few : reference.parts.length ≤ 3
  separate : Separate (namedParts reference.parts)
  separate_operand : Separate (namedParts (reference.parts.take 2))

theorem keyedByParts {reference : Reference} (kind : reference.kind = .dataElementOperand)
    (found : catalog.Finds reference) : KeyedByParts catalog reference := by
  obtain ⟨object, resolved⟩ := found
  obtain ⟨element, listed, shape⟩ := Catalog.operand_of_resolveReference kind resolved
  obtain ⟨-, leads, own⟩ := Catalog.uid_of_find? listed
  have separate : Separate reference.parts := by
    obtain ⟨item, rfl⟩ := Catalog.eq_item_of_resolve (by rw [kind]; rfl) resolved
    obtain ⟨-, id, identified, -⟩ := Catalog.resolve_eq_item resolved
    obtain ⟨same, separate, -⟩ := ReferenceKind.itemId?_eq_some identified
    rwa [← List.map_injective_iff.mpr (Option.some_injective _) same] at separate
  have begins (rest : List Text) (parts : reference.parts = element.uid :: rest) :
      Separate (namedParts reference.parts) ∧ Separate (namedParts (reference.parts.take 2)) := by
    rw [parts] at separate ⊢
    refine ⟨separate.of_leads (namedParts_ne_nil own rest) (namedParts_leads _), ?_⟩
    exact separate.of_leads (namedParts_ne_nil own (rest.take 1)) (namedParts_take_leads _)
  rcases shape
    with ⟨parts, rfl⟩ | ⟨first, second, categoryCombo, attributeCombo, parts, rfl, ofFirst,
      ofSecond⟩
  · have single : Text.join ['.'] (namedParts [element.uid]) = element.uid := by
      rw [namedParts_single own, Text.join, List.intercalate_singleton]
    have alone : (operandOf catalog reference).dimensionItem = element.uid := by
      simp [operandOf, parts, listed, Catalog.optionCombo?, Catalog.find?,
        DimensionalItem.dimensionItem, DimensionalItem.uid?, dotted, Text.join, leads]
    refine ⟨?_, ?_, by simp [parts], (begins _ parts).1, (begins _ parts).2⟩
    · rw [resolvedKey?, resolved, parts, single]
      rfl
    · rw [alone, parts]
      exact single.symm
  · have category := Catalog.optionCombo?_of_operandCombo? ofFirst
    refine ⟨?_, ?_, by cases second <;> simp [parts], (begins _ parts).1, (begins _ parts).2⟩
    · rw [resolvedKey?, resolved, parts]
      exact congrArg some (Catalog.dimensionItem_operand leads own ofFirst ofSecond)
    · have absent : catalog.operandCombo? none = some none := rfl
      simpa [operandOf, parts, listed, category]
        using Catalog.dimensionItem_operand leads own ofFirst absent

theorem mem_operandKeys_iff {formula key : Text} :
    key ∈ operandKeys catalog formula ↔
      ∃ reference ∈ operandReferences formula, (operandOf catalog reference).dimensionItem =
        key := by
  simp [operandKeys, extractOperands, List.mem_eraseDups]

theorem mem_resolvedKeys_iff {formula key : Text} :
    key ∈ resolvedKeys catalog formula ↔
      ∃ reference ∈ operandReferences formula, resolvedKey? catalog reference = some key :=
  List.mem_filterMap

/-- Where all references to data elements and operands are resolved, operands and items have the
same keys exactly if no reference names an attribute option combination. Operands are told apart by
what the first two parts name. -/
theorem extractOperands_resolved {catalog : Catalog} {formula : Text}
    (resolves : ∀ reference ∈ operandReferences formula, catalog.Finds reference) :
    ((∀ key, key ∈ operandKeys catalog formula ↔ key ∈ resolvedKeys catalog formula) ↔
      ∀ reference ∈ operandReferences formula, ¬ NamesAttribute reference.parts) ∧
    ∀ reference ∈ operandReferences formula, ∀ other ∈ operandReferences formula,
      ((operandOf catalog reference).dimensionItem = (operandOf catalog other).dimensionItem ↔
        namedParts (reference.parts.take 2) = namedParts (other.parts.take 2)) := by
  have keyed : ∀ reference ∈ operandReferences formula, KeyedByParts catalog reference :=
    fun reference member => by
    have kind : reference.kind = .dataElementOperand := by
      simpa using (Bool.and_eq_true_iff.mp (List.mem_filter.mp member).2).1
    exact keyedByParts kind (resolves reference member)
  refine ⟨⟨fun same reference member names => ?_, fun plain key => ?_⟩,
    fun reference member other member' => ?_⟩
  -- The key of the item has three parts, and that of every operand two at most.
  · have listed := mem_resolvedKeys_iff.mpr ⟨reference, member, (keyed reference member).item⟩
    obtain ⟨other, member', key⟩ := mem_operandKeys_iff.mp ((same _).mpr listed)
    have parts := ((keyed other member').separate_operand.join_inj
        (keyed reference member).separate).mp ((keyed other member').operand.symm.trans key)
    have few :=
      ((namedParts_leads (other.parts.take 2)).length_le).trans (List.length_take_le 2 other.parts)
    rw [parts, names.namedParts (keyed reference member).few] at few
    exact absurd names.lt_length (Nat.not_lt.mpr few)
  · rw [mem_operandKeys_iff, mem_resolvedKeys_iff]
    refine exists_congr fun reference => and_congr_right fun member => ?_
    have same := (namedParts_take (keyed reference member).few).mpr (plain reference member)
    rw [(keyed reference member).item, (keyed reference member).operand, same, Option.some.injEq]
  · rw [(keyed reference member).operand, (keyed other member').operand]
    exact (keyed reference member).separate_operand.join_inj (keyed other member').separate_operand

/-- Where all attribute option combinations are wildcards, operands are the items. -/
theorem extractOperands_resolved_wildcards :
    let catalog : Catalog := { dataElements := [⟨['a'], ['A']⟩], optionCombos := [⟨['b'], ['B']⟩] }
    let formula := "#{a.b.*} + #{a.*.*}".toList
    operandKeys catalog formula = ["a.b".toList, "a".toList] ∧
      (∀ key, key ∈ operandKeys catalog formula ↔ key ∈ resolvedKeys catalog formula) ∧
      (operandOf catalog ⟨.dataElementOperand, [['a'], ['b'], ['*']]⟩).dimensionItem ≠
        (operandOf catalog ⟨.dataElementOperand, [['a'], ['*'], ['*']]⟩).dimensionItem := by
  intro catalog formula
  obtain ⟨same, keys⟩ := @extractOperands_resolved catalog formula (by decide +kernel)
  refine ⟨by decide +kernel, same.mpr (by decide +kernel), fun equal => ?_⟩
  have parts := (keys _ (by decide +kernel) _ (by decide +kernel)).mp equal
  exact absurd parts (by decide)

/-- The operand for a data element with two combinations is the one for the category option
combination alone. -/
theorem extractOperands_attribute_forgotten :
    ∃ (catalog : Catalog) (formula : Text),
      (∀ reference ∈ operandReferences formula, catalog.Finds reference) ∧
        operandKeys catalog formula = ["a.b".toList] ∧
        resolvedKeys catalog formula = ["a.b".toList, "a.b.c".toList] ∧
        ¬ ∀ key, key ∈ operandKeys catalog formula ↔ key ∈ resolvedKeys catalog formula := by
  refine ⟨{ dataElements := [⟨['a'], ['A']⟩], optionCombos := [⟨['b'], ['B']⟩, ⟨['c'], ['C']⟩] },
            "#{a.b} + #{a.b.c}".toList, by decide +kernel, by decide +kernel, by decide +kernel,
            fun same => ?_⟩
  exact absurd ((same "a.b.c".toList).mpr (by decide +kernel)) (by decide +kernel)

end IndicatorFormula
