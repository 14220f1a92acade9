import IndicatorFormula.Expression.Builtin
import IndicatorFormula.Formula.Reference
import IndicatorFormula.Text.Blank
import IndicatorFormula.Text.Capital

/-! Classes of characters.

Blanks are no word characters, and the characters that a function name may be spelled with are
letters and digits. Both are finitely many, so it is enough to look at each. -/

set_option autoImplicit false
namespace IndicatorFormula.Text

def codePoints (ranges : List (Nat × Nat)) : List Nat :=
  ranges.flatMap fun range => List.range' range.1 (range.2 + 1 - range.1)

theorem mem_codePoints_of_inRanges {ranges : List (Nat × Nat)} {n : Nat}
    (inside : inRanges ranges n = true) : n ∈ codePoints ranges := by
  induction ranges with
  | nil => cases inside
  | cons range ranges ih =>
    unfold inRanges at inside
    split at inside
    · cases inside
    rename_i above
    rw [codePoints, List.flatMap_cons, List.mem_append]
    rcases Bool.or_eq_true_iff.mp inside with first | later
    · left
      rw [List.mem_range'_1]
      have := of_decide_eq_true first
      omega
    · exact .inr (ih later)

theorem of_isBlank (holds : Char → Bool)
    (each : ∀ n ∈ codePoints blankRanges, holds (Char.ofNat n) = true) {c : Char}
    (blank : isBlank c = true) : holds c = true := by
  have found := each c.toNat (mem_codePoints_of_inRanges blank)
  rwa [Char.ofNat_toNat] at found

theorem isWord_of_isBlank {c : Char} (blank : isBlank c = true) : isWord c = false := by
  have plain := of_isBlank (fun c => !isWord c) (by decide +kernel) blank
  simpa using plain

theorem isBlank_of_isWord {c : Char} (word : isWord c = true) : isBlank c = false := by
  refine Bool.eq_false_iff.mpr fun blank => ?_
  rw [isWord_of_isBlank blank] at word
  cases word

theorem ne_of_isBlank {c other : Char} (blank : isBlank c = true) (seen : isBlank other = false) :
    c ≠ other := by
  rintro rfl
  rw [blank] at seen
  cases seen

theorem of_ascii (holds : Char → Bool) (each : ∀ n ∈ List.range 128, holds (Char.ofNat n) = true)
    {c : Char} (small : c.toNat < 128) : holds c = true := by
  have found := each c.toNat (List.mem_range.mpr small)
  rwa [Char.ofNat_toNat] at found

theorem toUpper_of_large {c : Char} (large : 128 ≤ c.toNat) : c.toUpper = c := by
  unfold Char.toUpper
  refine dif_neg fun ⟨_, high⟩ => ?_
  have bound : c.toNat ≤ 122 := UInt32.le_iff_toNat_le.mp high
  omega

def smallLetters : List Char :=
  'ſ' :: 'ı' :: (List.range' 97 26).map Char.ofNat

theorem capital_of_not_mem {c : Char} (other : c ∉ smallLetters) : capital c = c := by
  rcases Nat.lt_or_ge c.toNat 128 with small | large
  · have found :=
      of_ascii (fun c => smallLetters.contains c || capital c == c) (by decide +kernel) small
    simpa [other] using found
  · have long : c ≠ 'ſ' := fun same => other (by rw [same]; exact List.mem_cons_self)
    have dotless : c ≠ 'ı' :=
      fun same => other (by rw [same]; exact List.mem_cons_of_mem _ List.mem_cons_self)
    simp [capital, long, dotless, toUpper_of_large large]

theorem of_mem_smallLetters {c : Char} (small : c ∈ smallLetters) :
    capital (capital c) = capital c ∧
      ∀ d ∈ [c, capital c], isWord d = true ∧ (d == 'İ') = false ∧ (d == '\u212a') = false := by
  have each : ∀ c ∈ smallLetters, capital (capital c) = capital c ∧
      ∀ d ∈ [c, capital c], isWord d = true ∧ (d == 'İ') = false ∧ (d == '\u212a') = false := by
    decide
  exact each c small

/-- What is alike for the small letters and their capitals is alike for every character and its
capital. -/
theorem capital_congr {α : Type} (observe : Char → α)
    (each : ∀ c ∈ smallLetters, observe (capital c) = observe c) (c : Char) :
    observe (capital c) = observe c := by
  by_cases small : c ∈ smallLetters
  · exact each c small
  · rw [capital_of_not_mem small]

@[simp] theorem capital_capital (c : Char) : capital (capital c) = capital c :=
  capital_congr capital (fun _ small => (of_mem_smallLetters small).1) c

@[simp] theorem isWord_capital (c : Char) : isWord (capital c) = isWord c := by
  refine capital_congr isWord (fun c small => ?_) c
  obtain ⟨-, each⟩ := of_mem_smallLetters small
  rw [(each c (by simp)).1, (each (capital c) (by simp)).1]

@[simp] theorem isBlank_capital (c : Char) : isBlank (capital c) = isBlank c := by
  refine capital_congr isBlank (fun c small => ?_) c
  obtain ⟨-, each⟩ := of_mem_smallLetters small
  rw [isBlank_of_isWord (each c (by simp)).1, isBlank_of_isWord (each (capital c) (by simp)).1]

@[simp] theorem spells_capital (expected c : Char) :
    spells expected (capital c) = spells expected c := by
  refine capital_congr (spells expected) (fun c small => ?_) c
  obtain ⟨-, each⟩ := of_mem_smallLetters small
  obtain ⟨-, dotted, kelvin⟩ := each c (by simp)
  obtain ⟨-, dotted', kelvin'⟩ := each (capital c) (by simp)
  simp only [spells, capital_capital, dotted, kelvin, dotted', kelvin']

theorem capital_of_unword {c : Char} (other : isWord c = false) : capital c = c := by
  refine capital_of_not_mem fun small => ?_
  rw [((of_mem_smallLetters small).2 c (by simp)).1] at other
  cases other

theorem capital_eq_iff {c other : Char} (plain : isWord other = false) :
    capital c = other ↔ c = other := by
  constructor
  · rintro rfl
    rw [isWord_capital] at plain
    exact (capital_of_unword plain).symm
  · rintro rfl
    exact capital_of_unword plain

def spellings (expected : Char) : List Char :=
  [expected, Char.ofNat (expected.toNat + 32), 'ſ', 'ı', 'İ', '\u212a']

theorem mem_spellings {expected c : Char} (spelled : spells expected c = true) :
    c ∈ spellings expected := by
  unfold spells at spelled
  simp only [Bool.or_eq_true, Bool.and_eq_true, beq_iff_eq] at spelled
  rcases spelled with (same | ⟨-, rfl⟩) | ⟨-, rfl⟩
  · unfold capital at same
    split at same
    · rename_i long
      simp [spellings, long]
    split at same
    · rename_i dotless
      simp [spellings, dotless]
    · subst same
      rcases Nat.lt_or_ge c.toNat 128 with small | large
      · have found := of_ascii (fun c => c ∈ spellings c.toUpper) (by decide +kernel) small
        exact of_decide_eq_true found
      · rw [toUpper_of_large large]
        simp [spellings]
  · simp [spellings]
  · simp [spellings]

def nameCharacters : List Char :=
  Builtin.all.flatMap Builtin.name

theorem mem_nameCharacters {function : Builtin} {c : Char} (member : c ∈ function.name) :
    c ∈ nameCharacters :=
  List.mem_flatMap.mpr ⟨function, by cases function <;> decide, member⟩

theorem of_spells (holds : Char → Char → Bool)
    (each : ∀ expected ∈ nameCharacters, ∀ c ∈ spellings expected, holds expected c = true)
    {expected c : Char} (member : expected ∈ nameCharacters) (spelled : spells expected c = true) :
    holds expected c = true :=
  each expected member c (mem_spellings spelled)

theorem isWord_of_spells {expected c : Char} (member : expected ∈ nameCharacters)
    (spelled : spells expected c = true) : isWord c = true :=
  of_spells (fun _ c => isWord c) (by decide +kernel) member spelled

end IndicatorFormula.Text
