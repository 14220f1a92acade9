import IndicatorFormula.Proofs.Substitution.Brackets
import Mathlib.Algebra.BigOperators.Group.List.Basic

/-! How deep the brackets of a text are nested.

The depth at a place counts from a bracket that opens right before a start. That bracket closes at
the first delimiter behind which the depth is zero, and where there is none, the depth stays above
zero up to the end of the text. A text is split at its closing delimiter there. -/

set_option autoImplicit false
namespace IndicatorFormula

def Nesting.rise : Nesting → Int
  | .opens => 1
  | .closes => -1
  | .stays => 0

namespace Text

/-- How many more brackets a text opens than it closes: less than zero if it closes more. -/
def rise (text : Text) : Int :=
  (text.map fun c => (nesting c).rise).sum

@[simp] theorem rise_nil : rise [] = 0 :=
  rfl

@[simp] theorem rise_cons (c : Char) (text : Text) :
    rise (c :: text) = (nesting c).rise + rise text :=
  List.sum_cons

@[simp] theorem rise_append (first second : Text) :
    rise (first ++ second) = rise first + rise second := by
  rw [rise, List.map_append, List.sum_append]
  rfl

theorem rise_of_depth? {text : Text} {depth deeper : Nat}
    (within : depth? nesting depth text = some deeper) : (deeper : Int) = depth + rise text := by
  induction text generalizing depth with
  | nil =>
    cases within
    simp
  | cons c text ih =>
    rw [depth?_cons] at within
    obtain ⟨middle, turned, within⟩ := Option.bind_eq_some_iff.mp within
    have turn : (middle : Int) = depth + (nesting c).rise := by
      cases kind : nesting c with
      | opens | stays =>
        rw [kind] at turned
        cases turned
        simp [Nesting.rise]
      | closes =>
        rw [kind] at turned
        cases depth with
        | zero => cases turned
        | succ depth =>
          cases turned
          simp [Nesting.rise]
    rw [ih within, turn, rise_cons, Int.add_assoc]

/-- A text that closes no bracket from outside does so nowhere on the way. -/
theorem rise_of_prefix {text lead : Text} {depth deeper : Nat}
    (within : depth? nesting depth text = some deeper) (begins : lead <+: text) :
    0 ≤ depth + rise lead := by
  obtain ⟨tail, rfl⟩ := begins
  rw [depth?_append] at within
  obtain ⟨middle, within, -⟩ := Option.bind_eq_some_iff.mp within
  rw [← rise_of_depth? within]
  exact Int.natCast_nonneg middle

/-- How many brackets are open at a place, counted from one that opens right before a start. -/
def depthAt (text : Text) (start place : Nat) : Int :=
  1 + rise ((text.drop start).take (place - start))

end Text

theorem depth?_of_splitClosing? {text : Text} {depth : Nat}
    (whole : splitClosing? depth text = none) :
    ∃ deeper, depth? Text.nesting depth text = some deeper := by
  induction text generalizing depth with
  | nil => exact ⟨depth, rfl⟩
  | cons c text ih =>
    cases kind : Text.nesting c with
    | opens =>
      rw [splitClosing?_opens kind] at whole
      rw [depth?_opens kind]
      exact ih (Option.map_eq_none_iff.mp whole)
    | stays =>
      rw [splitClosing?_stays kind] at whole
      rw [depth?_stays kind]
      exact ih (Option.map_eq_none_iff.mp whole)
    | closes =>
      rw [splitClosing?_closes kind] at whole
      cases depth with
      | zero => cases whole
      | succ depth =>
        rw [depth?_closes kind]
        exact ih (Option.map_eq_none_iff.mp whole)

/-- Where the bracket right before a start closes, if it does: at the first delimiter behind which
the depth is zero. -/
inductive Matching (text : Text) (start : Nat) : Option Nat → Prop where
  | closed {closing : Nat} {closer : Char} (behind : start ≤ closing)
      (found : text[closing]? = some closer) (closes : closer ∈ [')', ']'])
      (balanced : text.depthAt start closing = 1)
      (inside : ∀ place ≤ closing, 0 < text.depthAt start place)
      (zero : text.depthAt start (closing + 1) = 0) : Matching text start (some closing)
  | unclosed (never : ∀ place, 0 < text.depthAt start place) : Matching text start none

namespace Matching

variable {text : Text} {start : Nat} {closing? other? : Option Nat}

theorem unique (matching : Matching text start closing?) (matching' : Matching text start other?) :
    closing? = other? := by
  -- The place that comes first is at depth zero, so the bracket is no longer open at the other one.
  have first {closing other : Nat} (zero : text.depthAt start (closing + 1) = 0)
      (inside : ∀ place ≤ other, 0 < text.depthAt start place) : other ≤ closing := by
    by_contra later
    exact (inside (closing + 1) (by omega)).ne' zero
  cases matching with
  | closed _ _ _ _ inside zero =>
    cases matching' with
    | closed _ _ _ _ inside' zero' =>
      exact congrArg some (Nat.le_antisymm (first zero' inside) (first zero inside'))
    | unclosed never => exact absurd zero (never _).ne'
  | unclosed never =>
    cases matching' with
    | closed _ _ _ _ _ zero => exact absurd zero (never _).ne'
    | unclosed => rfl

end Matching

theorem mem_of_closes {c : Char} (closes : Text.nesting c = .closes) : c ∈ [')', ']'] := by
  simpa using (closes_iff.mp closes).2

/-- A text is split where the bracket right before it closes. -/
theorem matching_splitClosing? (before text : Text) :
    Matching (before ++ text) before.length
      ((splitClosing? 0 text).map fun found => before.length + found.1.length) := by
  have at' (place : Nat) :
      (before ++ text).depthAt before.length place =
        1 + Text.rise (text.take (place - before.length)) := by
    rw [Text.depthAt, List.drop_left]
  cases split : splitClosing? 0 text with
  | none =>
    obtain ⟨deeper, within⟩ := depth?_of_splitClosing? split
    refine .unclosed fun place => ?_
    have least := Text.rise_of_prefix within (List.take_prefix (place - before.length) text)
    rw [at']
    omega
  | some found =>
    obtain ⟨argument, closer, behind⟩ := found
    obtain ⟨within, closes⟩ := closed_of_splitClosing? split
    obtain rfl := eq_of_splitClosing? split
    have level : Text.rise argument = 0 := by simpa using (Text.rise_of_depth? within).symm
    have found : (before ++ (argument ++ closer :: behind))[before.length + argument.length]? =
        some closer := by
      simp
    refine .closed (Nat.le_add_right ..) found (mem_of_closes closes) ?_ (fun place least => ?_) ?_
    · rw [at']
      simp [level]
    · have inside : (argument ++ closer :: behind).take (place - before.length) <+: argument := by
        rw [List.take_append_of_le_length (Nat.sub_le_iff_le_add'.mpr least)]
        exact List.take_prefix ..
      have least := Text.rise_of_prefix within inside
      rw [at']
      omega
    · have more : before.length + argument.length + 1 - before.length = argument.length + 1 := by
        omega
      have last : (argument ++ closer :: behind).take (argument.length + 1) =
          argument ++ [closer] :=
        List.take_length_add_append 1
      rw [at', more, last, Text.rise_append, level, Text.rise_cons, closes]
      rfl

end IndicatorFormula
