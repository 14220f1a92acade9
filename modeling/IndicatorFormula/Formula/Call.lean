import IndicatorFormula.Text.Blank
import IndicatorFormula.Text.Word
import IndicatorFormula.Text.Capital
import IndicatorFormula.Expression.Builtin

/-! Function calls inside formulas.

A call begins with a function name in any case that no word character precedes, optional blanks and
an opening parenthesis. It ends where as many parentheses and brackets have closed as opened; which
of the two closes does not matter. Calls inside the argument of a call belong to it. A call that
does not close is noted, and the search goes on behind its opening parenthesis. -/

set_option autoImplicit false
namespace IndicatorFormula

/-- The beginning of a call: the function name as written and the blanks before the opening
parenthesis. -/
structure CallHead where
  name : Text
  gap : Text
  deriving DecidableEq, Repr

namespace CallHead

def text (head : CallHead) : Text :=
  head.name ++ head.gap ++ ['(']

def capitalized (head : CallHead) : CallHead :=
  { head with name := head.name.map Text.capital }

def readFunction? (function : Builtin) (text : Text) : Option (CallHead × Text) :=
  match Text.spelled? function.name text with
  | none => none
  | some (name, rest) =>
    match rest.dropWhile Text.isBlank with
    | '(' :: behind => some (⟨name, rest.takeWhile Text.isBlank⟩, behind)
    | _ => none

theorem eq_of_readFunction? {function : Builtin} {text behind : Text} {head : CallHead}
    (found : readFunction? function text = some (head, behind)) : text = head.text ++ behind := by
  unfold readFunction? at found
  split at found
  · cases found
  · rename_i name rest spelled
    split at found
    · rename_i opens
      cases found
      rw [Text.eq_of_spelled? spelled]
      simp only [CallHead.text, List.append_assoc, List.cons_append, List.nil_append]
      rw [← opens, List.takeWhile_append_dropWhile]
    · cases found

/-- Reads the head of a call that a text begins with. There is none behind a word character. -/
def read? (functions : List Builtin) (afterWord : Bool) (text : Text) : Option (CallHead × Text) :=
  if afterWord then none else functions.findSome? fun function => readFunction? function text

theorem eq_of_read? {functions : List Builtin} {afterWord : Bool} {text behind : Text}
    {head : CallHead} (found : read? functions afterWord text = some (head, behind)) :
    text = head.text ++ behind := by
  unfold read? at found
  split at found
  · cases found
  · obtain ⟨function, _, read⟩ := List.exists_of_findSome?_eq_some found
    exact eq_of_readFunction? read

theorem length_lt_of_read? {functions : List Builtin} {afterWord : Bool} {text behind : Text}
    {head : CallHead} (found : read? functions afterWord text = some (head, behind)) :
    behind.length < text.length := by
  have whole := congrArg List.length (eq_of_read? found)
  simp [CallHead.text] at whole
  omega

end CallHead

/-- Splits a text at the first delimiter that closes more than has been opened, where `depth` are
open already: what precedes the delimiter, the delimiter, and what follows. -/
def splitClosing? (depth : Nat) : Text → Option (Text × Char × Text)
  | [] => none
  | c :: rest =>
    if c = '(' || c = '['
      then (splitClosing? (depth + 1) rest).map fun found => (c :: found.1, found.2)
    else if c = ')' || c = ']' then
      match depth with
      | 0 => some ([], c, rest)
      | depth + 1 => (splitClosing? depth rest).map fun found => (c :: found.1, found.2)
    else (splitClosing? depth rest).map fun found => (c :: found.1, found.2)

theorem eq_of_splitClosing? {depth : Nat} {text argument behind : Text} {closer : Char}
    (found : splitClosing? depth text = some (argument, closer, behind)) :
    text = argument ++ closer :: behind := by
  induction text generalizing depth argument with
  | nil => cases found
  | cons c rest ih =>
    unfold splitClosing? at found
    split at found
    · obtain ⟨⟨later, last⟩, split, equal⟩ := Option.map_eq_some_iff.1 found
      cases equal
      rw [ih split, List.cons_append]
    split at found
    · split at found
      · cases found
        rfl
      · obtain ⟨⟨later, last⟩, split, equal⟩ := Option.map_eq_some_iff.1 found
        cases equal
        rw [ih split, List.cons_append]
    · obtain ⟨⟨later, last⟩, split, equal⟩ := Option.map_eq_some_iff.1 found
      cases equal
      rw [ih split, List.cons_append]

/-- A formula in pieces: the outermost calls, the heads of calls that do not close, and the
characters between. -/
inductive CallPiece where
  | plain (c : Char)
  | call (head : CallHead) (argument : Text) (closer : Char)
  | unclosed (head : CallHead)
  deriving DecidableEq, Repr

namespace CallPiece

def text : CallPiece → Text
  | .plain c => [c]
  | .call head argument closer => head.text ++ argument ++ [closer]
  | .unclosed head => head.text

def ofHead (head : CallHead) (behind : Text) : CallPiece × Text :=
  match splitClosing? 0 behind with
  | some (argument, closer, rest) => (.call head argument closer, rest)
  | none => (.unclosed head, behind)

theorem eq_of_ofHead (head : CallHead) (behind : Text) :
    head.text ++ behind = (ofHead head behind).1.text ++ (ofHead head behind).2 := by
  unfold ofHead
  split
  · rename_i found
    simp [text, eq_of_splitClosing? found]
  · rfl

theorem length_ofHead_le (head : CallHead) (behind : Text) :
    (ofHead head behind).2.length ≤ behind.length := by
  unfold ofHead
  split
  · rename_i found
    have whole := congrArg List.length (eq_of_splitClosing? found)
    simp at whole ⊢
    omega
  · exact Nat.le_refl _

/-- The pieces of a text with respect to some functions, where it is known whether a word character
precedes it. -/
def ofTextFrom (functions : List Builtin) (afterWord : Bool) : Text → List CallPiece
  | [] => []
  | c :: rest =>
    match _read : CallHead.read? functions afterWord (c :: rest) with
    | some (head, behind) =>
      (ofHead head behind).1 :: ofTextFrom functions false (ofHead head behind).2
    | none => .plain c :: ofTextFrom functions (Text.isWord c) rest
termination_by text => text.length
decreasing_by
  · exact Nat.lt_of_le_of_lt (length_ofHead_le head behind) (CallHead.length_lt_of_read? _read)
  · simp

def ofText (functions : List Builtin) (formula : Text) : List CallPiece :=
  ofTextFrom functions false formula

end CallPiece

/-- A call with its place in a formula. Without an argument the call does not close. -/
structure CallSite where
  head : CallHead
  start : Nat
  argument : Option Text
  deriving DecidableEq, Repr

namespace CallSite

def argumentStart (site : CallSite) : Nat :=
  site.start + site.head.text.length

def closing? (site : CallSite) : Option Nat :=
  site.argument.map fun argument => site.argumentStart + argument.length

end CallSite

def CallPiece.sites (position : Nat) : List CallPiece → List CallSite
  | [] => []
  | piece :: rest =>
    let behind := sites (position + piece.text.length) rest
    match piece with
    | .plain _ => behind
    | .call head argument _ => ⟨head, position, some argument⟩ :: behind
    | .unclosed head => ⟨head, position, none⟩ :: behind

def aggregateFunctions : List Builtin := Builtin.aggregates

def nullTest : List Builtin := [.isNull]

def capitalizeCallsFrom (afterWord : Bool) : Text → Text
  | [] => []
  | c :: rest =>
    match _read : CallHead.read? Builtin.all afterWord (c :: rest) with
    | some (head, behind) => head.capitalized.text ++ capitalizeCallsFrom false behind
    | none => c :: capitalizeCallsFrom (Text.isWord c) rest
termination_by text => text.length
decreasing_by
  · exact CallHead.length_lt_of_read? _read
  · simp

def capitalizeCalls (formula : Text) : Text :=
  capitalizeCallsFrom false formula

end IndicatorFormula
