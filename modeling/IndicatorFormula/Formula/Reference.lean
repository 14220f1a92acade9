import IndicatorFormula.Text.Word

/-! References to catalog objects inside formulas.

A reference is written as a key and one to three parts in braces, such as `#` and `{element.combo}`.
The number of days is written `[days]`. Keys and parts are not part of a longer word: a reference
does not begin behind a word character. -/

set_option autoImplicit false
namespace IndicatorFormula

inductive ReferenceKind where
  | dataElementOperand
  | programDataElement
  | programAttribute
  | programIndicator
  | reportingRate
  | constant
  | orgUnitGroup
  | days
  /-- An aggregate within a formula, which is never written as a reference. -/
  | aggregate
  deriving DecidableEq, Repr

namespace ReferenceKind

def all : List ReferenceKind :=
  [.dataElementOperand, .programDataElement, .programAttribute, .programIndicator, .reportingRate,
    .constant, .orgUnitGroup, .days, .aggregate]

def key : ReferenceKind → Text
  | .dataElementOperand => ['#']
  | .programDataElement => ['D']
  | .programAttribute => ['A']
  | .programIndicator => ['I']
  | .reportingRate => ['R']
  | .constant => ['C']
  | .orgUnitGroup => ['O', 'U', 'G']
  | .days => ['[', 'd', 'a', 'y', 's', ']']
  | .aggregate => ['a', 'g', 'g', 'r', 'e', 'g', 'a', 't', 'e']

def ofKey? (key : Text) : Option ReferenceKind :=
  all.find? fun kind => kind.key == key

def name : ReferenceKind → String
  | .dataElementOperand => "DATA_ELEMENT_OPERAND"
  | .programDataElement => "PROGRAM_DATA_ELEMENT"
  | .programAttribute => "PROGRAM_ATTRIBUTE"
  | .programIndicator => "PROGRAM_INDICATOR"
  | .reportingRate => "REPORTING_RATE"
  | .constant => "CONSTANT"
  | .orgUnitGroup => "ORG_UNIT_GROUP"
  | .days => "DAYS"
  | .aggregate => "AGGREGATE"

def label : ReferenceKind → String
  | .dataElementOperand => "a data element or data element operand"
  | .programDataElement => "a program data element"
  | .programAttribute => "a program attribute"
  | .programIndicator => "a program indicator"
  | .reportingRate => "a reporting rate"
  | .constant => "a constant"
  | .orgUnitGroup => "an organisation unit group"
  | .days => "the number of days"
  | .aggregate => "an aggregate sub-expression"

def isDimensional : ReferenceKind → Bool
  | .dataElementOperand | .programDataElement | .programAttribute | .programIndicator
  | .reportingRate =>
    true
  | .constant | .orgUnitGroup | .days | .aggregate => false

def braced : List ReferenceKind :=
  [.orgUnitGroup, .dataElementOperand, .constant, .programDataElement, .programAttribute,
    .programIndicator, .reportingRate]

end ReferenceKind

structure Reference where
  kind : ReferenceKind
  parts : List Text
  deriving DecidableEq, Repr

namespace Reference

def key (reference : Reference) : Text :=
  Text.join ['.'] reference.parts

def text (reference : Reference) : Text :=
  if reference.kind = .days then reference.kind.key
  else reference.kind.key ++ '{' :: reference.key ++ ['}']

def isDimensional (reference : Reference) : Bool :=
  reference.kind.isDimensional

def isPart (c : Char) : Bool :=
  Text.isWord c || c == '*'

/-- Reads at most `further + 1` parts with points between them, up to a closing brace. -/
def readParts? (further : Nat) (text : Text) : Option (List Text × Text) :=
  if text.takeWhile isPart = [] then none
  else
    match text.dropWhile isPart, further with
    | '}' :: behind, _ => some ([text.takeWhile isPart], behind)
    | '.' :: rest, more + 1 =>
      (readParts? more rest).map fun found => (text.takeWhile isPart :: found.1, found.2)
    | _, _ => none

theorem eq_of_readParts? {further : Nat} {text behind : Text} {parts : List Text}
    (found : readParts? further text = some (parts, behind)) :
    parts ≠ [] ∧ text = Text.join ['.'] parts ++ '}' :: behind := by
  induction further generalizing text parts with
  | zero =>
    unfold readParts? at found
    split at found
    · cases found
    split at found
    · rename_i rest same
      cases found
      refine ⟨by simp, ?_⟩
      rw [Text.join, List.intercalate_singleton, ← same, List.takeWhile_append_dropWhile]
    · rename_i impossible
      cases impossible
    · cases found
  | succ further ih =>
    unfold readParts? at found
    split at found
    · cases found
    split at found
    · rename_i rest same
      cases found
      refine ⟨by simp, ?_⟩
      rw [Text.join, List.intercalate_singleton, ← same, List.takeWhile_append_dropWhile]
    · rename_i rest more same sameFurther
      cases sameFurther
      obtain ⟨⟨later, last⟩, read, equal⟩ := Option.map_eq_some_iff.1 found
      cases equal
      obtain ⟨nonempty, rest⟩ := ih read
      refine ⟨by simp, ?_⟩
      cases later with
      | nil => exact absurd rfl nonempty
      | cons part later =>
        rw [Text.join, List.intercalate_cons_cons]
        simp only [List.append_assoc, List.cons_append, List.nil_append]
        rw [← Text.join, ← rest, ← same, List.takeWhile_append_dropWhile]
    · cases found

def readKind? (text : Text) (kind : ReferenceKind) : Option (Reference × Text) :=
  match Text.after? (kind.key ++ ['{']) text with
  | some rest => (readParts? 2 rest).map fun found => (⟨kind, found.1⟩, found.2)
  | none => none

/-- Reads the reference that a text begins with. Behind a word character only the number of days is
one. -/
def read? (afterWord : Bool) (text : Text) : Option (Reference × Text) :=
  match if afterWord then none else ReferenceKind.braced.findSome? (readKind? text) with
  | some found => some found
  | none => (Text.after? ReferenceKind.days.key text).map fun behind => (⟨.days, []⟩, behind)

theorem eq_of_read? {afterWord : Bool} {text behind : Text} {reference : Reference}
    (found : read? afterWord text = some (reference, behind)) :
    text = reference.text ++ behind := by
  unfold read? at found
  split at found
  · rename_i pair braced
    cases found
    split at braced
    · cases braced
    obtain ⟨kind, member, read⟩ := List.exists_of_findSome?_eq_some braced
    unfold readKind? at read
    split at read
    · rename_i rest begins
      obtain ⟨⟨parts, last⟩, readParts, equal⟩ := Option.map_eq_some_iff.1 read
      cases equal
      have notDays : kind ≠ .days := by
        intro isDays
        subst isDays
        simp [ReferenceKind.braced] at member
      rw [Text.after?_eq_some_iff.1 begins, (eq_of_readParts? readParts).2]
      simp [Reference.text, Reference.key, notDays]
    · cases read
  · obtain ⟨rest, begins, equal⟩ := Option.map_eq_some_iff.1 found
    cases equal
    rw [Text.after?_eq_some_iff.1 begins]
    simp [Reference.text]

theorem text_ne_nil (reference : Reference) : reference.text ≠ [] := by
  unfold Reference.text
  split
  · rename_i isDays
    simp [isDays, ReferenceKind.key]
  · simp

theorem length_lt_of_read? {afterWord : Bool} {text behind : Text} {reference : Reference}
    (found : read? afterWord text = some (reference, behind)) : behind.length < text.length := by
  have whole := congrArg List.length (eq_of_read? found)
  have leads := List.length_pos_iff.2 reference.text_ne_nil
  simp at whole
  omega

end Reference

/-- A formula in pieces: the references and the single characters between them. -/
inductive Piece where
  | plain (c : Char)
  | reference (found : Reference)
  deriving DecidableEq, Repr

namespace Piece

def text : Piece → Text
  | .plain c => [c]
  | .reference found => found.text

def ofTextFrom (afterWord : Bool) : Text → List Piece
  | [] => []
  | c :: rest =>
    match _read : Reference.read? afterWord (c :: rest) with
    | some (found, behind) => .reference found :: ofTextFrom false behind
    | none => .plain c :: ofTextFrom (Text.isWord c) rest
termination_by text => text.length
decreasing_by
  · exact Reference.length_lt_of_read? _read
  · simp

def ofText (formula : Text) : List Piece :=
  ofTextFrom false formula

def references (pieces : List Piece) : List Reference :=
  pieces.filterMap fun piece =>
    match piece with
    | .plain _ => none
    | .reference found => some found

def located (position : Nat) : List Piece → List (Nat × Reference)
  | [] => []
  | piece :: rest =>
    let behind := located (position + piece.text.length) rest
    match piece with
    | .plain _ => behind
    | .reference found => (position, found) :: behind

end Piece

def references (formula : Text) : List Reference :=
  Piece.references (Piece.ofText formula)

end IndicatorFormula
