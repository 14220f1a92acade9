import IndicatorFormula.Failure
import IndicatorFormula.Substitution.Validation
import IndicatorFormula.Text.Blank

/-! Fields of submitted records, and what can be wrong with them. -/

set_option autoImplicit false
namespace IndicatorFormula

-- Powers are the core library's, also where there are others.
attribute [local instance (high)] instPowNat

inductive Field (α : Type) where
  | absent
  | null
  | given (value : α)
  deriving DecidableEq, Repr

/-- The value for a stored record, where absent fields keep what there is. Stored values are never
null. -/
def Field.stored {α : Type} (current : α) : Field α → Except Failure α
  | .absent => .ok current
  | .null => .error .conflict
  | .given value => .ok value

def Field.getD {α : Type} (field : Field α) (other : α) : α :=
  match field with
  | .given value => value
  | _ => other

def Field.demanded {α : Type} : Field α → Except Failure α
  | .given value => .ok value
  | _ => .error .conflict

inductive FieldError where
  | required
  | null
  | blank
  | tooLong (limit : Nat)
  | tooGreat (limit : Int)
  | tooSmall (limit : Int)
  | noChoice (value : Text)
  /-- Another record of the same kind has the value. -/
  | taken (kind field : String)
  | unknownKey (key : Int)
  /-- A formula is not valid. -/
  | invalid (outcome : ValidationOutcome)
  deriving DecidableEq, Repr

def FieldError.message : FieldError → String
  | .required => "This field is required."
  | .null => "This field may not be null."
  | .blank => "This field may not be blank."
  | .tooLong limit => "Ensure this field has no more than " ++ toString limit ++ " characters."
  | .tooGreat limit => "Ensure this value is less than or equal to " ++ toString limit ++ "."
  | .tooSmall limit => "Ensure this value is greater than or equal to " ++ toString limit ++ "."
  | .noChoice value => "\"" ++ .ofList value ++ "\" is not a valid choice."
  | .taken kind field => kind ++ " with this " ++ field ++ " already exists."
  | .unknownKey key => "Invalid pk \"" ++ toString key ++ "\" - object does not exist."
  | .invalid outcome => outcome.description

abbrev Checked (α : Type) := Except (List FieldError) (Option α)

namespace Field

def check {α β : Type} (required : Bool) (further : α → List FieldError) (convert : α → β) :
    Field α → Checked β
  | .absent => if required then .error [.required] else .ok none
  | .null => .error [.null]
  | .given value =>
    let errors := further value
    if errors.isEmpty then .ok (some (convert value)) else .error errors

def lengthErrors (limit : Option Nat) (text : Text) : List FieldError :=
  match limit with
  | some limit => if limit < text.length then [.tooLong limit] else []
  | none => []

/-- Checks a text without the blanks around it. Optional texts may be blank. -/
def checkText (required : Bool) (limit : Option Nat) (further : Text → List FieldError) :
    Field Text → Checked Text :=
  check required
    (fun text =>
      let trimmed := Text.trim text
      if trimmed.isEmpty then (if required then [.blank] else [])
      else further trimmed ++ lengthErrors limit trimmed)
    Text.trim

def integerErrors (n : Int) : List FieldError :=
  if 2 ^ (63 : Nat) ≤ n then [.tooGreat (2 ^ (63 : Nat) - 1)]
  else if n < -2 ^ (63 : Nat) then [.tooSmall (-2 ^ (63 : Nat))]
  else []

def checkPlain {α : Type} : Field α → Checked α :=
  check false (fun _ => []) id

def checkFormula (validateText : Text → Except Failure ValidationOutcome) (field : Field Text) :
    Except Failure (Checked Text) :=
  match field.checkText true none fun _ => [] with
  | .ok (some formula) => do
    let outcome ← validateText formula
    return if outcome = .valid then .ok (some formula) else .error [.invalid outcome]
  | checked => .ok checked

end Field

abbrev FormErrors := List (String × List FieldError)

def namedErrors {α : Type} (name : String) : Checked α → FormErrors
  | .ok _ => []
  | .error errors => [(name, errors)]

def valueOr {α : Type} (default : α) (checked : Checked α) : α :=
  (checked.toOption.join).getD default

end IndicatorFormula
