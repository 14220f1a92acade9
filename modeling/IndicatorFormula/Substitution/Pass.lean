import IndicatorFormula.Formula.Call
import IndicatorFormula.Substitution.Supply

/-! The passes over the function calls of a formula, before its references are replaced.

One pass replaces the arguments of aggregate functions by their samples, another one replaces tests
for missing values by their results. -/

set_option autoImplicit false
namespace IndicatorFormula

def passOverUnclosed (strict : Bool) (formula : Text) (position : Nat) :
    List CallPiece → Traced Unit
  | [] => pure ()
  | piece :: rest => do
    let behind := position + piece.text.length
    if piece matches .unclosed _ then
      Traced.passOver strict (.unclosedCall behind formula)
    passOverUnclosed strict formula behind rest

def callSites (functions : List Builtin) (strict : Bool) (formula : Text) :
    Traced (List CallSite) := do
  let pieces := CallPiece.ofText functions formula
  passOverUnclosed strict formula 0 pieces
  return CallPiece.sites 0 pieces

def sampleList (samples : List (Option Number)) : Except Fault Text := do
  let literals ← (samples.filterMap id).mapM Number.literal
  return '[' :: Text.join [',', ' '] literals ++ [']']

/-- What becomes of the argument of an aggregate function: it stays if there are no samples for
anything, or if it begins with a less-than sign. -/
def sampledArgument (samples : Option Samples) (argument : Text) : Except Fault Text :=
  match samples with
  | none => .ok argument
  | some table =>
    if argument.head? = some '<' then .ok argument else sampleList ((table.lookup argument).getD [])

def lacksSamples (samples : Option Samples) : CallPiece → Bool
  | .call _ argument _ =>
    samples.any fun table => argument.head? != some '<' && (table.lookup argument).isNone
  | _ => false

def samplePiece (samples : Option Samples) : CallPiece → Except Fault Text
  | .plain c => .ok [c]
  | .unclosed head => .ok head.capitalized.text
  | .call head argument closer =>
    do return head.capitalized.text ++ (← sampledArgument samples argument) ++ [closer]

/-- Goes through the pieces behind a position of a formula up to the first aggregate function that
lacks its samples where that is a reason to skip the formula. -/
def samplePieces (samples : Option Samples) (skipsMissing strict : Bool) (formula : Text)
    (position : Nat) : List CallPiece → Traced (Option Text)
  | [] => return some []
  | piece :: rest => do
    let behind := position + piece.text.length
    passOverUnclosed strict formula position [piece]
    if skipsMissing && lacksSamples samples piece then return none
    let text ← Traced.ofExcept ((samplePiece samples piece).mapError .fault)
    let later ← samplePieces samples skipsMissing strict formula behind rest
    return later.map (text ++ ·)

/-- Replaces the arguments of aggregate functions by their samples and capitalizes the names of the
functions. There is no text if samples are missing and the strategy skips for any missing value. -/
def substituteSamples (formula : Text) (samples : Option Samples) (strategy : Strategy)
    (strict : Bool) : Traced (Option Text) :=
  samplePieces samples (strategy = .skipIfAnyMissing) strict formula 0
    (CallPiece.ofText aggregateFunctions formula)

/-- The item that a test for a missing value asks for: the first dimensional reference of its
argument. -/
def testedReference? (argument : Text) : Option Reference :=
  (references argument).find? Reference.isDimensional

def trueLiteral : Text := ['t', 'r', 'u', 'e']

def falseLiteral : Text := ['f', 'a', 'l', 's', 'e']

/-- A piece of a formula where tests for missing values are replaced by their results. Tests without
an item, and those that do not close, stay. -/
def testPiece (hasValue : Text → Bool) (piece : CallPiece) : Text :=
  match piece with
  | .call _ argument _ =>
    match testedReference? argument with
    | some reference => if hasValue reference.key then falseLiteral else trueLiteral
    | none => piece.text
  | _ => piece.text

def missingArgument? (hasValue : Text → Bool) (piece : CallPiece) : Option Text :=
  match piece with
  | .call _ argument _ =>
    match testedReference? argument with
    | some reference => if hasValue reference.key then none else some (Text.trim argument)
    | none => none
  | _ => none

/-- Replaces tests for missing values by their results. The argument of a test that finds its item's
value missing is replaced by zero wherever else it stands, so that the formula is not skipped
because of it. -/
def substituteNullTests (formula : Text) (hasValue : Text → Bool) (strict : Bool) :
    Traced Text := do
  let pieces := CallPiece.ofText nullTest formula
  passOverUnclosed strict formula 0 pieces
  let text := pieces.flatMap (testPiece hasValue)
  -- Replacing comes last and in order, since one argument may be part of another.
  let arguments := pieces.filterMap (missingArgument? hasValue)
  return arguments.foldl (fun text argument => Text.replace argument missingLiteral text) text

end IndicatorFormula
