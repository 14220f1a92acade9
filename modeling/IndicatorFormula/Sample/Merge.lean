import IndicatorFormula.Sample.Gallop

/-! Merging two neighbouring sorted runs.

The shorter run is put aside and the merge fills the room from that side: from the front if the left
run is the shorter one and from the end otherwise. Samples are taken one at a time until one run has
won as often in a row as the gallop limit says; then whole leads are taken at once as long as they
are long enough. The limit falls while leads are long and rises when they no longer are.

The order of the result does not depend on the pace if the samples have one. It does for samples
without a place in the order, and then the sequence of comparisons decides. -/

set_option autoImplicit false
namespace IndicatorFormula.Sample

variable {m : Type → Type} [Monad m] {α : Type} (lt : α → α → m Bool)

def longLead : Nat := 7

inductive Pace where
  /-- One at a time, where one run has won the given number of times in a row. -/
  | single (leftWins rightWins : Nat)
  /-- Next comes the lead of the left run. -/
  | leapLeft
  /-- Next comes the lead of the right run, behind a lead of the left one. -/
  | leapRight (leftLead : Nat)

def Pace.afterWin (limit leftWins rightWins : Nat) : Pace :=
  if limit ≤ leftWins || limit ≤ rightWins then .leapLeft else .single leftWins rightWins

/-- What is left to take once a merge is over: all of one run when the other one has been taken. The
last sample of the run put aside comes last. -/
def restBeside? (aside other : List α) : Option (List α) :=
  match other, aside with
  | [], _ => some aside
  | _, [] => some other
  | _, [sample] => some (other ++ [sample])
  | _, _ => none

def rest? (fromEnd : Bool) (left right : List α) : Option (List α) :=
  if fromEnd then restBeside? right left else restBeside? left right

/-- How many samples at the head of a run precede what they are compared with. A run that is taken
from its end has been reversed. -/
def lead (fromEnd : Bool) (precedes : α → m Bool) (run : List α) : m Nat := do
  if fromEnd then return run.length - (← boundary precedes run.reverse (run.length - 1))
  else boundary (fun sample => do return !(← precedes sample)) run 0

/-- The merged samples in their order: those taken, of which the last is the first of the list, and
the rest. -/
def assemble (fromEnd : Bool) (taken rest : List α) : List α :=
  if fromEnd then rest.reverse ++ taken else taken.reverse ++ rest

/-- Takes from two runs until the merge is over. Gives the merged samples and the gallop limit. A
change of the limit is `recorded` only if the merge goes on behind it. -/
def mergeFrom (fromEnd : Bool) (recorded limit : Nat) (pace : Pace) (left right taken : List α) :
    m (List α × Nat) :=
  match rest? fromEnd left right, left, right with
  | some rest, _, _ => pure (assemble fromEnd taken rest, recorded)
  | none, x :: lefts, y :: rights =>
    match pace with
    | .single leftWins rightWins => do
      if (← lt y x) == fromEnd then
        mergeFrom fromEnd limit limit (.afterWin limit (leftWins + 1) 0) lefts (y :: rights)
          (x :: taken)
      else
        mergeFrom fromEnd limit limit (.afterWin limit 0 (rightWins + 1)) (x :: lefts) rights
          (y :: taken)
    -- All of the left run that precedes the next right sample, and then that sample.
    | .leapLeft => do
      let count ← lead fromEnd (fun sample => do return (← lt y sample) == fromEnd) (x :: lefts)
      let behind := (x :: lefts).drop count
      let taken := ((x :: lefts).take count).reverse ++ taken
      match rest? fromEnd behind (y :: rights) with
      | some rest => pure (assemble fromEnd taken rest, limit)
      | none => mergeFrom fromEnd limit limit (.leapRight count) behind rights (y :: taken)
    -- All of the right run that precedes the next left sample, and then that sample.
    | .leapRight leftLead => do
      let count ← lead fromEnd (fun sample => do return (← lt sample x) != fromEnd) (y :: rights)
      let behind := (y :: rights).drop count
      let taken := ((y :: rights).take count).reverse ++ taken
      match rest? fromEnd (x :: lefts) behind with
      | some rest => pure (assemble fromEnd taken rest, limit)
      | none =>
        -- Long leads make the next gallop easier to reach, short ones harder.
        if longLead ≤ leftLead || longLead ≤ count then
          mergeFrom fromEnd limit (max 1 (limit - 1)) .leapLeft lefts behind (x :: taken)
        else mergeFrom fromEnd limit (limit + 1) (.single 0 0) lefts behind (x :: taken)
  | none, left, right => pure (assemble fromEnd taken (left ++ right), recorded)
termination_by left.length + right.length
decreasing_by all_goals simp <;> omega

/-- Merges the parts of two runs that are not in their places yet, of which the first sample of the
right part comes before all others and the last one of the left part behind them. -/
def mergeParts (limit : Nat) (left right : List α) : m (List α × Nat) :=
  if left.length ≤ right.length then
    mergeFrom lt false limit limit (.single 0 0) left right.tail (right.take 1)
  else
    mergeFrom lt true limit limit (.single 0 0) left.reverse.tail right.reverse
      (left.reverse.take 1)

/-- Merges two neighbouring runs, under a gallop limit that the merge may change. Samples at the two
ends that are in their places already stay there. -/
def mergeRuns (limit : Nat) (left right : List α) : m (List α × Nat) := do
  match left.getLast?, right with
  | some greatest, least :: _ =>
    let kept ← boundary (lt least) left 0
    if left.length ≤ kept then return (left ++ right, limit)
    let moved ← boundary (fun sample => do return !(← lt sample greatest)) right (right.length - 1)
    if moved = 0 then return (left ++ right, limit)
    let (merged, limit) ← mergeParts lt limit (left.drop kept) (right.take moved)
    return (left.take kept ++ merged ++ right.drop moved, limit)
  | _, _ => return (left ++ right, limit)

end IndicatorFormula.Sample
