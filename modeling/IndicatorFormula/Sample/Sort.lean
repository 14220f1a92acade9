import IndicatorFormula.Sample.Merge

/-! Sorting samples in ascending order, so that equal ones stay in the order they have.

The samples are cut into sorted runs, which are as long as the samples allow and have a least
length. Neighbouring runs are merged by the powers of the boundaries between them, so that runs of
similar lengths meet. Samples without a place in the order, such as undefined numbers, end up where
the sequence of comparisons leaves them. -/

set_option autoImplicit false
namespace IndicatorFormula.Sample

-- Powers are the core library's, also where there are others.
attribute [local instance (high)] instPowNat

variable {m : Type → Type} [Monad m] {α : Type} (lt : α → α → m Bool)

def insertSample (run : List α) (sample : α) : m (List α) := do
  return run.insertIdx (← bisect (lt sample) run 0 run.length) sample

def runLength (descends : Bool) (previous : α) : List α → m Nat
  | [] => return 0
  | sample :: rest => do
    if (← lt sample previous) == descends then return (← runLength descends sample rest) + 1
    else return 0

def leadingRun (first : α) : List α → m (Nat × Bool)
  | [] => return (0, false)
  | second :: rest => do
    let descends ← lt second first
    return ((← runLength lt descends second rest) + 1, descends)

/-- Cuts samples into sorted runs. Descending runs are reversed. To a run that is shorter than the
least length the samples behind it are added one by one. -/
def runs (leastLength : Nat) : List α → m (List (List α))
  | [] => return []
  | first :: rest => do
    let (count, descends) ← leadingRun lt first rest
    let found := first :: rest.take count
    let behind := rest.drop count
    -- How many samples are borrowed from behind the run.
    let missing := leastLength - (count + 1)
    let run ←
      (behind.take missing).foldlM (insertSample lt) (if descends then found.reverse else found)
    return run :: (← runs leastLength (behind.drop missing))
termination_by samples => samples.length
decreasing_by
  simp only [List.length_drop, List.length_cons]
  omega

/-- The least length of the runs of so many samples: their number, halved until it is below 64 and
rounded up. -/
def leastRunLength (total : Nat) : Nat :=
  if total < 64 then total
  else
    let scale := 2 ^ (total.log2 - 5)
    (total + scale - 1) / scale

/-- The power of the boundary between two neighbouring runs, of which the first one begins at
`start`: the number of binary digits after which the places of their middles differ, as fractions of
the total length. -/
def boundaryPower (total start firstLength secondLength : Nat) : Nat :=
  let first := 2 * start + firstLength
  let second := first + firstLength + secondLength
  ((List.range (total + 1)).find?
      fun digits => first * 2 ^ digits / total != second * 2 ^ digits / total).getD 0

structure PendingRun (α : Type) where
  run : List α
  power : Nat

/-- Merges the last run with those before it whose boundaries have a greater power, and puts it on
the stack. -/
def collapse (limit power : Nat) (last : List α) :
    List (PendingRun α) → m (List (PendingRun α) × Nat)
  | [] => return ([⟨last, power⟩], limit)
  | top :: below => do
    if power < top.power then
      let (merged, limit) ← mergeRuns lt limit top.run last
      collapse limit power merged below
    else return (⟨last, power⟩ :: top :: below, limit)

/-- Merges all pending runs with the last one. Of three runs the first two are merged first if the
first is shorter than the last. -/
def mergePending (limit : Nat) (last : List α) : List (PendingRun α) → m (List α)
  | [] => return last
  | [top] => return (← mergeRuns lt limit top.run last).1
  | top :: second :: below => do
    -- Of the two outer runs the shorter one takes part in the next merge.
    if second.run.length < last.length then
      let (merged, limit) ← mergeRuns lt limit second.run top.run
      mergePending limit last (⟨merged, second.power⟩ :: below)
    else
      let (merged, limit) ← mergeRuns lt limit top.run last
      mergePending limit merged (second :: below)
termination_by pending => pending.length

def mergeInOrder (total start limit : Nat) (pending : List (PendingRun α)) (last : List α) :
    List (List α) → m (List α)
  | [] => mergePending lt limit last pending
  | next :: rest => do
    let power := boundaryPower total start last.length next.length
    let (pending, limit) ← collapse lt limit power last pending
    mergeInOrder total (start + last.length) limit pending next rest

def sort (samples : List α) : m (List α) := do
  match ← runs lt (leastRunLength samples.length) samples with
  | [] => return []
  | first :: rest => mergeInOrder lt samples.length 0 longLead [] first rest

end IndicatorFormula.Sample
