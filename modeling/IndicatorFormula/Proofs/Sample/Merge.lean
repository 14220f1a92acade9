import Mathlib.Data.List.Sort
import IndicatorFormula.Proofs.Sample.Gallop

/-! Merged runs are in ascending order.

A merge takes samples in their order from one side, whatever its pace, so that what has been taken
precedes all that is left. Samples that are in their places before it begins bound those between
them. -/

set_option autoImplicit false
namespace IndicatorFormula.Sample

variable {ε α : Type} {failure : ε → Prop}

theorem pairwise_append_of_between {precedes : α → α → Prop} [IsTrans α precedes]
    {before behind : List α} {sample : α} (front : before.Pairwise precedes)
    (back : behind.Pairwise precedes) (up : ∀ x ∈ before, precedes x sample)
    (down : ∀ y ∈ behind, precedes sample y) : (before ++ behind).Pairwise precedes :=
  List.pairwise_append.mpr
    ⟨front, back, fun x first y second => Trans.trans (up x first) (down y second)⟩

theorem some_of_rest? {fromEnd : Bool} {left right : List α}
    (more : rest? fromEnd left right = none) : left ≠ [] ∧ right ≠ [] := by
  have beside {aside other : List α} (more : restBeside? aside other = none) :
      aside ≠ [] ∧ other ≠ [] := by
    unfold restBeside? at more
    split at more
    · cases more
    · cases more
    · cases more
    · rename_i some other _
      exact ⟨other, some⟩
  cases fromEnd with
  | false => exact beside more
  | true => exact (beside more).symm

variable [LinearOrder α] {lt : α → α → Except ε Bool}

abbrev Orders (failure : ε → Prop) (lt : α → α → Except ε Bool) : Prop :=
  ∀ x y, Returns (· = decide (x < y)) failure (lt x y)

theorem Orders.compares (orders : Orders failure lt) : Compares (fun _ => True) failure lt :=
  fun x y _ _ =>
  (orders x y).mono fun _ _ => trivial

theorem rises_of_ascending {run : List α} (ascending : run.Pairwise (· ≤ ·)) (rule : α → Bool)
    (monotone : ∀ x y, x ≤ y → rule x = true → rule y = true) : Rises rule run :=
  ascending.imp fun {x y} => monotone x y

variable {fromEnd : Bool} {left right taken : List α}

/-- The order in which a merge takes samples: ascending from the front and descending from the
end. -/
def Precedes (fromEnd : Bool) (x y : α) : Prop :=
  if fromEnd then y ≤ x else x ≤ y

instance (fromEnd : Bool) : IsTrans α (Precedes fromEnd) where
  trans x y z first second := by
    cases fromEnd with
    | false => exact le_trans (show x ≤ y from first) second
    | true => exact le_trans (show z ≤ y from second) first

structure Chooses (fromEnd : Bool) (rule : α → Bool) (pivot : α) : Prop where
  takes : ∀ x, rule x = true → Precedes fromEnd x pivot
  leaves : ∀ x, rule x = false → Precedes fromEnd pivot x
  falls : ∀ x y, Precedes fromEnd x y → rule y = true → rule x = true

theorem chooses_left (fromEnd : Bool) (pivot : α) :
    Chooses fromEnd (fun x => decide (pivot < x) == fromEnd) pivot := by
  cases fromEnd with
  | false =>
    simp only [beq_false]
    refine ⟨fun x rule => ?_, fun x rule => ?_, fun x y before rule => ?_⟩
    · exact not_lt.mp (by simpa using rule)
    · exact le_of_lt (by simpa using rule)
    · have rule : y ≤ pivot := by simpa using rule
      simpa using le_trans before rule
  | true =>
    simp only [beq_true]
    refine ⟨fun x rule => ?_, fun x rule => ?_, fun x y before rule => ?_⟩
    · exact (of_decide_eq_true rule).le
    · exact not_lt.mp (of_decide_eq_false rule)
    · exact decide_eq_true (lt_of_lt_of_le (of_decide_eq_true rule) before)

theorem chooses_right (fromEnd : Bool) (pivot : α) :
    Chooses fromEnd (fun x => decide (x < pivot) != fromEnd) pivot := by
  cases fromEnd with
  | false =>
    simp only [Bool.bne_false]
    refine ⟨fun x rule => ?_, fun x rule => ?_, fun x y before rule => ?_⟩
    · exact (of_decide_eq_true rule).le
    · exact not_lt.mp (of_decide_eq_false rule)
    · exact decide_eq_true (lt_of_le_of_lt before (of_decide_eq_true rule))
  | true =>
    simp only [Bool.bne_true]
    refine ⟨fun x rule => ?_, fun x rule => ?_, fun x y before rule => ?_⟩
    · exact not_lt.mp (by simpa using rule)
    · exact le_of_lt (by simpa using rule)
    · have rule : pivot ≤ y := by simpa using rule
      simpa using le_trans rule before

def Closes (fromEnd : Bool) (aside other : List α) : Prop :=
  ∀ greatest ∈ aside.getLast?, ∀ sample ∈ other, Precedes fromEnd sample greatest

theorem Closes.drop {aside other : List α} (closes : Closes fromEnd aside other) (count : Nat) :
    Closes fromEnd (aside.drop count) other := fun greatest last => by
  rw [List.getLast?_drop] at last
  split at last
  · cases last
  · exact closes greatest last

theorem Closes.drop_other {aside other : List α} (closes : Closes fromEnd aside other)
    (count : Nat) : Closes fromEnd aside (other.drop count) :=
  fun greatest last sample member =>
  closes greatest last sample (List.mem_of_mem_drop member)

/-- What a merge keeps: all that has been taken is in order and precedes what is left, and the last
sample of the run put aside comes last. -/
structure Merging (fromEnd : Bool) (left right taken : List α) : Prop where
  lefts : (taken.reverse ++ left).Pairwise (Precedes fromEnd)
  rights : (taken.reverse ++ right).Pairwise (Precedes fromEnd)
  closes : if fromEnd then Closes fromEnd right left else Closes fromEnd left right

theorem pairwise_of_take {run other : List α} {count : Nat}
    (own : (taken.reverse ++ run).Pairwise (Precedes fromEnd))
    (others : (taken.reverse ++ other).Pairwise (Precedes fromEnd))
    (before : ∀ x ∈ run.take count, ∀ y ∈ other, Precedes fromEnd x y) :
    (((run.take count).reverse ++ taken).reverse ++ run.drop count).Pairwise (Precedes fromEnd) ∧
      (((run.take count).reverse ++ taken).reverse ++ other).Pairwise (Precedes fromEnd) := by
  rw [List.reverse_append, List.reverse_reverse, List.append_assoc, List.take_append_drop]
  refine ⟨own, List.pairwise_append.mpr ⟨?_, (List.pairwise_append.mp others).2.1, ?_⟩⟩
  · exact own.sublist (List.Sublist.append_left (List.take_sublist ..) _)
  · exact List.forall_mem_append.mpr ⟨(List.pairwise_append.mp others).2.2, before⟩

namespace Merging

theorem takeLeft (merging : Merging fromEnd left right taken) (count : Nat)
    (before : ∀ x ∈ left.take count, ∀ y ∈ right, Precedes fromEnd x y) :
    Merging fromEnd (left.drop count) right ((left.take count).reverse ++ taken) := by
  obtain ⟨lefts, rights⟩ := pairwise_of_take merging.lefts merging.rights before
  refine ⟨lefts, rights, ?_⟩
  have closes := merging.closes
  cases fromEnd with
  | false => exact Closes.drop closes count
  | true => exact Closes.drop_other closes count

theorem takeRight (merging : Merging fromEnd left right taken) (count : Nat)
    (before : ∀ y ∈ right.take count, ∀ x ∈ left, Precedes fromEnd y x) :
    Merging fromEnd left (right.drop count) ((right.take count).reverse ++ taken) := by
  obtain ⟨rights, lefts⟩ := pairwise_of_take merging.rights merging.lefts before
  refine ⟨lefts, rights, ?_⟩
  have closes := merging.closes
  cases fromEnd with
  | false => exact Closes.drop_other closes count
  | true => exact Closes.drop closes count

end Merging

theorem restBeside?_pairwise {aside other rest : List α}
    (own : (taken.reverse ++ aside).Pairwise (Precedes fromEnd))
    (others : (taken.reverse ++ other).Pairwise (Precedes fromEnd))
    (closes : Closes fromEnd aside other) (finished : restBeside? aside other = some rest) :
    (taken.reverse ++ rest).Pairwise (Precedes fromEnd) := by
  unfold restBeside? at finished
  split at finished
  · cases finished
    exact own
  · cases finished
    exact others
  · rename_i last _
    cases finished
    rw [← List.append_assoc, List.pairwise_append]
    refine ⟨others, List.pairwise_singleton .., List.forall_mem_append.mpr ⟨?_, ?_⟩⟩
    · exact (List.pairwise_append.mp own).2.2
    · exact fun x member => List.forall_mem_singleton.mpr (closes last rfl x member)
  · cases finished

theorem assemble_ascending {rest : List α}
    (inOrder : (taken.reverse ++ rest).Pairwise (Precedes fromEnd)) :
    (assemble fromEnd taken rest).Pairwise (· ≤ ·) := by
  cases fromEnd with
  | false => exact inOrder
  | true =>
    have turned : (taken.reverse ++ rest).reverse.Pairwise (· ≤ ·) :=
      List.pairwise_reverse.mpr inOrder
    rwa [List.reverse_append, List.reverse_reverse] at turned

theorem Merging.finish {rest : List α} (merging : Merging fromEnd left right taken)
    (finished : rest? fromEnd left right = some rest) :
    (assemble fromEnd taken rest).Pairwise (· ≤ ·) := by
  refine assemble_ascending ?_
  have closes := merging.closes
  cases fromEnd with
  | false => exact restBeside?_pairwise merging.lefts merging.rights closes finished
  | true => exact restBeside?_pairwise merging.rights merging.lefts closes finished

theorem precedes_of_pairwise {before rest : List α} {first : α}
    (inOrder : (before ++ first :: rest).Pairwise (Precedes fromEnd)) :
    ∀ x ∈ first :: rest, Precedes fromEnd first x := by
  refine List.forall_mem_cons.mpr ⟨?_, ?_⟩
  · cases fromEnd with
    | false => exact le_refl first
    | true => exact le_refl first
  · exact (List.pairwise_cons.mp (List.pairwise_append.mp inOrder).2.1).1

namespace Merging

variable {x y : α} {lefts rights : List α}

/-- The lead of the left run may be taken, and the next right sample precedes what stays behind. -/
theorem leadLeft (orders : Orders failure lt)
    (merging : Merging fromEnd (x :: lefts) (y :: rights) taken) :
    Returns (fun count => Merging fromEnd ((x :: lefts).drop count) (y :: rights)
        (((x :: lefts).take count).reverse ++ taken) ∧
      ∀ z ∈ (x :: lefts).drop count, Precedes fromEnd y z) failure
      (lead fromEnd (fun sample => do return (← lt y sample) == fromEnd) (x :: lefts)) := by
  have chooses := chooses_left fromEnd y
  have falls := (List.pairwise_append.mp merging.lefts).2.1.imp fun {x z} => chooses.falls x z
  have wins : Decides failure _ (fun sample => do return (← lt y sample) == fromEnd) :=
    fun sample =>
    Returns.bind (orders y sample) fun below same => congrArg (· == fromEnd) same
  have rights_behind := precedes_of_pairwise merging.rights
  refine (lead_leads wins falls (List.cons_ne_nil x lefts)).mono
    fun count leads => ⟨?_, fun z member => ?_⟩
  · exact merging.takeLeft count fun x member z other =>
      trans_of _ (chooses.takes x (leads.takes x member)) (rights_behind z other)
  · exact chooses.leaves z (leads.leaves z member)

theorem leadRight (orders : Orders failure lt)
    (merging : Merging fromEnd (x :: lefts) (y :: rights) taken) :
    Returns (fun count => Merging fromEnd (x :: lefts) ((y :: rights).drop count)
        (((y :: rights).take count).reverse ++ taken) ∧
      ∀ z ∈ (y :: rights).drop count, Precedes fromEnd x z) failure
      (lead fromEnd (fun sample => do return (← lt sample x) != fromEnd) (y :: rights)) := by
  have chooses := chooses_right fromEnd x
  have falls := (List.pairwise_append.mp merging.rights).2.1.imp fun {y z} => chooses.falls y z
  have wins : Decides failure _ (fun sample => do return (← lt sample x) != fromEnd) :=
    fun sample =>
    Returns.bind (orders sample x) fun below same => congrArg (· != fromEnd) same
  have lefts_behind := precedes_of_pairwise merging.lefts
  refine (lead_leads wins falls (List.cons_ne_nil y rights)).mono
    fun count leads => ⟨?_, fun z member => ?_⟩
  · exact merging.takeRight count fun y member z other =>
      trans_of _ (chooses.takes y (leads.takes y member)) (lefts_behind z other)
  · exact chooses.leaves z (leads.leaves z member)

end Merging

theorem mergeFrom_ascending (orders : Orders failure lt) (recorded limit : Nat) (pace : Pace)
    (merging : Merging fromEnd left right taken) :
    Returns (fun merged => merged.1.Pairwise (· ≤ ·)) failure
      (mergeFrom lt fromEnd recorded limit pace left right taken) := by
  -- At every pace, what is taken next precedes all that is left of both runs.
  fun_induction mergeFrom lt fromEnd recorded limit pace left right taken with
  | case1 recorded limit pace left right taken rest finished =>
    simp only [finished]
    exact merging.finish finished
  | case2 recorded limit taken x lefts y rights leftWins rightWins more takeLeft takeRight =>
    simp only [more]
    have chooses := chooses_left fromEnd y
    have lefts_behind := precedes_of_pairwise merging.lefts
    have rights_behind := precedes_of_pairwise merging.rights
    refine Returns.bind (orders y x) fun below same => ?_
    rw [same]
    split
    · rename_i wins
      refine takeLeft (merging.takeLeft 1 (List.forall_mem_singleton.mpr fun z member => ?_))
      exact trans_of _ (chooses.takes x wins) (rights_behind z member)
    · rename_i loses
      refine takeRight (merging.takeRight 1 (List.forall_mem_singleton.mpr fun z member => ?_))
      exact trans_of _ (chooses.leaves x (Bool.eq_false_of_not_eq_true loses))
        (lefts_behind z member)
  | case3 recorded limit taken x lefts y rights more leap =>
    simp only [more]
    refine Returns.bind (merging.leadLeft orders) fun count led => ?_
    obtain ⟨merging, behind⟩ := led
    split
    · rename_i rest finished
      exact merging.finish finished
    · exact leap count (merging.takeRight 1 (List.forall_mem_singleton.mpr behind))
  | case4 recorded limit taken x lefts y rights leftLead more slower faster =>
    simp only [more]
    refine Returns.bind (merging.leadRight orders) fun count led => ?_
    obtain ⟨merging, behind⟩ := led
    split
    · rename_i rest finished
      exact merging.finish finished
    have next := merging.takeLeft 1 (List.forall_mem_singleton.mpr behind)
    split
    · exact slower count next
    · exact faster count next
  | case5 recorded limit pace taken left right others more =>
    obtain ⟨left_some, right_some⟩ := some_of_rest? more
    cases left with
    | nil => exact absurd rfl left_some
    | cons x lefts =>
      cases right with
      | nil => exact absurd rfl right_some
      | cons y rights => exact absurd rfl (others x lefts y rights rfl)

/-- The first sample of the right run comes before all of the left one, and the last sample of the
left run behind all of the right one. -/
structure Interlocked (left right : List α) : Prop where
  first : ∀ least ∈ right.head?, ∀ x ∈ left, least ≤ x
  last : ∀ greatest ∈ left.getLast?, ∀ y ∈ right, y ≤ greatest

theorem mergeParts_ascending (orders : Orders failure lt) (limit : Nat)
    (lefts : left.Pairwise (· ≤ ·)) (rights : right.Pairwise (· ≤ ·))
    (interlocked : Interlocked left right) :
    Returns (fun merged => merged.1.Pairwise (· ≤ ·)) failure (mergeParts lt limit left right) := by
  unfold mergeParts
  split
  · refine mergeFrom_ascending orders _ _ _ ⟨?_, ?_, ?_⟩
    · cases right with
      | nil => exact lefts
      | cons least others => exact .cons (interlocked.first least rfl) lefts
    · cases right with
      | nil => exact .nil
      | cons least others => exact rights
    · exact fun greatest last y member => interlocked.last greatest last y (List.mem_of_mem_tail
        member)
  · rename_i longer
    have lefts_back := List.pairwise_reverse.mpr lefts
    have rights_back := List.pairwise_reverse.mpr rights
    have last := interlocked.last
    rw [← List.head?_reverse] at last
    cases same : left.reverse with
    | nil =>
      rw [List.reverse_eq_nil_iff.mp same] at longer
      exact absurd (Nat.zero_le _) longer
    | cons greatest before =>
      rw [same] at lefts_back last
      refine mergeFrom_ascending orders _ _ _ ⟨lefts_back, ?_, fun least first x member => ?_⟩
      · exact .cons (fun y member => last greatest rfl y (List.mem_reverse.mp member)) rights_back
      · rw [List.getLast?_reverse] at first
        refine interlocked.first least first x (List.mem_reverse.mp ?_)
        rw [same]
        exact List.mem_cons_of_mem _ member

theorem head?_le (ascending : right.Pairwise (· ≤ ·)) {least : α}
    (first : right.head? = some least) : ∀ y ∈ right, least ≤ y := by
  obtain ⟨others, rfl⟩ := List.head?_eq_some_iff.mp first
  exact List.forall_mem_cons.mpr ⟨le_refl least, (List.pairwise_cons.mp ascending).1⟩

theorem le_getLast (ascending : left.Pairwise (· ≤ ·)) {greatest : α}
    (last : left.getLast? = some greatest) : ∀ x ∈ left, x ≤ greatest := by
  obtain ⟨before, rfl⟩ := List.getLast?_eq_some_iff.mp last
  refine List.forall_mem_append.mpr
    ⟨fun x member => ?_, List.forall_mem_singleton.mpr (le_refl greatest)⟩
  exact (List.pairwise_append.mp ascending).2.2 x member greatest List.mem_cons_self

theorem interlocked_of_between {least greatest : α} {kept moved : Nat}
    (first : right.head? = some least) (last : left.getLast? = some greatest)
    (left_above : ∀ x ∈ left.drop kept, least ≤ x)
    (right_below : ∀ y ∈ right.take moved, y ≤ greatest) :
    Interlocked (left.drop kept) (right.take moved) := by
  refine ⟨fun other head => ?_, fun other tail => ?_⟩
  · rw [List.head?_take] at head
    split at head
    · cases head
    · rw [first] at head
      cases head
      exact left_above
  · rw [List.getLast?_drop] at tail
    split at tail
    · cases tail
    · rw [last] at tail
      cases tail
      exact right_below

/-- Samples that are in their places stay there: those up to the least sample of the right run, and
those from the greatest one of the left run on. -/
theorem mergeMiddle_ascending (orders : Orders failure lt) (limit : Nat) {least greatest : α}
    {kept moved : Nat} (lefts : left.Pairwise (· ≤ ·)) (rights : right.Pairwise (· ≤ ·))
    (first : right.head? = some least) (last : left.getLast? = some greatest)
    (kept_below : ∀ x ∈ left.take kept, x ≤ least) (left_above : ∀ x ∈ left.drop kept, least ≤ x)
    (right_below : ∀ y ∈ right.take moved, y ≤ greatest)
    (moved_above : ∀ y ∈ right.drop moved, greatest ≤ y) :
    Returns (fun merged => merged.1.Pairwise (· ≤ ·)) failure (do
      let (merged, limit) ← mergeParts lt limit (left.drop kept) (right.take moved)
      return (left.take kept ++ merged ++ right.drop moved, limit)) := by
  have below := le_getLast lefts last
  have above := head?_le rights first
  have interlocked := interlocked_of_between first last left_above right_below
  have parts := mergeParts_ascending orders limit (lefts.sublist (List.drop_sublist kept left))
    (rights.sublist (List.take_sublist moved right)) interlocked
  have whole : Returns (fun merged => merged.1.Perm (left.drop kept ++ right.take moved)) failure
      (mergeParts lt limit (left.drop kept) (right.take moved)) :=
    mergeParts_perm orders.compares limit (fun _ _ => trivial) (fun _ _ => trivial)
  refine Returns.bind (parts.both whole.forget) ?_
  rintro ⟨merged, limit⟩ ⟨ascending, perm⟩
  dsimp only at ascending perm
  have between : ∀ x ∈ merged, least ≤ x ∧ x ≤ greatest := fun x member => by
    rcases List.mem_append.mp (perm.mem_iff.mp member) with member | member
    · exact ⟨left_above x member, below x (List.mem_of_mem_drop member)⟩
    · exact ⟨above x (List.mem_of_mem_take member), right_below x member⟩
  have up : (merged ++ right.drop moved).Pairwise (· ≤ ·) :=
    pairwise_append_of_between ascending (rights.sublist (List.drop_sublist moved right))
      (fun x member => (between x member).2) moved_above
  have all : (left.take kept ++ (merged ++ right.drop moved)).Pairwise (· ≤ ·) :=
    pairwise_append_of_between (lefts.sublist (List.take_sublist kept left)) up kept_below
      (List.forall_mem_append.mpr ⟨fun x member => (between x member).1,
        fun y member => above y (List.mem_of_mem_drop member)⟩)
  rwa [← List.append_assoc] at all

theorem mergeRuns_ascending (orders : Orders failure lt) (limit : Nat)
    (lefts : left.Pairwise (· ≤ ·)) (rights : right.Pairwise (· ≤ ·)) :
    Returns (fun merged => merged.1.Pairwise (· ≤ ·)) failure (mergeRuns lt limit left right) := by
  unfold mergeRuns
  split
  · rename_i greatest least others last
    have below := le_getLast lefts last
    have above := head?_le rights rfl
    have some : 0 < left.length := List.length_pos_of_mem (List.mem_of_getLast? last)
    have left_rises := rises_of_ascending lefts (fun x => decide (least < x)) fun x y less above =>
      decide_eq_true (lt_of_lt_of_le (of_decide_eq_true above) less)
    refine Returns.bind (boundary_splits (orders least) left_rises some) fun kept keeps => ?_
    have kept_below : ∀ x ∈ left.take kept, x ≤ least := fun x member =>
      not_lt.mp (of_decide_eq_false (keeps.fails x member))
    have left_above : ∀ x ∈ left.drop kept, least ≤ x := fun x member =>
      (of_decide_eq_true (keeps.holds x member)).le
    split
    · rename_i all
      rw [List.take_of_length_le all] at kept_below
      exact pairwise_append_of_between lefts rights kept_below above
    have right_rises :=
      rises_of_ascending rights (fun y => !decide (y < greatest)) fun x y less above => by
      simp only [Bool.not_eq_true', decide_eq_false_iff_not, not_lt] at above ⊢
      exact le_trans above less
    have decides : Decides failure (fun y => decide (y < greatest)) (lt · greatest) :=
      fun y => orders y greatest
    refine Returns.bind (boundary_splits decides.not right_rises (Nat.lt_succ_self others.length))
      fun moved moves => ?_
    have right_below : ∀ y ∈ (least :: others).take moved, y ≤ greatest := fun y member =>
      (of_decide_eq_true ((Bool.not_eq_false' _).mp (moves.fails y member))).le
    have moved_above : ∀ y ∈ (least :: others).drop moved, greatest ≤ y := fun y member =>
      not_lt.mp (of_decide_eq_false ((Bool.not_eq_true' _).mp (moves.holds y member)))
    split
    · rename_i none
      rw [none] at moved_above
      exact pairwise_append_of_between lefts rights below moved_above
    · exact mergeMiddle_ascending orders limit lefts rights rfl last kept_below left_above
        right_below moved_above
  · rename_i right _ _ neither
    cases right with
    | nil => exact (List.append_nil left).symm ▸ lefts
    | cons least others =>
      cases last : left.getLast? with
      | none =>
        rw [List.getLast?_eq_none_iff.mp last]
        exact rights
      | some greatest => exact absurd rfl (neither greatest least others last)

end IndicatorFormula.Sample
