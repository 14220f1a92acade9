import IndicatorFormula.Sample.Sort
import IndicatorFormula.Proofs.Outcome

/-! Sorting rearranges the samples.

Every step of a merge moves samples and neither loses nor repeats any, whatever the comparisons say.
Sorting fails only where a comparison of two of the samples does. -/

set_option autoImplicit false
namespace IndicatorFormula.Sample

variable {ε α : Type} {kind : α → Prop} {failure : ε → Prop} {lt : α → α → Except ε Bool}

abbrev Compares (kind : α → Prop) (failure : ε → Prop) (lt : α → α → Except ε Bool) : Prop :=
  ∀ x y, kind x → kind y → Returns (fun _ => True) failure (lt x y)

theorem perm_of_count {xs ys : List α}
    (same : ∀ (_ : DecidableEq α) (a : α), xs.count a = ys.count a) : xs.Perm ys := by
  classical
  exact List.perm_iff_count.mpr (same inferInstance)

theorem bisect_le (holds : α → Except ε Bool) (run : List α)
    (total : ∀ x ∈ run, Returns (fun _ => True) failure (holds x)) (first count : Nat) :
    Returns (· ≤ first + count) failure (bisect holds run first count) := by
  fun_induction bisect holds run first count with
  | case1 first => exact Nat.le_add_right _ _
  | case2 first count _ middle absent => exact Nat.le_add_right _ _
  | case3 first count positive middle sample found left right =>
    refine Returns.bind (total sample (List.mem_of_getElem? found)) fun below _ => ?_
    split
    · exact left.mono fun place bound => by omega
    · exact right.mono fun place bound => by omega

theorem holdsAt_total {holds : α → Except ε Bool} {run : List α}
    (total : ∀ x ∈ run, Returns (fun _ => True) failure (holds x)) (place : Nat) :
    Returns (fun _ => True) failure (holdsAt holds run place) := by
  unfold holdsAt
  split
  · rename_i sample found
    exact total sample (List.mem_of_getElem? found)
  · trivial

theorem stride_total {goesOn : Nat → Except ε Bool}
    (total : ∀ n, Returns (fun _ => True) failure (goesOn n)) (limit last distance : Nat) :
    Returns (fun _ => True) failure (stride goesOn limit last distance) := by
  fun_induction stride goesOn limit last distance with
  | case1 last distance inside ih =>
    refine Returns.bind (total distance) fun on _ => ?_
    split
    · exact ih
    · trivial
  | case2 last distance outside => trivial

theorem boundary_total {holds : α → Except ε Bool} {run : List α}
    (total : ∀ x ∈ run, Returns (fun _ => True) failure (holds x)) (start : Nat) :
    Returns (fun _ => True) failure (boundary holds run start) := by
  have fails : ∀ x ∈ run, Returns (fun _ => True) failure (do return !(← holds x)) :=
    fun x member =>
    Returns.bind (total x member) fun _ _ => trivial
  unfold boundary
  refine Returns.bind (holdsAt_total total start) fun begun _ => ?_
  split
  · refine Returns.bind (stride_total (fun d => holdsAt_total total _) _ _ _) fun found _ => ?_
    exact (bisect_le holds run total _ _).mono fun _ _ => trivial
  · refine Returns.bind (stride_total (fun d => holdsAt_total fails _) _ _ _) fun found _ => ?_
    exact (bisect_le holds run total _ _).mono fun _ _ => trivial

theorem insertSample_perm (compares : Compares kind failure lt) {run : List α}
    (each : ∀ x ∈ run, kind x) {sample : α} (own : kind sample) :
    Returns (List.Perm · (sample :: run)) failure (insertSample lt run sample) := by
  refine Returns.bind
    (bisect_le (lt sample) run (fun x member => compares sample x own (each x member)) 0 run.length)
    fun place inside => ?_
  exact List.perm_insertIdx sample run (by omega)

theorem runLength_total (compares : Compares kind failure lt) (descends : Bool) {previous : α}
    (own : kind previous) {samples : List α} (each : ∀ x ∈ samples, kind x) :
    Returns (fun _ => True) failure (runLength lt descends previous samples) := by
  induction samples generalizing previous with
  | nil => trivial
  | cons sample rest ih =>
    obtain ⟨next, rest⟩ := List.forall_mem_cons.mp each
    refine Returns.bind (compares sample previous next own) fun below _ => ?_
    split
    · exact Returns.bind (ih next rest) fun _ _ => trivial
    · trivial

theorem leadingRun_total (compares : Compares kind failure lt) {first : α} {samples : List α}
    (each : ∀ x ∈ first :: samples, kind x) :
    Returns (fun _ => True) failure (leadingRun lt first samples) := by
  obtain ⟨own, each⟩ := List.forall_mem_cons.mp each
  cases samples with
  | nil => trivial
  | cons second rest =>
    obtain ⟨next, rest⟩ := List.forall_mem_cons.mp each
    refine Returns.bind (compares second first next own) fun descends _ => ?_
    exact Returns.bind (runLength_total compares descends next rest) fun _ _ => trivial

theorem insertSamples_perm (compares : Compares kind failure lt) {run samples : List α}
    (each : ∀ x ∈ run ++ samples, kind x) :
    Returns (List.Perm · (run ++ samples)) failure (samples.foldlM (insertSample lt) run) := by
  induction samples generalizing run with
  | nil => exact List.Perm.of_eq (List.append_nil run).symm
  | cons sample samples ih =>
    rw [List.foldlM_cons]
    have run_each : ∀ x ∈ run, kind x := fun x member => each x (List.mem_append_left _ member)
    have own := each sample (List.mem_append_right _ List.mem_cons_self)
    refine Returns.bind (insertSample_perm compares run_each own) fun longer inserted => ?_
    have moved := (inserted.append_right samples).trans List.perm_middle.symm
    exact (ih fun x member => each x (moved.mem_iff.mp member)).mono
      fun result perm => perm.trans moved

theorem runs_perm (compares : Compares kind failure lt) (leastLength : Nat) {samples : List α}
    (each : ∀ x ∈ samples, kind x) :
    Returns (fun found => found.flatten.Perm samples) failure (runs lt leastLength samples) := by
  fun_induction runs lt leastLength samples with
  | case1 => exact List.Perm.refl _
  | case2 first rest ih =>
    refine Returns.bind (leadingRun_total compares each) ?_
    rintro ⟨count, descends⟩ _
    have cut : first :: rest =
        (first :: rest.take count) ++
          ((rest.drop count).take (leastLength - (count + 1)) ++
            (rest.drop count).drop (leastLength - (count + 1))) := by
      rw [List.take_append_drop, List.cons_append, List.take_append_drop]
    rw [cut, ← List.append_assoc] at each ⊢
    have turned : (if descends then (first :: rest.take count).reverse
          else first :: rest.take count).Perm (first :: rest.take count) := by
      cases descends with
      | true => exact List.reverse_perm _
      | false => exact List.Perm.refl _
    have moved := turned.append_right ((rest.drop count).take (leastLength - (count + 1)))
    refine Returns.bind (insertSamples_perm compares fun x member => ?_) fun run inserted => ?_
    · exact each x (List.mem_append_left _ (moved.mem_iff.mp member))
    refine Returns.bind (ih count fun x member => each x (List.mem_append_right _ member))
      fun later flat => ?_
    exact (inserted.append flat).trans (moved.append_right _)

theorem assemble_perm (fromEnd : Bool) (taken rest : List α) :
    (assemble fromEnd taken rest).Perm (taken ++ rest) := by
  refine perm_of_count fun _ a => ?_
  cases fromEnd <;> simp [assemble, List.count_append, Nat.add_comm]

theorem restBeside?_perm {aside other rest : List α}
    (finished : restBeside? aside other = some rest) : rest.Perm (aside ++ other) := by
  unfold restBeside? at finished
  split at finished <;> cases finished
  · simp
  · simp
  · exact List.perm_append_comm

theorem rest?_perm {fromEnd : Bool} {left right rest : List α}
    (finished : rest? fromEnd left right = some rest) : rest.Perm (left ++ right) := by
  unfold rest? at finished
  split at finished
  · exact (restBeside?_perm finished).trans List.perm_append_comm
  · exact restBeside?_perm finished

theorem lead_total {precedes : α → Except ε Bool} (fromEnd : Bool) {run : List α}
    (total : ∀ x ∈ run, Returns (fun _ => True) failure (precedes x)) :
    Returns (fun _ => True) failure (lead fromEnd precedes run) := by
  have fails : ∀ x ∈ run, Returns (fun _ => True) failure (do return !(← precedes x)) :=
    fun x member =>
    Returns.bind (total x member) fun _ _ => trivial
  unfold lead
  split
  · refine Returns.bind (boundary_total (fun x member => total x (List.mem_reverse.mp member)) _)
      fun _ _ => trivial
  · exact boundary_total fails _

theorem takeLeft_perm (count : Nat) (taken left right : List α) :
    ((left.take count).reverse ++ taken ++ (left.drop count ++ right)).Perm
      (taken ++ (left ++ right)) := by
  refine perm_of_count fun _ a => ?_
  have whole := congrArg (List.count a) (left.take_append_drop count)
  simp only [List.count_append, List.count_reverse] at whole ⊢
  omega

theorem takeRight_perm (count : Nat) (taken left right : List α) :
    ((right.take count).reverse ++ taken ++ (left ++ right.drop count)).Perm
      (taken ++ (left ++ right)) := by
  refine perm_of_count fun _ a => ?_
  have whole := congrArg (List.count a) (right.take_append_drop count)
  simp only [List.count_append, List.count_reverse] at whole ⊢
  omega

theorem finish_perm {fromEnd : Bool} {left right rest : List α} (taken : List α)
    (finished : rest? fromEnd left right = some rest) :
    (assemble fromEnd taken rest).Perm (taken ++ (left ++ right)) :=
  (assemble_perm fromEnd taken rest).trans ((rest?_perm finished).append_left taken)

theorem mergeFrom_perm (compares : Compares kind failure lt) (fromEnd : Bool) (recorded limit : Nat)
    (pace : Pace) {left right : List α} (taken : List α) (lefts_each : ∀ x ∈ left, kind x)
    (rights_each : ∀ x ∈ right, kind x) :
    Returns (fun merged => merged.1.Perm (taken ++ (left ++ right))) failure
      (mergeFrom lt fromEnd recorded limit pace left right taken) := by
  fun_induction mergeFrom lt fromEnd recorded limit pace left right taken with
  | case1 recorded limit pace left right taken rest finished =>
    simp only [finished]
    exact finish_perm taken finished
  | case2 recorded limit taken x lefts y rights leftWins rightWins more takeLeft takeRight =>
    simp only [more]
    obtain ⟨first, firsts⟩ := List.forall_mem_cons.mp lefts_each
    obtain ⟨second, seconds⟩ := List.forall_mem_cons.mp rights_each
    refine Returns.bind (compares y x second first) fun below _ => ?_
    split
    · exact (takeLeft firsts rights_each).mono fun merged perm =>
        perm.trans (takeLeft_perm 1 taken (x :: lefts) (y :: rights))
    · exact (takeRight lefts_each seconds).mono fun merged perm =>
        perm.trans (takeRight_perm 1 taken (x :: lefts) (y :: rights))
  | case3 recorded limit taken x lefts y rights more leap =>
    simp only [more]
    obtain ⟨second, seconds⟩ := List.forall_mem_cons.mp rights_each
    have wins : ∀ sample ∈ x :: lefts, Returns (fun _ => True) failure
        (do return (← lt y sample) == fromEnd) :=
      fun sample member =>
        Returns.bind (compares y sample second (lefts_each sample member)) fun _ _ => trivial
    refine Returns.bind (lead_total fromEnd wins) fun count _ => ?_
    have led := takeLeft_perm count taken (x :: lefts) (y :: rights)
    split
    · rename_i rest finished
      exact (finish_perm _ finished).trans led
    · have behind :=
        fun sample member => lefts_each sample (List.mem_of_mem_drop (i := count) member)
      exact (leap count behind seconds).mono fun merged perm =>
        (perm.trans (takeRight_perm 1 _ _ (y :: rights))).trans led
  | case4 recorded limit taken x lefts y rights leftLead more slower faster =>
    simp only [more]
    obtain ⟨first, firsts⟩ := List.forall_mem_cons.mp lefts_each
    have wins : ∀ sample ∈ y :: rights, Returns (fun _ => True) failure
        (do return (← lt sample x) != fromEnd) :=
      fun sample member =>
        Returns.bind (compares sample x (rights_each sample member) first) fun _ _ => trivial
    refine Returns.bind (lead_total fromEnd wins) fun count _ => ?_
    have led := takeRight_perm count taken (x :: lefts) (y :: rights)
    split
    · rename_i rest finished
      exact (finish_perm _ finished).trans led
    · have behind :=
        fun sample member => rights_each sample (List.mem_of_mem_drop (i := count) member)
      have next := (takeLeft_perm 1 _ (x :: lefts) ((y :: rights).drop count)).trans led
      split
      · exact (slower count firsts behind).mono fun merged perm => perm.trans next
      · exact (faster count firsts behind).mono fun merged perm => perm.trans next
  | case5 recorded limit pace taken left right _ more =>
    simp only [more]
    exact assemble_perm fromEnd taken (left ++ right)

theorem mergeParts_perm (compares : Compares kind failure lt) (limit : Nat) {left right : List α}
    (lefts : ∀ x ∈ left, kind x) (rights : ∀ x ∈ right, kind x) :
    Returns (fun merged => merged.1.Perm (left ++ right)) failure
      (mergeParts lt limit left right) := by
  unfold mergeParts
  split
  · have later := fun x member => rights x (List.mem_of_mem_tail member)
    refine (mergeFrom_perm compares _ _ _ _ _ lefts later).mono
      fun merged perm => perm.trans (perm_of_count fun _ a => ?_)
    have whole := congrArg (List.count a) (right.take_append_drop 1)
    simp only [List.count_append, List.drop_one] at whole ⊢
    omega
  · have earlier := fun x member => lefts x (List.mem_reverse.mp (List.mem_of_mem_tail member))
    have others := fun x member => rights x (List.mem_reverse.mp member)
    refine (mergeFrom_perm compares _ _ _ _ _ earlier others).mono fun merged perm =>
      perm.trans (perm_of_count fun _ a => ?_)
    have whole := congrArg (List.count a) (left.reverse.take_append_drop 1)
    simp only [List.count_append, List.count_reverse, List.drop_one] at whole ⊢
    omega

theorem mergeRuns_perm (compares : Compares kind failure lt) (limit : Nat) {left right : List α}
    (lefts : ∀ x ∈ left, kind x) (rights : ∀ x ∈ right, kind x) :
    Returns (fun merged => merged.1.Perm (left ++ right)) failure
      (mergeRuns lt limit left right) := by
  unfold mergeRuns
  split
  · rename_i greatest least others ends
    have last := lefts greatest (List.mem_of_getLast? ends)
    have first := rights least List.mem_cons_self
    have precedes := fun sample member => compares least sample first (lefts sample member)
    have fails : ∀ sample ∈ least :: others, Returns (fun _ => True) failure
        (do return !(← lt sample greatest)) :=
      fun sample member =>
        Returns.bind (compares sample greatest (rights sample member) last) fun _ _ => trivial
    refine Returns.bind (boundary_total precedes 0) fun kept _ => ?_
    split
    · exact List.Perm.refl _
    refine Returns.bind (boundary_total fails _) fun moved _ => ?_
    split
    · exact List.Perm.refl _
    have middle := fun sample member => lefts sample (List.mem_of_mem_drop (i := kept) member)
    have middle' := fun sample member => rights sample (List.mem_of_mem_take (i := moved) member)
    refine Returns.bind (mergeParts_perm compares limit middle middle') fun merged perm => ?_
    refine perm_of_count fun _ a => ?_
    have lefts := congrArg (List.count a) (left.take_append_drop kept)
    have rights := congrArg (List.count a) ((least :: others).take_append_drop moved)
    have parts := perm.count_eq a
    simp only [List.count_append] at lefts rights parts ⊢
    omega
  · exact List.Perm.refl _

def pendingSamples (pending : List (PendingRun α)) : List α :=
  pending.flatMap PendingRun.run

theorem collapse_perm (compares : Compares kind failure lt) (limit power : Nat) {last : List α}
    {pending : List (PendingRun α)} (each : ∀ x ∈ pendingSamples pending ++ last, kind x) :
    Returns (fun stack => (pendingSamples stack.1).Perm (pendingSamples pending ++ last)) failure
      (collapse lt limit power last pending) := by
  induction pending generalizing limit last with
  | nil => exact List.Perm.of_eq (by simp [pendingSamples])
  | cons top below ih =>
    unfold collapse
    split
    · have tops : ∀ x ∈ top.run, kind x := fun x member => each x (by simp [pendingSamples, member])
      have lasts : ∀ x ∈ last, kind x := fun x member => each x (List.mem_append_right _ member)
      refine Returns.bind (mergeRuns_perm compares limit tops lasts) fun merged perm => ?_
      have moved : (pendingSamples below ++ merged.1).Perm
          (pendingSamples (top :: below) ++ last) := by
        refine perm_of_count fun _ a => ?_
        have parts := perm.count_eq a
        simp only [pendingSamples, List.flatMap_cons, List.count_append] at parts ⊢
        omega
      exact (ih merged.2 fun x member => each x (moved.mem_iff.mp member)).mono
        fun stack rest => rest.trans moved
    · refine perm_of_count fun _ a => ?_
      simp only [pendingSamples, List.flatMap_cons, List.count_append]
      omega

theorem mergePending_perm (compares : Compares kind failure lt) (limit : Nat) {last : List α}
    {pending : List (PendingRun α)} (each : ∀ x ∈ pendingSamples pending ++ last, kind x) :
    Returns (List.Perm · (pendingSamples pending ++ last)) failure
      (mergePending lt limit last pending) := by
  have lasts : ∀ x ∈ last, kind x := fun x member => each x (List.mem_append_right _ member)
  have pendings : ∀ x ∈ pendingSamples pending, kind x :=
    fun x member => each x (List.mem_append_left _ member)
  clear each
  fun_induction mergePending lt limit last pending with
  | case1 limit last => exact List.Perm.refl _
  | case2 limit last top =>
    have alone : pendingSamples [top] = top.run := List.append_nil _
    rw [alone] at pendings ⊢
    exact Returns.bind (mergeRuns_perm compares limit pendings lasts) fun merged perm => perm
  | case3 limit last top second below shorter ih =>
    simp only [pendingSamples, List.flatMap_cons, List.forall_mem_append] at pendings
    obtain ⟨tops, seconds, belows⟩ := pendings
    refine Returns.bind (mergeRuns_perm compares limit seconds tops) fun merged perm => ?_
    refine (ih merged.1 merged.2 lasts ?_).mono
      fun sorted rest => rest.trans (perm_of_count fun _ a => ?_)
    · simp only [pendingSamples, List.flatMap_cons, List.forall_mem_append]
      refine ⟨fun x member => ?_, belows⟩
      exact (List.mem_append.mp (perm.mem_iff.mp member)).elim (seconds x) (tops x)
    · have parts := perm.count_eq a
      simp only [pendingSamples, List.flatMap_cons, List.count_append] at parts ⊢
      omega
  | case4 limit last top second below notShorter ih =>
    simp only [pendingSamples, List.flatMap_cons, List.forall_mem_append] at pendings
    obtain ⟨tops, seconds, belows⟩ := pendings
    refine Returns.bind (mergeRuns_perm compares limit tops lasts) fun merged perm => ?_
    refine (ih merged.1 merged.2 ?_ ?_).mono
      fun sorted rest => rest.trans (perm_of_count fun _ a => ?_)
    · exact fun x member => (List.mem_append.mp (perm.mem_iff.mp member)).elim (tops x) (lasts x)
    · simp only [pendingSamples, List.flatMap_cons, List.forall_mem_append]
      exact ⟨seconds, belows⟩
    · have parts := perm.count_eq a
      simp only [pendingSamples, List.flatMap_cons, List.count_append] at parts ⊢
      omega

theorem mergeInOrder_perm (compares : Compares kind failure lt) (total start limit : Nat)
    {pending : List (PendingRun α)} {last : List α} {rest : List (List α)}
    (each : ∀ x ∈ pendingSamples pending ++ last ++ rest.flatten, kind x) :
    Returns (List.Perm · (pendingSamples pending ++ last ++ rest.flatten)) failure
      (mergeInOrder lt total start limit pending last rest) := by
  induction rest generalizing start limit pending last with
  | nil =>
    rw [List.flatten_nil, List.append_nil] at each ⊢
    exact mergePending_perm compares limit each
  | cons next rest ih =>
    unfold mergeInOrder
    have before := fun x member => each x (List.mem_append_left _ member)
    refine Returns.bind (collapse_perm compares limit _ before) fun stack perm => ?_
    have moved : (pendingSamples stack.1 ++ next ++ rest.flatten).Perm
        (pendingSamples pending ++ last ++ (next :: rest).flatten) := by
      refine perm_of_count fun _ a => ?_
      have parts := perm.count_eq a
      simp only [List.flatten_cons, List.count_append] at parts ⊢
      omega
    exact (ih _ stack.2 fun x member => each x (moved.mem_iff.mp member)).mono
      fun sorted later => later.trans moved

/-- Sorting rearranges the samples, and fails only where a comparison of two of them does. -/
theorem sort_perm (compares : Compares kind failure lt) {samples : List α}
    (each : ∀ x ∈ samples, kind x) : Returns (List.Perm · samples) failure (sort lt samples) := by
  unfold sort
  refine Returns.bind (runs_perm compares _ each) fun found flat => ?_
  split
  · exact flat
  · rename_i first rest
    have runs_each : ∀ x ∈ pendingSamples [] ++ first ++ rest.flatten, kind x := fun x member =>
      each x (flat.mem_iff.mp member)
    exact (mergeInOrder_perm compares _ _ _ runs_each).mono fun sorted perm => perm.trans flat

end IndicatorFormula.Sample
