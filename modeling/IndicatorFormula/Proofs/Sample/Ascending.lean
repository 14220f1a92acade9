import IndicatorFormula.Proofs.Sample.Merge

/-! Sorting puts samples in ascending order.

Runs are cut so that they are in order, and the runs that wait on the stack stay so while they are
merged. Where comparisons decide a linear order, sorting gives what every other sorting does. -/

set_option autoImplicit false
namespace IndicatorFormula.Sample

variable {ε α : Type} {failure : ε → Prop}

theorem insertIdx_eq {run : List α} {place : Nat} (inside : place ≤ run.length) (sample : α) :
    run.insertIdx place sample = run.take place ++ sample :: run.drop place := by
  induction run generalizing place with
  | nil =>
    obtain rfl := Nat.le_zero.mp inside
    rfl
  | cons first run ih =>
    cases place with
    | zero => rfl
    | succ place =>
      rw [List.insertIdx_succ_cons, ih (Nat.le_of_succ_le_succ inside)]
      rfl

variable [LinearOrder α] {lt : α → α → Except ε Bool}

section Runs

variable {run : List α}

theorem insertSample_ascending (orders : Orders failure lt) (ascending : run.Pairwise (· ≤ ·))
    (sample : α) : Returns (List.Pairwise (· ≤ ·)) failure (insertSample lt run sample) := by
  have rises : Rises (fun other => decide (sample < other)) run :=
    rises_of_ascending ascending _ fun x y below above =>
    decide_eq_true (lt_of_lt_of_le (of_decide_eq_true above) below)
  refine Returns.bind (bisect_splits (orders sample) rises (Nat.zero_add _).le nofun ?_)
    fun place split => ?_
  · rw [Nat.zero_add, List.getElem?_eq_none le_rfl]
    exact nofun
  have before : ∀ x ∈ run.take place, x ≤ sample := fun x member =>
    not_lt.mp (of_decide_eq_false (split.fails x member))
  have behind : ∀ x ∈ run.drop place, sample ≤ x :=
    fun x member => (of_decide_eq_true (split.holds x member)).le
  show (run.insertIdx place sample).Pairwise (· ≤ ·)
  rw [insertIdx_eq split.inside]
  exact pairwise_append_of_between (ascending.sublist (List.take_sublist ..))
    (.cons behind (ascending.sublist (List.drop_sublist ..))) before
    (List.forall_mem_cons.mpr ⟨le_refl sample, behind⟩)

theorem runLength_chain (orders : Orders failure lt) (descends : Bool) (previous : α)
    (samples : List α) :
    Returns
      (fun count => (previous :: samples.take count).IsChain fun x y => decide (y < x) = descends)
      failure (runLength lt descends previous samples) := by
  induction samples generalizing previous with
  | nil => exact .singleton previous
  | cons sample rest ih =>
    refine Returns.bind (orders sample previous) fun below same => ?_
    split
    · rename_i goesOn
      refine Returns.bind (ih sample) fun count chain => ?_
      exact .cons_cons (same.symm.trans (beq_iff_eq.mp goesOn)) chain
    · exact .singleton previous

theorem leadingRun_chain (orders : Orders failure lt) (first : α) (samples : List α) :
    Returns
      (fun found => (first :: samples.take found.1).IsChain fun x y => decide (y < x) = found.2)
      failure (leadingRun lt first samples) := by
  cases samples with
  | nil => exact .singleton first
  | cons second rest =>
    refine Returns.bind (orders second first) fun descends same => ?_
    refine Returns.bind (runLength_chain orders descends second rest) fun count chain => ?_
    exact .cons_cons same.symm chain

theorem runs_ascending (orders : Orders failure lt) (leastLength : Nat) (samples : List α) :
    Returns (fun found => ∀ run ∈ found, run.Pairwise (· ≤ ·)) failure
      (runs lt leastLength samples) := by
  fun_induction runs lt leastLength samples with
  | case1 => exact fun run member => absurd member List.not_mem_nil
  | case2 first rest ih =>
    refine Returns.bind (leadingRun_chain orders first rest) ?_
    rintro ⟨count, descends⟩ chain
    dsimp only at chain ⊢
    have turned : (if descends then (first :: rest.take count).reverse
          else first :: rest.take count).Pairwise (· ≤ ·) := by
      cases descends with
      | true =>
        have falls :=
          List.isChain_iff_pairwise.mp (chain.imp fun x y less => (of_decide_eq_true less : x > y))
        exact List.pairwise_reverse.mpr (falls.imp fun less => le_of_lt less)
      | false =>
        exact List.isChain_iff_pairwise.mp
          (chain.imp fun x y notLess => not_lt.mp (of_decide_eq_false notLess))
    refine Returns.bind (Returns.foldlM _ _ turned fun run ascending sample _ =>
      insertSample_ascending orders ascending sample) fun run ascending => ?_
    exact Returns.bind (ih count) fun later each => List.forall_mem_cons.mpr ⟨ascending, each⟩

end Runs

section Stack

variable {last : List α} {pending : List (PendingRun α)}

abbrev Stacked (pending : List (PendingRun α)) : Prop :=
  ∀ waiting ∈ pending, waiting.run.Pairwise (· ≤ ·)

theorem collapse_ascending (orders : Orders failure lt) (limit power : Nat)
    (ascending : last.Pairwise (· ≤ ·)) (stacked : Stacked pending) :
    Returns (fun stack => Stacked stack.1) failure (collapse lt limit power last pending) := by
  induction pending generalizing limit last with
  | nil => exact List.forall_mem_singleton.mpr ascending
  | cons top below ih =>
    obtain ⟨first, rest⟩ := List.forall_mem_cons.mp stacked
    unfold collapse
    split
    · exact Returns.bind (mergeRuns_ascending orders limit first ascending)
        fun merged longer => ih merged.2 longer rest
    · exact List.forall_mem_cons.mpr ⟨ascending, stacked⟩

theorem mergePending_ascending (orders : Orders failure lt) (limit : Nat)
    (ascending : last.Pairwise (· ≤ ·)) (stacked : Stacked pending) :
    Returns (List.Pairwise (· ≤ ·)) failure (mergePending lt limit last pending) := by
  fun_induction mergePending lt limit last pending with
  | case1 limit last => exact ascending
  | case2 limit last top =>
    have first := stacked top List.mem_cons_self
    exact Returns.bind (mergeRuns_ascending orders limit first ascending)
      fun merged longer => longer
  | case3 limit last top second below shorter ih =>
    simp only [Stacked, List.forall_mem_cons] at stacked
    obtain ⟨first, next, rest⟩ := stacked
    refine Returns.bind (mergeRuns_ascending orders limit next first) fun merged longer => ?_
    exact ih merged.1 merged.2 ascending (List.forall_mem_cons.mpr ⟨longer, rest⟩)
  | case4 limit last top second below notShorter ih =>
    obtain ⟨first, rest⟩ := List.forall_mem_cons.mp stacked
    refine Returns.bind (mergeRuns_ascending orders limit first ascending) fun merged longer => ?_
    exact ih merged.1 merged.2 longer rest

theorem mergeInOrder_ascending (orders : Orders failure lt) (total start limit : Nat)
    {rest : List (List α)} (ascending : last.Pairwise (· ≤ ·)) (stacked : Stacked pending)
    (each : ∀ run ∈ rest, run.Pairwise (· ≤ ·)) :
    Returns (List.Pairwise (· ≤ ·)) failure
      (mergeInOrder lt total start limit pending last rest) := by
  induction rest generalizing start limit pending last with
  | nil => exact mergePending_ascending orders limit ascending stacked
  | cons next rest ih =>
    obtain ⟨own, others⟩ := List.forall_mem_cons.mp each
    unfold mergeInOrder
    refine Returns.bind (collapse_ascending orders limit _ ascending stacked)
      fun stack stacked => ?_
    exact ih _ stack.2 own stacked others

end Stack

/-- Sorting puts samples in ascending order. -/
theorem sort_ascending (orders : Orders failure lt) (samples : List α) :
    Returns (List.Pairwise (· ≤ ·)) failure (sort lt samples) := by
  unfold sort
  refine Returns.bind (runs_ascending orders _ samples) fun found each => ?_
  split
  · exact .nil
  · obtain ⟨first, others⟩ := List.forall_mem_cons.mp each
    exact mergeInOrder_ascending orders _ _ _ first nofun others

/-- Sorting under comparisons that do not fail gives what the library's sorting does. -/
theorem sort_eq_mergeSort (decides : ∀ x y, lt x y = .ok (decide (x < y))) (samples : List α) :
    sort lt samples = .ok samples.mergeSort := by
  have orders : Orders (fun _ => False) lt := fun x y => by
    rw [decides]
    rfl
  have whole : Returns (List.Perm · samples) (fun _ => False) (sort lt samples) :=
    sort_perm orders.compares fun _ _ => trivial
  have sorts := (sort_ascending orders samples).both whole.forget
  cases sorted : sort lt samples with
  | error error =>
    rw [sorted] at sorts
    exact sorts.elim
  | ok result =>
    rw [sorted] at sorts
    obtain ⟨ascending, perm⟩ := sorts
    have same : result.Perm samples.mergeSort := perm.trans (List.mergeSort_perm ..).symm
    rw [same.eq_of_pairwise' ascending (List.pairwise_mergeSort' (· ≤ ·) samples)]

end IndicatorFormula.Sample
