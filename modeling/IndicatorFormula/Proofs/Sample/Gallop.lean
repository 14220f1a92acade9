import IndicatorFormula.Proofs.Sample.Sort

/-! Searches find where a condition begins to hold.

If a condition goes on holding once it does, halving and galloping both find the one place that
splits a run. A gallop does so from wherever it starts. -/

set_option autoImplicit false
namespace IndicatorFormula.Sample

variable {ε α : Type} {failure : ε → Prop} {rule : α → Bool} {holds : α → Except ε Bool}
  {run : List α}

def Decides (failure : ε → Prop) (rule : α → Bool) (holds : α → Except ε Bool) : Prop :=
  ∀ sample, Returns (· = rule sample) failure (holds sample)

theorem Decides.not (decides : Decides failure rule holds) :
    Decides failure (fun sample => !rule sample) (fun sample => do return !(← holds sample)) :=
  fun sample =>
  Returns.bind (decides sample) fun _ same => congrArg Bool.not same

abbrev Rises (rule : α → Bool) (run : List α) : Prop :=
  run.Pairwise fun x y => rule x = true → rule y = true

structure Splits (rule : α → Bool) (run : List α) (place : Nat) : Prop where
  inside : place ≤ run.length
  fails : ∀ sample ∈ run.take place, rule sample = false
  holds : ∀ sample ∈ run.drop place, rule sample = true

theorem Rises.splits (rises : Rises rule run) {place : Nat} (inside : place ≤ run.length)
    (before : ∀ last, place = last + 1 → ∀ sample ∈ run[last]?, rule sample = false)
    (behind : ∀ sample ∈ run[place]?, rule sample = true) : Splits rule run place := by
  refine ⟨inside, ?_, ?_⟩
  · cases place with
    | zero => exact nofun
    | succ last =>
      have fails := before last rfl _ (List.getElem?_eq_getElem inside)
      have rises := rises.sublist (List.take_sublist (last + 1) run)
      rw [List.take_succ_eq_append_getElem inside] at rises ⊢
      refine List.forall_mem_append.mpr ⟨fun x member => ?_, List.forall_mem_singleton.mpr fails⟩
      have goesOn := (List.pairwise_append.mp rises).2.2 x member _ List.mem_cons_self
      exact Bool.eq_false_iff.mpr fun begun => Bool.eq_false_iff.mp fails (goesOn begun)
  · rcases Nat.eq_or_lt_of_le inside with rfl | inside
    · rw [List.drop_length]
      exact nofun
    · have begun := behind _ (List.getElem?_eq_getElem inside)
      have rises := rises.sublist (List.drop_sublist place run)
      rw [List.drop_eq_getElem_cons inside] at rises ⊢
      exact List.forall_mem_cons.mpr
        ⟨begun, fun x member => List.rel_of_pairwise_cons rises member begun⟩

theorem bisect_splits (decides : Decides failure rule holds) (rises : Rises rule run)
    {first count : Nat} (inside : first + count ≤ run.length)
    (before : ∀ last, first = last + 1 → ∀ sample ∈ run[last]?, rule sample = false)
    (behind : ∀ sample ∈ run[first + count]?, rule sample = true) :
    Returns (Splits rule run) failure (bisect holds run first count) := by
  fun_induction bisect holds run first count with
  | case1 first => exact rises.splits inside before behind
  | case2 first count positive middle absent =>
    have beyond := List.getElem?_eq_none_iff.mp absent
    omega
  | case3 first count positive middle sample found left right =>
    refine Returns.bind (decides sample) fun begun same => ?_
    split
    · rename_i begins
      refine left (by omega) before fun other there => ?_
      cases found.symm.trans there
      rw [← same, begins]
    · rename_i waits
      have next : middle + 1 + (count - count / 2 - 1) = first + count := by omega
      rw [next] at right
      refine right inside (fun last here other there => ?_) behind
      obtain rfl := Nat.succ.inj here
      cases found.symm.trans there
      rw [← same, Bool.eq_false_iff.mpr waits]

structure Strides (rule : Nat → Bool) (limit last distance : Nat) : Prop where
  reached : rule last = true
  further : last < distance
  ends : distance = limit ∨ distance < limit ∧ rule distance = false

theorem stride_strides {rule : Nat → Bool} {goesOn : Nat → Except ε Bool}
    (decides : ∀ d, Returns (· = rule d) failure (goesOn d)) {limit last distance : Nat}
    (reached : rule last = true) (further : last < distance) (inside : last < limit) :
    Returns (fun found => Strides rule limit found.1 found.2) failure
      (stride goesOn limit last distance) := by
  fun_induction stride goesOn limit last distance with
  | case1 last distance within ih =>
    refine Returns.bind (decides distance) fun on same => ?_
    split
    · rename_i goes
      exact ih (by rw [← same, goes]) (by omega) within
    · rename_i stops
      exact ⟨reached, further, .inr ⟨within, by rw [← same, Bool.eq_false_iff.mpr stops]⟩⟩
  | case2 last distance outside => exact ⟨reached, inside, .inl rfl⟩

theorem holdsAt_decides (decides : Decides failure rule holds) (place : Nat) :
    Returns (· = (run[place]?).any rule) failure (holdsAt holds run place) := by
  unfold holdsAt
  split
  · rename_i sample found
    rw [found]
    exact decides sample
  · rename_i absent
    rw [absent]
    rfl

/-- A gallop finds the place where a rule begins to hold, wherever it starts. -/
theorem boundary_splits (decides : Decides failure rule holds) (rises : Rises rule run)
    {start : Nat} (within : start < run.length) :
    Returns (Splits rule run) failure (boundary holds run start) := by
  have here := List.getElem?_eq_getElem within
  unfold boundary
  refine Returns.bind (holdsAt_decides decides start) fun begun same => ?_
  rw [here, Option.any_some] at same
  split
  · rename_i begins
    have reached : ((run[start - 0]?).any rule) = true := by
      rw [Nat.sub_zero, here, Option.any_some, ← same, begins]
    refine Returns.bind (stride_strides (fun d => holdsAt_decides decides (start - d)) reached
      Nat.zero_lt_one (Nat.succ_pos start)) ?_
    rintro ⟨last, distance⟩ ⟨reached, further, ends⟩
    dsimp only at reached further ends ⊢
    have behind : start + 1 - distance + (distance - last - 1) = start - last := by omega
    refine bisect_splits decides rises (by omega) (fun place before sample found => ?_)
      (fun sample found => ?_)
    · rcases ends with rfl | ⟨less, fails⟩
      · omega
      · obtain rfl : place = start - distance := by omega
        rwa [found, Option.any_some] at fails
    · rw [behind] at found
      rwa [found, Option.any_some] at reached
  · rename_i waits
    have reached : ((run[start + 0]?).any fun sample => !rule sample) = true := by
      rw [Nat.add_zero, here, Option.any_some, ← same, Bool.eq_false_iff.mpr waits]
      rfl
    refine Returns.bind (stride_strides (fun d => holdsAt_decides decides.not (start + d)) reached
      Nat.zero_lt_one (Nat.sub_pos_of_lt within)) ?_
    rintro ⟨last, distance⟩ ⟨reached, further, ends⟩
    dsimp only at reached further ends ⊢
    have behind : start + last + 1 + (distance - last - 1) = start + distance := by omega
    refine bisect_splits decides rises (by omega) (fun place before sample found => ?_)
      (fun sample found => ?_)
    · obtain rfl : place = start + last := by omega
      rwa [found, Option.any_some, Bool.not_eq_true'] at reached
    · rw [behind] at found
      rcases ends with rfl | ⟨less, fails⟩
      · rw [Nat.add_sub_cancel' (Nat.le_of_lt within),
          List.getElem?_eq_none (Nat.le_refl _)] at found
        cases found
      · rwa [found, Option.any_some, Bool.not_eq_false'] at fails

structure Leads (rule : α → Bool) (run : List α) (count : Nat) : Prop where
  takes : ∀ x ∈ run.take count, rule x = true
  leaves : ∀ x ∈ run.drop count, rule x = false

theorem lead_leads (decides : Decides failure rule holds) {fromEnd : Bool}
    (falls : run.Pairwise fun x y => rule y = true → rule x = true) (some : run ≠ []) :
    Returns (Leads rule run) failure (lead fromEnd holds run) := by
  have within := List.length_pos_iff.mpr some
  unfold lead
  split
  · have inside : run.length - 1 < run.reverse.length := by
      rw [List.length_reverse]
      omega
    refine Returns.bind (boundary_splits decides (List.pairwise_reverse.mpr falls) inside)
      fun place split => ?_
    refine ⟨fun x member => split.holds x ?_, fun x member => split.fails x ?_⟩
    · rwa [List.drop_reverse, List.mem_reverse]
    · rwa [List.take_reverse, List.mem_reverse]
  · have rises : Rises (fun sample => !rule sample) run := falls.imp fun {x y} back fails => by
      rw [Bool.not_eq_true', Bool.eq_false_iff] at fails ⊢
      exact fun holds => fails (back holds)
    refine (boundary_splits decides.not rises within).mono fun place split => ?_
    refine ⟨fun x member => ?_, fun x member => ?_⟩
    · exact (Bool.not_eq_false' _).mp (split.fails x member)
    · exact (Bool.not_eq_true' _).mp (split.holds x member)

end IndicatorFormula.Sample
