import Mathlib.Algebra.Order.Field.Rat
import Mathlib.Data.List.Count
import Mathlib.Data.List.GetD
import Mathlib.Data.Rat.Floor
import Mathlib.Order.Interval.Set.Basic
import Mathlib.Order.Monotone.Basic
import Mathlib.Tactic.FieldSimp
import Mathlib.Tactic.Linarith
import IndicatorFormula.Sample.Order
import IndicatorFormula.Failure
import IndicatorFormula.Proofs.Sample.Ascending

/-! Percentiles interpolate the samples in their order.

Over rational numbers, which are compared and computed with exactly, the percentile at a fraction
lies between the two samples next to its position, so it rises with the fraction from the least
sample to the greatest one and passes the median halfway. Ranks count the greater samples. -/

set_option autoImplicit false
namespace IndicatorFormula

namespace Sample

def placed (samples : List ℚ) (place : Int) : ℚ :=
  samples.getD place.toNat 0

def interpolated (samples : List ℚ) (position : ℚ) : ℚ :=
  placed samples ⌊position⌋ +
    (placed samples ⌈position⌉ - placed samples ⌊position⌋) * (position - ⌊position⌋)

section Interpolation

variable {samples : List ℚ}

theorem getElem?_toNat {place : Int} (inside : place < samples.length) (first : 0 ≤ place) :
    samples[place.toNat]? = some (placed samples place) := by
  have inside : place.toNat < samples.length := by omega
  rw [placed, List.getD_eq_getElem?_getD, List.getElem?_eq_getElem inside, Option.getD_some]

theorem placed_mono (ascending : samples.Pairwise (· ≤ ·)) {place place' : Int}
    (le : place ≤ place') (inside : place' < samples.length) :
    placed samples place ≤ placed samples place' := by
  have le : place.toNat ≤ place'.toNat := Int.toNat_le_toNat le
  rcases le.eq_or_lt with same | less
  · rw [placed, placed, same]
  · have inside : place'.toNat < samples.length := by omega
    rw [placed, placed, List.getD_eq_getElem _ _ (less.trans inside),
      List.getD_eq_getElem _ _ inside]
    exact List.pairwise_iff_getElem.mp ascending _ _ _ _ less

theorem interpolated_intCast (place : Int) : interpolated samples place = placed samples place := by
  simp [interpolated]

theorem interpolated_halfway (place : Int) :
    interpolated samples (place + 1 / 2) =
      (placed samples place + placed samples (place + 1)) / 2 := by
  have low : ⌊(place : ℚ) + 1 / 2⌋ = place := Int.floor_eq_iff.mpr ⟨by linarith, by linarith⟩
  have high : ⌈(place : ℚ) + 1 / 2⌉ = place + 1 := by
    rw [Int.ceil_eq_iff]
    push_cast
    exact ⟨by linarith, by linarith⟩
  rw [interpolated, low, high]
  ring

theorem interpolated_between (ascending : samples.Pairwise (· ≤ ·)) {position : ℚ}
    (inside : ⌈position⌉ < samples.length) :
    placed samples ⌊position⌋ ≤ interpolated samples position ∧
      interpolated samples position ≤ placed samples ⌈position⌉ := by
  have step := sub_nonneg.mpr (placed_mono ascending (Int.floor_le_ceil position) inside)
  have start := sub_nonneg.mpr (Int.floor_le position)
  have short : position - ⌊position⌋ ≤ 1 := by linarith [Int.lt_floor_add_one position]
  refine ⟨le_add_of_nonneg_right (mul_nonneg step start), ?_⟩
  have most := mul_le_of_le_one_right step short
  rw [interpolated]
  linarith

theorem interpolated_mono (ascending : samples.Pairwise (· ≤ ·)) {position position' : ℚ}
    (le : position ≤ position') (inside : ⌈position'⌉ < samples.length) :
    interpolated samples position ≤ interpolated samples position' := by
  have between := interpolated_between ascending inside
  rcases (Int.floor_mono le).eq_or_lt with same | less
  · rcases (Int.floor_le position).eq_or_lt with whole | part
    -- The first position is a place, which is the lower one of the other position, too.
    · rw [← whole, interpolated_intCast, same]
      exact between.1
    · have high : ⌈position⌉ = ⌊position⌋ + 1 := Int.ceil_eq_iff.mpr (by
        push_cast
        exact ⟨by linarith, (Int.lt_floor_add_one position).le⟩)
      have high' : ⌈position'⌉ = ⌊position⌋ + 1 := Int.ceil_eq_iff.mpr (by
        push_cast
        exact ⟨by linarith, by rw [same]; exact (Int.lt_floor_add_one position').le⟩)
      rw [high'] at inside
      have step := sub_nonneg.mpr (placed_mono ascending (Int.le_add_one le_rfl) inside)
      rw [interpolated, interpolated, high, high', ← same]
      gcongr
  -- A whole place is between the two positions.
  · have next : ⌈position⌉ ≤ ⌊position'⌋ := (Int.ceil_le_floor_add_one position).trans less
    have low : ⌈position⌉ < samples.length := by
      have := Int.floor_le_ceil position'
      omega
    calc interpolated samples position
      _ ≤ placed samples ⌈position⌉ := (interpolated_between ascending low).2
      _ ≤ placed samples ⌊position'⌋ :=
        placed_mono ascending next ((Int.floor_le_ceil position').trans_lt inside)
      _ ≤ interpolated samples position' := between.1

end Interpolation
end Sample

namespace Scale

def rational : Scale (Except Fault) ℚ where
  lt x y := .ok (decide (x < y))
  le x y := .ok (decide (x ≤ y))
  add x y := .ok (x + y)
  sub x y := .ok (x - y)
  mul x y := .ok (x * y)
  half x := .ok (x / 2)
  ofNat n := n
  ofInt := Int.cast
  floor x := .ok ⌊x⌋
  ceil x := .ok ⌈x⌉

/-- The position at a fraction of the way from the first sample in order to the last. -/
def position (samples : List ℚ) (fraction : ℚ) : ℚ :=
  (samples.length - 1 : Nat) * fraction

def percentile (samples : List ℚ) (fraction : ℚ) : ℚ :=
  Sample.interpolated samples.mergeSort (position samples fraction)

variable {samples : List ℚ} {fraction : ℚ}

theorem sort_rational (samples : List ℚ) :
    Sample.sort rational.lt samples = .ok samples.mergeSort :=
  Sample.sort_eq_mergeSort (fun _ _ => rfl) samples

theorem ascending_mergeSort (samples : List ℚ) : samples.mergeSort.Pairwise (· ≤ ·) :=
  List.pairwise_mergeSort' (· ≤ ·) samples

theorem percentile?_perm {others : List ℚ} (perm : others.Perm samples) :
    rational.percentile? others = rational.percentile? samples := by
  have same : others.mergeSort.Perm samples.mergeSort :=
    (List.mergeSort_perm ..).trans (perm.trans (List.mergeSort_perm ..).symm)
  have same := same.eq_of_pairwise' (ascending_mergeSort others) (ascending_mergeSort samples)
  funext fraction
  unfold percentile?
  rw [sort_rational, sort_rational, same]

theorem position_inside (nonempty : samples ≠ []) (between : fraction ∈ Set.Icc 0 1) :
    0 ≤ ⌊position samples fraction⌋ ∧ ⌈position samples fraction⌉ < samples.length := by
  have count := List.length_pos_iff.mpr nonempty
  obtain ⟨low, high⟩ := between
  have last : position samples fraction ≤ (samples.length - 1 : Nat) :=
    mul_le_of_le_one_right (Nat.cast_nonneg _) high
  refine ⟨Int.floor_nonneg.mpr (mul_nonneg (Nat.cast_nonneg _) low), ?_⟩
  have high : ⌈position samples fraction⌉ ≤ (samples.length - 1 : Nat) :=
    Int.ceil_le.mpr (by exact_mod_cast last)
  omega

theorem getElem?_mergeSort {place : Int} (first : 0 ≤ place) (inside : place < samples.length) :
    samples.mergeSort[place.toNat]? = some (Sample.placed samples.mergeSort place) :=
  Sample.getElem?_toNat (by rwa [List.length_mergeSort]) first

theorem placed_mem {place : Nat} (inside : place < samples.length) :
    Sample.placed samples.mergeSort place ∈ samples := by
  have found := getElem?_mergeSort (Int.natCast_nonneg place) (Int.ofNat_lt.mpr inside)
  exact List.mem_mergeSort.mp (List.mem_of_getElem? found)

theorem exists_place {sample : ℚ} (member : sample ∈ samples) :
    ∃ place : Nat, place < samples.length ∧ Sample.placed samples.mergeSort place = sample := by
  obtain ⟨place, found⟩ := List.mem_iff_getElem?.mp (List.mem_mergeSort.mpr member)
  have inside : place < samples.length := by
    rw [← samples.length_mergeSort]
    exact (List.getElem?_eq_some_iff.mp found).1
  refine ⟨place, inside, Option.some.inj ?_⟩
  rw [← found]
  exact (getElem?_mergeSort (Int.natCast_nonneg place) (Int.ofNat_lt.mpr inside)).symm

theorem percentile?_rational (nonempty : samples ≠ []) (between : fraction ∈ Set.Icc 0 1) :
    rational.percentile? samples fraction = .ok (some (percentile samples fraction)) := by
  obtain ⟨first, last⟩ := position_inside nonempty between
  have count : samples.mergeSort.length = samples.length := List.length_mergeSort samples
  have sorted_nonempty : samples.mergeSort.isEmpty = false := by
    rw [List.isEmpty_eq_false_iff, ← List.length_pos_iff, count]
    exact List.length_pos_iff.mpr nonempty
  have low := getElem?_mergeSort first ((Int.floor_le_ceil _).trans_lt last)
  have high := getElem?_mergeSort (first.trans (Int.floor_le_ceil _)) last
  unfold percentile?
  rw [sort_rational]
  simp only [rational, bind, Except.bind, pure, Except.pure, sorted_nonempty, count, Nat.cast_zero,
    Nat.cast_one, decide_eq_true between.1, decide_eq_true between.2, Bool.not_true,
    Bool.false_eq_true, if_false, ← position.eq_1, low, high]
  split
  · rename_i whole
    rw [percentile, Sample.interpolated, ← whole, sub_self, zero_mul, add_zero]
  · rfl

/-- With an odd number of samples the middle is a place, with an even number it is halfway between
two of them. -/
theorem median?_rational (nonempty : samples ≠ []) :
    rational.median? samples = .ok (some (percentile samples (1 / 2))) := by
  have count : samples.mergeSort.length = samples.length := List.length_mergeSort samples
  have positive := List.length_pos_iff.mpr nonempty
  have found (place : Nat) (inside : place < samples.length) :
      samples.mergeSort[place]? = some (Sample.placed samples.mergeSort place) :=
    getElem?_mergeSort (Int.natCast_nonneg place) (Int.ofNat_lt.mpr inside)
  unfold median?
  rw [sort_rational]
  simp only [rational, bind, Except.bind, pure, Except.pure, count]
  split
  · rename_i odd
    obtain ⟨middle, total⟩ : ∃ middle, samples.length = 2 * middle + 1 :=
      ⟨samples.length / 2, by omega⟩
    have half : position samples (1 / 2) = (middle : Int) := by
      rw [position, total, Nat.add_sub_cancel]
      push_cast
      ring
    have place : samples.length / 2 = middle := by omega
    rw [percentile, half, Sample.interpolated_intCast, place, found middle (by omega)]
  · rename_i even
    obtain ⟨low, total⟩ : ∃ low, samples.length = 2 * low + 2 := ⟨samples.length / 2 - 1, by omega⟩
    have half : position samples (1 / 2) = (low : Int) + 1 / 2 := by
      rw [position, total, Nat.add_sub_assoc (by decide)]
      push_cast
      ring
    have place : samples.length / 2 = low + 1 := by omega
    rw [place, Nat.add_sub_cancel, found low (by omega), found (low + 1) (by omega), percentile,
      half, Sample.interpolated_halfway]
    rfl

theorem percentile_zero (samples : List ℚ) :
    percentile samples 0 = Sample.placed samples.mergeSort 0 := by
  rw [percentile, position, mul_zero]
  exact_mod_cast Sample.interpolated_intCast 0

theorem percentile_one (samples : List ℚ) :
    percentile samples 1 = Sample.placed samples.mergeSort (samples.length - 1 : Nat) := by
  rw [percentile, position, mul_one]
  exact_mod_cast Sample.interpolated_intCast (samples.length - 1 : Nat)

theorem percentile_zero_le {sample : ℚ} (member : sample ∈ samples) :
    percentile samples 0 ≤ sample := by
  obtain ⟨place, inside, rfl⟩ := exists_place member
  rw [percentile_zero]
  refine Sample.placed_mono (ascending_mergeSort samples) (Int.natCast_nonneg place) ?_
  rw [List.length_mergeSort]
  omega

theorem le_percentile_one {sample : ℚ} (member : sample ∈ samples) :
    sample ≤ percentile samples 1 := by
  obtain ⟨place, inside, rfl⟩ := exists_place member
  rw [percentile_one]
  refine Sample.placed_mono (ascending_mergeSort samples) (by omega) ?_
  rw [List.length_mergeSort]
  omega

theorem extreme_eq {exceeds : ℚ → ℚ → Except Fault Bool} {choose : ℚ → ℚ → ℚ}
    (chooses : ∀ best sample, (do
      if ← exceeds sample best then return sample else return best) = .ok (choose best sample))
    (first : ℚ) (rest : List ℚ) : extreme exceeds (first :: rest) =
        .ok (some (rest.foldl choose first)) := by
  have fold : rest.foldlM (fun best sample => Except.ok (choose best sample)) first =
      (.ok (rest.foldl choose first) : Except Fault ℚ) := List.foldlM_pure
  unfold extreme
  simp only [chooses, fold]
  rfl

theorem min?_eq (samples : List ℚ) : rational.min? samples = .ok samples.min? := by
  cases samples with
  | nil => rfl
  | cons first rest =>
    rw [List.min?_cons']
    refine extreme_eq (fun best sample => ?_) first rest
    rw [min_comm, min_def_lt, apply_ite Except.ok]
    exact if_congr decide_eq_true_iff rfl rfl

theorem max?_eq (samples : List ℚ) : rational.max? samples = .ok samples.max? := by
  cases samples with
  | nil => rfl
  | cons first rest =>
    rw [List.max?_cons']
    refine extreme_eq (fun best sample => ?_) first rest
    rw [max_def_lt, apply_ite Except.ok]
    exact if_congr decide_eq_true_iff rfl rfl

theorem min?_rational (nonempty : samples ≠ []) :
    rational.min? samples = .ok (some (percentile samples 0)) := by
  rw [min?_eq]
  refine congrArg
    Except.ok (List.min?_eq_some_iff.mpr ⟨?_, fun sample member => percentile_zero_le member⟩)
  rw [percentile_zero]
  exact placed_mem (List.length_pos_iff.mpr nonempty)

theorem max?_rational (nonempty : samples ≠ []) :
    rational.max? samples = .ok (some (percentile samples 1)) := by
  rw [max?_eq]
  refine congrArg
    Except.ok (List.max?_eq_some_iff.mpr ⟨?_, fun sample member => le_percentile_one member⟩)
  rw [percentile_one]
  exact placed_mem (Nat.sub_one_lt (List.length_pos_iff.mpr nonempty).ne')

theorem filterAuxM_eq {ε α : Type} {keep : α → Except ε Bool} {rule : α → Bool}
    (keeps : ∀ sample, keep sample = .ok (rule sample)) (samples kept : List α) :
    samples.filterAuxM keep kept = .ok ((samples.filter rule).reverse ++ kept) := by
  induction samples generalizing kept with
  | nil => rfl
  | cons sample rest ih =>
    rw [List.filterAuxM, keeps]
    refine (ih _).trans ?_
    cases holds : rule sample with
    | true =>
      rw [List.filter_cons_of_pos holds, List.reverse_cons, List.append_assoc]
      rfl
    | false =>
      rw [List.filter_cons_of_neg (Bool.eq_false_iff.mp holds)]
      rfl

theorem rank_rational (samples : List ℚ) (value : ℚ) :
    rational.rank samples value = .ok (1 + samples.countP fun sample => value < sample) := by
  have kept : samples.filterAuxM (rational.lt value) [] =
      .ok ((samples.filter fun sample => value < sample).reverse ++ []) :=
    filterAuxM_eq (fun _ => rfl) samples []
  unfold rank List.filterM
  rw [kept, List.countP_eq_length_filter, List.append_nil]
  change Except.ok (1 + (List.reverse (List.reverse _)).length) = _
  rw [List.reverse_reverse]

theorem monotoneOn_percentile (nonempty : samples ≠ []) :
    MonotoneOn (percentile samples) (Set.Icc 0 1) := by
  intro fraction _ fraction' between le
  have inside := (position_inside nonempty between).2
  rw [← List.length_mergeSort samples] at inside
  exact Sample.interpolated_mono (ascending_mergeSort samples)
    (mul_le_mul_of_nonneg_left le (Nat.cast_nonneg _)) inside

structure Percentiles (samples : List ℚ) (percentile : ℚ → ℚ) : Prop where
  returned : ∀ fraction ∈ Set.Icc 0 1, rational.percentile? samples fraction =
    .ok (some (percentile fraction))
  inside : ∀ fraction ∈ Set.Icc 0 1,
    0 ≤ ⌊position samples fraction⌋ ∧ ⌈position samples fraction⌉ < samples.length
  unordered : ∀ others, others.Perm samples →
    rational.percentile? others = rational.percentile? samples
  monotone : MonotoneOn percentile (Set.Icc 0 1)
  between : ∀ fraction ∈ Set.Icc 0 1, percentile fraction ∈ Set.Icc (percentile 0) (percentile 1)
  least : rational.min? samples = .ok (some (percentile 0))
  greatest : rational.max? samples = .ok (some (percentile 1))
  middle : rational.median? samples = .ok (some (percentile (1 / 2)))

structure Ranks (samples : List ℚ) (rank : ℚ → Nat) : Prop where
  returned : ∀ value, rational.rank samples value = .ok (rank value)
  antitone : Antitone rank
  inside : ∀ value ∈ samples, 1 ≤ rank value ∧ rank value ≤ samples.length
  greatest : ∀ greatest, rational.max? samples = .ok (some greatest) → rank greatest = 1

theorem percentiles_rational (nonempty : samples ≠ []) :
    Percentiles samples (percentile samples) := by
  have monotone := monotoneOn_percentile nonempty
  have zero : (0 : ℚ) ∈ Set.Icc 0 1 := ⟨le_rfl, zero_le_one⟩
  have one : (1 : ℚ) ∈ Set.Icc 0 1 := ⟨zero_le_one, le_rfl⟩
  exact {
    returned := fun fraction between => percentile?_rational nonempty between
    inside := fun fraction between => position_inside nonempty between
    unordered := fun others perm => percentile?_perm perm
    monotone
    between :=
      fun fraction between => ⟨monotone zero between between.1, monotone between one between.2⟩
    least := min?_rational nonempty
    greatest := max?_rational nonempty
    middle := median?_rational nonempty }

theorem ranks_rational (nonempty : samples ≠ []) :
    Ranks samples fun value => 1 + samples.countP fun sample => value < sample where
  returned := rank_rational samples
  antitone value value' le := by
    refine Nat.add_le_add_left (List.countP_mono_left fun sample _ less => ?_) 1
    exact decide_eq_true (le.trans_lt (of_decide_eq_true less))
  inside value member := by
    have fewer : samples.countP (fun sample => value < sample) < samples.length :=
      List.countP_lt_length_iff.mpr ⟨value, member, decide_eq_false (lt_irrefl value)⟩
    omega
  greatest greatest found := by
    rw [max?_rational nonempty] at found
    cases found
    have none : samples.countP (fun sample => percentile samples 1 < sample) = 0 :=
      List.countP_eq_zero.mpr fun sample member less =>
        absurd (of_decide_eq_true less) (not_lt.mpr (le_percentile_one member))
    rw [none]

/-- Percentiles of samples interpolate them in their order, and ranks count the greater ones. -/
theorem percentiles_and_ranks (nonempty : samples ≠ []) :
    Percentiles samples (percentile samples) ∧
      Ranks samples fun value => 1 + samples.countP fun sample => value < sample :=
  ⟨percentiles_rational nonempty, ranks_rational nonempty⟩

theorem percentiles_and_ranks_unsorted :
    percentile [3, 1, 2, 5] 0 = 1 ∧ percentile [3, 1, 2, 5] (1 / 4) = 7 / 4 ∧
      percentile [3, 1, 2, 5] (1 / 2) = 5 / 2 ∧ percentile [3, 1, 2, 5] 1 = 5 ∧
      rational.percentile? [5, 3, 2, 1] (1 / 4) = .ok (some (7 / 4)) ∧
      rational.rank [3, 1, 2, 5] 5 = .ok 1 ∧ rational.rank [3, 1, 2, 5] 2 = .ok 3 := by
  obtain ⟨percentiles, ranks⟩ := percentiles_and_ranks (show ([3, 1, 2, 5] : List ℚ) ≠ [] by decide)
  have value {x y : ℚ} (found : rational.percentile? [3, 1, 2, 5] x = .ok (some y))
      (between : x ∈ Set.Icc 0 1) : percentile [3, 1, 2, 5] x = y :=
    Option.some.inj (Except.ok.inj ((percentiles.returned x between).symm.trans found))
  have quarter : rational.percentile? [3, 1, 2, 5] (1 / 4) = .ok (some (7 / 4)) := by decide +kernel
  have same := percentiles.unordered [5, 3, 2, 1] (by decide)
  refine ⟨?_, value quarter ⟨by norm_num, by norm_num⟩, ?_, ?_, (congrFun same _).trans quarter,
    ?_, ?_⟩
  · exact Option.some.inj (Except.ok.inj (percentiles.least.symm.trans (by decide +kernel)))
  · exact Option.some.inj (Except.ok.inj (percentiles.middle.symm.trans (by decide +kernel)))
  · exact Option.some.inj (Except.ok.inj (percentiles.greatest.symm.trans (by decide +kernel)))
  · exact (ranks.returned 5).trans (by decide +kernel)
  · exact (ranks.returned 2).trans (by decide +kernel)

end Scale
end IndicatorFormula
