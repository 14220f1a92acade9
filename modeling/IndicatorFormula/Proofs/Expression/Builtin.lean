import IndicatorFormula.Proofs.Number.Arithmetic
import IndicatorFormula.Proofs.Sample.Sort

/-! What functions return.

Arguments that are values, and so are all items in them, have a value. Functions fail in four ways
only, and only the standard deviation in the way that calls do not settle. -/

set_option autoImplicit false
namespace IndicatorFormula

/-- Holds of values that are no null and hold none. -/
inductive Value.Present : Value → Prop where
  | number (value : Number) : Present (.number value)
  | undefined (mark : Nat) : Present (.undefined mark)
  | list {items : List Value} (each : ∀ item ∈ items, Present item) : Present (.list items)

/-- A computation that may fail, but not because of the spread of samples. -/
abbrev Settles {α : Type} (post : α → Prop) (x : Except Fault α) : Prop :=
  Returns post (· ≠ .spread) x

abbrev Computes {α : Type} (post : α → Prop) (x : Except Fault α) : Prop :=
  Returns post (fun fault => fault = .overflow ∨ fault = .domain) x

theorem Computes.settles {α : Type} {post : α → Prop} {x : Except Fault α}
    (computes : Computes post x) : Settles post x := by
  refine computes.weaken ?_
  rintro _ (rfl | rfl) <;> exact Fault.noConfusion

namespace Value

def IsNumeric (value : Value) : Prop :=
  ∃ x, value.toNumber = .ok x

theorem IsNumeric.present {value : Value} (numeric : value.IsNumeric) : value.Present := by
  obtain ⟨x, found⟩ := numeric
  cases value with
  | number x => exact .number x
  | undefined mark => exact .undefined mark
  | _ => cases found

theorem Present.isNumeric {value : Value} (present : value.Present)
    (single : value.isList = false) : value.IsNumeric := by
  cases present with
  | number x => exact ⟨x, rfl⟩
  | undefined mark => exact ⟨.double .nan, rfl⟩
  | list each => cases single

theorem toNumber_settles (value : Value) : Settles (fun _ => True) value.toNumber := by
  cases value with
  | number x => trivial
  | undefined mark => trivial
  | _ => exact Fault.noConfusion

mutual

theorem lt_settles (x y : Value) : Settles (fun _ => True) (lt x y) := by
  unfold lt
  split
  · exact listLt_settles _ _
  · refine Returns.bind (toNumber_settles _) fun a _ => ?_
    exact Returns.bind (toNumber_settles _) fun b _ => trivial
termination_by sizeOf x

theorem listLt_settles (xs ys : List Value) : Settles (fun _ => True) (listLt xs ys) := by
  unfold listLt
  split
  · trivial
  · trivial
  · split
    · exact listLt_settles _ _
    · exact lt_settles _ _
termination_by sizeOf xs

end

end Value

namespace Number

theorem toDouble_computes (x : Number) : Computes (fun _ => True) x.toDouble := by
  rcases toDouble_cases x with ⟨converted, _⟩ | ⟨value, converted, _⟩
  · rw [converted]
    exact .inl rfl
  · rw [converted]
    trivial

theorem combine_computes (ints : Int → Int → Int) (doubles : Double → Double → Double)
    (x y : Number) : Computes (fun _ => True) (combine ints doubles x y) := by
  unfold combine
  split
  · trivial
  · refine Returns.bind (toDouble_computes x) fun a _ => ?_
    exact Returns.bind (toDouble_computes y) fun b _ => trivial

theorem inRange_computes (x : Double) : Computes (fun _ => True) (inRange x) := by
  cases x with
  | infinite negative => exact .inl rfl
  | _ => trivial

theorem div_computes (x y : Number) : Computes (fun _ => True) (x.div y) := by
  cases divided : x.div y with
  | ok value => trivial
  | error fault =>
    exact .inl (div_eq_error_iff.mp divided).1

theorem toInt_computes (rule : Double → Option Int) (x : Number) :
    Computes (fun _ => True) (x.toInt rule) := by
  cases x with
  | double value =>
    unfold toInt
    dsimp only
    split
    · trivial
    · exact .inr rfl
  | _ => trivial

theorem roundAt_computes (places : Int) (x : Number) :
    Computes (fun _ => True) (x.roundAt places) := by
  cases x with
  | double value =>
    unfold roundAt
    dsimp only
    split
    · exact .inl rfl
    · trivial
  | _ => trivial

theorem sqrt_computes (x : Number) : Computes (fun _ => True) x.sqrt := by
  refine Returns.bind (toDouble_computes x) fun a _ => ?_
  split
  · exact .inr rfl
  · trivial

theorem exp_computes (x : Number) : Computes (fun _ => True) x.exp := by
  refine Returns.bind (toDouble_computes x) fun a _ => ?_
  split
  · exact .inl rfl
  · trivial

theorem logarithm_computes (rule : Double → Double) (x : Number) :
    Computes (fun _ => True) (x.logarithm rule) := by
  unfold logarithm
  split
  · split
    · exact .inr rfl
    · trivial
  · split
    · exact .inr rfl
    · exact Returns.bind (toDouble_computes _) fun a _ => trivial

end Number

namespace Sample

theorem exactQuotient_computes (samples : List Number) (numerator : Int) (denominator : Nat) :
    Computes (fun _ => True) (exactQuotient samples numerator denominator) := by
  unfold exactQuotient
  split
  · trivial
  · exact Returns.bind (Number.inRange_computes _) fun a _ => trivial

theorem mean_computes (samples : List Number) : Computes (fun _ => True) (mean samples) := by
  unfold mean
  split
  · trivial
  · exact exactQuotient_computes _ _ _

theorem variance_computes (samples : List Number) :
    Computes (fun _ => True) (variance samples) := by
  unfold variance
  split
  · trivial
  · exact exactQuotient_computes _ _ _

theorem unbounded?_isSome_iff {samples : List Number} :
    (unbounded? samples).isSome ↔ ∃ value, .double value ∈ samples ∧ value.isFinite = false := by
  unfold unbounded?
  extract_lets others
  have member : ∀ value, value ∈ others ↔ .double value ∈ samples ∧ value.isFinite = false := by
    intro value
    rw [List.mem_filterMap]
    constructor
    · rintro ⟨x, inside, kept⟩
      cases x with
      | double other =>
        dsimp only at kept
        split at kept
        · cases kept
        · rename_i infinite
          cases kept
          exact ⟨inside, by simpa using infinite⟩
      | _ => cases kept
    · rintro ⟨inside, infinite⟩
      exact ⟨_, inside, by simp [infinite]⟩
  rw [← exists_congr member]
  cases others with
  | nil => simp
  | cons value rest => simp

theorem deviation_eq_spread_iff {samples : List Number} :
    deviation samples = .error .spread ↔
      ∃ value, .double value ∈ samples ∧ value.isFinite = false := by
  rw [← unbounded?_isSome_iff]
  unfold deviation
  split
  · rename_i sum found
    simp [found]
  · rename_i none
    rw [none]
    refine iff_of_false (fun failed => ?_) Bool.false_ne_true
    change (do
        let root := Double.sqrtRatio (varianceRatio samples).1.toNat (varianceRatio samples).2
        return Number.double (← Number.inRange root)) =
      Except.error Fault.spread at failed
    have settles := (Number.inRange_computes
      (Double.sqrtRatio (varianceRatio samples).1.toNat (varianceRatio samples).2)).settles
    rw [Value.bind_pure_eq_error_iff.mp failed] at settles
    exact settles rfl

end Sample

namespace Scale

variable {ε α : Type} (scale : Scale (Except ε) α) {kind : α → Prop} {failure : ε → Prop}

theorem extreme_returns {exceeds : α → α → Except ε Bool}
    (compares : Sample.Compares kind failure exceeds) {samples : List α}
    (each : ∀ sample ∈ samples, kind sample) :
    Returns (fun found => ∀ sample ∈ found, kind sample) failure (extreme exceeds samples) := by
  cases samples with
  | nil => exact fun sample found => nomatch found
  | cons first rest =>
    obtain ⟨own, others⟩ := List.forall_mem_cons.mp each
    refine Returns.bind (Returns.foldlM rest first own ?_) fun best holds => ?_
    · intro best holds sample member
      refine Returns.bind (compares sample best (others sample member) holds) fun further _ => ?_
      split
      · exact others sample member
      · exact holds
    · intro sample found
      cases found
      exact holds

theorem median?_returns (compares : Sample.Compares kind failure scale.lt)
    (adds : ∀ x y, kind x → kind y → Returns kind failure (scale.add x y))
    (halves : ∀ x, kind x → Returns kind failure (scale.half x)) {samples : List α}
    (each : ∀ sample ∈ samples, kind sample) :
    Returns (fun found => ∀ sample ∈ found, kind sample) failure (scale.median? samples) := by
  refine Returns.bind (Sample.sort_perm compares each) fun sorted perm => ?_
  have kinds {place : Nat} : ∀ sample ∈ sorted[place]?, kind sample := fun sample found =>
    each sample (perm.mem_iff.mp (List.mem_of_getElem? found))
  dsimp only
  split
  · exact kinds
  split
  · rename_i low high lowFound highFound
    refine Returns.bind (adds low high (kinds low lowFound) (kinds high highFound))
      fun sum holds => ?_
    refine Returns.bind (halves sum holds) fun half holds => ?_
    rintro _ ⟨⟩
    exact holds
  · exact fun _ found => nomatch found

end Scale

namespace Builtin

theorem compares_settles : Sample.Compares Value.Present (· ≠ .spread) scale.lt :=
  fun x y _ _ => Value.lt_settles x y

theorem arithmetic_settles {operation : Number → Number → Except Fault Number}
    (settles : ∀ x y, Computes (fun _ => True) (operation x y)) (x y : Value) :
    Settles Value.IsNumeric (Value.arithmetic operation x y) := by
  refine Returns.bind (Value.toNumber_settles x) fun a _ => ?_
  refine Returns.bind (Value.toNumber_settles y) fun b _ => ?_
  exact Returns.bind (settles a b).settles fun c _ => ⟨c, rfl⟩

theorem add_settles (x y : Value) : Settles Value.IsNumeric (x.add y) :=
  arithmetic_settles (Number.combine_computes _ _) x y

theorem sub_settles (x y : Value) : Settles Value.IsNumeric (x.sub y) :=
  arithmetic_settles (Number.combine_computes _ _) x y

theorem mul_settles (x y : Value) : Settles Value.IsNumeric (x.mul y) :=
  arithmetic_settles (Number.combine_computes _ _) x y

theorem div_settles (x y : Value) : Settles Value.IsNumeric (x.div y) := by
  refine Returns.bind (Value.toNumber_settles x) fun a _ => ?_
  refine Returns.bind (Value.toNumber_settles y) fun b _ => ?_
  refine Returns.bind (Number.div_computes a b).settles fun quotient _ => ?_
  split
  · exact ⟨_, rfl⟩
  · exact ⟨quotient, rfl⟩

theorem present_samples {arguments : List Value} (each : ∀ argument ∈ arguments, argument.Present) :
    ∀ sample ∈ samples arguments, sample.Present := by
  intro sample member
  obtain ⟨argument, inside, found⟩ := List.mem_flatMap.mp member
  have present := each argument inside
  cases present with
  | number x =>
    rw [List.mem_singleton.mp found]
    exact .number x
  | undefined mark =>
    rw [List.mem_singleton.mp found]
    exact .undefined mark
  | list items => exact items sample found

theorem present_orZero {result : Option Value} (each : ∀ value ∈ result, value.Present) :
    (orZero result).Present := by
  cases result with
  | none => exact .number _
  | some value => exact each value rfl

theorem present_getElem? {values : List Value} (each : ∀ value ∈ values, value.Present)
    {place : Nat} : ∀ value ∈ values[place]?, value.Present :=
  fun value found => each value (List.mem_of_getElem? found)

theorem logarithm_settles (rule : Double → Double) (x : Value) :
    Settles (fun _ => True) (logarithm rule x) :=
  Returns.bind (Value.toNumber_settles x) fun a _ => (Number.logarithm_computes rule a).settles

theorem percentile?_settles {values : List Value} (each : ∀ value ∈ values, value.Present)
    (fraction : Value) :
    Settles (fun found => ∀ value ∈ found, value.Present) (scale.percentile? values fraction) := by
  have le_settles : ∀ x y, Settles (fun _ => True) (scale.le x y) := fun x y =>
    Returns.bind (Value.toNumber_settles x)
      fun a _ => Returns.bind (Value.toNumber_settles y) fun b _ => trivial
  have floor_settles : ∀ x, Settles (fun _ => True) (scale.floor x) := fun x =>
    Returns.bind (Value.toNumber_settles x) fun a _ => (Number.toInt_computes _ a).settles
  have ceil_settles : ∀ x, Settles (fun _ => True) (scale.ceil x) := fun x =>
    Returns.bind (Value.toNumber_settles x) fun a _ => (Number.toInt_computes _ a).settles
  refine Returns.bind (Sample.sort_perm compares_settles each) fun sorted perm => ?_
  have present : ∀ value ∈ sorted, value.Present :=
    fun value member => each value (perm.mem_iff.mp member)
  split
  · exact fun _ found => nomatch found
  refine Returns.bind (le_settles _ _) fun above _ => ?_
  split
  · exact fun _ found => nomatch found
  refine Returns.bind (le_settles _ _) fun below _ => ?_
  split
  · exact fun _ found => nomatch found
  refine Returns.bind (mul_settles _ _) fun position _ => ?_
  refine Returns.bind (floor_settles _) fun lower _ => ?_
  refine Returns.bind (ceil_settles _) fun upper _ => ?_
  split
  · rename_i low high lowFound highFound
    split
    · rintro _ ⟨⟩
      exact present_getElem? present _ lowFound
    refine Returns.bind (sub_settles high low) fun width _ => ?_
    refine Returns.bind (sub_settles position _) fun part _ => ?_
    refine Returns.bind (mul_settles width part) fun step _ => ?_
    refine Returns.bind (add_settles low step) fun result numeric => ?_
    rintro _ ⟨⟩
    exact numeric.present
  · exact fun _ found => nomatch found

theorem filterAuxM_settles {holds : Value → Except Fault Bool}
    (settles : ∀ x, Settles (fun _ => True) (holds x)) (values kept : List Value) :
    Settles (fun _ => True) (List.filterAuxM holds values kept) := by
  induction values generalizing kept with
  | nil => trivial
  | cons value values ih => exact Returns.bind (settles value) fun _ _ => ih _

theorem rank_settles (values : List Value) (value : Value) :
    Settles (fun _ => True) (scale.rank values value) := by
  have greater : Settles (fun _ => True) (values.filterM fun sample => scale.lt value sample) :=
    Returns.bind (filterAuxM_settles (fun sample => Value.lt_settles value sample) values [])
      fun _ _ => trivial
  exact Returns.bind greater fun _ _ => trivial

theorem numbers_settles (values : List Value) :
    Settles (fun _ => True) (values.mapM Value.toNumber) :=
  (Returns.mapM values fun value _ => Value.toNumber_settles value).mono fun _ _ => trivial

theorem spread_settles {measure : List Number → Except Fault Number}
    (settles : ∀ numbers, Settles (fun _ => True) (measure numbers)) (values : List Value) :
    Settles Value.Present (apply.spread measure values) := by
  unfold apply.spread
  split
  · exact .number _
  · refine Returns.bind (numbers_settles values) fun numbers _ => ?_
    exact Returns.bind (settles numbers) fun result _ => .number result

/-- Every function other than the standard deviation is settled, and what it returns is present. -/
theorem apply_settles {function : Builtin} (regular : function ≠ .stddev) {arguments : List Value}
    (each : ∀ argument ∈ arguments, argument.Present) :
    Settles Value.Present (function.apply arguments) := by
  have present := present_samples each
  unfold apply
  split
  · rename_i condition yes no
    split
    · exact each yes (by simp)
    · exact each no (by simp)
  · split
    · exact .number _
    · exact .number _
  · exact Returns.bind (Value.toNumber_settles _) fun x _ => .number _
  · refine Returns.bind (Value.toNumber_settles _) fun x _ => ?_
    exact Returns.bind (Number.toInt_computes _ x).settles fun n _ => .number _
  · refine Returns.bind (Value.toNumber_settles _) fun x _ => ?_
    exact Returns.bind (Number.toInt_computes _ x).settles fun n _ => .number _
  · refine Returns.bind (Value.toNumber_settles _) fun x _ => ?_
    exact Returns.bind (Number.roundAt_computes _ x).settles fun n _ => .number _
  · refine Returns.bind (Value.toNumber_settles _) fun digits _ => ?_
    refine Returns.bind (Number.toInt_computes _ digits).settles fun places _ => ?_
    refine Returns.bind (Value.toNumber_settles _) fun x _ => ?_
    exact Returns.bind (Number.roundAt_computes _ x).settles fun n _ => .number _
  · refine Returns.bind (Value.toNumber_settles _) fun x _ => ?_
    exact Returns.bind (Number.sqrt_computes x).settles fun n _ => .number _
  · refine Returns.bind (Value.toNumber_settles _) fun x _ => ?_
    exact Returns.bind (Number.exp_computes x).settles fun n _ => .number _
  · exact Returns.bind (logarithm_settles _ _) fun n _ => .number _
  · refine Returns.bind (logarithm_settles _ _) fun numerator _ => ?_
    refine Returns.bind (logarithm_settles _ _) fun denominator _ => ?_
    split
    · exact fun impossible => nomatch impossible
    · exact .number _
  · exact Returns.bind (logarithm_settles _ _) fun n _ => .number _
  · refine Returns.bind (numbers_settles _) fun numbers _ => ?_
    split
    · exact .number _
    · exact Returns.bind (Sample.mean_computes numbers).settles fun n _ => .number _
  · exact .number _
  · exact Returns.bind
      (Scale.extreme_returns (fun x y first second => compares_settles y x second first) present)
      fun found each => present_orZero each
  · refine Returns.bind (scale.median?_returns compares_settles ?_ ?_ present)
      fun found each => present_orZero each
    · exact fun x y _ _ => (add_settles x y).mono fun _ numeric => numeric.present
    · exact fun x _ => (div_settles x (.int 2)).mono fun _ numeric => numeric.present
  · exact Returns.bind (Scale.extreme_returns compares_settles present)
      fun found each => present_orZero each
  · rename_i values fraction
    have single : ∀ sample ∈ samples [values], sample.Present := present_samples fun value member =>
      each value (List.mem_cons.mpr (.inl (List.mem_singleton.mp member)))
    refine Returns.bind (percentile?_settles single fraction) fun found each => ?_
    cases found with
    | none => exact .undefined 0
    | some value => exact each value rfl
  · exact Returns.bind (rank_settles _ _) fun n _ => .number _
  · exact absurd rfl regular
  · refine Returns.foldlM _ _ (.number _) fun sum _ sample _ => ?_
    exact (add_settles sum sample).mono fun _ numeric => numeric.present
  · exact spread_settles (fun numbers => (Sample.variance_computes numbers).settles) _
  · exact fun impossible => nomatch impossible

theorem apply_stddev_present (arguments : List Value) :
    Returns Value.Present (fun _ => True) (apply .stddev arguments) := by
  change Returns _ _ (apply.spread Sample.deviation (samples arguments))
  unfold apply.spread
  split
  · exact .number _
  · refine Returns.bind (Returns.any _) fun numbers _ => ?_
    exact Returns.bind (Returns.any _) fun result _ => .number result

/-- A function is not settled if it is the standard deviation of two samples or more of which some
are not finite. -/
theorem apply_eq_spread_iff {function : Builtin} {arguments : List Value}
    (each : ∀ argument ∈ arguments, argument.Present) :
    function.apply arguments = .error .spread ↔
      function = .stddev ∧ 2 ≤ (samples arguments).length ∧
        ∃ numbers, (samples arguments).mapM Value.toNumber = .ok numbers ∧
          ∃ value, .double value ∈ numbers ∧ value.isFinite = false := by
  by_cases deviation : function = .stddev
  · subst deviation
    change apply.spread Sample.deviation (samples arguments) = _ ↔ _
    unfold apply.spread
    split
    · rename_i few
      exact iff_of_false (fun failed => nomatch failed)
        fun ⟨_, many, _⟩ => absurd few (Nat.not_lt.mpr many)
    · rename_i many
      rw [bind_eq_error_iff]
      constructor
      · rintro (failed | ⟨numbers, found, failed⟩)
        · exact absurd rfl ((numbers_settles (samples arguments)).of_error failed)
        · exact ⟨rfl, Nat.not_lt.mp many, numbers, found,
            Sample.deviation_eq_spread_iff.mp (Value.bind_pure_eq_error_iff.mp failed)⟩
      · rintro ⟨-, -, numbers, found, infinite⟩
        exact .inr ⟨numbers, found,
          Value.bind_pure_eq_error_iff.mpr (Sample.deviation_eq_spread_iff.mpr infinite)⟩
  · refine iff_of_false (fun failed => ?_) fun ⟨same, _⟩ => deviation same
    exact (apply_settles deviation each).of_error failed rfl

theorem apply_present (function : Builtin) {arguments : List Value}
    (each : ∀ argument ∈ arguments, argument.Present) :
    Returns Value.Present (fun _ => True) (function.apply arguments) := by
  by_cases deviation : function = .stddev
  · subst deviation
    exact apply_stddev_present arguments
  · exact (apply_settles deviation each).forget

end Builtin
end IndicatorFormula
