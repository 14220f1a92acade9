import IndicatorFormula.Proofs.Expression.Faults
import IndicatorFormula.Proofs.Expression.Exchange

/-! Expressions of a definite shape.

Whether an expression is well-formed may depend on its operands: a condition chooses between a
number and a list, or one argument has no logarithm, so that nobody notices that the other one is a
list. Where neither can happen the shapes of all values are known from the tree. Such an expression
stays well-formed whatever operands are exchanged in it. -/

set_option autoImplicit false
namespace IndicatorFormula

inductive Shape where
  | single
  | list
  deriving DecidableEq, Repr

def Value.shape : Value → Shape
  | .list _ => .list
  | _ => .single

theorem Value.isList_eq_false_iff {value : Value} :
    value.isList = false ↔ value.shape = .single := by
  cases value <;> simp [isList, shape]

theorem Value.IsNumeric.toNumber {value : Value} (numeric : value.IsNumeric) :
    Computes (fun _ => True) value.toNumber := by
  obtain ⟨x, found⟩ := numeric
  rw [found]
  trivial

theorem Value.IsNumeric.single {value : Value} (numeric : value.IsNumeric) :
    value.shape = .single := by
  obtain ⟨x, found⟩ := numeric
  cases value with
  | list items => cases found
  | _ => rfl

namespace Builtin

def shape? : Builtin → List Shape → Option Shape
  | .choose, [_, yes, no] => if yes = no then some yes else none
  | .isNull, _ => some .single
  | _, shapes => if ∀ shape ∈ shapes, shape = .single then some .single else none

def takes (function : Builtin) (count : Nat) : Bool :=
  match function with
  | .choose => count == 3
  | .round | .log => count == 1 || count == 2
  | _ => count == 1

end Builtin

namespace Expr

mutual

/-- The shape of the values of an expression, if no operand makes a difference. -/
def shape? : Expr → Option Shape
  | .number _ | .boolean _ | .variable .. => some .single
  | .list items => do
    let _ ← shapes? items
    return .list
  | .unary _ _ operand => do
    let _ ← shape? operand
    return .single
  | .binary _ _ left right => do
    let _ ← shape? left
    let _ ← shape? right
    return .single
  | .call name _ arguments =>
    -- What stands in the arguments of an aggregate function is replaced as a whole.
    if IsSampled name then some .single
    else do
      let shapes ← shapes? arguments
      let function ← Builtin.ofName? Builtin.all name
      function.shape? shapes

def shapes? : List Expr → Option (List Shape)
  | [] => some []
  | expression :: rest => do
    let shape ← shape? expression
    return shape :: (← shapes? rest)

end

mutual

theorem shape?_unplaced : (expression : Expr) → expression.unplaced.shape? = expression.shape?
  | .number _ | .boolean _ | .variable .. => rfl
  | .list items => by simp only [unplaced, shape?, shapes?_unplaced items]
  | .unary _ _ operand => by simp only [unplaced, shape?, shape?_unplaced operand]
  | .binary _ _ left right =>
    by simp only [unplaced, shape?, shape?_unplaced left, shape?_unplaced right]
  | .call name _ arguments => by simp only [unplaced, shape?, shapes?_unplaced arguments]

theorem shapes?_unplaced :
    (expressions : List Expr) → shapes? (unplacedAll expressions) = shapes? expressions
  | [] => rfl
  | expression :: rest =>
    by simp only [unplacedAll, shapes?, shape?_unplaced expression, shapes?_unplaced rest]

end

end Expr

abbrev Evaluates {α : Type} (post : α → Prop) (x : Except Breakdown α) : Prop :=
  Returns post (fun breakdown => ∃ fault, breakdown = .fault fault) x

def Value.HasShape (shape : Shape) (value : Value) : Prop :=
  value.Present ∧ value.shape = shape

namespace Builtin

variable {function : Builtin} {arguments : List Value}

theorem takes_of_apply (scalar : function ∈ scalars)
    (meant : function.apply arguments ≠ .error .mismatch) :
    function.takes arguments.length = true := by
  -- No function takes more than three arguments, so all longer lists are one case.
  have refused (takes : function.takes arguments.length = false) :
      function.apply arguments = .error .mismatch := by
    rcases arguments with _ | ⟨first, _ | ⟨second, _ | ⟨third, _ | ⟨fourth, rest⟩⟩⟩⟩ <;>
      cases function <;> first
        | rfl
        | exact absurd scalar (by decide)
        | cases takes
  by_contra takes
  exact meant (refused (Bool.eq_false_iff.mpr takes))

theorem apply_single (scalar : function ∈ scalars) (regular : function ≠ .choose)
    (takes : function.takes arguments.length = true)
    (numeric : ∀ argument ∈ arguments, argument.IsNumeric) :
    Computes (fun value => value.shape = .single) (function.apply arguments) := by
  have logarithm_computes (rule : Double → Double) {value : Value} (numeric : value.IsNumeric) :
      Computes (fun _ => True) (logarithm rule value) :=
    Returns.bind numeric.toNumber fun x _ => Number.logarithm_computes rule x
  -- Functions are told apart by how many arguments they have, then by name.
  rcases arguments with _ | ⟨first, _ | ⟨second, rest⟩⟩
  · cases function <;> cases takes
  · have numeric := numeric first List.mem_cons_self
    cases function with
    | choose => exact absurd rfl regular
    | isNull =>
      simp only [apply]
      split <;> rfl
    | abs => exact Returns.bind numeric.toNumber fun x _ => rfl
    | ceil | floor =>
      refine Returns.bind numeric.toNumber fun x _ => ?_
      exact Returns.bind (Number.toInt_computes _ x) fun _ _ => rfl
    | round =>
      refine Returns.bind numeric.toNumber fun x _ => ?_
      exact Returns.bind (Number.roundAt_computes _ x) fun _ _ => rfl
    | sqrt =>
      refine Returns.bind numeric.toNumber fun x _ => ?_
      exact Returns.bind (Number.sqrt_computes x) fun _ _ => rfl
    | exp =>
      refine Returns.bind numeric.toNumber fun x _ => ?_
      exact Returns.bind (Number.exp_computes x) fun _ _ => rfl
    | log | log10 => exact Returns.bind (logarithm_computes _ numeric) fun _ _ => rfl
    | _ => exact absurd scalar (by decide)
  · have first := numeric first List.mem_cons_self
    have second := numeric second (List.mem_cons_of_mem _ List.mem_cons_self)
    cases rest with
    | cons third rest =>
      cases function with
      | choose => exact absurd rfl regular
      | round | log => cases rest <;> cases takes
      | _ => cases takes
    | nil =>
      cases function with
      | round =>
        refine Returns.bind second.toNumber fun digits _ => ?_
        refine Returns.bind (Number.toInt_computes _ digits) fun places _ => ?_
        refine Returns.bind first.toNumber fun x _ => ?_
        exact Returns.bind (Number.roundAt_computes _ x) fun _ _ => rfl
      | log =>
        refine Returns.bind (logarithm_computes _ first) fun numerator _ => ?_
        refine Returns.bind (logarithm_computes _ second) fun denominator _ => ?_
        dsimp only
        split
        · exact .inr rfl
        · rfl
      | _ => cases takes

theorem arithmetic_numeric {operation : Number → Number → Except Fault Number}
    (computes : ∀ x y, Computes (fun _ => True) (operation x y)) {x y : Value} (first : x.IsNumeric)
    (second : y.IsNumeric) : Computes Value.IsNumeric (Value.arithmetic operation x y) := by
  refine Returns.bind first.toNumber fun a _ => Returns.bind second.toNumber fun b _ => ?_
  exact Returns.bind (computes a b) fun c _ => ⟨c, rfl⟩

theorem div_numeric {x y : Value} (first : x.IsNumeric) (second : y.IsNumeric) :
    Computes Value.IsNumeric (x.div y) := by
  refine Returns.bind first.toNumber fun a _ => Returns.bind second.toNumber fun b _ => ?_
  refine Returns.bind (Number.div_computes a b) fun quotient _ => ?_
  split
  · exact ⟨_, rfl⟩
  · exact ⟨quotient, rfl⟩

theorem compares_numeric :
    Sample.Compares Value.IsNumeric (fun fault => fault = .overflow ∨ fault = .domain)
      scale.lt := by
  intro x y first second
  change Computes (fun _ => True) (Value.lt x y)
  unfold Value.lt
  split
  · obtain ⟨_, impossible⟩ := first
    cases impossible
  · exact Returns.bind first.toNumber fun a _ => Returns.bind second.toNumber fun b _ => trivial

theorem orZero_single {result : Option Value} (numeric : ∀ value ∈ result, value.IsNumeric) :
    (orZero result).shape = .single := by
  cases result with
  | none => rfl
  | some value => exact (numeric value rfl).single

theorem spread_single {failure : Fault → Prop} {measure : List Number → Except Fault Number}
    {values : List Value} (measures : ∀ numbers, Returns (fun _ => True) failure (measure numbers))
    (numbers : Returns (fun _ => True) failure (values.mapM Value.toNumber)) :
    Returns (fun value => value.shape = .single) failure (apply.spread measure values) := by
  unfold apply.spread
  split
  · rfl
  · exact Returns.bind numbers fun numbers _ => Returns.bind (measures numbers) fun _ _ => rfl

theorem deviation_returns (numbers : List Number) :
    Returns (fun _ => True) (· ≠ .mismatch) (Sample.deviation numbers) := by
  unfold Sample.deviation
  split
  · exact Fault.noConfusion
  · refine Returns.bind ((Number.inRange_computes _).weaken ?_) fun _ _ => trivial
    rintro _ (rfl | rfl) <;> exact Fault.noConfusion

theorem apply_samples (aggregate : function ∈ aggregates)
    (alone : function ≠ .percentile ∧ function ≠ .rank) {items : List Value}
    (numeric : ∀ item ∈ items, item.IsNumeric) :
    Returns (fun value => value.shape = .single) (· ≠ .mismatch)
      (function.apply [.list items]) := by
  -- A failure of the numbers themselves is no mismatch of arguments.
  have weaken {α : Type} {post : α → Prop} {x : Except Fault α} (computes : Computes post x) :
      Returns post (· ≠ .mismatch) x :=
    computes.weaken fun fault reason same => by rcases reason with rfl | rfl <;> cases same
  have numeric : ∀ sample ∈ samples [.list items], sample.IsNumeric := fun sample member => by
    rw [samples, List.flatMap_singleton] at member
    exact numeric sample member
  have numbers : Computes (fun _ => True) ((samples [.list items]).mapM Value.toNumber) :=
    (Returns.mapM _ fun item member => (numeric item member).toNumber).mono fun _ _ => trivial
  cases function with
  | count => rfl
  | avg =>
    refine weaken (Returns.bind numbers fun values _ => ?_)
    split
    · rfl
    · exact Returns.bind (Sample.mean_computes values) fun _ _ => rfl
  | max =>
    refine weaken
      (Returns.bind (Scale.extreme_returns ?_ numeric) fun found each => orZero_single each)
    exact fun x y first second => compares_numeric y x second first
  | min =>
    exact weaken (Returns.bind (Scale.extreme_returns compares_numeric numeric)
      fun found each => orZero_single each)
  | median =>
    refine weaken (Returns.bind (scale.median?_returns compares_numeric ?_ ?_ numeric)
      fun found each => orZero_single each)
    · exact fun x y first second => arithmetic_numeric (Number.combine_computes _ _) first second
    · exact fun x holds => div_numeric holds ⟨_, rfl⟩
  | sum =>
    have adds : Computes Value.IsNumeric ((samples [.list items]).foldlM Value.add (.int 0)) :=
      Returns.foldlM _ _ ⟨_, rfl⟩ fun sum holds item member =>
        arithmetic_numeric (Number.combine_computes _ _) holds (numeric item member)
    exact weaken (adds.mono fun value holds => holds.single)
  | variance => exact weaken (spread_single Sample.variance_computes numbers)
  | stddev => exact spread_single deviation_returns (weaken numbers)
  | percentile => exact absurd rfl alone.1
  | rank => exact absurd rfl alone.2
  | _ => exact absurd aggregate (by decide)

end Builtin

namespace Expr

theorem applyFunction_evaluates {function : Builtin} {name : Text} {arguments : List Value}
    (present : ∀ argument ∈ arguments, argument.Present)
    (applied : Returns (fun value => value.shape = .single) (· ≠ .mismatch)
      (function.apply arguments)) :
    Evaluates (Value.HasShape .single) (applyFunction function name 0 arguments) := by
  have both := applied.both (function.apply_present present)
  unfold applyFunction
  generalize function.apply arguments = result at both
  rcases result with (_ | _ | _ | _) | value
  · exact absurd rfl both
  · exact ⟨.undefined 0, rfl⟩
  · exact ⟨.undefined 0, rfl⟩
  · exact ⟨_, rfl⟩
  · exact ⟨both.2, both.1⟩

theorem list_of_applyFunction {function : Builtin} {name : Text} {shapes : List Shape}
    (shaped : function.shape? shapes = some .list) {arguments : List Value}
    (lists : List.Forall₂ (fun shape (argument : Value) => shape = .list → argument.shape = .list)
      shapes arguments) {value : Value}
    (applied : applyFunction function name 0 arguments = .ok value) : value.shape = .list := by
  unfold Builtin.shape? at shaped
  split at shaped
  · split at shaped
    · rename_i same
      cases shaped
      cases same
      obtain _ | ⟨-, _ | ⟨yes, _ | ⟨no, _ | _⟩⟩⟩ := lists
      cases applied
      split
      · exact yes rfl
      · exact no rfl
    · cases shaped
  · cases shaped
  · split at shaped <;> cases shaped

theorem applyFunction_shape {function : Builtin} (scalar : function ∈ Builtin.scalars) {name : Text}
    {arguments : List Value} (takes : function.takes arguments.length = true)
    (present : ∀ argument ∈ arguments, argument.Present) {shape : Shape}
    (shaped : function.shape? (arguments.map Value.shape) = some shape) :
    Evaluates (Value.HasShape shape) (applyFunction function name 0 arguments) := by
  -- A choice hands on one of its arguments, whatever that is. All other functions compute a single
  -- value.
  by_cases chooses : function = .choose
  · subst chooses
    match arguments, takes with
    | [condition, yes, no], _ =>
      simp only [List.map_cons, List.map_nil, Builtin.shape?] at shaped
      split at shaped
      · rename_i same
        cases shaped
        simp only [applyFunction, Builtin.apply]
        split
        · exact ⟨present yes (by simp), rfl⟩
        · exact ⟨present no (by simp), same.symm⟩
      · cases shaped
  by_cases isTest : function = .isNull
  · subst isTest
    obtain ⟨value, rfl⟩ := List.length_eq_one_iff.mp (by simpa [Builtin.takes] using takes)
    cases shaped
    refine applyFunction_evaluates present ?_
    simp only [Builtin.apply]
    split <;> rfl
  · unfold Builtin.shape? at shaped
    split at shaped
    · exact absurd rfl chooses
    · exact absurd rfl isTest
    · split at shaped
      · rename_i single
        cases shaped
        have numeric : ∀ argument ∈ arguments, argument.IsNumeric := fun argument member =>
          (present argument member).isNumeric
            (Value.isList_eq_false_iff.mpr (single _ (List.mem_map_of_mem member)))
        refine applyFunction_evaluates present
          ((Builtin.apply_single scalar chooses takes numeric).weaken ?_)
        rintro _ (rfl | rfl) <;> exact Fault.noConfusion
      · cases shaped

theorem IsSigned.eval {tree : Expr} (signed : tree.IsSigned) (environment : Environment) :
    ∃ x, tree.eval environment = .ok (.number x) := by
  induction signed with
  | number value => exact ⟨_, rfl⟩
  | @minus operand _ ih =>
    obtain ⟨x, evaluated⟩ := ih
    refine ⟨x.neg, ?_⟩
    simp only [Expr.eval, evaluated]
    rfl

theorem evalAll_of_signed {samples : List Expr} (signed : ∀ sample ∈ samples, sample.IsSigned)
    (environment : Environment) :
    ∃ numbers : List Number, evalAll environment samples = .ok (numbers.map .number) := by
  induction samples with
  | nil => exact ⟨[], rfl⟩
  | cons sample samples ih =>
    obtain ⟨first, rest⟩ := List.forall_mem_cons.mp signed
    obtain ⟨x, evaluated⟩ := first.eval environment
    obtain ⟨numbers, evaluated'⟩ := ih rest
    refine ⟨x :: numbers, ?_⟩
    simp only [evalAll, evaluated, evaluated']
    rfl

theorem ofName?_of_mem {functions : List Builtin} {function : Builtin}
    (member : function ∈ functions) : Builtin.ofName? functions function.name = some function := by
  cases found : Builtin.ofName? functions function.name with
  | none =>
    have other := List.find?_eq_none.mp found function member
    simp at other
  | some other =>
    have same : other.name = function.name := by simpa using List.find?_some found
    have spelling : Text.Spelling function.name other.name := by
      rw [same]
      exact Text.spelling_self function
    exact congrArg some ((Text.spelling_self other).unique spelling)

theorem eval_of_signed {name : Text} (takes : TakesSamples name) {samples : List Expr}
    (signed : ∀ sample ∈ samples, sample.IsSigned) :
    Evaluates (Value.HasShape .single) (Expr.eval {} (.call name 0 [.list samples])) := by
  obtain ⟨function, aggregate, rfl, alone⟩ := takes
  obtain ⟨numbers, evaluated⟩ := evalAll_of_signed signed {}
  have numeric : ∀ value ∈ numbers.map Value.number, value.IsNumeric ∧ value.Present := by
    intro value member
    obtain ⟨x, -, rfl⟩ := List.mem_map.mp member
    exact ⟨⟨x, rfl⟩, .number x⟩
  have present : ∀ argument ∈ [Value.list (numbers.map .number)], argument.Present := by
    intro argument member
    rw [List.mem_singleton.mp member]
    exact .list fun value member => (numeric value member).2
  have applied := Builtin.apply_samples aggregate alone fun value member => (numeric value member).1
  simp only [eval, evalAll, evaluated, ofName?_of_mem (mem_all function)]
  exact applyFunction_evaluates present applied

variable {functions : List Builtin}

theorem ofName?_all {name : Text} {function : Builtin}
    (found : Builtin.ofName? functions name = some function) :
    function.name = name ∧ Builtin.ofName? Builtin.all name = some function := by
  have same : function.name = name := by simpa using List.find?_some found
  subst same
  exact ⟨rfl, ofName?_of_mem (mem_all function)⟩

theorem isList_of_hasShape {shape : Shape} {before after : Value}
    (list : shape = .list → before.shape = .list) (single : before.isList = false)
    (holds : after.HasShape shape) : after.isList = false := by
  rw [Value.isList_eq_false_iff] at single ⊢
  cases shape with
  | single => exact holds.2
  | list => exact nomatch single.symm.trans (list rfl)

theorem applyUnary_keeps {operator : UnaryOperator} {shape : Shape} {before result operand : Value}
    (list : shape = .list → before.shape = .list)
    (applied : applyUnary operator before = .ok result) (holds : operand.HasShape shape) :
    Evaluates (Value.HasShape .single) (applyUnary operator operand) := by
  cases operator with
  | not => exact ⟨.number _, rfl⟩
  | minus | plus =>
    simp only [applyUnary] at applied
    split at applied
    · cases applied
    · rename_i single
      have single := isList_of_hasShape list (Bool.eq_false_iff.mpr single) holds
      cases holds.1 with
      | number x => exact ⟨.number _, rfl⟩
      | undefined mark => exact ⟨by first | exact .number _ | exact .undefined _, rfl⟩
      | list each => cases single

theorem applyBinary_keeps {operator : BinaryOperator} {shape shape' : Shape}
    {left right result left' right' : Value} (list : shape = .list → left.shape = .list)
    (list' : shape' = .list → right.shape = .list)
    (applied : applyBinary operator 0 left right = .ok result) (holds : left'.HasShape shape)
    (holds' : right'.HasShape shape') :
    Evaluates (Value.HasShape .single) (applyBinary operator 0 left' right') := by
  -- A comparison has been made between the values before, so neither was a list, and shapes tell.
  have meant : (operator ≠ .and && operator ≠ .or && (left'.isList || right'.isList)) = false := by
    unfold applyBinary at applied
    split at applied
    · cases applied
    · rename_i meant
      by_cases logical : (operator ≠ .and && operator ≠ .or) = true
      · rw [logical, Bool.true_and, Bool.or_eq_true, not_or, Bool.not_eq_true,
          Bool.not_eq_true] at meant
        rw [isList_of_hasShape list meant.1 holds, isList_of_hasShape list' meant.2 holds', logical]
        rfl
      · rw [Bool.eq_false_iff.mpr logical, Bool.false_and]
  have numeric := applyArithmetic_numeric operator left' right'
  unfold applyBinary
  rw [meant]
  generalize applyArithmetic operator left' right' = applied at numeric
  cases applied with
  | ok value => exact ⟨numeric.present, numeric.single⟩
  | error fault => exact ⟨fault, rfl⟩

theorem applyFunction_keeps {function : Builtin} (scalar : function ∈ Builtin.scalars) {name : Text}
    {shape : Shape} {shapes : List Shape} {before : List Value} {result : Value}
    (told : function.shape? shapes = some shape)
    (lists : List.Forall₂ (fun shape (argument : Value) => shape = .list → argument.shape = .list)
      shapes before) (applied : applyFunction function name 0 before = .ok result)
    {operands : List Value} (present : ∀ operand ∈ operands, operand.Present)
    (same : operands.map Value.shape = shapes) :
    Evaluates (Value.HasShape shape) (applyFunction function name 0 operands) := by
  have meant : function.apply before ≠ .error .mismatch := by
    intro failed
    rw [applyFunction, failed] at applied
    cases applied
  have takes := Builtin.takes_of_apply scalar meant
  rw [← lists.length_eq, ← same, List.length_map] at takes
  exact applyFunction_shape scalar takes present (same ▸ told)

mutual

/-- An expression of a definite shape keeps it when its operands are exchanged, and does not become
ill-formed. -/
theorem Exchanges.keeps {kept : Text → Prop} (plain : ∀ name, kept name → ¬ IsSampled name) :
    {expression other : Expr} → expression.Exchanges kept other → {shape : Shape} →
      {value : Value} → expression.shape? = some shape → expression.eval { functions } = .ok value →
      (shape = .list → value.shape = .list) ∧ Evaluates (Value.HasShape shape) (other.eval {})
  | _, _, .number _ signed, _, _, shaped, _ => by
    obtain ⟨x, evaluated⟩ := signed.eval {}
    cases shaped
    rw [evaluated]
    exact ⟨nofun, .number x, rfl⟩
  | _, _, .test named arguments other, _, _, shaped, _ => by
    rw [named, shape?, if_neg not_isSampled_isNull] at shaped
    obtain ⟨shapes, -, rest⟩ := Option.bind_eq_some_iff.mp shaped
    cases rest
    exact ⟨nofun, .number _, rfl⟩
  | _, _, .aggregate takes arguments signed, _, _, shaped, _ => by
    rw [shape?, if_pos takes.isSampled] at shaped
    cases shaped
    exact ⟨nofun, eval_of_signed takes signed⟩
  | _, _, .boolean _, _, _, shaped, _ => by
    cases shaped
    exact ⟨nofun, .number _, rfl⟩
  | _, _, .variable name, _, _, shaped, evaluated => nomatch evaluated
  | _, _, .list each, _, _, shaped, evaluated => by
    obtain ⟨values, evaluated', returned⟩ := bind_eq_ok_iff.mp evaluated
    cases returned
    obtain ⟨shapes, shaped', found⟩ := Option.bind_eq_some_iff.mp shaped
    cases found
    obtain ⟨-, evaluates⟩ := each.keeps plain shaped' evaluated'
    exact ⟨fun _ => rfl, Returns.bind evaluates fun values holds => ⟨.list holds.1, rfl⟩⟩
  | _, _, .unary operator exchanges, _, _, shaped, evaluated => by
    obtain ⟨before, evaluated', applied⟩ := bind_eq_ok_iff.mp evaluated
    obtain ⟨shape, shaped', found⟩ := Option.bind_eq_some_iff.mp shaped
    cases found
    obtain ⟨list, evaluates⟩ := exchanges.keeps plain shaped' evaluated'
    exact ⟨nofun, Returns.bind evaluates fun operand holds => applyUnary_keeps list applied holds⟩
  | _, _, .binary operator exchanges exchanges', _, _, shaped, evaluated => by
    obtain ⟨left, leftValue, rest⟩ := bind_eq_ok_iff.mp evaluated
    obtain ⟨right, rightValue, applied⟩ := bind_eq_ok_iff.mp rest
    obtain ⟨shape, leftShaped, rest⟩ := Option.bind_eq_some_iff.mp shaped
    obtain ⟨shape', rightShaped, found⟩ := Option.bind_eq_some_iff.mp rest
    cases found
    obtain ⟨list, evaluates⟩ := exchanges.keeps plain leftShaped leftValue
    obtain ⟨list', evaluates'⟩ := exchanges'.keeps plain rightShaped rightValue
    refine ⟨nofun,
      Returns.bind evaluates fun left holds => Returns.bind evaluates' fun right holds' => ?_⟩
    exact applyBinary_keeps list list' applied holds holds'
  | _, _, .call keeps each, _, _, shaped, evaluated => by
    rw [shape?, if_neg (plain _ keeps)] at shaped
    obtain ⟨shapes, shaped', rest⟩ := Option.bind_eq_some_iff.mp shaped
    obtain ⟨function, known, told⟩ := Option.bind_eq_some_iff.mp rest
    simp only [eval] at evaluated ⊢
    split at evaluated
    · cases evaluated
    rename_i function' found
    obtain ⟨rfl, known'⟩ := ofName?_all found
    cases known.symm.trans known'
    obtain ⟨values, evaluated', applied⟩ := bind_eq_ok_iff.mp evaluated
    obtain ⟨lists, evaluates⟩ := each.keeps plain shaped' evaluated'
    -- Calls that are kept are not of aggregate functions, so it is a function on single values.
    have scalar : function ∈ Builtin.scalars :=
      (List.mem_append.mp (mem_all function)).resolve_right
        fun member => plain _ keeps ⟨function, member, rfl⟩
    refine ⟨fun list => list_of_applyFunction (list ▸ told) lists applied, ?_⟩
    rw [known']
    exact Returns.bind evaluates
      fun operands holds => applyFunction_keeps scalar told lists applied holds.1 holds.2

theorem ExchangesAll.keeps {kept : Text → Prop} (plain : ∀ name, kept name → ¬ IsSampled name) :
    {expressions others : List Expr} → ExchangesAll kept expressions others →
      {shapes : List Shape} → {values : List Value} → shapes? expressions = some shapes →
      evalAll { functions } expressions = .ok values →
      List.Forall₂ (fun shape (value : Value) => shape = .list → value.shape = .list) shapes
          values ∧
        Evaluates
          (fun values => (∀ value ∈ values, value.Present) ∧ values.map Value.shape = shapes)
          (evalAll {} others)
  | _, _, .nil, _, _, shaped, evaluated => by
    cases shaped
    cases evaluated
    exact ⟨.nil, nofun, rfl⟩
  | _, _, .cons exchanges each, _, _, shaped, evaluated => by
    obtain ⟨value, first, rest⟩ := bind_eq_ok_iff.mp evaluated
    obtain ⟨values, later, returned⟩ := bind_eq_ok_iff.mp rest
    obtain ⟨shape, shaped', rest⟩ := Option.bind_eq_some_iff.mp shaped
    obtain ⟨shapes, shaped'', found⟩ := Option.bind_eq_some_iff.mp rest
    cases returned
    cases found
    obtain ⟨list, evaluates⟩ := exchanges.keeps plain shaped' first
    obtain ⟨lists, evaluates'⟩ := each.keeps plain shaped'' later
    refine ⟨.cons list lists, ?_⟩
    refine Returns.bind evaluates fun value holds => Returns.bind evaluates' fun values holds' => ?_
    exact ⟨List.forall_mem_cons.mpr ⟨holds.1, holds'.1⟩, congrArg₂ List.cons holds.2 holds'.2⟩

end

end Expr
end IndicatorFormula
