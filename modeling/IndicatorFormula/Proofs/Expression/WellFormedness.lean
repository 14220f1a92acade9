import IndicatorFormula.Proofs.Calculation
import IndicatorFormula.Proofs.Expression.Parsing
import IndicatorFormula.Proofs.Expression.Shape

/-! Well-formedness of expressions without lists.

Whether an expression is well-formed is found out by evaluating it. Without lists every value is a
number, so only its names and the numbers of arguments tell: the numbers in it make no difference,
unless evaluation fails. -/

set_option autoImplicit false
namespace IndicatorFormula

/-- Lexemes that are the same, up to the value of a number. -/
inductive Lexeme.Alike : Lexeme → Lexeme → Prop where
  | number (value other : Double) : Alike (.number value) (.number other)
  | refl (lexeme : Lexeme) : Alike lexeme lexeme

theorem Lexeme.Alike.symm {first second : Lexeme} (alike : first.Alike second) :
    second.Alike first := by
  cases alike with
  | number value other => exact .number other value
  | refl => exact .refl _

namespace Expr

mutual

def isFlat : Expr → Bool
  | .number _ | .boolean _ | .variable .. => true
  | .list _ => false
  | .unary _ _ operand => isFlat operand
  | .binary _ _ left right => isFlat left && isFlat right
  | .call _ _ arguments => allFlat arguments

def allFlat : List Expr → Bool
  | [] => true
  | expression :: rest => isFlat expression && allFlat rest

end

mutual

/-- Whether there are no lists and no variables, and every function takes as many arguments as it
has. -/
def isSound : Expr → Bool
  | .number _ | .boolean _ => true
  | .variable .. | .list _ => false
  | .unary _ _ operand => isSound operand
  | .binary _ _ left right => isSound left && isSound right
  | .call name _ arguments =>
    (Builtin.ofName? Builtin.scalars name).any (·.takes arguments.length) && allSound arguments

def allSound : List Expr → Bool
  | [] => true
  | expression :: rest => isSound expression && allSound rest

end

theorem allFlat_append (expressions more : List Expr) :
    allFlat (expressions ++ more) = (allFlat expressions && allFlat more) := by
  induction expressions with
  | nil => rfl
  | cons expression rest ih => simp only [List.cons_append, allFlat, ih, Bool.and_assoc]

theorem length_evalAll {environment : Environment} {expressions : List Expr} {values : List Value}
    (evaluated : evalAll environment expressions = .ok values) :
    values.length = expressions.length := by
  induction expressions generalizing values with
  | nil =>
    cases evaluated
    rfl
  | cons expression rest ih =>
    obtain ⟨value, -, more⟩ := bind_eq_ok_iff.mp evaluated
    obtain ⟨values, later, returned⟩ := bind_eq_ok_iff.mp more
    cases returned
    rw [List.length_cons, List.length_cons, ih later]

mutual

/-- Without lists only a sound expression has a value, whatever its numbers are. -/
theorem isSound_of_eval : (expression : Expr) → expression.isFlat = true → {value : Value} →
    expression.eval { functions := Builtin.scalars } = .ok value → expression.isSound = true
  | .number _, _, _, _ | .boolean _, _, _, _ => rfl
  | .variable .., _, _, evaluated => nomatch evaluated
  | .list _, flat, _, _ => nomatch flat
  | .unary _ _ operand, flat, _, evaluated => by
    obtain ⟨value, evaluated, -⟩ := bind_eq_ok_iff.mp evaluated
    exact isSound_of_eval operand flat evaluated
  | .binary _ _ left right, flat, _, evaluated => by
    obtain ⟨leftValue, evaluated, rest⟩ := bind_eq_ok_iff.mp evaluated
    obtain ⟨rightValue, evaluated', -⟩ := bind_eq_ok_iff.mp rest
    obtain ⟨flat, flat'⟩ := Bool.and_eq_true_iff.mp flat
    exact Bool.and_eq_true_iff.mpr
      ⟨isSound_of_eval left flat evaluated, isSound_of_eval right flat' evaluated'⟩
  | .call name position arguments, flat, _, evaluated => by
    simp only [eval] at evaluated
    split at evaluated
    · cases evaluated
    · rename_i function found
      obtain ⟨values, evaluated', applied⟩ := bind_eq_ok_iff.mp evaluated
      -- A function of the vocabulary has a value for its arguments if there are as many as it
      -- takes.
      have meant : function.apply values ≠ .error .mismatch := by
        intro failed
        rw [applyFunction, failed] at applied
        cases applied
      have takes := Builtin.takes_of_apply (List.mem_of_find?_eq_some found) meant
      rw [length_evalAll evaluated'] at takes
      simp only [isSound, found, Option.any_some, takes, Bool.true_and]
      exact allSound_of_evalAll arguments flat evaluated'

theorem allSound_of_evalAll :
    (expressions : List Expr) → allFlat expressions = true → {values : List Value} →
      evalAll { functions := Builtin.scalars } expressions = .ok values →
      allSound expressions = true
  | [], _, _, _ => rfl
  | expression :: rest, flat, _, evaluated => by
    obtain ⟨value, evaluated, more⟩ := bind_eq_ok_iff.mp evaluated
    obtain ⟨values, evaluated', -⟩ := bind_eq_ok_iff.mp more
    obtain ⟨flat, flat'⟩ := Bool.and_eq_true_iff.mp flat
    exact Bool.and_eq_true_iff.mpr
      ⟨isSound_of_eval expression flat evaluated, allSound_of_evalAll rest flat' evaluated'⟩

end

theorem shape?_of_single {function : Builtin} {shapes : List Shape}
    (takes : function.takes shapes.length = true) (single : ∀ shape ∈ shapes, shape = .single) :
    function.shape? shapes = some .single := by
  unfold Builtin.shape?
  split
  · rename_i condition yes no
    rw [single yes (by simp), single no (by simp), if_pos rfl]
  · rfl
  · rw [if_pos single]

/-- Operators have a meaning for all single values, as they have one for undefined numbers. -/
theorem applyUnary_single (operator : UnaryOperator) {operand : Value}
    (holds : operand.HasShape .single) :
    Evaluates (Value.HasShape .single) (applyUnary operator operand) := by
  obtain ⟨result, applied⟩ : ∃ result, applyUnary operator .nan = .ok result := by
    cases operator <;> exact ⟨_, rfl⟩
  have single : Shape.single = .list → Value.nan.shape = .list :=
    fun other => absurd other (by decide)
  exact applyUnary_keeps single applied holds

theorem applyBinary_single (operator : BinaryOperator) {left right : Value}
    (holds : left.HasShape .single) (holds' : right.HasShape .single) :
    Evaluates (Value.HasShape .single) (applyBinary operator 0 left right) := by
  obtain ⟨result, applied⟩ : ∃ result, applyBinary operator 0 .nan .nan = .ok result := by
    cases operator <;> exact ⟨_, rfl⟩
  have single : Shape.single = .list → Value.nan.shape = .list :=
    fun other => absurd other (by decide)
  exact applyBinary_keeps single single applied holds holds'

mutual

/-- A sound expression has a single value, or evaluation fails. -/
theorem evaluates_of_isSound : (expression : Expr) → expression.isSound = true →
    Evaluates (Value.HasShape .single) (expression.unplaced.eval { functions := Builtin.scalars })
  | .number _, _ | .boolean _, _ => ⟨.number _, rfl⟩
  | .unary operator _ operand, sound =>
    Returns.bind (evaluates_of_isSound operand sound)
      fun _ holds => applyUnary_single operator holds
  | .binary operator _ left right, sound => by
    obtain ⟨sound, sound'⟩ := Bool.and_eq_true_iff.mp sound
    exact Returns.bind (evaluates_of_isSound left sound) fun _ holds =>
      Returns.bind (evaluates_of_isSound right sound')
        fun _ holds' => applyBinary_single operator holds holds'
  | .call name position arguments, sound => by
    obtain ⟨takes, sound⟩ := Bool.and_eq_true_iff.mp sound
    simp only [unplaced, eval]
    split
    · rename_i unknown
      rw [unknown] at takes
      cases takes
    · rename_i function found
      rw [found, Option.any_some] at takes
      refine Returns.bind (evaluatesAll_of_allSound arguments sound) fun values holds => ?_
      rw [← holds.1] at takes
      have shapes : function.shape? (values.map Value.shape) = some .single := by
        refine shape?_of_single (by rwa [List.length_map]) fun shape member => ?_
        obtain ⟨value, within, rfl⟩ := List.mem_map.mp member
        exact (holds.2 value within).2
      exact applyFunction_shape (List.mem_of_find?_eq_some found) takes
        (fun value member => (holds.2 value member).1) shapes

theorem evaluatesAll_of_allSound :
    (expressions : List Expr) → allSound expressions = true →
      Evaluates (fun values =>
        values.length = expressions.length ∧ ∀ value ∈ values, value.HasShape .single)
        (evalAll { functions := Builtin.scalars } (unplacedAll expressions))
  | [], _ => ⟨rfl, nofun⟩
  | expression :: rest, sound => by
    obtain ⟨sound, sound'⟩ := Bool.and_eq_true_iff.mp sound
    refine Returns.bind (evaluates_of_isSound expression sound) fun value holds => ?_
    refine Returns.bind (evaluatesAll_of_allSound rest sound') fun values holds' => ?_
    exact ⟨by simp [holds'.1], List.forall_mem_cons.mpr ⟨holds, holds'.2⟩⟩

end

mutual

theorem isSound_unplaced : (expression : Expr) → expression.unplaced.isSound = expression.isSound
  | .number _ | .boolean _ | .variable .. | .list _ => rfl
  | .unary _ _ operand => by simp only [unplaced, isSound, isSound_unplaced operand]
  | .binary _ _ left right =>
    by simp only [unplaced, isSound, isSound_unplaced left, isSound_unplaced right]
  | .call name _ arguments => by
    have same : (unplacedAll arguments).length = arguments.length := by
      rw [unplacedAll_eq_map, List.length_map]
    simp only [unplaced, isSound, allSound_unplaced arguments, same]

theorem allSound_unplaced :
    (expressions : List Expr) → allSound (unplacedAll expressions) = allSound expressions
  | [] => rfl
  | expression :: rest =>
    by simp only [unplacedAll, allSound, isSound_unplaced expression, allSound_unplaced rest]

end

theorem IsSigned.isSound {tree : Expr} (signed : tree.IsSigned) : tree.isSound = true := by
  induction signed with
  | number value => rfl
  | minus _ ih => exact ih

mutual

theorem Exchanges.isSound {kept : Text → Prop} :
    {expression other : Expr} → expression.Exchanges kept other → expression.isSound = true →
      other.isSound = true
  | _, _, .number _ signed, _ => signed.isSound
  | _, _, .test _ _ _, _ | _, _, .boolean _, _ => rfl
  | _, _, .aggregate takes arguments signed, sound => by
    -- No aggregate function is among the functions on single values.
    obtain ⟨function, member, rfl, -⟩ := takes
    have unknown : ∀ function ∈ Builtin.aggregates, Builtin.ofName? Builtin.scalars function.name =
        none := by
      decide +kernel
    rw [Expr.isSound, unknown function member] at sound
    cases sound
  | _, _, .unary _ exchanges, sound => exchanges.isSound sound
  | _, _, .binary _ exchanges exchanges', sound => by
    obtain ⟨sound, sound'⟩ := Bool.and_eq_true_iff.mp sound
    exact Bool.and_eq_true_iff.mpr ⟨exchanges.isSound sound, exchanges'.isSound sound'⟩
  | _, _, .call _ each, sound => by
    obtain ⟨takes, sound⟩ := Bool.and_eq_true_iff.mp sound
    obtain ⟨same, sound⟩ := each.allSound sound
    exact Bool.and_eq_true_iff.mpr ⟨same ▸ takes, sound⟩

theorem ExchangesAll.allSound {kept : Text → Prop} : {expressions others : List Expr} →
    ExchangesAll kept expressions others → allSound expressions = true →
    expressions.length = others.length ∧ allSound others = true
  | _, _, .nil, _ => ⟨rfl, rfl⟩
  | _, _, .cons exchanges each, sound => by
    obtain ⟨sound, sound'⟩ := Bool.and_eq_true_iff.mp sound
    obtain ⟨same, sound'⟩ := each.allSound sound'
    exact ⟨by simp [same], Bool.and_eq_true_iff.mpr ⟨exchanges.isSound sound, sound'⟩⟩

end

theorem isFlat_ofIdentifier (name : Text) (position : Nat) :
    (ofIdentifier name position).isFlat = true := by
  unfold ofIdentifier
  split
  · rfl
  split <;> rfl

end Expr

def WithoutLists (tokens : List Token) : Prop :=
  ∀ token ∈ tokens, token.lexeme ≠ .symbol (.opening .square)

theorem withoutLists_append {tokens more : List Token} :
    WithoutLists (tokens ++ more) ↔ WithoutLists tokens ∧ WithoutLists more :=
  List.forall_mem_append

theorem withoutLists_cons {token : Token} {tokens : List Token} :
    WithoutLists (token :: tokens) ↔
      token.lexeme ≠ .symbol (.opening .square) ∧ WithoutLists tokens :=
  List.forall_mem_cons

mutual

theorem isFlat_of_derives : {category : Category} → {tokens : List Token} → {tree : Expr} →
    Derives category tokens tree → WithoutLists tokens → tree.isFlat = true
  | _, _, _, .tighter _ derives, plain => isFlat_of_derives derives plain
  | _, _, _, .binary _ _ derives derives', plain => by
    obtain ⟨plain, plain'⟩ := withoutLists_append.mp plain
    exact Bool.and_eq_true_iff.mpr
      ⟨isFlat_of_derives derives plain, isFlat_of_derives derives' (withoutLists_cons.mp plain').2⟩
  | _, _, _, .unary _ _ derives, plain => by
    have flat := isFlat_of_derives derives (withoutLists_cons.mp plain).2
    exact flat
  | _, _, _, .number .., _ => rfl
  | _, _, _, .name name position, _ => Expr.isFlat_ofIdentifier name position
  | _, _, _, .group _ _ derives, plain =>
    isFlat_of_derives derives (withoutLists_append.mp (withoutLists_cons.mp plain).2).1
  | _, _, _, .list .., plain => absurd rfl (withoutLists_cons.mp plain).1
  | _, _, _, .call _ _ _ _ derives, plain =>
    allFlat_of_derives derives
      (withoutLists_append.mp (withoutLists_cons.mp (withoutLists_cons.mp plain).2).2).1

theorem allFlat_of_derives :
    {tokens : List Token} → {trees : List Expr} → DerivesItems tokens trees → WithoutLists tokens →
      Expr.allFlat trees = true
  | _, _, .none, _ => rfl
  | _, _, .single derives, plain =>
    by simp only [Expr.allFlat, isFlat_of_derives derives plain, Bool.and_true]
  | _, _, .further items _ _ derives, plain => by
    obtain ⟨plain, plain'⟩ := withoutLists_append.mp plain
    rw [Expr.allFlat_append, allFlat_of_derives items plain]
    simp only [Expr.allFlat, isFlat_of_derives derives (withoutLists_cons.mp plain').2,
      Bool.and_true]

end

section

variable {text : Text} {tree : Expr} {answer : Bool}

theorem hasErrors_of_evaluate (answered : hasErrors false text = .ok answer) :
    answer = true ∧ (∃ defect, evaluate Builtin.scalars text = .error (.defect defect)) ∨
      ∃ value, evaluate Builtin.scalars text = .ok value ∧ answer = value.isList := by
  unfold hasErrors calculate at answered
  rw [show allowedFunctions false = Builtin.scalars from rfl] at answered
  cases evaluated : evaluate Builtin.scalars text with
  | error breakdown =>
    rw [evaluated] at answered
    cases breakdown with
    | fault fault => cases answered
    | defect defect =>
      cases answered
      exact .inl ⟨rfl, defect, rfl⟩
  | ok value =>
    rw [evaluated] at answered
    refine .inr ⟨value, rfl, ?_⟩
    simp only at answered
    cases list : value.isList with
    | true =>
      rw [list] at answered
      cases answered
      rfl
    | false =>
      rw [list] at answered
      cases number : value.toDouble with
      | error fault =>
        rw [number] at answered
        cases answered
      | ok x =>
        rw [number] at answered
        cases answered
        rfl

theorem hasErrors_unparsed (unparsed : ∀ tree, Expr.parse text ≠ .ok tree)
    (answered : hasErrors false text = .ok answer) : answer = true := by
  rcases hasErrors_of_evaluate answered with ⟨same, -⟩ | ⟨value, evaluated, -⟩
  · exact same
  · obtain ⟨tree, parsed, -⟩ := evaluate_eq_ok_iff.mp evaluated
    exact absurd parsed (unparsed tree)

theorem hasErrors_of_flat (parsed : Expr.parse text = .ok tree) (flat : tree.isFlat = true)
    (answered : hasErrors false text = .ok answer) : answer = !tree.isSound := by
  have evaluation : evaluate Builtin.scalars text = tree.eval { functions := Builtin.scalars } := by
    rw [evaluate, parsed]
    rfl
  cases sound : tree.isSound with
  | true =>
    have evaluates := Expr.evaluates_of_isSound tree sound
    rw [Expr.eval_unplaced, ← evaluation] at evaluates
    rcases hasErrors_of_evaluate answered with ⟨-, defect, evaluated⟩ | ⟨value, evaluated, rfl⟩
    · rw [evaluated] at evaluates
      obtain ⟨fault, impossible⟩ := evaluates
      cases impossible
    · rw [evaluated] at evaluates
      exact Value.isList_eq_false_iff.mpr evaluates.2
  | false =>
    rcases hasErrors_of_evaluate answered with ⟨same, -⟩ | ⟨value, evaluated, -⟩
    · exact same
    · rw [evaluation] at evaluated
      rw [Expr.isSound_of_eval tree flat evaluated] at sound
      cases sound

variable {tokens : List Token}

/-- An expression without lists has no errors if its lexemes have a sound tree, and only then. -/
theorem hasErrors_eq_false_iff (cut : Lexer.tokens text = .ok tokens) (plain : WithoutLists tokens)
    (answered : hasErrors false text = .ok answer) :
    answer = false ↔
      ∃ tree, Parser.tree (tokens.map Token.lexeme) = .ok tree ∧ tree.isSound = true := by
  have lexes := Lexer.lexes_of_tokensFrom cut
  cases parsed : Expr.parse text with
  | ok tree =>
    have derives : Sentence tokens tree := by
      rw [Expr.parse, cut] at parsed
      exact ((Parser.parse_eq_ok_iff_sentence tokens text.length).1 tree).mp parsed
    obtain ⟨lexemes, lexes', reads⟩ := Expr.lexes_of_parse parsed
    rw [hasErrors_of_flat parsed (isFlat_of_derives derives plain) answered, lexes.unique lexes',
      reads]
    simp [Expr.isSound_unplaced]
  | error defect =>
    have none : ¬ ∃ tree, Parser.tree (tokens.map
        Token.lexeme) = .ok tree ∧ tree.isSound = true := by
      rintro ⟨tree, reads, -⟩
      obtain ⟨placed, parsed', -⟩ := Expr.parse_of_lexes lexes reads
      rw [parsed] at parsed'
      cases parsed'
    rw [hasErrors_unparsed (fun tree parsed' => by rw [parsed] at parsed'; cases parsed') answered]
    exact iff_of_false nofun none

end

theorem exchange_of_alike {lexemes others : List Lexeme}
    (alike : List.Forall₂ Lexeme.Alike lexemes others) :
    Parser.LexemesExchange (fun _ => True) lexemes others := by
  induction alike with
  | nil => exact .nil
  | cons same _ ih =>
    cases same with
    | number value other =>
      have reads : Parser.ReadsAs (.number other) [.number other] := fun frames empty => rfl
      exact .number value (.number other) reads ih
    | refl => exact .keep (fun _ _ => trivial) ih

theorem isSound_of_alike {lexemes others : List Lexeme}
    (alike : List.Forall₂ Lexeme.Alike lexemes others)
    (sound : ∃ tree, Parser.tree lexemes = .ok tree ∧ tree.isSound = true) :
    ∃ tree, Parser.tree others = .ok tree ∧ tree.isSound = true := by
  obtain ⟨tree, reads, sound⟩ := sound
  obtain ⟨tree', reads', exchanges⟩ := Parser.tree_exchanges (exchange_of_alike alike) reads
  exact ⟨tree', reads', exchanges.isSound sound⟩

/-- Whether an expression without lists is well-formed over single values does not depend on the
numbers in it: two texts whose tokens are alike up to the values of numbers, and their places, get
the same answer, if they get one. -/
theorem hasErrors_congr {first second : Text} {tokens others : List Token}
    (cut : Lexer.tokens first = .ok tokens) (cut' : Lexer.tokens second = .ok others)
    (alike : List.Forall₂ Lexeme.Alike (tokens.map Token.lexeme) (others.map Token.lexeme))
    (plain : WithoutLists tokens) (plain' : WithoutLists others) {answer answer' : Bool}
    (answered : hasErrors false first = .ok answer)
    (answered' : hasErrors false second = .ok answer') : answer = answer' := by
  have alike' : List.Forall₂ Lexeme.Alike (others.map Token.lexeme) (tokens.map Token.lexeme) :=
    alike.flip.imp fun _ _ same => same.symm
  have same : answer = false ↔ answer' = false := by
    rw [hasErrors_eq_false_iff cut plain answered, hasErrors_eq_false_iff cut' plain' answered']
    exact ⟨isSound_of_alike alike, isSound_of_alike alike'⟩
  cases answer <;> cases answer' <;> simp_all

theorem hasErrors_congr_logarithm :
    hasErrors false "LOG(1)".toList = .ok false ∧ hasErrors false "LOG( 0)".toList = .ok false := by
  have cut : Lexer.tokens "LOG(1)".toList =
      .ok [⟨.identifier "LOG".toList, 0⟩, ⟨.symbol (.opening .round), 3⟩, ⟨.number (.ofInt 1), 4⟩,
        ⟨.symbol (.closing .round), 5⟩] := by
    decide +kernel
  have cut' : Lexer.tokens "LOG( 0)".toList =
      .ok [⟨.identifier "LOG".toList, 0⟩, ⟨.symbol (.opening .round), 3⟩, ⟨.number (.ofInt 0), 5⟩,
        ⟨.symbol (.closing .round), 6⟩] := by
    decide +kernel
  have answered : hasErrors false "LOG(1)".toList = .ok false := by decide +kernel
  obtain ⟨answer, answered'⟩ : ∃ answer, hasErrors false "LOG( 0)".toList = .ok answer :=
    ⟨false, by decide +kernel⟩
  have same : false = answer := by
    refine hasErrors_congr cut cut' ?_ (by simp [WithoutLists]) (by simp [WithoutLists]) answered
      answered'
    exact .cons (.refl _) (.cons (.refl _) (.cons (.number ..) (.cons (.refl _) .nil)))
  subst same
  exact ⟨answered, answered'⟩

end IndicatorFormula
