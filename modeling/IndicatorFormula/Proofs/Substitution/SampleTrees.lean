import IndicatorFormula.Proofs.Expression.Parsing
import IndicatorFormula.Proofs.Substitution.Samples

/-! Samples in trees.

Putting samples in place changes the tree of a formula at the outermost calls of aggregate
functions: each takes one list instead of its arguments. Which samples are in the list depends on
the text of the argument, and that stands between the brackets of the call. The segments that
samples are written in are a sentence for this list. -/

set_option autoImplicit false
namespace IndicatorFormula

instance (name text : Text) : Decidable (Text.Spelling name text) :=
  inferInstanceAs (Decidable (List.Forall₂ _ name text))

def namesAggregate (name : Text) : Bool :=
  decide (∃ function ∈ aggregateFunctions, Text.Spelling function.name name)

theorem namesAggregate_iff {name : Text} :
    namesAggregate name = true ↔
      ∃ function ∈ aggregateFunctions, Text.Spelling function.name name :=
  decide_eq_true_iff

/-- The position of the first bracket that closes more than tokens open, where `depth` are open
already. -/
def closingPlace? (depth : Nat) : List Token → Option Nat
  | [] => none
  | token :: rest =>
    match token.nesting.turn depth with
    | some deeper => closingPlace? deeper rest
    | none => some token.position

theorem closingPlace?_append {inside : List Token} {closer : Token} {depth : Nat}
    (within : depth? Token.nesting depth inside = some 0) (closes : closer.nesting = .closes)
    (behind : List Token) :
    closingPlace? depth (inside ++ closer :: behind) = some closer.position := by
  induction inside generalizing depth with
  | nil =>
    cases within
    rw [List.nil_append, closingPlace?, closes]
    rfl
  | cons token inside ih =>
    rw [depth?_cons] at within
    obtain ⟨deeper, turned, within⟩ := Option.bind_eq_some_iff.mp within
    rw [List.cons_append, closingPlace?, turned]
    exact ih within

def argumentAt (expression : Text) (tokens : List Token) (position : Nat) : Text :=
  match tokens.dropWhile fun token => token.position != position with
  | _ :: opening :: inside =>
    match closingPlace? 0 inside with
    | some closing => (expression.take closing).drop (opening.position + 1)
    | none => []
  | _ => []

theorem argumentAt_call (expression : Text) {tokens before inside behind : List Token} {name : Text}
    {position opening closing : Nat}
    (increasing : tokens.Pairwise fun first second => first.position < second.position)
    (whole : tokens =
      before ++
        (⟨.identifier name, position⟩ :: ⟨.symbol (.opening .round), opening⟩ ::
          (inside ++ [⟨.symbol (.closing .round), closing⟩])) ++ behind)
    (balanced : Balanced Token.nesting inside) :
    argumentAt expression tokens position = (expression.take closing).drop (opening + 1) := by
  subst whole
  have earlier : ∀ token ∈ before, (token.position != position) = true := by
    intro token member
    rw [List.append_assoc] at increasing
    have lower :=
      (List.pairwise_append.mp increasing).2.2 token member ⟨.identifier name, position⟩ (by simp)
    exact bne_iff_ne.mpr (Nat.ne_of_lt lower)
  unfold argumentAt
  rw [List.append_assoc, List.dropWhile_append_of_pos earlier, List.cons_append,
    List.dropWhile_cons_of_neg (by simp)]
  simp only [List.cons_append, List.append_assoc, List.nil_append]
  rw [closingPlace?_append (balanced 0) rfl]

namespace Expr

def ofDouble : Double → Expr
  | .finite true m => .unary .minus 0 (.number (.finite false m))
  | value => .number value

def ofSample (x : Number) : Expr :=
  match x.toDouble with
  | .ok value => .ofDouble value
  | .error _ => .number .nan

mutual

/-- A tree without places, and with samples instead of the arguments of its outermost calls of
aggregate functions. The argument of the call at a position has a text, under which the samples are
found. -/
def sampled (argument : Nat → Text) (table : Samples) : Expr → Expr
  | .number value => .number value
  | .boolean value => .boolean value
  | .variable name _ => .variable name 0
  | .list items => .list (sampledAll argument table items)
  | .unary operator _ operand => .unary operator 0 (operand.sampled argument table)
  | .binary operator _ left right =>
    .binary operator 0 (left.sampled argument table) (right.sampled argument table)
  | .call function position arguments =>
    if namesAggregate function then
      .call (function.map Text.capital) 0 [.list ((table.present (argument position)).map ofSample)]
    else .call function 0 (sampledAll argument table arguments)

def sampledAll (argument : Nat → Text) (table : Samples) : List Expr → List Expr
  | [] => []
  | item :: items => item.sampled argument table :: sampledAll argument table items

end

variable {argument : Nat → Text} {table : Samples}

theorem sampledAll_eq_map (items : List Expr) :
    sampledAll argument table items = items.map (sampled argument table) := by
  induction items with
  | nil => rfl
  | cons item items ih => rw [sampledAll, ih, List.map_cons]

theorem sampled_ofIdentifier (name : Text) (position : Nat) :
    (ofIdentifier name position).sampled argument table = ofIdentifier name 0 := by
  unfold ofIdentifier
  split
  · rfl
  split <;> rfl

end Expr

namespace Segment

variable {x : Number} {xs : List Number}

theorem derives_ofNumber (finite : x.IsFinite) :
    Derives .factor (unplacedTokens ((ofNumber x).flatMap lexemes)) (.ofSample x) := by
  obtain ⟨negative, m, value⟩ := finite
  rw [Expr.ofSample, ofNumber, value]
  cases negative with
  | false => exact .number (.finite false m) 0
  | true =>
    exact .group 0 0
      (.loosen (.unary .minus 0 (.loosen (.number (.finite false m) 0) (by decide))) (by decide))

theorem derives_furtherSamples (finite : ∀ x ∈ xs, x.IsFinite) {before : List Token}
    {trees : List Expr} (items : DerivesItems before trees) (some : trees ≠ []) :
    ∃ inside, before ++ unplacedTokens ((furtherSamples xs).flatMap lexemes) =
        inside ++ [⟨.symbol (.closing .square), 0⟩] ∧
      DerivesItems inside (trees ++ xs.map .ofSample) := by
  induction xs generalizing before trees with
  | nil => exact ⟨before, rfl, by simpa using items⟩
  | cons x rest ih =>
    obtain ⟨first, later⟩ := List.forall_mem_cons.mp finite
    have longer := items.further some 0 ((derives_ofNumber first).loosen (by decide))
    obtain ⟨inside, shape, derives⟩ := ih later longer (by simp)
    refine ⟨inside, ?_, by simpa using derives⟩
    rw [← shape]
    simp [furtherSamples, lexemes]

theorem derives_ofSamples (finite : ∀ x ∈ xs, x.IsFinite) :
    Derives .factor (unplacedTokens ((ofSamples xs).flatMap lexemes))
      (.list (xs.map .ofSample)) := by
  cases xs with
  | nil => exact .list 0 0 .none
  | cons x rest =>
    obtain ⟨first, later⟩ := List.forall_mem_cons.mp finite
    have single : DerivesItems _ [Expr.ofSample x] :=
      .single ((derives_ofNumber first).loosen (by decide))
    obtain ⟨inside, shape, derives⟩ := derives_furtherSamples later single (by simp)
    have whole : unplacedTokens ((ofSamples (x :: rest)).flatMap lexemes) =
        ⟨.symbol (.opening .square), 0⟩ :: inside ++ [⟨.symbol (.closing .square), 0⟩] := by
      rw [List.cons_append, ← shape]
      simp [ofSamples, lexemes]
    rw [whole]
    exact .list 0 0 derives

end Segment
end IndicatorFormula
