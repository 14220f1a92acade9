import IndicatorFormula.Proofs.Expression.Literal
import IndicatorFormula.Proofs.Expression.Spacing

/-! Expressions written down and read back.

An expression is written lexeme by lexeme, with parentheses around each operation that is an operand
and with blanks anywhere between the lexemes or nowhere. Operands are factors then, so that no level
of operators matters, and the text is parsed as the expression. -/

set_option autoImplicit false
namespace IndicatorFormula

def Lexeme.text : Lexeme → Text
  | .number value => value.write
  | .identifier name => name
  | .symbol sign => sign.text

/-- Lexemes are written one behind the other, with any blanks before each of them and behind the
last. -/
inductive Laid : List Lexeme → Text → Prop where
  | nil {gap : Text} (blank : ∀ c ∈ gap, Text.isBlank c = true) : Laid [] gap
  | cons {gap behind : Text} {lexeme : Lexeme} {lexemes : List Lexeme}
      (blank : ∀ c ∈ gap, Text.isBlank c = true) (more : Laid lexemes behind) :
      Laid (lexeme :: lexemes) (gap ++ (lexeme.text ++ behind))

theorem Laid.spaced {lexemes : List Lexeme} {text : Text} (laid : Laid lexemes text)
    (reads : ∀ lexeme ∈ lexemes, lexeme.Reads lexeme.text) : Spaced text lexemes := by
  induction laid with
  | nil blank => exact .nil blank
  | cons blank _ ih =>
    obtain ⟨first, later⟩ := List.forall_mem_cons.mp reads
    exact .cons blank first (ih later)

theorem laid_flatMap (pieces : List (Text × Lexeme))
    (blank : ∀ piece ∈ pieces, ∀ c ∈ piece.1, Text.isBlank c = true) (gap : Text)
    (blank' : ∀ c ∈ gap, Text.isBlank c = true) :
    Laid (pieces.map Prod.snd) (pieces.flatMap (fun piece => piece.1 ++ piece.2.text) ++ gap) := by
  induction pieces with
  | nil => exact .nil blank'
  | cons piece pieces ih =>
    obtain ⟨first, later⟩ := List.forall_mem_cons.mp blank
    simpa using Laid.cons first (ih later)

namespace Expr

def isOperation : Expr → Bool
  | .unary .. | .binary .. => true
  | _ => false

def enclosed (grouped : Bool) (inner : List Lexeme) : List Lexeme :=
  if grouped then .symbol (.opening .round) :: inner ++ [.symbol (.closing .round)] else inner

mutual

def lexemes : Expr → List Lexeme
  | .number value => [.number value]
  | .boolean true => [.identifier ['t', 'r', 'u', 'e']]
  | .boolean false => [.identifier ['f', 'a', 'l', 's', 'e']]
  | .variable name _ => [.identifier name]
  | .list items => .symbol (.opening .square) :: rowLexemes items ++ [.symbol (.closing .square)]
  | .unary operator _ operand =>
    .symbol operator.symbol :: enclosed operand.isOperation (lexemes operand)
  | .binary operator _ left right =>
    enclosed left.isOperation (lexemes left) ++
      .symbol (.operator operator) :: enclosed right.isOperation (lexemes right)
  | .call function _ arguments =>
    .identifier function :: .symbol (.opening .round) :: rowLexemes arguments ++
      [.symbol (.closing .round)]

def rowLexemes : List Expr → List Lexeme
  | [] => []
  | expression :: rest => lexemes expression ++ furtherLexemes rest

def furtherLexemes : List Expr → List Lexeme
  | [] => []
  | expression :: rest => .symbol .comma :: lexemes expression ++ furtherLexemes rest

end

/-- An expression that can be written: its numbers are finite and without a sign, its names are
those that the lexer reads, and no variable has the name of a truth value. -/
inductive Legible : Expr → Prop where
  | number (magnitude : Fin finiteMagnitudes) : Legible (.number (.finite false magnitude))
  | boolean (value : Bool) : Legible (.boolean value)
  | name {name : Text} (isName : Lexer.IsName name) (notTrue : name ≠ ['t', 'r', 'u', 'e'])
      (notFalse : name ≠ ['f', 'a', 'l', 's', 'e']) (position : Nat) :
      Legible (.variable name position)
  | list {items : List Expr} (each : ∀ item ∈ items, Legible item) : Legible (.list items)
  | unary (operator : UnaryOperator) (position : Nat) {operand : Expr} (legible : Legible operand) :
      Legible (.unary operator position operand)
  | binary (operator : BinaryOperator) (position : Nat) {left right : Expr} (legible : Legible left)
      (legible' : Legible right) : Legible (.binary operator position left right)
  | call {function : Text} (isName : Lexer.IsName function) (position : Nat) {arguments : List Expr}
      (each : ∀ argument ∈ arguments, Legible argument) :
      Legible (.call function position arguments)

def Derived (expression : Expr) : Prop :=
  ∃ category, Derives category (unplacedTokens expression.lexemes) expression.unplaced ∧
    (expression.isOperation = false → category = .factor)

theorem derived_of_factor {expression : Expr}
    (derives : Derives .factor (unplacedTokens expression.lexemes) expression.unplaced) :
    expression.Derived :=
  ⟨.factor, derives, fun _ => rfl⟩

theorem derived_of_operation {category : Category} {expression : Expr}
    (operation : expression.isOperation = true)
    (derives : Derives category (unplacedTokens expression.lexemes) expression.unplaced) :
    expression.Derived := by
  refine ⟨category, derives, fun none => ?_⟩
  rw [operation] at none
  cases none

namespace Derived

variable {expression : Expr}

theorem whole (derived : expression.Derived) :
    Derives .disjunction (unplacedTokens expression.lexemes) expression.unplaced := by
  obtain ⟨category, derives, -⟩ := derived
  exact derives.loosen (by cases category <;> decide)

theorem operand (derived : expression.Derived) :
    Derives .factor (unplacedTokens (enclosed expression.isOperation expression.lexemes))
      expression.unplaced := by
  cases operation : expression.isOperation with
  | true =>
    have grouped := Derives.group 0 0 derived.whole
    simpa [enclosed, unplacedTokens] using grouped
  | false =>
    obtain ⟨category, derives, factor⟩ := derived
    exact factor operation ▸ derives

end Derived

theorem derives_furtherLexemes {items : List Expr} (each : ∀ item ∈ items, item.Derived)
    {before : List Token} {trees : List Expr} (row : DerivesItems before trees)
    (some : trees ≠ []) :
    DerivesItems (before ++ unplacedTokens (furtherLexemes items))
      (trees ++ unplacedAll items) := by
  induction items generalizing before trees with
  | nil => simpa [furtherLexemes, unplacedAll, unplacedTokens] using row
  | cons item items ih =>
    obtain ⟨first, later⟩ := List.forall_mem_cons.mp each
    have longer := ih later (row.further some 0 first.whole) (by simp)
    simpa [furtherLexemes, unplacedAll] using longer

theorem derives_rowLexemes {items : List Expr} (each : ∀ item ∈ items, item.Derived) :
    DerivesItems (unplacedTokens (rowLexemes items)) (unplacedAll items) := by
  cases items with
  | nil => exact .none
  | cons item items =>
    obtain ⟨first, later⟩ := List.forall_mem_cons.mp each
    have row := derives_furtherLexemes later (.single first.whole) (by simp)
    simpa [rowLexemes, unplacedAll] using row

theorem reads_around (opening : Symbol) {inner : List Lexeme}
    (reads : ∀ lexeme ∈ inner, lexeme.Reads lexeme.text) (closing : Symbol) :
    ∀ lexeme ∈ .symbol opening :: inner ++ [.symbol closing], lexeme.Reads lexeme.text := by
  intro lexeme member
  simp only [List.cons_append, List.mem_cons, List.mem_append, List.mem_nil_iff, or_false] at member
  rcases member with rfl | member | rfl
  · exact .symbol opening
  · exact reads lexeme member
  · exact .symbol closing

theorem reads_enclosed {grouped : Bool} {inner : List Lexeme}
    (reads : ∀ lexeme ∈ inner, lexeme.Reads lexeme.text) :
    ∀ lexeme ∈ enclosed grouped inner, lexeme.Reads lexeme.text := by
  cases grouped with
  | true => exact reads_around (.opening .round) reads (.closing .round)
  | false => exact reads

theorem reads_further {items : List Expr}
    (each : ∀ item ∈ items, ∀ lexeme ∈ item.lexemes, lexeme.Reads lexeme.text) :
    ∀ lexeme ∈ furtherLexemes items, lexeme.Reads lexeme.text := by
  induction items with
  | nil => exact fun _ member => absurd member List.not_mem_nil
  | cons item items ih =>
    obtain ⟨first, later⟩ := List.forall_mem_cons.mp each
    exact List.forall_mem_append.mpr ⟨List.forall_mem_cons.mpr ⟨.symbol .comma, first⟩, ih later⟩

theorem reads_row {items : List Expr}
    (each : ∀ item ∈ items, ∀ lexeme ∈ item.lexemes, lexeme.Reads lexeme.text) :
    ∀ lexeme ∈ rowLexemes items, lexeme.Reads lexeme.text := by
  cases items with
  | nil => exact fun _ member => absurd member List.not_mem_nil
  | cons item items =>
    obtain ⟨first, later⟩ := List.forall_mem_cons.mp each
    exact List.forall_mem_append.mpr ⟨first, reads_further later⟩

namespace Legible

variable {expression : Expr}

theorem derived (legible : expression.Legible) : expression.Derived := by
  induction legible with
  | number magnitude => exact derived_of_factor (.number (.finite false magnitude) 0)
  | boolean value => cases value <;> exact derived_of_factor (.name _ 0)
  | @name name isName notTrue notFalse position =>
    have derives := Derives.name name 0
    rw [ofIdentifier, if_neg notTrue, if_neg notFalse] at derives
    exact derived_of_factor derives
  | list _ ih =>
    have derives := Derives.list 0 0 (derives_rowLexemes ih)
    exact derived_of_factor (by simpa [lexemes, unplaced, unplacedTokens] using derives)
  | unary operator position _ ih =>
    have derives := Derives.unary operator 0 (ih.operand.loosen (by decide))
    exact derived_of_operation rfl derives
  | binary operator position _ _ ih ih' =>
    obtain ⟨category, left, right, joins⟩ := Joins.exists_joins operator
    have tight (side : Category) : side.rank ≤ Category.factor.rank := by cases side <;> decide
    have derives :=
      Derives.binary joins 0 (ih.operand.loosen (tight left)) (ih'.operand.loosen (tight right))
    exact derived_of_operation rfl (by simpa [lexemes, unplaced] using derives)
  | @call function _ _ _ _ ih =>
    have derives := Derives.call function 0 0 0 (derives_rowLexemes ih)
    exact derived_of_factor (by simpa [lexemes, unplaced, unplacedTokens] using derives)

/-- Each lexeme of an expression is read from what is written for it. -/
theorem reads (legible : expression.Legible) :
    ∀ lexeme ∈ expression.lexemes, lexeme.Reads lexeme.text := by
  induction legible with
  | number magnitude =>
    exact List.forall_mem_singleton.mpr (.number (Lexer.isNumber_magnitude magnitude))
  | boolean value =>
    have word : Lexer.IsName
        (if value then ['t', 'r', 'u', 'e'] else ['f', 'a', 'l', 's', 'e']) := by
      cases value <;> exact .intro (by decide) (by decide) (by decide)
    cases value <;> exact List.forall_mem_singleton.mpr (.name word)
  | name isName => exact List.forall_mem_singleton.mpr (.name isName)
  | list _ ih => exact reads_around (.opening .square) (reads_row ih) (.closing .square)
  | unary operator position _ ih =>
    exact List.forall_mem_cons.mpr ⟨.symbol operator.symbol, reads_enclosed ih⟩
  | binary operator position _ _ ih ih' =>
    exact List.forall_mem_append.mpr ⟨reads_enclosed ih,
      List.forall_mem_cons.mpr ⟨.symbol (.operator operator), reads_enclosed ih'⟩⟩
  | call isName _ _ ih =>
    exact List.forall_mem_cons.mpr
      ⟨.name isName, reads_around (.opening .round) (reads_row ih) (.closing .round)⟩

end Legible

/-- An expression that is written down, with whatever blanks, is parsed as itself, apart from
places. -/
theorem parse_laid {expression : Expr} {text : Text} (legible : expression.Legible)
    (laid : Laid expression.lexemes text) :
    ∃ placed, Expr.parse text = .ok placed ∧ placed.unplaced = expression.unplaced :=
  (laid.spaced legible.reads).parse legible.derived.whole

theorem parse_laid_call :
    let expression : Expr := .call "MAX".toList 0 [
      .list [.unary .minus 0 (.unary .minus 0 (.variable "e1".toList 0)), .boolean true],
      .binary .sub 0 (.number (.finite false ⟨4502148214488346440, by decide⟩))
        (.binary .le 0 (.variable ['x'] 0) (.number (.zero false)))]
    let text := "MAX([-(-e1), true],1e-07 -(\tx<= 0.0))\n".toList
    expression.Legible ∧ Laid expression.lexemes text ∧
      ∃ placed, Expr.parse text = .ok placed ∧ placed.unplaced = expression.unplaced := by
  intro expression text
  have legible : expression.Legible := by
    have max : Lexer.IsName "MAX".toList :=
      .intro (by decide +kernel) (by decide +kernel) (by decide +kernel)
    have e1 : Lexer.IsName "e1".toList :=
      .intro (by decide +kernel) (by decide +kernel) (by decide +kernel)
    have x : Lexer.IsName ['x'] :=
      .intro (by decide +kernel) (by decide +kernel) (by decide +kernel)
    have twice : Legible (.unary .minus 0 (.unary .minus 0 (.variable "e1".toList 0))) :=
      .unary _ _ (.unary _ _ (.name e1 (by decide +kernel) (by decide +kernel) 0))
    have compared : Legible (.binary .le 0 (.variable ['x'] 0) (.number (.zero false))) :=
      .binary _ _ (.name x (by decide +kernel) (by decide +kernel) 0) (.number _)
    have list :=
      Legible.list (List.forall_mem_cons.mpr ⟨twice, List.forall_mem_singleton.mpr (.boolean true)⟩)
    exact .call max 0 (List.forall_mem_cons.mpr
      ⟨list, List.forall_mem_singleton.mpr (.binary _ _ (.number _) compared)⟩)
  let gaps : List Text :=
    [[], [], [], [], [], [], [], [], [], [' '], [], [], [], [' '], [], ['\t'], [], [' '], [], []]
  have laid : Laid expression.lexemes text := by
    have spread :=
      laid_flatMap (gaps.zip expression.lexemes) (by decide +kernel) ['\n'] (by decide +kernel)
    have all : (gaps.zip expression.lexemes).map Prod.snd = expression.lexemes := by decide +kernel
    have same : (gaps.zip expression.lexemes).flatMap (fun piece => piece.1 ++ piece.2.text) ++
          ['\n'] = text := by
      decide +kernel
    rwa [all, same] at spread
  exact ⟨legible, laid, parse_laid legible laid⟩

end Expr
end IndicatorFormula
