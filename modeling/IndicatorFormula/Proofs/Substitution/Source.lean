import IndicatorFormula.Proofs.Expression.Grouping
import IndicatorFormula.Proofs.Substitution.Filling

/-! Expression trees with references, and their text.

The tokens of a tree stand in a row with a space between neighbours, and parentheses stand around
every operation that is an operand or an argument. -/

set_option autoImplicit false
namespace IndicatorFormula

/-- An expression with references in the place of numbers. -/
inductive Source where
  | number (literal : Text) (value : Double) (isNumber : Lexer.IsNumber literal value)
  | boolean (value : Bool)
  | reference (found : Reference) (legible : found.Legible)
  | unary (operator : UnaryOperator) (operand : Source)
  | binary (operator : BinaryOperator) (left right : Source)
  | call (function : Builtin) (scalar : function ∈ Builtin.scalars) (noTest : function ≠ .isNull)
      (arguments : List Source)

/-- Where parentheses stand besides those around operations within the expression. -/
structure SourceLayout where
  aroundCalls : Bool
  aroundWhole : Bool

namespace Source

mutual

def tree (leaf : Reference → Expr) : Source → Expr
  | .number _ value _ => .number value
  | .boolean value => .boolean value
  | .reference found _ => leaf found
  | .unary operator operand => .unary operator 0 (tree leaf operand)
  | .binary operator left right => .binary operator 0 (tree leaf left) (tree leaf right)
  | .call function _ _ arguments => .call function.name 0 (trees leaf arguments)

def trees (leaf : Reference → Expr) : List Source → List Expr
  | [] => []
  | source :: rest => tree leaf source :: trees leaf rest

end

def expr (source : Source) : Expr :=
  source.tree fun reference => .variable reference.text 0

def isOperation : Source → Bool
  | .unary .. | .binary .. => true
  | _ => false

def isGrouped (layout : SourceLayout) : Source → Bool
  | .unary .. | .binary .. => true
  | .call .. => layout.aroundCalls
  | _ => false

def group (grouped : Bool) (inner : List Segment) : List Segment :=
  if grouped then .symbol (.opening .round) :: inner ++ [.symbol (.closing .round)] else inner

mutual

def segments (layout : SourceLayout) : Source → List Segment
  | .number literal value _ => [.number literal value]
  | .boolean value => [.boolean value]
  | .reference found _ => [.reference [] found []]
  | .unary operator operand =>
    .symbol operator.symbol :: group (operand.isGrouped layout) (segments layout operand)
  | .binary operator left right =>
    group (left.isGrouped layout) (segments layout left) ++
      .symbol (.operator operator) :: group (right.isGrouped layout) (segments layout right)
  | .call function _ _ arguments =>
    .call function ⟨function.name, [' ']⟩ :: argumentSegments layout arguments ++
      [.symbol (.closing .round)]

def argumentSegments (layout : SourceLayout) : List Source → List Segment
  | [] => []
  | source :: rest =>
    group (source.isGrouped layout) (segments layout source) ++ furtherSegments layout rest

def furtherSegments (layout : SourceLayout) : List Source → List Segment
  | [] => []
  | source :: rest =>
    .symbol .comma :: group (source.isGrouped layout) (segments layout source) ++
      furtherSegments layout rest

end

def row (layout : SourceLayout) (source : Source) : List Segment :=
  (group (layout.aroundWhole && source.isGrouped layout) (source.segments layout)).intersperse
    (.blank ' ')

def text (layout : SourceLayout) (source : Source) : Text :=
  (source.row layout).flatMap Segment.text

structure Proper (segment : Segment) : Prop where
  formed : segment.Formed
  capital : segment.capitalized = segment
  alone : ∀ lead found tail, segment = .reference lead found tail → lead = [] ∧ tail = []
  scalar : ∀ function head, segment = .call function head →
    function ∈ Builtin.scalars ∧ function ≠ .isNull

theorem proper_symbol (sign : Symbol) : Proper (.symbol sign) :=
  ⟨.symbol sign, rfl, (fun _ _ _ same => nomatch same), fun _ _ same => nomatch same⟩

theorem proper_group {grouped : Bool} {inner : List Segment}
    (each : ∀ segment ∈ inner, Proper segment) :
    ∀ segment ∈ group grouped inner, Proper segment := by
  -- Only parentheses come in addition.
  unfold group
  split
  · intro segment member
    rcases List.mem_append.mp member with member | member
    · rcases List.mem_cons.mp member with rfl | member
      · exact proper_symbol _
      · exact each segment member
    · rw [List.mem_singleton.mp member]
      exact proper_symbol _
  · exact each

variable (layout : SourceLayout)

theorem calls_name (function : Builtin) : CallHead.Calls ⟨function.name, [' ']⟩ function := by
  refine ⟨List.forall₂_same.mpr ?_, fun c member => ?_⟩
  · cases function <;> decide
  · rw [List.mem_singleton.mp member]
    decide

theorem capital_name (function : Builtin) : function.name.map Text.capital = function.name := by
  cases function <;> decide

mutual

theorem proper_segments : (source : Source) → ∀ segment ∈ source.segments layout, Proper segment
  | .number literal value isNumber => by
    intro segment member
    rw [List.mem_singleton.mp member]
    exact ⟨.number isNumber, rfl, (fun _ _ _ same => nomatch same), fun _ _ same => nomatch same⟩
  | .boolean value => by
    intro segment member
    rw [List.mem_singleton.mp member]
    exact ⟨.boolean value, rfl, (fun _ _ _ same => nomatch same), fun _ _ same => nomatch same⟩
  | .reference found legible => by
    intro segment member
    rw [List.mem_singleton.mp member]
    refine ⟨.reference legible (fun _ none => absurd none List.not_mem_nil)
        (fun none => absurd rfl none) ?_, rfl, ?_, fun _ _ same => nomatch same⟩
    · exact ⟨[], [], rfl, (fun _ none => absurd none List.not_mem_nil), Lexer.isExponent_nil⟩
    · rintro lead found tail ⟨⟩
      exact ⟨rfl, rfl⟩
  | .unary operator operand => by
    intro segment member
    rcases List.mem_cons.mp member with rfl | member
    · exact proper_symbol _
    · exact proper_group (proper_segments operand) segment member
  | .binary operator left right => by
    intro segment member
    rcases List.mem_append.mp member with member | member
    · exact proper_group (proper_segments left) segment member
    rcases List.mem_cons.mp member with rfl | member
    · exact proper_symbol _
    · exact proper_group (proper_segments right) segment member
  | .call function scalar noTest arguments => by
    intro segment member
    rcases List.mem_append.mp member with member | member
    · rcases List.mem_cons.mp member with rfl | member
      · refine ⟨.call (calls_name function), ?_, (fun _ _ _ same => nomatch same), ?_⟩
        · exact congrArg (Segment.call function ⟨·, [' ']⟩) (capital_name function)
        · rintro _ _ ⟨⟩
          exact ⟨scalar, noTest⟩
      · exact proper_arguments arguments segment member
    · rw [List.mem_singleton.mp member]
      exact proper_symbol _

theorem proper_arguments :
    (sources : List Source) → ∀ segment ∈ argumentSegments layout sources, Proper segment
  | [] => fun _ none => absurd none List.not_mem_nil
  | source :: rest => by
    intro segment member
    rcases List.mem_append.mp member with member | member
    · exact proper_group (proper_segments source) segment member
    · exact proper_further rest segment member

theorem proper_further :
    (sources : List Source) → ∀ segment ∈ furtherSegments layout sources, Proper segment
  | [] => fun _ none => absurd none List.not_mem_nil
  | source :: rest => by
    intro segment member
    rcases List.mem_append.mp member with member | member
    · rcases List.mem_cons.mp member with rfl | member
      · exact proper_symbol _
      · exact proper_group (proper_segments source) segment member
    · exact proper_further rest segment member

end

theorem mem_intersperse {α : Type} {separator item : α} {items : List α}
    (member : item ∈ items.intersperse separator) : item ∈ items ∨ item = separator := by
  induction items with
  | nil => exact .inl member
  | cons first items ih =>
    cases items with
    | nil => exact .inl member
    | cons second items =>
      rw [List.intersperse_cons_cons] at member
      rcases List.mem_cons.mp member with rfl | member
      · exact .inl List.mem_cons_self
      rcases List.mem_cons.mp member with rfl | member
      · exact .inr rfl
      · exact (ih member).imp (List.mem_cons_of_mem _) id

theorem proper_row (source : Source) : ∀ segment ∈ source.row layout, Proper segment := by
  intro segment member
  rcases mem_intersperse member with member | rfl
  · exact proper_group (proper_segments layout source) segment member
  · exact ⟨.blank (by decide), rfl, (fun _ _ _ same => nomatch same), fun _ _ same => nomatch same⟩

theorem isChain_intersperse (segments : List Segment) :
    (segments.intersperse (.blank ' ')).IsChain Segment.Apart := by
  have before : ∀ segment, Segment.Apart segment (.blank ' ') :=
    fun _ => ⟨fun _ => rfl, fun _ _ _ impossible => nomatch impossible⟩
  have behind : ∀ segment, Segment.Apart (.blank ' ') segment :=
    fun _ => ⟨(fun impossible => nomatch impossible), fun _ _ impossible => nomatch impossible⟩
  induction segments with
  | nil => exact .nil
  | cons first segments ih =>
    cases segments with
    | nil => exact .singleton _
    | cons second segments =>
      rw [List.intersperse_cons_cons]
      refine .cons_cons (before first) (ih.cons fun _ _ => behind _)

theorem regular_row (source : Source) : Segment.Regular (source.row layout) :=
  ⟨fun segment member => (proper_row layout source segment member).formed, isChain_intersperse _⟩

def spelled (numbers : Supply) (segments : List Segment) : List Lexeme :=
  (segments.flatMap (Segment.filled numbers)).flatMap Segment.lexemes

theorem spelled_append (numbers : Supply) (segments more : List Segment) :
    spelled numbers (segments ++ more) = spelled numbers segments ++ spelled numbers more := by
  simp [spelled]

theorem spelled_cons (numbers : Supply) (segment : Segment) (more : List Segment) :
    spelled numbers (segment :: more) =
      (segment.filled numbers).flatMap Segment.lexemes ++ spelled numbers more := by
  simp [spelled]

theorem spelled_intersperse (numbers : Supply) (segments : List Segment) :
    spelled numbers (segments.intersperse (.blank ' ')) = spelled numbers segments := by
  induction segments with
  | nil => rfl
  | cons first segments ih =>
    cases segments with
    | nil => rfl
    | cons second segments =>
      rw [List.intersperse_cons_cons, spelled_cons, spelled_cons, ih, spelled_cons numbers first]
      rfl

def numberOf (numbers : Supply) (reference : Reference) : Expr :=
  match numbers.double reference with
  | .ok (.finite true m) => .unary .minus 0 (.number (.finite false m))
  | .ok value => .number value
  | .error _ => .number .nan

variable {layout} {numbers : Supply}

def IsRead (layout : SourceLayout) (numbers : Supply) (source : Source) : Prop :=
  ∀ frames empty rest, (source.isOperation = true → Parser.Barrier frames ∧ Parser.Closing rest) →
    Parser.Parted rest →
    Parser.complete (.operand frames empty) (spelled numbers (source.segments layout) ++ rest) =
      Parser.complete (.operator frames (source.tree (numberOf numbers))) rest

theorem IsRead.group {source : Source} (reads : source.IsRead layout numbers)
    (frames : List Parser.Frame) (empty : Bool) {rest : List Lexeme} (parted : Parser.Parted rest) :
    Parser.complete (.operand frames empty) (spelled numbers
          (Source.group (source.isGrouped layout) (source.segments layout)) ++ rest) =
      Parser.complete (.operator frames (source.tree (numberOf numbers))) rest := by
  by_cases grouped : source.isGrouped layout = true
  · have closing : Parser.Closing (.symbol (.closing .round) :: rest) := by
      rintro lexeme ⟨⟩
      exact .inr ⟨.round, rfl⟩
    -- Within parentheses nothing waits on the left, and the closing one ends it on the right.
    have inner := reads (.group :: frames) false (.symbol (.closing .round) :: rest)
      (fun _ => ⟨Parser.barrier_group frames, closing⟩) closing.parted
    rw [Parser.complete_closing] at inner
    rw [← inner, Source.group, if_pos grouped, List.cons_append, spelled_cons, spelled_append,
      ← Parser.complete_opening empty]
    simp [spelled, Segment.filled, Segment.lexemes]
  · rw [Source.group, if_neg grouped]
    refine reads frames empty rest (fun operation => absurd ?_ grouped) parted
    cases source <;> first | rfl | cases operation

theorem isRead_reference (finite : numbers.Finite) (found : Reference) (legible : found.Legible) :
    IsRead layout numbers (.reference found legible) := by
  intro frames empty rest _ _
  have same : spelled numbers (segments layout (.reference found legible)) =
      (Segment.ofReference numbers found).flatMap Segment.lexemes := by
    simp [segments, spelled, Segment.filled]
  rw [same, Segment.ofReference, tree, numberOf, Supply.double]
  cases supplied : numbers.number? found with
  | none => exact Parser.complete_cons rfl rest
  | some x =>
    obtain ⟨negative, m, value⟩ := finite found x supplied
    simp only [value]
    cases negative with
    | false => exact Parser.complete_cons rfl rest
    | true =>
      refine (Parser.complete_opening empty).trans ?_
      refine (Parser.complete_sign .minus false).trans ?_
      exact (Parser.complete_cons rfl _).trans (Parser.complete_cons rfl rest)

theorem parted_further (layout : SourceLayout) (numbers : Supply) (sources : List Source)
    (rest : List Lexeme) :
    Parser.Parted
      (spelled numbers (furtherSegments layout sources) ++ .symbol (.closing .round) :: rest) := by
  cases sources <;> rintro ⟨⟩

mutual

theorem isRead (finite : numbers.Finite) : (source : Source) → source.IsRead layout numbers
  | .number literal value isNumber => fun frames empty rest _ _ => Parser.complete_cons rfl rest
  | .boolean value => by
    intro frames empty rest _ parted
    have truth : Expr.ofIdentifier (Segment.boolean value).text 0 = .boolean value := by
      cases value <;> rfl
    rw [tree, ← truth, ← Parser.complete_name parted]
    exact Parser.complete_cons rfl rest
  | .reference found legible => isRead_reference finite found legible
  | .unary operator operand => by
    intro frames empty rest ends parted
    obtain ⟨-, closing⟩ := ends rfl
    -- The operand is read behind the sign, which is then applied because the operation ends.
    have inner := (isRead finite operand).group (.unary operator 0 :: frames) false parted
    rw [segments, spelled_cons, tree,
      ← Parser.complete_reduced closing (Parser.reduce_unary operator frames _), ← inner]
    exact Parser.complete_sign operator empty
  | .binary operator left right => by
    intro frames empty rest ends parted
    obtain ⟨barrier, closing⟩ := ends rfl
    have parted' : Parser.Parted (.symbol (.operator operator) ::
        (spelled numbers (Source.group (right.isGrouped layout) (right.segments layout)) ++
          rest)) := by
      rintro ⟨⟩
    -- Nothing on the left waits for the first operand, so the operator takes it, and then the
    -- second one.
    have first := (isRead finite left).group frames empty parted'
    have second := (isRead finite right).group
      (.binary operator 0 (left.tree (numberOf numbers)) :: frames) false parted
    rw [tree, ← Parser.complete_reduced closing (Parser.reduce_binary operator _ frames _),
      ← second, ← Parser.complete_operator operator barrier, ← first, segments, spelled_append,
      spelled_cons]
    simp [Segment.filled, Segment.lexemes]
  | .call function _ _ arguments => by
    intro frames empty rest _ _
    have inner := isRead_arguments finite arguments function.name frames rest
    rw [tree, ← inner, segments, List.cons_append, spelled_cons, spelled_append]
    refine (Parser.complete_cons rfl _).trans ((Parser.complete_cons rfl _).trans ?_)
    simp [spelled, Segment.filled, Segment.lexemes]

theorem isRead_arguments (finite : numbers.Finite) : (sources : List Source) → ∀ name frames rest,
    Parser.complete (.operand (.call name 0 [] :: frames) true)
        (spelled numbers (argumentSegments layout sources) ++ .symbol (.closing .round) :: rest) =
      Parser.complete (.operator frames (.call name 0 (trees (numberOf numbers) sources))) rest
  | [] => fun _ _ _ => Parser.complete_cons rfl _
  | source :: more => by
    intro name frames rest
    have further := isRead_further finite more name frames rest [] (source.tree (numberOf numbers))
    have first := (isRead finite source).group (.call name 0 [] :: frames) true
      (parted_further layout numbers more rest)
    rw [argumentSegments, spelled_append, List.append_assoc, first, further]
    rfl

theorem isRead_further (finite : numbers.Finite) :
    (sources : List Source) →
      ∀ name frames rest done last, Parser.complete (.operator (.call name 0 done :: frames) last)
          (spelled numbers (furtherSegments layout sources) ++ .symbol (.closing .round) :: rest) =
        Parser.complete
          (.operator frames (.call name 0 (done ++ last :: trees (numberOf numbers) sources))) rest
  | [] => fun _ _ _ _ _ => Parser.complete_cons rfl _
  | source :: more => by
    intro name frames rest done last
    -- What has been read joins the arguments that are done.
    have further :=
      isRead_further finite more name frames rest (done ++ [last]) (source.tree (numberOf numbers))
    have next := (isRead finite source).group (.call name 0 (done ++ [last]) :: frames) false
      (parted_further layout numbers more rest)
    rw [List.append_assoc, List.singleton_append] at further
    rw [furtherSegments, List.cons_append, spelled_cons, spelled_append, trees, ← further, ← next,
      ← Parser.complete_comma]
    simp [Segment.filled, Segment.lexemes]

end

end Source
end IndicatorFormula
