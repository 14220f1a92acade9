import IndicatorFormula.Proofs.Substitution.Source
import IndicatorFormula.Substitution.Mode

/-! Filling in is binding.

The text of a tree is filled in and evaluated as the tree is with its references bound to their
numbers. -/

set_option autoImplicit false
namespace IndicatorFormula.Source

mutual

def references : Source → List Reference
  | .number .. | .boolean _ => []
  | .reference found _ => [found]
  | .unary _ operand => references operand
  | .binary _ left right => references left ++ references right
  | .call _ _ _ arguments => allReferences arguments

def allReferences : List Source → List Reference
  | [] => []
  | source :: rest => references source ++ allReferences rest

end

def Binds (environment : Environment) (numbers : Supply) (found : List Reference) : Prop :=
  ∀ reference ∈ found, ∀ x, numbers.double reference = .ok x →
    environment.bindings reference.text = some (.double x)

theorem Binds.left {environment : Environment} {numbers : Supply} {found more : List Reference}
    (binds : Binds environment numbers (found ++ more)) : Binds environment numbers found :=
  fun reference member => binds reference (List.mem_append_left _ member)

theorem Binds.right {environment : Environment} {numbers : Supply} {found more : List Reference}
    (binds : Binds environment numbers (found ++ more)) : Binds environment numbers more :=
  fun reference member => binds reference (List.mem_append_right _ member)

variable {environment : Environment} {numbers : Supply}

theorem double_finite (finite : numbers.Finite) (reference : Reference) :
    ∃ negative m, numbers.double reference = .ok (.finite negative m) := by
  unfold Supply.double
  cases supplied : numbers.number? reference with
  | none => exact ⟨false, _, rfl⟩
  | some x => exact finite reference x supplied

mutual

theorem eval_numberOf (finite : numbers.Finite) :
    (source : Source) → Binds environment numbers source.references →
      (source.tree (numberOf numbers)).eval { functions := environment.functions } =
        source.expr.eval environment
  | .number .. | .boolean _ => fun _ => rfl
  | .reference found _ => by
    intro binds
    obtain ⟨negative, m, value⟩ := double_finite finite found
    have bound := binds found List.mem_cons_self _ value
    simp only [expr, tree, numberOf, value, Expr.eval, bound]
    cases negative <;> rfl
  | .unary operator operand => by
    intro binds
    have same := eval_numberOf finite operand binds
    simp only [expr, tree, Expr.eval] at same ⊢
    rw [same]
  | .binary operator left right => by
    intro binds
    have same := eval_numberOf finite left binds.left
    have same' := eval_numberOf finite right binds.right
    simp only [expr, tree, Expr.eval] at same same' ⊢
    rw [same, same']
  | .call function _ _ arguments => by
    intro binds
    have same := evalAll_numberOf finite arguments binds
    simp only [expr, tree, Expr.eval] at same ⊢
    rw [same]

theorem evalAll_numberOf (finite : numbers.Finite) : (sources : List Source) →
    Binds environment numbers (allReferences sources) →
    Expr.evalAll { functions := environment.functions } (trees (numberOf numbers) sources) =
      Expr.evalAll environment (trees (fun reference => .variable reference.text 0) sources)
  | [] => fun _ => rfl
  | source :: rest => by
    intro binds
    have same := eval_numberOf finite source binds.left
    have same' := evalAll_numberOf finite rest binds.right
    simp only [expr, trees, Expr.evalAll] at same same' ⊢
    rw [same, same']

end

theorem text_ne_nil (layout : SourceLayout) (source : Source) : source.text layout ≠ [] := by
  have some : ∀ grouped, group grouped (source.segments layout) ≠ [] := by
    intro grouped
    cases grouped <;> cases source <;> simp [group, segments]
  have spaced : source.row layout ≠ [] := by
    unfold row
    obtain ⟨first, rest, shape⟩ :=
      List.exists_cons_of_ne_nil (some (layout.aroundWhole && source.isGrouped layout))
    rw [shape]
    cases rest <;> simp
  obtain ⟨first, rest, shape⟩ := List.exists_cons_of_ne_nil spaced
  obtain ⟨c, later, begins, -⟩ := ((regular_row layout source).formed first (by simp [shape])).head
  simp [text, shape, begins]

theorem tree_spelled (finite : numbers.Finite) (layout : SourceLayout) (source : Source) :
    Parser.tree (spelled numbers (source.row layout)) = .ok (source.tree (numberOf numbers)) := by
  have reads : source.IsRead layout numbers := isRead finite source
  have parted : Parser.Parted [] := fun impossible => nomatch impossible
  have closing : Parser.Closing [] := fun _ found => nomatch found
  have whole : Parser.tree (spelled numbers
        (group (layout.aroundWhole && source.isGrouped layout) (source.segments layout))) =
      Parser.complete (.operator [] (source.tree (numberOf numbers))) [] := by
    rw [Parser.tree, ← List.append_nil (spelled _ _)]
    -- Without parentheses around it, the expression begins and ends the text.
    cases layout.aroundWhole with
    | false => exact reads [] false [] (fun _ => ⟨Parser.barrier_nil, closing⟩) parted
    | true => exact reads.group [] false parted
  rw [row, spelled_intersperse, whole]
  rfl

/-- The text of an expression is filled in token by token. -/
theorem fill_text {settings : Settings} {inputs : Inputs} (strict : Bool)
    (never : settings.strategy inputs.strategy = .ok .neverSkip) (finite : inputs.supply.Finite)
    (layout : SourceLayout) (source : Source) :
    ∃ filling, fill settings inputs strict (source.text layout) = pure filling ∧
      filling.result =
        .text
          (((source.row layout).flatMap (Segment.filled inputs.supply)).flatMap Segment.text) := by
  have regular := regular_row layout source
  have proper := proper_row layout source
  have alone : Segment.Alone (source.row layout) :=
    fun lead found tail member => (proper _ member).alone lead found tail rfl
  have capital : (source.row layout).map Segment.capitalized = source.row layout :=
    (List.map_congr_left fun segment member => (proper segment member).capital).trans
      (List.map_id _)
  have scalar : CallPiece.ofText aggregateFunctions (source.text layout) =
      (source.text layout).map .plain := by
    refine regular.ofText_plain fun function head member aggregate => ?_
    have disjoint : ∀ function ∈ aggregateFunctions, function ∉ Builtin.scalars := by decide
    exact disjoint function aggregate ((proper _ member).scalar function head rfl).1
  -- There are neither aggregate functions nor tests, so the first two passes find nothing.
  have untested : CallPiece.ofText nullTest (source.text layout) =
      (source.text layout).map .plain := by
    refine regular.ofText_plain fun function head member test => ?_
    exact ((proper _ member).scalar function head rfl).2 (List.mem_singleton.mp test)
  obtain ⟨filling, filled, result⟩ := fill_of_tested (text_ne_nil layout source) never scalar
    (substituteNullTests_plain _ strict untested) (Segment.literalOrZero_eq finite)
  refine ⟨filling, filled, ?_⟩
  rw [result, text, regular.capitalizeCalls, capital, regular.ofText, Segment.flatMap_filled alone]

/-- The text of an expression is filled in and evaluated as the expression is with its references
bound. -/
theorem evaluate_substituted {settings : Settings} {context : SubstitutionContext}
    (never : settings.strategy context.inputs.strategy = .ok .neverSkip)
    (finite : context.inputs.Finite) (layout : SourceLayout) (source : Source)
    (environment : Environment)
    (binds : Binds environment context.inputs.supply source.references) :
    ∃ filling filled, substitute settings .evaluate context (source.text layout) =
        pure (.filled filling) ∧ filling.result = .text filled ∧
      (evaluate environment.functions filled).mapError Breakdown.unplaced =
        source.expr.eval environment := by
  have finite := Supply.finite_of_inputs finite
  obtain ⟨filling, filled, result⟩ := fill_text context.strict never finite layout source
  refine ⟨filling, _, ?_, result, ?_⟩
  · rw [substitute, filled]
    rfl
  · have regular := (regular_row layout source).flatMap fun segment member =>
      Segment.fits_filled finite ((regular_row layout source).formed segment member)
    rw [evaluate_of_lexes (regular.lexes fun _ _ _ => Segment.reference_not_mem_filled _)
      (tree_spelled finite layout source)]
    exact eval_numberOf finite source binds

/-- A negative value behind a minus sign. -/
theorem evaluate_substituted_negative :
    let source : Source :=
      .binary .sub (.unary .minus (.reference ⟨.days, []⟩ .days))
        (.reference ⟨.dataElementOperand, [['a']]⟩
          (.braced (by decide) (by decide) (by decide) (by decide)))
    let context : SubstitutionContext :=
      { inputs := { values := [(.text ['a'], some (.int (-5)))], days := some (.int 3) } }
    let environment : Environment :=
      { bindings := fun name => some (.double (.ofInt (if name = "[days]".toList then 3 else -5)))
        functions := Builtin.scalars }
    let filled := "( ( - 3.0 ) - (-5.0) )".toList
    source.text ⟨false, true⟩ = "( ( - [days] ) - #{a} )".toList ∧
      (substitute {} .evaluate context (source.text ⟨false, true⟩)).outcome =
        .ok (.filled ⟨.text filled, 1, 1⟩) ∧
      (evaluate Builtin.scalars filled).mapError Breakdown.unplaced = source.expr.eval environment ∧
      (calculate {} true false filled).outcome = .ok (some (.ofInt 2)) := by
  intro source context environment filled
  have written : (substitute {} .evaluate context (source.text ⟨false, true⟩)).outcome =
      .ok (.filled ⟨.text filled, 1, 1⟩) := by decide +kernel
  have finite : context.inputs.Finite := ⟨by decide +kernel, nofun, nofun, by decide +kernel⟩
  have days : context.inputs.supply.double ⟨.days, []⟩ = .ok (.ofInt 3) := by decide +kernel
  have operand : context.inputs.supply.double ⟨.dataElementOperand, [['a']]⟩ =
      .ok (.ofInt (-5)) := by decide +kernel
  have binds : Binds environment context.inputs.supply source.references := by
    intro reference member x bound
    rcases List.mem_cons.mp member with rfl | member
    · cases days.symm.trans bound
      rfl
    · rw [List.mem_singleton.mp member] at bound ⊢
      cases operand.symm.trans bound
      rfl
  obtain ⟨filling, text, fills, result, evaluated⟩ :=
    @evaluate_substituted {} context rfl finite ⟨false, true⟩ source environment binds
  obtain rfl : filling = ⟨.text filled, 1, 1⟩ :=
    Substituted.filled.inj (Traced.eq_of_pure fills written)
  cases result
  exact ⟨by decide +kernel, written, evaluated, by decide +kernel⟩

end IndicatorFormula.Source
