import IndicatorFormula.Proofs.Expression.Tiling
import IndicatorFormula.Proofs.Substitution.Places

/-! The calls that are found in a text are the calls of its tree.

A text that is parsed has its tokens at their places, with blanks between them. Between the tokens
of an expression and the bracket, comma or operator behind it nothing makes a name a call, so an
expression is scanned by itself, and the calls that are found in it are those of its tree. -/

set_option autoImplicit false
namespace IndicatorFormula

def namesFunction (name : Text) : Bool :=
  Builtin.all.any fun function => Text.spelled? function.name name == some (name, [])

theorem namesFunction_iff {name : Text} :
    namesFunction name = true ↔ ∃ function ∈ Builtin.all, Text.Spelling function.name name := by
  unfold namesFunction
  rw [List.any_eq_true]
  refine exists_congr fun function => and_congr_right fun _ => ?_
  constructor
  · intro spelled
    exact Text.spelling_of_spelled? (beq_iff_eq.mp spelled)
  · intro spelling
    have spelled := Text.spelled?_append spelling []
    rw [List.append_nil] at spelled
    exact beq_iff_eq.mpr spelled

structure CallNode where
  function : Text
  position : Nat
  arguments : List Expr

mutual

/-- The calls of functions in a tree, from left to right, apart from those in arguments of
others. -/
def Expr.outerCalls : Expr → List CallNode
  | .number _ | .boolean _ | .variable .. => []
  | .list items => outerCallsAll items
  | .unary _ _ operand => operand.outerCalls
  | .binary _ _ left right => left.outerCalls ++ right.outerCalls
  | .call function position arguments =>
    if namesFunction function then [⟨function, position, arguments⟩] else outerCallsAll arguments

def Expr.outerCallsAll : List Expr → List CallNode
  | [] => []
  | item :: items => item.outerCalls ++ outerCallsAll items

end

theorem Expr.outerCallsAll_append (first second : List Expr) :
    outerCallsAll (first ++ second) = outerCallsAll first ++ outerCallsAll second := by
  induction first with
  | nil => rfl
  | cons item first ih => rw [List.cons_append, outerCallsAll, outerCallsAll, ih, List.append_assoc]

theorem Expr.outerCalls_ofIdentifier (name : Text) (position : Nat) :
    (ofIdentifier name position).outerCalls = [] := by
  unfold ofIdentifier
  split
  · rfl
  · split <;> rfl

/-- A call of a tree stands at a place in the text: it begins with the name, its argument begins
behind the opening bracket and ends at the closing one, and its arguments are what stands between
these. -/
structure CallNode.StandsAt (tokens : List Token) (call : CallNode) (site : CallSite) : Prop where
  name : site.head.name = call.function
  start : site.start = call.position
  brackets : ∃ before inside behind opening closing, tokens =
      before ++ ⟨.identifier call.function, call.position⟩ ::
        ⟨.symbol (.opening .round), opening⟩ ::
        (inside ++ ⟨.symbol (.closing .round), closing⟩ :: behind) ∧
    DerivesItems inside call.arguments ∧ site.argumentStart = opening + 1 ∧
    site.closing? = some closing

theorem CallNode.StandsAt.within {tokens : List Token} {call : CallNode} {site : CallSite}
    (stands : call.StandsAt tokens site) (lead tail : List Token) :
    call.StandsAt (lead ++ (tokens ++ tail)) site := by
  obtain ⟨name, start, before, inside, behind, opening, closing, rfl, items, begins, ends⟩ := stands
  exact ⟨name, start, lead ++ before, inside, behind ++ tail, opening, closing, by simp, items,
    begins, ends⟩

inductive Lexeme.Spelled : Lexeme → Text → Prop where
  | number {literal : Text} {value : Double} (number : Lexer.IsNumber literal value) :
      Spelled (.number value) literal
  | identifier {name : Text} (word : ∀ c ∈ name, Text.isWord c = true) :
      Spelled (.identifier name) name
  | symbol (sign : Symbol) : Spelled (.symbol sign) sign.text

theorem Lexeme.Reads.spelled {lexeme : Lexeme} {lead : Text} (reads : lexeme.Reads lead) :
    lexeme.Spelled lead := by
  cases reads with
  | number number => exact .number number
  | name isName =>
    cases isName with
    | intro start letter word =>
      exact .identifier (List.forall_mem_cons.mpr ⟨Lexer.isWord_of_isWordStart start, word⟩)
  | symbol sign => exact .symbol sign

inductive Written : Nat → Text → List Token → Prop where
  | nil {position : Nat} {gap : Text} (blank : ∀ c ∈ gap, Text.isBlank c = true) :
      Written position gap []
  | cons {position : Nat} {gap lead behind : Text} {lexeme : Lexeme} {tokens : List Token}
      (blank : ∀ c ∈ gap, Text.isBlank c = true) (spelled : lexeme.Spelled lead)
      (more : Written (position + gap.length + lead.length) behind tokens) :
      Written position (gap ++ (lead ++ behind)) (⟨lexeme, position + gap.length⟩ :: tokens)

namespace Written

variable {position : Nat} {text : Text} {tokens first second : List Token}

theorem blank {c : Char} (blank : Text.isBlank c = true)
    (written : Written (position + 1) text tokens) : Written position (c :: text) tokens := by
  cases written with
  | nil gap => exact .nil (List.forall_mem_cons.mpr ⟨blank, gap⟩)
  | @cons _ gap lead behind lexeme tokens gaps spelled more =>
    have shift : position + 1 + gap.length = position + (c :: gap).length := by
      rw [List.length_cons]
      omega
    rw [shift] at more ⊢
    exact .cons (List.forall_mem_cons.mpr ⟨blank, gaps⟩) spelled more

theorem of_tokensFrom (cut : Lexer.tokensFrom position text = .ok tokens) :
    Written position text tokens := by
  fun_induction Lexer.tokensFrom position text generalizing tokens with
  | case1 position =>
    cases cut
    exact .nil (fun _ member => absurd member List.not_mem_nil)
  | case2 position c rest reason step => cases cut
  | case3 position c rest lexeme behind step ih =>
    obtain ⟨later, found, same⟩ := bind_eq_ok_iff.mp cut
    cases same
    have more := ih found
    cases lexeme with
    | none =>
      obtain ⟨isBlank, rfl⟩ := Lexer.blank_of_next step
      rw [Nat.add_sub_cancel_left] at more
      exact more.blank isBlank
    | some lexeme =>
      obtain ⟨lead, whole, reads⟩ := Lexer.reads_of_next step
      rw [Lexer.length_read whole] at more
      rw [whole]
      have none : ∀ c ∈ ([] : Text), Text.isBlank c = true :=
        fun _ member => absurd member List.not_mem_nil
      exact .cons none reads.spelled more

theorem append (written : Written position text (first ++ second)) :
    ∃ lead tail, text = lead ++ tail ∧ Written position lead first ∧
      Written (position + lead.length) tail second := by
  induction first generalizing position text with
  | nil => exact ⟨[], text, rfl, .nil (fun _ member => absurd member List.not_mem_nil), written⟩
  | cons token first ih =>
    cases written with
    | @cons _ gap word behind lexeme _ blank spelled more =>
      obtain ⟨lead, tail, rfl, inside, outside⟩ := ih more
      refine ⟨gap ++ (word ++ lead), tail, by simp, .cons blank spelled inside, ?_⟩
      simpa [Nat.add_assoc] using outside

theorem depth?_eq (written : Written position text tokens) (depth : Nat) :
    depth? Text.nesting depth text = depth? Token.nesting depth tokens := by
  have gaps : ∀ {gap : Text}, (∀ c ∈ gap, Text.isBlank c = true) → Balanced Text.nesting gap :=
    fun blank =>
    balanced_of_stays fun c member => Text.stays_of_isBlank (blank c member)
  induction written generalizing depth with
  | nil blank => exact gaps blank depth
  | @cons position gap lead behind lexeme tokens blank spelled more ih =>
    have own : depth? Text.nesting depth lead = lexeme.nesting.turn depth := by
      cases spelled with
      | number number => exact Segment.balanced_literal number.isLiteral depth
      | identifier word =>
        exact balanced_of_stays (fun c member => Text.stays_of_isWord (word c member)) depth
      | symbol sign =>
        exact (Segment.Formed.symbol sign).depth?_text depth |>.trans (by cases sign <;> rfl)
    rw [(gaps blank).depth?_eq, depth?_append, own, depth?_cons]
    congr 1
    funext deeper
    exact ih deeper

end Written

def sitesFrom (position : Nat) (text : Text) : List CallSite :=
  CallPiece.sites position (CallPiece.ofTextFrom Builtin.all false text)

section Silent

variable {position : Nat} {text behind : Text}

theorem sitesFrom_plain (same : CallPiece.ofTextFrom Builtin.all false (text ++ behind) =
      text.map .plain ++ CallPiece.ofTextFrom Builtin.all false behind) :
    sitesFrom position (text ++ behind) = sitesFrom (position + text.length) behind := by
  have whole : (text.map CallPiece.plain).flatMap CallPiece.text = text := by
    simp [List.flatMap_map, CallPiece.text]
  rw [sitesFrom, same, CallPiece.sites_append, CallPiece.sites_plain, whole]
  rfl

theorem sitesFrom_silent (silent : Silent (CallHead.read? Builtin.all) false text behind)
    (ends : ∀ c ∈ behind.head?, Text.isWord c = false) :
    sitesFrom position (text ++ behind) = sitesFrom (position + text.length) behind :=
  sitesFrom_plain (CallHead.ofTextFrom_silent silent ends)

theorem sitesFrom_unword (plain : ∀ c ∈ text, Text.isWord c = false) :
    sitesFrom position (text ++ behind) = sitesFrom (position + text.length) behind :=
  sitesFrom_plain (CallHead.ofTextFrom_unword plain)

theorem sitesFrom_gap (blank : ∀ c ∈ text, Text.isBlank c = true) :
    sitesFrom position (text ++ behind) = sitesFrom (position + text.length) behind :=
  sitesFrom_unword fun c member => Text.isWord_of_isBlank (blank c member)

end Silent

/-- Neither a word nor a call goes on in a text. -/
structure EndsName (behind : Text) : Prop where
  word : ∀ c ∈ behind.head?, Text.isWord c = false
  call : (behind.dropWhile Text.isBlank).head? ≠ some '('

theorem EndsName.nil : EndsName [] :=
  ⟨by simp, by simp⟩

theorem EndsName.gap {gap behind : Text} (blank : ∀ c ∈ gap, Text.isBlank c = true)
    (ends : EndsName behind) : EndsName (gap ++ behind) := by
  refine ⟨?_, by rw [List.dropWhile_append_of_pos blank]; exact ends.call⟩
  cases gap with
  | nil => exact ends.word
  | cons c gap =>
    rintro d ⟨⟩
    exact Text.isWord_of_isBlank (blank c List.mem_cons_self)

theorem EndsName.symbol {sign : Symbol} (other : sign ≠ .opening .round) (behind : Text) :
    EndsName (sign.text ++ behind) := by
  have marks : ∀ c ∈ sign.text, Lexer.isMark c = true := fun _ => Lexer.isMark_of_mem_text
  obtain ⟨c, rest, shape⟩ := List.exists_cons_of_ne_nil (Segment.symbol_text_ne_nil sign)
  have first : c ≠ '(' := by
    rintro rfl
    revert shape
    cases sign with
    | opening bracket | closing bracket =>
      cases bracket <;> first | exact absurd rfl other | exact nofun
    | operator operator => cases operator <;> exact nofun
    | _ => exact nofun
  have mark := marks c (by simp [shape])
  simp only [Lexer.isMark, Bool.and_eq_true, Bool.not_eq_true'] at mark
  rw [shape]
  refine ⟨?_, ?_⟩
  · rintro d ⟨⟩
    exact mark.1.2
  · rw [List.cons_append, List.dropWhile_cons_of_neg (by simp [mark.1.1])]
    simpa using first

namespace Written

variable {position place : Nat} {text : Text} {tokens : List Token} {sign : Symbol}

theorem word_of_symbol (written : Written position text (⟨.symbol sign, place⟩ :: tokens))
    (behind : Text) : ∀ c ∈ (text ++ behind).head?, Text.isWord c = false := by
  cases written with
  | @cons _ gap _ rest _ _ blank spelled =>
    cases spelled
    cases gap with
    | cons c gap =>
      rintro d ⟨⟩
      exact Text.isWord_of_isBlank (blank _ List.mem_cons_self)
    | nil =>
      obtain ⟨c, later, shape⟩ := List.exists_cons_of_ne_nil (Segment.symbol_text_ne_nil sign)
      have member : c ∈ sign.text := by simp [shape]
      rw [shape]
      rintro d ⟨⟩
      exact Segment.isWord_of_mem_symbol member

theorem endsName_of_symbol (written : Written position text (⟨.symbol sign, place⟩ :: tokens))
    (other : sign ≠ .opening .round) (behind : Text) : EndsName (text ++ behind) := by
  cases written with
  | cons blank spelled =>
    cases spelled
    rw [List.append_assoc, List.append_assoc]
    exact (EndsName.symbol other _).gap blank

theorem call {name : Text} {opening closing : Nat}
    (written : Written position text (⟨.identifier name, place⟩ ::
      ⟨.symbol (.opening .round), opening⟩ :: (tokens ++ [⟨.symbol (.closing .round), closing⟩]))) :
    ∃ gap gap' inside last behind, text =
        gap ++ (CallHead.text ⟨name, gap'⟩ ++ (inside ++ last ++ ')' :: behind)) ∧
      (∀ c ∈ gap ++ (gap' ++ (last ++ behind)), Text.isBlank c = true) ∧
      Written (opening + 1) inside tokens ∧ place = position + gap.length ∧
      opening + 1 = place + (CallHead.text ⟨name, gap'⟩).length ∧
      closing = opening + 1 + (inside ++ last).length := by
  cases written with
  | @cons _ gap _ _ _ _ blank spelled more =>
  cases spelled
  cases more with
  | @cons _ gap' _ _ _ _ blank' spelled more =>
  cases spelled
  obtain ⟨inside, tail, rfl, items, outside⟩ := more.append
  cases outside with
  | @cons _ last _ behind _ _ closeBlank spelled more =>
  cases spelled
  cases more with
  | nil trailing =>
  refine ⟨gap, gap', inside, last, behind, ?_, ?_, items, rfl, ?_, ?_⟩
  · simp [CallHead.text, Symbol.text]
  · simp only [List.forall_mem_append]
    exact ⟨blank, blank', closeBlank, trailing⟩
  · simp [CallHead.text, Nat.add_assoc]
  · simp [Symbol.text, Nat.add_assoc]

theorem balanced_argument {arguments : List Expr} {gap : Text}
    (written : Written position text tokens) (derives : DerivesItems tokens arguments)
    (blank : ∀ c ∈ gap, Text.isBlank c = true) : Balanced Text.nesting (text ++ gap) := by
  refine Balanced.append (fun depth => ?_)
    (balanced_of_stays fun c member => Text.stays_of_isBlank (blank c member))
  rw [written.depth?_eq]
  exact balanced_of_derivesItems derives depth

end Written

/-- Wherever tokens are written, and no name of them goes on in what follows, these calls are found
in them. -/
def Scanned (tokens : List Token) (calls : List CallNode) : Prop :=
  ∀ (position : Nat) (text behind : Text), Written position text tokens → EndsName behind →
    ∃ sites, List.Forall₂ (CallNode.StandsAt tokens) calls sites ∧
      sitesFrom position (text ++ behind) = sites ++ sitesFrom (position + text.length) behind

namespace Scanned

variable {tokens before after : List Token} {calls first second : List CallNode} {sign : Symbol}
  {place : Nat}

theorem nil : Scanned [] [] := by
  rintro position text behind (_ | _) ends
  rename_i blank
  exact ⟨[], .nil, sitesFrom_gap blank⟩

theorem symbol (scanned : Scanned tokens calls) :
    Scanned (⟨.symbol sign, place⟩ :: tokens) calls := by
  intro position text behind written ends
  cases written with
  | cons blank spelled more =>
    cases spelled
    obtain ⟨sites, stand, found⟩ := scanned _ _ _ more ends
    refine ⟨sites,
      stand.imp fun call site stands => by simpa using stands.within [⟨.symbol sign, _⟩] [], ?_⟩
    rw [List.append_assoc, List.append_assoc, sitesFrom_gap blank,
      sitesFrom_unword fun c => Segment.isWord_of_mem_symbol, found]
    simp [Nat.add_assoc]

/-- A symbol that opens no call separates what is in front of it from what is behind. -/
theorem join (scanned : Scanned before first) (other : sign ≠ .opening .round)
    (scanned' : Scanned after second) :
    Scanned (before ++ ⟨.symbol sign, place⟩ :: after) (first ++ second) := by
  intro position text behind written ends
  obtain ⟨lead, tail, rfl, inside, outside⟩ := written.append
  obtain ⟨sites, stand, found⟩ := scanned _ _ _ inside (outside.endsName_of_symbol other behind)
  obtain ⟨sites', stand', found'⟩ := scanned'.symbol _ _ _ outside ends
  refine ⟨sites ++ sites', ?_, ?_⟩
  · refine List.rel_append (stand.imp fun call site stands => ?_)
      (stand'.imp fun call site stands => ?_)
    · exact stands.within [] _
    · simpa using stands.within before []
  · rw [List.append_assoc, found, found', List.length_append, Nat.add_assoc, List.append_assoc]

theorem number (value : Double) : Scanned [⟨.number value, place⟩] [] := by
  intro position text behind written ends
  cases written with
  | cons blank spelled more =>
    cases spelled with
    | number number =>
      cases more with
      | nil blank' =>
        refine ⟨[], .nil, ?_⟩
        rw [List.append_assoc, List.append_assoc, sitesFrom_gap blank,
          sitesFrom_silent (Segment.silent_literal number.isLiteral) (ends.gap blank').word,
          sitesFrom_gap blank']
        simp [Nat.add_assoc]

theorem name (name : Text) : Scanned [⟨.identifier name, place⟩] [] := by
  intro position text behind written ends
  cases written with
  | cons blank spelled more =>
    cases spelled with
    | identifier word =>
      cases more with
      | nil blank' =>
        have ends := ends.gap blank'
        refine ⟨[], .nil, ?_⟩
        rw [List.append_assoc, List.append_assoc, sitesFrom_gap blank,
          sitesFrom_silent (CallHead.silent_name word ends.word (.inr ends.call)) ends.word,
          sitesFrom_gap blank']
        simp [Nat.add_assoc]

theorem close (scanned : Scanned tokens calls) (bracket : Bracket) (closing : Nat) :
    Scanned (tokens ++ [⟨.symbol (.closing bracket), closing⟩]) calls := by
  have closed : Scanned (tokens ++ ⟨.symbol (.closing bracket), closing⟩ :: []) (calls ++ []) :=
    scanned.join (fun impossible => nomatch impossible) nil
  rwa [List.append_nil] at closed

theorem unknown {name : Text} {opening : Nat} (unknown : namesFunction name = false)
    (scanned : Scanned tokens calls) :
    Scanned (⟨.identifier name, place⟩ :: ⟨.symbol (.opening .round), opening⟩ :: tokens)
      calls := by
  intro position text behind written ends
  cases written with
  | @cons _ gap _ rest _ _ blank spelled more =>
    cases spelled with
    | identifier word =>
      obtain ⟨sites, stand, found⟩ := scanned.symbol _ _ _ more ends
      have stops := more.word_of_symbol behind
      have other : ∀ function ∈ Builtin.all, ¬ Text.Spelling function.name name :=
        fun function member spelling => by
        rw [namesFunction_iff.mpr ⟨function, member, spelling⟩] at unknown
        cases unknown
      refine ⟨sites,
        stand.imp fun call site stands => by simpa using stands.within [⟨.identifier name, _⟩] [],
        ?_⟩
      rw [List.append_assoc, List.append_assoc, sitesFrom_gap blank,
        sitesFrom_silent (CallHead.silent_name word stops (.inl other)) stops, found]
      simp [Nat.add_assoc]

theorem known {name : Text} {opening closing : Nat} {arguments : List Expr}
    (known : namesFunction name = true) (derives : DerivesItems tokens arguments) :
    Scanned (⟨.identifier name, place⟩ :: ⟨.symbol (.opening .round), opening⟩ :: tokens ++
      [⟨.symbol (.closing .round), closing⟩]) [⟨name, place, arguments⟩] := by
  intro position text behind written ends
  obtain ⟨function, member, spelling⟩ := namesFunction_iff.mp known
  obtain ⟨gap, gap', inside, last, later, rfl, blanks, items, rfl, opens, closes⟩ := written.call
  simp only [List.forall_mem_append] at blanks
  obtain ⟨blank, blank', closeBlank, trailing⟩ := blanks
  have calls : CallHead.Calls ⟨name, gap'⟩ function := ⟨spelling, blank'⟩
  -- The argument reaches from the opening bracket to the closing one, with the blanks around its
  -- tokens.
  have found : CallPiece.ofTextFrom Builtin.all false
        (CallHead.text ⟨name, gap'⟩ ++ (inside ++ last ++ ')' :: (later ++ behind))) =
      .call ⟨name, gap'⟩ (inside ++ last) ')' ::
        CallPiece.ofTextFrom Builtin.all false (later ++ behind) := by
    rw [CallPiece.ofTextFrom_head member calls,
      CallPiece.ofHead_append _ (items.balanced_argument derives closeBlank) rfl]
  have behindCall : ∀ {position : Nat},
      CallPiece.sites position (CallPiece.ofTextFrom Builtin.all false (later ++ behind)) =
        sitesFrom (position + later.length) behind := sitesFrom_gap trailing
  refine ⟨[⟨⟨name, gap'⟩, position + gap.length, some (inside ++ last)⟩],
    .cons ⟨rfl, rfl, [], tokens, [], opening, closing, by simp, derives, opens.symm, ?_⟩ .nil, ?_⟩
  · rw [CallSite.closing?, CallSite.argumentStart, ← opens, closes]
    rfl
  · simp only [List.append_assoc, List.cons_append]
    rw [sitesFrom_gap blank, sitesFrom, ← List.append_assoc inside, found, CallPiece.sites,
      behindCall]
    refine congrArg (_ :: sitesFrom · behind) ?_
    simp [CallPiece.text]
    omega

end Scanned

mutual

/-- The calls of an expression are found where it is written. -/
theorem scanned_of_derives : {category : Category} → {tokens : List Token} → {tree : Expr} →
    Derives category tokens tree → Scanned tokens tree.outerCalls
  | _, _, _, .tighter _ derives => scanned_of_derives derives
  | _, _, _, .binary _ _ derives derives' =>
    (scanned_of_derives derives).join nofun (scanned_of_derives derives')
  | _, _, _, .unary _ _ derives => (scanned_of_derives derives).symbol
  | _, _, _, .number value _ => .number value
  | _, _, _, .name name position => by
    rw [Expr.outerCalls_ofIdentifier]
    exact .name name
  | _, _, _, .group _ closing derives => ((scanned_of_derives derives).close .round closing).symbol
  | _, _, _, .list _ closing derives =>
    ((scanned_of_derivesItems derives).close .square closing).symbol
  | _, _, _, .call name _ _ closing derives => by
    unfold Expr.outerCalls
    split
    · rename_i known
      exact .known known derives
    · rename_i other
      exact .unknown (by simpa using other) ((scanned_of_derivesItems derives).close .round closing)

theorem scanned_of_derivesItems : {tokens : List Token} → {items : List Expr} →
    DerivesItems tokens items → Scanned tokens (Expr.outerCallsAll items)
  | _, _, .none => .nil
  | _, _, .single derives => by
    rw [Expr.outerCallsAll, Expr.outerCallsAll, List.append_nil]
    exact scanned_of_derives derives
  | _, _, .further items _ _ derives => by
    rw [Expr.outerCallsAll_append, Expr.outerCallsAll, Expr.outerCallsAll, List.append_nil]
    exact (scanned_of_derivesItems items).join nofun (scanned_of_derives derives)

end

/-- The calls that are found in a text that is parsed close, and are those of its tree, in order:
where a function of any case is called, apart from arguments of such calls. -/
theorem callSites_eq_outerCalls {expression : Text} {tokens : List Token} {tree : Expr}
    (cut : Lexer.tokens expression = .ok tokens)
    (parsed : Parser.parse tokens expression.length = .ok tree) (strict : Bool) :
    ∃ sites, callSites Builtin.all strict expression = pure sites ∧
      List.Forall₂ (CallNode.StandsAt tokens) tree.outerCalls sites := by
  have whole : Expr.parse expression = .ok tree := bind_eq_ok_iff.mpr ⟨tokens, cut, parsed⟩
  have sentence := Parser.sentence_of_parse parsed
  obtain ⟨sites, stand, found⟩ :=
    scanned_of_derives sentence 0 expression [] (Written.of_tokensFrom cut) .nil
  have nothing : ∀ position, sitesFrom position [] = [] := fun position => by
    rw [sitesFrom, CallPiece.ofTextFrom, CallPiece.sites]
  rw [List.append_nil, nothing, List.append_nil] at found
  refine ⟨sites, ?_, stand⟩
  simp only [callSites, CallPiece.ofText]
  rw [passOverUnclosed_closed strict expression 0
      (CallPiece.ofTextFrom_closes _ (balanced_of_parse whole 0)), ← found]
  rfl

theorem callSites_eq_outerCalls_nested :
    let expression := "-foo(Sum ([x], avg(y)))".toList
    let call : CallNode :=
      ⟨['S', 'u', 'm'], 5,
        [.list [.variable ['x'] 11], .call ['a', 'v', 'g'] 15 [.variable ['y'] 19]]⟩
    let site : CallSite := ⟨⟨['S', 'u', 'm'], [' ']⟩, 5, some "[x], avg(y)".toList⟩
    ∃ tokens tree, Lexer.tokens expression = .ok tokens ∧
      Parser.parse tokens expression.length = .ok tree ∧ tree.outerCalls = [call] ∧
      (callSites Builtin.all true expression).outcome = .ok [site] ∧ call.StandsAt tokens site := by
  intro expression call site
  have cut : Lexer.tokens expression =
      .ok [⟨.symbol (.operator .sub), 0⟩, ⟨.identifier ['f', 'o', 'o'], 1⟩,
        ⟨.symbol (.opening .round), 4⟩, ⟨.identifier ['S', 'u', 'm'], 5⟩,
        ⟨.symbol (.opening .round), 9⟩, ⟨.symbol (.opening .square), 10⟩, ⟨.identifier ['x'], 11⟩,
        ⟨.symbol (.closing .square), 12⟩, ⟨.symbol .comma, 13⟩, ⟨.identifier ['a', 'v', 'g'], 15⟩,
        ⟨.symbol (.opening .round), 18⟩, ⟨.identifier ['y'], 19⟩, ⟨.symbol (.closing .round), 20⟩,
        ⟨.symbol (.closing .round), 21⟩, ⟨.symbol (.closing .round), 22⟩] := by
    decide +kernel
  have found : (callSites Builtin.all true expression).outcome = .ok [site] := by decide +kernel
  obtain ⟨sites, all, stand⟩ := callSites_eq_outerCalls cut rfl true
  obtain rfl : sites = [site] := Traced.eq_of_pure all found
  exact ⟨_, _, cut, rfl, rfl, found, (List.forall₂_cons.mp stand).1⟩

end IndicatorFormula
