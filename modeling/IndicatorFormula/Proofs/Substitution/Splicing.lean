import IndicatorFormula.Proofs.Expression.Spacing
import IndicatorFormula.Proofs.Formula.Sites
import IndicatorFormula.Proofs.Substitution.SampleTrees

/-! Samples that are put in place in a text, and what that means for its tree.

The pass for samples does not parse: it looks for calls of aggregate functions in a text and copies
everything else. Where the text is parsed its tokens are at their places, and the text of each
subtree is copied or replaced by itself. So what the pass writes is, lexeme by lexeme, a sentence
for the tree with samples. -/

set_option autoImplicit false
namespace IndicatorFormula

theorem Lexer.Lexes.isName {text name : Text} {lexemes : List Lexeme} (lexes : Lexes text lexemes)
    (member : .identifier name ∈ lexemes) : IsName name := by
  induction lexes with
  | nil => cases member
  | @cons c rest behind lexeme lexemes step more ih =>
    rcases List.mem_append.mp member with own | later
    · rw [Option.mem_toList.mp own] at step
      exact isName_of_next step
    · exact ih later

def AllNames (tokens : List Token) : Prop :=
  ∀ token ∈ tokens, ∀ name, token.lexeme = .identifier name → Lexer.IsName name

namespace Lexeme

variable {lexeme : Lexeme} {lead : Text}

theorem Spelled.reads (spelled : lexeme.Spelled lead)
    (named : ∀ name, lexeme = .identifier name → Lexer.IsName name) : lexeme.Reads lead := by
  cases spelled with
  | number number => exact .number number
  | identifier => exact .name (named _ rfl)
  | symbol sign => exact .symbol sign

theorem Reads.head?_ne (reads : lexeme.Reads lead) (begins : lexeme.begins = true) (behind : Text) :
    (lead ++ behind).head? ≠ some '<' := by
  intro first
  cases reads with
  | number number =>
    cases number with
    | intro starts =>
      cases first
      exact absurd (Lexer.isNumeric_of_startsNumber starts) (by decide)
  | name isName =>
    cases isName with
    | intro start =>
      cases first
      exact absurd start (by decide)
  | symbol sign =>
    cases sign with
    | opening bracket => cases bracket <;> cases first
    | not => cases first
    | closing | comma => cases begins
    | operator operator =>
      cases operator with
      | lt | le => cases begins
      | _ => cases first

end Lexeme

namespace Written

variable {position : Nat} {text : Text} {tokens : List Token}

theorem increasing (written : Written position text tokens) (names : AllNames tokens) :
    (∀ token ∈ tokens, position ≤ token.position) ∧
      tokens.Pairwise fun first second => first.position < second.position := by
  induction written with
  | nil => exact ⟨nofun, .nil⟩
  | @cons position gap lead behind lexeme tokens blank spelled more ih =>
    obtain ⟨first, rest⟩ := List.forall_mem_cons.mp names
    obtain ⟨after, increasing⟩ := ih rest
    have some := List.length_pos_iff.mpr (spelled.reads first).ne_nil
    refine ⟨List.forall_mem_cons.mpr ⟨Nat.le_add_right _ _, fun token member => ?_⟩,
      List.pairwise_cons.mpr ⟨fun token member => ?_, increasing⟩⟩
    · have := after token member
      omega
    · have := after token member
      show position + gap.length < token.position
      omega

theorem head?_ne_of_items {trees : List Expr} {gap : Text} (written : Written position text tokens)
    (names : AllNames tokens) (derives : DerivesItems tokens trees)
    (blank : ∀ c ∈ gap, Text.isBlank c = true) : (text ++ gap).head? ≠ some '<' := by
  cases written with
  | nil blank' =>
    intro first
    exact absurd (List.forall_mem_append.mpr ⟨blank', blank⟩ _ (List.mem_of_head? first))
      (by decide)
  | @cons _ gap' lead behind lexeme tokens blank' spelled more =>
    cases gap' with
    | cons c gap' =>
      intro first
      cases first
      exact absurd (blank' _ List.mem_cons_self) (by decide)
    | nil =>
      have begins := (isOperand_of_derivesItems derives).1
      rcases begins with none | operand
      · cases none
      · obtain ⟨first, rest, shape, begins⟩ := operand.first
        obtain ⟨rfl, -⟩ := List.cons.inj shape
        have reads := spelled.reads (names _ List.mem_cons_self)
        rw [List.nil_append, List.append_assoc]
        exact reads.head?_ne begins _

end Written

structure Lexed (tokens : List Token) : Prop where
  names : AllNames tokens
  increasing : tokens.Pairwise fun first second => first.position < second.position

theorem Lexed.of_tokens {expression : Text} {tokens : List Token}
    (cut : Lexer.tokens expression = .ok tokens) : Lexed tokens := by
  have names : AllNames tokens := fun token member name own =>
    (Lexer.lexes_of_tokensFrom cut).isName (own ▸ List.mem_map_of_mem member)
  exact ⟨names, ((Written.of_tokensFrom cut).increasing names).2⟩

theorem Segment.spaced {segments : List Segment} (formed : ∀ segment ∈ segments, segment.Formed)
    (fixed : ∀ segment ∈ segments, segment.isFixed = true) :
    Spaced (segments.flatMap text) (segments.flatMap lexemes) := by
  have single : ∀ {segment : Segment}, segment.Formed → segment.isFixed = true →
      Spaced segment.text segment.lexemes := by
    intro segment formed fixed
    cases formed with
    | blank blank => exact .nil fun d member => List.mem_singleton.mp member ▸ blank
    | number number => exact .single (.number number)
    | symbol sign => exact .single (.symbol sign)
    | boolean | call | reference => cases fixed
  induction segments with
  | nil => exact .nil nofun
  | cons segment segments ih =>
    obtain ⟨first, rest⟩ := List.forall_mem_cons.mp formed
    obtain ⟨first', rest'⟩ := List.forall_mem_cons.mp fixed
    exact (single first first').append (ih rest rest')

def CallPiece.IsReady : CallPiece → Prop
  | .plain _ => True
  | .call _ argument _ => argument.head? ≠ some '<'
  | .unclosed _ => False

theorem CallPiece.IsReady.samplePiece {piece : CallPiece} {table : Samples} (ready : piece.IsReady)
    (finite : table.Finite) :
    (∀ head, piece ≠ .unclosed head) ∧
      samplePiece (some table) piece = .ok (piece.sampledText table) := by
  cases piece with
  | plain c => exact ⟨nofun, rfl⟩
  | call head argument closer => exact ⟨nofun, samplePiece_call finite head ready closer⟩
  | unclosed head => exact ready.elim

def SplicedAs (table : Samples) (text behind : Text) (lexemes : List Lexeme) : Prop :=
  ∃ pieces, CallPiece.ofTextFrom aggregateFunctions false (text ++ behind) =
      pieces ++ CallPiece.ofTextFrom aggregateFunctions false behind ∧
    (∀ piece ∈ pieces, piece.IsReady) ∧
    Spaced (pieces.flatMap (CallPiece.sampledText table)) lexemes

namespace SplicedAs

variable {table : Samples} {text more behind : Text} {lexemes others : List Lexeme}

theorem append (first : SplicedAs table text (more ++ behind) lexemes)
    (second : SplicedAs table more behind others) :
    SplicedAs table (text ++ more) behind (lexemes ++ others) := by
  obtain ⟨pieces, found, ready, spaced⟩ := first
  obtain ⟨pieces', found', ready', spaced'⟩ := second
  refine ⟨pieces ++ pieces', ?_, List.forall_mem_append.mpr ⟨ready, ready'⟩, ?_⟩
  · rw [List.append_assoc, found, found', List.append_assoc]
  · rw [List.flatMap_append]
    exact spaced.append spaced'

theorem plain
    (same : CallPiece.ofTextFrom aggregateFunctions false (text ++ behind) =
      text.map .plain ++ CallPiece.ofTextFrom aggregateFunctions false behind)
    (spaced : Spaced text lexemes) : SplicedAs table text behind lexemes := by
  refine ⟨_, same, fun piece member => ?_, ?_⟩
  · obtain ⟨c, -, rfl⟩ := List.mem_map.mp member
    trivial
  · simpa [List.flatMap_map, CallPiece.sampledText, CallPiece.text] using spaced

theorem gap (blank : ∀ c ∈ text, Text.isBlank c = true) : SplicedAs table text behind [] :=
  plain (CallHead.ofTextFrom_unword fun c member => Text.isWord_of_isBlank (blank c member))
    (.nil blank)

theorem single {lexeme : Lexeme} (reads : lexeme.Reads text)
    (same : CallPiece.ofTextFrom aggregateFunctions false (text ++ behind) =
      text.map .plain ++ CallPiece.ofTextFrom aggregateFunctions false behind) :
    SplicedAs table text behind [lexeme] :=
  plain same (.single reads)

theorem symbol (sign : Symbol) : SplicedAs table sign.text behind [.symbol sign] :=
  single (.symbol sign) (CallHead.ofTextFrom_unword fun _ => Segment.isWord_of_mem_symbol)

theorem number {value : Double} (number : Lexer.IsNumber text value)
    (ends : ∀ c ∈ behind.head?, Text.isWord c = false) :
    SplicedAs table text behind [.number value] :=
  single (.number number)
    (CallHead.ofTextFrom_silent (Segment.silent_literal number.isLiteral) ends)

theorem name {name : Text} (isName : Lexer.IsName name) (word : ∀ c ∈ name, Text.isWord c = true)
    (ends : ∀ c ∈ behind.head?, Text.isWord c = false)
    (other : namesAggregate name = false ∨ (behind.dropWhile Text.isBlank).head? ≠ some '(') :
    SplicedAs table name behind [.identifier name] := by
  refine single (.name isName)
    (CallHead.ofTextFrom_silent (CallHead.silent_name word ends (other.imp ?_ id)) ends)
  intro unknown function member spelling
  rw [namesAggregate_iff.mpr ⟨function, member, spelling⟩] at unknown
  cases unknown

theorem call {head : CallHead} {function : Builtin} {argument : Text}
    (member : function ∈ aggregateFunctions) (calls : head.Calls function)
    (balanced : Balanced Text.nesting argument) (ready : argument.head? ≠ some '<')
    (finite : table.Finite) :
    SplicedAs table (head.text ++ (argument ++ (Symbol.closing .round).text)) behind
      (.identifier (head.name.map Text.capital) :: .symbol (.opening .round) ::
        ((Segment.ofSamples (table.present argument)).flatMap Segment.lexemes ++
          [.symbol (.closing .round)])) := by
  refine ⟨[.call head argument ')'], ?_, by simpa [CallPiece.IsReady] using ready, ?_⟩
  · have shape : head.text ++ (argument ++ (Symbol.closing .round).text) ++ behind =
        head.text ++ (argument ++ ')' :: behind) := by simp [Symbol.text]
    rw [shape, CallPiece.ofTextFrom_head member calls, CallPiece.ofHead_append _ balanced rfl]
    rfl
  · have samples := Segment.spaced (Segment.regular_ofSamples (finite.present argument)).formed
      (Segment.isFixed_ofSamples (table.present argument))
    have closed := samples.append (.single (.symbol (.closing .round)))
    have opened := (closed.lexeme (.symbol (.opening .round))).blanks calls.capitalized.gap
    have whole := opened.lexeme (.name (Segment.isName_of_calls calls.capitalized))
    simpa [CallPiece.sampledText, CallHead.text, Symbol.text, CallHead.capitalized] using whole

end SplicedAs

theorem take_drop_between {front middle : Text} {begins ends : Nat} (same : begins = front.length)
    (same' : ends = front.length + middle.length) (back : Text) :
    ((front ++ (middle ++ back)).take ends).drop begins = middle := by
  rw [same, same', List.take_length_add_append, List.drop_left, List.take_left]

/-- Wherever tokens are written in an expression, and no name of them goes on in what follows,
samples make these lexemes of them. -/
def Spliced (expression : Text) (table : Samples) (tokens : List Token) (lexemes : List Lexeme) :
    Prop :=
  ∀ lead text behind, expression = lead ++ (text ++ behind) → Written lead.length text tokens →
    EndsName behind → SplicedAs table text behind lexemes

namespace Spliced

variable {expression : Text} {table : Samples} {tokens before after : List Token}
  {lexemes first second : List Lexeme} {sign : Symbol} {place : Nat}

theorem nil : Spliced expression table [] [] := by
  rintro lead text behind - (_ | _) -
  rename_i blank
  exact .gap blank

theorem token {lexeme : Lexeme}
    (own : ∀ position text rest behind, lexeme.Spelled text → Written position rest tokens →
      EndsName behind → SplicedAs table text (rest ++ behind) [lexeme])
    (spliced : Spliced expression table tokens lexemes) :
    Spliced expression table (⟨lexeme, place⟩ :: tokens) (lexeme :: lexemes) := by
  intro lead text behind whole written ends
  cases written with
  | @cons _ gap word rest _ _ blank spelled more =>
    have placed : Written (lead ++ (gap ++ word)).length rest tokens := by
      simpa [Nat.add_assoc] using more
    have later := spliced (lead ++ (gap ++ word)) rest behind (by simpa using whole) placed ends
    exact (SplicedAs.gap blank).append ((own _ word rest behind spelled more ends).append later)

theorem symbol (spliced : Spliced expression table tokens lexemes) :
    Spliced expression table (⟨.symbol sign, place⟩ :: tokens) (.symbol sign :: lexemes) :=
  spliced.token fun _ _ _ _ spelled _ _ => by
    cases spelled
    exact .symbol sign

/-- A symbol that opens no call separates what is in front of it from what is behind. -/
theorem join (spliced : Spliced expression table before first) (other : sign ≠ .opening .round)
    (spliced' : Spliced expression table after second) :
    Spliced expression table (before ++ ⟨.symbol sign, place⟩ :: after)
      (first ++ .symbol sign :: second) := by
  intro lead text behind whole written ends
  obtain ⟨front, tail, rfl, inside, outside⟩ := written.append
  have later :=
    spliced'.symbol (lead ++ front) tail behind (by simpa using whole) (by simpa using outside) ends
  have separated := outside.endsName_of_symbol other behind
  exact (spliced lead front (tail ++ behind) (by simpa using whole) inside separated).append later

theorem close (spliced : Spliced expression table tokens lexemes) (bracket : Bracket)
    (closing : Nat) :
    Spliced expression table (tokens ++ [⟨.symbol (.closing bracket), closing⟩])
      (lexemes ++ [.symbol (.closing bracket)]) :=
  spliced.join (fun impossible => nomatch impossible) nil

theorem number (value : Double) :
    Spliced expression table [⟨.number value, place⟩] [.number value] := by
  refine nil.token fun position text rest behind spelled written ends => ?_
  cases spelled with
  | number number =>
    cases written with
    | nil blank => exact .number number (ends.gap blank).word

theorem name {name : Text} (isName : Lexer.IsName name) :
    Spliced expression table [⟨.identifier name, place⟩] [.identifier name] := by
  refine nil.token fun position text rest behind spelled written ends => ?_
  cases spelled with
  | identifier word =>
    cases written with
    | nil blank => exact .name isName word (ends.gap blank).word (.inr (ends.gap blank).call)

theorem unknown {name : Text} {opening : Nat} (isName : Lexer.IsName name)
    (unknown : namesAggregate name = false) (spliced : Spliced expression table tokens lexemes) :
    Spliced expression table
      (⟨.identifier name, place⟩ :: ⟨.symbol (.opening .round), opening⟩ :: tokens)
      (.identifier name :: .symbol (.opening .round) :: lexemes) := by
  refine spliced.symbol.token fun position text rest behind spelled written ends => ?_
  cases spelled with
  | identifier word =>
    exact .name isName word (written.word_of_symbol behind) (.inl unknown)

theorem known {name : Text} {opening closing : Nat} {arguments : List Expr}
    (known : namesAggregate name = true) (names : AllNames tokens)
    (derives : DerivesItems tokens arguments) (finite : table.Finite) :
    Spliced expression table (⟨.identifier name, place⟩ :: ⟨.symbol (.opening .round), opening⟩ ::
      (tokens ++ [⟨.symbol (.closing .round), closing⟩])) (.identifier (name.map Text.capital) ::
      .symbol (.opening .round) ::
      ((Segment.ofSamples (table.present ((expression.take closing).drop (opening + 1)))).flatMap
          Segment.lexemes ++ [.symbol (.closing .round)])) := by
  intro lead text behind whole written ends
  obtain ⟨function, member, spelling⟩ := namesAggregate_iff.mp known
  obtain ⟨gap, gap', inside, last, later, rfl, blanks, items, rfl, opens, closes⟩ := written.call
  simp only [List.forall_mem_append] at blanks
  obtain ⟨blank, blank', closeBlank, trailing⟩ := blanks
  have calls : CallHead.Calls ⟨name, gap'⟩ function := ⟨spelling, blank'⟩
  have argument : (expression.take closing).drop (opening + 1) = inside ++ last := by
    have parts : expression = (lead ++ (gap ++ CallHead.text ⟨name, gap'⟩)) ++
        ((inside ++ last) ++ (')' :: later ++ behind)) := by simpa using whole
    rw [parts]
    refine take_drop_between ?_ ?_ _
    · simp [opens, Nat.add_assoc]
    · simp [closes, opens, Nat.add_assoc]
  have taken : SplicedAs table _ (later ++ behind) _ :=
    .call member calls (items.balanced_argument derives closeBlank)
      (items.head?_ne_of_items names derives closeBlank) finite
  rw [argument]
  simpa [Symbol.text] using (SplicedAs.gap blank).append (taken.append (.gap trailing))

end Spliced

section Trees

theorem infix_of_enclosed {first last : Token} {tokens : List Token} :
    tokens <:+: first :: tokens ++ [last] :=
  ⟨[first], [last], rfl⟩

theorem infix_of_behind {token : Token} {before behind : List Token} :
    behind <:+: before ++ token :: behind :=
  ⟨before ++ [token], [], by simp⟩

variable {table : Samples} {whole : List Token}

mutual

/-- With samples in place an expression is a sentence for the tree with samples. -/
theorem spliced_of_derives (expression : Text) (finite : table.Finite) (lexed : Lexed whole) :
    {category : Category} → {tokens : List Token} → {tree : Expr} → Derives category tokens tree →
      tokens <:+: whole →
      ∃ lexemes, Spliced expression table tokens lexemes ∧
        Derives category (unplacedTokens lexemes) (tree.sampled (argumentAt expression whole) table)
  | _, _, _, .tighter next derives, within => by
    obtain ⟨lexemes, spliced, sentence⟩ := spliced_of_derives expression finite lexed derives within
    exact ⟨lexemes, spliced, .tighter next sentence⟩
  | _, _, _, .binary joins _ derives derives', within => by
    obtain ⟨first, spliced, sentence⟩ :=
      spliced_of_derives expression finite lexed derives
        ((List.prefix_append _ _).isInfix.trans within)
    obtain ⟨second, spliced', sentence'⟩ :=
      spliced_of_derives expression finite lexed derives' (infix_of_behind.trans within)
    refine ⟨_, spliced.join nofun spliced', ?_⟩
    rw [unplacedTokens_append]
    exact .binary joins 0 sentence sentence'
  | _, _, _, .unary operator _ derives, within => by
    obtain ⟨lexemes, spliced, sentence⟩ :=
      spliced_of_derives expression finite lexed derives
        ((List.suffix_cons _ _).isInfix.trans within)
    exact ⟨_, spliced.symbol, .unary operator 0 sentence⟩
  | _, _, _, .number value _, _ => ⟨_, .number value, .number value 0⟩
  | _, _, _, .name name position, within => by
    rw [Expr.sampled_ofIdentifier]
    exact ⟨_, .name (lexed.names _ (within.subset List.mem_cons_self) _ rfl), .name name 0⟩
  | _, _, _, .group _ closing derives, within => by
    obtain ⟨lexemes, spliced, sentence⟩ :=
      spliced_of_derives expression finite lexed derives (infix_of_enclosed.trans within)
    refine ⟨_, (spliced.close .round closing).symbol, ?_⟩
    rw [unplacedTokens_cons, unplacedTokens_append]
    exact .group 0 0 sentence
  | _, _, _, .list _ closing derives, within => by
    obtain ⟨lexemes, spliced, sentence⟩ :=
      spliced_of_derivesItems expression finite lexed derives (infix_of_enclosed.trans within)
    refine ⟨_, (spliced.close .square closing).symbol, ?_⟩
    rw [unplacedTokens_cons, unplacedTokens_append]
    exact .list 0 0 sentence
  | _, _, _, .call name position opening closing derives, within => by
    have isName := lexed.names _ (within.subset List.mem_cons_self) name rfl
    have inside : _ <:+: whole :=
      (infix_of_enclosed.trans (List.suffix_cons _ _).isInfix).trans within
    unfold Expr.sampled
    -- An aggregate function takes its samples whatever its arguments are; any other call is looked
    -- through.
    split
    · rename_i known
      obtain ⟨before, behind, shape⟩ := within
      rw [argumentAt_call expression lexed.increasing shape.symm (balanced_of_derivesItems derives)]
      refine ⟨_,
        .known known (fun token member => lexed.names token (inside.subset member)) derives finite,
        ?_⟩
      have samples :=
        Segment.derives_ofSamples (finite.present ((expression.take closing).drop (opening + 1)))
      rw [unplacedTokens_cons, unplacedTokens_cons, unplacedTokens_append]
      exact .call _ 0 0 0 (.single (samples.loosen (by decide)))
    · rename_i other
      obtain ⟨lexemes, spliced, sentence⟩ :=
        spliced_of_derivesItems expression finite lexed derives inside
      refine ⟨_, (spliced.close .round closing).unknown isName (by simpa using other), ?_⟩
      rw [unplacedTokens_cons, unplacedTokens_cons, unplacedTokens_append]
      exact .call name 0 0 0 sentence

theorem spliced_of_derivesItems (expression : Text) (finite : table.Finite) (lexed : Lexed whole) :
    {tokens : List Token} → {items : List Expr} → DerivesItems tokens items → tokens <:+: whole →
      ∃ lexemes, Spliced expression table tokens lexemes ∧
        DerivesItems (unplacedTokens lexemes)
          (Expr.sampledAll (argumentAt expression whole) table items)
  | _, _, .none, _ => ⟨[], .nil, .none⟩
  | _, _, .single derives, within => by
    obtain ⟨lexemes, spliced, sentence⟩ := spliced_of_derives expression finite lexed derives within
    exact ⟨lexemes, spliced, .single sentence⟩
  | _, _, .further items others _ derives, within => by
    obtain ⟨first, spliced, row⟩ :=
      spliced_of_derivesItems expression finite lexed items
        ((List.prefix_append _ _).isInfix.trans within)
    obtain ⟨second, spliced', sentence⟩ :=
      spliced_of_derives expression finite lexed derives (infix_of_behind.trans within)
    refine ⟨_, spliced.join nofun spliced', ?_⟩
    rw [Expr.sampledAll_eq_map] at row ⊢
    rw [unplacedTokens_append, List.map_append]
    exact row.further (by simpa using others) 0 sentence

end

end Trees

/-- An expression that is parsed still is when samples are put in place. Its tree then is the same,
up to places, but that each outermost call of an aggregate function has its name in capitals and one
list instead of its arguments: the samples for the text between its brackets, in order, without
those that are missing, and none at all if there is no entry for it. -/
theorem parse_substituteSamples {expression : Text} {tokens : List Token} {tree : Expr}
    {table : Samples} (cut : Lexer.tokens expression = .ok tokens)
    (parsed : Parser.parse tokens expression.length = .ok tree) (finite : table.Finite)
    (strict : Bool) :
    ∃ sampled placed, substituteSamples expression (some table) .neverSkip strict =
        pure (some sampled) ∧ Expr.parse sampled = .ok placed ∧
      placed.unplaced = tree.sampled (argumentAt expression tokens) table := by
  have sentence := Parser.sentence_of_parse parsed
  have written := Written.of_tokensFrom cut
  obtain ⟨lexemes, spliced, sentence⟩ :=
    spliced_of_derives expression finite (.of_tokens cut) sentence (List.infix_refl tokens)
  obtain ⟨pieces, found, ready, spaced⟩ := spliced [] expression [] (by simp) written .nil
  have nothing : CallPiece.ofTextFrom aggregateFunctions false [] = [] := by
    rw [CallPiece.ofTextFrom]
  rw [List.append_nil, nothing, List.append_nil] at found
  obtain ⟨placed, parsed, same⟩ := spaced.parse sentence
  refine ⟨_, placed, ?_, parsed, same⟩
  rw [substituteSamples, CallPiece.ofText, found,
    samplePieces_of_closed fun piece member => (ready piece member).samplePiece finite]
  rfl

theorem parse_substituteSamples_nested :
    let expression := "-foo(Sum( [x, (y)] ), avg(y))".toList
    let table : Samples := [(" [x, (y)] ".toList, [some (.int 1), none, some (.int (-2))])]
    let sampled := "-foo(SUM([1.0, (-2.0)]), AVG([]))".toList
    ∃ tokens tree placed, Lexer.tokens expression = .ok tokens ∧
      Parser.parse tokens expression.length = .ok tree ∧
      (substituteSamples expression (some table) .neverSkip true).outcome = .ok (some sampled) ∧
      Expr.parse sampled = .ok placed ∧
      placed.unplaced = tree.sampled (argumentAt expression tokens) table ∧
      placed.unplaced =
        .unary .minus 0 (.call "foo".toList 0
          [.call "SUM".toList 0 [.list [.ofSample (.int 1), .ofSample (.int (-2))]],
            .call "AVG".toList 0 [.list []]]) := by
  intro expression table sampled
  have cut : Lexer.tokens expression =
      .ok [⟨.symbol (.operator .sub), 0⟩, ⟨.identifier "foo".toList, 1⟩,
        ⟨.symbol (.opening .round), 4⟩, ⟨.identifier "Sum".toList, 5⟩,
        ⟨.symbol (.opening .round), 8⟩, ⟨.symbol (.opening .square), 10⟩,
        ⟨.identifier "x".toList, 11⟩, ⟨.symbol .comma, 12⟩, ⟨.symbol (.opening .round), 14⟩,
        ⟨.identifier "y".toList, 15⟩, ⟨.symbol (.closing .round), 16⟩,
        ⟨.symbol (.closing .square), 17⟩, ⟨.symbol (.closing .round), 19⟩, ⟨.symbol .comma, 20⟩,
        ⟨.identifier "avg".toList, 22⟩, ⟨.symbol (.opening .round), 25⟩,
        ⟨.identifier "y".toList, 26⟩, ⟨.symbol (.closing .round), 27⟩,
        ⟨.symbol (.closing .round), 28⟩] := by
    decide +kernel
  have written : (substituteSamples expression (some table) .neverSkip true).outcome =
      .ok (some sampled) := by decide +kernel
  obtain ⟨text, placed, writes, parsed, same⟩ :=
    @parse_substituteSamples _ _ _ table cut rfl (by decide +kernel) true
  obtain rfl : text = sampled := Option.some.inj (Traced.eq_of_pure writes written)
  exact ⟨_, _, placed, cut, rfl, written, parsed, same, same⟩

end IndicatorFormula
