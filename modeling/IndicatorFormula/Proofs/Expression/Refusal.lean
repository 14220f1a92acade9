import IndicatorFormula.Proofs.Expression.Parsing

/-! Where the parser refuses.

Whatever the parser has read begins a sentence: an operand can follow if one is awaited, and then
the open brackets close one after the other. So no token is refused too early, and none too late
since every sentence is read to its end. The place of a defect is that of the first token that no
sentence goes on with, or the end of the text. -/

set_option autoImplicit false
namespace IndicatorFormula

def endedTokens (tokens : List Token) : List (Option Token) :=
  tokens.map some ++ [none]

/-- A sentence begins with a row of tokens, or is all of them if the row has the end of the text. -/
def BeginsSentence (row : List (Option Token)) : Prop :=
  ∃ tokens tree, Sentence tokens tree ∧ row <+: endedTokens tokens

/-- No sentence goes on with a token, or with the end of the text, behind a row that one begins
with. -/
structure Offends (row : List (Option Token)) (token : Option Token) : Prop where
  begins : BeginsSentence row
  stops : ¬ BeginsSentence (row ++ [token])

theorem BeginsSentence.shorter {row other : List (Option Token)} (begins : BeginsSentence row)
    (leads : other <+: row) : BeginsSentence other := by
  obtain ⟨tokens, tree, sentence, within⟩ := begins
  exact ⟨tokens, tree, sentence, leads.trans within⟩

theorem beginsSentence_tokens_iff {tokens : List Token} :
    BeginsSentence (tokens.map some) ↔ ∃ behind tree, Sentence (tokens ++ behind) tree := by
  constructor
  · rintro ⟨whole, tree, sentence, within⟩
    rcases List.prefix_concat_iff.mp within with ends | within
    · have marked : none ∈ tokens.map some := by rw [ends]; simp
      simp at marked
    · obtain ⟨behind, rfl⟩ := (List.prefix_map_iff_of_injective (Option.some_injective _)).mp within
      exact ⟨behind, tree, sentence⟩
  · rintro ⟨behind, tree, sentence⟩
    refine ⟨tokens ++ behind, tree, sentence, behind.map some ++ [none], ?_⟩
    rw [endedTokens, List.map_append, List.append_assoc]

theorem beginsSentence_ended_iff {tokens : List Token} :
    BeginsSentence (endedTokens tokens) ↔ ∃ tree, Sentence tokens tree := by
  constructor
  · rintro ⟨whole, tree, sentence, within⟩
    rcases List.prefix_concat_iff.mp within with same | within
    · have same :=
        List.map_injective_iff.mpr (Option.some_injective _) (List.append_cancel_right same)
      exact ⟨tree, same ▸ sentence⟩
    · have marked : none ∈ whole.map some := within.subset (by simp [endedTokens])
      simp at marked
  · rintro ⟨tree, sentence⟩
    exact ⟨tokens, tree, sentence, List.prefix_rfl⟩

namespace Offends

variable {before earlier between other : List (Option Token)} {token offender : Option Token}

theorem first (offends : Offends before token) (row : before = earlier ++ offender :: between) :
    ¬ Offends earlier offender := by
  rintro ⟨-, stops⟩
  refine stops (offends.begins.shorter ⟨between, ?_⟩)
  rw [row, List.append_assoc]
  rfl

theorem unique (offends : Offends before token) (offends' : Offends earlier offender)
    (same : before ++ token :: between = earlier ++ offender :: other) : token = offender := by
  rcases List.append_eq_append_iff.mp same with ⟨gap, longer, row⟩ | ⟨gap, longer, row⟩
  -- Whichever of them comes later, the other one would stand before it.
  · cases gap with
    | nil => exact (List.cons.inj row).1
    | cons next gap =>
      obtain ⟨rfl, -⟩ := List.cons.inj row
      exact absurd offends (offends'.first longer)
  · cases gap with
    | nil => exact (List.cons.inj row).1.symm
    | cons next gap =>
      obtain ⟨rfl, -⟩ := List.cons.inj row
      exact absurd offends' (offends.first longer)

end Offends

namespace Parser

variable {frames : List Frame} {before tokens : List Token} {state next : State}

/-- Every expression behind some frames goes on to a sentence, in which the open brackets close. -/
theorem Opens.completed {category : Category} {tree : Expr} (opens : Opens frames before)
    (derives : Derives category tokens tree) (fits : (expected frames).rank ≤ category.rank) :
    ∃ behind whole, Sentence (before ++ tokens ++ behind) whole := by
  -- Each frame takes the expression behind it into a longer one, up to the outermost.
  induction opens generalizing tokens category tree with
  | nil =>
    have sentence : Sentence tokens tree := derives.loosen fits
    exact ⟨[], tree, by simpa using sentence⟩
  | @unary frames before opens operator position ih =>
    have signed := Derives.unary operator position (derives.loosen fits)
    obtain ⟨behind, whole, sentence⟩ := ih signed (expected_le frames)
    exact ⟨behind, whole, by simpa using sentence⟩
  | binary opens joins fits' derives' position ih =>
    rw [expected_binary joins] at fits
    obtain ⟨behind, whole, sentence⟩ :=
      ih (.binary joins position derives' (derives.loosen fits)) fits'
    exact ⟨behind, whole, by simpa using sentence⟩
  | @group frames before opens place ih =>
    have factor := Derives.group place 0 (derives.loosen fits)
    obtain ⟨behind, whole, sentence⟩ := ih factor ((expected_le frames).trans (by decide))
    exact ⟨⟨.symbol (.closing .round), 0⟩ :: behind, whole, by simpa using sentence⟩
  | @held frames before items _ frame opens holder is place begun ih =>
    subst is
    rw [expected_holder] at fits
    have factor := holder.derives place 0 (begun.further (derives.loosen fits))
    obtain ⟨behind, whole, sentence⟩ := ih factor ((expected_le frames).trans (by decide))
    exact ⟨⟨.symbol (.closing holder.bracket), 0⟩ :: behind, whole, by simpa using sentence⟩

theorem Opens.begins {tree : Expr} (opens : Opens frames before)
    (derives : Derives .factor tokens tree) : BeginsSentence ((before ++ tokens).map some) :=
  beginsSentence_tokens_iff.mpr (opens.completed derives ((expected_le frames).trans (by decide)))

theorem Opens.begins_operand (opens : Opens frames before) : BeginsSentence (before.map some) := by
  refine (opens.begins (.number .nan 0)).shorter ?_
  rw [List.map_append]
  exact List.prefix_append _ _

theorem Reads.begins (reads : Reads state tokens) : BeginsSentence (tokens.map some) := by
  cases reads with
  | operand opens => exact opens.begins_operand
  | empty opens holder place =>
    have inside := (opens.held holder rfl place .none).begins_operand
    rwa [List.append_nil] at inside
  | name opens name position => exact opens.begins (.name name position)
  | operator opens derives => exact opens.begins derives

theorem offends_of_step {token : Token} {reason : DefectReason}
    (taken : steps (.operand [] false) before = .ok next)
    (refused : step next token = .error reason) : Offends (before.map some) (some token) := by
  refine ⟨(steps_reads (.operand .nil) taken).begins, ?_⟩
  rw [show before.map some ++ [some token] = (before ++ [token]).map some by simp,
    beginsSentence_tokens_iff]
  rintro ⟨behind, tree, sentence⟩
  have parsed := parse_of_sentence sentence 0
  rw [parse, List.append_assoc, run_of_steps taken, List.singleton_append, run, refused] at parsed
  cases parsed

theorem offends_of_finish {reason : DefectReason}
    (taken : steps (.operand [] false) tokens = .ok next) (refused : finish next = .error reason) :
    Offends (tokens.map some) none := by
  refine ⟨(steps_reads (.operand .nil) taken).begins, ?_⟩
  rw [show tokens.map some ++ [none] = endedTokens tokens from rfl, beginsSentence_ended_iff]
  rintro ⟨tree, sentence⟩
  have parsed := parse_of_sentence sentence 0
  rw [parse, ← List.append_nil tokens, run_of_steps taken, run, refused] at parsed
  cases parsed

/-- A defect is at the token, or at the end, that no sentence goes on with. -/
theorem offends_of_parse {ends : Nat} {defect : Defect}
    (refused : parse tokens ends = .error defect) :
    ∃ before token behind, endedTokens tokens = before ++ token :: behind ∧ Offends before token ∧
      defect.position = some (token.elim ends Token.position) := by
  rcases exists_of_run_error refused with
    ⟨before, token, behind, next, rfl, taken, stops, place⟩ | ⟨next, taken, stops, place⟩
  · refine ⟨before.map some, some token, endedTokens behind, ?_, offends_of_step taken stops, place⟩
    simp [endedTokens]
  · exact ⟨tokens.map some, none, [], rfl, offends_of_finish taken stops, place⟩

/-- Tokens are refused at a place just if this is the place of the first token that no sentence goes
on with, though one begins with those before it. The end of the text counts as a token. -/
theorem parse_refuses_iff (tokens : List Token) (ends : Nat) (place : Option Nat) :
    (∃ reason, parse tokens ends = .error ⟨reason, place⟩) ↔
      ∃ before token behind, endedTokens tokens = before ++ token :: behind ∧ Offends before token ∧
        (∀ earlier other between, before = earlier ++ other :: between → ¬ Offends earlier other) ∧
        place = some (token.elim ends Token.position) := by
  constructor
  · rintro ⟨reason, refused⟩
    obtain ⟨before, token, behind, row, offends, same⟩ := offends_of_parse refused
    exact ⟨before, token, behind, row, offends, fun _ _ _ => offends.first, same⟩
  · rintro ⟨before, token, behind, row, offends, -, rfl⟩
    cases parsed : parse tokens ends with
    | ok tree =>
      -- The tokens would be a sentence, and the row up to what offends the beginning of it.
      have whole : BeginsSentence (endedTokens tokens) :=
        beginsSentence_ended_iff.mpr ⟨tree, sentence_of_parse parsed⟩
      refine absurd (whole.shorter ⟨behind, ?_⟩) offends.stops
      rw [row, List.append_assoc]
      rfl
    | error defect =>
      obtain ⟨reason, position⟩ := defect
      obtain ⟨before', token', behind', row', offends', position⟩ := offends_of_parse parsed
      obtain rfl := offends.unique offends' (row.symm.trans row')
      exact ⟨reason, by rw [← position]⟩

end Parser
end IndicatorFormula
