import IndicatorFormula.Proofs.Formula.Locality
import IndicatorFormula.Proofs.Formula.Sealing
import IndicatorFormula.Proofs.Substitution.Leniency

/-! Calls are found regardless of case.

The search for calls commutes with writing all of a text in capitals: blanks and brackets have no
capitals, and a character spells what its capital does. A formula and the formula with its function
names in capitals are the same once all of both is written in capitals, so their calls stand in the
same places. -/

set_option autoImplicit false
namespace IndicatorFormula

open Text (capital)

theorem Text.takeWhile_isBlank_capital (text : Text) :
    (text.map capital).takeWhile Text.isBlank = text.takeWhile Text.isBlank ∧
      (text.map capital).dropWhile Text.isBlank = (text.dropWhile Text.isBlank).map capital := by
  have same : Text.isBlank ∘ capital = Text.isBlank := funext Text.isBlank_capital
  rw [List.takeWhile_map, List.dropWhile_map, same]
  refine ⟨(List.map_congr_left fun c member => ?_).trans (List.map_id _), rfl⟩
  exact Text.capital_of_unword (Text.isWord_of_isBlank (List.mem_takeWhile_imp member))

theorem Text.spelled?_capital (name text : Text) :
    Text.spelled? name (text.map capital) =
      (Text.spelled? name text).map fun found => (found.1.map capital, found.2.map capital) := by
  induction name generalizing text with
  | nil => rfl
  | cons expected name ih =>
    cases text with
    | nil => rfl
    | cons c rest =>
      simp only [List.map_cons, Text.spelled?, Text.spells_capital, ih]
      split
      · cases Text.spelled? name rest <;> rfl
      · rfl

namespace CallHead

def capitalizedFound (found : CallHead × Text) : CallHead × Text :=
  (found.1.capitalized, found.2.map capital)

theorem readFunction?_capital (function : Builtin) (text : Text) :
    readFunction? function (text.map capital) =
      (readFunction? function text).map capitalizedFound := by
  unfold readFunction?
  rw [Text.spelled?_capital]
  cases Text.spelled? function.name text with
  | none => rfl
  | some found =>
    obtain ⟨name, rest⟩ := found
    obtain ⟨gap, behind⟩ := Text.takeWhile_isBlank_capital rest
    simp only [Option.map_some, gap, behind]
    cases rest.dropWhile Text.isBlank with
    | nil => rfl
    | cons c behind =>
      have opens : capital c = '(' ↔ c = '(' := Text.capital_eq_iff (by decide)
      by_cases round : c = '('
      · rw [List.map_cons, opens.mpr round, round]
        rfl
      · have other := mt opens.mp round
        simp [round, other]

theorem read?_capital (functions : List Builtin) (afterWord : Bool) (text : Text) :
    read? functions afterWord (text.map capital) =
      (read? functions afterWord text).map capitalizedFound := by
  unfold read?
  split
  · rfl
  · induction functions with
    | nil => rfl
    | cons function functions ih =>
      rw [List.findSome?_cons, List.findSome?_cons, readFunction?_capital, ih]
      cases readFunction? function text <;> rfl

end CallHead

@[simp] theorem Text.nesting_capital (c : Char) : nesting (capital c) = nesting c :=
  capital_congr nesting (by decide) c

theorem splitClosing?_capital (depth : Nat) (text : Text) :
    splitClosing? depth (text.map capital) =
      (splitClosing? depth text).map
        fun found => (found.1.map capital, found.2.1, found.2.2.map capital) := by
  induction text generalizing depth with
  | nil => rfl
  | cons c rest ih =>
    have later (depth : Nat) :
        (splitClosing? depth (rest.map capital)).map
            (fun found => (capital c :: found.1, found.2)) =
          ((splitClosing? depth rest).map fun found => (c :: found.1, found.2)).map
            fun found => (found.1.map capital, found.2.1, found.2.2.map capital) := by
      rw [ih depth]
      cases splitClosing? depth rest <;> rfl
    rw [List.map_cons]
    cases nesting : Text.nesting c with
    | opens =>
      rw [splitClosing?_opens nesting, splitClosing?_opens ((Text.nesting_capital c).trans nesting)]
      exact later (depth + 1)
    | stays =>
      rw [splitClosing?_stays nesting, splitClosing?_stays ((Text.nesting_capital c).trans nesting)]
      exact later depth
    | closes =>
      rw [splitClosing?_closes nesting,
        splitClosing?_closes ((Text.nesting_capital c).trans nesting)]
      cases depth with
      | zero =>
        -- No word character closes anything, so the one that closes here is its own capital.
        have other : Text.isWord c = false := by
          by_contra word
          rw [Text.stays_of_isWord (Bool.eq_true_of_not_eq_false word)] at nesting
          cases nesting
        rw [Text.capital_of_unword other]
        rfl
      | succ depth => exact later depth

namespace CallPiece

def capitalized : CallPiece → CallPiece
  | .plain c => .plain (capital c)
  | .call head argument closer => .call head.capitalized (argument.map capital) closer
  | .unclosed head => .unclosed head.capitalized

@[simp] theorem length_text_capitalized (piece : CallPiece) :
    piece.capitalized.text.length = piece.text.length := by
  cases piece <;> simp [capitalized, text]

theorem ofHead_capital (head : CallHead) (behind : Text) :
    ofHead head.capitalized (behind.map capital) =
      ((ofHead head behind).1.capitalized, (ofHead head behind).2.map capital) := by
  unfold ofHead
  rw [splitClosing?_capital]
  cases splitClosing? 0 behind <;> rfl

theorem ofTextFrom_capital (functions : List Builtin) (afterWord : Bool) (text : Text) :
    ofTextFrom functions afterWord (text.map capital) =
      (ofTextFrom functions afterWord text).map capitalized := by
  fun_induction ofTextFrom functions afterWord text with
  | case1 => rw [List.map_nil, ofTextFrom, List.map_nil]
  | case2 afterWord c rest head behind read ih =>
    have found : CallHead.read? functions afterWord ((c :: rest).map capital) =
        some (head.capitalized, behind.map capital) :=
      (CallHead.read?_capital functions afterWord (c :: rest)).trans (congrArg _ read)
    rw [ofTextFrom_of_read? found, ofHead_capital, ih, List.map_cons]
  | case3 afterWord c rest none ih =>
    have nothing := (CallHead.read?_capital functions afterWord (c :: rest)).trans (congrArg _ none)
    have silent : Silent (CallHead.read? functions) afterWord [capital c] (rest.map capital) :=
      ⟨nothing, trivial⟩
    rw [List.map_cons, ← List.singleton_append, ofTextFrom_append silent, Text.endsWord,
      Text.endsWord, Text.isWord_capital, ih]
    rfl

end CallPiece

def CallSite.capitalized (site : CallSite) : CallSite :=
  { site with head := site.head.capitalized, argument := site.argument.map (List.map capital) }

def CallSite.span (site : CallSite) : Nat × Nat × Option Nat :=
  (site.start, site.argumentStart, site.closing?)

theorem CallSite.span_capitalized (site : CallSite) : site.capitalized.span = site.span := by
  obtain ⟨head, start, argument⟩ := site
  cases argument <;> simp [span, capitalized, argumentStart, closing?]

theorem CallPiece.sites_capitalized (position : Nat) (pieces : List CallPiece) :
    sites position (pieces.map capitalized) = (sites position pieces).map CallSite.capitalized := by
  induction pieces generalizing position with
  | nil => rfl
  | cons piece pieces ih =>
    have later := ih (position + piece.text.length)
    have same := piece.length_text_capitalized
    cases piece with
    | plain c => exact later
    | call | unclosed =>
      simp only [List.map_cons, sites, capitalized] at same ⊢
      rw [same, later]
      rfl

/-- Texts that are the same in capitals have their calls in the same places. -/
theorem CallPiece.sites_congr {text other : Text} (same : other.map capital = text.map capital)
    (functions : List Builtin) (afterWord : Bool) (position : Nat) :
    (sites position (ofTextFrom functions afterWord other)).map CallSite.span =
      (sites position (ofTextFrom functions afterWord text)).map CallSite.span := by
  have inCapitals (text : Text) :
      (sites position (ofTextFrom functions afterWord (text.map capital))).map CallSite.span =
        (sites position (ofTextFrom functions afterWord text)).map CallSite.span := by
    rw [ofTextFrom_capital, sites_capitalized, List.map_map]
    exact List.map_congr_left fun site _ => site.span_capitalized
  rw [← inCapitals other, same, inCapitals text]

def CallSite.firstUnclosed? (sites : List CallSite) : Option CallSite :=
  sites.find? fun site => site.closing?.isNone

theorem CallSite.firstUnclosed?_congr {sites others : List CallSite}
    (same : others.map span = sites.map span) :
    (firstUnclosed? others).map span = (firstUnclosed? sites).map span := by
  have found := congrArg (List.find? fun span : Nat × Nat × Option Nat => span.2.2.isNone) same
  rw [List.find?_map, List.find?_map] at found
  exact found

theorem outcome_passOverUnclosed_strict (formula : Text) (position : Nat)
    (pieces : List CallPiece) :
    (passOverUnclosed true formula position pieces).outcome =
      match CallSite.firstUnclosed? (CallPiece.sites position pieces) with
      | some site => .error (.formula (.unclosedCall site.argumentStart formula))
      | none => .ok () := by
  induction pieces generalizing position with
  | nil => rfl
  | cons piece pieces ih =>
    cases piece with
    | unclosed head => rfl
    | plain | call => exact ih _

/-- Two searches find calls in the same places, or each fails at a call that does not close, which
opens in the same place. -/
inductive SameSpans (formula other : Text) :
    Except Failure (List CallSite) → Except Failure (List CallSite) → Prop where
  | found {sites others : List CallSite}
      (same : others.map CallSite.span = sites.map CallSite.span) :
      SameSpans formula other (.ok sites) (.ok others)
  | unclosed (offset : Nat) :
      SameSpans formula other (.error (.formula (.unclosedCall offset formula)))
        (.error (.formula (.unclosedCall offset other)))

theorem sameSpans_callSites {formula other : Text} (same : other.map capital = formula.map capital)
    (functions : List Builtin) (strict : Bool) :
    SameSpans formula other (callSites functions strict formula).outcome
      (callSites functions strict other).outcome := by
  have spans := CallPiece.sites_congr same functions false 0
  rw [callSites, callSites, Traced.outcome_bind, Traced.outcome_bind]
  cases strict with
  | false =>
    rw [outcome_passOverUnclosed, outcome_passOverUnclosed]
    exact .found spans
  | true =>
    rw [outcome_passOverUnclosed_strict, outcome_passOverUnclosed_strict]
    have first := CallSite.firstUnclosed?_congr spans
    unfold CallPiece.ofText
    cases unclosed : CallSite.firstUnclosed?
      (CallPiece.sites 0 (CallPiece.ofTextFrom functions false formula)) with
    | none =>
      rw [Option.map_eq_none_iff.mp (first.trans (congrArg _ unclosed))]
      exact .found spans
    | some site =>
      obtain ⟨site', unclosed', place⟩ :=
        Option.map_eq_some_iff.mp (first.trans (congrArg _ unclosed))
      have opens : site'.argumentStart = site.argumentStart := congrArg (fun span => span.2.1) place
      rw [unclosed']
      simp only [opens]
      exact .unclosed site.argumentStart

/-- A place within the name of a call that is recognised in a text. -/
def InName (afterWord : Bool) (text : Text) (place : Nat) : Prop :=
  ∃ before head behind, text = before ++ (head.text ++ behind) ∧
    CallHead.read? Builtin.all (before.endsWord afterWord) (head.text ++ behind) =
      some (head, behind) ∧ before.length ≤ place ∧ place < before.length + head.name.length

variable {afterWord : Bool} {text : Text} {place : Nat}

theorem InName.append (lead : Text) (within : InName (lead.endsWord afterWord) text place) :
    InName afterWord (lead ++ text) (lead.length + place) := by
  obtain ⟨before, head, behind, rfl, read, least, below⟩ := within
  refine ⟨lead ++ before, head, behind, (List.append_assoc ..).symm,
    by rw [Text.endsWord_append, read], ?_, ?_⟩
  · rw [List.length_append]
    omega
  · rw [List.length_append]
    omega

theorem getElem?_capitalizeCallsFrom (afterWord : Bool) (text : Text) (place : Nat) :
    (capitalizeCallsFrom afterWord text)[place]? = text[place]? ∨ InName afterWord text place := by
  fun_induction capitalizeCallsFrom afterWord text generalizing place with
  | case1 => exact .inl rfl
  | case2 afterWord c rest head behind read ih =>
    obtain ⟨rfl, -, whole⟩ := CallHead.read?_eq_some_iff.mp read
    rw [whole] at read ⊢
    by_cases inside : place < head.name.length
    · exact .inr ⟨[], head, behind, rfl, read, Nat.zero_le _, by simpa using inside⟩
    by_cases before : place < head.text.length
    · left
      rw [List.getElem?_append_left (by simpa using before), List.getElem?_append_left before]
      simp [CallHead.text, CallHead.capitalized, List.getElem?_append, inside]
    · obtain ⟨further, rfl⟩ := Nat.exists_eq_add_of_le (Nat.le_of_not_lt before)
      refine (ih further).imp (fun same => ?_) fun within => ?_
      · rw [List.getElem?_append_right (by simp), List.getElem?_append_right (by simp)]
        simpa using same
      · exact InName.append head.text (by rwa [Segment.endsWord_head])
  | case3 afterWord c rest none ih =>
    cases place with
    | zero => exact .inl rfl
    | succ further =>
      refine (ih further).imp id fun within => ?_
      rw [Nat.add_comm]
      exact InName.append [c] within

theorem SameButCapitals.map_capital {other : Text} (same : SameButCapitals text other) :
    other.map capital = text.map capital := by
  induction same with
  | nil => rfl
  | cons own _ ih =>
    rw [List.map_cons, List.map_cons, ih]
    rcases own with rfl | rfl
    · rfl
    · rw [Text.capital_capital]

/-- Writing function names in capitals is harmless. A formula keeps its length, changes at most in
the names of calls and does not change any more the second time. It keeps its references, and
whatever functions are looked for, their calls stand where they did, or reading fails where it
did. -/
theorem capitalizeCalls_harmless (formula : Text) :
    (capitalizeCalls formula).length = formula.length ∧
      (∀ place : Nat, (capitalizeCalls formula)[place]? = formula[place]? ∨
        InName false formula place) ∧
      capitalizeCalls (capitalizeCalls formula) = capitalizeCalls formula ∧
      Piece.located 0 (Piece.ofText (capitalizeCalls formula)) =
        Piece.located 0 (Piece.ofText formula) ∧
      ∀ (functions : List Builtin) (strict : Bool), SameSpans formula (capitalizeCalls formula)
        (callSites functions strict formula).outcome
        (callSites functions strict (capitalizeCalls formula)).outcome :=
  have same := sameButCapitals_capitalizeCallsFrom false formula
  ⟨same.length_eq.symm, getElem?_capitalizeCallsFrom false formula,
    (inCapitals_capitalizeCallsFrom false formula).capitalizeCallsFrom,
    Piece.located_capitalizeCallsFrom false formula 0, sameSpans_callSites same.map_capital⟩

end IndicatorFormula
