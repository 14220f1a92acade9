import IndicatorFormula.Proofs.Formula.Braces

/-! References that stand where operands begin.

Text is replaced in a formula without regard to its references. Every brace still belongs to a whole
reference afterwards, and no operand ends right before it: what is replaced ends like an operand, so
it does not stand there. Nor does a name come to stand before a digit one that the number of days
goes on from, since what is put in place is a zero. -/

set_option autoImplicit false
namespace IndicatorFormula

open Reference (isKey)

def endsOperand (c : Char) : Bool :=
  Text.isWord c || [')', ']', '}', '.'].contains c

/-- No operand ends before the blanks at the end of a text. -/
def AwaitsOperand (text : Text) : Prop :=
  ∀ lead c gap, text = lead ++ c :: gap → (∀ b ∈ gap, Text.isBlank b = true) → endsOperand c = false

def BracesBehind (holds : Text → Prop) (text : Text) : Prop :=
  ∀ start later, text = start ++ '{' :: later →
    ∃ (before : Text) (reference : Reference) (behind : Text), reference.Legible ∧
      reference.kind ≠ .days ∧ start = before ++ reference.kind.key ∧
      later = reference.key ++ '}' :: behind ∧ holds before

/-- References with parts stand where operands begin, and every brace is that of one. -/
def Sealed (text : Text) : Prop :=
  BracesBehind AwaitsOperand text

/-- A text may be replaced by another one without regard to references: it does not begin within a
key, it does not end right before a brace, and it ends like an operand if the other one does. -/
structure Exchanges (old new : Text) : Prop where
  breaks : BreaksKeys old
  braceless : Braceless new
  ends : ∃ first c first' d, old = first ++ [c] ∧ new = first' ++ [d] ∧
    (∀ kind ∈ ReferenceKind.braced, c ∉ kind.key) ∧ Text.isBlank d = false ∧
    (endsOperand d = true → endsOperand c = true)

variable {before behind old new text : Text}

theorem AwaitsOperand.exchange {lead other more : Text} {c d : Char}
    (awaits : AwaitsOperand (lead ++ c :: more)) (seen : Text.isBlank d = false)
    (ends : endsOperand d = true → endsOperand c = true) : AwaitsOperand (other ++ d :: more) := by
  intro start x gap same blank
  have here : d :: more = x :: gap → endsOperand x = false := by
    rintro ⟨⟩
    by_contra closes
    have closes := ends (Bool.eq_true_of_not_eq_false closes)
    rw [awaits lead c more rfl blank] at closes
    cases closes
  rcases List.append_eq_append_iff.mp same with ⟨middle, rfl, rest⟩ | ⟨middle, rfl, rest⟩
  · cases middle with
    | nil => exact here rest
    | cons e middle =>
      obtain ⟨rfl, rfl⟩ := List.cons.inj rest
      exact awaits (lead ++ c :: middle) x gap (by simp) blank
  · -- The last character that is no blank is not before the one that was exchanged, which is none.
    cases middle with
    | nil => exact here rest.symm
    | cons e middle =>
      obtain ⟨rfl, rfl⟩ := List.cons.inj rest
      rw [blank d (by simp)] at seen
      cases seen

theorem exists_behind {lead behind before last : Text} {c : Char}
    (same : lead ++ c :: behind = before ++ last) (other : c ∉ last) :
    ∃ more, behind = more ++ last ∧ before = lead ++ c :: more := by
  rw [← List.append_nil last] at same
  rcases outside_of_not_mem same.symm other with ⟨more, whole, rest⟩ | ⟨more, impossible, -⟩
  · exact ⟨more, by rw [rest, List.append_nil], whole⟩
  · simp at impossible

theorem exists_item {α β : Type} {items : List α} {parts : α → List β} {before after : List β}
    {x : β} (same : items.flatMap parts = before ++ x :: after) :
    ∃ first item last inner outer, items = first ++ item :: last ∧
      parts item = inner ++ x :: outer ∧ before = first.flatMap parts ++ inner ∧
      after = outer ++ last.flatMap parts := by
  induction items generalizing before with
  | nil => simp at same
  | cons item items ih =>
    rw [List.flatMap_cons] at same
    rcases List.append_eq_append_iff.mp same with ⟨more, rfl, rest⟩ | ⟨more, whole, rest⟩
    · obtain ⟨first, other, last, inner, outer, rfl, within, rfl, rfl⟩ := ih rest
      exact ⟨item :: first, other, last, inner, outer, rfl, within, by simp, rfl⟩
    · cases more with
      | nil =>
        have rest : items.flatMap parts = [] ++ x :: after := rest.symm
        obtain ⟨first, other, last, inner, outer, rfl, within, starts, rfl⟩ := ih rest
        exact ⟨item :: first, other, last, inner, outer, rfl, within, by simpa [whole] using starts,
          rfl⟩
      | cons d more =>
        obtain ⟨rfl, rfl⟩ := List.cons.inj rest
        exact ⟨[], item, items, before, more, rfl, whole, by simp, rfl⟩

theorem eq_of_singleton {α : Type} {x y : α} {before after : List α}
    (same : [x] = before ++ y :: after) : before = [] ∧ after = [] ∧ x = y := by
  cases before with
  | nil => exact ⟨rfl, (List.cons.inj same).2.symm, (List.cons.inj same).1⟩
  | cons z before => simp at same

theorem Sealed.replace (isSealed : Sealed (before ++ (old ++ behind)))
    (exchanges : Exchanges old new) : Sealed (before ++ (new ++ behind)) := by
  intro start later same
  rcases outside_of_not_mem same exchanges.braceless.opening
    with ⟨middle, rfl, rfl⟩ | ⟨middle, rfl, rfl⟩
  -- A reference before the replaced text closes there.
  · obtain ⟨lead, reference, rest, legible, other, whole, same', awaits⟩ :=
      isSealed start (middle ++ (old ++ behind)) (by simp)
    obtain ⟨more, rfl, -⟩ := exchanges.breaks.closes same' (legible.shape other).2.1
    exact ⟨lead, reference, more ++ (new ++ behind), legible, other, whole, by simp, awaits⟩
  -- A reference behind it begins there.
  · obtain ⟨first, c, first', d, rfl, rfl, notKey, seen, ends⟩ := exchanges.ends
    obtain ⟨lead, reference, rest, legible, other, whole, same', awaits⟩ :=
      isSealed (before ++ ((first ++ [c]) ++ middle)) later (by simp)
    have whole : (before ++ first) ++ c :: middle = lead ++ reference.kind.key := by
      simpa using whole
    obtain ⟨more, rfl, rfl⟩ := exists_behind whole (notKey _ (legible.shape other).1)
    exact ⟨(before ++ first') ++ d :: more, reference, rest, legible, other, by simp, same',
      awaits.exchange seen ends⟩

theorem CallHead.Calls.exchanges {head : CallHead} {function : Builtin}
    (calls : head.Calls function) : Exchanges head.text head.capitalized.text :=
  ⟨calls.braceless.1, calls.capitalized.braceless.2, head.name ++ head.gap, '(',
    head.capitalized.name ++ head.capitalized.gap, '(', rfl, rfl, by decide, by decide, id⟩

theorem Sealed.capitalizeCalls (isSealed : Sealed text) : Sealed (capitalizeCalls text) :=
  capitalizeCallsFrom_preserves (fun _ _ calls _ _ isSealed => isSealed.replace calls.exchanges)
    (show Sealed ([] ++ text) from isSealed) false

theorem AwaitsOperand.endsWord (awaits : AwaitsOperand text) : text.endsWord false = false := by
  cases text using List.reverseRecOn with
  | nil => rfl
  | append_singleton lead c =>
    have ends := awaits lead c [] rfl nofun
    rw [Text.endsWord_append]
    exact (Bool.or_eq_false_iff.mp ends).1

namespace BracesBehind

variable {afterWord : Bool} {c : Char}

theorem of_read {found : Reference}
    (braces : BracesBehind (fun before => before.endsWord afterWord = false) text)
    (read : Reference.read? afterWord text = some (found, behind)) :
    BracesBehind (fun before => before.endsWord false = false) behind := by
  obtain ⟨legible, -, whole⟩ := Reference.read?_eq_some_iff.mp read
  intro start later same
  obtain ⟨before, reference, last, legible', other, starts, ends, fresh⟩ :=
    braces (found.text ++ start) later (by rw [whole, same, List.append_assoc])
  obtain ⟨lead, closer, shape, closing⟩ := legible.last
  have outside : closer ∉ reference.kind.key := by
    have each : ∀ kind ∈ ReferenceKind.braced, '}' ∉ kind.key ∧ ']' ∉ kind.key := by decide
    have plain := each _ (legible'.shape other).1
    rcases closing with rfl | rfl
    · exact plain.1
    · exact plain.2
  have starts : lead ++ closer :: start = before ++ reference.kind.key := by
    simpa [shape] using starts
  obtain ⟨more, rest, rfl⟩ := exists_behind starts outside
  have same : lead ++ closer :: more = found.text ++ more := by simp [shape]
  rw [same, Text.endsWord_append, legible.endsWord] at fresh
  exact ⟨more, reference, last, legible', other, rest, ends, fresh⟩

theorem of_cons
    (braces : BracesBehind (fun before => before.endsWord afterWord = false) (c :: text))
    (none : Reference.read? afterWord (c :: text) = none) :
    BracesBehind (fun before => before.endsWord (Text.isWord c) = false) text := by
  rintro start later rfl
  obtain ⟨before, reference, behind, legible, other, starts, ends, fresh⟩ :=
    braces (c :: start) later rfl
  cases before with
  | nil =>
    have read : Reference.read? afterWord (c :: (start ++ '{' :: later)) =
        some (reference, behind) := by
      refine Reference.read?_eq_some_iff.mpr ⟨legible, fun word => ?_, ?_⟩
      · rw [show afterWord = false from fresh] at word
        cases word
      · rw [← List.cons_append, starts, ends, (legible.shape other).2.2]
        simp
    rw [none] at read
    cases read
  | cons d before =>
    obtain ⟨rfl, rest⟩ := List.cons.inj starts
    exact ⟨before, reference, behind, legible, other, rest, ends, fresh⟩

theorem ne_brace {holds : Text → Prop} (braces : BracesBehind holds (c :: text)) : c ≠ '{' := by
  rintro rfl
  obtain ⟨before, reference, behind, legible, other, starts, -⟩ := braces [] text rfl
  obtain ⟨-, ends, -⟩ := ReferenceKind.mark_mem (legible.shape other).1
  rw [ends] at starts
  simp at starts

/-- If no word goes on in the references that the braces of a text belong to, no brace is left
between references. -/
theorem not_mem_ofTextFrom
    (braces : BracesBehind (fun before => before.endsWord afterWord = false) text) :
    .plain '{' ∉ Piece.ofTextFrom afterWord text := by
  fun_induction Piece.ofTextFrom afterWord text with
  | case1 => exact List.not_mem_nil
  | case2 afterWord c rest found behind read ih =>
    intro member
    exact ih (braces.of_read read) ((List.mem_cons.mp member).resolve_left (by simp))
  | case3 afterWord c rest none ih =>
    intro member
    rcases List.mem_cons.mp member with same | member
    · exact braces.ne_brace (Piece.plain.inj same).symm
    · exact ih (braces.of_cons none) member

end BracesBehind

theorem Sealed.not_mem_ofText (isSealed : Sealed text) : .plain '{' ∉ Piece.ofText text := by
  refine BracesBehind.not_mem_ofTextFrom fun start later same => ?_
  obtain ⟨before, reference, behind, legible, other, starts, ends, awaits⟩ :=
    isSealed start later same
  exact ⟨before, reference, behind, legible, other, starts, ends, awaits.endsWord⟩

def SameButCapitals (text other : Text) : Prop :=
  List.Forall₂ (fun c d => d = c ∨ d = Text.capital c) text other

theorem SameButCapitals.refl (text : Text) : SameButCapitals text text :=
  List.forall₂_same.mpr fun _ _ => .inl rfl

theorem SameButCapitals.append {first second other more : Text} (same : SameButCapitals first other)
    (same' : SameButCapitals second more) : SameButCapitals (first ++ second) (other ++ more) :=
  List.rel_append same same'

theorem SameButCapitals.trans {first second third : Text} (same : SameButCapitals first second)
    (same' : SameButCapitals second third) : SameButCapitals first third := by
  induction same generalizing third with
  | nil => exact same'
  | cons own _ ih =>
    obtain ⟨e, rest, own', later, rfl⟩ := List.forall₂_cons_left_iff.mp same'
    refine .cons ?_ (ih later)
    rcases own with rfl | rfl
    · exact own'
    · exact .inr (own'.elim id fun twice => twice.trans (Text.capital_capital _))

theorem CallHead.sameButCapitals (head : CallHead) :
    SameButCapitals head.text head.capitalized.text := by
  have name : SameButCapitals head.name (head.name.map Text.capital) :=
    List.forall₂_map_right_iff.mpr (List.forall₂_same.mpr fun _ _ => .inr rfl)
  exact (name.append (.refl head.gap)).append (.refl ['('])

theorem sameButCapitals_capitalizeCallsFrom (afterWord : Bool) (text : Text) :
    SameButCapitals text (capitalizeCallsFrom afterWord text) := by
  fun_induction capitalizeCallsFrom afterWord text with
  | case1 => exact .nil
  | case2 afterWord c rest head behind read ih =>
    rw [CallHead.eq_of_read? read]
    exact head.sameButCapitals.append ih
  | case3 afterWord c rest none ih => exact .cons (.inl rfl) ih

def uncased : List Char :=
  '1' :: '{' :: ReferenceKind.days.key

theorem capital_eq_or (c : Char) : Text.capital c = c ∨
    Text.isWord c = true ∧ Text.isDigit c = false ∧ Text.capital c ∉ uncased := by
  by_cases small : c ∈ Text.smallLetters
  · have each : ∀ c ∈ Text.smallLetters, Text.isWord c = true ∧ Text.isDigit c = false ∧
        Text.capital c ∉ uncased := by
      decide
    exact .inr (each c small)
  · exact .inl (Text.capital_of_not_mem small)

theorem eq_of_uncased {c d : Char} (same : d = c ∨ d = Text.capital c) (fixed : d ∈ uncased) :
    d = c := by
  rcases same with rfl | rfl
  · rfl
  · rcases capital_eq_or c with same | ⟨-, -, other⟩
    · exact same
    · exact absurd fixed other

theorem SameButCapitals.cut {first second : Text} (same : SameButCapitals text (first ++ second)) :
    ∃ first' second', text = first' ++ second' ∧ SameButCapitals first' first ∧
      SameButCapitals second' second :=
  ⟨_, _, (List.take_append_drop first.length text).symm, List.forall₂_take_append _ _ _ same,
    List.forall₂_drop_append _ _ _ same⟩

theorem SameButCapitals.eq {part : Text} (same : SameButCapitals text part)
    (fixed : ∀ c ∈ part, c ∈ uncased) : text = part := by
  induction same with
  | nil => rfl
  | cons own _ ih =>
    rw [eq_of_uncased own (fixed _ List.mem_cons_self),
      ih fun c member => fixed c (List.mem_cons_of_mem _ member)]

theorem SameButCapitals.split {lead part : Text}
    (same : SameButCapitals text (lead ++ (part ++ behind))) (fixed : ∀ c ∈ part, c ∈ uncased) :
    ∃ lead' behind', text = lead' ++ (part ++ behind') ∧ SameButCapitals lead' lead := by
  obtain ⟨lead', rest, rfl, first, second⟩ := same.cut
  obtain ⟨part', behind', rfl, second, -⟩ := second.cut
  exact ⟨lead', behind', by rw [second.eq fixed], first⟩

/-- A digit one that the number of days goes on from does not follow a name. -/
def Unnamed (text : Text) : Prop :=
  ∀ lead c behind, text = lead ++ c :: '1' :: (ReferenceKind.days.key ++ behind) →
    Text.isWord c = true → Text.isDigit c = true

theorem Unnamed.replace (unnamed : Unnamed (before ++ (old ++ behind))) :
    Unnamed (before ++ (missingLiteral ++ behind)) := by
  intro lead c more same word
  -- The zero is not within the digit and the reference, so all of them are before it or behind it.
  have zero : '0' ∉ '1' :: ReferenceKind.days.key := by decide
  have same : (lead ++ [c]) ++ (('1' :: ReferenceKind.days.key) ++ more) =
      before ++ '0' :: behind := by
    simpa [missingLiteral] using same.symm
  rcases outside_of_not_mem same zero with ⟨middle, whole, rfl⟩ | ⟨middle, rfl, rfl⟩
  · cases middle using List.reverseRecOn with
    | nil =>
      obtain ⟨-, single⟩ := List.append_inj' whole rfl
      cases single
      decide
    | append_singleton middle last =>
      have whole : lead ++ [c] = (before ++ '0' :: middle) ++ [last] := by simpa using whole
      obtain ⟨-, single⟩ := List.append_inj' whole rfl
      cases single
      exact unnamed (before ++ (old ++ middle)) c more (by simp) word
  · exact unnamed lead c (middle ++ (old ++ behind)) (by simp) word

theorem SameButCapitals.unnamed {other : Text} (same : SameButCapitals text other)
    (unnamed : Unnamed text) : Unnamed other := by
  rintro lead c more rfl word
  have whole : lead ++ c :: '1' :: (ReferenceKind.days.key ++ more) =
      (lead ++ [c]) ++ (('1' :: ReferenceKind.days.key) ++ more) := by simp
  rw [whole] at same
  obtain ⟨before, behind', rfl, first⟩ := same.split (by decide)
  obtain ⟨lead', single, rfl, -, last⟩ := first.cut
  obtain ⟨d, none, own, ends, rfl⟩ := List.forall₂_cons_right_iff.mp last
  cases ends
  have digit : Text.isWord d = true → Text.isDigit d = true := unnamed lead' d behind' (by simp)
  rcases own with rfl | rfl
  · exact digit word
  · rcases capital_eq_or d with same | ⟨word', other, -⟩
    · rw [same] at word ⊢
      exact digit word
    · rw [digit word'] at other
      cases other

theorem Unnamed.capitalizeCalls (unnamed : Unnamed text) : Unnamed (capitalizeCalls text) :=
  (sameButCapitals_capitalizeCallsFrom false text).unnamed unnamed

end IndicatorFormula
