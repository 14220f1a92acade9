import IndicatorFormula.Proofs.Formula.Recasing

/-! Calls with their names in capitals.

Function names are capitalized once: capitals make no call and end none, so in the formula with its
names capitalized every name is. -/

set_option autoImplicit false
namespace IndicatorFormula

variable {afterWord : Bool} {text behind : Text} {head : CallHead} {function : Builtin}

def CallHead.readOther? (afterWord : Bool) (text : Text) : Option (CallHead × Text) :=
  (read? Builtin.all afterWord text).filter fun found => found.1.capitalized ≠ found.1

def InCapitals (afterWord : Bool) (text : Text) : Prop :=
  Silent CallHead.readOther? afterWord text []

namespace CallHead

theorem readOther?_eq_none (nothing : read? Builtin.all afterWord text = none) :
    readOther? afterWord text = none := by
  rw [readOther?, nothing]
  rfl

theorem readOther?_eq_some_iff : readOther? afterWord text = some (head, behind) ↔
    read? Builtin.all afterWord text = some (head, behind) ∧ head.capitalized ≠ head := by
  rw [readOther?, Option.filter_eq_some_iff]
  simp

end CallHead

open CallHead (read? readOther? readOther?_eq_none readOther?_eq_some_iff)

theorem InCapitals.drop {lead : Text} (inCapitals : InCapitals afterWord (lead ++ text)) :
    InCapitals (lead.endsWord afterWord) text :=
  Silent.drop inCapitals

theorem InCapitals.capitalized_eq (inCapitals : InCapitals false (head.text ++ behind))
    (calls : head.Calls function) : head.capitalized = head := by
  by_contra other
  have found : readOther? false (head.text ++ behind) = some (head, behind) :=
    readOther?_eq_some_iff.mpr
      ⟨CallHead.read?_eq_some_iff.mpr ⟨rfl, ⟨function, mem_all function, calls⟩, rfl⟩, other⟩
  obtain ⟨c, rest, starts, -⟩ := Lexer.isDigit_head calls
  rw [starts, List.cons_append] at inCapitals found
  have nothing := inCapitals.1
  rw [List.append_nil, found] at nothing
  cases nothing

theorem InCapitals.capitalizeCallsFrom (inCapitals : InCapitals afterWord text) :
    capitalizeCallsFrom afterWord text = text := by
  fun_induction IndicatorFormula.capitalizeCallsFrom afterWord text with
  | case1 => rfl
  | case2 afterWord c rest head behind read ih =>
    obtain ⟨rfl, ⟨function, -, calls⟩, whole⟩ := CallHead.read?_eq_some_iff.mp read
    rw [whole] at inCapitals ⊢
    have later := inCapitals.drop
    rw [Segment.endsWord_head] at later
    rw [inCapitals.capitalized_eq calls, ih later]
  | case3 afterWord c rest none ih => rw [ih inCapitals.2]

theorem eq_cons_of_capitalizeCallsFrom {c : Char} (other : Text.isWord c = false)
    (same : capitalizeCallsFrom afterWord text = c :: behind) :
    ∃ rest, text = c :: rest ∧ behind = capitalizeCallsFrom false rest := by
  have view := Lexer.capitals afterWord text
  rw [same] at view
  generalize shape : c :: behind = capital at view
  cases view with
  | nil => cases shape
  | @kept _ d rest none =>
    obtain ⟨rfl, rfl⟩ := List.cons.inj shape
    exact ⟨rest, rfl, by rw [other]⟩
  | head calls behind =>
    obtain ⟨d, rest, starts, word, -⟩ := Lexer.isDigit_head calls.capitalized
    rw [starts] at shape
    obtain ⟨rfl, -⟩ := List.cons.inj shape
    rw [word] at other
    cases other

theorem eq_of_capitalizeCallsFrom_opens {gap : Text} (blank : ∀ c ∈ gap, Text.isBlank c = true)
    (same : capitalizeCallsFrom afterWord text = gap ++ '(' :: behind) :
    ∃ rest, text = gap ++ '(' :: rest := by
  induction gap generalizing afterWord text with
  | nil =>
    obtain ⟨rest, rfl, -⟩ := eq_cons_of_capitalizeCallsFrom (by decide) same
    exact ⟨rest, rfl⟩
  | cons c gap ih =>
    obtain ⟨here, others⟩ := List.forall_mem_cons.mp blank
    obtain ⟨rest, rfl, later⟩ := eq_cons_of_capitalizeCallsFrom (Text.isWord_of_isBlank here) same
    obtain ⟨rest, rfl⟩ := ih others later.symm
    exact ⟨rest, rfl⟩

/-- Where no head is read, none is read when the names behind it are capitalized. -/
theorem read?_capitalizeCallsFrom {c : Char} {rest : Text}
    (none : read? Builtin.all afterWord (c :: rest) = none) :
    read? Builtin.all afterWord (c :: capitalizeCallsFrom (Text.isWord c) rest) = .none := by
  refine Option.eq_none_iff_forall_ne_some.mpr fun ⟨head, behind⟩ found => ?_
  obtain ⟨fresh, ⟨function, member, calls⟩, whole⟩ := CallHead.read?_eq_some_iff.mp found
  have word : Text.isWord c = true := by
    obtain ⟨d, last, starts, word, -⟩ := Lexer.isDigit_head calls
    rw [starts] at whole
    rwa [(List.cons.inj whole).1]
  obtain ⟨name, opens⟩ := calls.word behind
  rw [← whole, word, List.takeWhile_cons_of_pos word,
    (Lexer.takeWhile_isWord_capitalizeCallsFrom rest).1] at name
  rw [← whole, word, List.dropWhile_cons_of_pos word,
    (Lexer.takeWhile_isWord_capitalizeCallsFrom rest).2] at opens
  -- The name stands there before and after, and what opens the argument behind it is not
  -- capitalized.
  obtain ⟨last, shape⟩ := eq_of_capitalizeCallsFrom_opens calls.gap opens
  have same : c :: rest = head.text ++ last := by
    rw [CallHead.text_append, ← name, ← shape, List.cons_append, List.takeWhile_append_dropWhile]
  rw [CallHead.read?_eq_some_iff.mpr ⟨fresh, ⟨function, member, calls⟩, same⟩] at none
  cases none

theorem inCapitals_capitalizeCallsFrom (afterWord : Bool) (text : Text) :
    InCapitals afterWord (IndicatorFormula.capitalizeCallsFrom afterWord text) := by
  fun_induction IndicatorFormula.capitalizeCallsFrom afterWord text with
  | case1 => trivial
  | case2 afterWord c rest head behind read ih =>
    obtain ⟨rfl, ⟨function, member, calls⟩, -⟩ := CallHead.read?_eq_some_iff.mp read
    refine silent_append (calls.capitalized.silent ?_ (fun _ _ _ => readOther?_eq_none rfl)
      fun d opens after rest => ?_) ?_
    · refine Option.eq_none_iff_forall_ne_some.mpr fun ⟨other, last⟩ found => ?_
      obtain ⟨found, notCapital⟩ := readOther?_eq_some_iff.mp found
      obtain ⟨-, ⟨function', -, calls'⟩, whole⟩ := CallHead.read?_eq_some_iff.mp found
      obtain ⟨rfl, -⟩ := calls.capitalized.unique calls' whole
      exact notCapital head.capitalized_capitalized
    · refine readOther?_eq_none (CallHead.read?_eq_none (.inl ?_))
      rcases opens with blank | rfl
      · exact Text.isWord_of_isBlank blank
      · decide
    · rw [Segment.endsWord_head]
      exact ih
  | case3 afterWord c rest none ih =>
    refine ⟨readOther?_eq_none ?_, ih⟩
    rw [List.append_nil]
    exact read?_capitalizeCallsFrom none

end IndicatorFormula
