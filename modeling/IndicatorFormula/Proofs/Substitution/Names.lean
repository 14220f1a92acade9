import IndicatorFormula.Proofs.Formula.Capitals
import IndicatorFormula.Proofs.Substitution.Bareness
import IndicatorFormula.Proofs.Substitution.Extraction

/-! Function names in filled-in formulas.

Names are in capitals before numbers are put in place of references. A number does not stand in a
name, since no operand ends where a reference with parts stands, and the digits of a name do not go
on in those of a number of days. -/

set_option autoImplicit false
namespace IndicatorFormula

theorem Text.eq_of_spells_digit {e c : Char} (member : e ∈ nameCharacters)
    (spelled : spells e c = true) (digit : isDigit e = true ∨ isDigit c = true) : c = e := by
  have found :=
    of_spells (fun e c => !spells e c || !(isDigit e || isDigit c) || c == e) (by decide) member
      spelled
  rcases digit with digit | digit <;> simpa [spelled, digit] using found

/-- A digit in a function name is one of the ten behind a letter with which the name ends. -/
theorem Builtin.digits_of_name {function : Builtin} {lead rest : Text} {d : Char}
    (name : function.name = lead ++ d :: rest) (digit : Text.isDigit d = true) :
    lead = ['L', 'O', 'G'] ∧ d = '1' ∧ rest = ['0'] ∨
      lead = ['L', 'O', 'G', '1'] ∧ d = '0' ∧ rest = [] := by
  have names : ∀ function ∈ Builtin.all, ∀ i ∈ List.range function.name.length,
      (function.name.drop i).head?.all (fun e => !Text.isDigit e ||
        [(['L', 'O', 'G'], ['1', '0']), (['L', 'O', 'G', '1'], ['0'])].contains
          (function.name.take i, function.name.drop i)) = true := by
    decide
  have within : lead.length < function.name.length := by simp [name]
  have found := names function (mem_all function) lead.length (List.mem_range.mpr within)
  rw [name] at found
  simpa [digit, and_assoc] using found

namespace CallHead.Calls

variable {head : CallHead} {function : Builtin} {lead rest : Text} {d : Char}

theorem name_ne_nil (calls : head.Calls function) : head.name ≠ [] := by
  have some : 0 < function.name.length := by cases function <;> decide
  rw [← List.length_pos_iff, ← calls.name.length_eq]
  exact some

theorem word_before (calls : head.Calls function) (same : head.text = lead ++ rest)
    (begun : lead ≠ []) (goesOn : rest ≠ []) :
    ∃ first c gap, lead = first ++ c :: gap ∧ Text.isWord c = true ∧
      ∀ b ∈ gap, Text.isBlank b = true := by
  have word := Text.isWord_of_spelling calls.name
  have whole : head.name ++ head.gap = lead ++ rest.dropLast := by
    have whole := congrArg List.dropLast same
    rwa [CallHead.text, List.dropLast_concat, List.dropLast_append_of_ne_nil goesOn] at whole
  rcases List.append_eq_append_iff.mp whole with ⟨gap, rfl, blanks⟩ | ⟨behind, name, -⟩
  · refine ⟨head.name.dropLast, head.name.getLast calls.name_ne_nil, gap, ?_,
      word _ (List.getLast_mem _), fun b member => ?_⟩
    · rw [List.append_cons, List.dropLast_append_getLast]
    · exact calls.gap b (by simp [blanks, member])
  · refine ⟨lead.dropLast, lead.getLast begun, [], (List.dropLast_append_getLast begun).symm,
      word _ ?_, by simp⟩
    rw [name]
    exact List.mem_append_left _ (List.getLast_mem begun)

/-- The digits of a head are those of a ten behind a letter, with which its name ends. -/
theorem digits (calls : head.Calls function) (same : head.text = lead ++ d :: rest)
    (digit : Text.isDigit d = true) :
    ∃ first c, Text.isWord c = true ∧ Text.isDigit c = false ∧
      (lead = first ++ [c] ∧ d = '1' ∧ rest = '0' :: (head.gap ++ ['(']) ∨
        lead = first ++ [c, '1'] ∧ d = '0' ∧ rest = head.gap ++ ['(']) := by
  -- The digit is in the name.
  have plain : d ∉ head.gap ++ ['('] := by
    intro member
    have word := Lexer.isWord_of_isDigit digit
    rcases List.mem_append.mp member with blank | opens
    · rw [Text.isWord_of_isBlank (calls.gap d blank)] at word
      cases word
    · rw [List.mem_singleton.mp opens] at digit
      exact absurd digit (by decide)
  have whole : head.name ++ ((head.gap ++ ['(']) ++ []) = lead ++ d :: rest := by
    rw [← same, CallHead.text, List.append_nil, List.append_assoc]
  rcases outside_of_not_mem whole plain with ⟨more, name, rfl⟩ | ⟨more, impossible, -⟩
  · have spelling := calls.name
    rw [name] at spelling
    have leads := List.forall₂_take_append _ _ _ spelling
    obtain ⟨e, ends, spelled, more', shape⟩ :=
      List.forall₂_cons_right_iff.mp (List.forall₂_drop_append _ _ _ spelling)
    have member : e ∈ function.name :=
      List.mem_of_mem_drop (by rw [shape]; exact List.mem_cons_self)
    obtain rfl : d = e :=
      Text.eq_of_spells_digit (Text.mem_nameCharacters member) spelled (.inr digit)
    have name : function.name = function.name.take lead.length ++ d :: ends := by
      rw [← shape, List.take_append_drop]
    have letter : ∀ {c : Char}, Text.spells 'G' c = true →
        Text.isWord c = true ∧ Text.isDigit c = false := by
      intro c spelled
      have found :=
        Text.of_spells (fun e c => e != 'G' || !Text.spells e c || Text.isWord c && !Text.isDigit c)
          (by decide) (by decide) spelled
      simpa [spelled] using found
    rcases Builtin.digits_of_name name digit with ⟨taken, rfl, rfl⟩ | ⟨taken, rfl, rfl⟩ <;>
      rw [taken] at leads
    · obtain _ | ⟨-, _ | ⟨-, _ | ⟨spelled', _ | _⟩⟩⟩ := leads
      obtain _ | ⟨zero, _ | _⟩ := more'
      obtain rfl := Text.eq_of_spells_digit (by decide) zero (.inl (by decide))
      exact ⟨[_, _], _, (letter spelled').1, (letter spelled').2, .inl ⟨rfl, rfl, by simp⟩⟩
    · obtain _ | ⟨-, _ | ⟨-, _ | ⟨spelled', _ | ⟨one, _ | _⟩⟩⟩⟩ := leads
      obtain _ | _ := more'
      obtain rfl := Text.eq_of_spells_digit (by decide) one (.inl (by decide))
      exact ⟨[_, _], _, (letter spelled').1, (letter spelled').2, .inr ⟨rfl, rfl, by simp⟩⟩
  · simp at impossible

end CallHead.Calls

theorem Sealed.awaits {text lead behind : Text} {found : Reference} (isSealed : Sealed text)
    (legible : found.Legible) (other : found.kind ≠ .days)
    (same : text = lead ++ (found.text ++ behind)) : AwaitsOperand lead := by
  obtain ⟨braced, -, shape⟩ := legible.shape other
  obtain ⟨before, reference, rest, legible', other', starts, -, awaits⟩ :=
    isSealed (lead ++ found.kind.key) (found.key ++ '}' :: behind) (by simp [same, shape])
  obtain ⟨braced', -, -⟩ := legible'.shape other'
  -- The characters before braces tell kinds apart.
  have kind : found.kind = reference.kind := by
    refine ReferenceKind.mark_injective braced ?_
    have last := congrArg List.getLast? starts
    rw [(ReferenceKind.mark_mem braced).2.1, (ReferenceKind.mark_mem braced').2.1] at last
    simpa using last
  rw [kind] at starts
  exact List.append_cancel_right starts ▸ awaits

variable {literal : Reference → Text} {lead behind : Text} {head : CallHead} {function : Builtin}

theorem endsWord_of_filled {pieces : List Piece}
    (legible : ∀ found, .reference found ∈ pieces → found.Legible)
    (fresh : Text.endsWord false (pieces.flatMap (Piece.filled literal)) = false) :
    Text.endsWord false (pieces.flatMap Piece.text) = false := by
  cases pieces using List.reverseRecOn with
  | nil => rfl
  | append_singleton pieces piece =>
    rw [List.flatMap_append, List.flatMap_singleton, Text.endsWord_append] at fresh ⊢
    cases piece with
    | plain c => exact fresh
    | reference found => exact (legible found (by simp)).endsWord _

theorem CallHead.Calls.apart_days {text front rest last : Text} (calls : head.Calls function)
    (unnamed : Unnamed text)
    (days : literal ⟨.days, []⟩ = missingLiteral ∨ Lexer.Stops (literal ⟨.days, []⟩))
    (shape : head.text = front ++ rest) (some : rest ≠ [])
    (stands : text = lead ++ (front ++ (ReferenceKind.days.key ++ last))) {more : Text}
    (same : literal ⟨.days, []⟩ ++ more = rest ++ behind) : False := by
  obtain ⟨d, rest, rfl⟩ := List.exists_cons_of_ne_nil some
  rcases days with missing | ⟨digits, mark, tail, stops, begins, each, isMark⟩
  · rw [missing] at same
    obtain ⟨rfl, -⟩ := List.cons.inj same
    obtain ⟨first, c, word, letter, ⟨-, impossible, -⟩ | ⟨rfl, -, -⟩⟩ :=
      calls.digits shape (by decide)
    · cases impossible
    · rw [unnamed (lead ++ first) c last (by simp [stands]) word] at letter
      cases letter
  · obtain ⟨e, digits, rfl⟩ := List.exists_cons_of_ne_nil begins
    rw [stops] at same
    obtain ⟨rfl, same⟩ := List.cons.inj same
    have ends : ∃ tens, (∀ c ∈ tens, Text.isDigit c = true) ∧
        rest = tens ++ (head.gap ++ ['(']) := by
      obtain ⟨first, c, -, -, ⟨-, -, rfl⟩ | ⟨-, -, rfl⟩⟩ :=
        calls.digits shape (each e List.mem_cons_self)
      · exact ⟨['0'], by decide, rfl⟩
      · exact ⟨[], nofun, rfl⟩
    obtain ⟨tens, ten, rfl⟩ := ends
    -- What stops the digits of the number neither is a blank nor opens an argument.
    have opener : ∀ c ∈ (head.gap ++ '(' :: behind).head?, Text.isDigit c = false ∧ c ≠ '.' ∧
        c ≠ 'e' := by
      intro c found
      rcases calls.behind_name behind c found with blank | rfl
      · have plain :=
          Text.of_isBlank (fun c => !Text.isDigit c && c != '.' && c != 'e') (by decide) blank
        simpa [and_assoc] using plain
      · decide
    have dropped : ∀ {digits rest : Text}, (∀ c ∈ digits, Text.isDigit c = true) →
        (∀ c ∈ rest.head?, Text.isDigit c = false) →
        (digits ++ rest).dropWhile Text.isDigit = rest :=
      fun each stops => by
      rw [List.dropWhile_append_of_pos each, (Lexer.takeWhile_of_head stops).2]
    have left : (digits ++ mark :: (tail ++ more)).dropWhile Text.isDigit =
        mark :: (tail ++ more) := by
      refine dropped (fun c member => each c (List.mem_cons_of_mem e member)) ?_
      rintro c ⟨⟩
      rcases isMark with rfl | rfl <;> decide
    have right := dropped ten fun c found => (opener c found).1
    have same : digits ++ mark :: (tail ++ more) = tens ++ (head.gap ++ '(' :: behind) := by
      simpa using same
    rw [same, right] at left
    obtain ⟨-, point, exponent⟩ := opener mark (by rw [left]; rfl)
    exact isMark.elim point exponent

/-- No number stands in a head, so a head in a filled-in text was there before. -/
theorem head_of_filled {text : Text} (calls : head.Calls function) (isSealed : Sealed text)
    (unnamed : Unnamed text)
    (silent : ∀ reference afterWord behind, Silent (CallHead.read? Builtin.all) afterWord
      (literal reference) behind)
    (days : literal ⟨.days, []⟩ = missingLiteral ∨ Lexer.Stops (literal ⟨.days, []⟩))
    (same : (Piece.ofText text).flatMap (Piece.filled literal) = lead ++ (head.text ++ behind))
    (fresh : lead.endsWord false = false) :
    ∃ first last, Piece.ofText text = first ++ (head.text.map .plain ++ last) ∧
      first.flatMap (Piece.filled literal) = lead := by
  have legible : ∀ found, .reference found ∈ Piece.ofText text → found.Legible :=
    fun found member =>
    (Piece.exists_of_mem_ofText member).1
  have read : CallHead.read? Builtin.all (lead.endsWord false) (head.text ++ behind) =
      some (head, behind) :=
    CallHead.read?_eq_some_iff.mpr ⟨fresh, ⟨function, mem_all function, calls⟩, rfl⟩
  obtain ⟨c, d, later, starts, -, -⟩ := calls.opensName
  rw [starts] at same read
  obtain ⟨first, piece, last, inner, outer, pieces, within, rfl, rest⟩ :=
    exists_item (show _ = lead ++ c :: (d :: later ++ behind) from same)
  cases piece with
  | reference found =>
    -- It does not begin in a number.
    have within : literal found = inner ++ c :: outer := within
    have nothing :=
      silent_iff.mp (silent found (Text.endsWord false (first.flatMap (Piece.filled literal)))
        (last.flatMap (Piece.filled literal))) inner c outer within
    rw [← Text.endsWord_append, ← rest] at nothing
    have read : CallHead.read? Builtin.all _ (c :: (d :: later ++ behind)) = some (head, behind) :=
      read
    rw [nothing] at read
    cases read
  | plain x =>
    obtain ⟨rfl, rfl, rfl⟩ := eq_of_singleton (show [x] = inner ++ c :: outer from within)
    have suffix : (.plain x :: last).flatMap (Piece.filled literal) = head.text ++ behind := by
      rw [List.flatMap_cons, starts, List.cons_append, rest]
      rfl
    rcases plain_or_reference suffix
      with ⟨last', ends, -⟩ | ⟨front, found, last', rest', ends, shape, some, goesOn⟩
    · exact ⟨first, last', by rw [pieces, ends], by simp⟩
    · -- Nor does it go on in one.
      have begun : front ≠ [] := by
        rintro rfl
        cases ends
      have pieces : Piece.ofText text =
          first ++ (front.map .plain ++ .reference found :: last') := by
        rw [pieces, ends]
      have stands : text =
          first.flatMap Piece.text ++ (front ++ (found.text ++ last'.flatMap Piece.text)) := by
        rw [Piece.eq_of_ofText pieces]
        simp [List.flatMap_map, Piece.text]
      have legible := legible found (by simp [pieces])
      by_cases isDays : found.kind = .days
      · rw [legible.eq_days isDays] at stands goesOn
        exact (calls.apart_days unnamed days shape some stands goesOn).elim
      · obtain ⟨inside, c, gap, rfl, word, blank⟩ := calls.word_before shape begun some
        have awaits := isSealed.awaits legible isDays (stands.trans (List.append_assoc ..).symm)
        have ends := awaits (first.flatMap Piece.text ++ inside) c gap (by simp) blank
        simp [endsOperand, word] at ends

theorem InCapitals.filled {text : Text} (inCapitals : InCapitals false text)
    (isSealed : Sealed text) (unnamed : Unnamed text)
    (silent : ∀ reference afterWord behind, Silent (CallHead.read? Builtin.all) afterWord
      (literal reference) behind)
    (days : literal ⟨.days, []⟩ = missingLiteral ∨ Lexer.Stops (literal ⟨.days, []⟩)) :
    InCapitals false ((Piece.ofText text).flatMap (Piece.filled literal)) := by
  refine silent_iff.mpr
    fun lead c rest same => Option.eq_none_iff_forall_ne_some.mpr fun ⟨head, behind⟩ found => ?_
  obtain ⟨read, other⟩ := CallHead.readOther?_eq_some_iff.mp found
  obtain ⟨fresh, ⟨function, member, calls⟩, starts⟩ := CallHead.read?_eq_some_iff.mp read
  rw [List.append_nil] at starts
  rw [starts] at same
  obtain ⟨first, last, pieces, rfl⟩ := head_of_filled calls isSealed unnamed silent days same fresh
  -- The head stands in the text behind the same characters, or behind a reference.
  have legible : ∀ found, Piece.reference found ∈ first → found.Legible := fun found member => by
    have held : Piece.reference found ∈ Piece.ofText text := by
      rw [pieces]
      exact List.mem_append_left _ member
    exact (Piece.exists_of_mem_ofText held).1
  have fresh := endsWord_of_filled legible fresh
  have whole : text = first.flatMap Piece.text ++ (head.text ++ last.flatMap Piece.text) := by
    rw [Piece.eq_of_ofText pieces]
    simp [List.flatMap_map, Piece.text]
  have later := (whole ▸ inCapitals).drop
  rw [fresh] at later
  exact other (later.capitalized_eq calls)

theorem silent_ofReference {numbers : Supply} (finite : numbers.Finite) (reference : Reference)
    {functions : List Builtin} (afterWord : Bool) (behind : Text) :
    Silent (CallHead.read? functions) afterWord
      ((Segment.ofReference numbers reference).flatMap Segment.text) behind := by
  have number : ∀ {literal : Text} {value : Double} {after : Bool} {more : Text}, Lexer.IsNumber
        literal value → Silent (CallHead.read? functions) after literal more :=
    fun number => Segment.silent_literal number.isLiteral
  have mark : ∀ c ∈ ['(', '-', ')'], ∀ after rest, CallHead.read? functions after (c :: rest) =
      none :=
    fun c member after rest => CallHead.read?_eq_none (.inl (by revert c; decide))
  unfold Segment.ofReference
  cases supplied : numbers.number? reference with
  | none => simpa [Segment.text] using number Segment.isNumber_missingLiteral
  | some x =>
    obtain ⟨negative, m, value⟩ := finite reference x supplied
    simp only [value]
    cases negative with
    | false => simpa [Segment.ofMagnitude, Segment.text] using number (Lexer.isNumber_magnitude m)
    | true =>
      have whole : (Segment.ofMagnitude true m).flatMap Segment.text =
          ['(', '-'] ++ (numberLayout.magnitude m ++ [')']) := by
        simp [Segment.ofMagnitude, Segment.text, Symbol.text]
      rw [whole]
      exact silent_append
          (silent_of_each fun c member => mark c (List.mem_append_left [')'] member))
          (silent_append (number (Lexer.isNumber_magnitude m)) (silent_of_each fun c member =>
          mark c (List.mem_append_right ['(', '-'] member)))

def Number.IsUnsigned (x : Number) : Prop :=
  ∃ m, x.toDouble = .ok (.finite false m)

instance (x : Number) : Decidable x.IsUnsigned :=
  decidable_of_iff (x.toDouble.toOption.any (fun value => value matches .finite false _) = true) (by
    unfold Number.IsUnsigned
    rcases x.toDouble with _ | (_ | _ | ⟨_ | _, _⟩) <;> simp [Except.toOption])

theorem stops_days {numbers : Supply} (unsigned : ∀ x ∈ numbers.days, x.IsUnsigned) :
    (Segment.ofReference numbers ⟨.days, []⟩).flatMap Segment.text = missingLiteral ∨
      Lexer.Stops ((Segment.ofReference numbers ⟨.days, []⟩).flatMap Segment.text) := by
  have supplied : numbers.number? ⟨.days, []⟩ = numbers.days := rfl
  unfold Segment.ofReference
  rw [supplied]
  cases days : numbers.days with
  | none => exact .inl (by simp [Segment.text])
  | some x =>
    obtain ⟨m, value⟩ := unsigned x days
    simp only [value]
    exact .inr
      (by simpa [Segment.ofMagnitude, Segment.text] using Lexer.stops_magnitude numberLayout m.isLt)

end IndicatorFormula
