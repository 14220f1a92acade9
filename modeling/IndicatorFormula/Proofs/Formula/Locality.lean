import IndicatorFormula.Proofs.Formula.Braces
import IndicatorFormula.Proofs.Formula.Capitals

/-! Where references are read.

A reference that stands in a text is read there, whatever surrounds it: nothing that begins before
it runs into it. So the text before it has the references that it has alone, and so has the text
behind it. Capital letters in the names of calls move no reference. -/

set_option autoImplicit false
namespace IndicatorFormula

namespace Reference

variable {found reference : Reference} {lead more rest behind : Text}

def isClosing (c : Char) : Bool :=
  c == '}' || c == ']'

theorem isKey_bracket : isKey '[' = false ∧ isKey ']' = false := by
  decide

theorem isClosing_of_isKey {c : Char} (key : isKey c = true) : isClosing c = false := by
  refine Bool.eq_false_iff.mpr fun closing => ?_
  rcases Bool.or_eq_true_iff.mp closing with same | same
  · rw [beq_iff_eq.mp same, isKey_closing] at key
    cases key
  · rw [beq_iff_eq.mp same, isKey_bracket.2] at key
    cases key

theorem Legible.closing (legible : reference.Legible) :
    ∃ lead last, reference.text = lead ++ [last] ∧ (∀ c ∈ lead, isClosing c = false) ∧
      isClosing last = true := by
  by_cases days : reference.kind = .days
  · rw [legible.eq_days days]
    exact ⟨['[', 'd', 'a', 'y', 's'], ']', rfl, by decide, rfl⟩
  · obtain ⟨braced, each, shape⟩ := legible.shape days
    have key : ∀ c ∈ reference.kind.key, isClosing c = false := by
      revert braced
      cases reference.kind <;> decide
    refine ⟨reference.kind.key ++ '{' :: reference.key, '}', by rw [shape]; simp,
      fun c member => ?_, rfl⟩
    rcases List.mem_append.mp member with member | member
    · exact key c member
    · rcases List.mem_cons.mp member with rfl | member
      · rfl
      · exact isClosing_of_isKey (each c member)

theorem Legible.bracket_not_mem (legible : reference.Legible) (other : reference.kind ≠ .days) :
    '[' ∉ reference.text := by
  obtain ⟨braced, each, shape⟩ := legible.shape other
  have key : '[' ∉ reference.kind.key := by
    revert braced
    cases reference.kind <;> decide
  intro member
  simp only [shape, List.mem_append, List.mem_cons, List.not_mem_nil, or_false] at member
  rcases member with member | impossible | member | impossible
  · exact key member
  · exact absurd impossible (by decide)
  · exact absurd (each _ member) (by rw [isKey_bracket.1]; decide)
  · exact absurd impossible (by decide)

theorem Legible.eq_nil_of_text (legible : found.Legible) (legible' : reference.Legible)
    (shape : found.text = lead ++ reference.text) : lead = [] := by
  by_cases days' : reference.kind = .days
  · obtain rfl := legible'.eq_days days'
    by_cases days : found.kind = .days
    · rw [legible.eq_days days] at shape
      exact List.self_eq_append_left.mp shape
    · exact absurd (by rw [shape]; simp [Reference.text, ReferenceKind.key])
        (legible.bracket_not_mem days)
  · obtain ⟨braced, -, shape'⟩ := legible'.shape days'
    have days : found.kind ≠ .days := by
      intro days
      rw [legible.eq_days days, shape'] at shape
      exact absurd (show '{' ∈ Reference.text ⟨.days, []⟩ by rw [shape]; simp) (by decide)
    rw [shape', ← List.append_assoc] at shape
    obtain ⟨whole, -⟩ := legible.brace days shape
    -- The brace stands behind the mark of one kind only.
    obtain ⟨-, ends', -⟩ := ReferenceKind.mark_mem braced
    obtain ⟨-, ends, -⟩ := ReferenceKind.mark_mem (legible.shape days).1
    have marks := congrArg List.getLast? whole
    rw [ends, ends', ← List.append_assoc, List.getLast?_concat, List.getLast?_concat] at marks
    rw [ReferenceKind.mark_injective braced (Option.some.inj marks)] at whole
    exact List.append_left_eq_self.mp whole

/-- A reference begins within another one only where that one does. -/
theorem Legible.eq_nil_of_overlap (legible : found.Legible) (legible' : reference.Legible)
    (shape : found.text = lead ++ more) (some : more ≠ [])
    (same : more ++ rest = reference.text ++ behind) : lead = [] := by
  refine legible.eq_nil_of_text legible' ?_
  obtain ⟨inner, last, text, each, ends⟩ := legible.closing
  obtain ⟨inner', last', text', each', ends'⟩ := legible'.closing
  obtain ⟨middle, rfl⟩ : ∃ middle, more = middle ++ [last] := by
    have whole := congrArg List.getLast? (text.symm.trans shape)
    rw [List.getLast?_concat, List.getLast?_append_of_ne_nil _ some] at whole
    exact ⟨more.dropLast, (List.dropLast_append_getLast? _ whole.symm).symm⟩
  have lead' : inner = lead ++ middle := by
    rw [text, ← List.append_assoc] at shape
    exact (List.append_inj' shape rfl).1
  -- Both end at the first character that closes one.
  have first : ∀ {text : Text} {last : Char} (rest : Text), (∀ c ∈ text, isClosing c = false) →
      isClosing last = true → ((text ++ [last]) ++ rest).takeWhile (!isClosing ·) = text :=
    fun rest each ends => by
    rw [List.append_assoc, List.takeWhile_append_of_pos fun c member => by simp [each c member]]
    simp [ends]
  rw [text'] at same
  have before := congrArg (List.takeWhile (!isClosing ·)) same
  rw [first rest (fun c member => each c (lead' ▸ List.mem_append_right _ member)) ends,
    first behind each' ends'] at before
  subst before
  obtain ⟨rfl, -⟩ : last = last' ∧ rest = behind := by simpa using same
  rw [shape, text']

end Reference

namespace Piece

variable {afterWord : Bool} {reference : Reference} {before behind : Text}

theorem read?_append_reference (legible : reference.Legible) (some : before ≠ []) :
    Reference.read? afterWord (before ++ (reference.text ++ behind)) =
      (Reference.read? afterWord before).map
        fun found => (found.1, found.2 ++ (reference.text ++ behind)) := by
  cases read : Reference.read? afterWord before with
  | some pair =>
    obtain ⟨found, rest⟩ := pair
    obtain ⟨legible', fresh, rfl⟩ := Reference.read?_eq_some_iff.mp read
    exact Reference.read?_eq_some_iff.mpr ⟨legible', fresh, List.append_assoc ..⟩
  | none =>
    refine Option.eq_none_iff_forall_ne_some.mpr fun ⟨found, rest⟩ longer => ?_
    obtain ⟨legible', fresh, whole⟩ := Reference.read?_eq_some_iff.mp longer
    rcases List.append_eq_append_iff.mp whole with ⟨more, shape, same⟩ | ⟨more, shape, -⟩
    · by_cases none : more = []
      · rw [none, List.append_nil] at shape
        have whole : before = found.text ++ [] := shape.symm.trans (List.append_nil _).symm
        rw [Reference.read?_eq_some_iff.mpr ⟨legible', fresh, whole⟩] at read
        cases read
      · exact some (legible'.eq_nil_of_overlap legible shape none same.symm)
    · rw [Reference.read?_eq_some_iff.mpr ⟨legible', fresh, shape⟩] at read
      cases read

/-- The pieces of a text in which a reference stands are those of the text before it, the reference,
and those of the text behind it. -/
theorem ofTextFrom_append_reference (legible : reference.Legible)
    (fresh : before.endsWord afterWord = true → reference.kind = .days) :
    ofTextFrom afterWord (before ++ (reference.text ++ behind)) =
      ofTextFrom afterWord before ++ .reference reference :: ofTextFrom false behind := by
  fun_induction ofTextFrom afterWord before with
  | case1 afterWord => exact ofTextFrom_reference legible fresh behind
  | case2 afterWord c rest found rest' read ih =>
    have longer : Reference.read? afterWord (c :: rest ++ (reference.text ++ behind)) = _ :=
      read?_append_reference legible (List.cons_ne_nil c rest)
    rw [read] at longer
    obtain ⟨legible', -, whole⟩ := Reference.read?_eq_some_iff.mp read
    rw [whole, Text.endsWord_append, legible'.endsWord] at fresh
    rw [ofTextFrom_of_read? longer, ih fresh, List.cons_append]
  | case3 afterWord c rest none ih =>
    have longer : Reference.read? afterWord (c :: rest ++ (reference.text ++ behind)) = _ :=
      read?_append_reference legible (List.cons_ne_nil c rest)
    rw [none] at longer
    have silent : Silent Reference.read? afterWord [c] (rest ++ (reference.text ++ behind)) :=
      ⟨longer, trivial⟩
    rw [List.cons_append, ← List.singleton_append, ofTextFrom_append silent]
    exact congrArg (_ :: ·) (ih fresh)

section Located

variable {position place : Nat} {pieces : List Piece} {text : Text}

theorem located_append (position : Nat) (first second : List Piece) :
    located position (first ++ second) =
      located position first ++ located (position + (first.flatMap Piece.text).length) second := by
  induction first generalizing position with
  | nil => rfl
  | cons piece first ih =>
    cases piece <;> simp [located, ih, Nat.add_assoc]

theorem located_bounds {position : Nat} {pieces : List Piece} {found : Nat × Reference}
    (member : found ∈ located position pieces) :
    position ≤ found.1 ∧ found.1 < position + (pieces.flatMap Piece.text).length := by
  induction pieces generalizing position with
  | nil => exact absurd member List.not_mem_nil
  | cons piece pieces ih =>
    have whole : ((piece :: pieces).flatMap Piece.text).length =
        piece.text.length + (pieces.flatMap Piece.text).length := by
      simp
    have later : found ∈ located (position + piece.text.length) pieces →
        position ≤ found.1 ∧ found.1 < position + ((piece :: pieces).flatMap Piece.text).length :=
      fun member => by
      obtain ⟨least, below⟩ := ih member
      omega
    cases piece with
    | plain c => exact later member
    | reference reference =>
      rcases List.mem_cons.mp member with rfl | member
      · have some := List.length_pos_iff.mpr reference.text_ne_nil
        simp only [Piece.text] at whole
        exact ⟨Nat.le_refl _, by simp only; omega⟩
      · exact later member

theorem map_snd_located (position : Nat) (pieces : List Piece) :
    (located position pieces).map Prod.snd = references pieces := by
  induction pieces generalizing position with
  | nil => rfl
  | cons piece pieces ih => cases piece <;> simp [located, references, ih]

@[simp] theorem located_plain (position : Nat) (text : Text) :
    located position (text.map .plain) = [] := by
  induction text generalizing position with
  | nil => rfl
  | cons c text ih => exact ih _

theorem located_add (position further : Nat) (pieces : List Piece) :
    located (position + further) pieces =
      (located further pieces).map fun found => (position + found.1, found.2) := by
  induction pieces generalizing further with
  | nil => rfl
  | cons piece pieces ih =>
    have later := ih (further + piece.text.length)
    rw [← Nat.add_assoc] at later
    cases piece <;> simp [located, later]

theorem pairwise_located (position : Nat) (pieces : List Piece) :
    (located position pieces).Pairwise
      fun first second => first.1 + first.2.text.length ≤ second.1 := by
  induction pieces generalizing position with
  | nil => exact .nil
  | cons piece pieces ih =>
    cases piece with
    | plain c => exact ih _
    | reference reference =>
      exact List.pairwise_cons.mpr ⟨fun found member => (located_bounds member).1, ih _⟩

theorem exists_of_mem_located {position place : Nat} {reference : Reference}
    (member : (place, reference) ∈ Piece.located position (Piece.ofTextFrom afterWord text)) :
    ∃ lead rest, text = lead ++ (reference.text ++ rest) ∧ place = position + lead.length ∧
      reference.Legible ∧ (lead.endsWord afterWord = true → reference.kind = .days) := by
  fun_induction Piece.ofTextFrom afterWord text generalizing position with
  | case1 => cases member
  | case2 afterWord c rest found behind read ih =>
    obtain ⟨legible, fresh, whole⟩ := Reference.read?_eq_some_iff.mp read
    rcases List.mem_cons.mp member with same | member
    · cases same
      exact ⟨[], behind, whole, by simp, legible, fresh⟩
    · obtain ⟨lead, last, rfl, same, legible', fresh'⟩ := ih member
      refine ⟨found.text ++ lead, last, by rw [whole, List.append_assoc], ?_, legible',
        fun word => fresh' ?_⟩
      · simp [same, Piece.text, Nat.add_assoc]
      · rwa [Text.endsWord_append, legible.endsWord] at word
  | case3 afterWord c rest none ih =>
    obtain ⟨lead, last, rfl, same, legible, fresh⟩ := ih member
    exact ⟨c :: lead, last, rfl, by simp [same, Piece.text]; omega, legible, fresh⟩

end Located

end Piece

/-- A reference in a text is read where it stands if no word character precedes it, and the number
of days in any case. The other references are those of the text before it and those of the text
behind it, each read alone: what is half open there takes nothing from it. What is read is the text
of the reference, and what is read later begins behind it. -/
theorem located_append_reference :
    (∀ (reference : Reference) (before behind : Text), reference.Legible →
        (before.endsWord false = true → reference.kind = .days) →
        Piece.located 0 (Piece.ofText (before ++ (reference.text ++ behind))) =
          Piece.located 0 (Piece.ofText before) ++ (before.length, reference) ::
            (Piece.located 0 (Piece.ofText behind)).map
              fun found => (before.length + reference.text.length + found.1, found.2)) ∧
      ∀ formula : Text, (∀ found ∈ Piece.located 0 (Piece.ofText formula), found.2.Legible ∧
          (formula.drop found.1).take found.2.text.length = found.2.text) ∧
        (Piece.located 0 (Piece.ofText formula)).Pairwise
          fun first second => first.1 + first.2.text.length ≤ second.1 := by
  refine ⟨fun reference before behind legible fresh => ?_,
    fun formula => ⟨fun ⟨place, found⟩ member => ?_, ?_⟩⟩
  · rw [Piece.ofText, Piece.ofTextFrom_append_reference legible fresh, Piece.located_append,
      Piece.text_ofTextFrom, Nat.zero_add]
    have later := Piece.located_add (before.length + reference.text.length) 0 (Piece.ofText behind)
    exact congrArg (_ ++ (before.length, reference) :: ·) later
  · obtain ⟨lead, rest, rfl, rfl, legible, -⟩ := Piece.exists_of_mem_located member
    exact ⟨legible, by simp⟩
  · exact Piece.pairwise_located 0 _

theorem located_append_reference_half_open :
    let reference : Reference := ⟨.dataElementOperand, [['a'], ['*']]⟩
    let before : Text := ['#', '\x7b', 'b', '.', 'D', '\x7b']
    let behind : Text := ['D', '\x7b'] ++ "C{c}".toList
    reference.Legible ∧ before.endsWord false = false ∧
      Piece.located 0 (Piece.ofText (before ++ (reference.text ++ behind))) =
        [(6, reference), (14, ⟨.constant, [['c']]⟩)] := by
  intro reference before behind
  have legible : reference.Legible :=
    .braced (by decide) (by decide) (by decide) (by decide +kernel)
  have located := located_append_reference.1 reference before behind legible
    fun word => absurd word (by decide +kernel)
  exact ⟨legible, by decide +kernel, located.trans (by decide +kernel)⟩

section Capitals

variable {afterWord : Bool} {text behind : Text}

/-- What a text with its names capitalized begins with stands in the text itself, if it holds no
head and ends outside of words. -/
theorem eq_append_of_capitalizeCallsFrom {lead : Text}
    (inner : ∀ c ∈ lead, Reference.isInner c = true) (ends : lead.endsWord afterWord = false)
    (same : capitalizeCallsFrom afterWord text = lead ++ behind) : ∃ rest, text = lead ++ rest := by
  induction lead generalizing afterWord text with
  | nil => exact ⟨text, rfl⟩
  | cons c lead ih =>
    have view := Lexer.capitals afterWord text
    rw [same] at view
    generalize shape : c :: lead ++ behind = capital at view
    cases view with
    | nil => cases shape
    | kept none =>
      obtain ⟨rfl, later⟩ := List.cons.inj shape
      obtain ⟨rest, rfl⟩ :=
        ih (fun d member => inner d (List.mem_cons_of_mem _ member)) ends later.symm
      exact ⟨rest, rfl⟩
    | @head head function calls later =>
      -- A head holds a blank or a bracket behind its name, and what is read first ends before that.
      obtain ⟨more, last, whole⟩ : ∃ more last, c :: lead = more ++ [last] :=
        ⟨_, _, (List.dropLast_append_getLast (List.cons_ne_nil c lead)).symm⟩
      rw [whole, Text.endsWord_append] at ends
      have none : CallHead.read? Builtin.all false (more ++ last :: behind) = none :=
        CallHead.read?_of_inner (whole ▸ inner) ends
      rw [whole, List.append_assoc, List.singleton_append] at shape
      rw [shape,
        CallHead.read?_eq_some_iff.mpr
          ⟨rfl, ⟨function, mem_all function, calls.capitalized⟩, rfl⟩] at none
      cases none

theorem Reference.read?_capitalizeCallsFrom {c : Char} (read : read? afterWord (c :: text) = none)
    (called : CallHead.read? Builtin.all afterWord (c :: text) = none) :
    read? afterWord (c :: capitalizeCallsFrom (Text.isWord c) text) = none := by
  refine Option.eq_none_iff_forall_ne_some.mpr fun pair found => ?_
  obtain ⟨reference, behind⟩ := pair
  obtain ⟨legible, fresh, whole⟩ := read?_eq_some_iff.mp found
  obtain ⟨rest, same⟩ := eq_append_of_capitalizeCallsFrom legible.inner (legible.endsWord afterWord)
    ((capitalizeCallsFrom_cons called).trans whole)
  rw [read?_eq_some_iff.mpr ⟨legible, fresh, same⟩] at read
  cases read

theorem Reference.Legible.capitalizeCallsFrom_append {reference : Reference}
    (legible : reference.Legible) :
    capitalizeCallsFrom afterWord (reference.text ++ behind) =
      reference.text ++ capitalizeCallsFrom false behind := by
  obtain ⟨lead, last, shape, closing⟩ := legible.last
  have ends : Text.isWord last = false := by rcases closing with rfl | rfl <;> decide
  have silent : Silent (CallHead.read? Builtin.all) afterWord (lead ++ [last]) behind :=
    CallHead.silent_of_inner (shape ▸ legible.inner) ends
  rw [IndicatorFormula.capitalizeCallsFrom_append (shape ▸ silent), legible.endsWord]

/-- Capitalizing the names of calls moves no reference and changes none. -/
theorem Piece.located_capitalizeCallsFrom (afterWord : Bool) (text : Text) (position : Nat) :
    located position (ofTextFrom afterWord (capitalizeCallsFrom afterWord text)) =
      located position (ofTextFrom afterWord text) := by
  cases text with
  | nil => rw [capitalizeCallsFrom]
  | cons c rest =>
    cases read : Reference.read? afterWord (c :: rest) with
    | some pair =>
      obtain ⟨reference, behind⟩ := pair
      obtain ⟨legible, fresh, whole⟩ := Reference.read?_eq_some_iff.mp read
      have shorter : behind.length < (c :: rest).length := Reference.length_lt_of_read? read
      rw [whole, legible.capitalizeCallsFrom_append, ofTextFrom_reference legible fresh,
        ofTextFrom_reference legible fresh]
      exact congrArg ((position, reference) :: ·) (located_capitalizeCallsFrom false behind _)
    | none =>
      cases called : CallHead.read? Builtin.all afterWord (c :: rest) with
      | some pair =>
        obtain ⟨head, behind⟩ := pair
        have shorter : behind.length < (c :: rest).length := CallHead.length_lt_of_read? called
        obtain ⟨rfl, ⟨function, -, calls⟩, whole⟩ := CallHead.read?_eq_some_iff.mp called
        rw [whole, capitalizeCallsFrom_head calls,
          ofTextFrom_append (Reference.silent_head calls behind),
          ofTextFrom_append (Reference.silent_head calls.capitalized _), Segment.endsWord_head,
          Segment.endsWord_head]
        simp only [located_append, located_plain, List.nil_append, List.flatMap_map, Piece.text,
          List.flatMap_singleton', CallHead.length_text_capitalized]
        exact located_capitalizeCallsFrom false behind _
      | none =>
        rw [capitalizeCallsFrom_cons called,
          ofTextFrom_cons (Reference.read?_capitalizeCallsFrom read called), ofTextFrom_cons read]
        exact located_capitalizeCallsFrom (Text.isWord c) rest _
termination_by text.length
decreasing_by
  · simp
  · exact shorter
  · exact shorter

theorem references_capitalizeCalls (text : Text) :
    references (capitalizeCalls text) = references text := by
  have same := Piece.located_capitalizeCallsFrom false text 0
  rw [references, references, ← Piece.map_snd_located 0, ← Piece.map_snd_located 0]
  exact congrArg (List.map Prod.snd) same

end Capitals

end IndicatorFormula
