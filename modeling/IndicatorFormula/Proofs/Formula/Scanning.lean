import IndicatorFormula.Proofs.Expression.Literal
import IndicatorFormula.Proofs.Formula.Head
import IndicatorFormula.Proofs.Formula.Reference

/-! Scanning formulas for references and for calls.

A scanner goes on behind what it recognises, and otherwise behind one character. A text in which
nothing begins that it recognises is passed over, whatever follows. -/

set_option autoImplicit false
namespace IndicatorFormula

/-- Whether a word character precedes what follows a text. -/
def Text.endsWord (afterWord : Bool) : Text → Bool
  | [] => afterWord
  | c :: rest => endsWord (isWord c) rest

theorem Text.endsWord_append (afterWord : Bool) (text more : Text) :
    endsWord afterWord (text ++ more) = endsWord (endsWord afterWord text) more := by
  induction text generalizing afterWord with
  | nil => rfl
  | cons c text ih => exact ih (isWord c)

theorem Text.endsWord_of_false {text : Text} (word : endsWord false text = true)
    (afterWord : Bool) : endsWord afterWord text = true := by
  cases text with
  | nil => cases word
  | cons c text => exact word

theorem Text.endsWord_of_plain {text : Text} (some : text ≠ [])
    (plain : ∀ c ∈ text, isWord c = false) (afterWord : Bool) :
    endsWord afterWord text = false := by
  rw [← List.dropLast_append_getLast some, endsWord_append]
  exact plain _ (List.getLast_mem some)

/-- Nothing begins within a text that a scanner recognises. -/
def Silent {α : Type} (recognise : Bool → Text → Option α) (afterWord : Bool) : Text → Text → Prop
  | [], _ => True
  | c :: rest, behind =>
    recognise afterWord (c :: (rest ++ behind)) = none ∧
      Silent recognise (Text.isWord c) rest behind

section Silent

variable {α : Type} {recognise : Bool → Text → Option α} {afterWord : Bool} {text behind : Text}

theorem silent_append {more : Text} (first : Silent recognise afterWord text (more ++ behind))
    (second : Silent recognise (text.endsWord afterWord) more behind) :
    Silent recognise afterWord (text ++ more) behind := by
  induction text generalizing afterWord with
  | nil => exact second
  | cons c text ih => exact ⟨by simpa using first.1, ih first.2 second⟩

theorem silent_of_each (each : ∀ c ∈ text, ∀ after rest, recognise after (c :: rest) = none) :
    Silent recognise afterWord text behind := by
  induction text generalizing afterWord with
  | nil => trivial
  | cons c text ih =>
    exact ⟨each c List.mem_cons_self _ _, ih fun d member => each d (List.mem_cons_of_mem _ member)⟩

theorem silent_iff :
    Silent recognise afterWord text behind ↔
      ∀ lead c rest, text = lead ++ c :: rest →
        recognise (Text.endsWord afterWord lead) (c :: (rest ++ behind)) = none := by
  induction text generalizing afterWord with
  | nil => simp [Silent]
  | cons d text ih =>
    constructor
    · rintro ⟨first, later⟩ lead c rest same
      cases lead with
      | nil =>
        obtain ⟨rfl, rfl⟩ := List.cons.inj same
        exact first
      | cons e lead =>
        obtain ⟨rfl, rfl⟩ := List.cons.inj same
        exact ih.mp later lead c rest rfl
    · intro each
      exact ⟨each [] d text rfl,
        ih.mpr fun lead c rest same => each (d :: lead) c rest (by rw [same]; rfl)⟩

theorem Silent.drop {lead more : Text} (silent : Silent recognise afterWord (lead ++ more) behind) :
    Silent recognise (lead.endsWord afterWord) more behind := by
  induction lead generalizing afterWord with
  | nil => exact silent
  | cons c lead ih => exact ih silent.2

/-- A scanner that keeps a character where nothing begins keeps a silent text. -/
theorem Silent.scan {β : Type} {scan : Bool → Text → List β} {kept : Char → β}
    (silent : Silent recognise afterWord text behind)
    (step : ∀ after c rest, recognise after (c :: rest) = none →
      scan after (c :: rest) = kept c :: scan (Text.isWord c) rest) :
    scan afterWord (text ++ behind) = text.map kept ++ scan (text.endsWord afterWord) behind := by
  induction text generalizing afterWord with
  | nil => rfl
  | cons c text ih =>
    rw [List.cons_append, step afterWord c _ silent.1, ih silent.2]
    rfl

theorem silent_of_word (each : ∀ c ∈ text, ∀ rest, recognise true (c :: rest) = none)
    (word : ∀ c ∈ text, Text.isWord c = true) : Silent recognise true text behind := by
  induction text with
  | nil => trivial
  | cons c text ih =>
    refine ⟨each c List.mem_cons_self _, ?_⟩
    rw [word c List.mem_cons_self]
    exact ih (fun d member => each d (List.mem_cons_of_mem _ member)) fun d member =>
      word d (List.mem_cons_of_mem _ member)

end Silent

namespace Piece

variable {afterWord : Bool} {text behind : Text}

theorem ofTextFrom_cons {c : Char} (none : Reference.read? afterWord (c :: text) = none) :
    ofTextFrom afterWord (c :: text) = .plain c :: ofTextFrom (Text.isWord c) text := by
  rw [ofTextFrom]
  split
  · rename_i found
    cases none.symm.trans found
  · rfl

theorem ofTextFrom_append (silent : Silent Reference.read? afterWord text behind) :
    ofTextFrom afterWord (text ++ behind) =
      text.map .plain ++ ofTextFrom (text.endsWord afterWord) behind :=
  silent.scan fun _ _ _ none => ofTextFrom_cons none

theorem ofTextFrom_of_read? {reference : Reference}
    (found : Reference.read? afterWord text = some (reference, behind)) :
    ofTextFrom afterWord text = .reference reference :: ofTextFrom false behind := by
  cases text with
  | nil => exact absurd (Reference.length_lt_of_read? found) (Nat.not_lt_zero _)
  | cons c rest =>
    rw [ofTextFrom]
    split
    · rename_i found'
      cases found.symm.trans found'
      rfl
    · rename_i none
      cases found.symm.trans none

theorem ofTextFrom_reference {reference : Reference} (legible : reference.Legible)
    (fresh : afterWord = true → reference.kind = .days) (behind : Text) :
    ofTextFrom afterWord (reference.text ++ behind) =
      .reference reference :: ofTextFrom false behind :=
  ofTextFrom_of_read? (Reference.read?_eq_some_iff.mpr ⟨legible, fresh, rfl⟩)

end Piece

section Calls

variable {functions : List Builtin} {afterWord : Bool} {text behind : Text} {head : CallHead}
  {function : Builtin}

theorem capitalizeCallsFrom_cons {c : Char}
    (none : CallHead.read? Builtin.all afterWord (c :: text) = none) :
    capitalizeCallsFrom afterWord (c :: text) = c :: capitalizeCallsFrom (Text.isWord c) text := by
  rw [capitalizeCallsFrom]
  split
  · rename_i found
    cases none.symm.trans found
  · rfl

theorem capitalizeCallsFrom_append
    (silent : Silent (CallHead.read? Builtin.all) afterWord text behind) :
    capitalizeCallsFrom afterWord (text ++ behind) =
      text ++ capitalizeCallsFrom (text.endsWord afterWord) behind := by
  have passed := silent.scan fun _ _ _ none => capitalizeCallsFrom_cons none
  rwa [List.map_id'] at passed

theorem capitalizeCallsFrom_of_read?
    (found : CallHead.read? Builtin.all afterWord text = some (head, behind)) :
    capitalizeCallsFrom afterWord text =
      head.capitalized.text ++ capitalizeCallsFrom false behind := by
  cases text with
  | nil => exact absurd (CallHead.length_lt_of_read? found) (Nat.not_lt_zero _)
  | cons c rest =>
    rw [capitalizeCallsFrom]
    split
    · rename_i found'
      cases found.symm.trans found'
      rfl
    · rename_i none
      cases found.symm.trans none

theorem mem_all (function : Builtin) : function ∈ Builtin.all := by
  cases function <;> decide

theorem capitalizeCallsFrom_head (calls : head.Calls function) (behind : Text) :
    capitalizeCallsFrom false (head.text ++ behind) =
      head.capitalized.text ++ capitalizeCallsFrom false behind :=
  capitalizeCallsFrom_of_read?
    (CallHead.read?_eq_some_iff.mpr ⟨rfl, ⟨function, mem_all function, calls⟩, rfl⟩)

theorem CallPiece.ofTextFrom_cons {c : Char}
    (none : CallHead.read? functions afterWord (c :: text) = none) :
    ofTextFrom functions afterWord (c :: text) =
      .plain c :: ofTextFrom functions (Text.isWord c) text := by
  rw [ofTextFrom]
  split
  · rename_i found
    cases none.symm.trans found
  · rfl

theorem CallPiece.ofTextFrom_append
    (silent : Silent (CallHead.read? functions) afterWord text behind) :
    ofTextFrom functions afterWord (text ++ behind) =
      text.map .plain ++ ofTextFrom functions (text.endsWord afterWord) behind :=
  silent.scan fun _ _ _ none => CallPiece.ofTextFrom_cons none

theorem CallPiece.ofTextFrom_of_read?
    (found : CallHead.read? functions afterWord text = some (head, behind)) :
    ofTextFrom functions afterWord text =
      (ofHead head behind).1 :: ofTextFrom functions false (ofHead head behind).2 := by
  cases text with
  | nil => exact absurd (CallHead.length_lt_of_read? found) (Nat.not_lt_zero _)
  | cons c rest =>
    rw [ofTextFrom]
    split
    · rename_i found'
      cases found.symm.trans found'
      rfl
    · rename_i none
      cases found.symm.trans none

theorem CallPiece.ofTextFrom_head (member : function ∈ functions) (calls : head.Calls function)
    (behind : Text) :
    ofTextFrom functions false (head.text ++ behind) =
      (ofHead head behind).1 :: ofTextFrom functions false (ofHead head behind).2 :=
  ofTextFrom_of_read? (CallHead.read?_eq_some_iff.mpr ⟨rfl, ⟨function, member, calls⟩, rfl⟩)

end Calls

namespace CallHead

variable {functions : List Builtin} {afterWord : Bool} {behind : Text} {head : CallHead}
  {function : Builtin}

def opensName (c d : Char) : Bool :=
  Builtin.all.any fun function =>
    match function.name with
    | first :: second :: _ => Text.spells first c && Text.spells second d
    | _ => false

theorem Calls.opensName (calls : head.Calls function) :
    ∃ c d rest, head.text = c :: d :: rest ∧ CallHead.opensName c d = true ∧
      Text.isWord c = true := by
  have member := mem_all function
  have word := Text.isWord_of_spelling calls.name
  have spelling := calls.name
  have long : ∃ first second rest, function.name = first :: second :: rest := by
    cases function <;> exact ⟨_, _, _, rfl⟩
  obtain ⟨first, second, rest, name⟩ := long
  rw [name] at spelling
  obtain ⟨c, later, spelled, spelling, shape⟩ := List.forall₂_cons_left_iff.mp spelling
  obtain ⟨d, last, spelled', -, rfl⟩ := List.forall₂_cons_left_iff.mp spelling
  refine ⟨c, d, last ++ head.gap ++ ['('], by simp [CallHead.text, shape], ?_, ?_⟩
  · refine List.any_eq_true.mpr ⟨function, member, ?_⟩
    rw [name]
    exact Bool.and_eq_true_iff.mpr ⟨spelled, spelled'⟩
  · exact word c (by simp [shape])

theorem Calls.silent {α : Type} {recognise : Bool → Text → Option α} (calls : head.Calls function)
    (first : recognise afterWord (head.text ++ behind) = none)
    (inside : ∀ c, Text.isWord c = true → ∀ rest, recognise true (c :: rest) = none)
    (later : ∀ c, Text.isBlank c = true ∨ c = '(' →
      ∀ after rest, recognise after (c :: rest) = none) :
    Silent recognise afterWord head.text behind := by
  have word := Text.isWord_of_spelling calls.name
  have shape : head.text = head.name ++ (head.gap ++ ['(']) := List.append_assoc ..
  -- At the head itself nothing is found, within its name a word goes on, and behind it come blanks.
  rw [shape] at first ⊢
  refine silent_append ?_ (silent_of_each fun c member => later c ?_)
  · cases name : head.name with
    | nil => trivial
    | cons c rest =>
      rw [name] at first word
      refine ⟨by simpa using first, ?_⟩
      rw [word c List.mem_cons_self]
      have each : ∀ d ∈ rest, Text.isWord d = true :=
        fun d member => word d (List.mem_cons_of_mem c member)
      exact silent_of_word (fun d member => inside d (each d member)) each
  · exact (List.mem_append.mp member).imp (calls.gap c) List.mem_singleton.mp

theorem read?_eq_none {c : Char} {rest : Text}
    (other : Text.isWord c = false ∨ ∀ d ∈ rest.head?, opensName c d = false) :
    read? functions afterWord (c :: rest) = none := by
  refine Option.eq_none_iff_forall_ne_some.mpr fun ⟨head, behind⟩ found => ?_
  obtain ⟨-, ⟨function, -, calls⟩, whole⟩ := read?_eq_some_iff.mp found
  obtain ⟨c', d, later, shape, opens, word⟩ := calls.opensName
  rw [shape] at whole
  obtain ⟨rfl, rfl⟩ := List.cons.inj whole
  rcases other with plain | other
  · rw [word] at plain
    cases plain
  · rw [other d rfl] at opens
    cases opens

theorem silent_unword {text : Text} (plain : ∀ c ∈ text, Text.isWord c = false) :
    Silent (read? functions) afterWord text behind :=
  silent_of_each fun c member _ _ => read?_eq_none (.inl (plain c member))

theorem silent_name {name : Text} (word : ∀ c ∈ name, Text.isWord c = true)
    (ends : ∀ c ∈ behind.head?, Text.isWord c = false)
    (other : (∀ function ∈ functions, ¬ Text.Spelling function.name name) ∨
      (behind.dropWhile Text.isBlank).head? ≠ some '(') :
    Silent (read? functions) false name behind := by
  cases name with
  | nil => trivial
  | cons c rest =>
    refine ⟨Option.eq_none_iff_forall_ne_some.mpr fun ⟨head, later⟩ found => ?_, ?_⟩
    · obtain ⟨-, ⟨function, member, calls⟩, whole⟩ := read?_eq_some_iff.mp found
      obtain ⟨named, opens⟩ := calls.word later
      obtain ⟨taken, dropped⟩ := Lexer.takeWhile_of_head ends
      rw [← whole, ← List.cons_append, List.takeWhile_append_of_pos word, taken,
        List.append_nil] at named
      rw [← whole, ← List.cons_append, List.dropWhile_append_of_pos word, dropped] at opens
      rcases other with other | other
      · exact other function member (named ▸ calls.name)
      · rw [opens, (calls.opens later).2] at other
        exact other rfl
    · rw [word c List.mem_cons_self]
      exact silent_of_word (fun _ _ _ => rfl) fun d member => word d (List.mem_cons_of_mem c member)

theorem ofTextFrom_silent {text : Text} (silent : Silent (read? functions) false text behind)
    (ends : ∀ c ∈ behind.head?, Text.isWord c = false) :
    CallPiece.ofTextFrom functions false (text ++ behind) =
      text.map .plain ++ CallPiece.ofTextFrom functions false behind := by
  rw [CallPiece.ofTextFrom_append silent]
  congr 1
  cases behind with
  | nil => rw [CallPiece.ofTextFrom, CallPiece.ofTextFrom]
  | cons c rest =>
    have begins (after : Bool) : read? functions after (c :: rest) = none :=
      read?_eq_none (.inl (ends c rfl))
    rw [CallPiece.ofTextFrom_cons (begins _), CallPiece.ofTextFrom_cons (begins _)]

theorem ofTextFrom_unword {text : Text} (plain : ∀ c ∈ text, Text.isWord c = false) :
    CallPiece.ofTextFrom functions false (text ++ behind) =
      text.map .plain ++ CallPiece.ofTextFrom functions false behind := by
  have ends : text.endsWord false = false := by
    by_cases some : text = []
    · rw [some]
      rfl
    · exact Text.endsWord_of_plain some plain false
  rw [CallPiece.ofTextFrom_append (silent_unword plain), ends]

theorem opensName_eq_false {c d : Char}
    (other : ∀ function ∈ Builtin.all, ∀ first second rest, function.name =
        first :: second :: rest → Text.spells first c = true → Text.spells second d = false) :
    opensName c d = false := by
  refine List.any_eq_false.mpr fun function member => ?_
  split
  · rename_i first second rest name
    intro spelled
    obtain ⟨spelled, spelled'⟩ := Bool.and_eq_true_iff.mp spelled
    rw [other function member first second rest name spelled] at spelled'
    cases spelled'
  · exact Bool.false_ne_true

theorem opensName_of_isDigit {c : Char} (digit : Text.isDigit c = true) (d : Char) :
    opensName c d = false := by
  have letter : ∀ function ∈ Builtin.all, function.name.head?.all (!Text.isDigit ·) = true := by
    decide
  refine opensName_eq_false fun function member first second rest name spelled => ?_
  have found := letter function member
  have within : first ∈ function.name := name ▸ List.mem_cons_self
  have same := Text.of_spells (fun e c => !Text.isDigit c || Text.isDigit e) (by decide)
    (Text.mem_nameCharacters within) spelled
  simp_all

theorem opensName_days (d : Char) : opensName 'd' d = false := by
  have other : ∀ function ∈ Builtin.all, function.name.head?.all (!Text.spells · 'd') = true := by
    decide
  refine opensName_eq_false fun function member first second rest name spelled => ?_
  have found := other function member
  simp_all

theorem opensName_of_exponent {c d : Char} (mark : c = 'e' ∨ c = 'E')
    (goesOn : d = '+' ∨ d = '-' ∨ Text.isDigit d = true) : opensName c d = false := by
  -- The only name that begins with this letter goes on with another one.
  have only : ∀ function ∈ Builtin.all, (match function.name with
      | first :: second :: _ => !(Text.spells first 'e' || Text.spells first 'E') || second == 'X'
      | _ => true) = true := by decide
  refine opensName_eq_false fun function member first second rest name spelled => ?_
  have found := only function member
  simp only [name, Bool.or_eq_true, Bool.not_eq_true', Bool.or_eq_false_iff, beq_iff_eq] at found
  rcases found with other | rfl
  · rcases mark with rfl | rfl
    · rw [other.1] at spelled
      cases spelled
    · rw [other.2] at spelled
      cases spelled
  · have each : ∀ d ∈ Text.spellings 'X', (d != '+' && d != '-' && !Text.isDigit d) = true := by
      decide
    by_contra spelled'
    have plain := each d (Text.mem_spellings (Bool.eq_true_of_not_eq_false spelled'))
    rcases goesOn with rfl | rfl | digit
    · exact absurd plain (by decide)
    · exact absurd plain (by decide)
    · simp [digit] at plain

theorem head_dropWhile_append {holds : Char → Bool} {last : Char} (stops : holds last = false)
    (text behind : Text) :
    ∃ d, ((text ++ last :: behind).dropWhile holds).head? = some d ∧ (d ∈ text ∨ d = last) := by
  induction text with
  | nil => exact ⟨last, by simp [stops], .inr rfl⟩
  | cons c text ih =>
    by_cases goesOn : holds c = true
    · obtain ⟨d, found, within⟩ := ih
      refine ⟨d, by simpa [goesOn] using found, ?_⟩
      exact within.imp (List.mem_cons_of_mem c) id
    · exact ⟨c, by simp [goesOn], .inl List.mem_cons_self⟩

theorem read?_of_inner {text : Text} {last : Char}
    (inner : ∀ c ∈ text ++ [last], Reference.isInner c = true) (ends : Text.isWord last = false) :
    read? functions afterWord (text ++ last :: behind) = none := by
  refine Option.eq_none_iff_forall_ne_some.mpr fun ⟨head, behind'⟩ found => ?_
  obtain ⟨-, ⟨function, -, calls⟩, whole⟩ := read?_eq_some_iff.mp found
  -- Behind the word comes one of these characters, but a head goes on with a blank or a round
  -- bracket.
  obtain ⟨d, first, within⟩ := head_dropWhile_append ends text behind
  rw [whole, (calls.word behind').2] at first
  have plain : Reference.isInner d = true := by
    rcases within with member | rfl
    · exact inner d (List.mem_append_left _ member)
    · exact inner d (List.mem_append_right _ List.mem_cons_self)
  rcases calls.behind_name behind' d first with blank | rfl
  · simp [Reference.isInner, blank] at plain
  · exact absurd plain (by decide)

theorem silent_of_inner {text : Text} {last : Char}
    (inner : ∀ c ∈ text ++ [last], Reference.isInner c = true) (ends : Text.isWord last = false) :
    Silent (read? functions) afterWord (text ++ [last]) behind := by
  induction text generalizing afterWord with
  | nil =>
    have found : read? functions afterWord ([] ++ last :: behind) = none :=
      read?_of_inner inner ends
    exact ⟨found, trivial⟩
  | cons c text ih =>
    refine ⟨?_, ih fun d member => inner d (List.mem_cons_of_mem c member)⟩
    have found : read? functions afterWord (c :: text ++ last :: behind) = none :=
      read?_of_inner inner ends
    simpa using found

end CallHead

namespace Reference

variable {afterWord : Bool} {behind : Text}

theorem silent_of_plain {text : Text} (plain : ∀ c ∈ text, c ∉ starts) :
    Silent read? afterWord text behind :=
  silent_of_each fun c member _ rest => read?_eq_none (plain c member) rest

theorem read?_bracket {rest : Text} (other : rest.head? ≠ some 'd') :
    read? afterWord ('[' :: rest) = none := by
  refine Option.eq_none_iff_forall_ne_some.mpr fun ⟨reference, behind⟩ found => ?_
  obtain ⟨legible, -, whole⟩ := read?_eq_some_iff.mp found
  cases legible with
  | days =>
    obtain ⟨-, rfl⟩ := List.cons.inj whole
    exact other rfl
  | @braced kind parts member =>
    cases kind <;>
      first | exact absurd (List.cons.inj whole).1 (by decide) | exact absurd member (by decide)

theorem read?_head {head : CallHead} {function : Builtin} (calls : head.Calls function)
    (behind : Text) : read? afterWord (head.text ++ behind) = none := by
  refine Option.eq_none_iff_forall_ne_some.mpr fun ⟨reference, behind'⟩ found => ?_
  obtain ⟨legible, -, whole⟩ := read?_eq_some_iff.mp found
  have opening : ((head.text ++ behind).dropWhile Text.isWord).head? ≠ some '{' := by
    rw [(calls.word behind).2]
    intro brace
    rcases calls.behind_name behind '{' brace with blank | parenthesis
    · exact absurd blank (by decide)
    · exact absurd parenthesis (by decide)
  obtain ⟨c, d, rest, shape, -, word⟩ := calls.opensName
  cases legible with
  | days =>
    rw [shape] at whole
    rw [(List.cons.inj whole).1] at word
    exact absurd word (by decide)
  | @braced kind parts member =>
    rw [(text_braced member parts).2] at whole
    have key : kind.key.all Text.isWord = true ∨ kind.key = ['#'] := by
      revert member
      cases kind <;> decide
    -- The key of a reference is a word and then a brace, or it is no word at all.
    rcases key with all | hash
    · rw [whole, List.append_assoc, List.append_assoc,
        List.dropWhile_append_of_pos (List.all_eq_true.mp all)] at opening
      have stops : Text.isWord '{' = false := by decide
      simp [stops] at opening
    · rw [shape, hash] at whole
      rw [(List.cons.inj whole).1] at word
      exact absurd word (by decide)

theorem read?_of_isWord {c : Char} (word : Text.isWord c = true) (rest : Text) :
    read? true (c :: rest) = none := by
  refine Option.eq_none_iff_forall_ne_some.mpr fun ⟨reference, behind⟩ found => ?_
  obtain ⟨legible, fresh, whole⟩ := read?_eq_some_iff.mp found
  cases legible with
  | days =>
    rw [(List.cons.inj whole).1] at word
    exact absurd word (by decide)
  | @braced kind parts member => exact (text_braced member parts).1 (fresh rfl)

theorem Legible.endsWord {reference : Reference} (legible : reference.Legible) (afterWord : Bool) :
    reference.text.endsWord afterWord = false := by
  obtain ⟨lead, last, shape, closing⟩ := legible.last
  rw [shape, Text.endsWord_append]
  rcases closing with rfl | rfl
  · exact (by decide : Text.isWord '}' = false)
  · exact (by decide : Text.isWord ']' = false)

theorem isBlank_of_mem_starts : ∀ c ∈ starts, Text.isBlank c = false := by
  decide

theorem silent_head {head : CallHead} {function : Builtin} (calls : head.Calls function)
    (behind : Text) : Silent read? afterWord head.text behind := by
  refine calls.silent (read?_head calls behind) (fun _ word => read?_of_isWord word)
    fun c gap after rest => ?_
  refine read?_eq_none (fun start => ?_) rest
  rcases gap with blank | rfl
  · rw [isBlank_of_mem_starts c start] at blank
    cases blank
  · exact absurd start (by decide)

end Reference
end IndicatorFormula
