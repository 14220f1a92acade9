import IndicatorFormula.Proofs.Formula.Cutting

/-! Braces that hold keys.

Text may be replaced in a formula without regard to where references begin and end. That makes no
reference which was not there as long as every brace opens a key which closes at once: what is
replaced then cannot begin or end within a key, and what stands for it holds no brace. -/

set_option autoImplicit false
namespace IndicatorFormula

namespace Reference

def isKey (c : Char) : Bool :=
  isPart c || c == '.'

def marks : List Char :=
  ['#', 'D', 'A', 'I', 'R', 'C', 'G']

end Reference

open Reference

/-- A text has a key in braces behind a character. -/
def HasKey (text : Text) (mark : Char) (key : Text) : Prop :=
  ∃ before behind, text = before ++ mark :: '{' :: (key ++ '}' :: behind) ∧
    ∀ c ∈ key, isKey c = true

/-- Every brace of a text opens a key, and the keys behind marks are known. -/
structure Keyed (known : Char → Text → Prop) (text : Text) : Prop where
  closes : ∀ before behind, text = before ++ '{' :: behind →
    ∃ key rest, behind = key ++ '}' :: rest ∧ ∀ c ∈ key, isKey c = true
  known : ∀ mark ∈ marks, ∀ key, HasKey text mark key → known mark key

/-- No key goes on from before a text into it. -/
def BreaksKeys (text : Text) : Prop :=
  ∃ lead c rest, text = lead ++ c :: rest ∧ '}' ∉ lead ∧ c ≠ '}' ∧ isKey c = false

structure Braceless (text : Text) : Prop where
  opening : '{' ∉ text
  closing : '}' ∉ text
  last : ∃ lead last, text = lead ++ [last] ∧ last ∉ marks

variable {known : Char → Text → Prop} {before old new behind : Text}

theorem isKey_closing : isKey '}' = false := by
  decide

theorem BreaksKeys.not_key {more later : Text} (breaks : BreaksKeys old)
    (same : old ++ behind = more ++ '}' :: later) (each : ∀ c ∈ more, isKey c = true) : False := by
  obtain ⟨start, c, rest, rfl, notClosing, other, notKey⟩ := breaks
  rw [List.append_assoc, List.cons_append] at same
  -- Either the character that is in no key is in this one, or a brace closes before it.
  rcases List.append_eq_append_iff.mp same with ⟨middle, whole, ends⟩ | ⟨middle, whole, ends⟩
  · cases middle with
    | nil => exact other (List.cons.inj ends).1
    | cons d middle =>
      rw [each c (by rw [whole, (List.cons.inj ends).1]; simp)] at notKey
      cases notKey
  · cases middle with
    | nil => exact other (List.cons.inj ends).1.symm
    | cons d middle =>
      rw [whole, ← (List.cons.inj ends).1] at notClosing
      exact notClosing (by simp)

theorem BreaksKeys.closes {key middle later : Text} (breaks : BreaksKeys old)
    (same : middle ++ (old ++ behind) = key ++ '}' :: later) (each : ∀ c ∈ key, isKey c = true) :
    ∃ rest, middle = key ++ '}' :: rest ∧ later = rest ++ (old ++ behind) := by
  -- The key closes before the text, or else goes on in it.
  rcases List.append_eq_append_iff.mp same with ⟨more, rfl, ends⟩ | ⟨more, rfl, ends⟩
  · exact (breaks.not_key ends fun c member => each c (List.mem_append_right _ member)).elim
  · cases more with
    | nil =>
      exact (breaks.not_key (show old ++ behind = [] ++ '}' :: later from ends.symm) nofun).elim
    | cons d more =>
      obtain ⟨rfl, rfl⟩ := List.cons.inj ends
      exact ⟨more, rfl, rfl⟩

theorem Keyed.within {start middle : Text}
    (keyed : Keyed known (start ++ '{' :: (middle ++ (old ++ behind)))) (breaks : BreaksKeys old) :
    ∃ key rest, middle = key ++ '}' :: rest ∧ ∀ c ∈ key, isKey c = true := by
  obtain ⟨key, later, same, each⟩ := keyed.closes _ _ rfl
  obtain ⟨rest, whole, -⟩ := breaks.closes same each
  exact ⟨key, rest, whole, each⟩

theorem outside_of_not_mem {start later : Text} {c : Char}
    (same : before ++ (new ++ behind) = start ++ c :: later) (other : c ∉ new) :
    (∃ middle, before = start ++ c :: middle ∧ later = middle ++ (new ++ behind)) ∨
      ∃ middle, behind = middle ++ c :: later ∧ start = before ++ (new ++ middle) := by
  rcases List.append_eq_append_iff.mp same with ⟨middle, whole, ends⟩ | ⟨middle, whole, ends⟩
  · rcases List.append_eq_append_iff.mp ends with ⟨more, whole', ends'⟩ | ⟨more, whole', ends'⟩
    · exact .inr ⟨more, ends', by rw [whole, whole']⟩
    · cases more with
      | nil => exact .inr ⟨[], ends'.symm, by rw [whole, whole', List.append_nil, List.append_nil]⟩
      | cons d more =>
        rw [whole', ← (List.cons.inj ends').1] at other
        exact absurd (by simp) other
  · cases middle with
    | nil =>
      cases new with
      | nil => exact .inr ⟨[], ends.symm, by simp [whole]⟩
      | cons d new =>
        rw [(List.cons.inj ends).1] at other
        exact absurd List.mem_cons_self other
    | cons d middle =>
      obtain ⟨rfl, rfl⟩ := List.cons.inj ends
      exact .inl ⟨middle, whole, rfl⟩

theorem key_unique {key other rest later : Text} (same : key ++ '}' :: rest = other ++ '}' :: later)
    (each : ∀ c ∈ key, isKey c = true) (each' : ∀ c ∈ other, isKey c = true) : key = other := by
  have plain : ∀ {key : Text}, (∀ c ∈ key, isKey c = true) → '}' ∉ key := fun each member => by
    have within := each '}' member
    rw [isKey_closing] at within
    cases within
  rcases List.append_eq_append_iff.mp same with ⟨more, rfl, ends⟩ | ⟨more, rfl, ends⟩
  · cases more with
    | nil => exact (List.append_nil _).symm
    | cons d more =>
      rw [← (List.cons.inj ends).1] at each'
      exact absurd (by simp) (plain each')
  · cases more with
    | nil => exact List.append_nil _
    | cons d more =>
      rw [← (List.cons.inj ends).1] at each
      exact absurd (by simp) (plain each)

/-- What has no braces may stand for what breaks keys. -/
theorem Keyed.replace (keyed : Keyed known (before ++ (old ++ behind))) (breaks : BreaksKeys old)
    (braceless : Braceless new) : Keyed known (before ++ (new ++ behind)) := by
  constructor
  · intro start later same
    -- The brace stands before the replaced text or behind it.
    rcases outside_of_not_mem same braceless.opening with ⟨middle, rfl, rfl⟩ | ⟨middle, rfl, -⟩
    · have keyed : Keyed known (start ++ '{' :: (middle ++ (old ++ behind))) := by simpa using keyed
      obtain ⟨key, rest, rfl, each⟩ := keyed.within breaks
      exact ⟨key, rest ++ (new ++ behind), by simp, each⟩
    · exact keyed.closes (before ++ (old ++ middle)) later (by simp)
  · rintro mark member key ⟨start, later, same, each⟩
    refine keyed.known mark member key ?_
    rw [List.append_cons] at same
    rcases outside_of_not_mem same braceless.opening with ⟨middle, rfl, ends⟩ | ⟨middle, rfl, whole⟩
    · have keyed : Keyed known ((start ++ [mark]) ++ '{' :: (middle ++ (old ++ behind))) := by
        simpa using keyed
      obtain ⟨key', rest, rfl, each'⟩ := keyed.within breaks
      rw [List.append_assoc, List.cons_append] at ends
      rw [key_unique ends each each']
      exact ⟨start, rest ++ (old ++ behind), by simp, each'⟩
    · -- The mark stands behind the new text, which does not end with one.
      cases middle using List.reverseRecOn with
      | nil =>
        obtain ⟨lead, last, shape, other⟩ := braceless.last
        have same := congrArg List.getLast? whole
        rw [shape, List.append_nil] at same
        simp only [List.getLast?_append, List.getLast?_singleton, Option.some_or,
          Option.some.injEq] at same
        exact absurd (same ▸ member) other
      | append_singleton middle last =>
        have same := congrArg List.getLast? whole
        simp only [← List.append_assoc, List.getLast?_append, List.getLast?_singleton,
          Option.some_or, Option.some.injEq] at same
        exact ⟨before ++ (old ++ middle), later, by rw [same]; simp, each⟩

theorem Text.replace_preserves {holds : Text → Prop} (some : old ≠ [])
    (step : ∀ before behind, holds (before ++ (old ++ behind)) → holds (before ++ (new ++ behind)))
    {text : Text} (start : holds (before ++ text)) :
    holds (before ++ Text.replace old new text) := by
  -- What has been gone through stays before the rest, so that one replacement after the other is
  -- made there.
  fun_induction Text.replace old new text generalizing before with
  | case1 => exact start
  | case2 c rest behind found none => exact absurd none some
  | case3 c rest behind found _ ih =>
    rw [Text.after?_eq_some_iff.mp found] at start
    have replaced := step before behind start
    rw [← List.append_assoc] at replaced ⊢
    exact ih replaced
  | case4 c rest none ih =>
    rw [List.append_cons] at start ⊢
    exact ih start

theorem capitalizeCallsFrom_preserves {holds : Text → Prop}
    (step : ∀ (head : CallHead) (function : Builtin), head.Calls function → ∀ before behind,
      holds (before ++ (head.text ++ behind)) → holds (before ++ (head.capitalized.text ++ behind)))
    {text : Text} (start : holds (before ++ text)) (afterWord : Bool) :
    holds (before ++ capitalizeCallsFrom afterWord text) := by
  fun_induction capitalizeCallsFrom afterWord text generalizing before with
  | case1 => exact start
  | case2 afterWord c rest head behind read ih =>
    obtain ⟨-, ⟨function, -, calls⟩, whole⟩ := CallHead.read?_eq_some_iff.mp read
    rw [whole] at start
    have replaced := step head function calls before behind start
    rw [← List.append_assoc] at replaced ⊢
    exact ih replaced
  | case3 afterWord c rest none ih =>
    rw [List.append_cons] at start ⊢
    exact ih start

theorem BreaksKeys.ne_nil (breaks : BreaksKeys old) : old ≠ [] := by
  obtain ⟨lead, c, rest, rfl, -⟩ := breaks
  simp

theorem CallHead.Calls.braceless {head : CallHead} {function : Builtin}
    (calls : head.Calls function) : BreaksKeys head.text ∧ Braceless head.text := by
  have each : ∀ c ∈ head.name ++ head.gap, c ≠ '{' ∧ c ≠ '}' := by
    intro c member
    rcases List.mem_append.mp member with member | member
    · have word := Text.isWord_of_spelling calls.name c member
      constructor <;> rintro rfl <;> exact absurd word (by decide)
    · have blank := calls.gap c member
      exact ⟨Text.ne_of_isBlank blank (by decide), Text.ne_of_isBlank blank (by decide)⟩
  constructor
  · exact ⟨head.name ++ head.gap, '(', [], rfl, fun member => (each _ member).2 rfl, by decide,
      by decide⟩
  · refine ⟨fun member => ?_, fun member => ?_, head.name ++ head.gap, '(', rfl, by decide⟩
    · rcases List.mem_append.mp member with member | member
      · exact (each _ member).1 rfl
      · exact absurd member (by decide)
    · rcases List.mem_append.mp member with member | member
      · exact (each _ member).2 rfl
      · exact absurd member (by decide)

theorem Keyed.capitalizeCallsFrom {text : Text} (keyed : Keyed known (before ++ text))
    (afterWord : Bool) :
    Keyed known (before ++ IndicatorFormula.capitalizeCallsFrom afterWord text) :=
  capitalizeCallsFrom_preserves
    (fun _ _ calls _ _ keyed => keyed.replace calls.braceless.1 calls.capitalized.braceless.2) keyed
    afterWord

def ReferenceKind.mark (kind : ReferenceKind) : Char :=
  kind.key.getLast?.getD '#'

theorem ReferenceKind.mark_injective {kind other : ReferenceKind} (member : kind ∈ braced)
    (same : kind.mark = other.mark) : kind = other := by
  revert same
  cases kind <;> first | exact absurd member (by decide) | (cases other <;> decide)

theorem ReferenceKind.mark_mem {kind : ReferenceKind} (member : kind ∈ braced) :
    kind.mark ∈ marks ∧ kind.key = kind.key.dropLast ++ [kind.mark] ∧ '{' ∉ kind.key := by
  cases kind <;> first | exact absurd member (by decide) | decide

theorem Reference.Legible.shape {reference : Reference} (legible : reference.Legible)
    (other : reference.kind ≠ .days) :
    reference.kind ∈ ReferenceKind.braced ∧ (∀ c ∈ reference.key, isKey c = true) ∧
      reference.text = reference.kind.key ++ '{' :: (reference.key ++ ['}']) := by
  cases legible with
  | days => exact absurd rfl other
  | @braced kind parts member some few each =>
    refine ⟨member, fun c within => ?_, ?_⟩
    · rcases mem_join within with rfl | ⟨part, found, within⟩
      · rfl
      · simp [isKey, (each part found).2 c within]
    · rw [(text_braced member parts).2]
      simp [key]

def KeyOf (references : List Reference) (mark : Char) (key : Text) : Prop :=
  ∃ reference ∈ references, reference.kind ≠ .days ∧ reference.kind.mark = mark ∧
    reference.key = key

theorem keyed_of_plain {text : Text} (plain : '{' ∉ text) : Keyed known text := by
  constructor
  · rintro start later rfl
    exact absurd (by simp) plain
  · rintro mark - key ⟨start, later, rfl, -⟩
    exact absurd (by simp) plain

theorem Keyed.append {first second : Text} (keyed : Keyed known first) (keyed' : Keyed known second)
    (apart : second.head? ≠ some '{') : Keyed known (first ++ second) := by
  -- A brace is within the first text, or behind it, but not right at the seam.
  have cases : ∀ {start later : Text}, first ++ second = start ++ '{' :: later →
      (∃ middle, first = start ++ '{' :: middle ∧ later = middle ++ second) ∨
        ∃ middle, middle ≠ [] ∧ second = middle ++ '{' :: later ∧ start = first ++ middle := by
    intro start later same
    rcases List.append_eq_append_iff.mp same with ⟨middle, whole, ends⟩ | ⟨middle, whole, ends⟩
    · refine .inr ⟨middle, ?_, ends, whole⟩
      rintro rfl
      exact apart (by rw [ends]; rfl)
    · cases middle with
      | nil => exact absurd (by rw [← List.nil_append second, ← ends]; rfl) apart
      | cons d middle =>
        obtain ⟨rfl, rfl⟩ := List.cons.inj ends
        exact .inl ⟨middle, whole, rfl⟩
  constructor
  · intro start later same
    rcases cases same with ⟨middle, whole, rfl⟩ | ⟨middle, -, whole, -⟩
    · obtain ⟨key, rest, rfl, each⟩ := keyed.closes start middle whole
      exact ⟨key, rest ++ second, by simp, each⟩
    · exact keyed'.closes middle later whole
  · rintro mark member key ⟨start, later, same, each⟩
    rw [List.append_cons] at same
    rcases cases same with ⟨middle, whole, ends⟩ | ⟨middle, some, whole, ends⟩
    · obtain ⟨key', rest, rfl, each'⟩ := keyed.closes _ middle whole
      rw [List.append_assoc, List.cons_append] at ends
      rw [key_unique ends each each']
      exact keyed.known mark member key' ⟨start, rest, by rw [whole]; simp, each'⟩
    · cases middle using List.reverseRecOn with
      | nil => exact absurd rfl some
      | append_singleton middle last =>
        have same := congrArg List.getLast? ends
        simp only [← List.append_assoc, List.getLast?_append, List.getLast?_singleton,
          Option.some_or, Option.some.injEq] at same
        exact keyed'.known mark member key ⟨middle, later, by rw [whole, same]; simp, each⟩

theorem Reference.Legible.eq_days {reference : Reference} (legible : reference.Legible)
    (days : reference.kind = .days) : reference = ⟨.days, []⟩ := by
  cases legible with
  | days => rfl
  | @braced kind parts braced => exact absurd days (text_braced braced parts).1

theorem Reference.Legible.brace {reference : Reference} (legible : reference.Legible)
    (other : reference.kind ≠ .days) {start later : Text}
    (same : reference.text = start ++ '{' :: later) :
    start = reference.kind.key ∧ later = reference.key ++ ['}'] := by
  obtain ⟨braced, each, shape⟩ := legible.shape other
  obtain ⟨-, -, plain⟩ := ReferenceKind.mark_mem braced
  have notKey : '{' ∉ reference.key ++ ['}'] := by
    intro found
    rcases List.mem_append.mp found with found | found
    · exact absurd (each _ found) (by decide)
    · exact absurd found (by decide)
  rw [shape] at same
  rcases List.append_eq_append_iff.mp same with ⟨middle, whole, ends⟩ | ⟨middle, whole, ends⟩
  · cases middle with
    | nil => exact ⟨by rw [whole, List.append_nil], (List.cons.inj ends).2.symm⟩
    | cons d middle =>
      rw [(List.cons.inj ends).2] at notKey
      exact absurd (by simp) notKey
  · cases middle with
    | nil => exact ⟨by rw [whole, List.append_nil], (List.cons.inj ends).2⟩
    | cons d middle =>
      rw [whole, ← (List.cons.inj ends).1] at plain
      exact absurd (by simp) plain

theorem Reference.Legible.keyed {references : List Reference} {reference : Reference}
    (legible : reference.Legible) (member : reference ∈ references) :
    Keyed (KeyOf references) reference.text := by
  by_cases days : reference.kind = .days
  · rw [legible.eq_days days]
    exact keyed_of_plain (by decide)
  · obtain ⟨braced, each, -⟩ := legible.shape days
    obtain ⟨-, ends, -⟩ := ReferenceKind.mark_mem braced
    constructor
    · intro start later same
      exact ⟨reference.key, [], (legible.brace days same).2, each⟩
    · rintro mark - key ⟨start, later, same, each'⟩
      rw [List.append_cons] at same
      obtain ⟨whole, rest⟩ := legible.brace days same
      refine ⟨reference, member, days, ?_, (key_unique rest each' each).symm⟩
      have same := congrArg List.getLast? (whole.trans ends)
      simpa using same.symm

theorem Keyed.reference {references : List Reference} {text : Text}
    (keyed : Keyed (KeyOf references) text) {found : Reference}
    (member : .reference found ∈ Piece.ofText text) (other : found.kind ≠ .days) :
    ∃ reference ∈ references, reference.kind = found.kind ∧ reference.key = found.key := by
  obtain ⟨legible, lead, behind, whole⟩ := Piece.exists_of_mem_ofText member
  obtain ⟨braced, each, shape⟩ := legible.shape other
  obtain ⟨mark, ends, -⟩ := ReferenceKind.mark_mem braced
  obtain ⟨reference, within, -, sameMark, sameKey⟩ := keyed.known _ mark found.key
    ⟨lead ++ found.kind.key.dropLast, behind, by
      rw [whole, shape]
      nth_rewrite 1 [ends]
      simp, each⟩
  exact ⟨reference, within, (ReferenceKind.mark_injective braced sameMark.symm).symm, sameKey⟩

end IndicatorFormula
