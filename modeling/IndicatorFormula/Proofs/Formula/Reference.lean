import IndicatorFormula.Formula.Reference
import IndicatorFormula.Proofs.Expression.Lexemes

/-! The text of references.

A reference is read exactly where it is written, unless a word character precedes it. -/

set_option autoImplicit false
namespace IndicatorFormula.Reference

/-- Holds of the references that a formula may have: one to three parts, or the number of days. -/
inductive Legible : Reference → Prop where
  | days : Legible ⟨.days, []⟩
  | braced {kind : ReferenceKind} {parts : List Text} (member : kind ∈ ReferenceKind.braced)
      (some : parts ≠ []) (few : parts.length ≤ 3)
      (each : ∀ part ∈ parts, part ≠ [] ∧ ∀ c ∈ part, isPart c = true) : Legible ⟨kind, parts⟩

variable {reference : Reference} {text behind : Text}

theorem takeWhile_isPart {part : Text} (each : ∀ c ∈ part, isPart c = true) {mark : Char}
    (ends : isPart mark = false) (behind : Text) :
    (part ++ mark :: behind).takeWhile isPart = part ∧
      (part ++ mark :: behind).dropWhile isPart = mark :: behind := by
  rw [List.takeWhile_append_of_pos each, List.dropWhile_append_of_pos each]
  simp [ends]

theorem isPart_point : isPart '.' = false := by
  decide

theorem isPart_brace : isPart '}' = false := by
  decide

theorem readParts?_join {further : Nat} {parts : List Text} (some : parts ≠ [])
    (few : parts.length ≤ further + 1)
    (each : ∀ part ∈ parts, part ≠ [] ∧ ∀ c ∈ part, isPart c = true) (behind : Text) :
    readParts? further (Text.join ['.'] parts ++ '}' :: behind) = .some (parts, behind) := by
  induction parts generalizing further with
  | nil => exact absurd rfl some
  | cons part parts ih =>
    obtain ⟨leads, own⟩ := each part List.mem_cons_self
    cases parts with
    | nil =>
      obtain ⟨taken, dropped⟩ := takeWhile_isPart own isPart_brace behind
      rw [Text.join, List.intercalate_singleton]
      unfold readParts?
      rw [taken, dropped, if_neg leads]
      cases further <;> rfl
    | cons other parts =>
      obtain ⟨taken, dropped⟩ :=
        takeWhile_isPart own isPart_point (Text.join ['.'] (other :: parts) ++ '}' :: behind)
      have whole : Text.join ['.'] (part :: other :: parts) ++ '}' :: behind =
          part ++ '.' :: (Text.join ['.'] (other :: parts) ++ '}' :: behind) := by
        rw [Text.join, List.intercalate_cons_cons]
        simp [Text.join]
      cases further with
      | zero => exact absurd few (by simp)
      | succ further =>
        have later := ih (List.cons_ne_nil _ _) (by simpa using few) fun part member =>
          each part (List.mem_cons_of_mem _ member)
        rw [whole]
        unfold readParts?
        rw [taken, dropped, if_neg leads]
        simp only [later, Option.map_some]

theorem legible_of_readParts? {further : Nat} {parts : List Text}
    (found : readParts? further text = some (parts, behind)) :
    parts.length ≤ further + 1 ∧ ∀ part ∈ parts, part ≠ [] ∧ ∀ c ∈ part, isPart c = true := by
  fun_induction readParts? further text generalizing parts behind with
  | case1 => cases found
  | case2 text further leads rest same =>
    cases found
    refine ⟨by simp, fun part member => ?_⟩
    rw [List.mem_singleton.mp member]
    exact ⟨leads, fun c member => List.mem_takeWhile_imp member⟩
  | case3 text leads rest more same ih =>
    obtain ⟨⟨later, last⟩, read, equal⟩ := Option.map_eq_some_iff.mp found
    cases equal
    obtain ⟨few, each⟩ := ih read
    refine ⟨by simpa using few, fun part member => ?_⟩
    rcases List.mem_cons.mp member with rfl | member
    · exact ⟨leads, fun c member => List.mem_takeWhile_imp member⟩
    · exact each part member
  | case4 => cases found

theorem readKind?_key {kind : ReferenceKind} (braced : kind ∈ ReferenceKind.braced)
    (other : ReferenceKind)
    (rest : Text) :
    readKind? (kind.key ++ '{' :: rest) other =
      if other = kind
        then (readParts? 2 rest).map fun found => (⟨kind, found.1⟩, found.2) else none := by
  cases kind <;> first | exact absurd braced (by decide) | (cases other <;> rfl)

theorem readKind?_bracket {kind : ReferenceKind} (braced : kind ∈ ReferenceKind.braced)
    (rest : Text) : readKind? ('[' :: rest) kind = none := by
  cases kind <;> first | rfl | exact absurd braced (by decide)

theorem text_braced {kind : ReferenceKind} (braced : kind ∈ ReferenceKind.braced)
    (parts : List Text) :
    kind ≠ .days ∧
      Reference.text ⟨kind, parts⟩ = kind.key ++ '{' :: Text.join ['.'] parts ++ ['}'] := by
  have notDays : kind ≠ .days := by
    rintro rfl
    exact absurd braced (by decide)
  exact ⟨notDays, by simp [Reference.text, notDays, key]⟩

theorem legible_of_read? {afterWord : Bool}
    (found : read? afterWord text = some (reference, behind)) :
    reference.Legible ∧ (afterWord = true → reference.kind = .days) := by
  unfold read? at found
  split at found
  · rename_i pair braced
    cases found
    split at braced
    · cases braced
    · rename_i fresh
      obtain ⟨kind, member, read⟩ := List.exists_of_findSome?_eq_some braced
      unfold readKind? at read
      split at read
      · obtain ⟨⟨parts, last⟩, readParts, equal⟩ := Option.map_eq_some_iff.mp read
        cases equal
        obtain ⟨few, each⟩ := legible_of_readParts? readParts
        exact ⟨.braced member (eq_of_readParts? readParts).1 few each,
          fun word => absurd word fresh⟩
      · cases read
  · obtain ⟨rest, begins, equal⟩ := Option.map_eq_some_iff.mp found
    cases equal
    exact ⟨.days, fun _ => rfl⟩

theorem read?_days (afterWord : Bool) (behind : Text) :
    read? afterWord (Reference.text ⟨.days, []⟩ ++ behind) = some (⟨.days, []⟩, behind) := by
  have none : (if afterWord then none else
      ReferenceKind.braced.findSome? (readKind? (Reference.text ⟨.days, []⟩ ++ behind))) =
          Option.none := by
    split
    · rfl
    · exact List.findSome?_eq_none_iff.mpr fun kind member => readKind?_bracket member _
  unfold read?
  rw [none]
  rfl

theorem read?_braced {kind : ReferenceKind} {parts : List Text}
    (member : kind ∈ ReferenceKind.braced) (some : parts ≠ []) (few : parts.length ≤ 3)
    (each : ∀ part ∈ parts, part ≠ [] ∧ ∀ c ∈ part, isPart c = true) (behind : Text) :
    read? false (Reference.text ⟨kind, parts⟩ ++ behind) = .some (⟨kind, parts⟩, behind) := by
  have own (other : ReferenceKind) :
      readKind? (Reference.text ⟨kind, parts⟩ ++ behind) other =
        if other = kind then .some (⟨kind, parts⟩, behind) else none := by
    have whole : Reference.text ⟨kind, parts⟩ ++ behind =
        kind.key ++ '{' :: (Text.join ['.'] parts ++ '}' :: behind) := by
      simp [(text_braced member parts).2]
    rw [whole, readKind?_key member, readParts?_join some few each]
    rfl
  have found : ReferenceKind.braced.findSome? (readKind? (Reference.text ⟨kind, parts⟩ ++ behind)) =
      .some (⟨kind, parts⟩, behind) := by
    cases read : ReferenceKind.braced.findSome?
      (readKind? (Reference.text ⟨kind, parts⟩ ++ behind)) with
    | none => exact absurd (List.findSome?_eq_none_iff.mp read kind member) (by simp [own])
    | some found =>
      obtain ⟨other, -, same⟩ := List.exists_of_findSome?_eq_some read
      rw [own] at same
      split at same
      · exact same.symm
      · cases same
  unfold read?
  rw [if_neg Bool.false_ne_true, found]

/-- A reference is read exactly where it is written. -/
theorem read?_eq_some_iff {afterWord : Bool} :
    read? afterWord text = some (reference, behind) ↔
      reference.Legible ∧ (afterWord = true → reference.kind = .days) ∧
        text = reference.text ++ behind := by
  constructor
  · intro found
    obtain ⟨legible, fresh⟩ := legible_of_read? found
    exact ⟨legible, fresh, eq_of_read? found⟩
  · rintro ⟨legible, fresh, rfl⟩
    cases legible with
    | days => exact read?_days afterWord behind
    | @braced kind parts member some few each =>
      have fresh : afterWord = false := by
        by_contra word
        exact (text_braced member parts).1 (fresh (Bool.eq_true_of_not_eq_false word))
      rw [fresh, read?_braced member some few each]

def starts : List Char :=
  ['[', '#', 'D', 'A', 'I', 'R', 'C', 'O']

theorem Legible.head (legible : reference.Legible) :
    ∃ c rest, reference.text = c :: rest ∧ c ∈ starts := by
  cases legible with
  | days => exact ⟨'[', _, rfl, by decide⟩
  | @braced kind parts member =>
    cases kind <;> first | exact ⟨_, _, rfl, by decide⟩ | exact absurd member (by decide)

theorem Legible.head_ne_brace (legible : reference.Legible) (behind : Text) :
    (reference.text ++ behind).head? ≠ some '{' := by
  obtain ⟨c, rest, shape, member⟩ := legible.head
  rw [shape]
  rintro ⟨⟩
  exact absurd member (by decide)

theorem kind_ne_days (dimensional : reference.isDimensional = true) : reference.kind ≠ .days := by
  intro days
  simp [isDimensional, days, ReferenceKind.isDimensional] at dimensional

theorem read?_eq_none {afterWord : Bool} {c : Char} (other : c ∉ starts) (rest : Text) :
    read? afterWord (c :: rest) = none := by
  refine Option.eq_none_iff_forall_ne_some.mpr fun ⟨reference, behind⟩ found => ?_
  obtain ⟨legible, -, whole⟩ := read?_eq_some_iff.mp found
  obtain ⟨d, later, shape, member⟩ := legible.head
  rw [shape] at whole
  rw [(List.cons.inj whole).1] at other
  exact other member

theorem mem_join {separator c : Char} {parts : List Text}
    (member : c ∈ Text.join [separator] parts) : c = separator ∨ ∃ part ∈ parts, c ∈ part := by
  induction parts with
  | nil => exact absurd member List.not_mem_nil
  | cons part parts ih =>
    cases parts with
    | nil => exact .inr ⟨part, List.mem_cons_self, by simpa [Text.join] using member⟩
    | cons other parts =>
      rw [Text.join, List.intercalate_cons_cons, List.append_assoc, List.mem_append,
        List.mem_append, List.mem_singleton] at member
      rcases member with member | rfl | member
      · exact .inr ⟨part, List.mem_cons_self, member⟩
      · exact .inl rfl
      · rcases ih member with same | ⟨part', within, member⟩
        · exact .inl same
        · exact .inr ⟨part', List.mem_cons_of_mem _ within, member⟩

def isInner (c : Char) : Bool :=
  !Text.isBlank c && c != '(' && c != ')'

theorem isInner_of_isPart {c : Char} (part : isPart c = true) : isInner c = true := by
  unfold isPart at part
  rcases Bool.or_eq_true_iff.mp part with word | star
  · have opening : Text.isWord '(' = false := by decide
    have closing : Text.isWord ')' = false := by decide
    have ne : ∀ mark, Text.isWord mark = false → c ≠ mark := by
      rintro mark other rfl
      rw [word] at other
      cases other
    simp [isInner, Text.isBlank_of_isWord word, ne _ opening, ne _ closing]
  · rw [beq_iff_eq.mp star]
    decide

theorem Legible.inner (legible : reference.Legible) : ∀ c ∈ reference.text, isInner c = true := by
  cases legible with
  | days => decide
  | @braced kind parts member some few each =>
    have key : ∀ c ∈ kind.key, isInner c = true := by
      cases kind <;> decide
    intro c found
    rw [(text_braced member parts).2, List.mem_append, List.mem_append, List.mem_cons,
      List.mem_singleton] at found
    rcases found with (found | rfl | found) | rfl
    · exact key c found
    · decide
    · rcases mem_join found with rfl | ⟨part, within, found⟩
      · decide
      · exact isInner_of_isPart ((each part within).2 c found)
    · decide

theorem Legible.last (legible : reference.Legible) :
    ∃ lead last, reference.text = lead ++ [last] ∧ (last = '}' ∨ last = ']') := by
  cases legible with
  | days => exact ⟨['[', 'd', 'a', 'y', 's'], ']', rfl, .inr rfl⟩
  | @braced kind parts member =>
    exact ⟨_, '}', (text_braced member parts).2, .inl rfl⟩

end IndicatorFormula.Reference
