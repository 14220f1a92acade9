import IndicatorFormula.Formula.Call
import IndicatorFormula.Proofs.Expression.Lexemes
import IndicatorFormula.Proofs.Text.Character
import Mathlib.Data.List.Forall2

/-! The heads of calls.

A head is the spelling of a function name, blanks and a parenthesis. Names are words, and neither
blanks nor the parenthesis are, so a text begins with one head at most, and that is read. -/

set_option autoImplicit false
namespace IndicatorFormula

namespace Text

def Spelling (name text : Text) : Prop :=
  List.Forall₂ (fun expected c => spells expected c = true) name text

theorem spelled?_append {name lead : Text} (spelling : Spelling name lead) (rest : Text) :
    spelled? name (lead ++ rest) = some (lead, rest) := by
  induction spelling with
  | nil => rfl
  | cons spelled later ih => simp [spelled?, spelled, ih]

theorem spelling_of_spelled? {name text lead rest : Text}
    (found : spelled? name text = some (lead, rest)) : Spelling name lead := by
  induction name generalizing text lead with
  | nil =>
    cases found
    exact .nil
  | cons expected name ih =>
    cases text with
    | nil => cases found
    | cons c text =>
      unfold spelled? at found
      split at found
      · rename_i spelled
        obtain ⟨⟨lead', rest'⟩, later, equal⟩ := Option.map_eq_some_iff.mp found
        cases equal
        exact .cons spelled (ih later)
      · cases found

theorem spells_unique {expected other c : Char} (member : expected ∈ nameCharacters)
    (spelled : spells expected c = true) (member' : other ∈ nameCharacters)
    (spelled' : spells other c = true) : expected = other := by
  have found :=
    of_spells (fun e c => nameCharacters.all fun e' => !spells e c || !spells e' c || e == e')
      (by decide +kernel) member spelled
  have same := List.all_eq_true.mp found other member'
  simpa [spelled, spelled'] using same

theorem spelling_self (function : Builtin) : Spelling function.name function.name := by
  have each : ∀ c ∈ nameCharacters, spells c c = true := by decide
  exact List.forall₂_same.mpr fun c member => each c (mem_nameCharacters member)

theorem Spelling.within {function : Builtin} {text : Text}
    (spelling : Spelling function.name text) :
    List.Forall₂ (fun expected c => expected ∈ nameCharacters ∧ spells expected c = true)
      function.name text :=
  (List.forall₂_and_left _ _).mpr ⟨fun _ => mem_nameCharacters, spelling⟩

theorem isWord_of_spelling {function : Builtin} {text : Text}
    (spelling : Spelling function.name text) : ∀ c ∈ text, isWord c = true := by
  have each : List.Forall₂ (fun c _ => isWord c = true ∧ True) text function.name :=
    (spelling.within.imp fun _ _ within => ⟨isWord_of_spells within.1 within.2, trivial⟩).flip
  exact ((List.forall₂_and_left _ _).mp each).1

theorem spelling_capital {function : Builtin} {text : Text}
    (spelling : Spelling function.name text) : Spelling function.name (text.map capital) :=
  List.forall₂_map_right_iff.mpr
    (spelling.imp fun expected c spelled => (spells_capital expected c).trans spelled)

/-- A text spells the name of one function at most. -/
theorem Spelling.unique {function other : Builtin} {text : Text}
    (spelling : Spelling function.name text) (spelling' : Spelling other.name text) :
    function = other := by
  have same : function.name = other.name :=
    List.left_unique_forall₂'
      (fun _ _ _ within within' => spells_unique within.1 within.2 within'.1 within'.2)
      spelling.within spelling'.within
  revert same
  cases function <;> cases other <;> decide

end Text

namespace CallHead

structure Calls (head : CallHead) (function : Builtin) : Prop where
  name : Text.Spelling function.name head.name
  gap : ∀ c ∈ head.gap, Text.isBlank c = true

variable {head : CallHead} {function : Builtin} {functions : List Builtin} {text behind : Text}

theorem text_append (head : CallHead) (behind : Text) :
    head.text ++ behind = head.name ++ (head.gap ++ '(' :: behind) := by
  simp [CallHead.text]

theorem Calls.opens (calls : head.Calls function) (behind : Text) :
    (head.gap ++ '(' :: behind).takeWhile Text.isBlank = head.gap ∧
      (head.gap ++ '(' :: behind).dropWhile Text.isBlank = '(' :: behind := by
  have stops : ∀ c ∈ ('(' :: behind).head?, Text.isBlank c = false := by
    intro c found
    cases found
    decide
  obtain ⟨taken, dropped⟩ := Lexer.takeWhile_of_head stops
  rw [List.takeWhile_append_of_pos calls.gap, List.dropWhile_append_of_pos calls.gap, taken,
    dropped, List.append_nil]
  exact ⟨rfl, rfl⟩

theorem Calls.readFunction? (calls : head.Calls function) (behind : Text) :
    readFunction? function (head.text ++ behind) = some (head, behind) := by
  obtain ⟨gap, opening⟩ := calls.opens behind
  simp only [CallHead.readFunction?, text_append, Text.spelled?_append calls.name, gap, opening]

theorem calls_of_readFunction? (found : readFunction? function text = some (head, behind)) :
    head.Calls function := by
  unfold CallHead.readFunction? at found
  split at found
  · cases found
  · rename_i name rest spelled
    split at found
    · cases found
      refine ⟨Text.spelling_of_spelled? spelled, fun c member => ?_⟩
      exact List.mem_takeWhile_imp member
    · cases found

theorem Calls.behind_name (calls : head.Calls function) (behind : Text) :
    ∀ c ∈ (head.gap ++ '(' :: behind).head?, Text.isBlank c = true ∨ c = '(' := by
  intro c found
  cases gap : head.gap with
  | nil =>
    rw [gap] at found
    cases found
    exact .inr rfl
  | cons b later =>
    rw [gap] at found
    cases found
    exact .inl (calls.gap c (by rw [gap]; exact List.mem_cons_self))

theorem Calls.word (calls : head.Calls function) (behind : Text) :
    (head.text ++ behind).takeWhile Text.isWord = head.name ∧
      (head.text ++ behind).dropWhile Text.isWord = head.gap ++ '(' :: behind := by
  have stops : ∀ c ∈ (head.gap ++ '(' :: behind).head?, Text.isWord c = false := by
    intro c found
    rcases calls.behind_name behind c found with blank | rfl
    · exact Text.isWord_of_isBlank blank
    · decide
  obtain ⟨taken, dropped⟩ := Lexer.takeWhile_of_head stops
  have word := Text.isWord_of_spelling calls.name
  rw [text_append, List.takeWhile_append_of_pos word, List.dropWhile_append_of_pos word, taken,
    dropped, List.append_nil]
  exact ⟨rfl, rfl⟩

theorem Calls.unique {other : CallHead} {function' : Builtin} {behind' : Text}
    (calls : head.Calls function) (calls' : other.Calls function')
    (same : head.text ++ behind = other.text ++ behind') : head = other ∧ behind = behind' := by
  obtain ⟨name, rest⟩ := calls.word behind
  obtain ⟨name', rest'⟩ := calls'.word behind'
  rw [same] at name rest
  rw [rest] at rest'
  obtain ⟨gap, opening⟩ := calls.opens behind
  obtain ⟨gap', opening'⟩ := calls'.opens behind'
  rw [rest'] at gap opening
  rw [opening] at opening'
  exact ⟨by cases head; cases other; simp_all, (List.cons.inj opening').2⟩

/-- A head of one of some functions is read wherever it begins, except behind a word character. -/
theorem read?_eq_some_iff {afterWord : Bool} :
    read? functions afterWord text = some (head, behind) ↔
      afterWord = false ∧ (∃ function ∈ functions, head.Calls function) ∧
        text = head.text ++ behind := by
  constructor
  · intro found
    have whole := eq_of_read? found
    unfold read? at found
    split at found
    · cases found
    · rename_i fresh
      obtain ⟨function, member, read⟩ := List.exists_of_findSome?_eq_some found
      exact ⟨by simpa using fresh, ⟨function, member, calls_of_readFunction? read⟩, whole⟩
  · rintro ⟨rfl, ⟨function, member, calls⟩, rfl⟩
    have some : (read? functions false (head.text ++ behind)).isSome := by
      simp only [read?, Bool.false_eq_true, ↓reduceIte, List.findSome?_isSome_iff]
      exact ⟨function, member, by rw [calls.readFunction?]; rfl⟩
    obtain ⟨⟨other, behind'⟩, found⟩ := Option.isSome_iff_exists.mp some
    obtain ⟨function', -, read⟩ :=
      List.exists_of_findSome?_eq_some (show functions.findSome?
          (fun function => CallHead.readFunction? function (head.text ++ behind)) = _ from found)
    obtain ⟨rfl, rfl⟩ := calls.unique (calls_of_readFunction? read) (eq_of_readFunction? read)
    exact found

theorem Calls.capitalized (calls : head.Calls function) : head.capitalized.Calls function :=
  ⟨Text.spelling_capital calls.name, calls.gap⟩

@[simp] theorem capitalized_capitalized (head : CallHead) :
    head.capitalized.capitalized = head.capitalized := by
  simp [CallHead.capitalized]

@[simp] theorem length_text_capitalized (head : CallHead) :
    head.capitalized.text.length = head.text.length := by
  simp [CallHead.text, CallHead.capitalized]

end CallHead
end IndicatorFormula
