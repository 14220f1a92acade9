import IndicatorFormula.Proofs.Substitution.Leniency
import IndicatorFormula.Proofs.Substitution.Refilling

/-! The functions that calls in capitals name.

Calls are found regardless of case, names are then capitalized, and a function is looked up by its
exact name. Two characters match a capital regardless of case but are capitals of their own. They
stay, and only they keep a name that was found from being looked up. -/

set_option autoImplicit false
namespace IndicatorFormula

namespace Text

/-- Holds of the characters that match an ASCII capital regardless of case although they are
capitals of their own. -/
def IsLookalike (c : Char) : Prop :=
  c = 'İ' ∨ c = '\u212a'

instance (c : Char) : Decidable (IsLookalike c) :=
  inferInstanceAs (Decidable (_ ∨ _))

theorem eq_iff_of_spells {expected c : Char} (member : expected ∈ nameCharacters)
    (spelled : spells expected c = true) (isCapital : capital c = c) :
    expected = c ↔ ¬ IsLookalike c := by
  have found := of_spells
    (fun e c => decide (spells e c = true → capital c = c → (e = c ↔ ¬ IsLookalike c)))
    (by decide) member spelled
  exact of_decide_eq_true found spelled isCapital

theorem Spelling.eq_iff {function : Builtin} {text : Text} (spelling : Spelling function.name text)
    (capitals : ∀ c ∈ text, capital c = c) :
    function.name = text ↔ ∀ c ∈ text, ¬ IsLookalike c := by
  have within := spelling.within
  clear spelling
  generalize function.name = name at within ⊢
  induction within with
  | nil => simp
  | cons first _ ih =>
    obtain ⟨here, later⟩ := List.forall_mem_cons.mp capitals
    rw [List.cons.injEq, List.forall_mem_cons]
    exact and_congr (eq_iff_of_spells first.1 first.2 here) (ih later)

end Text

/-- The name that a head in capitals is read from is that of its function, but for lookalikes. -/
theorem CallHead.Calls.ofName?_eq {head : CallHead} {function : Builtin}
    (calls : head.Calls function)
    (capitals : head.capitalized = head) :
    Builtin.ofName? Builtin.all head.name =
      if ∀ c ∈ head.name, ¬ Text.IsLookalike c then some function else none := by
  have each : ∀ c ∈ head.name, Text.capital c = c :=
    List.map_inj_left.mp ((congrArg CallHead.name capitals).trans (List.map_id _).symm)
  split
  · rename_i plain
    rw [← (calls.name.eq_iff each).mpr plain, Expr.ofName?_of_mem (mem_all function)]
  · rename_i lookalike
    refine Option.eq_none_iff_forall_ne_some.mpr fun other found => lookalike ?_
    have named := (Expr.ofName?_all found).1
    have same : function = other := calls.name.unique (named ▸ Text.spelling_self other)
    rw [← calls.name.eq_iff each, same, named]

namespace CallPiece

variable {functions : List Builtin} {afterWord : Bool} {text : Text} {head : CallHead}

def head? : CallPiece → Option CallHead
  | .plain _ => none
  | .call head .. | .unclosed head => some head

theorem head?_ofHead (head : CallHead) (behind : Text) :
    (ofHead head behind).1.head? = some head := by
  unfold ofHead
  split <;> rfl

theorem calls_of_mem_ofTextFrom (inCapitals : InCapitals afterWord text) {piece : CallPiece}
    (member : piece ∈ ofTextFrom functions afterWord text) (heads : piece.head? = some head) :
    head.capitalized = head ∧ ∃ function ∈ functions, head.Calls function := by
  fun_induction ofTextFrom functions afterWord text with
  | case1 => cases member
  | case2 afterWord c rest own behind read ih =>
    obtain ⟨rfl, ⟨function, isOne, calls⟩, whole⟩ := CallHead.read?_eq_some_iff.mp read
    rw [whole] at inCapitals
    rcases List.mem_cons.mp member with rfl | later
    · rw [head?_ofHead] at heads
      cases heads
      exact ⟨inCapitals.capitalized_eq calls, function, isOne, calls⟩
    · rw [eq_of_ofHead] at inCapitals
      have behindCapitals := inCapitals.drop
      rw [endsWord_ofHead] at behindCapitals
      exact ih behindCapitals later
  | case3 afterWord c rest none ih =>
    rcases List.mem_cons.mp member with rfl | later
    · cases heads
    · exact ih inCapitals.2 later

theorem mem_of_mem_sites {pieces : List CallPiece} {position : Nat} {site : CallSite}
    (member : site ∈ sites position pieces) : ∃ piece ∈ pieces, piece.head? = some site.head := by
  induction pieces generalizing position with
  | nil => cases member
  | cons piece pieces ih =>
    have later {position : Nat} (member : site ∈ sites position pieces) :
        ∃ other ∈ piece :: pieces, other.head? = some site.head := by
      obtain ⟨other, found, heads⟩ := ih member
      exact ⟨other, List.mem_cons_of_mem _ found, heads⟩
    cases piece with
    | plain c => exact later member
    | call | unclosed =>
      rcases List.mem_cons.mp member with rfl | member
      · exact ⟨_, List.mem_cons_self, rfl⟩
      · exact later member

end CallPiece

/-- Whatever functions are looked for in a formula with its names in capitals: each call that is
found names one of them exactly, unless there is a lookalike in its name, which then is no
function's. -/
theorem callSites_capitalizeCalls (functions : List Builtin) (formula : Text) :
    ∃ sites, (callSites functions false (capitalizeCalls formula)).outcome = .ok sites ∧
      (∀ strict found, (callSites functions strict (capitalizeCalls formula)).outcome = .ok found →
        found = sites) ∧
      ∀ site ∈ sites, ∃ function ∈ functions, Builtin.ofName? Builtin.all site.head.name =
        if ∀ c ∈ site.head.name, ¬ Text.IsLookalike c then some function else none := by
  refine ⟨CallPiece.sites 0 (CallPiece.ofText functions (capitalizeCalls formula)), ?_,
    fun strict found ran => ?_, fun site member => ?_⟩
  · rw [callSites, Traced.outcome_bind, outcome_passOverUnclosed]
    rfl
  · obtain ⟨_, -, returned⟩ := Traced.outcome_bind_eq_ok_iff.mp ran
    cases returned
    rfl
  · obtain ⟨piece, found, heads⟩ := CallPiece.mem_of_mem_sites member
    obtain ⟨capitals, function, isOne, calls⟩ :=
      CallPiece.calls_of_mem_ofTextFrom (inCapitals_capitalizeCallsFrom false formula) found heads
    exact ⟨function, isOne, calls.ofName?_eq capitals⟩

theorem callSites_capitalizeCalls_dotted :
    ∃ formula site, (callSites Builtin.all true (capitalizeCalls formula)).outcome = .ok [site] ∧
      site.head.name = ['M', 'İ', 'N'] ∧ Builtin.ofName? Builtin.all site.head.name = none :=
  ⟨"mİn(1, 2)".toList, ⟨⟨['M', 'İ', 'N'], []⟩, 0, some "1, 2".toList⟩, by decide +kernel, rfl,
    by decide +kernel⟩

end IndicatorFormula
