import IndicatorFormula.Proofs.Formula.Depth
import IndicatorFormula.Proofs.Substitution.Refilling

/-! The search for calls.

A search goes through a formula from left to right. The next call is the first one whose head stands
at the position of the search or behind it. The search resumes behind its end, or behind its head if
it does not close, and is over where no head stands any more. Each step moves on within the formula,
so every search ends, and it finds what a formula is cut into. -/

set_option autoImplicit false
namespace IndicatorFormula

variable {functions : List Builtin} {formula : Text} {position : Nat}

/-- A head of a call of one of some functions stands at a place in a formula, and no word goes on
there. -/
structure CallHead.StandsAt (functions : List Builtin) (formula : Text) (place : Nat)
    (head : CallHead) : Prop where
  calls : ∃ function ∈ functions, head.Calls function
  written : ∃ before behind, formula = before ++ (head.text ++ behind) ∧ before.length = place ∧
    before.endsWord false = false

namespace CallHead

variable {head other : CallHead} {place : Nat}

theorem length_text_pos (head : CallHead) : 0 < head.text.length := by
  simp [CallHead.text]

theorem standsAt_iff {before text : Text} : head.StandsAt functions (before ++ text) before.length ↔
    ∃ behind, read? functions (before.endsWord false) text = some (head, behind) := by
  constructor
  · rintro ⟨calls, before', behind, whole, length, fresh⟩
    obtain ⟨rfl, rfl⟩ := List.append_inj whole length.symm
    exact ⟨behind, read?_eq_some_iff.mpr ⟨fresh, calls, rfl⟩⟩
  · rintro ⟨behind, read⟩
    obtain ⟨fresh, calls, rfl⟩ := read?_eq_some_iff.mp read
    exact ⟨calls, before, behind, rfl, rfl, fresh⟩

theorem StandsAt.unique (stands : head.StandsAt functions formula place)
    (stands' : other.StandsAt functions formula place) : head = other := by
  obtain ⟨⟨function, -, calls⟩, before, behind, rfl, rfl, -⟩ := stands
  obtain ⟨⟨function', -, calls'⟩, before', behind', whole, length, -⟩ := stands'
  exact (calls.unique calls' (List.append_inj whole length.symm).2).1

theorem StandsAt.length_le (stands : head.StandsAt functions formula place) :
    place + head.text.length ≤ formula.length := by
  obtain ⟨-, before, behind, rfl, rfl, -⟩ := stands
  simp

end CallHead

namespace CallSite

def resume (site : CallSite) : Nat :=
  match site.closing? with
  | some closing => closing + 1
  | none => site.argumentStart

theorem start_lt_argumentStart (site : CallSite) : site.start < site.argumentStart :=
  Nat.lt_add_of_pos_right site.head.length_text_pos

theorem start_lt_resume (site : CallSite) : site.start < site.resume := by
  have opens := site.start_lt_argumentStart
  unfold resume closing?
  cases site.argument with
  | none => exact opens
  | some argument =>
    change site.start < site.argumentStart + argument.length + 1
    omega

/-- The argument of a call is balanced and reaches up to the delimiter that closes the call. Without
an argument, there is no such delimiter. -/
structure Ends (formula : Text) (site : CallSite) : Prop where
  matching : Matching formula site.argumentStart site.closing?
  argument : ∀ argument ∈ site.argument, argument <+: formula.drop site.argumentStart ∧
    Balanced Text.nesting argument

structure Next (functions : List Builtin) (formula : Text) (position : Nat) (site : CallSite) :
    Prop where
  behind : position ≤ site.start
  stands : site.head.StandsAt functions formula site.start
  first : ∀ place head, position ≤ place → CallHead.StandsAt functions formula place head →
    site.start ≤ place
  ends : site.Ends formula

namespace Next

variable {site other : CallSite}

theorem resume_le (next : Next functions formula position site) : site.resume ≤ formula.length := by
  have head := next.stands.length_le
  have matching := next.ends.matching
  unfold resume
  cases ends : site.closing? with
  | none => exact head
  | some closing =>
    rw [ends] at matching
    cases matching with
    | closed _ found => exact (List.getElem?_eq_some_iff.mp found).1

theorem progress (next : Next functions formula position site) :
    position < site.resume ∧ site.resume ≤ formula.length :=
  ⟨Nat.lt_of_le_of_lt next.behind site.start_lt_resume, next.resume_le⟩

theorem unique (next : Next functions formula position site)
    (next' : Next functions formula position other) : site = other := by
  obtain ⟨head, start, argument⟩ := site
  obtain ⟨head', start', argument'⟩ := other
  obtain rfl : start = start' := Nat.le_antisymm (next.first _ _ next'.behind next'.stands)
    (next'.first _ _ next.behind next.stands)
  obtain rfl : head = head' := next.stands.unique next'.stands
  have closing := next.ends.matching.unique next'.ends.matching
  -- Both arguments begin behind the head, and they are of one length.
  cases argument with
  | none =>
    cases argument' with
    | none => rfl
    | some argument' => cases closing
  | some argument =>
    cases argument' with
    | none => cases closing
    | some argument' =>
      have length : argument.length = argument'.length :=
        Nat.add_left_cancel (Option.some.inj closing)
      have begins := (next.ends.argument _ rfl).1
      have begins' := (next'.ends.argument _ rfl).1
      rw [(List.prefix_of_prefix_length_le begins begins' length.le).eq_of_length length]

end Next
end CallSite

inductive Search (functions : List Builtin) (formula : Text) : Nat → List CallSite → Prop where
  | ended {position : Nat}
      (nothing : ∀ place head, position ≤ place →
        ¬ CallHead.StandsAt functions formula place head) : Search functions formula position []
  | step {position : Nat} {site : CallSite} {sites : List CallSite}
      (next : site.Next functions formula position)
      (further : Search functions formula site.resume sites) :
      Search functions formula position (site :: sites)

namespace Search

variable {sites others : List CallSite}

theorem unique (search : Search functions formula position sites)
    (search' : Search functions formula position others) : sites = others := by
  induction search generalizing others with
  | ended nothing =>
    cases search' with
    | ended => rfl
    | step next => exact absurd next.stands (nothing _ _ next.behind)
  | step next _ ih =>
    cases search' with
    | ended nothing => exact absurd next.stands (nothing _ _ next.behind)
    | step next' further =>
      obtain rfl := next.unique next'
      rw [ih further]

theorem length_le (search : Search functions formula position sites)
    (within : position ≤ formula.length) : position + sites.length ≤ formula.length := by
  induction search with
  | ended => exact within
  | step next _ ih =>
    obtain ⟨moves, within⟩ := next.progress
    have later := ih within
    rw [List.length_cons]
    omega

theorem ends (search : Search functions formula position sites) :
    ∀ site ∈ sites, site.Ends formula := by
  induction search with
  | ended => exact fun _ member => absurd member List.not_mem_nil
  | step next _ ih => exact List.forall_mem_cons.mpr ⟨next.ends, ih⟩

theorem le_start (search : Search functions formula position sites) :
    ∀ site ∈ sites, position ≤ site.start := by
  induction search with
  | ended => exact fun _ member => absurd member List.not_mem_nil
  | step next _ ih =>
    exact List.forall_mem_cons.mpr
      ⟨next.behind, fun later member => next.progress.1.le.trans (ih later member)⟩

/-- Each call begins behind the beginning of an earlier one, where the search has resumed or
later. -/
theorem pairwise (search : Search functions formula position sites) :
    sites.Pairwise fun site later => site.start < later.start ∧ site.resume ≤ later.start := by
  induction search with
  | ended => exact .nil
  | @step _ site _ _ further ih =>
    refine List.pairwise_cons.mpr ⟨fun later member => ?_, ih⟩
    have resumed := further.le_start later member
    exact ⟨Nat.lt_of_lt_of_le site.start_lt_resume resumed, resumed⟩

theorem skip (nothing : ∀ head, ¬ CallHead.StandsAt functions formula position head)
    (search : Search functions formula (position + 1) sites) :
    Search functions formula position sites := by
  have later {place : Nat} {head : CallHead} (behind : position ≤ place)
      (stands : head.StandsAt functions formula place) : position + 1 ≤ place := by
    refine Nat.lt_of_le_of_ne behind fun same => ?_
    subst same
    exact nothing head stands
  cases search with
  | ended none =>
    exact .ended fun place head behind stands => none place head (later behind stands) stands
  | step next further =>
    refine .step
      ⟨Nat.le_of_succ_le next.behind, next.stands, fun place head behind stands => ?_, next.ends⟩
      further
    exact next.first place head (later behind stands) stands

end Search

namespace CallPiece

theorem sites_ofHead (position : Nat) (head : CallHead) (behind : Text) (pieces : List CallPiece) :
    sites position ((ofHead head behind).1 :: pieces) =
      ⟨head, position, (splitClosing? 0 behind).map Prod.fst⟩ ::
        sites (position + (ofHead head behind).1.text.length) pieces := by
  unfold ofHead
  cases splitClosing? 0 behind <;> rfl

theorem resume_ofHead (position : Nat) (head : CallHead) (behind : Text) :
    CallSite.resume ⟨head, position, (splitClosing? 0 behind).map Prod.fst⟩ =
      position + (ofHead head behind).1.text.length := by
  unfold ofHead
  cases splitClosing? 0 behind with
  | none => rfl
  | some found =>
    change position + head.text.length + found.1.length + 1 =
      position + (head.text ++ found.1 ++ [found.2.1]).length
    simp [Nat.add_assoc]

theorem ends_ofHead (before : Text) (head : CallHead) (behind : Text) :
    CallSite.Ends (before ++ (head.text ++ behind))
      ⟨head, before.length, (splitClosing? 0 behind).map Prod.fst⟩ := by
  have start : before.length + head.text.length = (before ++ head.text).length :=
    List.length_append.symm
  rw [← List.append_assoc]
  constructor
  · have matching := matching_splitClosing? (before ++ head.text) behind
    rw [← start] at matching
    rw [CallSite.closing?, Option.map_map]
    exact matching
  · intro argument member
    obtain ⟨⟨argument', closer, rest⟩, split, same⟩ := Option.map_eq_some_iff.mp member
    cases same
    change _ <+: List.drop (before.length + head.text.length) _ ∧ _
    rw [start, List.drop_left, eq_of_splitClosing? split]
    exact ⟨List.prefix_append .., balanced_of_depth? (closed_of_splitClosing? split).1⟩

/-- What a formula is cut into is found by a search. -/
theorem search_ofTextFrom (functions : List Builtin) {before text : Text} {afterWord : Bool}
    (word : before.endsWord false = afterWord) :
    Search functions (before ++ text) before.length
      (sites before.length (ofTextFrom functions afterWord text)) := by
  fun_induction ofTextFrom functions afterWord text generalizing before with
  | case1 =>
    refine .ended fun place head behind stands => ?_
    have within := stands.length_le
    have some := head.length_text_pos
    rw [List.append_nil] at within
    omega
  | case2 afterWord c rest head behind read ih =>
    obtain ⟨-, calls, whole⟩ := CallHead.read?_eq_some_iff.mp read
    have stands : head.StandsAt functions (before ++ (c :: rest)) before.length :=
      CallHead.standsAt_iff.mpr ⟨behind, word ▸ read⟩
    have resumed : (before ++ (ofHead head behind).1.text).endsWord false = false := by
      rw [Text.endsWord_append, endsWord_ofHead]
    have further := ih resumed
    rw [List.append_assoc, ← eq_of_ofHead, ← whole, List.length_append] at further
    rw [sites_ofHead]
    refine .step ⟨Nat.le_refl _, stands, fun place head behind _ => behind, ?_⟩ ?_
    · rw [whole]
      exact ends_ofHead before head behind
    · rw [resume_ofHead]
      exact further
  | case3 afterWord c rest none ih =>
    have word' : (before ++ [c]).endsWord false = Text.isWord c := by
      rw [Text.endsWord_append]
      rfl
    have further := ih word'
    rw [List.append_assoc, List.singleton_append, List.length_append] at further
    refine Search.skip (fun head stands => ?_) further
    obtain ⟨behind, read⟩ := CallHead.standsAt_iff.mp stands
    rw [word, none] at read
    cases read

end CallPiece

end IndicatorFormula
