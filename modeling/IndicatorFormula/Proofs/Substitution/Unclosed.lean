import IndicatorFormula.Proofs.Formula.Search
import IndicatorFormula.Proofs.Substitution.Casing

/-! Calls are handed out one by one.

A call that does not close is noted before it is handed out, and strict reading fails with it. So
strict reading uses the calls that lenient reading does up to the first one that does not close, and
what has been done with them is done. -/

set_option autoImplicit false
namespace IndicatorFormula

namespace CallSite

variable {σ : Type}

/-- Hands a call that has been found to its user. A call that does not close is passed over before,
which strict reading fails with. -/
def handOut (strict : Bool) (formula : Text) (use : σ → CallSite → Traced σ) (state : σ)
    (site : CallSite) : Traced σ := do
  if site.closing?.isNone then
    Traced.passOver strict (.unclosedCall site.argumentStart formula)
  use state site

def collect (found : List CallSite) (site : CallSite) : Traced (List CallSite) :=
  pure (found ++ [site])

def endStrictly (formula : Text) (sites : List CallSite) (result : σ) : Traced σ :=
  match firstUnclosed? sites with
  | some site => Traced.fail (.formula (.unclosedCall site.argumentStart formula))
  | none => pure result

def warnings (formula : Text) (sites : List CallSite) : List JournalEntry :=
  (sites.filter fun site => site.closing?.isNone).map fun site =>
    ⟨.warning, (FormulaError.unclosedCall site.argumentStart formula).message⟩

theorem handOut_closed {site : CallSite} (closes : site.closing?.isNone = false) (strict : Bool)
    (formula : Text) (use : σ → CallSite → Traced σ) (state : σ) :
    handOut strict formula use state site = use state site := by
  unfold handOut
  rw [closes]
  rfl

theorem handOut_unclosed {site : CallSite} (unclosed : site.closing?.isNone = true) (strict : Bool)
    (formula : Text) (use : σ → CallSite → Traced σ) (state : σ) :
    handOut strict formula use state site =
      Traced.passOver strict (.unclosedCall site.argumentStart formula) >>=
      fun _ => use state site := by
  unfold handOut
  rw [unclosed]
  rfl

theorem endStrictly_unclosed {site : CallSite} (ends : site.closing? = none) (formula : Text)
    (sites : List CallSite) (result : σ) :
    endStrictly formula (site :: sites) result =
      Traced.fail (.formula (.unclosedCall site.argumentStart formula)) := by
  rw [endStrictly, firstUnclosed?, List.find?_cons_of_pos (by simp [ends])]

theorem endStrictly_closed {site : CallSite} {closing : Nat} (ends : site.closing? = some closing)
    (formula : Text) (sites : List CallSite) (result : σ) :
    endStrictly formula (site :: sites) result = endStrictly formula sites result := by
  rw [endStrictly, firstUnclosed?, List.find?_cons_of_neg (by simp [ends])]
  rfl

/-- Strict reading hands out the calls up to the first one that does not close, and fails there. -/
theorem foldlM_handOut_strict (formula : Text) (use : σ → CallSite → Traced σ) (state : σ)
    (sites : List CallSite) :
    sites.foldlM (handOut true formula use) state =
      (sites.takeWhile fun site => site.closing?.isSome).foldlM use state >>=
      endStrictly formula sites := by
  induction sites generalizing state with
  | nil => rfl
  | cons site sites ih =>
    rw [List.foldlM_cons]
    cases ends : site.closing? with
    | none =>
      rw [handOut_unclosed (by rw [ends]; rfl), List.takeWhile_cons_of_neg (by simp [ends]),
        List.foldlM_nil, pure_bind, endStrictly_unclosed ends]
      rfl
    | some closing =>
      rw [handOut_closed (by rw [ends]; rfl), List.takeWhile_cons_of_pos (by simp [ends]),
        List.foldlM_cons, bind_assoc, funext (endStrictly_closed ends formula sites)]
      exact bind_congr fun state => ih state

theorem foldlM_collect (found sites : List CallSite) :
    sites.foldlM collect found = pure (found ++ sites) := by
  induction sites generalizing found with
  | nil => rw [List.append_nil, List.foldlM_nil]
  | cons site sites ih =>
    rw [List.foldlM_cons, collect, pure_bind, ih, List.append_assoc, List.singleton_append]

theorem foldlM_collect_strict (formula : Text) (sites : List CallSite) :
    sites.foldlM (handOut true formula collect) [] = endStrictly formula sites sites := by
  rw [foldlM_handOut_strict, foldlM_collect, pure_bind, endStrictly, endStrictly]
  cases unclosed : firstUnclosed? sites with
  | some site => rfl
  | none =>
    have closed : sites.takeWhile (fun site => site.closing?.isSome) = sites :=
      List.takeWhile_eq_self_iff.mpr fun site member => by
        simpa [Option.isSome_iff_ne_none] using List.find?_eq_none.mp unclosed site member
    rw [closed, List.nil_append]

theorem warnings_append (formula : Text) (first second : List CallSite) :
    warnings formula (first ++ second) = warnings formula first ++ warnings formula second := by
  simp [warnings]

theorem handOut_lenient (formula : Text) (found : List CallSite) (site : CallSite) :
    handOut false formula collect found site =
      ⟨.ok (found ++ [site]), warnings formula [site]⟩ := by
  unfold warnings
  cases ends : site.closing? with
  | none =>
    rw [handOut_unclosed (by rw [ends]; rfl), List.filter_cons_of_pos (by simp [ends])]
    rfl
  | some closing =>
    rw [handOut_closed (by rw [ends]; rfl), List.filter_cons_of_neg (by simp [ends])]
    rfl

theorem foldlM_handOut_lenient (formula : Text) (found sites : List CallSite) :
    sites.foldlM (handOut false formula collect) found =
      ⟨.ok (found ++ sites), warnings formula sites⟩ := by
  induction sites generalizing found with
  | nil =>
    rw [List.append_nil]
    rfl
  | cons site sites ih =>
    rw [List.foldlM_cons, handOut_lenient, Traced.bind_of_ok rfl, ih, List.append_assoc,
      List.singleton_append, ← warnings_append, List.singleton_append]

end CallSite

theorem passOverUnclosed_handOut (strict : Bool) (formula : Text) (position : Nat)
    (pieces : List CallPiece) (found : List CallSite) :
    (passOverUnclosed strict formula position pieces >>=
        fun _ => pure (found ++ CallPiece.sites position pieces)) =
      (CallPiece.sites position pieces).foldlM (CallSite.handOut strict formula CallSite.collect)
        found := by
  induction pieces generalizing position found with
  | nil =>
    rw [CallPiece.sites, List.append_nil]
    rfl
  | cons piece pieces ih =>
    have later (site : CallSite) := ih (position + piece.text.length) (found ++ [site])
    simp only [List.append_assoc, List.singleton_append] at later
    cases piece with
    | plain c => exact ih (position + 1) found
    | call head argument closer => exact later ⟨head, position, some argument⟩
    | unclosed head =>
      -- Strict reading has failed already, and lenient reading goes on behind the head.
      have passed (use : Unit → Traced (List CallSite)) :
          (passOverUnclosed strict formula position (.unclosed head :: pieces) >>= use) =
            Traced.passOver strict (.unclosedCall (position + head.text.length) formula) >>=
            fun _ =>
              passOverUnclosed strict formula (position + head.text.length) pieces >>= use :=
                bind_assoc ..
      rw [passed, CallPiece.sites, List.foldlM_cons, CallSite.handOut_unclosed rfl, bind_assoc]
      exact bind_congr fun _ => later ⟨head, position, none⟩

namespace CallPiece

def isUnclosed : CallPiece → Bool
  | .unclosed _ => true
  | _ => false

theorem endStrictly_sites {piece : CallPiece} (closed : piece.isUnclosed = false) (formula : Text)
    (position : Nat) (pieces : List CallPiece) {σ : Type} (result : σ) :
    CallSite.endStrictly formula (sites position (piece :: pieces)) result =
      CallSite.endStrictly formula (sites (position + piece.text.length) pieces) result := by
  cases piece with
  | plain | call => rfl
  | unclosed head => cases closed

end CallPiece

/-- What a strict pass over a formula ends with: it fails at a call that does not close unless the
formula has been skipped before. -/
def endPass (formula : Text) (sites : List CallSite) : Option Text → Traced (Option Text)
  | some text => CallSite.endStrictly formula sites (some text)
  | none => pure none

theorem endPass_map (formula : Text) (sites : List CallSite) (change : Text → Text)
    (text : Option Text) :
    (endPass formula sites text >>= fun text => pure (text.map change)) =
      endPass formula sites (text.map change) := by
  cases text with
  | none => rfl
  | some text =>
    change CallSite.endStrictly _ _ _ >>= _ = CallSite.endStrictly _ _ _
    unfold CallSite.endStrictly
    cases CallSite.firstUnclosed? sites <;> rfl

theorem endPass_sites {piece : CallPiece} (closed : piece.isUnclosed = false) (formula : Text)
    (position : Nat) (pieces : List CallPiece) :
    endPass formula (CallPiece.sites position (piece :: pieces)) =
      endPass formula (CallPiece.sites (position + piece.text.length) pieces) := by
  funext text
  cases text with
  | none => rfl
  | some text => exact CallPiece.endStrictly_sites closed formula position pieces _

/-- Read strictly, the pass for samples does what it does up to the first call that does not close,
and fails there unless the formula has been skipped before. -/
theorem samplePieces_strict (samples : Option Samples) (skipsMissing : Bool) (formula : Text)
    (position : Nat) (pieces : List CallPiece) :
    samplePieces samples skipsMissing true formula position pieces =
      samplePieces samples skipsMissing true formula position
        (pieces.takeWhile fun piece => !piece.isUnclosed) >>=
      endPass formula (CallPiece.sites position pieces) := by
  induction pieces generalizing position with
  | nil => rfl
  | cons piece pieces ih =>
    cases kind : piece.isUnclosed with
    | true =>
      cases piece with
      | unclosed head =>
        rw [List.takeWhile_cons_of_neg (by simp [kind])]
        rfl
      | plain | call => cases kind
    | false =>
      have own : passOverUnclosed true formula position [piece] = pure () :=
        passOverUnclosed_closed true formula position fun head member => by
          rw [← List.mem_singleton.mp member] at kind
          cases kind
      rw [List.takeWhile_cons_of_pos (by simp [kind]), endPass_sites kind, samplePieces,
        samplePieces, own]
      simp only [pure_bind]
      split
      · rfl
      · simp only [ih, bind_assoc, pure_bind, endPass_map]

/-- What the calls are that are found in a formula, and how they are handed out. -/
structure HandedOut (functions : List Builtin) (formula : Text) (sites : List CallSite) : Prop where
  search : Search functions formula 0 sites
  only : ∀ others, Search functions formula 0 others → others = sites
  few : sites.length ≤ formula.length
  /-- A call begins behind the end of an earlier one, or behind its head if that does not close. -/
  ordered : sites.Pairwise fun site later => site.start < later.start ∧ site.resume ≤ later.start
  ends : ∀ site ∈ sites, site.Ends formula
  lenient : callSites functions false formula = ⟨.ok sites, CallSite.warnings formula sites⟩
  strict : callSites functions true formula = CallSite.endStrictly formula sites sites
  collected : ∀ strict, callSites functions strict formula =
    sites.foldlM (CallSite.handOut strict formula CallSite.collect) []
  /-- Whatever the calls are used for, strict reading uses those before the first one that does not
  close. -/
  used : ∀ {σ : Type} (use : σ → CallSite → Traced σ) (state : σ), sites.foldlM
      (CallSite.handOut true formula use) state =
    (sites.takeWhile fun site => site.closing?.isSome).foldlM use state >>=
    CallSite.endStrictly formula sites
  sampled : functions = aggregateFunctions → ∀ samples strategy,
    substituteSamples formula samples strategy true =
      samplePieces samples (strategy = .skipIfAnyMissing) true formula 0
          ((CallPiece.ofText functions formula).takeWhile fun piece => !piece.isUnclosed) >>=
        endPass formula sites

/-- The search for calls of any functions ends, in any formula, and is exact. Each step moves on
within the formula, and the calls that are found are those that are handed out. -/
theorem callSites_exact (functions : List Builtin) (formula : Text) :
    (∀ position site, CallSite.Next functions formula position site →
      position < site.resume ∧ site.resume ≤ formula.length) ∧
    ∃ sites, HandedOut functions formula sites := by
  have start : Text.endsWord false [] = false := rfl
  have search : Search functions formula 0
      (CallPiece.sites 0 (CallPiece.ofText functions formula)) :=
    CallPiece.search_ofTextFrom functions start
  have collected (strict : Bool) :=
    passOverUnclosed_handOut strict formula 0 (CallPiece.ofText functions formula) []
  refine ⟨fun _ _ next => next.progress, _,
    ⟨search, fun _ other => other.unique search, ?_, search.pairwise, search.ends, ?_, ?_,
      collected, fun use state => CallSite.foldlM_handOut_strict formula use state _, ?_⟩⟩
  · simpa using search.length_le (Nat.zero_le _)
  · exact (collected false).trans (CallSite.foldlM_handOut_lenient formula [] _)
  · exact (collected true).trans (CallSite.foldlM_collect_strict formula _)
  · rintro rfl samples strategy
    exact samplePieces_strict samples _ formula 0 _

/-- A call that does not close hides none of the calls behind its head. -/
example : (callSites aggregateFunctions false "SUM(AVG(1)".toList).outcome =
    .ok [⟨⟨"SUM".toList, []⟩, 0, none⟩, ⟨⟨"AVG".toList, []⟩, 4, some ['1']⟩] := by
  decide +kernel

end IndicatorFormula
