import IndicatorFormula.Proofs.Substitution.Leniency
import IndicatorFormula.Substitution.Extraction

/-! The keys under which samples are looked up.

Splitting a formula reports the arguments of its aggregate functions. Nothing else of a table of
samples is looked up, and the calls with the fragments around them are the whole formula. -/

set_option autoImplicit false
namespace IndicatorFormula

namespace CallPiece

def argument? : CallPiece → Option Text
  | .call _ argument _ => some argument
  | _ => none

end CallPiece

open CallPiece (argument?)

variable {table other : Samples} {formula : Text} {pieces : List CallPiece}

/-- Fragments with the calls between them, each from its head to its closing delimiter. -/
def weave : List Text → List CallPiece → Text
  | fragment :: fragments, call :: calls => fragment ++ call.text ++ weave fragments calls
  | fragments, _ => fragments.flatten

def aggregateCalls (formula : Text) : List CallPiece :=
  (CallPiece.ofText aggregateFunctions formula).filter fun piece => piece.argument?.isSome

/-- Holds of fragments that stand before each of some calls and, unless that is empty, behind the
last one. -/
def Surround (fragments : List Text) (calls : List CallPiece) : Prop :=
  fragments.length = calls.length ∨
    ∃ before last, fragments = before ++ [last] ∧ before.length = calls.length ∧ last ≠ []

theorem Surround.cons {fragments : List Text} {calls : List CallPiece}
    (surround : Surround fragments calls) (fragment : Text) (call : CallPiece) :
    Surround (fragment :: fragments) (call :: calls) := by
  rcases surround with same | ⟨before, last, rfl, same, some⟩
  · exact .inl (by simp [same])
  · exact .inr ⟨fragment :: before, last, rfl, by simp [same], some⟩

/-- The fragments around the calls among pieces make the text of the pieces with them. -/
theorem weave_fragmentsBetween (lead : Text) (pieces : List CallPiece) :
    weave (fragmentsBetween lead pieces) (pieces.filter fun piece => piece.argument?.isSome) =
        lead ++ pieces.flatMap CallPiece.text ∧
      Surround (fragmentsBetween lead pieces)
        (pieces.filter fun piece => piece.argument?.isSome) := by
  induction pieces generalizing lead with
  | nil =>
    cases lead with
    | nil => exact ⟨rfl, .inl rfl⟩
    | cons c rest =>
      exact ⟨by simp [fragmentsBetween, weave], .inr ⟨[], c :: rest, rfl, rfl, nofun⟩⟩
  | cons piece pieces ih =>
    cases piece with
    | call head argument closer =>
      obtain ⟨whole, surround⟩ := ih []
      refine ⟨?_, surround.cons lead _⟩
      rw [fragmentsBetween, List.filter_cons_of_pos rfl, weave, whole, List.flatMap_cons,
        List.append_assoc, List.nil_append]
    -- What is no call that closes goes on with the fragment before it.
    | plain | unclosed =>
      obtain ⟨whole, surround⟩ := ih _
      exact ⟨whole.trans (List.append_assoc ..), surround⟩

example : fragmentsBetween [] (CallPiece.ofText aggregateFunctions "1+sum(a)-avg(b".toList) =
    ["1+".toList, "-avg(b".toList] := by
  decide +kernel

/-- Splitting reports the arguments of the calls and the fragments around them, also if some calls
do not close. -/
theorem splitAggregates_eq (formula : Text) :
    (splitAggregates formula).outcome =
      .ok { aggregates := ((aggregateCalls formula).filterMap argument?).eraseDups
            fragments :=
              (fragmentsBetween [] (CallPiece.ofText aggregateFunctions formula)).eraseDups } := by
  have arguments : (aggregateCalls formula).filterMap argument? =
      (CallPiece.ofText aggregateFunctions formula).filterMap argument? := by
    rw [aggregateCalls, List.filterMap_filter]
    refine List.filterMap_congr fun piece _ => ?_
    cases piece <;> rfl
  rw [arguments, splitAggregates, Traced.outcome_bind, outcome_passOverUnclosed]
  rfl

theorem mem_filterMap_argument? {head : CallHead} {argument : Text} {closer : Char}
    (member : .call head argument closer ∈ CallPiece.ofText aggregateFunctions formula) :
    argument ∈ ((aggregateCalls formula).filterMap argument?).eraseDups :=
  List.mem_eraseDups.mpr (List.mem_filterMap.mpr ⟨_, List.mem_filter.mpr ⟨member, rfl⟩, rfl⟩)

def Samples.AgreeOn (table other : Samples) (pieces : List CallPiece) : Prop :=
  ∀ piece ∈ pieces, ∀ argument ∈ piece.argument?, table.lookup argument = other.lookup argument

theorem samplePieces_congr (agree : table.AgreeOn other pieces) (skipsMissing strict : Bool)
    (formula : Text) (position : Nat) :
    samplePieces (some table) skipsMissing strict formula position pieces =
      samplePieces (some other) skipsMissing strict formula position pieces := by
  induction pieces generalizing position with
  | nil => rfl
  | cons piece pieces ih =>
    obtain ⟨own, rest⟩ := List.forall_mem_cons.mp agree
    have lacks : lacksSamples (some table) piece = lacksSamples (some other) piece := by
      cases piece with
      | plain | unclosed => rfl
      | call head argument closer => simp only [lacksSamples, Option.any_some, own argument rfl]
    have sampled : samplePiece (some table) piece = samplePiece (some other) piece := by
      cases piece with
      | plain | unclosed => rfl
      | call head argument closer => simp only [samplePiece, sampledArgument, own argument rfl]
    simp only [samplePieces, lacks, sampled, ih rest]

theorem samplePieces_supplied {samples : Option Samples}
    (supplied : ∀ piece ∈ pieces, lacksSamples samples piece = false) (strict : Bool)
    (formula : Text) (position : Nat) :
    samplePieces samples true strict formula position pieces =
      samplePieces samples false strict formula position pieces := by
  induction pieces generalizing position with
  | nil => rfl
  | cons piece pieces ih =>
    obtain ⟨own, rest⟩ := List.forall_mem_cons.mp supplied
    simp only [samplePieces, own, ih rest, Bool.and_false]

theorem samplePieces_lacking {samples : Option Samples} {piece : CallPiece}
    (member : piece ∈ pieces) (lacks : lacksSamples samples piece = true) (strict : Bool)
    (formula : Text) (position : Nat) (sampled : Text) :
    (samplePieces samples true strict formula position pieces).outcome ≠ .ok (some sampled) := by
  induction pieces generalizing position sampled with
  | nil => cases member
  | cons first pieces ih =>
    intro ran
    unfold samplePieces at ran
    obtain ⟨-, -, ran⟩ := Traced.outcome_bind_eq_ok_iff.mp ran
    split at ran
    · cases ran
    · rename_i supplied
      rcases List.mem_cons.mp member with rfl | member
      · exact supplied (by rw [lacks]; rfl)
      · obtain ⟨text, -, ran⟩ := Traced.outcome_bind_eq_ok_iff.mp ran
        obtain ⟨later, rest, ran⟩ := Traced.outcome_bind_eq_ok_iff.mp ran
        cases later with
        | none => cases ran
        | some later => exact ih member _ later rest

def Samples.Written (table : Samples) : Prop :=
  ∀ entry ∈ table, ∀ sample ∈ entry.2, ∀ x ∈ sample, ∃ literal, x.literal = .ok literal

theorem exists_samplePieces (written : table.Written) (formula : Text) (position : Nat)
    (pieces : List CallPiece) :
    ∃ text, (samplePieces (some table) false false formula position pieces).outcome =
      .ok (some text) := by
  have returns := samplePieces_returns { samples := some table } false formula position pieces
  have some := samplePieces_isSome (.some table) false formula position pieces
  have inputs : Inputs.Written { samples := .some table } := by
    refine ⟨fun reference x supplied => ?_, fun other same => by cases same; exact written⟩
    cases kind : reference.kind <;>
      simp [Inputs.supply, Supply.number?, kind, valueTable, supplyAll] at supplied
  cases ran : (samplePieces (.some table) false false formula position pieces).outcome with
  | error failure =>
    rw [ran] at returns
    exact absurd inputs returns.2
  | ok result =>
    cases result with
    | none => exact absurd ran some
    | some text => exact ⟨text, rfl⟩

/-- The arguments that splitting a formula reports are the keys under which samples are looked up
for it. Tables that agree on them give the same, whatever the strategy. If there are samples under
each of them then the formula is not skipped for want of samples; if there are none under one of
them, and it does not begin with a less-than sign, then the strategy that skips for any missing
value leaves no text. The fragments with the calls between them are the whole formula. -/
theorem splitAggregates_keys (formula : Text) :
    ∃ split, (splitAggregates formula).outcome = .ok split ∧
      (∀ table other : Samples, (∀ key ∈ split.aggregates, table.lookup key = other.lookup key) →
        ∀ strategy strict, substituteSamples formula (some table) strategy strict =
          substituteSamples formula (some other) strategy strict) ∧
      (∀ table : Samples, (∀ key ∈ split.aggregates, (table.lookup key).isSome = true) →
        (∀ strict, (substituteSamples formula (some table) .skipIfAnyMissing strict).outcome ≠
            .ok none) ∧
          (table.Written →
            ∃ text, (substituteSamples formula (some table) .skipIfAnyMissing false).outcome =
              .ok (some text))) ∧
      (∀ table : Samples, ∀ key ∈ split.aggregates, key.head? ≠ some '<' → table.lookup key = none →
        ∀ strict text, (substituteSamples formula (some table) .skipIfAnyMissing strict).outcome ≠
          .ok (some text)) ∧
      ∃ fragments, split.fragments = fragments.eraseDups ∧
        split.aggregates = ((aggregateCalls formula).filterMap argument?).eraseDups ∧
        weave fragments (aggregateCalls formula) = formula ∧
        Surround fragments (aggregateCalls formula) := by
  refine ⟨_, splitAggregates_eq formula, ?_, ?_, ?_, _, rfl, rfl, ?_⟩
  · intro table other same strategy strict
    refine samplePieces_congr (fun piece member argument own => ?_) _ strict formula 0
    cases piece with
    | plain | unclosed => cases own
    | call head argument' closer =>
      cases own
      exact same _ (mem_filterMap_argument? member)
  · intro table supplied
    have none : ∀ piece ∈ CallPiece.ofText aggregateFunctions formula, lacksSamples (some table)
          piece = false := by
      intro piece member
      cases piece with
      | plain | unclosed => rfl
      | call head argument closer =>
        have found := supplied argument (mem_filterMap_argument? member)
        rw [← Option.not_isNone, Bool.not_eq_true'] at found
        simp [lacksSamples, found]
    have never : ∀ strict, substituteSamples formula (some table) .skipIfAnyMissing strict =
        samplePieces (some table) false strict formula 0
          (CallPiece.ofText aggregateFunctions formula) :=
      fun strict => samplePieces_supplied none strict formula 0
    simp only [never]
    exact ⟨fun strict => samplePieces_isSome _ strict formula 0 _,
      fun written => exists_samplePieces written formula 0 _⟩
  · intro table key member plain absent strict text
    obtain ⟨piece, found, own⟩ := List.mem_filterMap.mp (List.mem_eraseDups.mp member)
    refine samplePieces_lacking (List.mem_filter.mp found).1 ?_ strict formula 0 text
    cases piece with
    | plain | unclosed => cases own
    | call head argument closer =>
      cases own
      simp [lacksSamples, absent, plain]
  · have woven := weave_fragmentsBetween [] (CallPiece.ofText aggregateFunctions formula)
    rwa [CallPiece.text_ofText, List.nil_append] at woven

end IndicatorFormula
