import IndicatorFormula.Proofs.Substitution.Filling
import IndicatorFormula.Proofs.Substitution.Skipping
import IndicatorFormula.Store.Change
import IndicatorFormula.Store.Form
import IndicatorFormula.Store.Task
import Mathlib.Logic.Relation

/-! Refreshing the indicators of a store.

Indicators are changed one by one and saved together, each under its own id. As no two of them have
one id, this is the same as changing each where it is stored, and what becomes of one does not
depend on the others. -/

set_option autoImplicit false
namespace IndicatorFormula

/-- Indicators of a store have ids of their own, which are less than those to come. -/
structure Store.Numbered (store : Store) : Prop where
  below : ∀ saved ∈ store.savedIndicators, saved.id < store.nextIndicatorId
  distinct : (store.savedIndicators.map SavedIndicator.id).Nodup

def Store.mapIndicators (store : Store) (change : SavedIndicator → SavedIndicator) : Store :=
  { store with savedIndicators := store.savedIndicators.map change }

/-- The store after a task. One that fails leaves it as it was. -/
def Store.after (store : Store) (task : Store → Traced (Store × Nat)) : Store :=
  match (task store).outcome with
  | .ok (after, _) => after
  | .error _ => store

namespace SavedIndicator

def isDescribable (catalog : Catalog) (saved : SavedIndicator) : Bool :=
  (IndicatorFormula.describe catalog saved.numerator).isOk &&
    (IndicatorFormula.describe catalog saved.denominator).isOk

/-- The indicator with the descriptions of both its formulas, or as it is if one of them cannot be
described. -/
def refreshed (catalog : Catalog) (saved : SavedIndicator) : SavedIndicator :=
  match IndicatorFormula.describe catalog saved.numerator,
    IndicatorFormula.describe catalog saved.denominator with
  | .ok numeratorDescription, .ok denominatorDescription =>
    { saved with numeratorDescription, denominatorDescription }
  | _, _ => saved

def exploded (figures : Figures) (days : Option Number) (saved : SavedIndicator) : SavedIndicator :=
  { saved with
    explodedNumerator := (IndicatorFormula.explode figures days saved.numerator).toOption.join
    explodedDenominator := (IndicatorFormula.explode figures days saved.denominator).toOption.join }

def described? (catalog : Catalog) (saved : SavedIndicator) : Option SavedIndicator :=
  match saved.describe catalog with
  | (described, none) => some described
  | (_, some _) => none

variable {catalog : Catalog} {saved described : SavedIndicator}

theorem describe_cases (catalog : Catalog) (saved : SavedIndicator) :
    (∃ numeratorDescription denominatorDescription, IndicatorFormula.describe catalog
            saved.numerator = .ok numeratorDescription ∧
        IndicatorFormula.describe catalog saved.denominator = .ok denominatorDescription ∧
        saved.describe catalog =
          ({ saved with numeratorDescription, denominatorDescription }, none)) ∨
      (saved.isDescribable catalog = false ∧ saved.refreshed catalog = saved ∧
        ∃ halfway error, saved.describe catalog = (halfway, some error)) := by
  unfold describe isDescribable refreshed
  cases IndicatorFormula.describe catalog saved.numerator with
  | error error => exact .inr ⟨rfl, rfl, saved, error, rfl⟩
  | ok numeratorDescription =>
    cases IndicatorFormula.describe catalog saved.denominator with
    | error error => exact .inr ⟨rfl, rfl, { saved with numeratorDescription }, error, rfl⟩
    | ok denominatorDescription => exact .inl ⟨_, _, rfl, rfl, rfl⟩

theorem isSome_described? (catalog : Catalog) (saved : SavedIndicator) :
    (saved.described? catalog).isSome = saved.isDescribable catalog := by
  rcases describe_cases catalog saved
    with ⟨first, second, numerator, denominator, ran⟩ | ⟨failed, -, _, _, ran⟩
  · simp [described?, ran, isDescribable, numerator, denominator, Except.isOk, Except.toBool]
  · simp [described?, ran, failed]

/-- Only the descriptions of an indicator are saved, and only if both were found. -/
theorem takeDescriptions_described? (catalog : Catalog) (saved : SavedIndicator) :
    ((saved.described? catalog).map saved.takeDescriptions).getD saved =
      saved.refreshed catalog := by
  rcases describe_cases catalog saved
    with ⟨first, second, numerator, denominator, ran⟩ | ⟨-, kept, _, _, ran⟩
  · simp [described?, ran, refreshed, numerator, denominator, takeDescriptions]
  · simp [described?, ran, kept]

theorem id_of_described? (found : saved.described? catalog = some described) :
    described.id = saved.id := by
  rcases describe_cases catalog saved with ⟨first, second, -, -, ran⟩ | ⟨-, -, _, _, ran⟩
  · simp only [described?, ran, Option.some.injEq] at found
    rw [← found]
  · simp [described?, ran] at found

@[simp] theorem refreshed_id (catalog : Catalog) (saved : SavedIndicator) :
    (saved.refreshed catalog).id = saved.id := by
  unfold refreshed
  split <;> rfl

end SavedIndicator

theorem explodeReference_returns (figures : Figures) (days : Option Number)
    (reference : Reference) : ∃ text, explodeReference figures days reference = .ok text := by
  obtain ⟨kind, parts⟩ := reference
  cases kind with
  | constant =>
    cases found : figures.constants.lookup (Reference.key ⟨.constant, parts⟩) with
    | none => exact ⟨missingLiteral, by simp [explodeReference, found, literalOrZero]⟩
    | some x => exact ⟨_, by simp only [explodeReference, found]; rfl⟩
  | _ => exact ⟨_, rfl⟩

theorem explode_returns (figures : Figures) (days : Option Number) (formula : Text) :
    explode figures days formula = .ok (explode figures days formula).toOption.join := by
  obtain ⟨literal, written⟩ := Classical.axiomOfChoice (explodeReference_returns figures days)
  have pieces : (Piece.ofText formula).mapM (explodePiece figures days) = _ :=
    Piece.mapM_filled (fun _ => rfl) fun reference _ => written reference
  unfold explode
  split
  · rfl
  · rw [pieces]
    rfl

theorem SavedIndicator.explode_eq (figures : Figures) (days : Option Number)
    (saved : SavedIndicator) : saved.explode figures days = .ok (saved.exploded figures days) := by
  have numerator := explode_returns figures days saved.numerator
  have denominator := explode_returns figures days saved.denominator
  unfold SavedIndicator.explode explodeIndicator
  simp only [SavedIndicator.toIndicator, Option.getD_some]
  rw [numerator, denominator]
  rfl

theorem SavedIndicator.refreshed_exploded (catalog : Catalog) (figures : Figures)
    (days : Option Number) (saved : SavedIndicator) :
    (saved.exploded figures days).refreshed catalog =
      (saved.refreshed catalog).exploded figures days := by
  simp only [refreshed, exploded]
  split <;> rfl

namespace Store

variable {store after : Store} {change : SavedIndicator → Option SavedIndicator}
  {take : SavedIndicator → SavedIndicator → SavedIndicator}

theorem indicators_perm (store : Store) : store.indicators.Perm store.savedIndicators :=
  List.mergeSort_perm _ _

/-- Where ids tell indicators apart, the one that an id is found for is the one that was changed. -/
theorem find?_filterMap {indicators : List SavedIndicator}
    (distinct : (indicators.map SavedIndicator.id).Nodup)
    (keeps : ∀ saved changed, change saved = some changed → changed.id = saved.id)
    {saved : SavedIndicator} (member : saved ∈ indicators) :
    (indicators.filterMap change).find? (fun other => other.id == saved.id) = change saved := by
  induction indicators with
  | nil => cases member
  | cons first rest ih =>
    obtain ⟨other, distinct⟩ := List.nodup_cons.mp distinct
    have apart : ∀ later ∈ rest, later.id ≠ first.id := fun later member same =>
      other (List.mem_map.mpr ⟨later, member, same⟩)
    rcases List.mem_cons.mp member with rfl | member
    · cases own : change saved with
      | some changed => simp [own, keeps _ _ own]
      | none =>
        rw [List.filterMap_cons, own, List.find?_eq_none]
        intro changed found
        obtain ⟨later, within, same⟩ := List.mem_filterMap.mp found
        simpa [keeps _ _ same] using apart later within
    · cases own : change first with
      | some changed =>
        have skipped : (changed.id == saved.id) = false := by
          simpa [keeps _ _ own] using (apart saved member).symm
        rw [List.filterMap_cons, own, List.find?_cons, skipped]
        exact ih distinct member
      | none =>
        rw [List.filterMap_cons, own]
        exact ih distinct member

/-- What is saved for indicators that were changed one by one is saved for each where it is
stored. -/
theorem Numbered.updateIndicators (numbered : store.Numbered)
    (keeps : ∀ saved changed, change saved = some changed → changed.id = saved.id) :
    store.updateIndicators take (store.indicators.filterMap change) =
      store.mapIndicators fun saved => ((change saved).map (take saved)).getD saved := by
  have distinct := ((store.indicators_perm.map SavedIndicator.id).nodup_iff).mpr numbered.distinct
  unfold Store.updateIndicators mapIndicators
  congr 1
  refine List.map_congr_left fun saved member => ?_
  rw [find?_filterMap distinct keeps (store.indicators_perm.mem_iff.mpr member)]

theorem describeEach_outcome (catalog : Catalog) (indicators : List SavedIndicator) :
    (describeEach catalog indicators).outcome =
      .ok (indicators.filterMap (SavedIndicator.described? catalog)) := by
  induction indicators with
  | nil => rfl
  | cons saved rest ih =>
    rw [describeEach]
    cases ran : saved.describe catalog with
    | mk described error =>
      cases error with
      | none =>
        have own : saved.described? catalog = some described := by
          rw [SavedIndicator.described?, ran]
        simp only [Traced.outcome_bind, ih, List.filterMap_cons, own]
        rfl
      | some error =>
        have own : saved.described? catalog = none := by rw [SavedIndicator.described?, ran]
        simp only [Traced.outcome_bind, ih, List.filterMap_cons, own]
        rfl

theorem Numbered.describeAll_outcome (numbered : store.Numbered) :
    store.describeAll.outcome =
      .ok (store.mapIndicators (SavedIndicator.refreshed store.catalog),
        store.savedIndicators.countP (SavedIndicator.isDescribable store.catalog)) := by
  have counted : (store.indicators.filterMap (SavedIndicator.described? store.catalog)).length =
      store.savedIndicators.countP (SavedIndicator.isDescribable store.catalog) := by
    rw [List.length_filterMap_eq_countP, store.indicators_perm.countP_eq]
    exact List.countP_congr fun saved _ => by rw [SavedIndicator.isSome_described?]
  have saves : store.updateIndicators .takeDescriptions
      (store.indicators.filterMap (SavedIndicator.described? store.catalog)) = _ :=
    numbered.updateIndicators fun _ _ => SavedIndicator.id_of_described?
  simp only [SavedIndicator.takeDescriptions_described?] at saves
  simp only [describeAll, Traced.outcome_bind, describeEach_outcome]
  change Except.ok (store.updateIndicators .takeDescriptions _, _) = _
  rw [saves, counted]

theorem explodeEach_eq (figures : Figures) (days : Option Number)
    (indicators : List SavedIndicator) :
    (indicators.mapM fun saved => saved.explode figures days) =
      .ok (indicators.filterMap fun saved => some (saved.exploded figures days)) := by
  rw [List.filterMap_eq_map']
  simp only [SavedIndicator.explode_eq]
  exact List.mapM_pure

theorem Numbered.after_explodeAll (numbered : store.Numbered) (first last : Option Text) :
    store.after (explodeAll · first last) =
      match daysBetween first last with
      | .error _ => store
      | .ok days =>
        store.mapIndicators
          (SavedIndicator.exploded store.catalog.figures (days.map fun n => .int n)) := by
  cases between : daysBetween first last with
  | error error =>
    have failed : (store.explodeAll first last).outcome = .error (.period error) := by
      simp only [explodeAll, between, Traced.outcome_bind]
      rfl
    rw [after, failed]
  | ok days =>
    obtain ⟨count, done⟩ : ∃ count, (store.explodeAll first last).outcome =
        .ok (store.updateIndicators .takeExploded (store.indicators.filterMap fun saved =>
          some (saved.exploded store.catalog.figures (days.map fun n => .int n))), count) := by
      simp only [explodeAll, between, explodeEach_eq, Traced.outcome_bind]
      exact ⟨_, rfl⟩
    rw [after, done]
    exact numbered.updateIndicators fun _ _ same => by cases same; rfl

/-! ### Ids -/

/-- A change of a store. What fails changes nothing. -/
inductive Change : Store → Store → Prop where
  | put {store after : Store} {kind : CatalogKind} {fields : ObjectFields} {entry : Entry}
      (done : store.put kind fields = .ok (after, entry)) : Change store after
  | remove (store : Store) (kind : CatalogKind) (uid : Text) :
      Change store (store.remove kind uid).1
  | addExpression {store after : Store} {fields : ExpressionFields} {id : Nat}
      (done : store.addExpression fields = .ok (after, id)) : Change store after
  | updateExpression {store after : Store} {id : Nat} {fields : ExpressionFields}
      {changed : Option SavedExpression}
      (done : store.updateExpression id fields = .ok (after, changed)) : Change store after
  | deleteExpression (store : Store) (id : Nat) : Change store (store.deleteExpression id).1
  | addType {store after : Store} {fields : TypeFields} {type : IndicatorType}
      (done : store.addType fields = .ok (after, type)) : Change store after
  | addIndicator {store after : Store} {fields : IndicatorFields} {saved : SavedIndicator}
      (done : store.addIndicator fields = .ok (after, saved)) : Change store after
  | submitExpression {store after : Store} {fields : ExpressionFields}
      {submitted : Except FormErrors SavedExpression}
      (done : store.submitExpression fields = .ok (after, submitted)) : Change store after
  | submitType (store : Store) (fields : TypeFields) : Change store (store.submitType fields).1
  | submitIndicator {store after : Store} {form : IndicatorForm}
      {submitted : Except FormErrors SavedIndicator}
      (done : store.submitIndicator form = .ok (after, submitted)) : Change store after
  | explodeAll (store : Store) (first last : Option Text) :
      Change store (store.after (explodeAll · first last))
  | describeAll (store : Store) : Change store (store.after describeAll)

theorem Numbered.empty (catalog : Catalog) : Store.Numbered { catalog } :=
  ⟨fun _ member => absurd member List.not_mem_nil, List.nodup_nil⟩

theorem Numbered.congr (numbered : store.Numbered)
    (same : after.savedIndicators = store.savedIndicators)
    (next : after.nextIndicatorId = store.nextIndicatorId) : after.Numbered :=
  ⟨by rw [same, next]; exact numbered.below, by rw [same]; exact numbered.distinct⟩

theorem Numbered.mapIndicators (numbered : store.Numbered)
    {change : SavedIndicator → SavedIndicator} (keeps : ∀ saved, (change saved).id = saved.id) :
    (store.mapIndicators change).Numbered := by
  constructor
  · intro changed member
    obtain ⟨saved, within, rfl⟩ := List.mem_map.mp member
    rw [keeps]
    exact numbered.below saved within
  · have same : (store.savedIndicators.map change).map SavedIndicator.id =
        store.savedIndicators.map SavedIndicator.id := by
      rw [List.map_map]
      exact List.map_congr_left fun saved _ => keeps saved
    exact same ▸ numbered.distinct

theorem Numbered.saveIndicator (numbered : store.Numbered) (saved : SavedIndicator) :
    (store.saveIndicator saved).1.Numbered := by
  constructor
  · intro other member
    rcases List.mem_append.mp member with member | member
    · exact Nat.lt_succ_of_lt (numbered.below other member)
    · rw [List.mem_singleton.mp member]
      exact Nat.lt_succ_self _
  · have fresh : store.nextIndicatorId ∉ store.savedIndicators.map SavedIndicator.id := by
      intro member
      obtain ⟨other, member, same⟩ := List.mem_map.mp member
      exact Nat.lt_irrefl _ (same ▸ numbered.below other member)
    change ((store.savedIndicators ++ [{ saved with id := store.nextIndicatorId }]).map
      SavedIndicator.id).Nodup
    rw [List.map_append]
    exact List.nodup_append_comm.mp (List.nodup_cons.mpr ⟨fresh, numbered.distinct⟩)

theorem Numbered.after_describeAll (numbered : store.Numbered) :
    store.after describeAll = store.mapIndicators (SavedIndicator.refreshed store.catalog) := by
  rw [after, numbered.describeAll_outcome]

theorem Numbered.addType (numbered : store.Numbered) (fields : TypeFields) :
    Returns (fun result => result.1.Numbered) (fun _ => True) (store.addType fields) := by
  unfold Store.addType
  split
  · trivial
  refine .bind (.any _) fun _ _ => .bind (.any _) fun _ _ => .bind (.any _) fun _ _ => ?_
  split
  · trivial
  · exact numbered.congr rfl rfl

theorem Numbered.addIndicator (numbered : store.Numbered) (fields : IndicatorFields) :
    Returns (fun result => result.1.Numbered) (fun _ => True) (store.addIndicator fields) := by
  unfold Store.addIndicator
  split
  · refine .bind (.any _)
        fun _ _ => .bind (.any _) fun _ _ => .bind (.any _) fun _ _ => .bind (.any _) fun _ _ =>
      .bind (.any _) fun _ _ => ?_
    split
    · trivial
    · exact numbered.saveIndicator _
  · trivial

theorem Numbered.submitExpression (numbered : store.Numbered) (fields : ExpressionFields) :
    Returns (fun result => result.1.Numbered) (fun _ => True) (store.submitExpression fields) := by
  unfold Store.submitExpression
  refine .bind (.any _) fun _ _ => ?_
  simp only []
  split
  · exact numbered
  · exact numbered.congr rfl rfl

theorem Numbered.submitIndicator (numbered : store.Numbered) (form : IndicatorForm) :
    Returns (fun result => result.1.Numbered) (fun _ => True) (store.submitIndicator form) := by
  unfold Store.submitIndicator
  refine .bind (.any _) fun _ _ => .bind (.any _) fun _ _ => ?_
  simp only []
  split
  · exact numbered.saveIndicator _
  · exact numbered

/-- No change of a store gives an indicator the id of another one. -/
theorem Numbered.of_change (numbered : store.Numbered) (changed : Change store after) :
    after.Numbered := by
  cases changed with
  | put done | addExpression done =>
    obtain ⟨_, -, same⟩ := bind_eq_ok_iff.mp done
    cases same
    exact numbered.congr rfl rfl
  | updateExpression done =>
    unfold updateExpression at done
    split at done
    · cases done
      exact numbered
    · obtain ⟨_, -, same⟩ := bind_eq_ok_iff.mp done
      cases same
      exact numbered.congr rfl rfl
  | remove | deleteExpression => exact numbered.congr rfl rfl
  | addType done => exact (numbered.addType _).of_ok done
  | addIndicator done => exact (numbered.addIndicator _).of_ok done
  | submitExpression done => exact (numbered.submitExpression _).of_ok done
  | submitType =>
    unfold submitType
    simp only []
    split
    · exact numbered
    · exact numbered.congr rfl rfl
  | submitIndicator done => exact (numbered.submitIndicator _).of_ok done
  | explodeAll first last =>
    rw [numbered.after_explodeAll]
    split
    · exact numbered
    · exact numbered.mapIndicators fun _ => rfl
  | describeAll =>
    rw [numbered.after_describeAll]
    exact numbered.mapIndicators fun saved => saved.refreshed_id _

theorem numbered_of_changes {catalog : Catalog}
    (changes : Relation.ReflTransGen Change { catalog } store) : store.Numbered := by
  induction changes with
  | refl => exact .empty catalog
  | tail _ changed ih => exact ih.of_change changed

/-- Describing the formulas of all indicators changes each of them on its own: it gets the
descriptions of both its formulas, or stays as it was if one of them cannot be described, however
far its description went. The number of those described is given, and formulas may be exploded
before that or after it. -/
theorem describeAll_atomic (numbered : store.Numbered) :
    store.describeAll.outcome =
        .ok ({ store with savedIndicators :=
                 store.savedIndicators.map (SavedIndicator.refreshed store.catalog) },
               store.savedIndicators.countP (SavedIndicator.isDescribable store.catalog)) ∧
      ∀ first last, (store.after (explodeAll · first last)).after describeAll =
        (store.after describeAll).after (explodeAll · first last) := by
  refine ⟨numbered.describeAll_outcome, fun first last => ?_⟩
  have described : (store.mapIndicators (SavedIndicator.refreshed store.catalog)).Numbered :=
    numbered.mapIndicators fun saved => saved.refreshed_id _
  rw [numbered.after_describeAll, described.after_explodeAll, numbered.after_explodeAll]
  cases daysBetween first last with
  | error => exact numbered.after_describeAll
  | ok days =>
    have exploded : (store.mapIndicators
        (SavedIndicator.exploded store.catalog.figures (days.map fun n => .int n))).Numbered :=
      numbered.mapIndicators fun _ => rfl
    simp only []
    rw [exploded.after_describeAll]
    simp only [mapIndicators, List.map_map, Store.mk.injEq, true_and, and_true]
    exact List.map_congr_left fun saved _ => saved.refreshed_exploded _ _ _

def halfDescribed : Store where
  catalog := { dataElements := [⟨['a'], "Cases".toList⟩] }
  savedIndicators := [ { id := 1, uid := ['i'], name := ['Z'], type := ⟨1, ['x'], 1, true⟩,
                         annualized := false, numerator := "#{a}".toList,
                         numeratorDescription := "old".toList, denominator := "#{b}".toList,
                         denominatorDescription := "older".toList },
                         { id := 2, uid := ['j'], name := ['A'], type := ⟨1, ['x'], 1, true⟩,
                           annualized := false, numerator := "#{a}".toList, denominator := ['1'] }]
  nextIndicatorId := 3

theorem describeAll_atomic_halfDescribed :
    halfDescribed.Numbered ∧
      (halfDescribed.savedIndicators.map fun saved =>
          (saved.describe halfDescribed.catalog).1.numeratorDescription) =
        ["Cases".toList, "Cases".toList] ∧
      (halfDescribed.savedIndicators.map fun saved =>
          (saved.refreshed halfDescribed.catalog).numeratorDescription) =
        ["old".toList, "Cases".toList] ∧
      halfDescribed.describeAll.outcome =
        .ok (halfDescribed.mapIndicators (SavedIndicator.refreshed halfDescribed.catalog), 1) ∧
      ∀ first last, (halfDescribed.after (explodeAll · first last)).after describeAll =
        (halfDescribed.after describeAll).after (explodeAll · first last) := by
  have numbered : halfDescribed.Numbered := ⟨by decide, by decide⟩
  have one : halfDescribed.savedIndicators.countP
      (SavedIndicator.isDescribable halfDescribed.catalog) = 1 := by decide +kernel
  obtain ⟨outcome, commutes⟩ := describeAll_atomic numbered
  rw [one] at outcome
  exact ⟨numbered, by decide +kernel, by decide +kernel, outcome, commutes⟩

end Store
end IndicatorFormula
