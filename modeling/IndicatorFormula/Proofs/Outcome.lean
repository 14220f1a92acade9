/-! What a computation that may fail returns.

A condition on the value and one on the error are carried from step to step. -/

set_option autoImplicit false
namespace IndicatorFormula

variable {ε α β : Type}

instance decidableEqOutcome [DecidableEq ε] [DecidableEq α] : DecidableEq (Except ε α)
  | .ok first, .ok second => decidable_of_iff (first = second) (by simp)
  | .error first, .error second => decidable_of_iff (first = second) (by simp)
  | .ok _, .error _ | .error _, .ok _ => isFalse nofun

@[simp]
theorem mapError_ok {φ : Type} (change : ε → φ) (value : α) :
    (Except.ok value).mapError change = .ok value :=
  rfl

@[simp]
theorem mapError_error {φ : Type} (change : ε → φ) (error : ε) :
    (Except.error error : Except ε α).mapError change = .error (change error) :=
  rfl

theorem bind_eq_ok_iff {x : Except ε α} {next : α → Except ε β} {result : β} :
    x >>= next = .ok result ↔ ∃ value, x = .ok value ∧ next value = .ok result := by
  cases x with
  | error error =>
    refine iff_of_false (fun impossible => ?_) (fun ⟨_, impossible, _⟩ => ?_)
    · cases impossible
    · cases impossible
  | ok value =>
    refine ⟨fun returned => ⟨value, rfl, returned⟩, ?_⟩
    rintro ⟨_, first, returned⟩
    cases first
    exact returned

theorem bind_eq_error_iff {x : Except ε α} {next : α → Except ε β} {error : ε} :
    x >>= next = .error error ↔
      x = .error error ∨ ∃ value, x = .ok value ∧ next value = .error error := by
  cases x with
  | error other =>
    refine ⟨fun failed => .inl (by cases failed; rfl), ?_⟩
    rintro (failed | ⟨_, impossible, _⟩)
    · cases failed
      rfl
    · cases impossible
  | ok value =>
    refine ⟨fun failed => .inr ⟨value, rfl, failed⟩, ?_⟩
    rintro (impossible | ⟨_, returned, failed⟩)
    · cases impossible
    · cases returned
      exact failed

theorem exists_of_mapM {step : α → Except ε β} {items : List α} {values : List β}
    (ran : items.mapM step = .ok values) : ∀ item ∈ items, ∃ value, step item = .ok value := by
  induction items generalizing values with
  | nil => exact fun item member => absurd member List.not_mem_nil
  | cons first items ih =>
    rw [List.mapM_cons] at ran
    obtain ⟨value, stepped, ran⟩ := bind_eq_ok_iff.mp ran
    obtain ⟨values, later, -⟩ := bind_eq_ok_iff.mp ran
    exact List.forall_mem_cons.mpr ⟨⟨value, stepped⟩, ih later⟩

/-- A returned value meets one condition and an error another one. -/
def Returns (post : α → Prop) (failure : ε → Prop) : Except ε α → Prop
  | .ok value => post value
  | .error error => failure error

namespace Returns

variable {post : α → Prop} {out : β → Prop} {failure : ε → Prop}

theorem mono {weaker : α → Prop} {x : Except ε α} (returns : Returns post failure x)
    (implies : ∀ value, post value → weaker value) : Returns weaker failure x := by
  cases x with
  | ok value => exact implies value returns
  | error error => exact returns

theorem weaken {other : ε → Prop} {x : Except ε α} (returns : Returns post failure x)
    (implies : ∀ error, failure error → other error) : Returns post other x := by
  cases x with
  | ok value => exact returns
  | error error => exact implies error returns

theorem mapError {φ : Type} {other : φ → Prop} {x : Except ε α} (returns : Returns post failure x)
    (change : ε → φ) (implies : ∀ error, failure error → other (change error)) :
    Returns post other (x.mapError change) := by
  cases x with
  | ok value => exact returns
  | error error => exact implies error returns

theorem both {other : α → Prop} {x : Except ε α} (returns : Returns post failure x)
    (returns' : Returns other (fun _ => True) x) :
    Returns (fun value => post value ∧ other value) failure x := by
  cases x with
  | ok value => exact ⟨returns, returns'⟩
  | error error => exact returns

theorem any (x : Except ε α) : Returns (fun _ => True) (fun _ => True) x := by
  cases x <;> trivial

theorem forget {x : Except ε α} (returns : Returns post failure x) :
    Returns post (fun _ => True) x := by
  cases x with
  | ok value => exact returns
  | error error => trivial

theorem of_ok {x : Except ε α} {value : α} (returns : Returns post failure x)
    (returned : x = .ok value) : post value := by
  rw [returned] at returns
  exact returns

theorem of_error {x : Except ε α} {error : ε} (returns : Returns post failure x)
    (failed : x = .error error) : failure error := by
  rw [failed] at returns
  exact returns

theorem bind {x : Except ε α} {next : α → Except ε β} (first : Returns post failure x)
    (rest : ∀ value, post value → Returns out failure (next value)) :
    Returns out failure (x >>= next) := by
  cases x with
  | ok value => exact rest value first
  | error error => exact first

theorem foldlM {step : β → α → Except ε β} (items : List α) (initial : β) (start : out initial)
    (keeps : ∀ value, out value → ∀ item ∈ items, Returns out failure (step value item)) :
    Returns out failure (items.foldlM step initial) := by
  induction items generalizing initial with
  | nil => exact start
  | cons item items ih =>
    rw [List.foldlM_cons]
    refine bind (keeps initial start item List.mem_cons_self) fun value holds => ih value holds ?_
    exact fun value holds item member => keeps value holds item (List.mem_cons_of_mem _ member)

theorem mapM {step : α → Except ε β} (items : List α)
    (each : ∀ item ∈ items, Returns out failure (step item)) :
    Returns (fun values => ∀ value ∈ values, out value) failure (items.mapM step) := by
  induction items with
  | nil => exact fun _ member => absurd member List.not_mem_nil
  | cons item items ih =>
    rw [List.mapM_cons]
    refine bind (each item List.mem_cons_self) fun value holds => ?_
    refine bind (ih fun item member => each item (List.mem_cons_of_mem _ member))
      fun values all => ?_
    intro other member
    rcases List.mem_cons.mp member with rfl | member
    · exact holds
    · exact all other member

end Returns
end IndicatorFormula
