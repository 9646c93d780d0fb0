import Mathlib.Tactic.TypeStar

/- Runs of a partial step function. `step s a` is what label `a` does in state
   `s`, or `none` when it is not enabled there. `Reaches step ok s₀ s` says that
   some run from `s₀` ends in `s` and that each of its labels satisfied `ok` in
   the state it was taken in. A label carries every choice the environment makes,
   so a run is a schedule: which party moves next, and what it is answered. -/
namespace Runs

variable {σ α : Type*} {step : σ → α → Option σ} {ok ok' : σ → α → Prop} {s₀ : σ}

/-- The states that runs from `s₀` reach through labels allowed by `ok`. -/
inductive Reaches (step : σ → α → Option σ) (ok : σ → α → Prop) (s₀ : σ) : σ → Prop
  | start : Reaches step ok s₀ s₀
  | next {s s' : σ} {a : α} :
      Reaches step ok s₀ s → ok s a → step s a = some s' → Reaches step ok s₀ s'

/-- A property of the first state that every allowed label preserves holds in
every state reached. -/
theorem Reaches.invariant {Inv : σ → Prop} (h0 : Inv s₀)
    (hstep : ∀ s a s', Inv s → ok s a → step s a = some s' → Inv s')
    {s : σ} (h : Reaches step ok s₀ s) : Inv s := by
  induction h with
  | start => exact h0
  | next _ hok hs ih => exact hstep _ _ _ ih hok hs

theorem Reaches.mono (himp : ∀ s a, ok s a → ok' s a) {s : σ}
    (h : Reaches step ok s₀ s) : Reaches step ok' s₀ s := by
  induction h with
  | start => exact .start
  | next _ hok hs ih => exact .next ih (himp _ _ hok) hs

/-- One more label, named. -/
theorem Reaches.snoc {s s' : σ} (h : Reaches step ok s₀ s) (a : α) (hok : ok s a)
    (hs : step s a = some s') : Reaches step ok s₀ s' :=
  .next h hok hs

theorem Reaches.trans {s s' : σ} (h : Reaches step ok s₀ s) (h' : Reaches step ok s s') :
    Reaches step ok s₀ s' := by
  induction h' with
  | start => exact h
  | next _ hok hs ih => exact .next ih hok hs

/-- A run with its steps, each with the state it was taken in, the last one first. -/
inductive Passes (step : σ → α → Option σ) (ok : σ → α → Prop) (s₀ : σ) : List (σ × α) → σ → Prop
  | start : Passes step ok s₀ [] s₀
  | next {past : List (σ × α)} {s s' : σ} {a : α} :
      Passes step ok s₀ past s → ok s a → step s a = some s' →
      Passes step ok s₀ ((s, a) :: past) s'

/-- A property of a state and of the steps before it that holds at first and is kept by every
allowed label holds after every run. -/
theorem Passes.invariant {Inv : List (σ × α) → σ → Prop} (h0 : Inv [] s₀)
    (hstep : ∀ past s a s', Inv past s → ok s a → step s a = some s' → Inv ((s, a) :: past) s')
    {past : List (σ × α)} {s : σ} (h : Passes step ok s₀ past s) : Inv past s := by
  induction h with
  | start => exact h0
  | next _ hok hs ih => exact hstep _ _ _ _ ih hok hs

theorem Reaches.exists_passes {s : σ} (h : Reaches step ok s₀ s) :
    ∃ past, Passes step ok s₀ past s := by
  induction h with
  | start => exact ⟨[], .start⟩
  | next _ hok hs ih =>
    obtain ⟨past, hpast⟩ := ih
    exact ⟨_, .next hpast hok hs⟩

/-- Take the labels in order, checking `ok` before each. -/
def exec (step : σ → α → Option σ) (ok : σ → α → Prop) [∀ s a, Decidable (ok s a)] :
    σ → List α → Option σ
  | s, [] => some s
  | s, a :: as => if ok s a then (step s a).bind (fun s' => exec step ok s' as) else none

theorem reaches_of_exec [∀ s a, Decidable (ok s a)] {as : List α} {s s' : σ}
    (h : exec step ok s as = some s') : Reaches step ok s s' := by
  induction as generalizing s with
  | nil =>
    simp only [exec, Option.some.injEq] at h
    subst h
    exact .start
  | cons a as ih =>
    simp only [exec] at h
    split at h
    · rename_i hok
      obtain ⟨t, ht, hrest⟩ := Option.bind_eq_some_iff.mp h
      exact Reaches.trans (.next .start hok ht) (ih hrest)
    · simp at h

/-- A schedule that ends where `P` holds is a run to such a state. -/
theorem exists_reaches {P : σ → Prop} [DecidablePred P] [∀ s a, Decidable (ok s a)]
    (as : List α) (h : (exec step ok s₀ as).any (fun s => decide (P s)) = true) :
    ∃ s, Reaches step ok s₀ s ∧ P s := by
  cases hs : exec step ok s₀ as with
  | none =>
    rw [hs] at h
    simp at h
  | some s =>
    rw [hs] at h
    exact ⟨s, reaches_of_exec hs, by simpa using h⟩

/-- Take the labels in order, checking `ok` before each, and keep the steps. -/
def execPasses (step : σ → α → Option σ) (ok : σ → α → Prop) [∀ s a, Decidable (ok s a)] :
    List (σ × α) → σ → List α → Option (List (σ × α) × σ)
  | past, s, [] => some (past, s)
  | past, s, a :: as =>
    if ok s a then (step s a).bind (fun s' => execPasses step ok ((s, a) :: past) s' as) else none

theorem passes_of_exec [∀ s a, Decidable (ok s a)] {as : List α} {past past' : List (σ × α)}
    {s s' : σ} (hpast : Passes step ok s₀ past s)
    (h : execPasses step ok past s as = some (past', s')) : Passes step ok s₀ past' s' := by
  induction as generalizing past s with
  | nil =>
    simp only [execPasses, Option.some.injEq, Prod.mk.injEq] at h
    obtain ⟨rfl, rfl⟩ := h
    exact hpast
  | cons a as ih =>
    simp only [execPasses] at h
    split at h
    · rename_i hok
      obtain ⟨t, ht, hrest⟩ := Option.bind_eq_some_iff.mp h
      exact ih (.next hpast hok ht) hrest
    · simp at h

/-- A schedule whose steps and end meet `P` is a run of which it holds. -/
theorem exists_passes {P : List (σ × α) → σ → Prop} [∀ past s, Decidable (P past s)]
    [∀ s a, Decidable (ok s a)] (as : List α)
    (h : (execPasses step ok [] s₀ as).any (fun r => decide (P r.1 r.2)) = true) :
    ∃ past s, Passes step ok s₀ past s ∧ P past s := by
  cases hr : execPasses step ok [] s₀ as with
  | none =>
    rw [hr] at h
    simp at h
  | some r =>
    rw [hr] at h
    exact ⟨r.1, r.2, passes_of_exec .start hr, by simpa using h⟩

end Runs
