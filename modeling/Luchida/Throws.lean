import Mathlib.Tactic.TypeStar

/- Computations that may throw, as values of `Except`. `Ends post err x` says how `x`
   ends: where it returns, the value satisfies `post`; where it throws, what it throws
   satisfies `err`. The rules follow the shape of the program: a sequence (`Ends.bind`),
   a loop that keeps an invariant (`Ends.foldlM`), a change of the error
   (`Ends.mapError`). With `err` true of everything it is partial correctness. -/
namespace Throws

variable {ε ε' α β : Type*}

def Ends (post : α → Prop) (err : ε → Prop) : Except ε α → Prop
  | .ok a => post a
  | .error e => err e

section
variable {post post' : α → Prop} {err : ε → Prop} {x : Except ε α}

theorem Ends.of_ok (h : Ends post err x) {a : α} (hx : x = .ok a) : post a := by
  subst hx
  exact h

theorem Ends.of_error (h : Ends post err x) {e : ε} (hx : x = .error e) : err e := by
  subst hx
  exact h

/-- What cannot throw returns. -/
theorem Ends.returns (h : Ends post (fun _ => False) x) : ∃ a, x = .ok a ∧ post a := by
  cases x with
  | error e => exact h.elim
  | ok a => exact ⟨a, rfl, h⟩

theorem Ends.imp (h : Ends post err x) (himp : ∀ a, post a → post' a) : Ends post' err x := by
  cases x with
  | error e => exact h
  | ok a => exact himp a h

theorem Ends.imp_error {err' : ε → Prop} (h : Ends post err x) (himp : ∀ e, err e → err' e) :
    Ends post err' x := by
  cases x with
  | error e => exact himp e h
  | ok a => exact h

/-- Partial correctness, from what holds of a value that is returned. -/
theorem ends_iff_ok : Ends post (fun _ : ε => True) x ↔ ∀ a, x = .ok a → post a := by
  cases x with
  | error e => simp [Ends]
  | ok a => simp [Ends]

theorem Ends.mapError {f : ε → ε'} {err' : ε' → Prop} (h : Ends post err x)
    (himp : ∀ e, err e → err' (f e)) : Ends post err' (x.mapError f) := by
  cases x with
  | error e => exact himp e h
  | ok a => exact h

end

/-- A computation that can be run: it returns a value that passes a test. -/
theorem exists_ok {x : Except ε α} {p : α → Bool} (h : x.toOption.any p = true) :
    ∃ a, x = .ok a ∧ p a = true := by
  cases x with
  | error e => simp [Except.toOption] at h
  | ok a => exact ⟨a, rfl, by simpa [Except.toOption] using h⟩

/-- A computation that can be run: it throws an error that passes a test. -/
theorem exists_error {x : Except ε α} {p : ε → Bool}
    (h : (match x with | .error e => p e | .ok _ => false) = true) :
    ∃ e, x = .error e ∧ p e = true := by
  cases x with
  | error e => exact ⟨e, rfl, h⟩
  | ok a => cases h

@[simp] theorem mapError_ok (f : ε → ε') (a : α) : (Except.ok a).mapError f = .ok a := rfl

@[simp] theorem mapError_error (f : ε → ε') (e : ε) :
    (Except.error e : Except ε α).mapError f = .error (f e) := rfl

theorem mapError_eq_ok {f : ε → ε'} {x : Except ε α} {a : α} :
    x.mapError f = .ok a ↔ x = .ok a := by
  cases x with
  | error e => simp
  | ok b => simp

section
universe u
variable {ε : Type*} {α β : Type u} {x : Except ε α} {f : α → Except ε β}

/-- A step that returns. -/
theorem ok_bind (a : α) (f : α → Except ε β) : (Except.ok a >>= f) = f a := rfl

theorem bind_eq_ok {b : β} : x >>= f = .ok b ↔ ∃ a, x = .ok a ∧ f a = .ok b := by
  cases x with
  | error e => simp [bind, Except.bind]
  | ok a => simp [bind, Except.bind]

/-- A loop whose results each give back their item has one result for each item. -/
theorem map_of_mapM {f : α → Except ε β} {g : β → α} (hf : ∀ a b, f a = .ok b → g b = a)
    {items : List α} {results : List β} (h : items.mapM f = .ok results) :
    results.map g = items := by
  induction items generalizing results with
  | nil =>
    cases h
    rfl
  | cons a items ih =>
    rw [List.mapM_cons] at h
    obtain ⟨b, hb, h⟩ := bind_eq_ok.mp h
    obtain ⟨rest, hrest, h⟩ := bind_eq_ok.mp h
    cases h
    rw [List.map_cons, hf a b hb, ih hrest]

/-- The rule of a sequence. -/
theorem Ends.bind (mid : α → Prop) {post : β → Prop} {err : ε → Prop} (hx : Ends mid err x)
    (hf : ∀ a, x = .ok a → mid a → Ends post err (f a)) : Ends post err (x >>= f) := by
  cases x with
  | error e => exact hx
  | ok a => exact hf a rfl hx

/-- The rule of a loop. The invariant may speak of the items that are done. -/
theorem Ends.foldlM {γ : Type*} (Inv : List γ → α → Prop) {err : ε → Prop}
    {step : α → γ → Except ε α} {items : List γ}
    (hstep : ∀ done item rest, items = done ++ item :: rest → ∀ a, Inv done a →
      Ends (Inv (done ++ [item])) err (step a item)) {a : α} (h : Inv [] a) :
    Ends (Inv items) err (items.foldlM step a) := by
  suffices hrest : ∀ rest done a, items = done ++ rest → Inv done a →
      Ends (Inv items) err (rest.foldlM step a) from hrest items [] a rfl h
  intro rest
  induction rest with
  | nil =>
    intro done a hitems h
    rw [hitems, List.append_nil]
    exact h
  | cons item rest ih =>
    intro done a hitems h
    rw [List.foldlM_cons]
    refine Ends.bind _ (hstep done item rest hitems a h) fun a' _ h' => ?_
    exact ih (done ++ [item]) a' (by rw [hitems, List.append_assoc, List.singleton_append]) h'

end

end Throws
