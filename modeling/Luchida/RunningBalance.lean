import Mathlib.Algebra.BigOperators.Group.List.Basic

/- Statements of account. Each entry of a list records an amount, the balance before it and
   the balance after it. `Balanced start l m` says that the entries of `l` follow one
   another from the balance `start` to the balance `m`; then every balance in between is
   `start` with the amounts so far added (`after_eq`), and each entry starts from where
   the one before it ended (`before_eq_after`). -/
namespace RunningBalance

variable {α M : Type*} [AddMonoid M] {amount before after : α → M} {start m : M} {l : List α}

inductive Balanced (amount before after : α → M) (start : M) : List α → M → Prop
  | opening : Balanced amount before after start [] start
  | entry {l : List α} {m : M} {a : α} : Balanced amount before after start l m →
      before a = m → after a = m + amount a →
      Balanced amount before after start (l ++ [a]) (m + amount a)

namespace Balanced

theorem closing_eq (h : Balanced amount before after start l m) :
    m = start + (l.map amount).sum := by
  induction h with
  | opening => simp
  | entry _ _ _ ih => simp [ih, add_assoc]

/-- The last entry, and the balance it started from. -/
theorem of_append {a : α} (h : Balanced amount before after start (l ++ [a]) m) :
    ∃ m', Balanced amount before after start l m' ∧ before a = m' ∧ after a = m := by
  generalize heq : l ++ [a] = l' at h
  cases h with
  | opening => simp at heq
  | @entry l₁ m₁ a₁ h hbefore hafter =>
    obtain ⟨rfl, rfl⟩ : l = l₁ ∧ a = a₁ := by simpa using List.append_inj' heq rfl
    exact ⟨m₁, h, hbefore, hafter⟩

/-- What was true after the first entries was true then. -/
theorem take (h : Balanced amount before after start l m) (k : Nat) :
    ∃ m', Balanced amount before after start (l.take k) m' := by
  induction h with
  | opening => exact ⟨start, by simpa using .opening⟩
  | @entry l m a h hbefore hafter ih =>
    by_cases hk : k ≤ l.length
    · rwa [List.take_append_of_le_length hk]
    · rw [List.take_of_length_le (by simp; omega)]
      exact ⟨_, .entry h hbefore hafter⟩

theorem after_eq (h : Balanced amount before after start l m) {k : Nat} (hk : k < l.length) :
    after l[k] = start + ((l.take (k + 1)).map amount).sum := by
  obtain ⟨m', h'⟩ := h.take (k + 1)
  rw [← h'.closing_eq]
  rw [List.take_succ_eq_append_getElem hk] at h'
  obtain ⟨_, -, -, hafter⟩ := h'.of_append
  exact hafter

theorem before_eq (h : Balanced amount before after start l m) {k : Nat} (hk : k < l.length) :
    before l[k] = start + ((l.take k).map amount).sum := by
  obtain ⟨m', h'⟩ := h.take (k + 1)
  rw [List.take_succ_eq_append_getElem hk] at h'
  obtain ⟨m₁, h₁, hbefore, -⟩ := h'.of_append
  rw [hbefore, h₁.closing_eq]

theorem before_zero (h : Balanced amount before after start l m) (hl : 0 < l.length) :
    before l[0] = start := by
  simp [h.before_eq hl]

theorem before_eq_after (h : Balanced amount before after start l m) {k : Nat}
    (hk : k + 1 < l.length) : before l[k + 1] = after l[k] := by
  rw [h.before_eq hk, h.after_eq (Nat.lt_of_succ_lt hk)]

end Balanced

end RunningBalance
