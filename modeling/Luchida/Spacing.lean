import Mathlib.Data.List.Basic
import Mathlib.Tactic.Linarith

/- Logs of times, the newest entry first, in which any entry comes at least `d` after the
   `n`-th entry before it. Such a log has at most `n` entries in any half-open window of
   length `d`, and with `n = 1` its entries are `d` apart. -/
namespace Spacing

variable {n : Nat} {d : Int} {l : List Int}

/-- Any entry comes at least `d` after the `n`-th entry before it. -/
def SpacedBy (n : Nat) (d : Int) : List Int → Prop
  | [] => True
  | t :: rest => (∀ u ∈ (t :: rest)[n]?, u + d ≤ t) ∧ SpacedBy n d rest

def NewestFirst (l : List Int) : Prop := l.Pairwise (fun a b => b ≤ a)

/-- The entries of the half-open window of length `d` that begins at `w`. -/
def inWindow (d w : Int) (l : List Int) : List Int := l.filter (fun t => w ≤ t ∧ t < w + d)

theorem NewestFirst.le_of_mem_drop (hl : NewestFirst l) {u v : Int} (hu : l[n]? = some u)
    (hv : v ∈ l.drop n) : v ≤ u := by
  obtain ⟨hn, rfl⟩ := List.getElem?_eq_some_iff.mp hu
  rw [List.drop_eq_getElem_cons hn] at hv
  rcases List.mem_cons.mp hv with rfl | hv
  · exact le_rfl
  · have hdrop : NewestFirst (l.drop n) := hl.sublist (List.drop_sublist n l)
    rw [List.drop_eq_getElem_cons hn] at hdrop
    exact (List.pairwise_cons.mp hdrop).1 v hv

/-- At most `n` entries lie in a window. -/
theorem SpacedBy.inWindow_length_le (h : SpacedBy n d l) (hl : NewestFirst l) (w : Int) :
    (inWindow d w l).length ≤ n := by
  induction l with
  | nil => simp [inWindow]
  | cons t rest ih =>
    obtain ⟨hnth, hrest⟩ := h
    by_cases ht : w ≤ t ∧ t < w + d
    · -- from the `n`-th entry on everything is older than the window
      have hold : inWindow d w ((t :: rest).drop n) = [] := by
        rw [inWindow, List.filter_eq_nil_iff]
        intro v hv
        have hn : n < (t :: rest).length := by
          have := List.length_pos_of_mem hv
          rw [List.length_drop] at this
          omega
        have hget : (t :: rest)[n]? = some (t :: rest)[n] := List.getElem?_eq_getElem hn
        have hle := hl.le_of_mem_drop hget hv
        have hspace := hnth _ hget
        simp only [decide_eq_true_eq, not_and, not_lt]
        intro hw
        omega
      have hsplit : inWindow d w (t :: rest) = inWindow d w ((t :: rest).take n) := by
        conv_lhs => rw [← List.take_append_drop n (t :: rest)]
        rw [inWindow, List.filter_append, ← inWindow, ← inWindow, hold, List.append_nil]
      rw [hsplit]
      have := List.length_filter_le (fun t => decide (w ≤ t ∧ t < w + d)) ((t :: rest).take n)
      have := List.length_take_le n (t :: rest)
      unfold inWindow
      omega
    · have hskip : inWindow d w (t :: rest) = inWindow d w rest := by
        simp only [inWindow, List.filter_cons, ht, decide_false, Bool.false_eq_true, ↓reduceIte]
      rw [hskip]
      exact ih hrest hl.of_cons

/-- With `n = 1` any two entries are at least `d` apart. -/
theorem SpacedBy.pairwise (h : SpacedBy 1 d l) (hl : NewestFirst l) :
    l.Pairwise (fun a b => b + d ≤ a) := by
  induction l with
  | nil => exact List.Pairwise.nil
  | cons t rest ih =>
    obtain ⟨hnth, hrest⟩ := h
    refine List.pairwise_cons.mpr ⟨fun v hv => ?_, ih hrest hl.of_cons⟩
    cases rest with
    | nil => simp at hv
    | cons u rest =>
      have hspace : u + d ≤ t := hnth u (by simp)
      have hle : v ≤ u :=
        hl.le_of_mem_drop (n := 1) (l := t :: u :: rest) (by simp) (by simpa using hv)
      linarith

end Spacing
