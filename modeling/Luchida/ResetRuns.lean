import Mathlib.Data.List.Basic
import Mathlib.Data.List.Induction

/- A detector that forgets what it has seen when it fires. It reads a list from the left
   and fires where `C` holds of what it has read since it last fired (`since`). Against a
   detector that never forgets, which fires where `C` holds of all that was read, it agrees
   exactly where after each reading that calls for it the later ones call for it by
   themselves (`agrees_iff`). `C` is to be kept by more readings before the others. -/
namespace ResetRuns

variable {α : Type*} (C : List α → Prop) [DecidablePred C]

/-- What was read since the detector last fired. -/
def since (xs : List α) : List α :=
  xs.foldl (fun s x => if C (s ++ [x]) then [] else s ++ [x]) []

@[simp] theorem since_nil : since C [] = [] := rfl

theorem since_snoc (xs : List α) (x : α) :
    since C (xs ++ [x]) = if C (since C xs ++ [x]) then [] else since C xs ++ [x] := by
  rw [since, List.foldl_append, List.foldl_cons, List.foldl_nil, ← since]

variable {C}

/-- What was read before that calls for firing. -/
theorem exists_append_since (hmono : ∀ a b, C b → C (a ++ b)) (xs : List α) :
    ∃ a, xs = a ++ since C xs ∧ (a = [] ∨ C a) := by
  induction xs using List.reverseRecOn with
  | nil => exact ⟨[], rfl, .inl rfl⟩
  | append_singleton xs x ih =>
    obtain ⟨a, hxs, ha⟩ := ih
    rw [since_snoc]
    split
    · rename_i hfires
      refine ⟨xs ++ [x], by simp, .inr ?_⟩
      have hall := hmono a _ hfires
      rwa [← List.append_assoc, ← hxs] at hall
    · refine ⟨a, ?_, ha⟩
      rw [← List.append_assoc, ← hxs]

/-- The two detectors fire at the same readings of `xs`. -/
def Agrees (C : List α → Prop) [DecidablePred C] (xs : List α) : Prop :=
  ∀ pre x, pre ++ [x] <+: xs → (C (since C pre ++ [x]) ↔ C (pre ++ [x]))

/-- As long as the detectors agree, one that has fired keeps nothing from before. -/
theorem since_suffix {xs : List α} (h : Agrees C xs) {a : List α} (ha : C a) (hne : a ≠ [])
    (b : List α) (hab : a ++ b <+: xs) : since C (a ++ b) <:+ b := by
  induction b using List.reverseRecOn with
  | nil =>
    obtain ⟨a', x, rfl⟩ := List.eq_nil_or_concat' a |>.resolve_left hne
    rw [List.append_nil] at hab ⊢
    have hfired : since C (a' ++ [x]) = [] := by rw [since_snoc, if_pos ((h a' x hab).mpr ha)]
    exact List.suffix_nil.mpr hfired
  | append_singleton b x ih =>
    rw [← List.append_assoc] at hab ⊢
    have hsuffix := ih ((List.prefix_append _ _).trans hab)
    rw [since_snoc]
    split
    · exact List.nil_suffix
    · exact (List.suffix_append_self_iff).mpr hsuffix

/-- The detectors agree exactly where what follows a reading that calls for firing calls for
it by itself whenever all that was read does. -/
theorem agrees_iff (hmono : ∀ a b, C b → C (a ++ b)) (xs : List α) : Agrees C xs ↔
    ∀ a b, a ≠ [] → b ≠ [] → a ++ b <+: xs → C a → C (a ++ b) → C b := by
  constructor
  · intro h a b hna hnb hab ha hboth
    obtain ⟨b', x, rfl⟩ := List.eq_nil_or_concat' b |>.resolve_left hnb
    rw [← List.append_assoc] at hab hboth
    have hfires := (h (a ++ b') x hab).mpr hboth
    obtain ⟨c, hc⟩ := since_suffix h ha hna b' ((List.prefix_append _ _).trans hab)
    have hall := hmono c _ hfires
    rwa [← List.append_assoc, hc] at hall
  · intro h pre x hpre
    obtain ⟨a, ha, hfired⟩ := exists_append_since hmono pre
    have hsplit : pre ++ [x] = a ++ (since C pre ++ [x]) := by rw [← List.append_assoc, ← ha]
    rw [hsplit] at hpre ⊢
    constructor
    · exact hmono a _
    · intro hboth
      rcases hfired with rfl | hcalled
      · exact hboth
      · by_cases hnil : a = []
        · rw [hnil] at hboth
          exact hboth
        · exact h a _ hnil (by simp) hpre hcalled hboth

end ResetRuns
