import Mathlib.Data.List.Sort
import Mathlib.Data.List.Perm.Subperm
import Mathlib.Order.Basic

/- The newest elements of a list: those with the largest keys, `k` of them or all. They are
   told by what is newer than they are (`IsNewest.mem_iff`), and so there is one such list
   only. Those of a part of the list are those of the whole exactly when what is missing
   from the part has `k` newer elements (`IsNewest.of_part_iff`). -/
namespace Newest

variable {α κ : Type*} [LinearOrder κ] (key : α → κ)

/-- No two elements have one key. -/
def Distinct (l : List α) : Prop := l.Pairwise fun a b => key a ≠ key b

/-- The elements with a larger key. -/
def newer (l : List α) (a : α) : List α := l.filter fun b => key a < key b

/-- The `k` elements of `l` with the largest keys, or all of them, in ascending order. -/
structure IsNewest (k : ℕ) (l result : List α) : Prop where
  ascending : result.Pairwise fun a b => key a < key b
  subset : result ⊆ l
  length_eq : result.length = min k l.length
  newest : ∀ a ∈ l, a ∉ result → ∀ b ∈ result, key a < key b

variable {key}

omit [LinearOrder κ] in
theorem Distinct.nodup {l : List α} (h : Distinct key l) : l.Nodup :=
  h.imp fun hne heq => hne (congrArg key heq)

theorem mem_newer {l : List α} {a b : α} : b ∈ newer key l a ↔ b ∈ l ∧ key a < key b := by
  simp [newer]

/-- A part without repetitions that is as long as the whole is the whole. -/
theorem subset_of_length_le {l l' : List α} (hnodup : l'.Nodup) (hsub : l' ⊆ l)
    (hle : l.length ≤ l'.length) : l ⊆ l' :=
  ((hnodup.subperm hsub).perm_of_length_le hle).symm.subset

namespace IsNewest

variable {k : ℕ} {l result result' : List α}

theorem nodup (h : IsNewest key k l result) : result.Nodup :=
  h.ascending.imp fun hlt heq => (ne_of_lt hlt) (congrArg key heq)

/-- An element is among the newest `k` when fewer than `k` are newer. -/
theorem mem_iff (h : IsNewest key k l result) (hl : Distinct key l) {a : α} (ha : a ∈ l) :
    a ∈ result ↔ (newer key l a).length < k := by
  have hlength := h.length_eq
  constructor
  · intro hmem
    have hsub : a :: newer key l a ⊆ result := by
      intro b hb
      rcases List.mem_cons.mp hb with rfl | hb
      · exact hmem
      · obtain ⟨hb, hlt⟩ := mem_newer.mp hb
        by_contra hnot
        exact lt_asymm hlt (h.newest b hb hnot a hmem)
    have hnodup : (a :: newer key l a).Nodup := by
      refine List.nodup_cons.mpr ⟨fun hself => ?_, hl.nodup.filter _⟩
      exact lt_irrefl _ (mem_newer.mp hself).2
    have hle := (hnodup.subperm hsub).length_le
    simp only [List.length_cons] at hle
    omega
  · intro hlt
    by_contra hnot
    have hsub : result ⊆ newer key l a := by
      intro b hb
      exact mem_newer.mpr ⟨h.subset hb, h.newest a ha hnot b hb⟩
    have hle := (h.nodup.subperm hsub).length_le
    -- fewer than `k` newest ones are all there are
    have hall : l.length ≤ result.length := by omega
    exact hnot (subset_of_length_le h.nodup h.subset hall ha)

theorem unique (h : IsNewest key k l result) (h' : IsNewest key k l result')
    (hl : Distinct key l) : result = result' := by
  have hmem : ∀ a, a ∈ result ↔ a ∈ result' := by
    intro a
    constructor
    · intro ha
      exact (h'.mem_iff hl (h.subset ha)).mpr ((h.mem_iff hl (h.subset ha)).mp ha)
    · intro ha
      exact (h.mem_iff hl (h'.subset ha)).mpr ((h'.mem_iff hl (h'.subset ha)).mp ha)
  have hperm : result.Perm result' := (List.perm_ext_iff_of_nodup h.nodup h'.nodup).mpr hmem
  exact hperm.eq_of_pairwise (fun a b _ _ hab hba => absurd hab (lt_asymm hba)) h.ascending
    h'.ascending

end IsNewest

omit [LinearOrder κ] in
theorem Distinct.perm {l l' : List α} (h : Distinct key l) (hperm : l'.Perm l) :
    Distinct key l' :=
  (hperm.pairwise_iff fun {_ _} hne => Ne.symm hne).mpr h

/-- Sorted from the newest on, the first `k` elements turned round. -/
theorem isNewest_take {l sorted : List α} (k : ℕ) (hl : Distinct key l) (hperm : sorted.Perm l)
    (hsorted : sorted.Pairwise fun a b => key b ≤ key a) :
    IsNewest key k l (sorted.take k).reverse where
  ascending := by
    have hstrict : sorted.Pairwise fun a b => key b < key a :=
      (hsorted.and (hl.perm hperm)).imp fun h => lt_of_le_of_ne h.1 h.2.symm
    rw [List.pairwise_reverse]
    exact hstrict.sublist (List.take_sublist k sorted)
  subset := by
    intro a ha
    exact hperm.subset (List.mem_of_mem_take (List.mem_reverse.mp ha))
  length_eq := by rw [List.length_reverse, List.length_take, hperm.length_eq]
  newest := by
    intro a ha hnot b hb
    have ha' : a ∈ sorted.take k ++ sorted.drop k := by
      rw [List.take_append_drop]
      exact hperm.symm.subset ha
    have hdrop : a ∈ sorted.drop k := by
      rcases List.mem_append.mp ha' with htake | hdrop
      · exact absurd (List.mem_reverse.mpr htake) hnot
      · exact hdrop
    have hpair := hsorted.and (hl.perm hperm)
    rw [← List.take_append_drop k sorted, List.pairwise_append] at hpair
    obtain ⟨hle, hne⟩ := hpair.2.2 b (List.mem_reverse.mp hb) a hdrop
    exact lt_of_le_of_ne hle hne.symm

/-- The elements sorted from the newest on. -/
theorem pairwise_mergeSort (l : List α) :
    (l.mergeSort fun a b => key b ≤ key a).Pairwise fun a b => key b ≤ key a := by
  have hpairwise : (l.mergeSort fun a b => key b ≤ key a).Pairwise
      fun a b => decide (key b ≤ key a) = true := by
    apply List.pairwise_mergeSort
    · intro a b c hab hbc
      simp only [decide_eq_true_eq] at hab hbc ⊢
      exact hbc.trans hab
    · intro a b
      simpa using le_total (key b) (key a)
  simpa using hpairwise

theorem isNewest_mergeSort (k : ℕ) {l : List α} (hl : Distinct key l) :
    IsNewest key k l ((l.mergeSort fun a b => key b ≤ key a).take k).reverse :=
  isNewest_take k hl (List.mergeSort_perm l _) (pairwise_mergeSort l)

/-- The newest of a part are the newest of the whole exactly when each element that is
missing from the part has `k` newer ones. -/
theorem IsNewest.of_part_iff {k : ℕ} {l part result : List α} (hl : Distinct key l)
    (hpart : part.Sublist l) (h : IsNewest key k part result) :
    IsNewest key k l result ↔ ∀ a ∈ l, a ∉ part → k ≤ (newer key l a).length := by
  constructor
  · intro hwhole a ha hnot
    have hnotMem : a ∉ result := fun hmem => hnot (h.subset hmem)
    exact not_lt.mp (mt (hwhole.mem_iff hl ha).mpr hnotMem)
  · intro henough
    obtain ⟨newest, hnewest⟩ : ∃ newest, IsNewest key k l newest := ⟨_, isNewest_mergeSort k hl⟩
    have hsub : newest ⊆ part := by
      intro a ha
      by_contra hnot
      have hlt := (hnewest.mem_iff hl (hnewest.subset ha)).mp ha
      exact absurd (henough a (hnewest.subset ha) hnot) (not_le.mpr hlt)
    have hnewestPart : IsNewest key k part newest := by
      refine ⟨hnewest.ascending, hsub, ?_, fun a ha => hnewest.newest a (hpart.subset ha)⟩
      have hlength := hnewest.length_eq
      have hpartLength := hpart.length_le
      have hle := (hnewest.nodup.subperm hsub).length_le
      omega
    rw [h.unique hnewestPart (hl.sublist hpart)]
    exact hnewest

end Newest
