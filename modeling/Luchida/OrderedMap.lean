import Mathlib.Data.List.Basic

/- A map kept in the order in which its keys were first set, as a list of pairs: the
   `Map` of JavaScript. `set` replaces the value of a key in place or appends it. -/
namespace OrderedMap

variable {κ ν : Type*} [DecidableEq κ]

def get (m : List (κ × ν)) (k : κ) : Option ν := (m.find? (fun e => e.1 = k)).map (·.2)

def has (m : List (κ × ν)) (k : κ) : Bool := (get m k).isSome

def set (m : List (κ × ν)) (k : κ) (v : ν) : List (κ × ν) :=
  if has m k = true then m.map (fun e => if e.1 = k then (k, v) else e) else m ++ [(k, v)]

def delete (m : List (κ × ν)) (k : κ) : List (κ × ν) := m.filter (fun e => e.1 ≠ k)

theorem has_iff {m : List (κ × ν)} {k : κ} : has m k = true ↔ k ∈ m.map (·.1) := by
  simp [has, get]

theorem mem_of_get {m : List (κ × ν)} {k : κ} {v : ν} (h : get m k = some v) : (k, v) ∈ m := by
  obtain ⟨e, he, rfl⟩ := Option.map_eq_some_iff.mp h
  have hkey : e.1 = k := by simpa using List.find?_some he
  rw [← hkey]
  exact List.mem_of_find?_eq_some he

theorem get_append_of_not_has {m m' : List (κ × ν)} {k : κ} (h : has m k = false) :
    get (m ++ m') k = get m' k := by
  have hnone : m.find? (fun e => e.1 = k) = none := by simpa [has, get] using h
  simp [get, List.find?_append, hnone]

theorem get_set_self (m : List (κ × ν)) (k : κ) (v : ν) : get (set m k v) k = some v := by
  unfold set
  split
  · rename_i h
    rw [has_iff] at h
    induction m with
    | nil => simp at h
    | cons e m ih =>
      by_cases heq : e.1 = k
      · simp [get, heq]
      · have hrest : k ∈ m.map (·.1) := by
          rcases List.mem_cons.mp h with rfl | h
          · exact absurd rfl heq
          · exact h
        have := ih hrest
        simpa [get, heq] using this
  · rename_i h
    rw [get_append_of_not_has (by simpa using h)]
    simp [get]

theorem get_set_of_ne (m : List (κ × ν)) {k k' : κ} (v : ν) (hne : k' ≠ k) :
    get (set m k v) k' = get m k' := by
  unfold set
  split
  · rename_i h
    clear h
    induction m with
    | nil => rfl
    | cons e m ih =>
      by_cases heq : e.1 = k'
      · have hk : e.1 ≠ k := fun h => hne (heq.symm.trans h)
        simp [get, heq, hne]
      · by_cases hk : e.1 = k
        · simpa [get, heq, hk, hne.symm] using ih
        · simpa [get, heq, hk] using ih
  · simp [get, List.find?_append, hne.symm]

/-- Dropping entries by their key leaves the keys that stay alone. -/
theorem get_filter (m : List (κ × ν)) {q : κ → Bool} {k : κ} (hk : q k = true) :
    get (m.filter (fun e => q e.1)) k = get m k := by
  induction m with
  | nil => rfl
  | cons e m ih =>
    by_cases heq : e.1 = k
    · subst heq
      simp [get, hk]
    · by_cases hq : q e.1 = true
      · simpa [get, heq, hq] using ih
      · simpa [get, heq, hq] using ih

theorem get_delete_of_ne (m : List (κ × ν)) {k k' : κ} (hne : k' ≠ k) :
    get (delete m k) k' = get m k' :=
  get_filter m (q := fun k' => decide (k' ≠ k)) (decide_eq_true hne)

/-- Setting a list of keys leaves the other keys alone. -/
theorem get_foldl_set_of_not_mem {β : Type*} (key : β → κ) (val : β → ν) (items : List β)
    (m : List (κ × ν)) {k : κ} (hk : k ∉ items.map key) :
    get (items.foldl (fun m b => set m (key b) (val b)) m) k = get m k := by
  induction items generalizing m with
  | nil => rfl
  | cons b items ih =>
    simp only [List.map_cons, List.mem_cons, not_or] at hk
    rw [List.foldl_cons, ih _ hk.2, get_set_of_ne m _ hk.1]

/-- Of keys that differ, each has the value it was set to. -/
theorem get_foldl_set {β : Type*} (key : β → κ) (val : β → ν) {items : List β}
    (m : List (κ × ν)) (hnodup : (items.map key).Nodup) {b : β} (hb : b ∈ items) :
    get (items.foldl (fun m b => set m (key b) (val b)) m) (key b) = some (val b) := by
  induction items generalizing m with
  | nil => simp at hb
  | cons b' items ih =>
    obtain ⟨hhead, hrest⟩ := List.nodup_cons.mp hnodup
    rw [List.foldl_cons]
    rcases List.mem_cons.mp hb with rfl | hb
    · rw [get_foldl_set_of_not_mem key val items _ hhead, get_set_self]
    · exact ih _ hrest hb

/-- The entries after `set`: the new one and the old ones of other keys. -/
theorem mem_set {m : List (κ × ν)} {k : κ} {v : ν} {e : κ × ν} :
    e ∈ set m k v ↔ e = (k, v) ∨ e.1 ≠ k ∧ e ∈ m := by
  unfold set
  split
  · rename_i h
    obtain ⟨e', he', hkey⟩ := List.mem_map.mp (has_iff.mp h)
    rw [List.mem_map]
    constructor
    · rintro ⟨a, ha, rfl⟩
      split
      · exact .inl rfl
      · rename_i hne
        exact .inr ⟨hne, ha⟩
    · rintro (rfl | ⟨hne, he⟩)
      · exact ⟨e', he', if_pos hkey⟩
      · exact ⟨e, he, if_neg hne⟩
  · rename_i h
    rw [List.mem_append, List.mem_singleton, or_comm]
    refine or_congr_right ⟨fun he => ⟨fun hkey => ?_, he⟩, fun he => he.2⟩
    exact h (has_iff.mpr (List.mem_map.mpr ⟨e, he, hkey⟩))

theorem mem_delete {m : List (κ × ν)} {k : κ} {e : κ × ν} :
    e ∈ delete m k ↔ e.1 ≠ k ∧ e ∈ m := by
  rw [delete, List.mem_filter, decide_eq_true_eq, and_comm]

/-- A key with an entry has a value. -/
theorem exists_get_of_mem {m : List (κ × ν)} {e : κ × ν} (h : e ∈ m) :
    ∃ v, get m e.1 = some v ∧ (e.1, v) ∈ m := by
  have hhas : has m e.1 = true := has_iff.mpr (List.mem_map_of_mem h)
  obtain ⟨v, hv⟩ := Option.isSome_iff_exists.mp hhas
  exact ⟨v, hv, mem_of_get hv⟩

@[simp] theorem has_delete (m : List (κ × ν)) (k k' : κ) :
    has (delete m k) k' = true ↔ k' ≠ k ∧ has m k' = true := by
  simp only [has_iff, delete, List.mem_map, List.mem_filter]
  constructor
  · rintro ⟨e, ⟨he, hne⟩, rfl⟩
    exact ⟨of_decide_eq_true hne, e, he, rfl⟩
  · rintro ⟨hne, e, he, rfl⟩
    exact ⟨e, ⟨he, decide_eq_true hne⟩, rfl⟩

theorem get_delete_self (m : List (κ × ν)) (k : κ) : get (delete m k) k = none := by
  have hhas : ¬ has (delete m k) k = true := fun h => ((has_delete m k k).mp h).1 rfl
  simpa [has] using hhas

/-! ### Every value at once -/

section
variable {ν' ε : Type*}

def mapValues (f : κ → ν → ν') (m : List (κ × ν)) : List (κ × ν') := m.map fun e => (e.1, f e.1 e.2)

@[simp] theorem get_mapValues (f : κ → ν → ν') (m : List (κ × ν)) (k : κ) :
    get (mapValues f m) k = (get m k).map (f k) := by
  induction m with
  | nil => rfl
  | cons e m ih =>
    by_cases heq : e.1 = k
    · subst heq
      simp [mapValues, get]
    · simpa [mapValues, get, heq] using ih

/-- The loop that changes every value, or throws at one. -/
def mapValuesM (f : κ → ν → Except ε ν') : List (κ × ν) → Except ε (List (κ × ν'))
  | [] => .ok []
  | (k, v) :: rest =>
    match f k v, mapValuesM f rest with
    | .error e, _ => .error e
    | .ok _, .error e => .error e
    | .ok v', .ok rest' => .ok ((k, v') :: rest')

/-- When no value throws, each key has the new value of its old one. -/
theorem get_mapValuesM {f : κ → ν → Except ε ν'} {m : List (κ × ν)} {m' : List (κ × ν')}
    (h : mapValuesM f m = .ok m') (k : κ) : (get m k).map (f k) = (get m' k).map .ok := by
  induction m generalizing m' with
  | nil =>
    cases h
    rfl
  | cons e m ih =>
    obtain ⟨k', v⟩ := e
    simp only [mapValuesM] at h
    split at h
    · cases h
    · cases h
    · rename_i v' rest' hv' hrest
      cases h
      by_cases heq : k' = k
      · subst heq
        simpa [get] using hv'
      · simpa [get, heq] using ih hrest

omit [DecidableEq κ] in
theorem of_mem_mapValuesM {f : κ → ν → Except ε ν'} {m : List (κ × ν)} {m' : List (κ × ν')}
    (h : mapValuesM f m = .ok m') {e' : κ × ν'} (he' : e' ∈ m') :
    ∃ e ∈ m, e.1 = e'.1 ∧ f e.1 e.2 = .ok e'.2 := by
  induction m generalizing m' with
  | nil =>
    cases h
    simp at he'
  | cons e m ih =>
    simp only [mapValuesM] at h
    split at h
    · cases h
    · cases h
    · rename_i v' rest' hv' hrest
      cases h
      rcases List.mem_cons.mp he' with rfl | hmem
      · exact ⟨e, by simp, rfl, hv'⟩
      · obtain ⟨e₀, he₀, hkey, hok⟩ := ih hrest hmem
        exact ⟨e₀, List.mem_cons_of_mem _ he₀, hkey, hok⟩

omit [DecidableEq κ] in
/-- The loop goes through where no value throws. -/
theorem exists_mapValuesM {f : κ → ν → Except ε ν'} {m : List (κ × ν)}
    (h : ∀ e ∈ m, ∃ v', f e.1 e.2 = .ok v') : ∃ m', mapValuesM f m = .ok m' := by
  induction m with
  | nil => exact ⟨[], rfl⟩
  | cons e m ih =>
    obtain ⟨v', hv'⟩ := h e (by simp)
    obtain ⟨rest', hrest⟩ := ih fun e he => h e (List.mem_cons_of_mem _ he)
    exact ⟨(e.1, v') :: rest', by simp [mapValuesM, hv', hrest]⟩

end

end OrderedMap
