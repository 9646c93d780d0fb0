import Luchida.GmoBrokerAdapter

/- Which of the broker's positions an entry takes for its own: `findOpenPosition`, between
   the execution of a speedOrder and the row that `placeEntry` binds to a position id.

   The doc says that timestamp, side and size are matched so that no other position is
   taken. The timestamp of the execution is not looked at, and when no position has the side
   and the size of the execution, which is one of several when an order is filled in parts,
   the newest position of all is taken (`exists_foreign_adopted`). `findOpenPosition_own_iff`
   says for which lists the position is one that the order can have opened. -/
namespace Luchida

namespace GmoBrokerAdapter

/-! ## The newest of a list -/

/-- `pos` is the newest of `l`, the first of them in a tie. A date that cannot be read is
passed over, unless it is the first. -/
def NewestIn (l : List GmoOpenPosition) (pos : GmoOpenPosition) : Prop :=
  ∃ pre post, l = pre ++ pos :: post ∧
    (∀ q ∈ pre.head?, laterThan pos.timestamp q.timestamp = true) ∧
    (∀ q ∈ pre, laterThan pos.timestamp q.timestamp = true ∨ q.timestamp = none) ∧
    ∀ q ∈ post, laterThan q.timestamp pos.timestamp = false

theorem laterThan_iff {a b : Option Int} :
    laterThan a b = true ↔ ∃ s t, a = some s ∧ b = some t ∧ t < s := by
  unfold laterThan
  split
  · rename_i s t
    simp
  · rename_i hnot
    refine iff_of_false Bool.false_ne_true ?_
    intro ⟨s, t, hs, ht, _⟩
    exact hnot s t hs ht

theorem laterThan_trans {a b c : Option Int} (hab : laterThan a b = true)
    (hbc : laterThan b c = true) : laterThan a c = true := by
  obtain ⟨s, t, hs, ht, hlt⟩ := laterThan_iff.mp hab
  obtain ⟨t', u, ht', hu, hlt'⟩ := laterThan_iff.mp hbc
  cases ht.symm.trans ht'
  exact laterThan_iff.mpr ⟨s, u, hs, hu, hlt'.trans hlt⟩

/-- What is not later than a position is older than whatever is later than it, or its date
cannot be read. -/
theorem laterThan_of_not {a b c : Option Int} (hab : laterThan a b = true)
    (hcb : laterThan c b = false) : laterThan a c = true ∨ c = none := by
  obtain ⟨s, t, hs, ht, hlt⟩ := laterThan_iff.mp hab
  cases c with
  | none => exact .inr rfl
  | some u =>
    have hle : u ≤ t := by simpa [ht, laterThan] using hcb
    exact .inl (laterThan_iff.mpr ⟨s, u, hs, rfl, by omega⟩)

theorem newestOf_newestIn (first : GmoOpenPosition) (rest : List GmoOpenPosition) :
    NewestIn (first :: rest) (newestOf first rest) := by
  induction rest generalizing first with
  | nil => exact ⟨[], [], rfl, by simp, by simp, by simp⟩
  | cons x rest ih =>
    rw [newestOf]
    cases hx : laterThan x.timestamp first.timestamp with
    | true =>
      -- the first one is behind
      obtain ⟨pre, post, hl, hhead, hpre, hpost⟩ := ih x
      rw [if_pos rfl]
      have hfirst : laterThan (newestOf x rest).timestamp first.timestamp = true := by
        cases pre with
        | nil =>
          rw [← (List.cons.inj hl).1]
          exact hx
        | cons y pre =>
          obtain ⟨rfl, -⟩ := List.cons.inj hl
          exact laterThan_trans (hhead x rfl) hx
      refine ⟨first :: pre, post, by rw [hl]; rfl, by simpa using hfirst, ?_, hpost⟩
      exact List.forall_mem_cons.mpr ⟨.inl hfirst, hpre⟩
    | false =>
      obtain ⟨pre, post, hl, hhead, hpre, hpost⟩ := ih first
      rw [if_neg Bool.false_ne_true]
      generalize newestOf first rest = pos at *
      cases pre with
      | nil =>
        obtain ⟨rfl, rfl⟩ := List.cons.inj hl
        refine ⟨[], x :: rest, rfl, by simp, by simp, ?_⟩
        exact List.forall_mem_cons.mpr ⟨hx, hpost⟩
      | cons y pre =>
        obtain ⟨rfl, rfl⟩ := List.cons.inj hl
        have hlater := hhead first rfl
        refine ⟨first :: x :: pre, post, rfl, hhead, ?_, hpost⟩
        obtain ⟨hfirst, hpre⟩ := List.forall_mem_cons.mp hpre
        exact List.forall_mem_cons.mpr
          ⟨hfirst, List.forall_mem_cons.mpr ⟨laterThan_of_not hlater hx, hpre⟩⟩

theorem newestOf_eq_self {first : GmoOpenPosition} {rest : List GmoOpenPosition}
    (h : ∀ q ∈ rest, laterThan q.timestamp first.timestamp = false) :
    newestOf first rest = first := by
  induction rest with
  | nil => rfl
  | cons x rest ih =>
    obtain ⟨hx, hrest⟩ := List.forall_mem_cons.mp h
    rw [newestOf, if_neg (by simp [hx])]
    exact ih hrest

/-- Whatever the loop has come to when it reaches `pos`, `pos` is later. -/
theorem newestOf_eq_of_later {pos : GmoOpenPosition} {post : List GmoOpenPosition}
    (hpost : ∀ q ∈ post, laterThan q.timestamp pos.timestamp = false)
    (first : GmoOpenPosition) (pre : List GmoOpenPosition)
    (hfirst : laterThan pos.timestamp first.timestamp = true)
    (hpre : ∀ q ∈ pre, laterThan pos.timestamp q.timestamp = true ∨ q.timestamp = none) :
    newestOf first (pre ++ pos :: post) = pos := by
  induction pre generalizing first with
  | nil =>
    rw [List.nil_append, newestOf, if_pos hfirst]
    exact newestOf_eq_self hpost
  | cons x pre ih =>
    obtain ⟨hx, hpre⟩ := List.forall_mem_cons.mp hpre
    rw [List.cons_append, newestOf]
    cases hlater : laterThan x.timestamp first.timestamp with
    | true =>
      obtain ⟨s, -, hs, -⟩ := laterThan_iff.mp hlater
      exact ih x (hx.resolve_right (by simp [hs])) hpre
    | false => exact ih first hfirst hpre

/-- A list has one newest position, and the loop finds it. -/
theorem newestOf_eq_iff {first : GmoOpenPosition} {rest : List GmoOpenPosition}
    {pos : GmoOpenPosition} : newestOf first rest = pos ↔ NewestIn (first :: rest) pos := by
  constructor
  · intro h
    exact h ▸ newestOf_newestIn first rest
  · intro ⟨pre, post, hl, hhead, hpre, hpost⟩
    cases pre with
    | nil =>
      obtain ⟨rfl, rfl⟩ := List.cons.inj hl
      exact newestOf_eq_self hpost
    | cons y pre =>
      obtain ⟨rfl, rfl⟩ := List.cons.inj hl
      exact newestOf_eq_of_later hpost first pre (hhead first rfl)
        (List.forall_mem_cons.mp hpre).2

/-! ## The position of an execution -/

/-- The positions that may be meant. -/
def matching (list : List GmoOpenPosition) (side size : String) : List GmoOpenPosition :=
  list.filter (fun pos => pos.side == side && pos.size == size)

/-- The list that GMO answers with, where there is one. -/
def listed (tape : Nat → HttpOutcome (Option (List GmoOpenPosition))) : List GmoOpenPosition :=
  match (send tape 0).1 with
  | .error _ => []
  | .ok response => response.data.getD []

/-- What `findOpenPosition` returns: the newest that matches, or the newest of all. -/
theorem findOpenPosition_eq_ok {tape : Nat → HttpOutcome (Option (List GmoOpenPosition))}
    {side size : String} {pos : GmoOpenPosition} :
    findOpenPosition tape side size = .ok pos ↔
      NewestIn (matching (listed tape) side size) pos ∨
      matching (listed tape) side size = [] ∧ NewestIn (listed tape) pos := by
  have hnil : ∀ p, ¬ NewestIn [] p := by
    intro p ⟨pre, post, hl, _⟩
    simp at hl
  unfold findOpenPosition listed
  cases (send tape 0).1 with
  | error e => simp [matching, hnil]
  | ok response =>
    dsimp only
    obtain ⟨status, data, messages⟩ := response
    cases data with
    | none => simp [matching, hnil]
    | some list =>
      cases list with
      | nil => simp [matching, hnil]
      | cons first rest =>
        dsimp only [Option.getD_some]
        unfold matching
        split
        · rename_i candidate others hmatching
          rw [hmatching, Except.ok.injEq, newestOf_eq_iff]
          simp
        · rename_i hmatching
          rw [hmatching, Except.ok.injEq, newestOf_eq_iff]
          simp [hnil]

/-- The position that `findOpenPosition` answers with can be the one that the order opened:
it has the side and the size of the execution, was not opened before it, and is none of
those that existed before the order. -/
def AdoptsOwn (existed : List Nat) (execution : GmoExecution)
    (answer : Except AdapterError GmoOpenPosition) : Prop :=
  ∀ pos, answer = .ok pos →
    pos.side = execution.side ∧ pos.size = execution.size ∧
    laterThan execution.timestamp pos.timestamp = false ∧ pos.positionId ∉ existed

theorem NewestIn.mem {l : List GmoOpenPosition} {pos : GmoOpenPosition} (h : NewestIn l pos) :
    pos ∈ l := by
  obtain ⟨pre, post, rfl, -⟩ := h
  simp

theorem NewestIn.unique {l : List GmoOpenPosition} {pos pos' : GmoOpenPosition}
    (h : NewestIn l pos) (h' : NewestIn l pos') : pos = pos' := by
  cases l with
  | nil => cases h.mem
  | cons first rest => exact (newestOf_eq_iff.mpr h).symm.trans (newestOf_eq_iff.mpr h')

theorem exists_newestIn {l : List GmoOpenPosition} (h : l ≠ []) : ∃ pos, NewestIn l pos := by
  cases l with
  | nil => exact absurd rfl h
  | cons first rest => exact ⟨_, newestOf_newestIn first rest⟩

theorem mem_matching {list : List GmoOpenPosition} {side size : String} {pos : GmoOpenPosition} :
    pos ∈ matching list side size ↔ pos ∈ list ∧ pos.side = side ∧ pos.size = size := by
  simp [matching]

/-- `findOpenPosition` takes none but the order's own position exactly when there is nothing
to take, or the newest position of the side and size was opened by then and not before the
order. -/
theorem findOpenPosition_own_iff (tape : Nat → HttpOutcome (Option (List GmoOpenPosition)))
    (existed : List Nat) (execution : GmoExecution) :
    AdoptsOwn existed execution (findOpenPosition tape execution.side execution.size) ↔
      listed tape = [] ∨
      ∃ pos, NewestIn (matching (listed tape) execution.side execution.size) pos ∧
        laterThan execution.timestamp pos.timestamp = false ∧ pos.positionId ∉ existed := by
  unfold AdoptsOwn
  simp only [findOpenPosition_eq_ok]
  by_cases hnone : matching (listed tape) execution.side execution.size = []
  · -- the newest of all is taken, and it does not match
    constructor
    · intro h
      left
      by_contra hlisted
      obtain ⟨pos, hpos⟩ := exists_newestIn hlisted
      obtain ⟨hside, hsize, -, -⟩ := h pos (.inr ⟨hnone, hpos⟩)
      have hmem := mem_matching.mpr ⟨hpos.mem, hside, hsize⟩
      rw [hnone] at hmem
      cases hmem
    · intro h pos htaken
      rw [hnone] at h htaken
      rcases htaken with hpos | ⟨-, hpos⟩
      · cases hpos.mem
      · rcases h with hlisted | ⟨pos', hpos', -⟩
        · rw [hlisted] at hpos
          cases hpos.mem
        · cases hpos'.mem
  · obtain ⟨newest, hnewest⟩ := exists_newestIn hnone
    obtain ⟨hlisted, hside, hsize⟩ := mem_matching.mp hnewest.mem
    constructor
    · intro h
      obtain ⟨-, -, hopened, hfresh⟩ := h newest (.inl hnewest)
      exact .inr ⟨newest, hnewest, hopened, hfresh⟩
    · intro h pos htaken
      rcases h with hempty | ⟨pos', hpos', hopened, hfresh⟩
      · rw [hempty] at hlisted
        cases hlisted
      · rcases htaken with hpos | ⟨habsent, -⟩
        · cases hpos.unique hnewest
          cases hpos'.unique hnewest
          exact ⟨hside, hsize, hopened, hfresh⟩
        · exact absurd habsent hnone

/-- Where the answer holds what the order opened. -/
def answering (list : List GmoOpenPosition) : HttpOutcome (Option (List GmoOpenPosition)) :=
  .response ⟨200, "", some ⟨0, some list, none⟩⟩

/-- An order for 3000 that is filled in parts, the first of them of 1000, next to a position
of 1000 that was opened an hour before: that one is taken for the order's. -/
theorem exists_foreign_adopted :
    ¬ ∀ (tape : Nat → HttpOutcome (Option (List GmoOpenPosition))) (existed : List Nat)
      (execution : GmoExecution) (created : GmoOpenPosition),
      created ∈ listed tape → created.positionId ∉ existed →
      AdoptsOwn existed execution (findOpenPosition tape execution.side execution.size) := by
  intro h
  have hown := h (fun _ => answering [⟨7, "BUY", "1000", some 0⟩, ⟨9, "BUY", "3000", some 3600000⟩])
    [7] ⟨"BUY", "1000", some 150, none, some 3600000⟩ ⟨9, "BUY", "3000", some 3600000⟩
    (by simp [listed, send, rateLimitMaxRetries, withRateLimitRetry, request, handleResponse,
      answering]) (by decide)
  obtain ⟨-, -, -, hfresh⟩ := hown ⟨7, "BUY", "1000", some 0⟩ (by rfl)
  exact hfresh (by decide)

/-- `placeEntry` binds the position that `findOpenPosition` has found. -/
theorem placeEntry_adopts {command : EntryCommand} {tapes : OrderTapes} {result : EntryResult}
    (h : placeEntry command tapes = .ok result) :
    ∃ (execution : GmoExecution) (pos : GmoOpenPosition),
      findOpenPosition tapes.openPositions execution.side execution.size = .ok pos ∧
      result.positionId = .ofNat pos.positionId := by
  unfold placeEntry translate at h
  split at h
  · cases h
  · rename_i hok
    cases h
    split at hok
    · cases hok
    · unfold confirmEntry at hok
      split at hok
      · cases hok
      · rename_i execution _
        split at hok
        · cases hok
        · rename_i pos hpos
          split at hok
          · cases hok
          · cases hok
            exact ⟨execution, pos, hpos, rfl⟩

end GmoBrokerAdapter

end Luchida
