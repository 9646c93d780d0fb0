import Luchida.SyncSafety

/- Ghosts: positions that the broker has closed and whose row is still OPEN, because the update
   of the exit failed, its retries were lost with the process, or the position was closed by
   hand. A sync that succeeds closes each ghost that was there when it began, whatever else
   goes on beside it, and no row of a closed position is ever OPEN again (`ghosts_closed`).
   So the syncs that come every minute, and the one at startup, repair what the exits have
   left behind. -/
namespace Luchida

open Runs

/-- The sync still has the row of this id before it. -/
def SyncPhase.Awaits (id : PositionId) : SyncPhase → Prop
  | .read dbPositions => ∃ p ∈ dbPositions, p.id = id
  | .fetching dbPositions _ => ∃ p ∈ dbPositions, p.id = id
  | .marking next rest => id = next ∨ ∃ p ∈ rest, p.id = id
  | .settled => False

/-- The rows of the first tables are in the second ones, and none that was CLOSED is OPEN. -/
structure Database.Closes (db db' : Database) : Prop where
  rows : ∀ id, db.hasRow id = true → db'.hasRow id = true
  opened : ∀ row' ∈ db'.positions, row'.status = .opened → db.hasRow row'.id = true →
    ∃ row ∈ db.positions, row.id = row'.id ∧ row.status = .opened ∧ row.pair = row'.pair

namespace Database.Closes

theorem refl (db : Database) : db.Closes db :=
  ⟨fun _ h => h, fun row hrow hopen _ => ⟨row, hrow, rfl, hopen, rfl⟩⟩

/-- A function of the rows that opens none. -/
theorem updateRows (db : Database) (f : Position → Position) (hf : ∀ p, (f p).id = p.id)
    (hpair : ∀ p, (f p).pair = p.pair) (hopen : ∀ p, (f p).status = .opened → p.status = .opened) :
    db.Closes (db.updateRows f hf) := by
  refine ⟨fun id hrow => ?_, fun row' hrow' hstatus _ => ?_⟩
  · obtain ⟨p, hp, hid⟩ := List.any_eq_true.mp hrow
    refine List.any_eq_true.mpr ⟨f p, List.mem_map_of_mem hp, ?_⟩
    rw [hf]
    exact hid
  · obtain ⟨p, hp, rfl⟩ := List.mem_map.mp hrow'
    exact ⟨p, hp, (hf p).symm, hopen p hstatus, (hpair p).symm⟩

theorem update (db : Database) (closed : ClosedPosition) :
    db.Closes (db.update closed.position) := by
  refine updateRows db _ _ (fun p => ?_) fun p hopen => ?_
  · unfold Database.updateRow
    split <;> rfl
  · unfold Database.updateRow at hopen
    split at hopen
    · exact absurd (closed.closed.symm.trans hopen) (by decide)
    · exact hopen

theorem markClosed (db : Database) (id : PositionId) (now : Int) :
    db.Closes (db.markClosed id now) := by
  refine updateRows db _ _ (fun p => ?_) fun p hopen => ?_
  · unfold Database.closeRow
    split <;> rfl
  · unfold Database.closeRow at hopen
    split at hopen
    · cases hopen
    · exact hopen

/-- A row is inserted where the id has none. -/
theorem write (db : Database) (p : Position) (reply : DbReply) :
    db.Closes (db.write (db.insertPosition p) reply).2 := by
  have hinsert : ∀ db', db.insertPosition p = some db' → db.Closes db' := by
    intro db' h
    unfold Database.insertPosition at h
    split at h
    · cases h
    · rename_i hfree
      cases h
      refine ⟨fun id hrow => ?_, fun row' hrow' hopen hhas => ?_⟩
      · unfold Database.hasRow at hrow ⊢
        rw [List.any_append, hrow, Bool.true_or]
      · rcases List.mem_append.mp hrow' with hrow | hrow
        · exact ⟨row', hrow, rfl, hopen, rfl⟩
        · rw [List.mem_singleton.mp hrow] at hhas
          exact absurd hhas hfree
  cases hattempt : db.insertPosition p with
  | none => cases reply <;> exact refl db
  | some db' =>
    cases reply with
    | failed => exact refl db
    | ok => exact hinsert db' hattempt
    | lost => exact hinsert db' hattempt

end Database.Closes

/-- A row that `markClosed` has met is not OPEN. -/
theorem Database.markClosed_closed (db : Database) (id : PositionId) (now : Int) :
    ∀ row ∈ (db.markClosed id now).positions, row.status = .opened → row.id ≠ id := by
  intro row hrow hopen hid
  obtain ⟨p, -, rfl⟩ := List.mem_map.mp hrow
  rw [Database.closeRow_id] at hid
  unfold Database.closeRow at hopen
  split at hopen
  · cases hopen
  · rename_i hnot
    exact hnot ⟨hid, hopen⟩

namespace SyncSystem

variable {pair : CurrencyPair} {s₀ s s' : SyncSystem} {k : Nat}

/-- The `k`-th sync, which began in the state `s₀`, succeeds: its fetch answers no position
that was gone when it began, and its statements are carried out. -/
def Succeeds (s₀ : SyncSystem) (k : Nat) (_ : SyncSystem) : SyncLabel → Prop
  | .syncFetchEnds j brokerIds =>
    j = k → ∃ ids ∈ brokerIds, ∀ id ∈ ids, ¬ s₀.Gone id
  | .syncMarkSettles j _ reply => j = k → reply = .ok
  | _ => True

instance (id : PositionId) : Decidable (s.Gone id) := inferInstanceAs (Decidable (_ ∧ _))

instance (a : SyncLabel) : Decidable (Succeeds s₀ k s a) := by
  cases a <;> unfold Succeeds <;> infer_instance

/-- A ghost that was there when the sync began. -/
structure Ghost (pair : CurrencyPair) (s₀ : SyncSystem) (row : Position) : Prop where
  opened : row.status = .opened
  ofPair : row.pair = pair
  known : s₀.db.hasRow row.id = true
  gone : s₀.Gone row.id

/-- What every step keeps: the sync still has each of these ghosts before it. -/
structure Clearing (pair : CurrencyPair) (s₀ : SyncSystem) (k : Nat) (s : SyncSystem) :
    Prop where
  rows : ∀ id, s₀.db.hasRow id = true → s.db.hasRow id = true
  awaits : ∀ row ∈ s.db.positions, Ghost pair s₀ row →
    ∃ phase, s.syncs[k]? = some phase ∧ phase.Awaits row.id

/-- A step of another party. -/
theorem Clearing.congr (h : Clearing pair s₀ k s) (hdb : s.db.Closes s'.db)
    (hsyncs : ∀ phase, s.syncs[k]? = some phase → s'.syncs[k]? = some phase) :
    Clearing pair s₀ k s' := by
  refine ⟨fun id hrow => hdb.rows id (h.rows id hrow), fun row' hrow' hghost => ?_⟩
  obtain ⟨row, hrow, hid, hopen, hpair⟩ :=
    hdb.opened row' hrow' hghost.opened (h.rows _ hghost.known)
  obtain ⟨phase, hphase, hawaits⟩ := h.awaits row hrow
    ⟨hopen, hpair.trans hghost.ofPair, hid ▸ hghost.known, hid ▸ hghost.gone⟩
  exact ⟨phase, hsyncs phase hphase, hid ▸ hawaits⟩

/-- The sync goes on to what it has left. -/
theorem Clearing.markNext (hrows : ∀ id, s₀.db.hasRow id = true → s.db.hasRow id = true)
    (hk : k < s.syncs.length) {positions : List Position}
    (h : ∀ row ∈ s.db.positions, Ghost pair s₀ row → ∃ p ∈ positions, p.id = row.id) :
    Clearing pair s₀ k (s.markNext k positions) := by
  cases positions with
  | nil =>
    refine ⟨hrows, fun row hrow hghost => ?_⟩
    obtain ⟨p, hp, -⟩ := h row hrow hghost
    cases hp
  | cons p rest =>
    refine ⟨hrows, fun row hrow hghost => ⟨.marking p.id rest, ?_, ?_⟩⟩
    · simp [SyncSystem.markNext, hk]
    · obtain ⟨q, hq, hid⟩ := h row hrow hghost
      rcases List.mem_cons.mp hq with rfl | hq
      · exact .inl hid.symm
      · exact .inr ⟨q, hq, hid⟩

/-- A step that sets the phase of another sync. -/
theorem getElem?_set_other {phase : SyncPhase} {j : Nat} (hne : j ≠ k)
    (h : s.syncs[k]? = some phase) (next : SyncPhase) :
    (s.syncs.set j next)[k]? = some phase := by
  rw [List.getElem?_set_ne hne]
  exact h

theorem markNext_other {phase : SyncPhase} {j : Nat} (hne : j ≠ k) (positions : List Position)
    (h : s.syncs[k]? = some phase) : (s.markNext j positions).syncs[k]? = some phase := by
  cases positions with
  | nil => exact getElem?_set_other hne h _
  | cons p rest => exact getElem?_set_other hne h _

theorem markNext_db (j : Nat) (positions : List Position) :
    (s.markNext j positions).db = s.db := by
  cases positions <;> rfl

theorem Clearing.step {a : SyncLabel} (h : Clearing pair s₀ k s) (hok : Succeeds s₀ k s a)
    (hstep : s.step pair a = some s') : Clearing pair s₀ k s' := by
  cases a with
  | brokerOpens command result =>
    simp only [SyncSystem.step] at hstep
    split at hstep
    · cases hstep
    · cases hstep
      exact h.congr (.refl _) fun _ hphase => hphase
  | register i reply =>
    simp only [SyncSystem.step] at hstep
    split at hstep
    · cases hstep
      exact h.congr (.write _ _ reply) fun _ hphase => hphase
    · cases hstep
  | exitResolves p command result =>
    simp only [SyncSystem.step] at hstep
    split at hstep
    · obtain ⟨closed, -, rfl⟩ := Option.map_eq_some_iff.mp hstep
      exact h.congr (.refl _) fun _ hphase => hphase
    · cases hstep
  | update i reply =>
    simp only [SyncSystem.step] at hstep
    split at hstep
    · rename_i closed _
      cases hstep
      cases reply with
      | failed => exact h
      | ok => exact h.congr (.update _ closed) fun _ hphase => hphase
      | lost => exact h.congr (.update _ closed) fun _ hphase => hphase
    · cases hstep
  | brokerCloses id =>
    simp only [SyncSystem.step] at hstep
    split at hstep
    · cases hstep
      exact h.congr (.refl _) fun _ hphase => hphase
    · cases hstep
  | syncReads =>
    cases hstep
    refine h.congr (.refl _) fun phase hphase => ?_
    obtain ⟨hlt, -⟩ := List.getElem?_eq_some_iff.mp hphase
    rw [List.getElem?_append_left hlt]
    exact hphase
  | syncFetchBegins j =>
    simp only [SyncSystem.step] at hstep
    split at hstep
    · rename_i dbPositions hj
      cases hstep
      by_cases heq : j = k
      · subst heq
        refine ⟨h.rows, fun row hrow hghost => ?_⟩
        obtain ⟨phase, hphase, hawaits⟩ := h.awaits row hrow hghost
        obtain rfl := Option.some.inj (hj.symm.trans hphase)
        obtain ⟨hlt, -⟩ := List.getElem?_eq_some_iff.mp hj
        exact ⟨_, List.getElem?_set_self hlt, hawaits⟩
      · exact h.congr (.refl _) fun _ hphase => getElem?_set_other heq hphase _
    · cases hstep
  | syncFetchEnds j brokerIds =>
    simp only [SyncSystem.step] at hstep
    by_cases heq : j = k
    · subst heq
      obtain ⟨ids, hsome, hids⟩ := hok rfl
      obtain rfl : brokerIds = some ids := hsome
      split at hstep
      · rename_i hnone
        cases hnone
      · rename_i dbPositions openAtStart ids' hj hids'
        cases hids'
        cases hstep
        obtain ⟨hlt, -⟩ := List.getElem?_eq_some_iff.mp hj
        refine Clearing.markNext h.rows hlt fun row hrow hghost => ?_
        obtain ⟨phase, hphase, hawaits⟩ := h.awaits row hrow hghost
        obtain rfl := Option.some.inj (hj.symm.trans hphase)
        obtain ⟨p, hp, hid⟩ := hawaits
        -- the answer does not name a position that was gone
        refine ⟨p, List.mem_filter.mpr ⟨hp, ?_⟩, hid⟩
        rw [Bool.not_eq_true', List.any_eq_false]
        intro id hmem heq
        obtain rfl : id = p.id := by simpa using heq
        exact hids p.id hmem (hid ▸ hghost.gone)
      · cases hstep
    · split at hstep
      · cases hstep
        exact h.congr (.refl _) fun _ hphase => getElem?_set_other heq hphase _
      · cases hstep
        refine h.congr ?_ fun _ hphase => markNext_other heq _ hphase
        rw [markNext_db]
        exact .refl _
      · cases hstep
  | syncMarkSettles j now reply =>
    simp only [SyncSystem.step] at hstep
    split at hstep
    · rename_i id rest hj
      cases hstep
      have hcloses := Database.Closes.markClosed s.db id now
      by_cases heq : j = k
      · subst heq
        obtain rfl := hok rfl
        obtain ⟨hlt, -⟩ := List.getElem?_eq_some_iff.mp hj
        have hrows : ∀ id', s₀.db.hasRow id' = true →
            (s.db.markClosed id now).hasRow id' = true :=
          fun id' hrow => hcloses.rows id' (h.rows id' hrow)
        have hkept : Clearing pair s₀ j { s with db := s.db.markClosed id now } :=
          h.congr hcloses fun _ hphase => hphase
        refine Clearing.markNext (s := { s with db := s.db.markClosed id now }) hrows hlt
          fun row hrow hghost => ?_
        obtain ⟨phase, hphase, hawaits⟩ := hkept.awaits row hrow hghost
        obtain rfl := Option.some.inj (hj.symm.trans hphase)
        exact hawaits.resolve_left
          (s.db.markClosed_closed id now row hrow hghost.opened)
      · cases reply with
        | failed => exact h.congr (.refl _) fun _ hphase => getElem?_set_other heq hphase _
        | lost => exact h.congr hcloses fun _ hphase => getElem?_set_other heq hphase _
        | ok =>
          refine h.congr ?_ fun _ hphase => markNext_other heq _ hphase
          rw [markSettles, markNext_db]
          exact hcloses
    · cases hstep

/-- Where the sync begins. -/
theorem clearing_reads {s₁ : SyncSystem} (h : s₀.step pair .syncReads = some s₁) :
    Clearing pair s₀ s₀.syncs.length s₁ := by
  cases h
  refine ⟨fun _ hrow => hrow, fun row hrow hghost => ?_⟩
  refine ⟨_, List.getElem?_concat_length, row, ?_, rfl⟩
  refine List.mem_filter.mpr ⟨List.mem_filter.mpr ⟨hrow, ?_⟩, ?_⟩
  · exact decide_eq_true hghost.opened
  · exact decide_eq_true hghost.ofPair

/-- From any state: once a sync that succeeds has ended, no row that was there when it began
and whose position the broker had closed by then is OPEN, then or ever after. -/
theorem ghosts_closed (pair : CurrencyPair) (s₀ s₁ s : SyncSystem)
    (hreads : s₀.step pair .syncReads = some s₁)
    (hrun : Reaches (step pair) (Succeeds s₀ s₀.syncs.length) s₁ s)
    (hsettled : s.syncs[s₀.syncs.length]? = some .settled) :
    ∀ row ∈ s.db.positions, row.pair = pair → s₀.db.hasRow row.id = true → s₀.Gone row.id →
      row.status = .closed := by
  have hkept : Clearing pair s₀ s₀.syncs.length s :=
    hrun.invariant (clearing_reads hreads) fun _ _ _ h hok hstep => h.step hok hstep
  intro row hrow hpair hknown hgone
  cases hstatus : row.status with
  | closed => rfl
  | opened =>
    obtain ⟨phase, hphase, hawaits⟩ := hkept.awaits row hrow ⟨hstatus, hpair, hknown, hgone⟩
    obtain rfl := Option.some.inj (hsettled.symm.trans hphase)
    exact hawaits.elim

end SyncSystem

def SyncPhase.isSettled : SyncPhase → Bool
  | .settled => true
  | _ => false

theorem SyncPhase.of_isSettled {phase : SyncPhase} (h : phase.isSettled = true) :
    phase = .settled := by
  cases phase with
  | settled => rfl
  | read _ => cases h
  | fetching _ _ => cases h
  | marking _ _ => cases h

/-- A position is entered, and closed by hand. -/
def closedByHand : SyncSystem :=
  ((exec (SyncSystem.step .usdJpy) (fun _ _ => True) .fresh
    [.brokerOpens filledEntry ⟨.ofNat 1, quietPrice, 0⟩, .register 0 .ok,
      .brokerCloses (.ofNat 1)]).getD .fresh)

/-- A sync begins. -/
def closedByHandRead : SyncSystem :=
  (closedByHand.step .usdJpy .syncReads).getD .fresh

theorem ghosts_closed_by_hand :
    closedByHand.Gone (.ofNat 1) ∧ closedByHand.db.IsOpen (.ofNat 1) ∧
      ∃ s : SyncSystem, s.syncs[closedByHand.syncs.length]? = some .settled ∧
        ∀ row ∈ s.db.positions, row.pair = .usdJpy → closedByHand.db.hasRow row.id = true →
          closedByHand.Gone row.id → row.status = .closed := by
  have hreads : closedByHand.step .usdJpy .syncReads = some closedByHandRead := rfl
  have hrun : ∃ s, Reaches (SyncSystem.step .usdJpy)
      (SyncSystem.Succeeds closedByHand closedByHand.syncs.length) closedByHandRead s ∧
        (s.syncs[closedByHand.syncs.length]?).any SyncPhase.isSettled = true :=
    exists_reaches [.syncFetchBegins 0, .syncFetchEnds 0 (some []), .syncMarkSettles 0 6000 .ok]
      (by decide +kernel)
  obtain ⟨s, hreach, hany⟩ := hrun
  obtain ⟨phase, hphase, hend⟩ := (Option.any_eq_true _ _).mp hany
  have hsettled : s.syncs[closedByHand.syncs.length]? = some .settled := by
    rw [hphase, SyncPhase.of_isSettled hend]
  exact ⟨by decide +kernel, by decide +kernel, s, hsettled,
    SyncSystem.ghosts_closed .usdJpy closedByHand closedByHandRead s hreads hreach hsettled⟩

end Luchida
