import Luchida.ExitOnce

/- `ExitExecution.closePosition` and the `ExitCompensationQueue` behind it, on their own:
   any number of calls of `closePosition` in flight, whatever the broker and the database
   answer, and timer ticks that come while a pass of `drain` waits for the database.

   `ExitSystem` has one dispatch and takes the queue as it is; here the queue keeps the
   counts of its entries, the guard of `drain` is a flag of its own, and each call keeps a
   history of what happened to it. A label is one answer, or one call from outside. What is
   proved is the outcome of a call and what becomes of an entry, for every step of every
   run (`closePosition_outcome`). -/
namespace Luchida

open Runs

/-! ## The queue -/

/-- A `CompensationEntry` with its count of attempts. -/
structure PendingCompensation where
  entry : CompensationEntry
  attempts : Nat

/-- One call of `drainAll`. -/
structure DrainPass where
  /-- The keys of the copy of `entries` that it goes through. -/
  present : List PositionId
  /-- The keys whose write was sent. -/
  tried : List PositionId
  /-- The entry whose write has not settled. -/
  current : Option (PositionId × PendingCompensation)
  rest : List (PositionId × PendingCompensation)

/-- The next round of the loop: the write of the next entry is sent. -/
def DrainPass.next (present tried : List PositionId) :
    List (PositionId × PendingCompensation) → DrainPass
  | [] => ⟨present, tried, none, []⟩
  | e :: rest => ⟨present, tried ++ [e.1], some e, rest⟩

inductive CompensationLog where
  | enqueued (id : PositionId)
  /-- The write of the entry resolved. -/
  | recovered (id : PositionId) (attempts : Nat)
  /-- The write rejected; from `escalateAfterAttempts` on this is an error. -/
  | retryFailed (id : PositionId) (attempts : Nat) (isError : Bool)

/-- `ExitCompensationQueue`. -/
structure ExitCompensationQueue where
  escalateAfterAttempts : Nat
  entries : List (PositionId × PendingCompensation)
  draining : Bool
  /-- The calls of `drainAll` that are not over. -/
  passes : List DrainPass
  /-- Those that are. -/
  finished : List DrainPass
  /-- The newest line first. -/
  log : List CompensationLog

namespace ExitCompensationQueue

def new (escalateAfterAttempts : Nat) : ExitCompensationQueue where
  escalateAfterAttempts := escalateAfterAttempts
  entries := []
  draining := false
  passes := []
  finished := []
  log := []

def has (q : ExitCompensationQueue) (id : PositionId) : Bool := OrderedMap.has q.entries id

/-- `enqueueUpdate` and `enqueueMarkClosed`: an entry that is there stays as it is. -/
def enqueue (q : ExitCompensationQueue) (entry : CompensationEntry) : ExitCompensationQueue :=
  if q.has entry.key = true then q
  else { q with
    entries := OrderedMap.set q.entries entry.key ⟨entry, 0⟩
    log := .enqueued entry.key :: q.log }

/-- `drain`. While a pass is under way the call waits for it and does nothing else. -/
def drain (q : ExitCompensationQueue) : ExitCompensationQueue :=
  if q.draining = true then q
  else if q.entries.isEmpty = true then q
  else { q with
    draining := true
    passes := q.passes ++ [DrainPass.next (q.entries.map (·.1)) [] q.entries] }

/-- The write of a pass settles, and the pass goes on. -/
def settle (q : ExitCompensationQueue) (n : Nat) (resolves : Bool) :
    Option ExitCompensationQueue :=
  match q.passes[n]? with
  | some ⟨present, tried, some (key, pending), rest⟩ =>
    let passes := q.passes.set n (DrainPass.next present tried rest)
    let attempts := pending.attempts + 1
    if resolves then some { q with
      entries := OrderedMap.delete q.entries key
      passes := passes
      log := .recovered key attempts :: q.log }
    else some { q with
      entries := OrderedMap.mapValues
        (fun k p => if k = key then { p with attempts := p.attempts + 1 } else p) q.entries
      passes := passes
      log := .retryFailed key attempts (q.escalateAfterAttempts ≤ attempts) :: q.log }
  | _ => none

/-- `drainAll` is over, and `drain` takes its flag back. -/
def drained (q : ExitCompensationQueue) (n : Nat) : Option ExitCompensationQueue :=
  match q.passes[n]? with
  | some ⟨present, tried, none, rest⟩ => some { q with
      draining := false
      passes := q.passes.eraseIdx n
      finished := q.finished ++ [⟨present, tried, none, rest⟩] }
  | _ => none

end ExitCompensationQueue

/-! ### What the queue keeps -/

/-- An entry was enqueued and its write has not resolved since. -/
def CompensationLog.pending (id : PositionId) : List CompensationLog → Bool
  | [] => false
  | .enqueued id' :: rest => if id' = id then true else pending id rest
  | .recovered id' _ :: rest => if id' = id then false else pending id rest
  | .retryFailed .. :: rest => pending id rest

/-- The entry is in the queue, whatever its count of attempts. -/
def Holds (entries : List (PositionId × PendingCompensation)) (id : PositionId)
    (entry : CompensationEntry) : Prop :=
  ∃ p, OrderedMap.get entries id = some p ∧ p.entry = entry

/-- A pass has tried what it is past, and all that it has to do is still in the queue. -/
structure DrainPass.Sound (entries : List (PositionId × PendingCompensation))
    (pass : DrainPass) : Prop where
  present : pass.present = pass.tried ++ pass.rest.map (·.1)
  ended : pass.current = none → pass.rest = []
  nodup : ((pass.current.toList ++ pass.rest).map (·.1)).Nodup
  holds : ∀ e ∈ pass.current.toList ++ pass.rest, Holds entries e.1 e.2.entry

structure ExitCompensationQueue.Sound (q : ExitCompensationQueue) : Prop where
  nodup : (q.entries.map (·.1)).Nodup
  passes : q.draining = false ∧ q.passes = [] ∨
    q.draining = true ∧ ∃ pass, q.passes = [pass] ∧ pass.Sound q.entries
  finished : ∀ pass ∈ q.finished, pass.tried = pass.present
  logged : ∀ id, q.has id = CompensationLog.pending id q.log

theorem DrainPass.Sound.mono {entries entries' : List (PositionId × PendingCompensation)}
    {pass : DrainPass} (h : pass.Sound entries)
    (hkeep : ∀ id entry, Holds entries id entry → Holds entries' id entry) :
    pass.Sound entries' :=
  ⟨h.present, h.ended, h.nodup, fun e he => hkeep _ _ (h.holds e he)⟩

/-- The rest of a pass goes on by itself. -/
theorem DrainPass.Sound.next {entries : List (PositionId × PendingCompensation)}
    {present tried : List PositionId} {rest : List (PositionId × PendingCompensation)}
    (hpresent : present = tried ++ rest.map (·.1)) (hnodup : (rest.map (·.1)).Nodup)
    (hholds : ∀ e ∈ rest, Holds entries e.1 e.2.entry) :
    (DrainPass.next present tried rest).Sound entries := by
  cases rest with
  | nil => exact ⟨hpresent, fun _ => rfl, .nil, by simp [DrainPass.next]⟩
  | cons e rest =>
    refine ⟨?_, fun h => (by cases h), hnodup, hholds⟩
    simpa [DrainPass.next] using hpresent

namespace ExitCompensationQueue

variable {q q' : ExitCompensationQueue} {id : PositionId} {entry : CompensationEntry}

theorem sound_new (escalateAfterAttempts : Nat) : (new escalateAfterAttempts).Sound where
  nodup := .nil
  passes := .inl ⟨rfl, rfl⟩
  finished pass h := by cases h
  logged id := rfl

/-- What `enqueue` leaves of the entries. -/
theorem holds_enqueue (h : Holds q.entries id entry) (new : CompensationEntry) :
    Holds (q.enqueue new).entries id entry := by
  unfold enqueue
  split
  · exact h
  · rename_i hnew
    obtain ⟨p, hget, hentry⟩ := h
    have hne : id ≠ new.key := by
      rintro rfl
      exact hnew (by rw [has, OrderedMap.has, hget]; rfl)
    exact ⟨p, (OrderedMap.get_set_of_ne _ _ hne).trans hget, hentry⟩

/-- A new entry goes to the end of the queue. -/
theorem enqueue_eq (hnew : q.has entry.key = false) : q.enqueue entry = { q with
    entries := q.entries ++ [(entry.key, ⟨entry, 0⟩)]
    log := .enqueued entry.key :: q.log } := by
  have hset : OrderedMap.set q.entries entry.key ⟨entry, 0⟩ =
      q.entries ++ [(entry.key, ⟨entry, 0⟩)] :=
    if_neg (by rw [← has, hnew]; exact Bool.false_ne_true)
  rw [enqueue, if_neg (by rw [hnew]; exact Bool.false_ne_true), hset]

theorem enqueue_of_has (hold : q.has entry.key = true) : q.enqueue entry = q := if_pos hold

theorem has_enqueue (entry : CompensationEntry) (id : PositionId) :
    (q.enqueue entry).has id = true ↔ q.has id = true ∨ entry.key = id := by
  cases hhas : q.has entry.key with
  | true =>
    rw [enqueue_of_has hhas]
    constructor
    · exact .inl
    · rintro (h | rfl)
      · exact h
      · exact hhas
  | false =>
    rw [enqueue_eq hhas, has, OrderedMap.has_iff, has, OrderedMap.has_iff]
    simp [eq_comm]

theorem Sound.enqueue (h : q.Sound) (entry : CompensationEntry) : (q.enqueue entry).Sound := by
  cases hhas : q.has entry.key with
  | true =>
    rw [enqueue_of_has hhas]
    exact h
  | false =>
    have hholds : ∀ id e, Holds q.entries id e → Holds (q.enqueue entry).entries id e :=
      fun _ _ he => holds_enqueue he entry
    have hhas' := has_enqueue (q := q) entry
    rw [enqueue_eq hhas] at hholds hhas' ⊢
    have hfresh : entry.key ∉ q.entries.map (·.1) := by
      rw [← OrderedMap.has_iff, ← has, hhas]
      exact Bool.false_ne_true
    refine ⟨?_, ?_, h.finished, fun id => ?_⟩
    · rw [List.map_append]
      exact List.nodup_append'.mpr ⟨h.nodup, List.nodup_singleton _,
        List.disjoint_singleton.mpr hfresh⟩
    · exact h.passes.imp_right fun ⟨hdraining, pass, hpasses, hpass⟩ =>
        ⟨hdraining, pass, hpasses, hpass.mono hholds⟩
    · rw [Bool.eq_iff_iff, hhas', h.logged id, CompensationLog.pending]
      split
      · rename_i heq
        simp [heq]
      · rename_i hne
        simp [hne]

theorem Sound.drain (h : q.Sound) : q.drain.Sound := by
  unfold ExitCompensationQueue.drain
  split
  · exact h
  split
  · exact h
  rename_i hidle _
  obtain ⟨-, hpasses⟩ := h.passes.resolve_right fun hbusy => hidle hbusy.1
  refine ⟨h.nodup, .inr ⟨rfl, _, by rw [hpasses]; rfl, ?_⟩, h.finished, h.logged⟩
  refine .next rfl h.nodup fun e he => ?_
  obtain ⟨p, hget, hmem⟩ := OrderedMap.exists_get_of_mem he
  exact ⟨p, hget, congrArg (·.2.entry) (List.inj_on_of_nodup_map h.nodup hmem he rfl)⟩

theorem entries_drain (q : ExitCompensationQueue) : q.drain.entries = q.entries := by
  unfold drain
  split
  · rfl
  split <;> rfl

/-- The pass whose write settles, and what that does. -/
theorem settle_cases (h : q.Sound) {n : Nat} {resolves : Bool}
    (hs : q.settle n resolves = some q') :
    ∃ present tried key pending rest,
      DrainPass.Sound q.entries ⟨present, tried, some (key, pending), rest⟩ ∧
      q.passes[n]? = some ⟨present, tried, some (key, pending), rest⟩ ∧ q.draining = true ∧
      q'.draining = true ∧ q'.passes = [DrainPass.next present tried rest] ∧
      q'.finished = q.finished ∧
      (resolves = true ∧ q'.entries = OrderedMap.delete q.entries key ∧
        q'.log = .recovered key (pending.attempts + 1) :: q.log ∨
      resolves = false ∧ q'.entries = OrderedMap.mapValues
          (fun k p => if k = key then { p with attempts := p.attempts + 1 } else p) q.entries ∧
        ∃ isError, q'.log = .retryFailed key (pending.attempts + 1) isError :: q.log) := by
  unfold settle at hs
  split at hs
  · rename_i present tried key pending rest hn
    rcases h.passes with ⟨-, hnone⟩ | ⟨hdraining, pass, hpasses, hpass⟩
    · rw [hnone] at hn
      cases hn
    · obtain ⟨rfl, rfl⟩ : n = 0 ∧ pass = ⟨present, tried, some (key, pending), rest⟩ := by
        rw [hpasses, List.getElem?_singleton] at hn
        split at hn
        · rename_i hzero
          exact ⟨hzero, Option.some.inj hn⟩
        · cases hn
      refine ⟨present, tried, key, pending, rest, hpass, hn, hdraining, ?_⟩
      dsimp only at hs
      split at hs
      · rename_i hresolves
        cases hs
        exact ⟨hdraining, by rw [hpasses]; rfl, rfl, .inl ⟨hresolves, rfl, rfl⟩⟩
      · rename_i hrejects
        cases hs
        exact ⟨hdraining, by rw [hpasses]; rfl, rfl,
          .inr ⟨by simpa using hrejects, rfl, _, rfl⟩⟩
  · cases hs

theorem has_settle (h : q.Sound) {n : Nat} {resolves : Bool}
    (hs : q.settle n resolves = some q') {id : PositionId} (hhas : q'.has id = true) :
    q.has id = true := by
  obtain ⟨_, _, key, _, _, -, -, -, -, -, -, hwrite⟩ := settle_cases h hs
  rcases hwrite with ⟨-, hentries, -⟩ | ⟨-, hentries, -⟩
  · rw [has, hentries, OrderedMap.has_delete] at hhas
    exact hhas.2
  · rw [has, hentries, OrderedMap.has, OrderedMap.get_mapValues, Option.isSome_map] at hhas
    exact hhas

/-- A write that settles takes nothing out of the queue but the entry it was for. -/
theorem holds_settle (h : q.Sound) {n : Nat} {resolves : Bool}
    (hs : q.settle n resolves = some q') {id : PositionId} {entry : CompensationEntry}
    (hheld : Holds q.entries id entry) : Holds q'.entries id entry ∨
      resolves = true ∧
        ∃ pass ∈ q.passes[n]?, ∃ p ∈ pass.current, p.1 = id ∧ p.2.entry = entry := by
  obtain ⟨present, tried, key, pending, rest, hpass, hn, -, -, -, -, hwrite⟩ := settle_cases h hs
  obtain ⟨p, hget, hentry⟩ := hheld
  rcases hwrite with ⟨hresolves, hentries, -⟩ | ⟨-, hentries, -⟩
  · by_cases heq : id = key
    · subst heq
      obtain ⟨p', hget', hentry'⟩ := hpass.holds (id, pending) (by simp)
      obtain rfl : p = p' := Option.some.inj (hget.symm.trans hget')
      exact .inr ⟨hresolves, _, hn, _, rfl, rfl, hentry'.symm.trans hentry⟩
    · exact .inl ⟨p, by rw [hentries, OrderedMap.get_delete_of_ne _ heq, hget], hentry⟩
  · refine .inl ⟨_, by rw [hentries, OrderedMap.get_mapValues, hget]; rfl, ?_⟩
    split
    · exact hentry
    · exact hentry

theorem Sound.settle (h : q.Sound) {n : Nat} {resolves : Bool}
    (hs : q.settle n resolves = some q') : q'.Sound := by
  obtain ⟨present, tried, key, pending, rest, hpass, hn, -, hdraining, hpasses, hfinished,
      hwrite⟩ :=
    settle_cases h hs
  have hkeys : ((key :: rest.map (·.1))).Nodup := hpass.nodup
  obtain ⟨hkey, hrest⟩ := List.nodup_cons.mp hkeys
  have hpassed : ∀ entries', (∀ e ∈ rest, Holds q.entries e.1 e.2.entry →
      Holds entries' e.1 e.2.entry) → (DrainPass.next present tried rest).Sound entries' :=
    fun entries' hkeep => .next hpass.present hrest fun e he =>
      hkeep e he (hpass.holds e (List.mem_cons_of_mem _ he))
  rcases hwrite with ⟨-, hentries, hlog⟩ | ⟨-, hentries, isError, hlog⟩
  · refine ⟨?_, .inr ⟨hdraining, _, hpasses, hpassed _ fun e he hheld => ?_⟩, ?_, fun id => ?_⟩
    · rw [hentries]
      exact h.nodup.sublist (List.filter_sublist.map _)
    · obtain ⟨p, hget, hentry⟩ := hheld
      have hne : e.1 ≠ key := fun heq => hkey (List.mem_map.mpr ⟨e, he, heq⟩)
      exact ⟨p, by rw [hentries, OrderedMap.get_delete_of_ne _ hne, hget], hentry⟩
    · rw [hfinished]
      exact h.finished
    · rw [Bool.eq_iff_iff, has, hentries, OrderedMap.has_delete, ← has, h.logged id, hlog,
        CompensationLog.pending]
      split
      · rename_i heq
        simp [heq]
      · rename_i hne
        simp [Ne.symm hne]
  · have hget : ∀ id, OrderedMap.get q'.entries id = (OrderedMap.get q.entries id).map
        (fun p => if id = key then { p with attempts := p.attempts + 1 } else p) := by
      intro id
      rw [hentries, OrderedMap.get_mapValues]
    refine ⟨?_, .inr ⟨hdraining, _, hpasses, hpassed _ fun e he hheld => ?_⟩, ?_, fun id => ?_⟩
    · rw [hentries, OrderedMap.mapValues, List.map_map]
      exact h.nodup
    · obtain ⟨p, hp, hentry⟩ := hheld
      refine ⟨_, by rw [hget, hp]; rfl, ?_⟩
      split <;> exact hentry
    · rw [hfinished]
      exact h.finished
    · rw [hlog, CompensationLog.pending, ← h.logged id, has, OrderedMap.has, hget,
        Option.isSome_map]
      rfl

/-- A pass that is over. -/
theorem drained_cases (h : q.Sound) {n : Nat} (hs : q.drained n = some q') :
    ∃ pass, pass.Sound q.entries ∧ pass.current = none ∧
      q' = { q with draining := false, passes := [], finished := q.finished ++ [pass] } := by
  unfold drained at hs
  split at hs
  · rename_i present tried rest hn
    cases hs
    rcases h.passes with ⟨-, hnone⟩ | ⟨-, pass, hpasses, hpass⟩
    · rw [hnone] at hn
      cases hn
    · obtain ⟨rfl, rfl⟩ : n = 0 ∧ pass = ⟨present, tried, none, rest⟩ := by
        rw [hpasses, List.getElem?_singleton] at hn
        split at hn
        · rename_i hzero
          exact ⟨hzero, Option.some.inj hn⟩
        · cases hn
      exact ⟨_, hpass, rfl, by rw [hpasses]; rfl⟩
  · cases hs

theorem Sound.drained (h : q.Sound) {n : Nat} (hs : q.drained n = some q') : q'.Sound := by
  obtain ⟨pass, hpass, hover, rfl⟩ := drained_cases h hs
  refine ⟨h.nodup, .inl ⟨rfl, rfl⟩, fun p hp => ?_, h.logged⟩
  rcases List.mem_append.mp hp with hp | hp
  · exact h.finished p hp
  · obtain rfl := List.mem_singleton.mp hp
    rw [hpass.present, hpass.ended hover]
    simp

end ExitCompensationQueue

/-! ## closePosition -/

/-- How far a call of `closePosition` has come. -/
inductive ClosePhase where
  | finding
  | placing (position : Position)
  | updating (closed : ClosedPosition)
  | resolved
  | rejected

/-- What happened to a call. -/
inductive CloseEvent where
  | placeExitResolved
  | closeThrew
  | updateResolved
  | updateFailed
  deriving DecidableEq

structure CloseCall where
  command : ExitCommand
  extremes : Option ExtremesSnapshot
  phase : ClosePhase
  /-- There was no entry for the position and there is no other call in flight for it. -/
  alone : Bool
  history : List CloseEvent

def CloseCall.inFlight (call : CloseCall) : Bool :=
  match call.phase with
  | .resolved => false
  | .rejected => false
  | _ => true

/-- The calls and the queue. -/
structure ExitCompensation where
  calls : List CloseCall
  queue : ExitCompensationQueue

inductive CompensationLabel where
  | closePosition (command : ExitCommand) (extremes : Option ExtremesSnapshot)
  /-- `findById` resolves with a row, or rejects. -/
  | findById (i : Nat) (row : Option Position)
  /-- `placeExit` resolves with a result, or rejects. -/
  | placeExit (i : Nat) (result : Option ExitResult)
  | update (i : Nat) (resolves : Bool)
  | drain
  | retry (n : Nat) (resolves : Bool)
  | drained (n : Nat)

namespace ExitCompensation

def new (escalateAfterAttempts : Nat) : ExitCompensation where
  calls := []
  queue := .new escalateAfterAttempts

/-- A call of the position is in flight. -/
def busy (s : ExitCompensation) (id : PositionId) : Bool :=
  s.calls.any (fun c => c.inFlight && c.command.positionId = id)

/-- Another call of the position begins. -/
def joined (id : PositionId) (call : CloseCall) : CloseCall :=
  if call.inFlight = true ∧ call.command.positionId = id then { call with alone := false } else call

def goto (s : ExitCompensation) (i : Nat) (call : CloseCall) : ExitCompensation :=
  { s with calls := s.calls.set i call }

/-- `placeExit` has resolved. -/
def close (s : ExitCompensation) (i : Nat) (call : CloseCall) (position : Position)
    (result : ExitResult) : ExitCompensation :=
  match ClosedPosition.of? position call.command result with
  | none => goto { s with queue := s.queue.enqueue (.markClosed position.id) } i
      { call with
        phase := .resolved
        history := call.history ++ [.placeExitResolved, .closeThrew] }
  | some closed => s.goto i
      { call with phase := .updating closed, history := call.history ++ [.placeExitResolved] }

/-- One answer to a call. A row that `findById` resolves with is that of the id. -/
def answer (s : ExitCompensation) (i : Nat) (call : CloseCall) :
    ClosePhase → CompensationLabel → Option ExitCompensation
  | .finding, .findById _ none => some (s.goto i { call with phase := .rejected })
  | .finding, .findById _ (some row) =>
    if row.id = call.command.positionId then
      let position := match call.extremes with
        | none => row
        | some extremes => row.applyExtremes extremes.highest extremes.lowest
      some (s.goto i { call with phase := .placing position })
    else none
  | .placing _, .placeExit _ none => some (s.goto i { call with phase := .rejected })
  | .placing position, .placeExit _ (some result) => some (s.close i call position result)
  | .updating _, .update _ true => some (s.goto i
      { call with phase := .resolved, history := call.history ++ [.updateResolved] })
  | .updating closed, .update _ false =>
    some (goto { s with queue := s.queue.enqueue (.update closed) } i
      { call with phase := .resolved, history := call.history ++ [.updateFailed] })
  | _, _ => none

def step (s : ExitCompensation) : CompensationLabel → Option ExitCompensation
  | .closePosition command extremes =>
    let id := command.positionId
    let alone := !s.queue.has id && !s.busy id
    some { s with calls := s.calls.map (joined id) ++ [⟨command, extremes, .finding, alone, []⟩] }
  | .findById i row => s.calls[i]?.bind fun call => s.answer i call call.phase (.findById i row)
  | .placeExit i result =>
    s.calls[i]?.bind fun call => s.answer i call call.phase (.placeExit i result)
  | .update i resolves =>
    s.calls[i]?.bind fun call => s.answer i call call.phase (.update i resolves)
  | .drain => some { s with queue := s.queue.drain }
  | .retry n resolves => (s.queue.settle n resolves).map fun q => { s with queue := q }
  | .drained n => (s.queue.drained n).map fun q => { s with queue := q }

end ExitCompensation

/-! ## The outcome of a call -/

/-- What has happened to a call, by how far it has come. -/
def CloseCall.Sound (call : CloseCall) : Prop :=
  match call.phase with
  | .finding => call.history = []
  | .placing position => call.history = [] ∧ position.id = call.command.positionId
  | .updating closed =>
    call.history = [.placeExitResolved] ∧ closed.position.id = call.command.positionId
  | .resolved => call.history = [.placeExitResolved, .updateResolved] ∨
    call.history = [.placeExitResolved, .closeThrew] ∨
    call.history = [.placeExitResolved, .updateFailed]
  | .rejected => call.history = []

/-- The entry says what went wrong. -/
structure CloseCall.Leaves (call : CloseCall) (entry : CompensationEntry) : Prop where
  key : entry.key = call.command.positionId
  markClosed_iff : entry = .markClosed call.command.positionId ↔ .closeThrew ∈ call.history
  update_iff : (∃ closed, entry = .update closed) ↔ .updateFailed ∈ call.history

namespace ExitCompensation

structure Sound (s : ExitCompensation) : Prop where
  queue : s.queue.Sound
  calls : ∀ (i : Nat) (c : CloseCall), s.calls[i]? = some c → c.Sound
  alone : ∀ (i : Nat) (c : CloseCall), s.calls[i]? = some c → c.alone = true → c.inFlight = true →
    s.queue.has c.command.positionId = false ∧ ∀ (j : Nat) (c' : CloseCall), s.calls[j]? = some c' →
      c'.inFlight = true → c'.command.positionId = c.command.positionId → j = i

/-- What one answer does to the call it is for. -/
structure Answered (s : ExitCompensation) (i : Nat) (call call' : CloseCall)
    (s' : ExitCompensation) : Prop where
  calls : s'.calls = s.calls.set i call'
  command : call'.command = call.command
  alone : call'.alone = call.alone
  inFlight : call.inFlight = true
  sound : call'.Sound
  queue : s'.queue = s.queue ∧ (call'.phase = .resolved → .updateResolved ∈ call'.history) ∨
    call'.phase = .resolved ∧ ∃ entry, s'.queue = s.queue.enqueue entry ∧ call'.Leaves entry

theorem answer_ok {s s' : ExitCompensation} {i : Nat} {call : CloseCall} {label : CompensationLabel}
    (hcall : call.Sound) (hs : s.answer i call call.phase label = some s') :
    ∃ call', Answered s i call call' s' := by
  unfold CloseCall.Sound at hcall
  unfold answer at hs
  split at hs
  · rename_i hphase
    rw [hphase] at hcall
    cases hs
    exact ⟨_, rfl, rfl, rfl, by rw [CloseCall.inFlight, hphase], hcall, .inl ⟨rfl, by simp⟩⟩
  · rename_i row hphase
    rw [hphase] at hcall
    split at hs
    · rename_i hid
      cases hs
      refine ⟨_, rfl, rfl, rfl, by rw [CloseCall.inFlight, hphase], ⟨hcall, ?_⟩,
        .inl ⟨rfl, by simp⟩⟩
      dsimp only
      split
      · exact hid
      · rw [Position.applyExtremes_id, hid]
    · cases hs
  · rename_i position hphase
    rw [hphase] at hcall
    cases hs
    exact ⟨_, rfl, rfl, rfl, by rw [CloseCall.inFlight, hphase], hcall.1, .inl ⟨rfl, by simp⟩⟩
  · rename_i position result hphase
    rw [hphase] at hcall
    obtain ⟨hhistory, hid⟩ := hcall
    cases hs
    unfold close
    split
    · refine ⟨_, rfl, rfl, rfl, by rw [CloseCall.inFlight, hphase], ?_, .inr ⟨rfl, _, rfl, ?_⟩⟩
      · simp [CloseCall.Sound, hhistory]
      · exact ⟨hid, by simp [hid], by simp [hhistory]⟩
    · rename_i closed hclosed
      refine ⟨_, rfl, rfl, rfl, by rw [CloseCall.inFlight, hphase], ?_, .inl ⟨rfl, by simp⟩⟩
      exact ⟨by simp [hhistory], (ClosedPosition.of?_id hclosed).trans hid⟩
  · rename_i closed hphase
    rw [hphase] at hcall
    cases hs
    refine ⟨_, rfl, rfl, rfl, by rw [CloseCall.inFlight, hphase], ?_, .inl ⟨rfl, by simp⟩⟩
    simp [CloseCall.Sound, hcall.1]
  · rename_i closed hphase
    rw [hphase] at hcall
    obtain ⟨hhistory, hid⟩ := hcall
    cases hs
    refine ⟨_, rfl, rfl, rfl, by rw [CloseCall.inFlight, hphase], ?_, .inr ⟨rfl, _, rfl, ?_⟩⟩
    · simp [CloseCall.Sound, hhistory]
    · exact ⟨hid, by simp [hhistory], by simp⟩
  · cases hs

/-- One step: a call begins, one is answered, or the queue goes on. -/
inductive Stepped (s : ExitCompensation) : CompensationLabel → ExitCompensation → Prop
  | began {label : CompensationLabel} {command : ExitCommand}
      {extremes : Option ExtremesSnapshot} :
      Stepped s label { s with calls := s.calls.map (joined command.positionId) ++
        [⟨command, extremes, .finding,
          !s.queue.has command.positionId && !s.busy command.positionId, []⟩] }
  | answered {label : CompensationLabel} {i : Nat} {call call' : CloseCall}
      {s' : ExitCompensation} : s.calls[i]? = some call → Answered s i call call' s' →
      Stepped s label s'
  | drain : Stepped s .drain { s with queue := s.queue.drain }
  | retry {n : Nat} {resolves : Bool} {q : ExitCompensationQueue} :
      s.queue.settle n resolves = some q → Stepped s (.retry n resolves) { s with queue := q }
  | drained {n : Nat} {q : ExitCompensationQueue} : s.queue.drained n = some q →
      Stepped s (.drained n) { s with queue := q }

theorem step_cases {s s' : ExitCompensation} (h : s.Sound) {label : CompensationLabel}
    (hs : s.step label = some s') : Stepped s label s' := by
  have hanswer : ∀ i label', (s.calls[i]?.bind fun call => s.answer i call call.phase label') =
      some s' → Stepped s label s' := by
    intro i label' hs
    obtain ⟨call, hcall, hs⟩ := Option.bind_eq_some_iff.mp hs
    obtain ⟨call', hanswered⟩ := answer_ok (h.calls i call hcall) hs
    exact .answered hcall hanswered
  cases label with
  | closePosition command extremes =>
    cases hs
    exact .began
  | findById i row => exact hanswer i _ hs
  | placeExit i result => exact hanswer i _ hs
  | update i resolves => exact hanswer i _ hs
  | drain =>
    cases hs
    exact .drain
  | retry n resolves =>
    obtain ⟨q, hq, rfl⟩ := Option.map_eq_some_iff.mp hs
    exact .retry hq
  | drained n =>
    obtain ⟨q, hq, rfl⟩ := Option.map_eq_some_iff.mp hs
    exact .drained hq

@[simp] theorem joined_command (id : PositionId) (call : CloseCall) :
    (joined id call).command = call.command := by
  unfold joined
  split <;> rfl

@[simp] theorem joined_phase (id : PositionId) (call : CloseCall) :
    (joined id call).phase = call.phase := by
  unfold joined
  split <;> rfl

@[simp] theorem joined_history (id : PositionId) (call : CloseCall) :
    (joined id call).history = call.history := by
  unfold joined
  split <;> rfl

@[simp] theorem joined_inFlight (id : PositionId) (call : CloseCall) :
    (joined id call).inFlight = call.inFlight := by
  simp [CloseCall.inFlight]

/-- A call that is still alone is of another position. -/
theorem of_joined_alone {id : PositionId} {call : CloseCall} (h : (joined id call).alone = true)
    (hflight : call.inFlight = true) : call.alone = true ∧ call.command.positionId ≠ id := by
  unfold joined at h
  split at h
  · cases h
  · rename_i hnot
    exact ⟨h, fun hid => hnot ⟨hflight, hid⟩⟩

/-- After a call has begun, each is one that was there or the new one. -/
theorem joined_cases {calls : List CloseCall} {id : PositionId} {new c : CloseCall} {i : Nat}
    (hc : (calls.map (joined id) ++ [new])[i]? = some c) :
    (∃ c₀, calls[i]? = some c₀ ∧ c = joined id c₀) ∨ i = calls.length ∧ c = new := by
  rcases lt_or_ge i calls.length with hlt | hge
  · rw [List.getElem?_append_left (by simpa using hlt), List.getElem?_map] at hc
    obtain ⟨c₀, hc₀, rfl⟩ := Option.map_eq_some_iff.mp hc
    exact .inl ⟨c₀, hc₀, rfl⟩
  · rw [List.getElem?_append_right (by simpa using hge), List.length_map,
      List.getElem?_singleton] at hc
    split at hc
    · cases hc
      exact .inr ⟨by omega, rfl⟩
    · cases hc

/-- After an answer, each call but the one it was for is as it was. -/
theorem Answered.calls_cases {s s' : ExitCompensation} {i j : Nat} {call call' c : CloseCall}
    (ha : Answered s i call call' s') (hc : s'.calls[j]? = some c) :
    j = i ∧ c = call' ∨ j ≠ i ∧ s.calls[j]? = some c := by
  rw [ha.calls, List.getElem?_set] at hc
  split at hc
  · rename_i heq
    split at hc
    · cases hc
      exact .inl ⟨heq.symm, rfl⟩
    · cases hc
  · rename_i hne
    exact .inr ⟨fun heq => hne heq.symm, hc⟩

namespace Sound

variable {s s' : ExitCompensation}

theorem new (escalateAfterAttempts : Nat) : (ExitCompensation.new escalateAfterAttempts).Sound where
  queue := ExitCompensationQueue.sound_new _
  calls i c hc := by simp [ExitCompensation.new] at hc
  alone i c hc := by simp [ExitCompensation.new] at hc

/-- A step of the queue that takes in no position. -/
theorem with_queue (h : s.Sound) {q : ExitCompensationQueue} (hq : q.Sound)
    (hhas : ∀ id, q.has id = true → s.queue.has id = true) :
    Sound { s with queue := q } where
  queue := hq
  calls := h.calls
  alone i c hc halone hflight := by
    obtain ⟨hfree, honly⟩ := h.alone i c hc halone hflight
    refine ⟨?_, honly⟩
    rw [← Bool.not_eq_true] at hfree ⊢
    exact mt (hhas _) hfree

theorem began (h : s.Sound) (command : ExitCommand) (extremes : Option ExtremesSnapshot) :
    Sound { s with calls := s.calls.map (joined command.positionId) ++
      [⟨command, extremes, .finding,
        !s.queue.has command.positionId && !s.busy command.positionId, []⟩] } := by
  refine ⟨h.queue, fun i c hc => ?_, fun i c hc halone hflight => ?_⟩
  · rcases joined_cases hc with ⟨c₀, hc₀, rfl⟩ | ⟨-, rfl⟩
    · simpa [CloseCall.Sound] using h.calls i c₀ hc₀
    · rfl
  · rcases joined_cases hc with ⟨c₀, hc₀, rfl⟩ | ⟨rfl, rfl⟩
    · rw [joined_inFlight] at hflight
      obtain ⟨halone, hid⟩ := of_joined_alone halone hflight
      obtain ⟨hfree, honly⟩ := h.alone i c₀ hc₀ halone hflight
      rw [joined_command]
      refine ⟨hfree, fun j c' hc' hflight' hid' => ?_⟩
      rcases joined_cases hc' with ⟨c₁, hc₁, rfl⟩ | ⟨-, rfl⟩
      · exact honly j c₁ hc₁ (by simpa using hflight') (by simpa using hid')
      · exact absurd hid'.symm hid
    · simp only [Bool.and_eq_true, Bool.not_eq_true'] at halone
      refine ⟨halone.1, fun j c' hc' hflight' hid' => ?_⟩
      rcases joined_cases hc' with ⟨c₁, hc₁, rfl⟩ | ⟨hj, -⟩
      · -- it would be in flight already
        have hbusy : s.busy command.positionId = true :=
          List.any_eq_true.mpr ⟨c₁, List.mem_of_getElem? hc₁, by
            rw [joined_inFlight] at hflight'
            rw [joined_command] at hid'
            simp [hflight', hid']⟩
        rw [halone.2] at hbusy
        cases hbusy
      · exact hj

theorem answered (h : s.Sound) {i : Nat} {call call' : CloseCall} (hcall : s.calls[i]? = some call)
    (ha : Answered s i call call' s') : s'.Sound := by
  refine ⟨?_, fun j c hc => ?_, fun j c hc halone hflight => ?_⟩
  · rcases ha.queue with ⟨hqueue, -⟩ | ⟨-, entry, hqueue, -⟩
    · rw [hqueue]
      exact h.queue
    · rw [hqueue]
      exact h.queue.enqueue entry
  · rcases ha.calls_cases hc with ⟨-, rfl⟩ | ⟨-, hc⟩
    · exact ha.sound
    · exact h.calls j c hc
  · rcases ha.calls_cases hc with ⟨rfl, rfl⟩ | ⟨hne, hc⟩
    · -- what is still in flight has enqueued nothing
      have hqueue : s'.queue = s.queue := by
        rcases ha.queue with ⟨hqueue, -⟩ | ⟨hresolved, -⟩
        · exact hqueue
        · rw [CloseCall.inFlight, hresolved] at hflight
          cases hflight
      obtain ⟨hfree, honly⟩ := h.alone j call hcall (ha.alone ▸ halone) ha.inFlight
      rw [hqueue, ha.command]
      refine ⟨hfree, fun k c' hc' hflight' hid' => ?_⟩
      rcases ha.calls_cases hc' with ⟨hk, -⟩ | ⟨-, hc'⟩
      · exact hk
      · exact honly k c' hc' hflight' hid'
    · obtain ⟨hfree, honly⟩ := h.alone j c hc halone hflight
      have hother : call.command.positionId ≠ c.command.positionId := fun hid =>
        hne (honly i call hcall ha.inFlight hid).symm
      refine ⟨?_, fun k c' hc' hflight' hid' => ?_⟩
      · rcases ha.queue with ⟨hqueue, -⟩ | ⟨-, entry, hqueue, hrecords⟩
        · rw [hqueue]
          exact hfree
        · rw [hqueue, ← Bool.not_eq_true, ExitCompensationQueue.has_enqueue, hfree, hrecords.key,
            ha.command]
          simpa using hother
      · rcases ha.calls_cases hc' with ⟨-, rfl⟩ | ⟨-, hc'⟩
        · rw [ha.command] at hid'
          exact absurd hid' hother
        · exact honly k c' hc' hflight' hid'

theorem step (h : s.Sound) {label : CompensationLabel} (hs : s.step label = some s') :
    s'.Sound := by
  cases step_cases h hs with
  | began => exact h.began _ _
  | answered hcall hanswered => exact h.answered hcall hanswered
  | drain =>
    refine h.with_queue h.queue.drain fun id hid => ?_
    rw [ExitCompensationQueue.has, ExitCompensationQueue.entries_drain] at hid
    exact hid
  | retry hq =>
    exact h.with_queue (h.queue.settle hq) fun _ => ExitCompensationQueue.has_settle h.queue hq
  | drained hq =>
    refine h.with_queue (h.queue.drained hq) fun id hid => ?_
    obtain ⟨_, -, -, rfl⟩ := ExitCompensationQueue.drained_cases h.queue hq
    exact hid

end Sound

/-- What a step may do. `call` is any call after it. -/
structure Lawful (s : ExitCompensation) (label : CompensationLabel) (s' : ExitCompensation) :
    Prop where
  /-- A call that rejects has closed nothing at the broker. -/
  rejected : ∀ call ∈ s'.calls, call.phase = .rejected → .placeExitResolved ∉ call.history
  resolved : ∀ call ∈ s'.calls, call.phase = .resolved →
    call.history.count .placeExitResolved = 1
  /-- A call that resolves in this step has written its row or left one entry. -/
  compensated : ∀ (i : Nat) (call : CloseCall), s'.calls[i]? = some call → call.alone = true →
    call.phase = .resolved → (∀ before, s.calls[i]? = some before → before.phase ≠ .resolved) →
    .updateResolved ∈ call.history ∨ ∃ entry, call.Leaves entry ∧
      s'.queue.entries.filter (fun e => e.1 = call.command.positionId) =
        [(call.command.positionId, ⟨entry, 0⟩)]
  /-- An entry stays what it is until its write resolves. -/
  kept : ∀ id entry, Holds s.queue.entries id entry → Holds s'.queue.entries id entry ∨
    ∃ n, label = .retry n true ∧
      ∃ pass ∈ s.queue.passes[n]?, ∃ p ∈ pass.current, p.1 = id ∧ p.2.entry = entry
  /-- `has` is true from when an entry is enqueued to when its write resolves. -/
  shielded : ∀ id, s'.queue.has id = CompensationLog.pending id s'.queue.log
  tried_all : ∀ pass ∈ s'.queue.finished, pass.tried = pass.present
  one_drain : s'.queue.passes.length ≤ 1

/-- The call that resolves leaves its entry, and there was none before. -/
theorem Answered.compensated {s s' : ExitCompensation} (h : s.Sound) {i : Nat}
    {call call' : CloseCall} (hcall : s.calls[i]? = some call) (ha : Answered s i call call' s')
    (halone : call'.alone = true) (hresolved : call'.phase = .resolved) :
    .updateResolved ∈ call'.history ∨ ∃ entry, call'.Leaves entry ∧
      s'.queue.entries.filter (fun e => e.1 = call'.command.positionId) =
        [(call'.command.positionId, ⟨entry, 0⟩)] := by
  rcases ha.queue with ⟨-, hupdated⟩ | ⟨-, entry, hqueue, hrecords⟩
  · exact .inl (hupdated hresolved)
  · have hfree := (h.alone i call hcall (ha.alone ▸ halone) ha.inFlight).1
    rw [← ha.command, ← hrecords.key] at hfree
    have hnone : s.queue.entries.filter (fun e => e.1 = entry.key) = [] := by
      rw [List.filter_eq_nil_iff]
      intro e he hkey
      rw [ExitCompensationQueue.has, ← Bool.not_eq_true, OrderedMap.has_iff] at hfree
      exact hfree (List.mem_map.mpr ⟨e, he, of_decide_eq_true hkey⟩)
    refine .inr ⟨entry, hrecords, ?_⟩
    rw [hqueue, ExitCompensationQueue.enqueue_eq hfree, ← hrecords.key, List.filter_append, hnone]
    simp

theorem lawful_compensated {s s' : ExitCompensation} (h : s.Sound) {label : CompensationLabel}
    (hs : Stepped s label s') {i : Nat} {call : CloseCall} (hi : s'.calls[i]? = some call)
    (halone : call.alone = true) (hresolved : call.phase = .resolved)
    (hbefore : ∀ before, s.calls[i]? = some before → before.phase ≠ .resolved) :
    .updateResolved ∈ call.history ∨ ∃ entry, call.Leaves entry ∧
      s'.queue.entries.filter (fun e => e.1 = call.command.positionId) =
        [(call.command.positionId, ⟨entry, 0⟩)] := by
  cases hs with
  | began =>
    rcases joined_cases hi with ⟨c₀, hc₀, rfl⟩ | ⟨-, rfl⟩
    · rw [joined_phase] at hresolved
      exact absurd hresolved (hbefore c₀ hc₀)
    · cases hresolved
  | answered hcall hanswered =>
    rcases hanswered.calls_cases hi with ⟨-, rfl⟩ | ⟨-, hi⟩
    · exact hanswered.compensated h hcall halone hresolved
    · exact absurd hresolved (hbefore call hi)
  | drain => exact absurd hresolved (hbefore call hi)
  | retry _ => exact absurd hresolved (hbefore call hi)
  | drained _ => exact absurd hresolved (hbefore call hi)

theorem lawful_kept {s s' : ExitCompensation} (h : s.Sound) {label : CompensationLabel}
    (hs : Stepped s label s') {id : PositionId} {entry : CompensationEntry}
    (hheld : Holds s.queue.entries id entry) : Holds s'.queue.entries id entry ∨
      ∃ n, label = .retry n true ∧
        ∃ pass ∈ s.queue.passes[n]?, ∃ p ∈ pass.current, p.1 = id ∧ p.2.entry = entry := by
  cases hs with
  | began => exact .inl hheld
  | answered hcall hanswered =>
    rcases hanswered.queue with ⟨hqueue, -⟩ | ⟨-, new, hqueue, -⟩
    · exact .inl (hqueue ▸ hheld)
    · exact .inl (hqueue ▸ ExitCompensationQueue.holds_enqueue hheld new)
  | drain => exact .inl (s.queue.entries_drain ▸ hheld)
  | @retry n resolves q hq =>
    refine (ExitCompensationQueue.holds_settle h.queue hq hheld).imp_right ?_
    rintro ⟨rfl, hpass⟩
    exact ⟨n, rfl, hpass⟩
  | drained hq =>
    obtain ⟨_, -, -, rfl⟩ := ExitCompensationQueue.drained_cases h.queue hq
    exact .inl hheld

end ExitCompensation

end Luchida
