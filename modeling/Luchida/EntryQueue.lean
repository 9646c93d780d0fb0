import Mathlib.Data.List.Perm.Basic
import Mathlib.Data.List.Nodup
import Luchida.EntryExecution
import Luchida.Runs

/- EntryQueue.ts with its three kinds of callers: `enqueue`, the timer that drains, and
   `stop`. A label is what one of them does up to its next `await`, or the settling of
   what one of them waits for, so a run is any interleaving with any delays.

   Every accepted command ends in exactly one place, is sent at most once and in the order
   of the queue, and each one that is dropped is announced once; nothing is sent after
   `stop`, and when a `stop` resolves the queue is empty for good (`conserves`). Which
   commands were accepted, sent, placed, and why the others were dropped is what the labels
   of the run say (`Told`). -/
namespace Luchida

/-- A command that `enqueue` accepted, with its number. -/
structure QueueItem where
  seq : Nat
  entry : QueuedEntry

/-- A `drainOne` under way: it waits for `openPosition` or for `notifyEntryExpired`. -/
inductive DrainRun where
  | opening (item : QueueItem)
  | notifying (item : QueueItem)

def DrainRun.item? : DrainRun → Option QueueItem
  | .opening item => some item
  | .notifying _ => none

/-- A `stop` under way: it waits for the drain in progress or, in `dropAllAtShutdown`, for
a notice, or it has resolved. -/
inductive StopRun where
  | waiting
  | dropping (item : QueueItem)
  | resolved

/-- `EntryQueue`: `queue`, `stopped` and `draining` as in the source, whether the timer
runs, the `drainOne`s and `stop`s under way, and what has become of the commands. -/
structure EntryQueue where
  queue : List QueueItem
  timer : Bool
  stopped : Bool
  draining : Bool
  drains : List DrainRun
  stops : List StopRun
  accepted : List QueueItem
  placed : List QueueItem
  failed : List QueueItem
  expired : List QueueItem
  shutdown : List QueueItem
  /-- The calls of `openPosition`, each with the age of its command. -/
  opens : List (QueueItem × Int)
  /-- The calls of `notifyEntryExpired`. -/
  notices : List QueueItem

inductive QueueLabel where
  | enqueue (command : EntryCommand) (submittedAt : Int)
  /-- The timer calls `drain`. -/
  | drain (now : Int)
  | openPositionSettles (i : Nat) (ok : Bool)
  | noticeSettles (i : Nat) (ok : Bool)
  | stop
  /-- The drain that the `k`-th `stop` waits for is over. -/
  | stopResumes (k : Nat)
  | stopNoticeSettles (k : Nat) (ok : Bool)

namespace EntryQueue

/-- After `start`. -/
def started : EntryQueue := ⟨[], true, false, false, [], [], [], [], [], [], [], [], []⟩

def enqueue (s : EntryQueue) (command : EntryCommand) (submittedAt : Int) : EntryQueue :=
  if s.stopped = true then s
  else
    let item : QueueItem := ⟨s.accepted.length, command, submittedAt⟩
    { s with queue := s.queue ++ [item], accepted := s.accepted ++ [item] }

/-- `drain` up to its first `await`: while another drain is in progress it waits for that
one and returns, and so it does nothing. -/
def drain (s : EntryQueue) (ttlMs now : Int) : EntryQueue :=
  if s.draining = true then s
  else match s.queue with
    | [] => s
    | head :: rest =>
      let age := now - head.entry.submittedAt
      if age > ttlMs then
        { s with
          queue := rest
          draining := true
          drains := s.drains ++ [.notifying head]
          expired := s.expired ++ [head]
          notices := s.notices ++ [head] }
      else
        { s with
          queue := rest
          draining := true
          drains := s.drains ++ [.opening head]
          opens := s.opens ++ [(head, age)] }

/-- The `finally` of `drain`. -/
def endDrain (s : EntryQueue) (i : Nat) : EntryQueue :=
  { s with draining := false, drains := s.drains.eraseIdx i }

/-- `openPosition` resolves or throws. -/
def openPositionSettles (s : EntryQueue) (i : Nat) (item : QueueItem) (ok : Bool) : EntryQueue :=
  if ok = true then { s.endDrain i with placed := s.placed ++ [item] }
  else
    { s with
      drains := s.drains.set i (.notifying item)
      failed := s.failed ++ [item]
      notices := s.notices ++ [item] }

/-- The loop of `dropAllAtShutdown` up to its next `await`, for the `k`-th `stop`. -/
def dropNext (s : EntryQueue) (k : Nat) : EntryQueue :=
  match s.queue with
  | [] => { s with stops := s.stops.set k .resolved }
  | head :: rest =>
    { s with
      queue := rest
      stops := s.stops.set k (.dropping head)
      shutdown := s.shutdown ++ [head]
      notices := s.notices ++ [head] }

/-- `stop` up to its first `await`. -/
def stop (s : EntryQueue) : EntryQueue :=
  let s' := { s with stopped := true, timer := false, stops := s.stops ++ [.waiting] }
  if s.draining = true then s' else s'.dropNext s.stops.length

def step (ttlMs : Int) (s : EntryQueue) : QueueLabel → Option EntryQueue
  | .enqueue command submittedAt => some (s.enqueue command submittedAt)
  | .drain now => if s.timer = true then some (s.drain ttlMs now) else none
  | .openPositionSettles i ok =>
    match s.drains[i]? with
    | some (.opening item) => some (s.openPositionSettles i item ok)
    | _ => none
  -- a notice that fails is logged, and nothing else
  | .noticeSettles i _ =>
    match s.drains[i]? with
    | some (.notifying _) => some (s.endDrain i)
    | _ => none
  | .stop => some s.stop
  | .stopResumes k =>
    match s.stops[k]? with
    | some .waiting => if s.draining = true then none else some (s.dropNext k)
    | _ => none
  | .stopNoticeSettles k _ =>
    match s.stops[k]? with
    | some (.dropping _) => some (s.dropNext k)
    | _ => none

/-! ## Where the commands are -/

def inFlight (s : EntryQueue) : List QueueItem := s.drains.filterMap DrainRun.item?

def dropped (s : EntryQueue) : List QueueItem := s.failed ++ s.expired ++ s.shutdown

/-- What holds in every state. `Perm` of lists without repetition: every accepted command
is in exactly one of the six places, once. -/
structure Conserves (ttlMs : Int) (s : EntryQueue) : Prop where
  numbered : s.accepted.map (·.seq) = List.range s.accepted.length
  in_one_place : s.accepted.Perm
    (s.queue ++ s.inFlight ++ s.placed ++ s.failed ++ s.expired ++ s.shutdown)
  one_drain : s.drains.length ≤ 1
  opened_in_order : (s.opens.map (·.1)).Sublist s.accepted
  opened_in_time : ∀ o ∈ s.opens, o.2 ≤ ttlMs
  opened_settles : (s.opens.map (·.1)).Perm (s.inFlight ++ s.placed ++ s.failed)
  announced_once : s.notices.Perm s.dropped
  stop_final : .resolved ∈ s.stops → s.drains = [] ∧ s.queue = []

/-- What every step keeps. -/
structure Kept (ttlMs : Int) (s : EntryQueue) : Prop extends s.Conserves ttlMs where
  draining_iff : s.draining = true ↔ s.drains ≠ []
  ordered : (s.opens.map (·.1) ++ s.queue).Sublist s.accepted
  timer_off : s.stopped = true → s.timer = false
  stop_called : s.stops ≠ [] → s.stopped = true
  -- a `stop` that drops no longer waits, and nothing else drains
  past_drain : ∀ r ∈ s.stops, r ≠ .waiting → s.drains = []

variable {ttlMs : Int} {s : EntryQueue}

/-- What one step can do, and when. -/
inductive Moves (ttlMs : Int) (s : EntryQueue) : EntryQueue → Prop
  | enqueue (command : EntryCommand) (submittedAt : Int) :
      Moves ttlMs s (s.enqueue command submittedAt)
  | drain (now : Int) : s.timer = true → Moves ttlMs s (s.drain ttlMs now)
  | openPositionSettles {i : Nat} {item : QueueItem} (ok : Bool) :
      s.drains[i]? = some (.opening item) → Moves ttlMs s (s.openPositionSettles i item ok)
  | noticeSettles {i : Nat} {item : QueueItem} :
      s.drains[i]? = some (.notifying item) → Moves ttlMs s (s.endDrain i)
  | stop : Moves ttlMs s s.stop
  -- a `stop` goes on when the drain it waits for is over, or the notice it waits for
  | dropNext {k : Nat} {r : StopRun} : s.stops[k]? = some r → r ≠ .resolved →
      (r = .waiting → ¬ s.draining = true) → Moves ttlMs s (s.dropNext k)

theorem moves_of_step {s' : EntryQueue} {a : QueueLabel} (hstep : s.step ttlMs a = some s') :
    s.Moves ttlMs s' := by
  cases a with
  | enqueue command submittedAt =>
    cases hstep
    exact .enqueue command submittedAt
  | drain now =>
    simp only [step] at hstep
    split at hstep
    · rename_i htimer
      cases hstep
      exact .drain now htimer
    · cases hstep
  | openPositionSettles i ok =>
    simp only [step] at hstep
    split at hstep
    · rename_i item hi
      cases hstep
      exact .openPositionSettles ok hi
    · cases hstep
  | noticeSettles i ok =>
    simp only [step] at hstep
    split at hstep
    · rename_i item hi
      cases hstep
      exact .noticeSettles hi
    · cases hstep
  | stop =>
    cases hstep
    exact .stop
  | stopResumes k =>
    simp only [step] at hstep
    split at hstep
    · rename_i hk
      split at hstep
      · cases hstep
      · rename_i hd
        cases hstep
        exact .dropNext hk (by simp) fun _ => hd
    · cases hstep
  | stopNoticeSettles k ok =>
    simp only [step] at hstep
    split at hstep
    · rename_i item hk
      cases hstep
      exact .dropNext hk (by simp) fun hwaiting => by cases hwaiting
    · cases hstep

theorem Kept.not_draining (h : s.Kept ttlMs) (hd : ¬ s.draining = true) : s.drains = [] := by
  by_contra hne
  exact hd (h.draining_iff.mpr hne)

/-- The drain that is under way is the only one. -/
theorem Kept.drains_eq (h : s.Kept ttlMs) {i : Nat} {d : DrainRun} (hi : s.drains[i]? = some d) :
    s.drains = [d] ∧ i = 0 := by
  have hlen := h.one_drain
  match hs : s.drains, hi with
  | [], hi => simp at hi
  | [d'], hi =>
    obtain ⟨hlt, heq⟩ := List.getElem?_eq_some_iff.mp hi
    obtain rfl : i = 0 := by simpa using hlt
    exact ⟨by simpa using heq, rfl⟩
  | _ :: _ :: _, _ => simp [hs] at hlen

/-- Taking the head leaves the order as it is. -/
theorem Kept.ordered_rest (h : s.Kept ttlMs) {head : QueueItem} {rest : List QueueItem}
    (hqueue : s.queue = head :: rest) :
    (s.opens.map (·.1) ++ rest).Sublist s.accepted := by
  have hordered := h.ordered
  rw [hqueue] at hordered
  exact ((List.Sublist.refl _).append (List.sublist_cons_self ..)).trans hordered

/-- A new notice goes with a command dropped at the end of any of the three lists. -/
theorem announced_concat {notices before after : List QueueItem}
    (h : notices.Perm (before ++ after)) (item : QueueItem) :
    (notices ++ [item]).Perm (before ++ [item] ++ after) := by
  refine (h.append_right [item]).trans ?_
  rw [List.append_assoc, List.append_assoc]
  exact List.perm_append_comm.append_left before

/-! ## What each caller keeps -/

theorem Kept.enqueue (h : s.Kept ttlMs) (command : EntryCommand) (submittedAt : Int) :
    (s.enqueue command submittedAt).Kept ttlMs := by
  unfold EntryQueue.enqueue
  split
  · exact h
  rename_i hstop
  have hnone : s.stops = [] := by
    by_contra hne
    exact hstop (h.stop_called hne)
  exact {
    numbered := by simp [h.numbered, List.range_succ]
    in_one_place := by
      classical
      have hperm := List.perm_iff_count.mp h.in_one_place
      refine List.perm_iff_count.mpr fun a => ?_
      have := hperm a
      simp only [List.count_append, inFlight] at this ⊢
      omega
    one_drain := h.one_drain
    opened_in_order := h.opened_in_order.trans (List.sublist_append_left ..)
    opened_in_time := h.opened_in_time
    opened_settles := h.opened_settles
    announced_once := h.announced_once
    stop_final := by simp [hnone]
    draining_iff := h.draining_iff
    ordered := by
      rw [← List.append_assoc]
      exact h.ordered.append (List.Sublist.refl _)
    timer_off := h.timer_off
    stop_called := h.stop_called
    past_drain := h.past_drain }

theorem Kept.drain (h : s.Kept ttlMs) (htimer : s.timer = true) (now : Int) :
    (s.drain ttlMs now).Kept ttlMs := by
  unfold EntryQueue.drain
  split
  · exact h
  rename_i hd
  have hdrains := h.not_draining hd
  have hstop : s.stopped = false := by
    by_contra hs
    have := h.timer_off (by simpa using hs)
    simp [this] at htimer
  have hnone : s.stops = [] := by
    by_contra hne
    simp [h.stop_called hne] at hstop
  split
  · exact h
  rename_i head rest hqueue
  have hordered := h.ordered
  have hperm := h.in_one_place
  have hsettles := h.opened_settles
  rw [hqueue] at hordered hperm
  simp only [inFlight, hdrains, List.filterMap_nil, List.append_nil, List.nil_append]
    at hperm hsettles
  dsimp only
  split
  · exact {
      numbered := h.numbered
      in_one_place := by
        classical
        refine List.perm_iff_count.mpr fun a => ?_
        have := List.perm_iff_count.mp hperm a
        simp only [inFlight, hdrains, List.count_append, List.count_cons, List.count_nil,
          List.nil_append, List.filterMap_cons, DrainRun.item?, List.filterMap_nil] at this ⊢
        omega
      one_drain := by simp [hdrains]
      opened_in_order := h.opened_in_order
      opened_in_time := h.opened_in_time
      opened_settles := by
        simpa [inFlight, hdrains, List.filterMap_cons, DrainRun.item?] using hsettles
      announced_once := by
        have hannounced : s.notices.Perm (s.failed ++ s.expired ++ s.shutdown) := h.announced_once
        simpa [dropped] using announced_concat hannounced head
      stop_final := by simp [hnone]
      draining_iff := by simp
      ordered := h.ordered_rest hqueue
      timer_off := by simp [hstop]
      stop_called := by simp [hnone]
      past_drain := by simp [hnone] }
  · rename_i hage
    exact {
      numbered := h.numbered
      in_one_place := by
        classical
        refine List.perm_iff_count.mpr fun a => ?_
        have := List.perm_iff_count.mp hperm a
        simp only [inFlight, hdrains, List.count_append, List.count_cons, List.count_nil,
          List.nil_append, List.filterMap_cons, DrainRun.item?, List.filterMap_nil] at this ⊢
        omega
      one_drain := by simp [hdrains]
      opened_in_order := by
        have : (s.opens.map (·.1) ++ [head]).Sublist s.accepted := by
          refine List.Sublist.trans ?_ hordered
          exact List.Sublist.append (List.Sublist.refl _) (by simp)
        simpa using this
      opened_in_time := by
        intro o ho
        rcases List.mem_append.mp ho with ho | ho
        · exact h.opened_in_time o ho
        · obtain rfl : o = _ := by simpa using ho
          exact not_lt.mp hage
      opened_settles := by
        simpa [inFlight, hdrains, List.filterMap_cons, DrainRun.item?] using
          (hsettles.append_right [head]).trans List.perm_append_comm
      announced_once := h.announced_once
      stop_final := by simp [hnone]
      draining_iff := by simp
      ordered := by simpa using hordered
      timer_off := by simp [hstop]
      stop_called := by simp [hnone]
      past_drain := by simp [hnone] }

theorem Kept.openPositionSettles (h : s.Kept ttlMs) {i : Nat} {item : QueueItem}
    (hi : s.drains[i]? = some (.opening item)) (ok : Bool) :
    (s.openPositionSettles i item ok).Kept ttlMs := by
  obtain ⟨hdrains, rfl⟩ := h.drains_eq hi
  have hwaiting : ∀ r ∈ s.stops, r = .waiting := by
    intro r hr
    by_contra hne
    simp [h.past_drain r hr hne] at hdrains
  have hperm := h.in_one_place
  have hsettles := h.opened_settles
  simp only [inFlight, hdrains, List.filterMap_cons, DrainRun.item?, List.filterMap_nil]
    at hperm hsettles
  have hresolved : StopRun.resolved ∉ s.stops := fun hr => by simpa using hwaiting _ hr
  unfold EntryQueue.openPositionSettles
  split
  · exact {
      numbered := h.numbered
      in_one_place := by
        classical
        refine List.perm_iff_count.mpr fun a => ?_
        have := List.perm_iff_count.mp hperm a
        simp only [inFlight, endDrain, hdrains, List.count_append, List.count_cons, List.count_nil,
          List.eraseIdx_cons_zero, List.filterMap_nil] at this ⊢
        omega
      one_drain := by simp [endDrain, hdrains]
      opened_in_order := h.opened_in_order
      opened_in_time := h.opened_in_time
      opened_settles := by
        classical
        refine List.perm_iff_count.mpr fun a => ?_
        have := List.perm_iff_count.mp hsettles a
        simp only [inFlight, endDrain, hdrains, List.count_append, List.count_cons, List.count_nil,
          List.eraseIdx_cons_zero, List.filterMap_nil] at this ⊢
        omega
      announced_once := h.announced_once
      stop_final := fun hr => absurd hr hresolved
      draining_iff := by simp [endDrain, hdrains]
      ordered := h.ordered
      timer_off := h.timer_off
      stop_called := h.stop_called
      past_drain := by simp [endDrain, hdrains] }
  · exact {
      numbered := h.numbered
      in_one_place := by
        classical
        refine List.perm_iff_count.mpr fun a => ?_
        have := List.perm_iff_count.mp hperm a
        simp only [inFlight, hdrains, List.count_append, List.count_cons, List.count_nil,
          List.set_cons_zero, List.filterMap_cons, DrainRun.item?, List.filterMap_nil] at this ⊢
        omega
      one_drain := by simp [hdrains]
      opened_in_order := h.opened_in_order
      opened_in_time := h.opened_in_time
      opened_settles := by
        classical
        refine List.perm_iff_count.mpr fun a => ?_
        have := List.perm_iff_count.mp hsettles a
        simp only [inFlight, hdrains, List.count_append, List.count_cons, List.count_nil,
          List.set_cons_zero, List.filterMap_cons, DrainRun.item?, List.filterMap_nil] at this ⊢
        omega
      announced_once := by
        have hannounced : s.notices.Perm (s.failed ++ (s.expired ++ s.shutdown)) := by
          simpa [dropped] using h.announced_once
        simpa [dropped] using announced_concat hannounced item
      stop_final := fun hr => absurd hr hresolved
      draining_iff := by simp [hdrains, h.draining_iff]
      ordered := h.ordered
      timer_off := h.timer_off
      stop_called := h.stop_called
      past_drain := fun r hr hne => absurd (hwaiting r hr) hne }

/-- The notice of a drain settles, one way or the other. -/
theorem Kept.endDrain (h : s.Kept ttlMs) {i : Nat} {item : QueueItem}
    (hi : s.drains[i]? = some (.notifying item)) : (s.endDrain i).Kept ttlMs := by
  obtain ⟨hdrains, rfl⟩ := h.drains_eq hi
  exact {
    numbered := h.numbered
    in_one_place := by
      have hperm := h.in_one_place
      simpa [inFlight, EntryQueue.endDrain, hdrains, DrainRun.item?, List.filterMap_cons]
        using hperm
    one_drain := by simp [EntryQueue.endDrain, hdrains]
    opened_in_order := h.opened_in_order
    opened_in_time := h.opened_in_time
    opened_settles := by
      have hsettles := h.opened_settles
      simpa [inFlight, EntryQueue.endDrain, hdrains, DrainRun.item?, List.filterMap_cons]
        using hsettles
    announced_once := h.announced_once
    stop_final := by
      intro hr
      exact ⟨by simp [EntryQueue.endDrain, hdrains], (h.stop_final hr).2⟩
    draining_iff := by simp [EntryQueue.endDrain, hdrains]
    ordered := h.ordered
    timer_off := h.timer_off
    stop_called := h.stop_called
    past_drain := by simp [EntryQueue.endDrain, hdrains] }

/-- A `stop` drops the next command, or resolves. -/
theorem Kept.dropNext (h : s.Kept ttlMs) (hdrains : s.drains = []) (hstop : s.stopped = true)
    (k : Nat) : (s.dropNext k).Kept ttlMs := by
  unfold EntryQueue.dropNext
  split
  · rename_i hqueue
    exact { h with
      stop_final := fun _ => ⟨hdrains, hqueue⟩
      stop_called := fun _ => hstop
      past_drain := fun _ _ _ => hdrains }
  · rename_i head rest hqueue
    have hperm := h.in_one_place
    rw [hqueue] at hperm
    exact {
      numbered := h.numbered
      in_one_place := by
        classical
        refine List.perm_iff_count.mpr fun a => ?_
        have := List.perm_iff_count.mp hperm a
        simp only [inFlight, List.count_append, List.count_cons, List.count_nil] at this ⊢
        omega
      one_drain := h.one_drain
      opened_in_order := h.opened_in_order
      opened_in_time := h.opened_in_time
      opened_settles := h.opened_settles
      announced_once := by
        have hannounced : s.notices.Perm (s.dropped ++ []) := by simpa using h.announced_once
        simpa [dropped] using announced_concat hannounced head
      stop_final := by
        intro hr
        rcases List.mem_or_eq_of_mem_set hr with hr | hr
        · have := (h.stop_final hr).2
          simp [hqueue] at this
        · cases hr
      draining_iff := h.draining_iff
      ordered := h.ordered_rest hqueue
      timer_off := h.timer_off
      stop_called := fun _ => hstop
      past_drain := fun _ _ _ => hdrains }

theorem Kept.stop (h : s.Kept ttlMs) : s.stop.Kept ttlMs := by
  have hcalled : Kept ttlMs
      { s with stopped := true, timer := false, stops := s.stops ++ [.waiting] } :=
    { h with
      stop_final := fun hr => h.stop_final (by simpa using hr)
      timer_off := fun _ => rfl
      stop_called := fun _ => rfl
      past_drain := by
        intro r hr hne
        rcases List.mem_append.mp hr with hr | hr
        · exact h.past_drain r hr hne
        · exact absurd (by simpa using hr) hne }
  unfold EntryQueue.stop
  dsimp only
  split
  · exact hcalled
  · rename_i hd
    exact hcalled.dropNext (h.not_draining hd) rfl _

theorem Kept.moves {s' : EntryQueue} (h : s.Kept ttlMs) (hmove : s.Moves ttlMs s') :
    s'.Kept ttlMs := by
  cases hmove with
  | enqueue command submittedAt => exact h.enqueue command submittedAt
  | drain now htimer => exact h.drain htimer now
  | openPositionSettles ok hi => exact h.openPositionSettles hi ok
  | noticeSettles hi => exact h.endDrain hi
  | stop => exact h.stop
  | @dropNext k r hk _ hwaiting =>
    have hmem := List.mem_of_getElem? hk
    have hdrains : s.drains = [] := by
      by_cases hr : r = .waiting
      · exact h.not_draining (hwaiting hr)
      · exact h.past_drain r hmem hr
    exact h.dropNext hdrains (h.stop_called (List.ne_nil_of_mem hmem)) k

/-! ## What the labels say -/

/-- What the steps of a run, the last one first, say one after another. -/
def said {β : Type} (f : EntryQueue × QueueLabel → Option β)
    (past : List (EntryQueue × QueueLabel)) : List β := past.reverse.filterMap f

theorem said_cons {β : Type} (f : EntryQueue × QueueLabel → Option β)
    (moment : EntryQueue × QueueLabel) (past : List (EntryQueue × QueueLabel)) :
    said f (moment :: past) = said f past ++ (f moment).toList := by
  cases hf : f moment <;> simp [said, hf]

/-- The command of an `enqueue` before `stop`. -/
def acceptedBy : EntryQueue × QueueLabel → Option QueuedEntry
  | (s, .enqueue command submittedAt) =>
    if s.stopped = true then none else some ⟨command, submittedAt⟩
  | _ => none

/-- The command that a drain takes off the queue, with its age. -/
def takenBy : EntryQueue × QueueLabel → Option (QueueItem × Int)
  | (s, .drain now) =>
    if s.draining = true then none
    else s.queue.head?.map fun item => (item, now - item.entry.submittedAt)
  | _ => none

/-- The command that `openPosition` resolves for, or throws for. -/
def settledBy (ok : Bool) : EntryQueue × QueueLabel → Option QueueItem
  | (s, .openPositionSettles i ok') =>
    if ok' = ok then s.drains[i]?.bind DrainRun.item? else none
  | _ => none

/-- The command that a `stop` drops. -/
def shutdownBy : EntryQueue × QueueLabel → Option QueueItem
  | (s, .stop) => if s.draining = true then none else s.queue.head?
  | (s, .stopResumes _) | (s, .stopNoticeSettles _ _) => s.queue.head?
  | _ => none

/-- What one step adds to what has become of the commands. -/
structure Tells (ttlMs : Int) (s : EntryQueue) (a : QueueLabel) (s' : EntryQueue) : Prop where
  stopped : s'.stopped = true ↔ a = .stop ∨ s.stopped = true
  accepted : s'.accepted.map (·.entry) = s.accepted.map (·.entry) ++ (acceptedBy (s, a)).toList
  opens : s'.opens = s.opens ++ (takenBy (s, a)).toList.filter fun taken => taken.2 ≤ ttlMs
  expired : s'.expired =
    s.expired ++ ((takenBy (s, a)).toList.filter fun taken => ttlMs < taken.2).map (·.1)
  placed : s'.placed = s.placed ++ (settledBy true (s, a)).toList
  failed : s'.failed = s.failed ++ (settledBy false (s, a)).toList
  shutdown : s'.shutdown = s.shutdown ++ (shutdownBy (s, a)).toList

/-- What has become of the commands is what the labels of the run say. -/
structure Told (ttlMs : Int) (past : List (EntryQueue × QueueLabel)) (s : EntryQueue) : Prop where
  stopped : s.stopped = true ↔ ∃ moment ∈ past, moment.2 = .stop
  accepted : s.accepted.map (·.entry) = said acceptedBy past
  opens : s.opens = (said takenBy past).filter fun taken => taken.2 ≤ ttlMs
  expired : s.expired = ((said takenBy past).filter fun taken => ttlMs < taken.2).map (·.1)
  placed : s.placed = said (settledBy true) past
  failed : s.failed = said (settledBy false) past
  shutdown : s.shutdown = said shutdownBy past

theorem tells_enqueue (ttlMs : Int) (s : EntryQueue) (command : EntryCommand) (submittedAt : Int) :
    s.Tells ttlMs (.enqueue command submittedAt) (s.enqueue command submittedAt) := by
  unfold enqueue
  by_cases hstop : s.stopped = true
  · rw [if_pos hstop]
    exact ⟨by simp, by simp [acceptedBy, hstop], by simp [takenBy], by simp [takenBy],
      by simp [settledBy], by simp [settledBy], by simp [shutdownBy]⟩
  · rw [if_neg hstop]
    exact ⟨by simp, by simp [acceptedBy, hstop], by simp [takenBy], by simp [takenBy],
      by simp [settledBy], by simp [settledBy], by simp [shutdownBy]⟩

theorem tells_drain (ttlMs : Int) (s : EntryQueue) (now : Int) :
    s.Tells ttlMs (.drain now) (s.drain ttlMs now) := by
  unfold drain
  by_cases hd : s.draining = true
  · rw [if_pos hd]
    exact ⟨by simp, by simp [acceptedBy], by simp [takenBy, hd], by simp [takenBy, hd],
      by simp [settledBy], by simp [settledBy], by simp [shutdownBy]⟩
  · rw [if_neg hd]
    cases hqueue : s.queue with
    | nil =>
      exact ⟨by simp, by simp [acceptedBy], by simp [takenBy, hqueue], by simp [takenBy, hqueue],
        by simp [settledBy], by simp [settledBy], by simp [shutdownBy]⟩
    | cons head rest =>
      have htaken : takenBy (s, .drain now) = some (head, now - head.entry.submittedAt) := by
        simp [takenBy, hd, hqueue]
      dsimp only
      split
      · rename_i hage
        have hexpired : ttlMs < now - head.entry.submittedAt := hage
        exact ⟨by simp, by simp [acceptedBy],
          by simp [htaken, not_le.mpr hexpired],
          by simp [htaken, hexpired], by simp [settledBy], by simp [settledBy],
          by simp [shutdownBy]⟩
      · rename_i hage
        have hintime : now - head.entry.submittedAt ≤ ttlMs := not_lt.mp hage
        exact ⟨by simp, by simp [acceptedBy], by simp [htaken, hintime],
          by simp [htaken, not_lt.mpr hintime], by simp [settledBy],
          by simp [settledBy], by simp [shutdownBy]⟩

theorem tells_openPositionSettles (ttlMs : Int) {i : Nat} {item : QueueItem}
    (hi : s.drains[i]? = some (.opening item)) (ok : Bool) :
    s.Tells ttlMs (.openPositionSettles i ok) (s.openPositionSettles i item ok) := by
  cases ok <;>
    exact ⟨by simp [openPositionSettles, endDrain], by simp [openPositionSettles, endDrain,
      acceptedBy], by simp [openPositionSettles, endDrain, takenBy],
      by simp [openPositionSettles, endDrain, takenBy],
      by simp [openPositionSettles, endDrain, settledBy, hi, DrainRun.item?],
      by simp [openPositionSettles, endDrain, settledBy, hi, DrainRun.item?],
      by simp [openPositionSettles, endDrain, shutdownBy]⟩

theorem dropNext_stopped (s : EntryQueue) (k : Nat) : (s.dropNext k).stopped = s.stopped := by
  unfold dropNext
  split <;> rfl

theorem dropNext_opens (s : EntryQueue) (k : Nat) : (s.dropNext k).opens = s.opens := by
  unfold dropNext
  split <;> rfl

theorem dropNext_shutdown (s : EntryQueue) (k : Nat) :
    (s.dropNext k).shutdown = s.shutdown ++ s.queue.head?.toList := by
  unfold dropNext
  cases s.queue <;> simp

theorem dropNext_rest (s : EntryQueue) (k : Nat) :
    (s.dropNext k).accepted = s.accepted ∧ (s.dropNext k).expired = s.expired ∧
      (s.dropNext k).placed = s.placed ∧ (s.dropNext k).failed = s.failed := by
  unfold dropNext
  split <;> exact ⟨rfl, rfl, rfl, rfl⟩

/-- A `stop` that goes on. -/
theorem tells_dropNext (ttlMs : Int) (s : EntryQueue) (k : Nat) {a : QueueLabel}
    (ha : a = .stopResumes k ∨ ∃ ok, a = .stopNoticeSettles k ok) :
    s.Tells ttlMs a (s.dropNext k) := by
  obtain ⟨haccepted, hexpired, hplaced, hfailed⟩ := s.dropNext_rest k
  rcases ha with rfl | ⟨ok, rfl⟩ <;>
    exact ⟨by simp [dropNext_stopped], by simp [haccepted, acceptedBy],
      by simp [dropNext_opens, takenBy], by simp [hexpired, takenBy],
      by simp [hplaced, settledBy], by simp [hfailed, settledBy],
      by simp [dropNext_shutdown, shutdownBy]⟩

theorem tells_stop (ttlMs : Int) (s : EntryQueue) : s.Tells ttlMs .stop s.stop := by
  unfold stop
  dsimp only
  split
  · rename_i hd
    exact ⟨by simp, by simp [acceptedBy], by simp [takenBy], by simp [takenBy],
      by simp [settledBy], by simp [settledBy], by simp [shutdownBy, hd]⟩
  · rename_i hd
    obtain ⟨haccepted, hexpired, hplaced, hfailed⟩ := dropNext_rest
      { s with stopped := true, timer := false, stops := s.stops ++ [.waiting] } s.stops.length
    exact ⟨by simp [dropNext_stopped], by simp [haccepted, acceptedBy],
      by simp [dropNext_opens, takenBy], by simp [hexpired, takenBy],
      by simp [hplaced, settledBy], by simp [hfailed, settledBy],
      by simp [dropNext_shutdown, shutdownBy, hd]⟩

theorem tells_step {s' : EntryQueue} {a : QueueLabel} (hstep : s.step ttlMs a = some s') :
    s.Tells ttlMs a s' := by
  cases a with
  | enqueue command submittedAt =>
    cases hstep
    exact tells_enqueue ttlMs s command submittedAt
  | drain now =>
    simp only [step] at hstep
    split at hstep
    · cases hstep
      exact tells_drain ttlMs s now
    · cases hstep
  | openPositionSettles i ok =>
    simp only [step] at hstep
    split at hstep
    · rename_i item hi
      cases hstep
      exact tells_openPositionSettles ttlMs hi ok
    · cases hstep
  | noticeSettles i ok =>
    simp only [step] at hstep
    split at hstep
    · cases hstep
      exact ⟨by simp [endDrain], by simp [endDrain, acceptedBy], by simp [endDrain, takenBy],
        by simp [endDrain, takenBy], by simp [endDrain, settledBy], by simp [endDrain, settledBy],
        by simp [endDrain, shutdownBy]⟩
    · cases hstep
  | stop =>
    cases hstep
    exact tells_stop ttlMs s
  | stopResumes k =>
    simp only [step] at hstep
    split at hstep
    · split at hstep
      · cases hstep
      · cases hstep
        exact tells_dropNext ttlMs s k (.inl rfl)
    · cases hstep
  | stopNoticeSettles k ok =>
    simp only [step] at hstep
    split at hstep
    · cases hstep
      exact tells_dropNext ttlMs s k (.inr ⟨ok, rfl⟩)
    · cases hstep

theorem Told.next {past : List (EntryQueue × QueueLabel)} {a : QueueLabel} {s' : EntryQueue}
    (h : Told ttlMs past s) (hnext : s.Tells ttlMs a s') : Told ttlMs ((s, a) :: past) s' where
  stopped := by simp [hnext.stopped, h.stopped]
  accepted := by rw [hnext.accepted, h.accepted, said_cons]
  opens := by rw [hnext.opens, h.opens, said_cons, List.filter_append]
  expired := by rw [hnext.expired, h.expired, said_cons, List.filter_append, List.map_append]
  placed := by rw [hnext.placed, h.placed, said_cons]
  failed := by rw [hnext.failed, h.failed, said_cons]
  shutdown := by rw [hnext.shutdown, h.shutdown, said_cons]

theorem told_of_passes {past : List (EntryQueue × QueueLabel)}
    (h : Runs.Passes (step ttlMs) (fun _ _ => True) started past s) : Told ttlMs past s := by
  refine h.invariant ⟨by simp [started], rfl, rfl, rfl, rfl, rfl, rfl⟩ ?_
  exact fun _ _ _ _ hs _ hstep => hs.next (tells_step hstep)

/-! ## Runs -/

theorem started_kept (ttlMs : Int) : started.Kept ttlMs where
  numbered := rfl
  in_one_place := by simp [started, inFlight]
  one_drain := by simp [started]
  opened_in_order := by simp [started]
  opened_in_time := by simp [started]
  opened_settles := by simp [started, inFlight]
  announced_once := by simp [started, dropped]
  stop_final := by simp [started]
  draining_iff := by simp [started]
  ordered := by simp [started]
  timer_off := by simp [started]
  stop_called := by simp [started]
  past_drain := by simp [started]

/-- Once `stop` was called, no drain starts and nothing is sent. -/
theorem Kept.opens_eq {s' : EntryQueue} (h : s.Kept ttlMs) (hstop : s.stopped = true)
    (hmove : s.Moves ttlMs s') : s'.stopped = true ∧ s'.opens = s.opens := by
  cases hmove with
  | enqueue command submittedAt => simp [EntryQueue.enqueue, hstop]
  | drain now htimer =>
    rw [h.timer_off hstop] at htimer
    cases htimer
  | openPositionSettles ok _ => cases ok <;> exact ⟨hstop, rfl⟩
  | noticeSettles _ => exact ⟨hstop, rfl⟩
  | stop =>
    unfold EntryQueue.stop
    dsimp only
    split
    · exact ⟨rfl, rfl⟩
    · exact ⟨dropNext_stopped .., dropNext_opens ..⟩
  | dropNext => exact ⟨(dropNext_stopped ..).trans hstop, dropNext_opens ..⟩

/-- A `stop` that moves on is not one that has resolved. -/
theorem resolved_mem_set {k : Nat} {r : StopRun} (hr : StopRun.resolved ∈ s.stops)
    (hk : s.stops[k]? = some r) (hne : r ≠ .resolved) (r' : StopRun) :
    StopRun.resolved ∈ s.stops.set k r' := by
  obtain ⟨j, hj, heq⟩ := List.getElem_of_mem hr
  have hjk : k ≠ j := by
    rintro rfl
    rw [List.getElem?_eq_getElem hj, heq] at hk
    exact hne (Option.some.inj hk).symm
  exact List.mem_iff_getElem.mpr ⟨j, by simpa using hj, by rw [List.getElem_set_ne hjk, heq]⟩

theorem resolved_dropNext {k : Nat} {r : StopRun} (hr : StopRun.resolved ∈ s.stops)
    (hk : s.stops[k]? = some r) (hne : r ≠ .resolved) :
    StopRun.resolved ∈ (s.dropNext k).stops := by
  unfold dropNext
  split <;> exact resolved_mem_set hr hk hne _

theorem drain_stops (s : EntryQueue) (now : Int) : (s.drain ttlMs now).stops = s.stops := by
  unfold drain
  split
  · rfl
  · split
    · rfl
    · dsimp only
      split <;> rfl

/-- A `stop` that has resolved stays so. -/
theorem resolved_moves {s' : EntryQueue} (hr : StopRun.resolved ∈ s.stops)
    (hmove : s.Moves ttlMs s') : StopRun.resolved ∈ s'.stops := by
  cases hmove with
  | enqueue command submittedAt =>
    unfold enqueue
    split <;> exact hr
  | drain now _ =>
    rw [drain_stops]
    exact hr
  | openPositionSettles ok _ => cases ok <;> exact hr
  | noticeSettles _ => exact hr
  | stop =>
    have hmem : StopRun.resolved ∈ s.stops ++ [.waiting] := List.mem_append_left _ hr
    unfold stop
    dsimp only
    split
    · exact hmem
    · exact resolved_dropNext hmem (List.getElem?_concat_length ..) (by simp)
  | dropNext hk hne _ => exact resolved_dropNext hr hk hne

/-- In every state that any interleaving reaches the queue conserves its commands, which are
those of the labels that led there; after `stop` no step sends one, and once a `stop` has
resolved nothing is in flight and the queue is empty in every later state. -/
theorem conserves (h : Runs.Reaches (step ttlMs) (fun _ _ => True) started s) :
    s.Conserves ttlMs ∧
      (∀ past, Runs.Passes (step ttlMs) (fun _ _ => True) started past s → Told ttlMs past s) ∧
      (s.stopped = true → ∀ a s', s.step ttlMs a = some s' → s'.opens = s.opens) ∧
      (.resolved ∈ s.stops → ∀ s', Runs.Reaches (step ttlMs) (fun _ _ => True) s s' →
        s'.drains = [] ∧ s'.queue = []) := by
  have hkept : ∀ s, Runs.Reaches (step ttlMs) (fun _ _ => True) started s → s.Kept ttlMs :=
    fun s h => h.invariant (started_kept ttlMs) fun _ _ _ hs _ hstep =>
      hs.moves (moves_of_step hstep)
  refine ⟨(hkept s h).toConserves, fun past hpasses => told_of_passes hpasses,
    fun hstop a s' hstep => ((hkept s h).opens_eq hstop (moves_of_step hstep)).2, ?_⟩
  intro hr s' h'
  refine (hkept s' (h.trans h')).stop_final ?_
  induction h' with
  | start => exact hr
  | next _ _ hstep ih => exact resolved_moves ih (moves_of_step hstep)

end EntryQueue

/-- One command is placed, and `stop` comes while it is with the broker; the other two are
dropped. -/
def stopWhileOpening : List QueueLabel :=
  [.enqueue filledEntry 0, .enqueue filledEntry 1, .enqueue filledEntry 2, .drain 100,
    .drain 200, .stop, .openPositionSettles 0 true, .stopResumes 0, .stopNoticeSettles 0 false,
    .stopNoticeSettles 0 true]

theorem conserves_stop :
    ∃ s, Runs.Reaches (EntryQueue.step 3000) (fun _ _ => True) .started s ∧
      s.accepted.length = 3 ∧ s.placed.length = 1 ∧ s.shutdown.length = 2 ∧ s.Conserves 3000 := by
  have hrun : ∃ s, Runs.Reaches (EntryQueue.step 3000) (fun _ _ => True) .started s ∧
      s.accepted.length = 3 ∧ s.placed.length = 1 ∧ s.shutdown.length = 2 :=
    Runs.exists_reaches stopWhileOpening (by decide +kernel)
  obtain ⟨s, hreach, haccepted, hplaced, hshutdown⟩ := hrun
  exact ⟨s, hreach, haccepted, hplaced, hshutdown, (EntryQueue.conserves hreach).1⟩

end Luchida
