import Mathlib.Data.List.TakeWhile
import Mathlib.Logic.Function.Basic
import Luchida.GmoRest
import Luchida.Runs
import Luchida.Spacing

/- The throttle of GmoRestClient.ts under any number of concurrent calls: at most one POST
   and six GETs in a second. `throttlePost` and `throttleGet` look at the times of the
   sends so far, sleep, and only then record their own, without looking again. A call that
   sends while another one sleeps is not seen by it, so both send (`exists_burst`).

   A label is what one call does between two `await`s, at the time the clock shows. A call
   that slept sends on what it saw. While nothing of its kind was sent since, the limits
   hold, whatever the order of the calls (`throttled_of_unsent`). -/
namespace Luchida

open Spacing

/-- How a request goes out. `get` and `publicGet` share one throttle. -/
inductive RestMethod where
  | get
  | post
  | publicGet
  deriving DecidableEq, Repr

namespace RestMethod

def isPost : RestMethod → Bool
  | .post => true
  | .get | .publicGet => false

/-- How many sends the throttle lets out in a second. -/
def limit (m : RestMethod) : Nat := if m.isPost = true then 1 else 6

theorem limit_pos (m : RestMethod) : 0 < m.limit := by
  unfold limit
  split <;> decide

end RestMethod

/-- Where a call waits. The count that a sleeping call carries is not in the source: it is
the number of sends of its kind when it looked at their times. -/
inductive RestPhase where
  | throttled (wakeAt : Int) (looked : Nat)
  | sent
  | backoff (wakeAt : Int)
  deriving DecidableEq, Repr

/-- A call of `post`, `get` or `publicGet`, in the `attempt`-th turn of
`withRateLimitRetry`. -/
structure RestCall where
  method : RestMethod
  attempt : Nat
  phase : RestPhase
  deriving DecidableEq, Repr

/-- `GmoRestClient`, the calls that are under way, and the times at which requests were
sent, the newest first. -/
structure RestClient where
  now : Int
  lastPostTimestamp : Int
  getTimestamps : List Int
  calls : Nat → Option RestCall
  posts : List Int
  gets : List Int

inductive RestLabel where
  /-- A call begins, in a slot that is free. -/
  | begin (i : Nat) (method : RestMethod) (now : Int)
  /-- The sleep in the throttle is over. -/
  | wake (i : Nat) (now : Int)
  | respond (i : Nat) (outcome : HttpOutcome Unit) (now : Int)
  /-- The sleep before the next attempt is over. -/
  | retry (i : Nat) (now : Int)

def RestLabel.now : RestLabel → Int
  | .begin _ _ now | .wake _ now | .respond _ _ now | .retry _ now => now

namespace RestClient

/-- A client at time `now` that has sent nothing. -/
def fresh (now : Int) : RestClient := ⟨now, 0, [], fun _ => none, [], []⟩

/-- The sends that the throttle of the method counts. -/
def sends (c : RestClient) (m : RestMethod) : List Int :=
  if m.isPost = true then c.posts else c.gets

def put (c : RestClient) (i : Nat) (call : Option RestCall) : RestClient :=
  { c with calls := Function.update c.calls i call }

/-- The last statement of each throttle: the time is recorded. -/
def record (c : RestClient) (m : RestMethod) : RestClient :=
  if m.isPost = true then { c with lastPostTimestamp := c.now, posts := c.now :: c.posts }
  else { c with getTimestamps := c.getTimestamps ++ [c.now], gets := c.now :: c.gets }

/-- The end of the throttle and the `fetch` after it. -/
def send (c : RestClient) (i : Nat) (call : RestCall) : RestClient :=
  (c.put i (some { call with phase := .sent })).record call.method

def sleep (c : RestClient) (i : Nat) (call : RestCall) (wakeAt : Int) : RestClient :=
  c.put i (some { call with phase := .throttled wakeAt (c.sends call.method).length })

/-- `throttlePost` up to its `await`. -/
def throttlePost (c : RestClient) (i : Nat) (call : RestCall) : RestClient :=
  let elapsed := c.now - c.lastPostTimestamp
  if elapsed < 1000 then c.sleep i call (c.now + (1000 - elapsed)) else c.send i call

/-- `throttleGet` up to its `await`. -/
def throttleGet (c : RestClient) (i : Nat) (call : RestCall) : RestClient :=
  let windowStart := c.now - 1000
  let timestamps := c.getTimestamps.dropWhile (fun t => t ≤ windowStart)
  let c := { c with getTimestamps := timestamps }
  match timestamps with
  | oldest :: _ =>
    if 6 ≤ timestamps.length then
      let wait := oldest + 1000 - c.now
      if 0 < wait then c.sleep i call (c.now + wait) else c.send i call
    else c.send i call
  | [] => c.send i call

def throttle (c : RestClient) (i : Nat) (call : RestCall) : RestClient :=
  if call.method.isPost = true then c.throttlePost i call else c.throttleGet i call

/-- A response comes in: `withRateLimitRetry` sleeps and tries again, or the call ends. -/
def respond (c : RestClient) (i : Nat) (call : RestCall) (outcome : HttpOutcome Unit) :
    RestClient :=
  match request outcome with
  | .error (.api e) =>
    if e.isRateLimited = true ∧ call.attempt < rateLimitMaxRetries then
      c.put i (some { call with phase := .backoff (c.now + 1500 * (call.attempt + 1)) })
    else c.put i none
  | _ => c.put i none

/-- A label does its work at the time it carries, which is not before the clock's. -/
def act (c : RestClient) : RestLabel → Option RestClient
  | .begin i method _ =>
    match c.calls i with
    | none => some (c.throttle i ⟨method, 0, .sent⟩)
    | some _ => none
  | .wake i now =>
    match c.calls i with
    | some ⟨method, attempt, .throttled wakeAt _⟩ =>
      if wakeAt ≤ now then some (c.send i ⟨method, attempt, .sent⟩) else none
    | _ => none
  | .respond i outcome _ =>
    match c.calls i with
    | some ⟨method, attempt, .sent⟩ => some (c.respond i ⟨method, attempt, .sent⟩ outcome)
    | _ => none
  | .retry i now =>
    match c.calls i with
    | some ⟨method, attempt, .backoff wakeAt⟩ =>
      if wakeAt ≤ now then some (c.throttle i ⟨method, attempt + 1, .sent⟩) else none
    | _ => none

def step (c : RestClient) (a : RestLabel) : Option RestClient :=
  if c.now ≤ a.now then { c with now := a.now }.act a else none

/-! ## The limits -/

/-- The POSTs are at least 1000 ms apart, and no half-open window of 1000 ms has more than
six GETs. -/
def Throttled (c : RestClient) : Prop :=
  c.posts.Pairwise (fun a b => b + 1000 ≤ a) ∧ ∀ w, (inWindow 1000 w c.gets).length ≤ 6

/-- A call that wakes in the throttle sends on what it saw: nothing of its kind was sent
since it looked. -/
def Unsent (c : RestClient) : RestLabel → Prop
  | .wake i _ => ∀ call wakeAt looked, c.calls i = some call →
      call.phase = .throttled wakeAt looked → looked = (c.sends call.method).length
  | _ => True

/-- The next send of the method is due at `time`. -/
def Due (c : RestClient) (m : RestMethod) (time : Int) : Prop :=
  ∀ u ∈ (c.sends m)[m.limit - 1]?, u + 1000 ≤ time

/-- What every allowed step keeps. -/
structure Paced (c : RestClient) : Prop where
  ordered : ∀ m, NewestFirst (c.now :: c.sends m)
  spaced : ∀ m, SpacedBy m.limit 1000 (c.sends m)
  last_post : ∀ t ∈ c.posts, t ≤ c.lastPostTimestamp
  -- what was shifted out of the list is more than a second old
  recorded : ∃ older, c.gets = c.getTimestamps.reverse ++ older ∧ ∀ t ∈ older, t + 1000 ≤ c.now
  looked_le : ∀ i call wakeAt looked, c.calls i = some call →
    call.phase = .throttled wakeAt looked → looked ≤ (c.sends call.method).length
  asleep : ∀ i call wakeAt looked, c.calls i = some call →
    call.phase = .throttled wakeAt looked → looked = (c.sends call.method).length →
    c.Due call.method wakeAt

variable {c : RestClient} {i : Nat} {call : RestCall}

theorem Paced.throttled (h : c.Paced) : c.Throttled :=
  ⟨(h.spaced .post).pairwise (h.ordered .post).of_cons,
    fun w => (h.spaced .get).inWindow_length_le (h.ordered .get).of_cons w⟩

/-- The clock goes on. -/
theorem Paced.advance (h : c.Paced) {now : Int} (hnow : c.now ≤ now) :
    { c with now := now }.Paced where
  ordered m := by
    obtain ⟨hle, hsorted⟩ := List.pairwise_cons.mp (h.ordered m)
    exact List.pairwise_cons.mpr ⟨fun t ht => (hle t ht).trans hnow, hsorted⟩
  spaced := h.spaced
  last_post := h.last_post
  recorded := by
    obtain ⟨older, heq, hold⟩ := h.recorded
    exact ⟨older, heq, fun t ht => (hold t ht).trans hnow⟩
  looked_le := h.looked_le
  asleep := h.asleep

/-- A call in another phase than the sleep of the throttle. -/
theorem Paced.put (h : c.Paced) (i : Nat) {new : Option RestCall}
    (hnew : ∀ call ∈ new, ∀ wakeAt looked, call.phase ≠ .throttled wakeAt looked) :
    (c.put i new).Paced where
  ordered := h.ordered
  spaced := h.spaced
  last_post := h.last_post
  recorded := h.recorded
  looked_le j call wakeAt looked hcall hphase := by
    by_cases hj : j = i
    · subst hj
      exact absurd hphase (hnew call (by simpa [RestClient.put] using hcall) _ _)
    · exact h.looked_le j call wakeAt looked (by simpa [RestClient.put, hj] using hcall) hphase
  asleep j call wakeAt looked hcall hphase := by
    by_cases hj : j = i
    · subst hj
      exact absurd hphase (hnew call (by simpa [RestClient.put] using hcall) _ _)
    · exact h.asleep j call wakeAt looked (by simpa [RestClient.put, hj] using hcall) hphase

theorem sends_record (c : RestClient) (m m' : RestMethod) :
    (c.record m).sends m' =
      if m'.isPost = m.isPost then c.now :: c.sends m' else c.sends m' := by
  unfold record sends
  cases m.isPost <;> cases m'.isPost <;> rfl

@[simp] theorem record_now (c : RestClient) (m : RestMethod) : (c.record m).now = c.now := by
  unfold record
  split <;> rfl

@[simp] theorem record_calls (c : RestClient) (m : RestMethod) : (c.record m).calls = c.calls := by
  unfold record
  split <;> rfl

theorem limit_congr {m m' : RestMethod} (h : m'.isPost = m.isPost) : m'.limit = m.limit := by
  simp [RestMethod.limit, h]

theorem sends_congr (c : RestClient) {m m' : RestMethod} (h : m'.isPost = m.isPost) :
    c.sends m' = c.sends m := by
  simp [sends, h]

/-- A send that is due keeps the spacing, and no sleeping call has seen it. -/
theorem Paced.record (h : c.Paced) {m : RestMethod} (hdue : c.Due m c.now) :
    (c.record m).Paced where
  ordered m' := by
    rw [sends_record, record_now]
    split
    · exact List.pairwise_cons.mpr
        ⟨by simpa using (List.pairwise_cons.mp (h.ordered m')).1, h.ordered m'⟩
    · exact h.ordered m'
  spaced m' := by
    rw [sends_record]
    split
    · rename_i hm
      refine ⟨fun u hu => ?_, h.spaced m'⟩
      rw [limit_congr hm, sends_congr c hm] at hu
      obtain ⟨n, hn⟩ : ∃ n, m.limit = n + 1 := ⟨m.limit - 1, by have := m.limit_pos; omega⟩
      rw [hn, List.getElem?_cons_succ] at hu
      exact hdue u (by rw [hn]; exact hu)
    · exact h.spaced m'
  last_post t ht := by
    unfold RestClient.record at ht ⊢
    split
    · rename_i hm
      simp only [hm, ↓reduceIte, List.mem_cons] at ht
      rcases ht with rfl | ht
      · exact le_rfl
      · exact (List.pairwise_cons.mp (h.ordered .post)).1 t ht
    · rename_i hm
      simp only [hm, Bool.false_eq_true, ↓reduceIte] at ht
      exact h.last_post t ht
  recorded := by
    obtain ⟨older, heq, hold⟩ := h.recorded
    refine ⟨older, ?_, by simpa using hold⟩
    unfold RestClient.record
    split
    · exact heq
    · simp [heq]
  looked_le j call wakeAt looked hcall hphase := by
    rw [record_calls] at hcall
    have := h.looked_le j call wakeAt looked hcall hphase
    rw [sends_record]
    split
    · simp only [List.length_cons]
      omega
    · exact this
  asleep j call wakeAt looked hcall hphase hlooked := by
    rw [record_calls] at hcall
    have hle := h.looked_le j call wakeAt looked hcall hphase
    rw [sends_record] at hlooked
    split at hlooked
    · -- the call looked before this send
      simp only [List.length_cons] at hlooked
      omega
    · rename_i hm
      have := h.asleep j call wakeAt looked hcall hphase hlooked
      unfold Due
      rw [sends_record, if_neg hm]
      exact this

theorem Paced.send (h : c.Paced) (hdue : c.Due call.method c.now) : (c.send i call).Paced := by
  have hput : (c.put i (some { call with phase := .sent })).Paced := h.put i (by simp)
  exact hput.record hdue

theorem Paced.sleep (h : c.Paced) {wakeAt : Int} (hdue : c.Due call.method wakeAt) :
    (c.sleep i call wakeAt).Paced where
  ordered := h.ordered
  spaced := h.spaced
  last_post := h.last_post
  recorded := h.recorded
  looked_le j other wakeAt' looked hcall hphase := by
    by_cases hj : j = i
    · subst hj
      obtain rfl : _ = other := by simpa [RestClient.sleep, RestClient.put] using hcall
      obtain ⟨rfl, rfl⟩ : wakeAt = wakeAt' ∧ (c.sends call.method).length = looked := by
        simpa using hphase
      exact le_rfl
    · exact h.looked_le j other wakeAt' looked
        (by simpa [RestClient.sleep, RestClient.put, hj] using hcall) hphase
  asleep j other wakeAt' looked hcall hphase hlooked := by
    by_cases hj : j = i
    · subst hj
      obtain rfl : _ = other := by simpa [RestClient.sleep, RestClient.put] using hcall
      obtain ⟨rfl, -⟩ : wakeAt = wakeAt' ∧ (c.sends call.method).length = looked := by
        simpa using hphase
      exact hdue
    · exact h.asleep j other wakeAt' looked
        (by simpa [RestClient.sleep, RestClient.put, hj] using hcall) hphase hlooked

/-! ### The two throttles -/

/-- `throttlePost` sends when the last POST is a second old, and else sleeps until then. -/
theorem Paced.throttlePost (h : c.Paced) (hpost : call.method.isPost = true) :
    (c.throttlePost i call).Paced := by
  have hdue : ∀ time, c.lastPostTimestamp + 1000 ≤ time → c.Due call.method time := by
    intro time htime u hu
    have hmem : u ∈ c.posts := by
      have := List.mem_of_getElem? hu
      simpa [sends, hpost] using this
    have := h.last_post u hmem
    omega
  unfold RestClient.throttlePost
  dsimp only
  split
  · exact h.sleep (hdue _ (by omega))
  · exact h.send (hdue _ (by omega))

/-- Shifting out the times that are more than a second old. -/
theorem Paced.shift (h : c.Paced) :
    { c with getTimestamps := c.getTimestamps.dropWhile (fun t => t ≤ c.now - 1000) }.Paced where
  ordered := h.ordered
  spaced := h.spaced
  last_post := h.last_post
  recorded := by
    obtain ⟨older, heq, hold⟩ := h.recorded
    refine ⟨(c.getTimestamps.takeWhile (fun t => t ≤ c.now - 1000)).reverse ++ older, ?_, ?_⟩
    · dsimp only
      rw [heq, ← List.append_assoc, ← List.reverse_append, List.takeWhile_append_dropWhile]
    · intro t ht
      rcases List.mem_append.mp ht with ht | ht
      · have := List.mem_takeWhile_imp (List.mem_reverse.mp ht)
        simp only [decide_eq_true_eq] at this
        dsimp only
        omega
      · exact hold t ht
  looked_le := h.looked_le
  asleep := h.asleep

/-- Of the times less than a second old there are at most six. -/
theorem Paced.timestamps_length_le (h : c.Paced)
    (hrecent : ∀ t ∈ c.getTimestamps, c.now - 1000 < t) : c.getTimestamps.length ≤ 6 := by
  obtain ⟨older, heq, -⟩ := h.recorded
  have hle := (h.spaced .get).inWindow_length_le (h.ordered .get).of_cons (c.now - 999)
  have hnow := (List.pairwise_cons.mp (h.ordered .get)).1
  have hgets : c.sends .get = c.getTimestamps.reverse ++ older := heq
  have hall : inWindow 1000 (c.now - 999) c.getTimestamps.reverse = c.getTimestamps.reverse := by
    rw [inWindow, List.filter_eq_self]
    intro t ht
    have hmem : t ∈ c.sends .get := by
      rw [hgets]
      exact List.mem_append_left _ ht
    have h1 := hrecent t (List.mem_reverse.mp ht)
    have h2 := hnow t hmem
    simp only [decide_eq_true_eq]
    omega
  rw [hgets] at hle
  simp only [inWindow, List.filter_append] at hle hall
  rw [hall, List.length_append, List.length_reverse] at hle
  have : RestMethod.get.limit = 6 := rfl
  omega

/-- `throttleGet` sends when fewer than six of the last GETs are less than a second old,
and else sleeps until the oldest of these is. -/
theorem Paced.throttleGet (h : c.Paced) (hget : call.method.isPost = false) :
    (c.throttleGet i call).Paced := by
  have hs := h.shift
  unfold RestClient.throttleGet
  dsimp only
  generalize hts : c.getTimestamps.dropWhile (fun t => t ≤ c.now - 1000) = ts at hs ⊢
  obtain ⟨older, heq, hold⟩ := hs.recorded
  have hlimit : call.method.limit = 6 := by simp [RestMethod.limit, hget]
  have hsends : c.sends call.method = ts.reverse ++ older := by
    simpa [sends, hget] using heq
  -- with fewer than six times left, the sixth last send is one of the older ones
  have hfew : ts.length < 6 →
      Due { c with getTimestamps := ts } call.method c.now := by
    intro hlt u hu
    have hu' : (ts.reverse ++ older)[5]? = some u := by
      rw [← hsends]
      simpa [hlimit, sends] using hu
    rw [List.getElem?_append_right (by simp; omega)] at hu'
    exact hold u (List.mem_of_getElem? hu')
  cases ts with
  | nil => exact hs.send (hfew (by simp))
  | cons oldest rest =>
    dsimp only
    split
    · rename_i hsix
      have hrecent : ∀ t ∈ oldest :: rest, c.now - 1000 < t := by
        have hhead := List.head?_dropWhile_not (fun t => decide (t ≤ c.now - 1000)) c.getTimestamps
        simp only [hts, List.head?_cons, decide_eq_false_iff_not, not_le] at hhead
        have hsorted := (hs.ordered .get).of_cons
        rw [show sends _ RestMethod.get = (oldest :: rest).reverse ++ older from heq] at hsorted
        have hasc := List.pairwise_reverse.mp (List.pairwise_append.mp hsorted).1
        intro t ht
        rcases List.mem_cons.mp ht with rfl | ht
        · exact hhead
        · have := (List.pairwise_cons.mp hasc).1 t ht
          omega
      have hlen := hs.timestamps_length_le hrecent
      have hdue : ∀ time, oldest + 1000 ≤ time →
          Due { c with getTimestamps := oldest :: rest } call.method time := by
        intro time htime u hu
        have hu' : ((oldest :: rest).reverse ++ older)[5]? = some u := by
          rw [← hsends]
          simpa [hlimit, sends] using hu
        have hsixth : (oldest :: rest).length = 6 := by
          dsimp only at hlen
          omega
        rw [List.getElem?_append_left (by rw [List.length_reverse]; omega),
          List.getElem?_reverse (by omega), hsixth] at hu'
        obtain rfl : oldest = u := by simpa using hu'
        exact htime
      split
      · exact hs.sleep (hdue _ (by omega))
      · exact hs.send (hdue _ (by dsimp only; omega))
    · rename_i hsix
      exact hs.send (hfew (by omega))

theorem Paced.throttle (h : c.Paced) (i : Nat) (call : RestCall) : (c.throttle i call).Paced := by
  unfold RestClient.throttle
  split
  · rename_i hpost
    exact h.throttlePost hpost
  · rename_i hget
    exact h.throttleGet (by simpa using hget)

theorem Paced.respond (h : c.Paced) (i : Nat) (call : RestCall) (outcome : HttpOutcome Unit) :
    (c.respond i call outcome).Paced := by
  unfold RestClient.respond
  split
  · split
    · exact h.put i (by simp)
    · exact h.put i (by simp)
  · exact h.put i (by simp)

/-! ## Runs -/

/-- Every step of one call keeps the pace, if it does not send on what was seen before
another send. -/
theorem Paced.step {c' : RestClient} {a : RestLabel} (h : c.Paced) (hunsent : c.Unsent a)
    (hstep : c.step a = some c') : c'.Paced := by
  unfold RestClient.step at hstep
  split at hstep
  swap
  · cases hstep
  rename_i hnow
  have hadv := h.advance hnow
  cases a with
  | begin i method now =>
    simp only [act] at hstep
    split at hstep
    · cases hstep
      exact hadv.throttle ..
    · cases hstep
  | wake i now =>
    simp only [act] at hstep
    split at hstep
    · rename_i method attempt wakeAt looked hcall
      split at hstep
      · rename_i hwake
        cases hstep
        refine hadv.send fun u hu => ?_
        have hlooked := hunsent _ wakeAt looked hcall rfl
        exact (h.asleep i _ wakeAt looked hcall rfl hlooked u hu).trans hwake
      · cases hstep
    · cases hstep
  | respond i outcome now =>
    simp only [act] at hstep
    split at hstep
    · cases hstep
      exact hadv.respond ..
    · cases hstep
  | retry i now =>
    simp only [act] at hstep
    split at hstep
    · split at hstep
      · cases hstep
        exact hadv.throttle ..
      · cases hstep
    · cases hstep

theorem fresh_paced (now : Int) : (fresh now).Paced where
  ordered m := by cases m <;> simp [sends, fresh, RestMethod.isPost, NewestFirst]
  spaced m := by cases m <;> simp [sends, fresh, RestMethod.isPost, SpacedBy]
  last_post := by simp [fresh]
  recorded := ⟨[], by simp [fresh]⟩
  looked_le := by simp [fresh]
  asleep := by simp [fresh]

/-- While no call sends on what it saw before another send of its kind, the POSTs are a
second apart and no second has more than six GETs. -/
theorem throttled_of_unsent {start : Int} (h : Runs.Reaches step Unsent (fresh start) c) :
    c.Throttled :=
  Paced.throttled (h.invariant (fresh_paced start) fun _ _ _ hs hok hstep => hs.step hok hstep)

/-! ## A burst -/

instance (c : RestClient) (a : RestLabel) : Decidable (c.Unsent a) :=
  match a with
  | .wake i _ =>
    match h : c.calls i with
    | some ⟨m, n, .throttled w looked⟩ =>
      decidable_of_iff (looked = (c.sends m).length) (by
        constructor
        · rintro hlooked call wakeAt looked' hcall hphase
          obtain rfl : _ = call := by simpa [h] using hcall
          obtain ⟨-, rfl⟩ : w = wakeAt ∧ looked = looked' := by simpa using hphase
          exact hlooked
        · intro hall
          exact hall _ w looked h rfl)
    | some ⟨m, n, .sent⟩ => .isTrue (by
        intro call wakeAt looked hcall hphase
        obtain rfl : _ = call := by simpa [h] using hcall
        cases hphase)
    | some ⟨m, n, .backoff w⟩ => .isTrue (by
        intro call wakeAt looked hcall hphase
        obtain rfl : _ = call := by simpa [h] using hcall
        cases hphase)
    | none => .isTrue (by
        intro call wakeAt looked hcall
        simp [h] at hcall)
  | .begin .. | .respond .. | .retry .. => .isTrue trivial

end RestClient

/-- Three exits of the emergency path: the first goes out, the other two look at the same
time and wake together. -/
def threeExits : List RestLabel :=
  [.begin 0 .post 5000, .begin 1 .post 5000, .begin 2 .post 5000, .wake 1 6000, .wake 2 6000]

/-- Twelve reads at once: six go out, the other six wake together with a seventh. -/
def thirteenReads : List RestLabel :=
  (List.range 13).map (fun i => .begin i .get 5000) ++
    (List.range 7).map (fun i => .wake (i + 6) 6000)

/-- Neither limit is kept when several calls wait in the throttle. -/
theorem exists_burst :
    (∃ c, Runs.Reaches RestClient.step (fun _ _ => True) (.fresh 5000) c ∧
      c.posts = [6000, 6000, 5000]) ∧
    (∃ c, Runs.Reaches RestClient.step (fun _ _ => True) (.fresh 5000) c ∧
      (inWindow 1000 6000 c.gets).length = 7) ∧
    ¬ ∀ c, Runs.Reaches RestClient.step (fun _ _ => True) (.fresh 5000) c → c.Throttled := by
  have hposts : ∃ c, Runs.Reaches RestClient.step (fun _ _ => True) (.fresh 5000) c ∧
      c.posts = [6000, 6000, 5000] := Runs.exists_reaches threeExits (by decide +kernel)
  have hgets : ∃ c, Runs.Reaches RestClient.step (fun _ _ => True) (.fresh 5000) c ∧
      (inWindow 1000 6000 c.gets).length = 7 :=
    Runs.exists_reaches thirteenReads (by decide +kernel)
  refine ⟨hposts, hgets, fun hall => ?_⟩
  obtain ⟨c, hreach, hlog⟩ := hposts
  have := (hall c hreach).1
  rw [hlog] at this
  simp at this

/-- One exit after another. -/
theorem throttled_of_unsent_two :
    ∃ c : RestClient, c.posts = [6000, 5000] ∧ c.Throttled := by
  have hrun : ∃ c, Runs.Reaches RestClient.step RestClient.Unsent (.fresh 5000) c ∧
      c.posts = [6000, 5000] :=
    Runs.exists_reaches [.begin 0 .post 5000, .begin 1 .post 5000, .wake 1 6000]
      (by decide +kernel)
  obtain ⟨c, hreach, hlog⟩ := hrun
  exact ⟨c, hlog, RestClient.throttled_of_unsent hreach⟩

end Luchida
