import Luchida.LotPolicy
import Luchida.Runs

/- GmoBalanceAdapter.ts: one request for the balance at a time, its answer cached for
   `cacheTtlMillis`, under any order of `freshNow` and `current` calls and answers.

   A label is what runs between two `await`s. When the answer has come in, `fetchAndCache`
   settles its promise, and the call that started the request goes on in a later microtask
   and only there sets `inflightFetch` to null. A call that comes between the two joins a
   request that is over: it is handed a failure that is already there, where it should ask
   the API, or a balance that may be older than the cache allows (`exists_settled_joined`).
   When no call comes there everything holds, and only then (`sound_iff`). -/
namespace Luchida

open Runs

/-! ## Answers -/

inductive BalancePortErrorCode where
  | apiFailed
  | malformedResponse
  deriving DecidableEq, Repr

/-- `BalancePortError`, without its cause. -/
structure BalancePortError where
  message : String
  code : BalancePortErrorCode
  deriving DecidableEq, Repr

namespace BalancePortError

def apiFailed : BalancePortError := ⟨"残高取得 API が失敗した", .apiFailed⟩

def malformedResponse (reason : String) : BalancePortError :=
  ⟨"残高取得レスポンスが不正: " ++ reason, .malformedResponse⟩

end BalancePortError

/-- `GmoAssetsData`, the field that is read: `none` where it is not a string, and what `Big`
makes of the string, `none` where it throws. -/
structure GmoAssetsData where
  balance : Option (Option ℚ)

/-- What `restClient.get` rejects with. -/
inductive AssetsFailure where
  | balancePort (error : BalancePortError)
  | other

/-- How `restClient.get` settles. The response may have no data. -/
abbrev AssetsAnswer := Except AssetsFailure (Option GmoAssetsData)

/-- `BalanceCacheEntry`. -/
structure BalanceCacheEntry where
  balance : Balance
  fetchedAtMillis : Int

/-- How a request for the balance ends. -/
abbrev FetchOutcome := Except BalancePortError BalanceCacheEntry

/-- `Balance.of(Money.jpy(text))`. -/
def readBalance (text : Option ℚ) : Option Balance :=
  text.bind (fun value => Balance.of ⟨value, .jpy⟩)

/-- `fetchAndCache`, from the answer on. -/
def fetchOutcome (answer : AssetsAnswer) (now : Int) : FetchOutcome :=
  match answer with
  | .error (.balancePort error) => .error error
  | .error .other => .error .apiFailed
  | .ok data =>
    match data.bind (·.balance) with
    | none => .error (.malformedResponse "data.balance が string ではない")
    | some text =>
      match readBalance text with
      | none => .error (.malformedResponse "balance を Balance に変換できなかった")
      | some balance => .ok ⟨balance, now⟩

theorem fetchOutcome_ok {answer : AssetsAnswer} {now : Int} {entry : BalanceCacheEntry}
    (h : fetchOutcome answer now = .ok entry) : entry.fetchedAtMillis = now := by
  unfold fetchOutcome at h
  split at h
  · cases h
  · cases h
  · split at h
    · cases h
    · split at h
      · cases h
      · cases h
        rfl

/-! ## Calls -/

/-- Where a call of `freshNow` has its answer from. -/
inductive FreshAnswer where
  | cached (entry : BalanceCacheEntry)
  /-- It has started the request. -/
  | started (fetch : Nat)
  | joined (fetch : Nat)

/-- A call of `freshNow`, and whether there was a request without an answer when it came. -/
structure FreshCall where
  begunAt : Int
  inFlight : Bool
  answer : FreshAnswer

/-- It has joined a request when every request had its answer. -/
def FreshCall.late (c : FreshCall) : Bool :=
  match c.answer with
  | .joined _ => !c.inFlight
  | _ => false

/-- A call of `current`. -/
structure CurrentCall where
  calledAt : Int
  answer : Option BalanceCacheEntry

/-- `GmoBalanceAdapter`, and what there was of requests and calls, the newest call first.
`inflightFetch` is the number of a request. -/
structure GmoBalanceAdapter where
  cacheTtlMillis : Nat
  now : Int
  cache : Option BalanceCacheEntry
  inflightFetch : Option Nat
  /-- The requests, `none` while there is no answer. -/
  fetches : List (Option FetchOutcome)
  /-- The requests whose `freshNow` has not gone on yet. -/
  starters : List Nat
  calls : List FreshCall
  currents : List CurrentCall

inductive BalanceLabel where
  | freshNow (now : Int)
  | current (now : Int)
  | respond (fetch : Nat) (answer : AssetsAnswer) (now : Int)
  /-- The call that started a request goes on. -/
  | resume (fetch : Nat) (now : Int)

def BalanceLabel.now : BalanceLabel → Int
  | .freshNow now | .current now | .respond _ _ now | .resume _ now => now

namespace GmoBalanceAdapter

/-- The constructor, which throws unless `cacheTtlMillis` is positive. -/
def create (cacheTtlMillis : Nat) (now : Int) : Option GmoBalanceAdapter :=
  if cacheTtlMillis = 0 then none
  else some ⟨cacheTtlMillis, now, none, none, [], [], [], []⟩

/-- `isFresh`. -/
def isFresh (s : GmoBalanceAdapter) (entry : BalanceCacheEntry) : Bool :=
  s.now - entry.fetchedAtMillis ≤ s.cacheTtlMillis

/-- What the cache has to offer. -/
def freshEntry (s : GmoBalanceAdapter) : Option BalanceCacheEntry := s.cache.filter s.isFresh

/-- There is a request without an answer. -/
def inFlight (s : GmoBalanceAdapter) : Bool := s.fetches.any (·.isNone)

/-- `current`. -/
def current (s : GmoBalanceAdapter) : GmoBalanceAdapter :=
  { s with currents := ⟨s.now, s.freshEntry⟩ :: s.currents }

/-- `this.inflightFetch = this.fetchAndCache()`. -/
def startFetch (s : GmoBalanceAdapter) : GmoBalanceAdapter :=
  { s with
    inflightFetch := some s.fetches.length
    fetches := s.fetches ++ [none]
    starters := s.fetches.length :: s.starters
    calls := ⟨s.now, s.inFlight, .started s.fetches.length⟩ :: s.calls }

/-- `freshNow` up to its `await`. -/
def freshNow (s : GmoBalanceAdapter) : GmoBalanceAdapter :=
  match s.freshEntry with
  | some entry => { s with calls := ⟨s.now, s.inFlight, .cached entry⟩ :: s.calls }
  | none =>
    match s.inflightFetch with
    | some fetch => { s with calls := ⟨s.now, s.inFlight, .joined fetch⟩ :: s.calls }
    | none => s.startFetch

/-- `fetchAndCache` after its `await`. -/
def respond (s : GmoBalanceAdapter) (fetch : Nat) (answer : AssetsAnswer) :
    GmoBalanceAdapter :=
  match fetchOutcome answer s.now with
  | .error error => { s with fetches := s.fetches.set fetch (some (.error error)) }
  | .ok entry =>
    { s with
      cache := some entry
      fetches := s.fetches.set fetch (some (.ok entry)) }

/-- The `finally` of `freshNow`. -/
def resume (s : GmoBalanceAdapter) (fetch : Nat) : GmoBalanceAdapter :=
  { s with
    inflightFetch := none
    starters := s.starters.erase fetch }

/-- How a request has ended. -/
def outcome (s : GmoBalanceAdapter) (fetch : Nat) : Option FetchOutcome := s.fetches[fetch]?.join

/-- A request without an answer. -/
def Pending (s : GmoBalanceAdapter) (fetch : Nat) : Prop := s.fetches[fetch]? = some none

/-- A label does its work at the time it carries. -/
def act (s : GmoBalanceAdapter) : BalanceLabel → Option GmoBalanceAdapter
  | .freshNow _ => some s.freshNow
  | .current _ => some s.current
  | .respond fetch answer _ =>
    if s.fetches[fetch]?.any (·.isNone) then some (s.respond fetch answer) else none
  | .resume fetch _ =>
    if fetch ∈ s.starters ∧ (s.outcome fetch).isSome then some (s.resume fetch) else none

/-- The clock does not run backwards. -/
def step (s : GmoBalanceAdapter) (a : BalanceLabel) : Option GmoBalanceAdapter :=
  if s.now ≤ a.now then { s with now := a.now }.act a else none

/-! ## What a run keeps -/

variable {s s' : GmoBalanceAdapter}

theorem outcome_eq_some {i : Nat} {o : FetchOutcome} :
    s.outcome i = some o ↔ s.fetches[i]? = some (some o) := by
  unfold outcome
  rw [Option.join_eq_some_iff]

theorem pending_iff {i : Nat} : s.fetches[i]?.any (·.isNone) = true ↔ s.Pending i := by
  unfold Pending
  rw [Option.any_eq_true]
  constructor
  · intro ⟨f, hf, hnone⟩
    rwa [Option.isNone_iff_eq_none.mp hnone] at hf
  · intro hi
    exact ⟨none, hi, rfl⟩

instance (s : GmoBalanceAdapter) (i : Nat) : Decidable (s.Pending i) :=
  decidable_of_iff _ pending_iff

theorem Pending.not_outcome {i : Nat} (h : s.Pending i) (o : FetchOutcome) :
    s.outcome i ≠ some o := by
  intro ho
  cases h.symm.trans (outcome_eq_some.mp ho)

theorem Pending.lt {i : Nat} (h : s.Pending i) : i < s.fetches.length :=
  (List.getElem?_eq_some_iff.mp h).1

theorem inFlight_iff : s.inFlight = true ↔ ∃ i, s.Pending i := by
  unfold inFlight Pending
  rw [List.any_eq_true]
  constructor
  · intro ⟨f, hf, hnone⟩
    obtain ⟨i, hi⟩ := List.getElem?_of_mem hf
    rw [Option.isNone_iff_eq_none] at hnone
    exact ⟨i, hnone ▸ hi⟩
  · intro ⟨i, hi⟩
    exact ⟨none, List.mem_of_getElem? hi, rfl⟩

theorem freshEntry_eq_some {entry : BalanceCacheEntry} (h : s.freshEntry = some entry) :
    s.cache = some entry ∧ s.now - entry.fetchedAtMillis ≤ s.cacheTtlMillis := by
  obtain ⟨hcache, hfresh⟩ := Option.filter_eq_some_iff.mp h
  exact ⟨hcache, of_decide_eq_true hfresh⟩

/-- The balance of an entry was fetched by one of the requests. -/
def Fetched (s : GmoBalanceAdapter) (entry : BalanceCacheEntry) : Prop :=
  ∃ i, s.outcome i = some (.ok entry)

/-- The request is answered at `t` or later. -/
def AnsweredFrom (s : GmoBalanceAdapter) (t : Int) (i : Nat) : Prop :=
  i < s.fetches.length ∧ ∀ entry, s.outcome i = some (.ok entry) → t ≤ entry.fetchedAtMillis

/-- A call has a fresh entry, or waits for a request that is answered after it began. Of a call
that joins a request when there is none without an answer nothing is said. -/
def Served (s : GmoBalanceAdapter) (c : FreshCall) : Prop :=
  match c.answer with
  | .cached entry => c.begunAt - entry.fetchedAtMillis ≤ s.cacheTtlMillis ∧ s.Fetched entry
  | .started i => s.AnsweredFrom c.begunAt i
  | .joined i => c.inFlight = true → s.AnsweredFrom c.begunAt i

/-- What every step keeps. `inflightFetch` outlives the answer of its request, but there is
never a request without an answer besides it. -/
structure Inv (s : GmoBalanceAdapter) : Prop where
  starters : s.starters = s.inflightFetch.toList
  known : ∀ i, s.inflightFetch = some i → i < s.fetches.length
  pending : ∀ i, s.Pending i → s.inflightFetch = some i
  fetched : ∀ entry, s.Fetched entry → entry.fetchedAtMillis ≤ s.now
  cached : ∀ entry, s.cache = some entry → s.Fetched entry
  calls : ∀ c ∈ s.calls, c.begunAt ≤ s.now ∧ s.Served c
  currents : ∀ c ∈ s.currents, ∀ entry, c.answer = some entry →
    c.calledAt - entry.fetchedAtMillis ≤ s.cacheTtlMillis ∧ s.Fetched entry

theorem inv_create {cacheTtlMillis : Nat} {now : Int} (h : create cacheTtlMillis now = some s) :
    s.Inv := by
  unfold create at h
  split at h
  · cases h
  · cases h
    constructor <;> simp [Fetched, Pending, outcome]

/-- The clock goes on. -/
theorem Inv.advance (h : s.Inv) {now : Int} (hnow : s.now ≤ now) :
    { s with now := now }.Inv where
  starters := h.starters
  known := h.known
  pending := h.pending
  fetched entry hentry := (h.fetched entry hentry).trans hnow
  cached := h.cached
  calls c hc := ⟨(h.calls c hc).1.trans hnow, (h.calls c hc).2⟩
  currents := h.currents

/-- A call is noted. -/
theorem Inv.note (h : s.Inv) {c : FreshCall} (hbegun : c.begunAt ≤ s.now) (hserved : s.Served c) :
    { s with calls := c :: s.calls }.Inv where
  starters := h.starters
  known := h.known
  pending := h.pending
  fetched := h.fetched
  cached := h.cached
  calls := List.forall_mem_cons.mpr ⟨⟨hbegun, hserved⟩, h.calls⟩
  currents := h.currents

theorem Inv.current (h : s.Inv) : s.current.Inv where
  starters := h.starters
  known := h.known
  pending := h.pending
  fetched := h.fetched
  cached := h.cached
  calls := h.calls
  currents := by
    refine List.forall_mem_cons.mpr ⟨fun entry hentry => ?_, h.currents⟩
    obtain ⟨hcache, hfresh⟩ := freshEntry_eq_some hentry
    exact ⟨hfresh, h.cached entry hcache⟩

/-- Requests are added and answered, and no answer is taken back. What is answered is answered
now. -/
structure Extends (s s' : GmoBalanceAdapter) : Prop where
  ttl : s'.cacheTtlMillis = s.cacheTtlMillis
  length_le : s.fetches.length ≤ s'.fetches.length
  keeps : ∀ i o, s.outcome i = some o → s'.outcome i = some o
  adds : ∀ i entry, s'.outcome i = some (.ok entry) →
    s.outcome i = some (.ok entry) ∨ entry.fetchedAtMillis = s.now

theorem Extends.fetched (h : s.Extends s') {entry : BalanceCacheEntry} (hentry : s.Fetched entry) :
    s'.Fetched entry := by
  obtain ⟨i, hi⟩ := hentry
  exact ⟨i, h.keeps i _ hi⟩

theorem Extends.answeredFrom (h : s.Extends s') {t : Int} {i : Nat} (ht : t ≤ s.now)
    (hi : s.AnsweredFrom t i) : s'.AnsweredFrom t i := by
  refine ⟨hi.1.trans_le h.length_le, fun entry hentry => ?_⟩
  rcases h.adds i entry hentry with hold | hnew
  · exact hi.2 entry hold
  · rw [hnew]
    exact ht

theorem Extends.served (h : s.Extends s') {c : FreshCall} (hc : c.begunAt ≤ s.now)
    (hserved : s.Served c) : s'.Served c := by
  unfold Served at hserved ⊢
  cases hanswer : c.answer with
  | cached entry =>
    rw [hanswer] at hserved
    dsimp only at hserved ⊢
    rw [h.ttl]
    exact ⟨hserved.1, h.fetched hserved.2⟩
  | started i =>
    rw [hanswer] at hserved
    exact h.answeredFrom hc hserved
  | joined i =>
    rw [hanswer] at hserved
    exact fun hflight => h.answeredFrom hc (hserved hflight)

/-- Calls that were answered stay answered. -/
theorem Extends.calls (h : s.Extends s') (hinv : s.Inv) (hnow : s'.now = s.now) :
    ∀ c ∈ s.calls, c.begunAt ≤ s'.now ∧ s'.Served c := by
  intro c hc
  obtain ⟨hbegun, hserved⟩ := hinv.calls c hc
  rw [hnow]
  exact ⟨hbegun, h.served hbegun hserved⟩

theorem Extends.currents (h : s.Extends s') (hinv : s.Inv) :
    ∀ c ∈ s.currents, ∀ entry, c.answer = some entry →
      c.calledAt - entry.fetchedAtMillis ≤ s'.cacheTtlMillis ∧ s'.Fetched entry := by
  intro c hc entry hentry
  obtain ⟨hfresh, hfetched⟩ := hinv.currents c hc entry hentry
  rw [h.ttl]
  exact ⟨hfresh, h.fetched hfetched⟩

theorem Extends.fetched_le (h : s.Extends s') (hinv : s.Inv) (hnow : s'.now = s.now) :
    ∀ entry, s'.Fetched entry → entry.fetchedAtMillis ≤ s'.now := by
  intro entry ⟨i, hi⟩
  rw [hnow]
  rcases h.adds i entry hi with hold | hnew
  · exact hinv.fetched entry ⟨i, hold⟩
  · exact hnew.le

/-! ## One step -/

theorem startFetch_outcome (i : Nat) : s.startFetch.outcome i = s.outcome i := by
  unfold outcome startFetch
  dsimp only
  rcases lt_trichotomy i s.fetches.length with hlt | heq | hgt
  · rw [List.getElem?_append_left hlt]
  · subst heq
    simp
  · rw [List.getElem?_eq_none hgt.le, List.getElem?_eq_none]
    simp
    omega

theorem startFetch_pending {i : Nat} :
    s.startFetch.Pending i ↔ s.Pending i ∨ i = s.fetches.length := by
  unfold Pending startFetch
  dsimp only
  rcases lt_trichotomy i s.fetches.length with hlt | heq | hgt
  · rw [List.getElem?_append_left hlt, or_iff_left hlt.ne]
  · subst heq
    simp
  · rw [List.getElem?_eq_none hgt.le, List.getElem?_eq_none]
    · simp
      omega
    · simp
      omega

theorem extends_startFetch : s.Extends s.startFetch where
  ttl := rfl
  length_le := by simp [startFetch]
  keeps i o h := by rw [startFetch_outcome, h]
  adds i entry h := by
    rw [startFetch_outcome] at h
    exact .inl h

theorem Inv.startFetch (h : s.Inv) (hnone : s.inflightFetch = none) : s.startFetch.Inv where
  starters := by
    have hstarters := h.starters
    rw [hnone] at hstarters
    simp [GmoBalanceAdapter.startFetch, hstarters]
  known i hi := by
    cases hi
    simp [GmoBalanceAdapter.startFetch]
  pending i hi := by
    rcases startFetch_pending.mp hi with hold | hnew
    · cases hnone.symm.trans (h.pending i hold)
    · rw [hnew]
      rfl
  fetched := extends_startFetch.fetched_le h rfl
  cached entry hentry := extends_startFetch.fetched (h.cached entry hentry)
  calls := by
    refine List.forall_mem_cons.mpr ⟨⟨le_rfl, ?_⟩, extends_startFetch.calls h rfl⟩
    refine ⟨by simp [GmoBalanceAdapter.startFetch], fun entry hentry => ?_⟩
    -- the new request has no answer yet
    have hpending : s.startFetch.Pending s.fetches.length := startFetch_pending.mpr (.inr rfl)
    exact absurd hentry (hpending.not_outcome _)
  currents := extends_startFetch.currents h

/-- What `freshNow` does, by what it finds. -/
theorem freshNow_cases (s : GmoBalanceAdapter) :
    (∃ entry, s.freshEntry = some entry ∧
      s.freshNow = { s with calls := ⟨s.now, s.inFlight, .cached entry⟩ :: s.calls }) ∨
    s.freshEntry = none ∧
      ((∃ i, s.inflightFetch = some i ∧
        s.freshNow = { s with calls := ⟨s.now, s.inFlight, .joined i⟩ :: s.calls }) ∨
      s.inflightFetch = none ∧ s.freshNow = s.startFetch) := by
  unfold freshNow
  cases hentry : s.freshEntry with
  | some entry => exact .inl ⟨entry, rfl, rfl⟩
  | none =>
    refine .inr ⟨rfl, ?_⟩
    cases hi : s.inflightFetch with
    | some i => exact .inl ⟨i, rfl, rfl⟩
    | none => exact .inr ⟨rfl, rfl⟩

theorem Inv.freshNow (h : s.Inv) : s.freshNow.Inv := by
  rcases freshNow_cases s with ⟨entry, hentry, heq⟩ | ⟨-, ⟨i, hi, heq⟩ | ⟨hnone, heq⟩⟩
  · rw [heq]
    obtain ⟨hcache, hfresh⟩ := freshEntry_eq_some hentry
    exact h.note le_rfl ⟨hfresh, h.cached entry hcache⟩
  · rw [heq]
    refine h.note le_rfl fun hflight => ⟨h.known i hi, fun entry hentry => ?_⟩
    -- the request that is joined is the one without an answer
    obtain ⟨j, hj⟩ := inFlight_iff.mp hflight
    cases hi.symm.trans (h.pending j hj)
    exact absurd hentry (hj.not_outcome _)
  · rw [heq]
    exact h.startFetch hnone

/-- A request gets its answer. -/
def settle (s : GmoBalanceAdapter) (i : Nat) (o : FetchOutcome) : GmoBalanceAdapter :=
  { s with fetches := s.fetches.set i (some o) }

theorem settle_outcome_self {i : Nat} (h : i < s.fetches.length) (o : FetchOutcome) :
    (s.settle i o).outcome i = some o := by
  simp [outcome, settle, h]

theorem settle_outcome_ne {i j : Nat} (h : j ≠ i) (o : FetchOutcome) :
    (s.settle i o).outcome j = s.outcome j := by
  simp [outcome, settle, List.getElem?_set_ne h.symm]

theorem extends_settle {i : Nat} (h : s.Pending i) {answer : AssetsAnswer} :
    s.Extends (s.settle i (fetchOutcome answer s.now)) where
  ttl := rfl
  length_le := by simp [settle]
  keeps j o hj := by
    have hne : j ≠ i := fun heq => h.not_outcome o (heq ▸ hj)
    rw [settle_outcome_ne hne, hj]
  adds j entry hj := by
    by_cases heq : j = i
    · subst heq
      rw [settle_outcome_self h.lt, Option.some.injEq] at hj
      exact .inr (fetchOutcome_ok hj)
    · rw [settle_outcome_ne heq] at hj
      exact .inl hj

theorem Inv.settle (h : s.Inv) {i : Nat} (hi : s.Pending i) (answer : AssetsAnswer) :
    (s.settle i (fetchOutcome answer s.now)).Inv where
  starters := h.starters
  known j hj := by
    have := h.known j hj
    simpa [GmoBalanceAdapter.settle] using this
  pending j hj := by
    by_cases heq : j = i
    · subst heq
      exact h.pending j hi
    · apply h.pending j
      unfold Pending GmoBalanceAdapter.settle at hj
      rwa [List.getElem?_set_ne (Ne.symm heq)] at hj
  fetched := (extends_settle hi).fetched_le h rfl
  cached entry hentry := (extends_settle hi).fetched (h.cached entry hentry)
  calls := (extends_settle hi).calls h rfl
  currents := (extends_settle hi).currents h

/-- The cache takes a balance that a request has fetched. -/
theorem Inv.store (h : s.Inv) {entry : BalanceCacheEntry} (hentry : s.Fetched entry) :
    { s with cache := some entry }.Inv where
  starters := h.starters
  known := h.known
  pending := h.pending
  fetched := h.fetched
  cached other hother := by
    cases hother
    exact hentry
  calls := h.calls
  currents := h.currents

theorem Inv.respond (h : s.Inv) {i : Nat} (hi : s.Pending i) (answer : AssetsAnswer) :
    (s.respond i answer).Inv := by
  have hsettle := h.settle hi answer
  unfold GmoBalanceAdapter.respond
  cases hanswer : fetchOutcome answer s.now with
  | error error =>
    rw [hanswer] at hsettle
    exact hsettle
  | ok entry =>
    rw [hanswer] at hsettle
    exact hsettle.store ⟨i, settle_outcome_self hi.lt _⟩

theorem Inv.resume (h : s.Inv) {i : Nat} {o : FetchOutcome} (hi : i ∈ s.starters)
    (ho : s.outcome i = some o) : (s.resume i).Inv := by
  have hstarters := h.starters
  obtain ⟨j, hj⟩ : ∃ j, s.inflightFetch = some j := by
    cases hflight : s.inflightFetch with
    | none =>
      rw [hstarters, hflight] at hi
      cases hi
    | some j => exact ⟨j, rfl⟩
  rw [hj] at hstarters
  rw [hstarters] at hi
  cases List.mem_singleton.mp hi
  exact {
    starters := by simp [GmoBalanceAdapter.resume, hstarters]
    known := fun k hk => by cases hk
    pending := fun k hk => by
      -- the request that is over was the only one
      cases hj.symm.trans (h.pending k hk)
      exact absurd ho (Pending.not_outcome (s := s) hk o)
    fetched := h.fetched
    cached := h.cached
    calls := h.calls
    currents := h.currents }

/-- What a label does, and when it can. -/
theorem step_eq_some {a : BalanceLabel} (h : s.step a = some s') :
    s.now ≤ a.now ∧ { s with now := a.now }.act a = some s' := by
  unfold step at h
  split at h
  · rename_i hnow
    exact ⟨hnow, h⟩
  · cases h

theorem inv_step {a : BalanceLabel} (hinv : s.Inv) (h : s.step a = some s') : s'.Inv := by
  obtain ⟨hnow, hact⟩ := step_eq_some h
  have hadvanced := hinv.advance hnow
  cases a with
  | freshNow now =>
    cases hact
    exact hadvanced.freshNow
  | current now =>
    cases hact
    exact hadvanced.current
  | respond i answer now =>
    unfold act at hact
    dsimp only at hact
    split at hact
    · rename_i hpending
      cases hact
      exact hadvanced.respond (pending_iff.mp hpending) answer
    · cases hact
  | resume i now =>
    unfold act at hact
    dsimp only at hact
    split at hact
    · rename_i hready
      cases hact
      obtain ⟨hmem, hsettled⟩ := hready
      obtain ⟨o, ho⟩ := Option.isSome_iff_exists.mp hsettled
      exact hadvanced.resume hmem ho
    · cases hact

/-! ## Runs -/

theorem inv_of_reaches {cacheTtlMillis : Nat} {now : Int} {s₀ : GmoBalanceAdapter}
    {ok : GmoBalanceAdapter → BalanceLabel → Prop} (h0 : create cacheTtlMillis now = some s₀)
    (h : Reaches step ok s₀ s) : s.Inv :=
  h.invariant (inv_create h0) (fun _ _ _ hinv _ hstep => inv_step hinv hstep)

/-- How a call of `freshNow` has ended, if it has. -/
def result (s : GmoBalanceAdapter) (c : FreshCall) : Option FetchOutcome :=
  match c.answer with
  | .cached entry => some (.ok entry)
  | .started i | .joined i => s.outcome i

/-- Nobody waits for a request that was over when they called. -/
def Unblocked (s : GmoBalanceAdapter) : Prop :=
  ∀ c ∈ s.calls, c.late = false

instance : DecidablePred Unblocked := fun s =>
  inferInstanceAs (Decidable (∀ c ∈ s.calls, c.late = false))

/-- One request at a time, and fresh balances. -/
structure Sound (s : GmoBalanceAdapter) : Prop where
  /-- No two requests are without an answer. -/
  single : ∀ i j, s.Pending i → s.Pending j → i = j
  /-- A call resolves with a balance that was fresh when it began, or fetched since. -/
  resolved : ∀ c ∈ s.calls, ∀ entry, s.result c = some (.ok entry) →
    c.begunAt - entry.fetchedAtMillis ≤ s.cacheTtlMillis ∨ c.begunAt ≤ entry.fetchedAtMillis
  /-- It rejects because the request that it started or joined failed. -/
  rejected : ∀ c ∈ s.calls, ∀ error, s.result c = some (.error error) →
    ∃ i, (c.answer = .started i ∨ c.answer = .joined i) ∧ s.outcome i = some (.error error)
  current : ∀ c ∈ s.currents, ∀ entry, c.answer = some entry →
    c.calledAt - entry.fetchedAtMillis ≤ s.cacheTtlMillis ∧ s.Fetched entry
  /-- A failure leaves the cache as it is. -/
  cache : ∀ i answer now s' error, s.step (.respond i answer now) = some s' →
    fetchOutcome answer now = .error error → s'.cache = s.cache
  /-- When every request has its answer, a call starts another one or has a fresh balance. -/
  unblocked : s.Unblocked

/-- No call comes between the answer to a request and the call that started it, unless it has a
fresh balance in the cache. -/
def NotBetween (s : GmoBalanceAdapter) : BalanceLabel → Prop
  | .freshNow now => { s with now := now }.freshEntry = none →
      ∀ i, s.inflightFetch = some i → s.Pending i
  | _ => True

instance (s : GmoBalanceAdapter) (a : BalanceLabel) : Decidable (s.NotBetween a) :=
  match a with
  | .freshNow now => inferInstanceAs (Decidable ({ s with now := now }.freshEntry = none →
      ∀ i ∈ s.inflightFetch, s.Pending i))
  | .current _ | .respond _ _ _ | .resume _ _ => .isTrue trivial

theorem respond_cache_of_error {i : Nat} {answer : AssetsAnswer} {error : BalancePortError}
    (h : fetchOutcome answer s.now = .error error) : (s.respond i answer).cache = s.cache := by
  unfold respond
  rw [h]

/-- What holds in any run, once nobody waits for an old request. -/
theorem Inv.sound (h : s.Inv) (hunblocked : s.Unblocked) : s.Sound where
  single i j hi hj := Option.some.inj ((h.pending i hi).symm.trans (h.pending j hj))
  resolved c hc entry hresult := by
    have hserved := (h.calls c hc).2
    unfold Served at hserved
    unfold result at hresult
    cases hanswer : c.answer with
    | cached entry' =>
      rw [hanswer] at hserved hresult
      cases hresult
      exact .inl hserved.1
    | started i =>
      rw [hanswer] at hserved hresult
      exact .inr (hserved.2 entry hresult)
    | joined i =>
      rw [hanswer] at hserved hresult
      have hlate := hunblocked c hc
      unfold FreshCall.late at hlate
      rw [hanswer] at hlate
      exact .inr ((hserved (by simpa using hlate)).2 entry hresult)
  rejected c _ error hresult := by
    unfold result at hresult
    cases hanswer : c.answer with
    | cached entry =>
      rw [hanswer] at hresult
      cases hresult
    | started i =>
      rw [hanswer] at hresult
      exact ⟨i, .inl rfl, hresult⟩
    | joined i =>
      rw [hanswer] at hresult
      exact ⟨i, .inr rfl, hresult⟩
  current := h.currents
  cache i answer now s' error hstep herror := by
    obtain ⟨-, hact⟩ := step_eq_some hstep
    unfold act at hact
    dsimp only at hact
    split at hact
    · cases hact
      exact respond_cache_of_error (s := { s with now := now }) herror
    · cases hact
  unblocked := hunblocked

/-- Only `freshNow` adds a call. -/
theorem calls_step {a : BalanceLabel} (h : s.step a = some s') :
    (∃ now, a = .freshNow now) ∨ s'.calls = s.calls ∧ s.NotBetween a := by
  obtain ⟨-, hact⟩ := step_eq_some h
  cases a with
  | freshNow now => exact .inl ⟨now, rfl⟩
  | current now =>
    cases hact
    exact .inr ⟨rfl, trivial⟩
  | respond i answer now =>
    refine .inr ⟨?_, trivial⟩
    unfold act at hact
    dsimp only at hact
    split at hact
    · cases hact
      unfold respond
      split <;> rfl
    · cases hact
  | resume i now =>
    refine .inr ⟨?_, trivial⟩
    unfold act at hact
    dsimp only at hact
    split at hact
    · cases hact
      rfl
    · cases hact

/-- The call joins the only request that can be without an answer. -/
theorem unblocked_freshNow (hinv : s.Inv) :
    s.freshNow.Unblocked ↔ s.Unblocked ∧
      (s.freshEntry = none → ∀ i, s.inflightFetch = some i → s.Pending i) := by
  have hcons : ∀ {s' : GmoBalanceAdapter} {c : FreshCall}, s'.calls = c :: s.calls →
      (s'.Unblocked ↔ s.Unblocked ∧ c.late = false) := by
    intro s' c hcalls
    unfold Unblocked
    rw [hcalls, List.forall_mem_cons, and_comm]
  rcases freshNow_cases s with ⟨entry, hentry, heq⟩ | ⟨hstale, ⟨i, hi, heq⟩ | ⟨hnone, heq⟩⟩
  · rw [heq, hcons rfl]
    refine and_congr_right fun _ => iff_of_true rfl fun hnone => ?_
    cases hnone.symm.trans hentry
  · rw [heq, hcons rfl]
    refine and_congr_right fun _ => ?_
    have hlate : FreshCall.late ⟨s.now, s.inFlight, .joined i⟩ = !s.inFlight := rfl
    rw [hlate, Bool.not_eq_false', inFlight_iff]
    constructor
    · intro ⟨j, hj⟩ _ k hk
      cases hk.symm.trans (hinv.pending j hj)
      exact hj
    · intro hpending
      exact ⟨i, hpending hstale i hi⟩
  · rw [heq, hcons rfl]
    refine and_congr_right fun _ => iff_of_true rfl fun _ i hi => ?_
    cases hnone.symm.trans hi

theorem unblocked_step {a : BalanceLabel} (hinv : s.Inv) (h : s.step a = some s') :
    s'.Unblocked ↔ s.Unblocked ∧ s.NotBetween a := by
  rcases calls_step h with ⟨now, rfl⟩ | ⟨hcalls, hbetween⟩
  · obtain ⟨hnow, hact⟩ := step_eq_some h
    cases hact
    exact unblocked_freshNow (hinv.advance hnow)
  · unfold Unblocked
    rw [hcalls, and_iff_left hbetween]

/-- A run in which nobody waits for an old request is one with no call in between. -/
theorem unblocked_iff {cacheTtlMillis : Nat} {now : Int} {s₀ : GmoBalanceAdapter}
    (h0 : create cacheTtlMillis now = some s₀) (h : Reaches step (fun _ _ => True) s₀ s) :
    s.Unblocked ↔ Reaches step NotBetween s₀ s := by
  have hempty : s₀.Unblocked := by
    unfold create at h0
    split at h0
    · cases h0
    · cases h0
      intro c hc
      cases hc
  constructor
  · intro hunblocked
    induction h with
    | start => exact .start
    | next hbefore _ hstep ih =>
      obtain ⟨hbefore', hbetween⟩ :=
        (unblocked_step (inv_of_reaches h0 hbefore) hstep).mp hunblocked
      exact .next (ih hbefore') hbetween hstep
  · intro hreaches
    have hkeep : ∀ (s : GmoBalanceAdapter) (a : BalanceLabel) (s' : GmoBalanceAdapter),
        s.Inv ∧ s.Unblocked → s.NotBetween a → s.step a = some s' → s'.Inv ∧ s'.Unblocked := by
      intro s a s' hinv hbetween hstep
      exact ⟨inv_step hinv.1 hstep, (unblocked_step hinv.1 hstep).mpr ⟨hinv.2, hbetween⟩⟩
    exact (Reaches.invariant ⟨inv_create h0, hempty⟩ hkeep hreaches).2

/-- Everything holds in a state exactly when it was reached with no call between an answer and
the call that started its request. -/
theorem sound_iff {cacheTtlMillis : Nat} {now : Int} {s₀ : GmoBalanceAdapter}
    (h0 : create cacheTtlMillis now = some s₀) (h : Reaches step (fun _ _ => True) s₀ s) :
    s.Sound ↔ Reaches step NotBetween s₀ s := by
  rw [← unblocked_iff h0 h]
  exact ⟨Sound.unblocked, (inv_of_reaches h0 h).sound⟩

/-- A call after the first one has failed, before it has gone on and after. -/
def failedSchedule (resumed : Bool) : List BalanceLabel :=
  [.freshNow 0, .respond 0 (.error .other) 1] ++
    (if resumed then [.resume 0 1] else []) ++ [.freshNow 1]

/-- The second call is handed the failure of a request that is over. -/
theorem exists_settled_joined :
    ¬ ∀ (cacheTtlMillis : Nat) (now : Int) (s₀ s : GmoBalanceAdapter),
      create cacheTtlMillis now = some s₀ → Reaches step (fun _ _ => True) s₀ s → s.Sound := by
  intro h
  obtain ⟨s, hs, hlate⟩ : ∃ s, Reaches step (fun _ _ => True)
      ⟨5000, 0, none, none, [], [], [], []⟩ s ∧ ¬ s.Unblocked :=
    exists_reaches (failedSchedule false) (by decide +kernel)
  exact hlate (h 5000 0 _ s rfl hs).unblocked

/-- Once the first has gone on, the second starts a request of its own. -/
theorem sound_iff_resumed :
    ∃ s, Reaches step NotBetween ⟨5000, 0, none, none, [], [], [], []⟩ s ∧
      s.fetches.length = 2 ∧ s.Sound := by
  obtain ⟨s, hs, hlen⟩ : ∃ s, Reaches step NotBetween
      ⟨5000, 0, none, none, [], [], [], []⟩ s ∧ s.fetches.length = 2 :=
    exists_reaches (failedSchedule true) (by decide +kernel)
  have h0 : create 5000 0 = some ⟨5000, 0, none, none, [], [], [], []⟩ := rfl
  exact ⟨s, hs, hlen, (sound_iff h0 (hs.mono fun _ _ _ => trivial)).mpr hs⟩

end GmoBalanceAdapter

end Luchida
