import Mathlib.Logic.Function.Basic
import Mathlib.Tactic.Linarith
import Luchida.Runs

/- GmoWebSocketClient.ts: the reconnect chain, under any order of socket events, ping
   timeouts, reconnect timers, constructor failures and a call of `disconnect`.

   Three places go on with the chain: the `close` handler, the `catch` on the `connect` of the
   reconnect timer, and the timer itself. The first two look whether a timer is pending, so
   that one failure sets one timer whichever of them comes first.

   Between the end of a socket and its `close` event there is neither a connecting or open
   socket nor a timer: `terminate` only begins to close it (`exists_closing`). What never fails
   is that there is a timer or a socket whose `close` event is still to come
   (`one_reconnect_chain`). -/
namespace Luchida

open Runs

/-- `readyState` of a `WebSocket`. -/
inductive ReadyState where
  | connecting
  | opened
  | closing
  | closed
  deriving DecidableEq, Repr

/-- The promise of `connect`, and whether the `catch` of the reconnect timer has run. -/
inductive ConnectPromise where
  | pending
  | resolved
  | rejected
  | caught
  deriving DecidableEq, Repr

/-- A call of `connect` and its socket. Where the constructor threw there is no socket, and the
connection counts as failed and closed. -/
structure GmoConnection where
  readyState : ReadyState
  /-- The constructor threw. -/
  threw : Bool
  /-- The socket has emitted `open`. -/
  opened : Bool
  /-- The socket has emitted `error`. -/
  failed : Bool
  /-- The call is that of the reconnect timer. -/
  retry : Bool
  promise : ConnectPromise
  /-- How often `reconnectAttempts` was advanced for it. -/
  advances : Nat
  deriving DecidableEq, Repr

namespace GmoConnection

/-- Before its `connect`. -/
def unborn : GmoConnection := ⟨.closed, false, false, false, false, .pending, 0⟩

/-- A promise settles once. -/
def resolve (c : GmoConnection) : GmoConnection :=
  if c.promise = .pending then { c with promise := .resolved } else c

def reject (c : GmoConnection) : GmoConnection :=
  if c.promise = .pending then { c with promise := .rejected } else c

/-- The `catch` of the reconnect timer is still to run. -/
def CallbackPending (c : GmoConnection) : Prop := c.retry = true ∧ c.promise = .rejected

instance (c : GmoConnection) : Decidable c.CallbackPending := inferInstanceAs (Decidable (_ ∧ _))

/-- The socket has failed or closed. -/
def Dead (c : GmoConnection) : Prop := c.failed = true ∨ c.readyState = .closed

end GmoConnection

/-- A pending reconnect timer, and the connection for whose failure it was set. -/
structure ReconnectTimer where
  handle : Nat
  connection : Nat
  backoffMs : Nat
  deriving DecidableEq, Repr

/-- `GmoWebSocketClient`, with the timers and the connections there are. -/
structure GmoWebSocketClient where
  ws : Option Nat
  lastServerPingAt : Option Int
  /-- `serverPingWatchTimer` is set. -/
  serverPingWatch : Bool
  reconnectAttempts : Nat
  reconnectTimer : Option Nat
  intentionalClose : Bool
  timers : List ReconnectTimer
  nextHandle : Nat
  /-- How many connections there are. -/
  count : Nat
  connections : Nat → GmoConnection
  /-- How many timers had been set when `disconnect` was called. -/
  disconnected : Option Nat

inductive WebSocketLabel where
  /-- The socket opens. The callback may call `disconnect`. -/
  | opened (connection : Nat) (now : Int) (disconnects : Bool)
  | ping (connection : Nat) (now : Int)
  /-- The socket begins to close, for a close frame or a failure. -/
  | closing (connection : Nat)
  | error (connection : Nat)
  | close (connection : Nat) (disconnects : Bool)
  /-- The interval of the ping watch fires. -/
  | pingCheck (now : Int)
  /-- A reconnect timer fires, and the constructor may throw. -/
  | timer (handle : Nat) (throws : Bool)
  /-- The `catch` of the reconnect timer runs. -/
  | caught (connection : Nat)
  | disconnect

namespace GmoWebSocketClient

def maxBackoffMs : Nat := 300000

def serverPingTimeoutMs : Int := 180000

/-- The constructor. -/
def create : GmoWebSocketClient :=
  ⟨none, none, false, 0, none, false, [], 0, 0, fun _ => .unborn, none⟩

def setConnection (s : GmoWebSocketClient) (i : Nat) (c : GmoConnection) : GmoWebSocketClient :=
  { s with connections := Function.update s.connections i c }

/-- `connect`. -/
def connect (s : GmoWebSocketClient) (retry throws : Bool) : GmoWebSocketClient :=
  let i := s.count
  let s := { s with intentionalClose := false, count := i + 1 }
  if throws then s.setConnection i ⟨.closed, true, false, true, retry, .rejected, 0⟩
  else
    { s with ws := some i }.setConnection i
      ⟨.connecting, false, false, false, retry, .pending, 0⟩

/-- `stopServerPingWatch`. -/
def stopServerPingWatch (s : GmoWebSocketClient) : GmoWebSocketClient :=
  { s with serverPingWatch := false, lastServerPingAt := none }

/-- `startServerPingWatch`. -/
def startServerPingWatch (s : GmoWebSocketClient) (now : Int) : GmoWebSocketClient :=
  { s.stopServerPingWatch with serverPingWatch := true, lastServerPingAt := some now }

/-- `clearReconnectTimer`. -/
def clearReconnectTimer (s : GmoWebSocketClient) : GmoWebSocketClient :=
  match s.reconnectTimer with
  | some handle =>
    { s with timers := s.timers.filter (fun t => t.handle != handle), reconnectTimer := none }
  | none => s

/-- The timer of `scheduleReconnect`, once the old one is cleared. -/
def setReconnectTimer (s : GmoWebSocketClient) (i : Nat) : GmoWebSocketClient :=
  { s with
    reconnectAttempts := s.reconnectAttempts + 1
    timers := ⟨s.nextHandle, i, min (1000 * 2 ^ s.reconnectAttempts) maxBackoffMs⟩ :: s.timers
    reconnectTimer := some s.nextHandle
    nextHandle := s.nextHandle + 1 }.setConnection i
      { s.connections i with advances := (s.connections i).advances + 1 }

/-- `scheduleReconnect`, for the failure of a connection. -/
def scheduleReconnect (s : GmoWebSocketClient) (i : Nat) : GmoWebSocketClient :=
  s.clearReconnectTimer.setReconnectTimer i

/-- The check before both calls of `scheduleReconnect`. -/
def goOn (s : GmoWebSocketClient) (i : Nat) : GmoWebSocketClient :=
  if s.intentionalClose = false ∧ s.reconnectTimer = none then s.scheduleReconnect i else s

/-- A socket begins to close: `close` and `terminate` of `ws`. -/
def shut (s : GmoWebSocketClient) (i : Nat) : GmoWebSocketClient :=
  match (s.connections i).readyState with
  | .connecting | .opened => s.setConnection i { s.connections i with readyState := .closing }
  | .closing | .closed => s

/-- `disconnect` before it closes the socket. -/
def silence (s : GmoWebSocketClient) : GmoWebSocketClient :=
  { s with
    intentionalClose := true
    disconnected := s.disconnected.or (some s.nextHandle) }.stopServerPingWatch.clearReconnectTimer

/-- `disconnect`. -/
def disconnect (s : GmoWebSocketClient) : GmoWebSocketClient :=
  match s.silence.ws with
  | some i => { s.silence.shut i with ws := none }
  | none => s.silence

/-- `disconnect`, where a callback calls it. -/
def disconnectIf (s : GmoWebSocketClient) (disconnects : Bool) : GmoWebSocketClient :=
  if disconnects then s.disconnect else s

/-- The `open` handler. -/
def handleOpen (s : GmoWebSocketClient) (i : Nat) (now : Int) (disconnects : Bool) :
    GmoWebSocketClient :=
  let s := s.setConnection i { s.connections i with readyState := .opened, opened := true }
  let s := { s with reconnectAttempts := 0 }.startServerPingWatch now
  let s := s.disconnectIf disconnects
  s.setConnection i (s.connections i).resolve

/-- The `ping` handler. -/
def handlePing (s : GmoWebSocketClient) (now : Int) : GmoWebSocketClient :=
  { s with lastServerPingAt := some now }

/-- `this.ws?.readyState`. -/
def wsReadyState (s : GmoWebSocketClient) : Option ReadyState :=
  s.ws.map (fun i => (s.connections i).readyState)

/-- The `error` handler. -/
def handleError (s : GmoWebSocketClient) (i : Nat) : GmoWebSocketClient :=
  let s := s.setConnection i { s.connections i with failed := true }
  if s.wsReadyState = some .connecting then s.setConnection i (s.connections i).reject else s

/-- The `close` handler. -/
def handleClose (s : GmoWebSocketClient) (i : Nat) (disconnects : Bool) : GmoWebSocketClient :=
  let s := s.setConnection i { s.connections i with readyState := .closed }
  (s.stopServerPingWatch.disconnectIf disconnects).goOn i

/-- The callback of the ping watch. -/
def checkServerPing (s : GmoWebSocketClient) (now : Int) : GmoWebSocketClient :=
  match s.ws, s.lastServerPingAt with
  | some i, some lastServerPingAt =>
    if (s.connections i).readyState = .opened ∧ serverPingTimeoutMs ≤ now - lastServerPingAt then
      s.shut i
    else s
  | _, _ => s

/-- The callback of the reconnect timer. -/
def fireTimer (s : GmoWebSocketClient) (t : ReconnectTimer) (throws : Bool) :
    GmoWebSocketClient :=
  { s with timers := s.timers.erase t, reconnectTimer := none }.connect true throws

/-- The `catch` of the reconnect timer. -/
def catchRejection (s : GmoWebSocketClient) (i : Nat) : GmoWebSocketClient :=
  (s.setConnection i { s.connections i with promise := .caught }).goOn i

/-- A socket emits `open` once, and neither after its failure nor when it has begun to close.
Nothing comes after its `close`. -/
def step (s : GmoWebSocketClient) : WebSocketLabel → Option GmoWebSocketClient
  | .opened i now disconnects =>
    if (s.connections i).readyState = .connecting ∧ (s.connections i).failed = false then
      some (s.handleOpen i now disconnects)
    else none
  | .ping i now => if (s.connections i).readyState = .closed then none else some (s.handlePing now)
  | .closing i => if (s.connections i).readyState = .closed then none else some (s.shut i)
  | .error i => if (s.connections i).readyState = .closed then none else some (s.handleError i)
  | .close i disconnects =>
    if (s.connections i).readyState = .closed then none else some (s.handleClose i disconnects)
  | .pingCheck now => if s.serverPingWatch then some (s.checkServerPing now) else none
  | .timer handle throws =>
    (s.timers.find? (fun t => t.handle == handle)).map (fun t => s.fireTimer t throws)
  | .caught i => if (s.connections i).CallbackPending then some (s.catchRejection i) else none
  | .disconnect => some s.disconnect

/-! ## What is asked of it -/

/-- The first `connect`, whose socket was created. -/
def started : GmoWebSocketClient := create.connect false false

/-- A promise callback is still to run. -/
def AnyCallbackPending (s : GmoWebSocketClient) : Prop :=
  ∃ i < s.count, (s.connections i).CallbackPending

instance (s : GmoWebSocketClient) : Decidable s.AnyCallbackPending :=
  inferInstanceAs (Decidable (∃ i, i < s.count ∧ _))

/-- What is assumed of a timer that fires: no promise callback is pending, and the socket for
whose failure it was set has emitted `close`. -/
def ClosesFirst (s : GmoWebSocketClient) : WebSocketLabel → Prop
  | .timer handle _ => ¬ s.AnyCallbackPending ∧
      ∀ t ∈ s.timers, t.handle = handle → (s.connections t.connection).readyState = .closed
  | _ => True

instance (s : GmoWebSocketClient) : DecidablePred s.ClosesFirst
  | .timer .. => inferInstanceAs (Decidable (_ ∧ _))
  | .opened .. | .ping .. | .closing _ | .error _ | .close .. | .pingCheck _ | .caught _
  | .disconnect => inferInstanceAs (Decidable True)

/-- How often the first `n` connections have advanced the attempts since the last `open`. -/
def advancesSinceOpen (connections : Nat → GmoConnection) : Nat → Nat
  | 0 => 0
  | n + 1 => (connections n).advances +
      if (connections n).opened then 0 else advancesSinceOpen connections n

/-- One reconnect chain that never dies. `live` says which sockets keep it. -/
structure ReconnectChain (live : ReadyState → Prop) (s : GmoWebSocketClient) : Prop where
  one_timer : s.timers.length ≤ 1
  /-- A timer and a socket that has neither failed nor closed exclude each other. -/
  one_chain : s.timers ≠ [] → ∀ i < s.count, (s.connections i).Dead
  le_once : ∀ i < s.count, (s.connections i).advances ≤ 1
  dead : ∀ i < s.count, (s.connections i).advances = 1 → (s.connections i).Dead
  /-- A socket that has closed has advanced the attempts, and so has a constructor that threw,
  once the callback has run. -/
  once : s.disconnected = none → ∀ i < s.count, (s.connections i).readyState = .closed →
    ((s.connections i).threw = true → ¬ (s.connections i).CallbackPending) →
    (s.connections i).advances = 1
  attempts : s.reconnectAttempts = advancesSinceOpen s.connections s.count
  alive : s.disconnected = none → ¬ s.AnyCallbackPending →
    (∃ i < s.count, live (s.connections i).readyState) ∨ s.timers ≠ []
  after_disconnect : ∀ n ∈ s.disconnected, s.timers = [] ∧ s.nextHandle = n

end GmoWebSocketClient

/-! ## One connection -/

namespace GmoConnection

variable {c : GmoConnection}

/-- Something of the connection is still to come that goes on with the chain. -/
def Owes (c : GmoConnection) : Prop :=
  c.readyState ≠ .closed ∨ c.threw = true ∧ c.CallbackPending

/-- What holds of a connection at any time. -/
structure Counted (c : GmoConnection) : Prop where
  le_one : c.advances ≤ 1
  dead : c.advances = 1 → c.Dead
  rejected : c.promise = .rejected → c.failed = true

/-- What holds of a connection that has been followed by another one. -/
structure Over (c : GmoConnection) : Prop where
  closed : c.readyState = .closed
  settled : ¬ c.CallbackPending
  advances : c.advances = 1

theorem Counted.advances_eq_zero (h : c.Counted) (hdead : ¬ c.Dead) : c.advances = 0 := by
  have := h.le_one
  by_contra hne
  exact hdead (h.dead (by omega))

theorem Over.dead (h : c.Over) : c.Dead := .inr h.closed

theorem CallbackPending.dead (h : c.CallbackPending) (hc : c.Counted) : c.Dead :=
  .inl (hc.rejected h.2)

end GmoConnection

namespace GmoWebSocketClient

open GmoConnection

variable {s s' : GmoWebSocketClient} {n : Nat} {owed : Prop}

/-! ## The invariant -/

/-- No timer is pending, and the newest connection has not advanced the attempts. -/
structure Quiet (owed : Prop) (n : Nat) (s : GmoWebSocketClient) : Prop where
  timers : s.timers = []
  reconnectTimer : s.reconnectTimer = none
  advances : (s.connections n).advances = 0
  owes : owed ∨ (s.connections n).Owes

/-- A timer is pending for the newest connection. -/
structure Waiting (n : Nat) (s : GmoWebSocketClient) (t : ReconnectTimer) : Prop where
  timers : s.timers = [t]
  reconnectTimer : s.reconnectTimer = some t.handle
  connection : t.connection = n
  advances : (s.connections n).advances = 1

/-- `disconnect` has been called, after `m` timers. -/
structure Disconnected (s : GmoWebSocketClient) (m : Nat) : Prop where
  intentionalClose : s.intentionalClose = true
  timers : s.timers = []
  reconnectTimer : s.reconnectTimer = none
  nextHandle : s.nextHandle = m

/-- Where the chain is. -/
def Phase (owed : Prop) (n : Nat) (s : GmoWebSocketClient) : Option Nat → Prop
  | none => s.intentionalClose = false ∧ (Quiet owed n s ∨ ∃ t, Waiting n s t)
  | some m => Disconnected s m

/-- The connections there are, `n` being the newest. -/
structure Ledger (n : Nat) (s : GmoWebSocketClient) : Prop where
  count : s.count = n + 1
  unborn : ∀ i, n < i → s.connections i = unborn
  past : ∀ i, i < n → (s.connections i).Over
  counted : (s.connections n).Counted
  attempts : s.reconnectAttempts = advancesSinceOpen s.connections s.count

/-- What every step keeps. Where `owed` is given, a handler is about to go on with the chain. -/
structure Inv (owed : Prop) (n : Nat) (s : GmoWebSocketClient) : Prop extends Ledger n s where
  phase : Phase owed n s s.disconnected

/-- Only the newest connection has a socket that has not closed, or a callback that is still to
run. -/
theorem Ledger.eq_newest (h : s.Ledger n) {i : Nat}
    (hi : (s.connections i).readyState ≠ .closed ∨ (s.connections i).CallbackPending) :
    i = n := by
  rcases Nat.lt_trichotomy i n with hlt | heq | hlt
  · obtain ⟨hclosed, hsettled, -⟩ := h.past i hlt
    rcases hi with hi | hi
    · exact absurd hclosed hi
    · exact absurd hi hsettled
  · exact heq
  · rw [h.unborn i hlt] at hi
    rcases hi with hi | hi
    · exact absurd rfl hi
    · cases hi.1

/-- A step that leaves the timers alone keeps the phase, if what the newest connection owes is
still owed. -/
theorem Phase.keep {owed' : Prop} {d : Option Nat} (h : Phase owed n s d)
    (hintent : s'.intentionalClose = s.intentionalClose) (htimers : s'.timers = s.timers)
    (htimer : s'.reconnectTimer = s.reconnectTimer) (hnext : s'.nextHandle = s.nextHandle)
    (hadvances : (s'.connections n).advances = (s.connections n).advances)
    (howes : owed ∨ (s.connections n).Owes → owed' ∨ (s'.connections n).Owes) :
    Phase owed' n s' d := by
  cases d with
  | some m =>
    exact ⟨hintent.trans h.intentionalClose, htimers.trans h.timers,
      htimer.trans h.reconnectTimer, hnext.trans h.nextHandle⟩
  | none =>
    obtain ⟨hopen, hquiet | ⟨t, hwaiting⟩⟩ := h
    · exact ⟨hintent.trans hopen, .inl ⟨htimers.trans hquiet.timers,
        htimer.trans hquiet.reconnectTimer, hadvances.trans hquiet.advances,
        howes hquiet.owes⟩⟩
    · exact ⟨hintent.trans hopen, .inr ⟨t, htimers.trans hwaiting.timers,
        htimer.trans hwaiting.reconnectTimer, hwaiting.connection,
        hadvances.trans hwaiting.advances⟩⟩

/-- The ping watch and `ws` are no matter of the chain. -/
theorem Inv.watch (h : s.Inv owed n) (ws : Option Nat) (watch : Bool) (pingAt : Option Int) :
    { s with ws := ws, serverPingWatch := watch, lastServerPingAt := pingAt }.Inv owed n where
  count := h.count
  unborn := h.unborn
  past := h.past
  counted := h.counted
  attempts := h.attempts
  phase := h.phase.keep rfl rfl rfl rfl rfl id

theorem advancesSinceOpen_update_self (connections : Nat → GmoConnection) (n : Nat)
    (c : GmoConnection) :
    advancesSinceOpen (Function.update connections n c) (n + 1) =
      c.advances + if c.opened then 0 else advancesSinceOpen connections n := by
  have hbelow : ∀ m ≤ n,
      advancesSinceOpen (Function.update connections n c) m = advancesSinceOpen connections m := by
    intro m hm
    induction m with
    | zero => rfl
    | succ m ih =>
      have hne : m ≠ n := by omega
      simp only [advancesSinceOpen, Function.update_of_ne hne, ih (by omega)]
  rw [advancesSinceOpen, Function.update_self, hbelow n (Nat.le_refl n)]

/-- The newest connection changes, and the attempts with it. -/
theorem Ledger.update (h : s.Ledger n) {c : GmoConnection} (hc : c.Counted)
    (hcount : s'.count = s.count)
    (hconnections : s'.connections = Function.update s.connections n c)
    (hattempts : s'.reconnectAttempts =
      c.advances + if c.opened then 0 else advancesSinceOpen s.connections n) :
    s'.Ledger n where
  count := hcount.trans h.count
  unborn i hi := by
    rw [hconnections, Function.update_of_ne (by omega)]
    exact h.unborn i hi
  past i hi := by
    rw [hconnections, Function.update_of_ne (by omega)]
    exact h.past i hi
  counted := by
    rw [hconnections, Function.update_self]
    exact hc
  attempts := by
    rw [hattempts, hconnections, hcount, h.count, advancesSinceOpen_update_self]

theorem Ledger.attempts_eq (h : s.Ledger n) : s.reconnectAttempts =
    (s.connections n).advances +
      if (s.connections n).opened then 0 else advancesSinceOpen s.connections n := by
  rw [h.attempts, h.count, advancesSinceOpen]

/-- The newest connection changes, what it owes being still owed. -/
theorem Inv.setConnection {owed' : Prop} (h : s.Inv owed n) {c : GmoConnection}
    (hc : c.Counted) (hadvances : c.advances = (s.connections n).advances)
    (hopened : c.opened = (s.connections n).opened)
    (howes : owed ∨ (s.connections n).Owes → owed' ∨ c.Owes) :
    (s.setConnection n c).Inv owed' n where
  toLedger := h.toLedger.update hc rfl rfl (by
    rw [hadvances, hopened]
    exact h.attempts_eq)
  phase := by
    refine h.phase.keep rfl rfl rfl rfl ?_ fun hold => ?_
    · simpa [GmoWebSocketClient.setConnection] using hadvances
    · simpa [GmoWebSocketClient.setConnection] using howes hold

/-! ## The steps -/

/-- A socket that begins to close has not closed. -/
theorem Inv.shut (h : s.Inv owed n) (i : Nat) : (s.shut i).Inv owed n := by
  have hclosing : (s.connections i).readyState ≠ .closed →
      (s.setConnection i { s.connections i with readyState := .closing }).Inv owed n := by
    intro hopen
    obtain rfl := h.eq_newest (.inl hopen)
    refine h.setConnection ⟨h.counted.le_one, fun hone => ?_, h.counted.rejected⟩ rfl rfl ?_
    · exact .inl ((h.counted.dead hone).resolve_right hopen)
    · exact fun _ => .inr (.inl (by simp))
  unfold GmoWebSocketClient.shut
  split
  · rename_i hstate
    exact hclosing (by simp [hstate])
  · rename_i hstate
    exact hclosing (by simp [hstate])
  · exact h
  · exact h

/-- What has closed stays closed. -/
theorem shut_closed {i : Nat} (hi : (s.connections i).readyState = .closed) (j : Nat) :
    ((s.shut j).connections i).readyState = .closed := by
  have hne : (s.connections j).readyState ≠ .closed → i ≠ j := by
    intro hj heq
    exact hj (heq ▸ hi)
  unfold GmoWebSocketClient.shut
  split
  · rename_i hstate
    simpa [GmoWebSocketClient.setConnection, hne (by simp [hstate])] using hi
  · rename_i hstate
    simpa [GmoWebSocketClient.setConnection, hne (by simp [hstate])] using hi
  · exact hi
  · exact hi

/-- The pending timer is the one of `reconnectTimer`. -/
def Matched (s : GmoWebSocketClient) : Prop :=
  s.timers = [] ∧ s.reconnectTimer = none ∨
  ∃ t, s.timers = [t] ∧ s.reconnectTimer = some t.handle

theorem Phase.matched {d : Option Nat} (h : Phase owed n s d) : s.Matched := by
  cases d with
  | some m => exact .inl ⟨h.timers, h.reconnectTimer⟩
  | none =>
    obtain ⟨-, hquiet | ⟨t, hwaiting⟩⟩ := h
    · exact .inl ⟨hquiet.timers, hquiet.reconnectTimer⟩
    · exact .inr ⟨t, hwaiting.timers, hwaiting.reconnectTimer⟩

theorem Matched.clearReconnectTimer (h : s.Matched) :
    s.clearReconnectTimer = { s with timers := [], reconnectTimer := none } := by
  unfold GmoWebSocketClient.clearReconnectTimer
  rcases h with ⟨htimers, htimer⟩ | ⟨t, htimers, htimer⟩
  · rw [htimer, ← htimers]
    exact congrArg (fun r => { s with reconnectTimer := r }) htimer
  · rw [htimer, htimers]
    simp

theorem Matched.silence (h : s.Matched) : s.silence =
    { s with
      serverPingWatch := false
      lastServerPingAt := none
      intentionalClose := true
      timers := []
      reconnectTimer := none
      disconnected := s.disconnected.or (some s.nextHandle) } := by
  have hmatched : ({ s with
    intentionalClose := true
    disconnected := s.disconnected.or (some s.nextHandle) }.stopServerPingWatch).Matched := h
  exact hmatched.clearReconnectTimer

/-- After `disconnect` nothing is owed. -/
theorem Inv.silence {owed' : Prop} (h : s.Inv owed n) : s.silence.Inv owed' n := by
  rw [h.phase.matched.silence]
  refine ⟨⟨h.count, h.unborn, h.past, h.counted, h.attempts⟩, ?_⟩
  have hphase := h.phase
  cases hdisc : s.disconnected with
  | some m =>
    rw [hdisc] at hphase
    exact ⟨rfl, rfl, rfl, hphase.nextHandle⟩
  | none => exact ⟨rfl, rfl, rfl, rfl⟩

theorem Inv.disconnect {owed' : Prop} (h : s.Inv owed n) : s.disconnect.Inv owed' n := by
  unfold GmoWebSocketClient.disconnect
  split
  · exact (h.silence.shut _).watch _ _ _
  · exact h.silence

theorem Inv.disconnectIf (h : s.Inv owed n) (disconnects : Bool) :
    (s.disconnectIf disconnects).Inv owed n := by
  unfold GmoWebSocketClient.disconnectIf
  split
  · exact h.disconnect
  · exact h

theorem disconnectIf_closed (h : s.Matched) {i : Nat}
    (hi : (s.connections i).readyState = .closed) (disconnects : Bool) :
    ((s.disconnectIf disconnects).connections i).readyState = .closed := by
  have hsilence : (s.silence.connections i).readyState = .closed := by
    rw [h.silence]
    exact hi
  unfold GmoWebSocketClient.disconnectIf GmoWebSocketClient.disconnect
  split
  · split
    · exact shut_closed hsilence _
    · exact hsilence
  · exact hi

/-! ### The socket's events -/

/-- The promise of the newest connection is settled. -/
theorem Inv.setPromise {owed' : Prop} (h : s.Inv owed n) (p : ConnectPromise)
    (hp : p = .rejected → (s.connections n).failed = true)
    (howes : owed ∨ (s.connections n).Owes →
      owed' ∨ { s.connections n with promise := p }.Owes) :
    (s.setConnection n { s.connections n with promise := p }).Inv owed' n :=
  h.setConnection ⟨h.counted.le_one, h.counted.dead, hp⟩ rfl rfl howes

theorem Inv.resolve (h : s.Inv owed n) :
    (s.setConnection n (s.connections n).resolve).Inv owed n := by
  unfold GmoConnection.resolve
  split
  · rename_i hpending
    refine h.setPromise .resolved (by simp) fun howes => ?_
    simpa [Owes, CallbackPending, hpending] using howes
  · exact h.setConnection h.counted rfl rfl id

theorem Inv.reject (h : s.Inv owed n) (hfailed : (s.connections n).failed = true) :
    (s.setConnection n (s.connections n).reject).Inv owed n := by
  unfold GmoConnection.reject
  split
  · rename_i hpending
    refine h.setPromise .rejected (fun _ => hfailed) fun howes => ?_
    rcases howes with howed | hopen | ⟨-, -, hrejected⟩
    · exact .inl howed
    · exact .inr (.inl hopen)
    · cases hpending.symm.trans hrejected
  · exact h.setConnection h.counted rfl rfl id

/-- The attempts start again when a socket opens, which has not failed. -/
theorem Inv.handleOpen (h : s.Inv owed n) {i : Nat}
    (hstate : (s.connections i).readyState = .connecting)
    (hfailed : (s.connections i).failed = false) (now : Int) (disconnects : Bool) :
    (s.handleOpen i now disconnects).Inv owed n := by
  have hi : i = n := h.eq_newest (.inl (by simp [hstate]))
  subst hi
  have hzero : (s.connections i).advances = 0 :=
    h.counted.advances_eq_zero (by simp [Dead, hstate, hfailed])
  let c := { s.connections i with readyState := .opened, opened := true }
  have hcounted : c.Counted :=
    ⟨h.counted.le_one, fun hone => by simp_all [c], h.counted.rejected⟩
  have hopened : ({ s.setConnection i c with reconnectAttempts := 0 }).Inv owed i := by
    refine ⟨h.toLedger.update hcounted rfl rfl (by simp [c, hzero]), ?_⟩
    refine h.phase.keep rfl rfl rfl rfl ?_ fun _ => .inr (.inl ?_)
    · simp [GmoWebSocketClient.setConnection, c]
    · simp [GmoWebSocketClient.setConnection, c]
  exact ((hopened.watch _ _ _).disconnectIf disconnects).resolve

/-- A socket that fails has not closed, and only then is its promise rejected. -/
theorem Inv.handleError (h : s.Inv owed n) {i : Nat}
    (hopen : (s.connections i).readyState ≠ .closed) : (s.handleError i).Inv owed n := by
  have hi : i = n := h.eq_newest (.inl hopen)
  subst hi
  have hfailed : (s.setConnection i { s.connections i with failed := true }).Inv owed i :=
    h.setConnection ⟨h.counted.le_one, fun _ => .inl rfl, fun _ => rfl⟩ rfl rfl
      fun _ => .inr (.inl hopen)
  unfold GmoWebSocketClient.handleError
  dsimp only
  split
  · exact hfailed.reject (by simp [GmoWebSocketClient.setConnection])
  · exact hfailed

theorem Inv.checkServerPing (h : s.Inv owed n) (now : Int) :
    (s.checkServerPing now).Inv owed n := by
  unfold GmoWebSocketClient.checkServerPing
  split
  · split
    · exact h.shut _
    · exact h
  · exact h

/-! ### The chain goes on -/

/-- The timer for the newest connection. -/
theorem Inv.setReconnectTimer (h : s.Inv True n) (hdisc : s.disconnected = none)
    (hintent : s.intentionalClose = false) (hquiet : Quiet True n s)
    (hdead : (s.connections n).Dead) : (s.setReconnectTimer n).Inv False n := by
  have hcounted : { s.connections n with
      advances := (s.connections n).advances + 1 }.Counted :=
    ⟨by simp [hquiet.advances], fun _ => hdead, h.counted.rejected⟩
  refine ⟨h.toLedger.update hcounted rfl rfl ?_, ?_⟩
  · change s.reconnectAttempts + 1 = _
    rw [h.attempts_eq]
    dsimp only
    omega
  · change Phase False n _ s.disconnected
    rw [hdisc]
    refine ⟨hintent, .inr ⟨⟨s.nextHandle, n, _⟩,
      congrArg (List.cons _) hquiet.timers, rfl, rfl, ?_⟩⟩
    simp [GmoWebSocketClient.setReconnectTimer, GmoWebSocketClient.setConnection, hquiet.advances]

/-- The check sets a timer where one is owed, and nowhere else. -/
theorem Inv.goOn (h : s.Inv True n) (hdead : (s.connections n).Dead) :
    (s.goOn n).Inv False n := by
  have hphase := h.phase
  unfold GmoWebSocketClient.goOn
  cases hdisc : s.disconnected with
  | some m =>
    rw [hdisc] at hphase
    rw [if_neg (by simp [hphase.intentionalClose])]
    refine ⟨h.toLedger, ?_⟩
    rw [hdisc]
    exact hphase
  | none =>
    rw [hdisc] at hphase
    obtain ⟨hintent, hquiet | ⟨t, hwaiting⟩⟩ := hphase
    · rw [if_pos ⟨hintent, hquiet.reconnectTimer⟩]
      have hset : s.scheduleReconnect n = s.setReconnectTimer n := by
        simp [scheduleReconnect, GmoWebSocketClient.clearReconnectTimer, hquiet.reconnectTimer]
      rw [hset]
      exact h.setReconnectTimer hdisc hintent hquiet hdead
    · rw [if_neg (by simp [hwaiting.reconnectTimer])]
      refine ⟨h.toLedger, ?_⟩
      rw [hdisc]
      exact ⟨hintent, .inr ⟨t, hwaiting⟩⟩

theorem Inv.handleClose (h : s.Inv owed n) {i : Nat}
    (hopen : (s.connections i).readyState ≠ .closed) (disconnects : Bool) :
    (s.handleClose i disconnects).Inv False n := by
  have hi : i = n := h.eq_newest (.inl hopen)
  subst hi
  have hclosed : (s.setConnection i { s.connections i with readyState := .closed }).Inv True i :=
    h.setConnection ⟨h.counted.le_one, fun _ => .inr rfl, h.counted.rejected⟩ rfl rfl
      fun _ => .inl trivial
  have hwatch := hclosed.watch s.ws false none
  refine (hwatch.disconnectIf disconnects).goOn (.inr ?_)
  exact disconnectIf_closed hwatch.phase.matched
    (by simp [GmoWebSocketClient.setConnection]) disconnects

theorem Inv.catchRejection (h : s.Inv owed n) {i : Nat}
    (hpending : (s.connections i).CallbackPending) : (s.catchRejection i).Inv False n := by
  have hi : i = n := h.eq_newest (.inr hpending)
  subst hi
  have hcaught : (s.setConnection i { s.connections i with promise := .caught }).Inv True i :=
    h.setPromise .caught (by simp) fun _ => .inl trivial
  refine hcaught.goOn ?_
  have hdead := hpending.dead h.counted
  simpa [GmoWebSocketClient.setConnection, Dead] using hdead

/-- One more connection, when the newest one is over. -/
theorem Ledger.connect (h : s.Ledger n) (hover : (s.connections n).Over) {c : GmoConnection}
    (hc : c.Counted) (hadvances : c.advances = 0) (hopened : c.opened = false)
    (hcount : s'.count = s.count + 1)
    (hconnections : s'.connections = Function.update s.connections s.count c)
    (hattempts : s'.reconnectAttempts = s.reconnectAttempts) : s'.Ledger (n + 1) where
  count := by rw [hcount, h.count]
  unborn i hi := by
    rw [hconnections, h.count, Function.update_of_ne (by omega)]
    exact h.unborn i (by omega)
  past i hi := by
    rw [hconnections, h.count, Function.update_of_ne (by omega)]
    by_cases heq : i = n
    · rw [heq]
      exact hover
    · exact h.past i (by omega)
  counted := by
    rw [hconnections, h.count, Function.update_self]
    exact hc
  attempts := by
    rw [hattempts, hconnections, hcount, h.count, advancesSinceOpen_update_self, h.attempts,
      h.count]
    simp [hadvances, hopened]

/-- A new connection owes what comes of it. -/
theorem Ledger.inv_connection (h : s.Ledger n) (hover : (s.connections n).Over)
    (htimers : s.timers = []) (htimer : s.reconnectTimer = none) (hdisc : s.disconnected = none)
    (ws : Option Nat) {c : GmoConnection} (hc : c.Counted) (hadvances : c.advances = 0)
    (hopened : c.opened = false) (howes : c.Owes) :
    ({ s with intentionalClose := false, count := s.count + 1, ws := ws }.setConnection
      s.count c).Inv False (n + 1) := by
  have hnew : Function.update s.connections s.count c (n + 1) = c := by
    rw [h.count, Function.update_self]
  refine ⟨h.connect hover hc hadvances hopened rfl rfl rfl, ?_⟩
  change Phase False (n + 1) _ s.disconnected
  rw [hdisc]
  refine ⟨rfl, .inl ⟨htimers, htimer, ?_, .inr ?_⟩⟩
  · exact (congrArg GmoConnection.advances hnew).trans hadvances
  · change (Function.update s.connections s.count c (n + 1)).Owes
    rw [hnew]
    exact howes

theorem Ledger.inv_connect (h : s.Ledger n) (hover : (s.connections n).Over)
    (htimers : s.timers = []) (htimer : s.reconnectTimer = none) (hdisc : s.disconnected = none)
    (throws : Bool) : (s.connect true throws).Inv False (n + 1) := by
  unfold GmoWebSocketClient.connect
  dsimp only
  split
  · exact h.inv_connection hover htimers htimer hdisc s.ws ⟨by simp, by simp, by simp⟩ rfl rfl
      (.inr ⟨rfl, rfl, rfl⟩)
  · exact h.inv_connection hover htimers htimer hdisc (some s.count) ⟨by simp, by simp, by simp⟩
      rfl rfl (.inl (by simp))

/-- The reconnect timer makes the next connection. -/
theorem Inv.fireTimer (h : s.Inv False n) {t : ReconnectTimer} (ht : t ∈ s.timers)
    (hpending : ¬ s.AnyCallbackPending)
    (hclosed : (s.connections t.connection).readyState = .closed) (throws : Bool) :
    (s.fireTimer t throws).Inv False (n + 1) := by
  have hphase := h.phase
  cases hdisc : s.disconnected with
  | some m =>
    rw [hdisc] at hphase
    rw [hphase.timers] at ht
    cases ht
  | none =>
    rw [hdisc] at hphase
    obtain ⟨-, hquiet | ⟨t', hwaiting⟩⟩ := hphase
    · rw [hquiet.timers] at ht
      cases ht
    · rw [hwaiting.timers] at ht
      obtain rfl := List.mem_singleton.mp ht
      have hover : (s.connections n).Over := by
        refine ⟨?_, fun hn => hpending ⟨n, ?_, hn⟩, hwaiting.advances⟩
        · rw [← hwaiting.connection]
          exact hclosed
        · rw [h.count]
          exact Nat.lt_succ_self n
      have hledger : { s with timers := s.timers.erase t, reconnectTimer := none }.Ledger n :=
        ⟨h.count, h.unborn, h.past, h.counted, h.attempts⟩
      exact hledger.inv_connect hover (by simp [hwaiting.timers]) rfl hdisc throws

/-! ## Every run -/

theorem inv_started : started.Inv False 0 where
  count := rfl
  unborn i hi := Function.update_of_ne (Nat.ne_of_gt hi) ..
  past i hi := absurd hi (Nat.not_lt_zero i)
  counted := ⟨by decide, fun hone => absurd hone (by decide), by decide⟩
  attempts := by decide
  phase := ⟨rfl, .inl ⟨rfl, rfl, by decide, .inr (.inl (by decide))⟩⟩

theorem inv_step {a : WebSocketLabel} (h : s.Inv False n) (hfirst : s.ClosesFirst a)
    (hstep : s.step a = some s') : ∃ n, s'.Inv False n := by
  cases a with
  | opened i now disconnects =>
    obtain ⟨henabled, heq⟩ := Option.ite_none_right_eq_some.mp hstep
    cases heq
    exact ⟨n, h.handleOpen henabled.1 henabled.2 now disconnects⟩
  | ping i now =>
    obtain ⟨_, heq⟩ := Option.ite_none_left_eq_some.mp hstep
    cases heq
    exact ⟨n, h.watch s.ws s.serverPingWatch (some now)⟩
  | closing i =>
    obtain ⟨_, heq⟩ := Option.ite_none_left_eq_some.mp hstep
    cases heq
    exact ⟨n, h.shut i⟩
  | error i =>
    obtain ⟨hopen, heq⟩ := Option.ite_none_left_eq_some.mp hstep
    cases heq
    exact ⟨n, h.handleError hopen⟩
  | close i disconnects =>
    obtain ⟨hopen, heq⟩ := Option.ite_none_left_eq_some.mp hstep
    cases heq
    exact ⟨n, h.handleClose hopen disconnects⟩
  | pingCheck now =>
    obtain ⟨_, heq⟩ := Option.ite_none_right_eq_some.mp hstep
    cases heq
    exact ⟨n, h.checkServerPing now⟩
  | timer handle throws =>
    obtain ⟨t, ht, rfl⟩ := Option.map_eq_some_iff.mp hstep
    have hmem := List.mem_of_find?_eq_some ht
    have hhandle : t.handle = handle := by simpa using List.find?_some ht
    exact ⟨n + 1, h.fireTimer hmem hfirst.1 (hfirst.2 t hmem hhandle) throws⟩
  | caught i =>
    obtain ⟨hpending, heq⟩ := Option.ite_none_right_eq_some.mp hstep
    cases heq
    exact ⟨n, h.catchRejection hpending⟩
  | disconnect =>
    cases hstep
    exact ⟨n, h.disconnect⟩

theorem inv_run (hreaches : Reaches step ClosesFirst started s) : ∃ n, s.Inv False n := by
  induction hreaches with
  | start => exact ⟨0, inv_started⟩
  | next _ hfirst hstep ih =>
    obtain ⟨n, h⟩ := ih
    exact inv_step h hfirst hstep

/-- A connection is the newest one or over. -/
theorem Ledger.over_or_newest (h : s.Ledger n) {i : Nat} (hi : i < s.count) :
    (s.connections i).Over ∨ i = n := by
  have := h.count
  by_cases heq : i = n
  · exact .inr heq
  · exact .inl (h.past i (by omega))

/-- Each connection advances the attempts at most once, and only when its socket has failed or
closed. -/
theorem Ledger.advances (h : s.Ledger n) {i : Nat} (hi : i < s.count) :
    (s.connections i).advances ≤ 1 ∧ ((s.connections i).advances = 1 → (s.connections i).Dead) := by
  rcases h.over_or_newest hi with hover | rfl
  · exact ⟨Nat.le_of_eq hover.advances, fun _ => hover.dead⟩
  · exact ⟨h.counted.le_one, h.counted.dead⟩

/-- While `disconnect` has not been called, the newest connection waits for its timer or owes the
next step of the chain. -/
theorem Inv.waits_or_owes (h : s.Inv False n) (hdisc : s.disconnected = none) :
    (∃ t, Waiting n s t) ∨ Quiet False n s := by
  have hphase := h.phase
  rw [hdisc] at hphase
  exact hphase.2.symm

/-- A timer is pending for the newest connection, which has advanced the attempts. -/
theorem Inv.waiting (h : s.Inv False n) (htimers : s.timers ≠ []) : ∃ t, Waiting n s t := by
  have hphase := h.phase
  cases hdisc : s.disconnected with
  | some m =>
    rw [hdisc] at hphase
    exact absurd hphase.timers htimers
  | none =>
    rcases h.waits_or_owes hdisc with hwaiting | hquiet
    · exact hwaiting
    · exact absurd hquiet.timers htimers

/-- The amended statement from the invariant. -/
theorem Inv.reconnectChain (h : s.Inv False n) : s.ReconnectChain (fun r => r ≠ .closed) where
  one_timer := by
    by_cases htimers : s.timers = []
    · simp [htimers]
    · obtain ⟨t, hwaiting⟩ := h.waiting htimers
      simp [hwaiting.timers]
  one_chain htimers i hi := by
    obtain ⟨t, hwaiting⟩ := h.waiting htimers
    rcases h.over_or_newest hi with hover | rfl
    · exact hover.dead
    · exact h.counted.dead hwaiting.advances
  le_once i hi := (h.advances hi).1
  dead i hi := (h.advances hi).2
  once hdisc i hi hclosed hcallback := by
    rcases h.over_or_newest hi with hover | rfl
    · exact hover.advances
    · rcases h.waits_or_owes hdisc with ⟨t, hwaiting⟩ | hquiet
      · exact hwaiting.advances
      · rcases hquiet.owes with hfalse | hopen | ⟨hthrew, hpending⟩
        · exact hfalse.elim
        · exact absurd hclosed hopen
        · exact absurd hpending (hcallback hthrew)
  attempts := h.attempts
  alive hdisc hcallbacks := by
    have hn : n < s.count := by
      rw [h.count]
      exact Nat.lt_succ_self n
    rcases h.waits_or_owes hdisc with ⟨t, hwaiting⟩ | hquiet
    · exact .inr (by simp [hwaiting.timers])
    · rcases hquiet.owes with hfalse | hopen | ⟨-, hpending⟩
      · exact hfalse.elim
      · exact .inl ⟨n, hn, hopen⟩
      · exact absurd ⟨n, hn, hpending⟩ hcallbacks
  after_disconnect m hm := by
    have hphase := h.phase
    rw [hm] at hphase
    exact ⟨hphase.timers, hphase.nextHandle⟩

/-- One reconnect chain that never dies: there is always a timer, or a socket whose `close` is
still to come. -/
theorem one_reconnect_chain (s : GmoWebSocketClient)
    (hreaches : Reaches step ClosesFirst started s) :
    s.ReconnectChain (fun r => r ≠ .closed) := by
  obtain ⟨n, h⟩ := inv_run hreaches
  exact h.reconnectChain

/-- A first socket that fails before it opens, a constructor that throws, a socket that opens and
is not heard of for three minutes, and `disconnect` while the next timer is pending. -/
theorem one_reconnect_chain_three_failures : ∃ s, Reaches step ClosesFirst started s ∧
    s.disconnected = some 3 ∧ s.reconnectAttempts = 1 ∧
    s.ReconnectChain (fun r => r ≠ .closed) := by
  obtain ⟨s, hreaches, hdisc, hattempts⟩ : ∃ s, Reaches step ClosesFirst started s ∧
      s.disconnected = some 3 ∧ s.reconnectAttempts = 1 :=
    exists_reaches [.error 0, .close 0 false, .timer 0 true, .caught 1, .timer 1 false,
      .opened 2 0 false, .pingCheck 180000, .close 2 false, .disconnect] (by decide +kernel)
  exact ⟨s, hreaches, hdisc, hattempts, one_reconnect_chain s hreaches⟩

/-- The server has sent no ping for three minutes. `terminate` begins to close the socket, and
until its `close` there is neither a connecting or open socket nor a timer. -/
theorem exists_closing : ¬ ∀ s, Reaches step ClosesFirst started s →
    s.ReconnectChain (fun r => r = .connecting ∨ r = .opened) := by
  intro hall
  obtain ⟨s, hreaches, hdisc, hcallbacks, hcount, hstate, htimers⟩ :
      ∃ s, Reaches step ClosesFirst started s ∧ s.disconnected = none ∧
      ¬ s.AnyCallbackPending ∧ s.count = 1 ∧ (s.connections 0).readyState = .closing ∧
      s.timers = [] :=
    exists_reaches [.opened 0 0 false, .pingCheck 180000] (by decide +kernel)
  rcases (hall s hreaches).alive hdisc hcallbacks with ⟨i, hi, hlive⟩ | htimer
  · have hzero : i = 0 := by omega
    subst hzero
    rw [hstate] at hlive
    simp at hlive
  · exact htimer htimers

end GmoWebSocketClient

end Luchida
