import Luchida.EngineConservation
import Luchida.Excursions

/- When are the orders of the tick engine filled? PendingOrderManager.ts makes an order wait
   for `delayMs`, the loop asks on every tick for what is due, and the end of the stream settles
   what is left.

   An order is filled at the first tick, from the one it was placed at on, by which the delay
   has passed, at the price that the side pays there: no order is filled early, none is passed
   over by a tick that could have filled it, and the orders are filled one by one as they were
   placed. Only an order for which the stream holds no such tick is left. If it is to enter, it
   is dropped; if it is to leave, it is filled at the last tick all the same, and so is what is
   still open then (`OrdersFilled`). The times of the ticks may come in any order. -/
namespace Luchida

open OrderedMap Throws EngineState

/-- An order as it was placed: the index and the time of the tick, and the command. -/
structure PlacedOrder (κ : Type) where
  index : Nat
  time : Int
  command : κ

def Decision.toEntry : Decision → Option (PlacedOrder EntryCommand)
  | .entry index time command => some ⟨index, time, command⟩
  | .exit .. => none

def Decision.toExit : Decision → Option (PlacedOrder ExitCommand)
  | .entry .. => none
  | .exit index time command => some ⟨index, time, command⟩

/-- The position that an event opened. -/
def TradeEvent.toOpened : TradeEvent → Option Position
  | .opened position => some position
  | .closed _ => none

/-- The positions opened so far, in order. -/
def EngineState.opened {α ω : Type} (s : EngineState α ω) : List Position :=
  s.log.filterMap TradeEvent.toOpened

namespace TickEngine

section
variable {ω κ β : Type}

/-- An order placed at its tick, and not due at any tick from that one on before the `n`-th. -/
structure WaitsUntil (ticks : List Tick) (delayMs : Int) (order : PlacedOrder κ) (n : Nat) :
    Prop where
  placed : ∃ tick, ticks[order.index]? = some tick ∧ tick.timestamp = order.time
  le : order.index ≤ n
  notDue : ∀ k tick, order.index ≤ k → k < n → ticks[k]? = some tick →
    tick.timestamp < order.time + delayMs

/-- The simulator fills the order to enter at the price of the tick. -/
def OpenedAt (params : EngineRunParams ω) (command : EntryCommand) (tick : Tick)
    (position : Position) : Prop :=
  ∃ result world world', params.executionSimulator.simulateEntry command
      (selectPrice tick command.buySell) params.config.pair tick.timestamp world =
        .ok (result, world') ∧
    position = .openWith command result

/-- The simulator fills the order to leave at the price of the tick. -/
def ClosedAt (params : EngineRunParams ω) (command : ExitCommand) (tick : Tick)
    (record : TradeRecord) : Prop :=
  ∃ (position : Position) (result : ExitResult) (world world' : ω), Records position record ∧
    params.executionSimulator.simulateExit command
      (selectPrice tick position.buySell.opposite) params.config.pair position.entryPrice
      position.buySell tick.timestamp world = .ok (result, world') ∧
    record.exitPrice = result.exitPrice.value ∧ record.exitTime = result.executedAt ∧
    record.pnlPips = result.profitLoss.value ∧ record.exitType = command.type

/-- The order is filled at the first tick at which it is due. -/
def FilledWhenDue (fill : κ → Tick → β → Prop) (ticks : List Tick) (delayMs : Int)
    (order : PlacedOrder κ) (filled : β) : Prop :=
  ∃ n tick, ticks[n]? = some tick ∧ WaitsUntil ticks delayMs order n ∧
    order.time + delayMs ≤ tick.timestamp ∧ fill order.command tick filled

/-- No tick was late enough, and the order is filled at the last one. -/
def FilledAtEnd (fill : κ → Tick → β → Prop) (ticks : List Tick) (delayMs : Int)
    (order : PlacedOrder κ) (filled : β) : Prop :=
  WaitsUntil ticks delayMs order ticks.length ∧
    ∃ tick, ticks.getLast? = some tick ∧ fill order.command tick filled

/-- What becomes of the orders of a run. -/
structure OrdersFilled {α : Type} (params : EngineRunParams ω) (ticks : List Tick) (delayMs : Int)
    (s : TickState α ω) : Prop where
  entries : ∃ filled dropped, s.decisions.filterMap Decision.toEntry = filled ++ dropped ∧
    List.Forall₂ (FilledWhenDue (OpenedAt params) ticks delayMs) filled s.opened ∧
    dropped.length ≤ 1 ∧ ∀ order ∈ dropped, WaitsUntil ticks delayMs order ticks.length
  exits : ∃ filled late trades settled forced,
    s.decisions.filterMap Decision.toExit = filled ++ late ∧
    s.trades = trades ++ settled ++ forced ∧
    List.Forall₂ (FilledWhenDue (ClosedAt params) ticks delayMs) filled trades ∧
    List.Forall₂ (FilledAtEnd (ClosedAt params) ticks delayMs) late settled ∧
    late.length ≤ 1 ∧
    ∀ record ∈ forced, ∃ tick, ticks.getLast? = some tick ∧
      ClosedAt params (forceCloseCommand record.id) tick record
  /-- Each position is closed once, in the order in which they were opened. -/
  closed : List.Forall₂ Records s.opened s.trades

/-! ## The orders of one kind -/

/-- What the manager holds of an order that is not due before the `n`-th tick. -/
def Waiting (ticks : List Tick) (delayMs : Int) (n : Nat) (order : PlacedOrder κ)
    (pending : κ × Int) : Prop :=
  WaitsUntil ticks delayMs order n ∧ pending = (order.command, order.time + delayMs)

/-- The orders of a kind before the `n`-th tick: each was filled when due, but one may wait. -/
def Side (fill : κ → Tick → β → Prop) (ticks : List Tick) (delayMs : Int) (n : Nat)
    (placed : List (PlacedOrder κ)) (pending : Option (κ × Int)) (done : List β) : Prop :=
  ∃ filled waiting, placed = filled ++ waiting ∧
    List.Forall₂ (FilledWhenDue fill ticks delayMs) filled done ∧
    List.Forall₂ (Waiting ticks delayMs n) waiting pending.toList

section
variable {fill : κ → Tick → β → Prop} {ticks : List Tick} {delayMs : Int} {n m : Nat}
  {placed : List (PlacedOrder κ)} {pending : Option (κ × Int)} {done : List β} {tick : Tick}
  {command : κ}

theorem Side.start : Side fill ticks delayMs n [] none [] := ⟨[], [], rfl, .nil, .nil⟩

/-- Where none waits, the tick does not matter. -/
theorem Side.move (h : Side fill ticks delayMs n placed none done) :
    Side fill ticks delayMs m placed none done := by
  obtain ⟨filled, waiting, hplaced, hfilled, hwaiting⟩ := h
  cases hwaiting
  exact ⟨filled, [], hplaced, hfilled, .nil⟩

/-- An order is placed. -/
theorem Side.place (h : Side fill ticks delayMs n placed none done)
    (htick : ticks[n]? = some tick) (order : PlacedOrder κ) (hindex : order.index = n)
    (htime : order.time = tick.timestamp) {fillableAt : Int}
    (hdue : fillableAt = order.time + delayMs) :
    Side fill ticks delayMs n (placed ++ [order]) (some (order.command, fillableAt)) done := by
  obtain ⟨filled, waiting, hplaced, hfilled, hwaiting⟩ := h
  cases hwaiting
  refine ⟨filled, [order], by rw [hplaced, List.append_nil], hfilled,
    .cons ⟨⟨⟨tick, hindex ▸ htick, htime.symm⟩, hindex.le, ?_⟩, by rw [hdue]⟩ .nil⟩
  intro k _ hnk hk
  exact absurd hk (Nat.not_lt.mpr (hindex ▸ hnk))

/-- A tick at which it is not due. -/
theorem Side.wait (h : Side fill ticks delayMs n placed pending done)
    (htick : ticks[n]? = some tick) (hnot : ∀ o ∈ pending, tick.timestamp < o.2) :
    Side fill ticks delayMs (n + 1) placed pending done := by
  obtain ⟨filled, waiting, hplaced, hfilled, hwaiting⟩ := h
  cases pending with
  | none => exact Side.move ⟨filled, waiting, hplaced, hfilled, hwaiting⟩
  | some o =>
    obtain ⟨order, rest, ⟨hwaits, rfl⟩, hnil, rfl⟩ := List.forall₂_cons_right_iff.mp hwaiting
    cases hnil
    refine ⟨filled, [order], hplaced, hfilled,
      .cons ⟨⟨hwaits.placed, Nat.le_succ_of_le hwaits.le, fun k t hk hlt ht => ?_⟩, rfl⟩ .nil⟩
    rcases Nat.lt_succ_iff_lt_or_eq.mp hlt with hlt | rfl
    · exact hwaits.notDue k t hk hlt ht
    · obtain rfl := Option.some.inj (htick.symm.trans ht)
      exact hnot _ rfl

/-- The tick at which it is due. -/
theorem Side.filled {fillableAt : Int} {filled : β}
    (h : Side fill ticks delayMs n placed (some (command, fillableAt)) done)
    (htick : ticks[n]? = some tick) (hdue : fillableAt ≤ tick.timestamp)
    (hfill : fill command tick filled) :
    Side fill ticks delayMs m placed none (done ++ [filled]) := by
  obtain ⟨before, waiting, hplaced, hfilled, hwaiting⟩ := h
  obtain ⟨order, rest, ⟨hwaits, heq⟩, hnil, rfl⟩ := List.forall₂_cons_right_iff.mp hwaiting
  cases hnil
  cases heq
  refine ⟨before ++ [order], [], by rw [hplaced, List.append_nil], ?_, .nil⟩
  exact List.rel_append hfilled (.cons ⟨n, tick, htick, hwaits, hdue, hfill⟩ .nil)

end

/-! ## One fill -/

variable {α : Type} {params : EngineRunParams ω} {ticks : List Tick} {delayMs : Int} {n m k : Nat}
  {tick : Tick}

theorem openPosition_openedAt {command : EntryCommand} {s s' : EngineState α ω}
    (h : s.openPosition params command (selectPrice tick command.buySell) tick.timestamp =
      .ok s') :
    ∃ position, OpenedAt params command tick position ∧
      s'.log = s.log ++ [.opened position] ∧ s'.trades = s.trades ∧
      s'.positions = set s.positions position.id position := by
  obtain ⟨⟨result, world⟩, hsim, h⟩ := bind_eq_ok.mp h
  cases h
  exact ⟨_, ⟨result, s.world, world, mapError_eq_ok.mp hsim, rfl⟩, rfl, rfl, rfl⟩

theorem closePosition_closedAt {command : ExitCommand} {posId : PositionId} {p : Position}
    {extremesAt : Int} {s s' : EngineState α ω}
    (h : s.closePosition params command posId p (selectPrice tick p.buySell.opposite)
      tick.timestamp extremesAt = .ok s') :
    ∃ record, ClosedAt params command tick record ∧ Records p record ∧
      s'.trades = s.trades ++ [record] ∧ s'.log = s.log ++ [.closed record] ∧
      s'.positions = s.positions := by
  obtain ⟨⟨result, world⟩, hsim, h⟩ := bind_eq_ok.mp h
  have hsim := mapError_eq_ok.mp hsim
  dsimp only at hsim h
  split at h
  · rename_i closed hclosed
    obtain ⟨position, hposition, h⟩ := bind_eq_ok.mp h
    cases hposition
    obtain ⟨profitLoss, -, h⟩ := bind_eq_ok.mp h
    obtain ⟨record, hrecord, h⟩ := bind_eq_ok.mp h
    cases h
    -- the extremes are two fields that nothing below reads
    obtain ⟨mfe, mae, hfilled, hclosed⟩ : ∃ mfe mae,
        params.executionSimulator.simulateExit command (selectPrice tick p.buySell.opposite)
          params.config.pair p.entryPrice p.buySell tick.timestamp s.world =
            .ok (result, world) ∧
        ({ p with mfePips := mfe, maePips := mae } : Position).close command result =
          some closed := by
      cases hget : get s.extremeTracker posId with
      | none =>
        rw [hget] at hsim hclosed
        exact ⟨p.mfePips, p.maePips, hsim, hclosed⟩
      | some e =>
        obtain ⟨mfe, mae, hextremes⟩ := p.applyExtremes_eq e.highest e.lowest
        rw [hget] at hsim hclosed
        dsimp only at hsim hclosed
        rw [hextremes] at hsim hclosed
        exact ⟨mfe, mae, hsim, hclosed⟩
    unfold Position.close at hclosed
    split at hclosed
    · cases hclosed
    · cases hclosed
      cases hrecord
      exact ⟨_, ⟨p, result, s.world, world, ⟨rfl, rfl, rfl, rfl, rfl⟩, hfilled, rfl, rfl, rfl,
        rfl⟩, ⟨rfl, rfl, rfl, rfl, rfl⟩, rfl, rfl, rfl⟩
  · obtain ⟨position, hposition, -⟩ := bind_eq_ok.mp h
    cases hposition

/-! ## Openings and closings -/

/-- Each position opened was closed once, in order, but for what is still open. -/
def Paired (s : EngineState α ω) : Prop :=
  ∃ closed, s.opened = closed ++ s.positions.map Prod.snd ∧ List.Forall₂ Records closed s.trades

theorem Paired.congr {s s' : EngineState α ω} (h : Paired s) (hlog : s'.log = s.log)
    (htrades : s'.trades = s.trades) (hpositions : s'.positions = s.positions) : Paired s' := by
  unfold Paired EngineState.opened
  rw [hlog, htrades, hpositions]
  exact h

theorem Paired.opens {s s' : EngineState α ω} {p : Position} (h : Paired s)
    (hs : s.positions = []) (hlog : s'.log = s.log ++ [.opened p]) (htrades : s'.trades = s.trades)
    (hpositions : s'.positions = set s.positions p.id p) : Paired s' := by
  obtain ⟨closed, hopened, hclosed⟩ := h
  refine ⟨closed, ?_, htrades ▸ hclosed⟩
  have hone : s'.positions = [(p.id, p)] := by
    rw [hpositions, hs]
    rfl
  rw [hs, List.map_nil, List.append_nil] at hopened
  rw [hone, EngineState.opened, hlog, List.filterMap_append, ← EngineState.opened, hopened]
  rfl

theorem Paired.closes {s s' : EngineState α ω} {p : Position} {record : TradeRecord}
    (h : Paired s) (hs : s.Holds (some p)) (hrecords : Records p record)
    (hlog : s'.log = s.log ++ [.closed record]) (htrades : s'.trades = s.trades ++ [record])
    (hpositions : s'.positions = []) : Paired s' := by
  obtain ⟨closed, hopened, hclosed⟩ := h
  refine ⟨closed ++ [p], ?_, ?_⟩
  · rw [hs.positions] at hopened
    rw [hpositions, EngineState.opened, hlog, List.filterMap_append, ← EngineState.opened, hopened]
    rfl
  · rw [htrades]
    exact List.rel_append hclosed (.cons hrecords .nil)

/-- Closing the position held and forgetting it. -/
theorem closePosition_forget {command : ExitCommand} {p : Position} {s closed : EngineState α ω}
    (hs : s.Holds (some p)) (hpaired : Paired s)
    (h : s.closePosition params command p.id p (selectPrice tick p.buySell.opposite)
      tick.timestamp tick.timestamp = .ok closed) :
    ∃ record, ClosedAt params command tick record ∧ record.id = p.id ∧
      (closed.forget p.id).trades = s.trades ++ [record] ∧
      (closed.forget p.id).opened = s.opened ∧ (closed.forget p.id).positions = [] ∧
      Paired (closed.forget p.id) := by
  obtain ⟨record, hclosedAt, hrecords, htrades, hlog, hpositions⟩ := closePosition_closedAt h
  have hnone : (closed.forget p.id).positions = [] := by
    simp [EngineState.forget, delete, hpositions, hs.positions]
  refine ⟨record, hclosedAt, hrecords.id, htrades, ?_, hnone,
    hpaired.closes hs hrecords hlog htrades hnone⟩
  show closed.log.filterMap TradeEvent.toOpened = _
  rw [hlog, List.filterMap_append]
  exact List.append_nil _

/-! ## A round -/

/-- What the loop keeps of the orders, up to the `n`-th tick for those to enter and to the `m`-th
for those to leave, `k` ticks having come. -/
structure Sides (params : EngineRunParams ω) (ticks : List Tick) (delayMs : Int) (n m k : Nat)
    (s : TickState α ω) : Prop where
  entry : Side (OpenedAt params) ticks delayMs n (s.decisions.filterMap Decision.toEntry)
    (s.pendingOrders.pendingEntry.map fun o => (o.command, o.fillableAt)) s.opened
  exit : Side (ClosedAt params) ticks delayMs m (s.decisions.filterMap Decision.toExit)
    (s.pendingOrders.pendingExit.map fun o => (o.command, o.fillableAt)) s.trades
  paired : Paired s.toEngineState
  delay : s.pendingOrders.delayMs = delayMs
  count : s.tickCount = k

variable {s s' heard left : TickState α ω} {held : Option Position}

/-- An order to leave is placed. -/
theorem Exits.sides {snapshot : MarketSnapshot} (hs : Sides params ticks delayMs n n (n + 1) s)
    (htick : ticks[n]? = some tick) (h : Exits params snapshot tick s held s') :
    Sides params ticks delayMs n n (n + 1) s' := by
  cases h with
  | flat => exact hs
  | stays _ => exact ⟨hs.entry, hs.exit, hs.paired, hs.delay, hs.count⟩
  | @leaves p command world _ hnone =>
    have hcount : s.tickCount - 1 = n := by rw [hs.count, Nat.add_sub_cancel]
    refine ⟨?_, ?_, hs.paired, hs.delay, hs.count⟩
    · have hentry := hs.entry
      rw [← List.append_nil (s.decisions.filterMap Decision.toEntry)] at hentry
      rw [List.filterMap_append]
      exact hentry
    · have hexit := hs.exit
      rw [hnone] at hexit
      rw [List.filterMap_append]
      exact hexit.place htick ⟨s.tickCount - 1, tick.timestamp, command⟩ hcount rfl
        (congrArg (tick.timestamp + ·) hs.delay)

/-- An order to enter is placed. -/
theorem Enters.sides {snapshot : MarketSnapshot} (hs : Sides params ticks delayMs n n (n + 1) s)
    (htick : ticks[n]? = some tick) (h : Enters params snapshot tick s s') :
    Sides params ticks delayMs n n (n + 1) s' := by
  cases h with
  | busy _ => exact hs
  | waits _ _ => exact ⟨hs.entry, hs.exit, hs.paired, hs.delay, hs.count⟩
  | @enters command world _ hfree _ =>
    have hnone : s.pendingOrders.pendingEntry = none := by
      simp only [PendingOrderManager.hasAnyPending, Bool.or_eq_false_iff] at hfree
      simpa using hfree.1
    have hcount : s.tickCount - 1 = n := by rw [hs.count, Nat.add_sub_cancel]
    refine ⟨?_, ?_, hs.paired, hs.delay, hs.count⟩
    · have hentry := hs.entry
      rw [hnone] at hentry
      rw [List.filterMap_append]
      exact hentry.place htick ⟨s.tickCount - 1, tick.timestamp, command⟩ hcount rfl
        (congrArg (tick.timestamp + ·) hs.delay)
    · have hexit := hs.exit
      rw [← List.append_nil (s.decisions.filterMap Decision.toExit)] at hexit
      rw [List.filterMap_append]
      exact hexit

theorem Hears.sides [SnapshotAdapter α] (hs : Sides params ticks delayMs n n n s)
    (htick : ticks[n]? = some tick) (h : Hears params tick s held heard) :
    Sides params ticks delayMs n n (n + 1) heard := by
  have hcount : s.tickCount + 1 = n + 1 := congrArg (· + 1) hs.count
  cases h with
  | quiet accumulator _ => exact ⟨hs.entry, hs.exit, hs.paired, hs.delay, hcount⟩
  | asks hasks hexits henters =>
    obtain ⟨accumulator, confirmed, adapter, -, -, -, rfl⟩ := hasks
    let asked : TickState α ω :=
      { receive tick s with accumulator := accumulator, adapter := adapter }
    have hasked : Sides params ticks delayMs n n (n + 1) asked :=
      ⟨hs.entry, hs.exit, hs.paired, hs.delay, hcount⟩
    exact henters.sides (Exits.sides hasked htick hexits) htick

/-- The tick fills the exit that is due, and no exit is due that it does not fill. -/
theorem FillsExit.sides (hs : Sides params ticks delayMs n n k heard)
    (hholds : heard.Holds held) (horders : Orders held heard.pendingOrders)
    (htick : ticks[n]? = some tick) (h : FillsExit params tick heard left) :
    Sides params ticks delayMs n (n + 1) k left := by
  cases h with
  | nothing hnot =>
    refine ⟨hs.entry, hs.exit.wait htick fun o ho => ?_, hs.paired, hs.delay, hs.count⟩
    obtain ⟨o, hpending, rfl⟩ := Option.map_eq_some_iff.mp ho
    exact hnot o hpending
  | @fills o closed horder hdue hclosed =>
    obtain rfl := horders.exit o horder
    obtain ⟨record, hclosedAt, -, htrades, hopened, -, hpaired⟩ :=
      closePosition_forget hholds hs.paired hclosed
    refine ⟨?_, ?_, hpaired, hs.delay, hs.count⟩
    · have hentry := hs.entry
      rw [← hopened] at hentry
      exact hentry
    · have hexit := hs.exit
      rw [horder] at hexit
      have hfilled := hexit.filled htick hdue hclosedAt (m := n + 1)
      rw [← htrades] at hfilled
      exact hfilled

/-- The same for the entry. -/
theorem FillsEntry.sides (hs : Sides params ticks delayMs n (n + 1) k left)
    (hholds : left.Holds held) (horders : Orders held left.pendingOrders)
    (htick : ticks[n]? = some tick) (h : FillsEntry params tick left s') :
    Sides params ticks delayMs (n + 1) (n + 1) k s' := by
  cases h with
  | nothing hnot =>
    refine ⟨hs.entry.wait htick fun o ho => ?_, hs.exit, hs.paired, hs.delay, hs.count⟩
    obtain ⟨o, hpending, rfl⟩ := Option.map_eq_some_iff.mp ho
    exact hnot o hpending
  | @fills o opened horder hdue hopened =>
    obtain ⟨rfl, -⟩ := horders.entry (by simp [horder])
    obtain ⟨position, hopenedAt, hlog, htrades, hpositions⟩ := openPosition_openedAt hopened
    refine ⟨?_, ?_, hs.paired.opens hholds.positions hlog htrades hpositions, hs.delay, hs.count⟩
    · have hentry := hs.entry
      rw [horder] at hentry
      have hfilled := hentry.filled htick hdue hopenedAt (m := n + 1)
      show Side _ _ _ _ _ _ (opened.log.filterMap TradeEvent.toOpened)
      rw [hlog, List.filterMap_append]
      exact hfilled
    · have hexit := hs.exit
      rw [← htrades] at hexit
      exact hexit

/-! ## A run -/

/-- What the loop keeps: after `n` ticks the orders are filled up to the `n`-th. -/
structure Filling (params : EngineRunParams ω) (ticks : List Tick) (delayMs : Int) (n : Nat)
    (s : TickState α ω) : Prop where
  watched : ∃ held, Watched held s
  sides : Sides params ticks delayMs n n n s
  last : s.lastTick = (ticks.take n).getLast?

variable [SnapshotAdapter α]

theorem Filling.onTick (h : Filling params ticks delayMs n s) (htick : ticks[n]? = some tick)
    (hround : onTick params s tick = .ok s') : Filling params ticks delayMs (n + 1) s' := by
  obtain ⟨held, hwatched⟩ := h.watched
  obtain ⟨heard, left, entered, hears, hleft, hentered, rfl, hheard⟩ :=
    onTick_ok hwatched.holds hround
  obtain ⟨hholds, horders, hlast, -⟩ := accumulate_books hwatched hheard
  obtain ⟨held₁, hholds₁, horders₁, hlast₁⟩ := hleft.orders hholds horders
  obtain ⟨held₂, -, -, hlast₂⟩ := hentered.orders hholds₁ horders₁
  have hsides₁ := hears.sides h.sides htick
  have hsides₂ := hleft.sides hsides₁ hholds horders htick
  have hsides₃ := hentered.sides hsides₂ hholds₁ horders₁ htick
  refine ⟨onTick_watched ⟨held, hwatched⟩ hround,
    ⟨hsides₃.entry, hsides₃.exit, hsides₃.paired, hsides₃.delay, hsides₃.count⟩, ?_⟩
  show entered.lastTick = _
  rw [hlast₂, hlast₁, hlast, List.take_add_one, htick]
  simp

theorem filling_onTicks {done : List Tick} (h : Filling params ticks delayMs done.length s)
    {rest : List Tick} (hticks : ticks = done ++ rest)
    (hrun : rest.foldlM (onTick params) s = .ok s') :
    Filling params ticks delayMs ticks.length s' := by
  induction rest generalizing done s with
  | nil =>
    cases hrun
    rw [hticks, List.append_nil]
    rw [hticks, List.append_nil] at h
    exact h
  | cons tick rest ih =>
    rw [List.foldlM_cons] at hrun
    obtain ⟨s₁, hround, hrun⟩ := bind_eq_ok.mp hrun
    have htick : ticks[done.length]? = some tick := by simp [hticks]
    have hnext := h.onTick htick hround
    have hdone : (done ++ [tick]).length = done.length + 1 := by simp
    rw [← hdone] at hnext
    exact ih hnext (by simp [hticks]) hrun

section
omit [SnapshotAdapter α]

/-- What is still open at the end is closed at the last tick. -/
theorem forceCloseAll_trades {lastTick : Tick} {books books' : EngineState α ω}
    (hs : books.Holds held) (hpaired : Paired books)
    (h : forceCloseAll params lastTick books = .ok books') :
    ∃ forced, books'.trades = books.trades ++ forced ∧ books'.opened = books.opened ∧
      (∀ record ∈ forced, ClosedAt params (forceCloseCommand record.id) lastTick record) ∧
      List.Forall₂ Records books'.opened books'.trades := by
  obtain ⟨closed, hforce, h⟩ := bind_eq_ok.mp h
  cases h
  cases held with
  | none =>
    rw [hs.foldlM_none] at hforce
    cases hforce
    obtain ⟨before, hopened, hrecords⟩ := hpaired
    rw [hs.positions, Option.toList_none, List.map_nil, List.map_nil, List.append_nil] at hopened
    exact ⟨[], (List.append_nil _).symm, rfl, by simp, hopened ▸ hrecords⟩
  | some p =>
    rw [hs.foldlM_some] at hforce
    obtain ⟨closed', hclosed, heq⟩ := bind_eq_ok.mp hforce
    cases heq
    obtain ⟨record, hclosedAt, hid, htrades, hopened, hnone, before, hpairs, hrecords⟩ :=
      closePosition_forget hs hpaired hclosed
    rw [hnone, List.map_nil, List.append_nil] at hpairs
    refine ⟨[record], htrades, hopened, ?_, ?_⟩
    · intro r hr
      rw [List.mem_singleton.mp hr, hid]
      exact hclosedAt
    · rw [← hpairs] at hrecords
      exact hrecords

/-- The exit that still waits is settled at the last tick. -/
theorem settleWaiting_trades {lastTick : Tick} {exitFill : Option PendingExit}
    {books books' : EngineState α ω} (hs : books.Holds held)
    (horder : ∀ o ∈ exitFill, held = some o.position) (hpaired : Paired books)
    (h : settleWaiting params lastTick exitFill books = .ok books') :
    ∃ settled held', books'.trades = books.trades ++ settled ∧ books'.opened = books.opened ∧
      List.Forall₂ (fun o record => ClosedAt params o.command lastTick record) exitFill.toList
        settled ∧ books'.Holds held' ∧ Paired books' := by
  cases exitFill with
  | none =>
    cases h
    exact ⟨[], held, (List.append_nil _).symm, rfl, .nil, hs, hpaired⟩
  | some o =>
    obtain rfl := horder o rfl
    obtain ⟨closed, hclosed, h⟩ := bind_eq_ok.mp h
    cases h
    obtain ⟨record, hclosedAt, -, htrades, hopened, hnone, hpaired'⟩ :=
      closePosition_forget hs hpaired hclosed
    exact ⟨[record], none, htrades, hopened, .cons hclosedAt .nil, ⟨hnone, by simp⟩, hpaired'⟩

/-- The exit that waits at the end is filled at the last tick. -/
theorem filledAtEnd {lastTick : Tick} (hlast : ticks.getLast? = some lastTick)
    {exitFill : Option PendingExit} {late : List (PlacedOrder ExitCommand)}
    {settled : List TradeRecord}
    (hlate : List.Forall₂ (Waiting ticks delayMs ticks.length) late
      (exitFill.map fun o => (o.command, o.fillableAt)).toList)
    (hsettled : List.Forall₂ (fun o record => ClosedAt params o.command lastTick record)
      exitFill.toList settled) :
    List.Forall₂ (FilledAtEnd (ClosedAt params) ticks delayMs) late settled := by
  cases exitFill with
  | none =>
    cases hlate
    cases hsettled
    exact .nil
  | some o =>
    obtain ⟨order, rest, ⟨hwaits, heq⟩, hnil, rfl⟩ := List.forall₂_cons_right_iff.mp hlate
    obtain ⟨record, rest', hclosed, hnil', rfl⟩ := List.forall₂_cons_left_iff.mp hsettled
    cases hnil
    cases hnil'
    obtain ⟨hcommand, -⟩ := Prod.mk.inj heq
    exact .cons ⟨hwaits, lastTick, hlast, hcommand ▸ hclosed⟩ .nil

/-- Without ticks nothing is filled. -/
theorem nothing_filled {fill : κ → Tick → β → Prop} {filled : List (PlacedOrder κ)}
    {done : List β} (h : List.Forall₂ (FilledWhenDue fill [] delayMs) filled done) :
    done = [] := by
  cases h with
  | nil => rfl
  | cons hfilled _ =>
    obtain ⟨n, tick, htick, -⟩ := hfilled
    cases htick

/-- The end of the stream. -/
theorem Filling.finish (h : Filling params ticks delayMs ticks.length s)
    (hfinish : finish params s = .ok s') : OrdersFilled params ticks delayMs s' := by
  obtain ⟨filled, dropped, hplaced, hfilled, hdropped⟩ := h.sides.entry
  obtain ⟨leaving, late, hleaving, hleft, hlate⟩ := h.sides.exit
  have hone : dropped.length ≤ 1 := hdropped.length_eq ▸ Option.length_toList_le
  have hlateOne : late.length ≤ 1 := hlate.length_eq ▸ Option.length_toList_le
  have hwaits := ((List.forall₂_and_left dropped _).mp hdropped).1
  have hlast : s.lastTick = ticks.getLast? := by
    rw [h.last, List.take_length]
  unfold TickEngine.finish at hfinish
  cases hl : s.lastTick with
  | none =>
    rw [hl] at hfinish
    cases hfinish
    -- no tick, no order
    obtain rfl : ticks = [] := List.getLast?_eq_none_iff.mp (hlast.symm.trans hl)
    have hnone := nothing_filled hfilled
    have htrades := nothing_filled hleft
    obtain rfl : late = [] := by
      rw [List.eq_nil_iff_forall_not_mem]
      intro order horder
      obtain ⟨tick, htick, -⟩ := (((List.forall₂_and_left late _).mp hlate).1 order horder).placed
      cases htick
    refine ⟨⟨filled, dropped, hplaced, hfilled, hone, hwaits⟩,
      ⟨leaving, [], s.trades, [], [], hleaving, by simp, hleft, .nil, hlateOne, by simp⟩, ?_⟩
    show List.Forall₂ _ s.opened s.trades
    rw [hnone, htrades]
    exact .nil
  | some lastTick =>
    rw [hl] at hfinish
    obtain ⟨books, hsettle, hfinish⟩ := bind_eq_ok.mp hfinish
    obtain ⟨books', hall, hfinish⟩ := bind_eq_ok.mp hfinish
    cases hfinish
    obtain ⟨held, hwatched⟩ := h.watched
    obtain ⟨settled, held', htrades, hopened, hsettled, hholds, hpaired⟩ :=
      settleWaiting_trades hwatched.holds hwatched.orders.exit h.sides.paired hsettle
    obtain ⟨forced, htrades', hopened', hforced, hclosed⟩ :=
      forceCloseAll_trades hholds hpaired hall
    have hlastTick : ticks.getLast? = some lastTick := hlast.symm.trans hl
    refine ⟨⟨filled, dropped, hplaced, ?_, hone, hwaits⟩,
      ⟨leaving, late, s.trades, settled, forced, hleaving, ?_, hleft,
        filledAtEnd hlastTick hlate hsettled, hlateOne, ?_⟩, hclosed⟩
    · show List.Forall₂ _ _ books'.opened
      rw [hopened', hopened]
      exact hfilled
    · show books'.trades = _
      rw [htrades', htrades]
    · intro record hrecord
      exact ⟨lastTick, hlastTick, hforced record hrecord⟩

end

/-- Before the first tick. -/
theorem begin_filling {adapter : α} {world : ω} {shared : SharedState}
    (h : begin params delayMs adapter world shared = .ok s) :
    Filling params ticks delayMs 0 s := by
  obtain ⟨adapter', rfl⟩ := begin_state h
  exact {
    watched := ⟨none, ⟨rfl, by simp⟩, Orders.new delayMs, by simp⟩
    sides := ⟨.start, .start, ⟨[], rfl, .nil⟩, rfl, rfl⟩
    last := rfl }

/-- In every run over ticks the orders are filled at the first tick at which they are due, each
once and in the order in which they were placed. -/
theorem orders_filled (params : EngineRunParams ω) (delayMs : Int) (adapter : α) (world : ω)
    (shared : SharedState) (s : TickState α ω)
    (h : run params delayMs adapter world shared = .ok s) :
    OrdersFilled params
      (params.dataProvider.fetchTicks params.config.pair params.config.dateRange) delayMs s := by
  obtain ⟨looped, hrun, hfinish⟩ := bind_eq_ok.mp h
  obtain ⟨begun, hbegin, hloop⟩ := bind_eq_ok.mp hrun
  have hstart : Filling params
      (params.dataProvider.fetchTicks params.config.pair params.config.dateRange) delayMs
      ([] : List Tick).length begun := begin_filling hbegin
  exact (filling_onTicks hstart rfl hloop).finish hfinish

end

/-- Three trades over ticks, with orders that wait for 100 ms. -/
theorem orders_filled_quiet :
    ∃ s, run (quietParams (idealExecutionSimulator countedIds) (quietBars 2)
        (quietTicks 120000 6)) 100 quietAdapter 0 ⟨some 100000, none⟩ = .ok s ∧
      (s.decisions.filterMap Decision.toExit).length = 2 ∧ s.trades.length = 3 ∧
      OrdersFilled (quietParams (idealExecutionSimulator countedIds) (quietBars 2)
        (quietTicks 120000 6)) (quietTicks 120000 6) 100 s := by
  let params := quietParams (idealExecutionSimulator countedIds) (quietBars 2)
    (quietTicks 120000 6)
  have hrun : ∃ s, run params 100 quietAdapter 0 ⟨some 100000, none⟩ = .ok s ∧
      decide ((s.decisions.filterMap Decision.toExit).length = 2 ∧ s.trades.length = 3) = true :=
    exists_ok (by decide +kernel)
  obtain ⟨s, hs, hcounts⟩ := hrun
  obtain ⟨hexits, htrades⟩ := of_decide_eq_true hcounts
  exact ⟨s, hs, hexits, htrades,
    orders_filled params 100 quietAdapter 0 ⟨some 100000, none⟩ s hs⟩

end TickEngine

end Luchida
