import Luchida.ExecutionSimulators
import Luchida.OhlcEngine
import Luchida.RunningBalance
import Luchida.TickEngine

/- Conservation of trades and equity in both engines. `Books` is the invariant: the log is
   the trades that are over, each an opening followed by its closing, with at most one
   opening after them; the records are the closings; and they form a statement of account
   of the equity (`RunningBalance`). Opening and closing keep it, whichever of the blocks
   of the engines does them, so every round of the loops does.

   The times of a record are what the simulator reports. `Timed` orders them for a
   simulator that reports the time it is given; another one can date an exit before the
   entry (`exists_exit_before_entry`). -/
namespace Luchida

open OrderedMap Throws EngineState

/-! ## The books -/

/-- The entries of the log of trades that are over. -/
def roundTrips (pairs : List (Position × TradeRecord)) : List TradeEvent :=
  pairs.flatMap fun e => [.opened e.1, .closed e.2]

/-- The records follow one another as a statement of account of the equity. -/
abbrev Booked (initialCapital : ℚ) : List TradeRecord → ℚ → Prop :=
  RunningBalance.Balanced TradeRecord.pnlAmount TradeRecord.capitalAtEntry
    TradeRecord.equityAfter initialCapital

section
variable {α ω : Type}

structure Books (initialCapital : ℚ) (pairs : List (Position × TradeRecord))
    (held : Option Position) (s : EngineState α ω) : Prop extends s.Holds held where
  log : s.log = roundTrips pairs ++ held.toList.map .opened
  records : ∀ e ∈ pairs, Records e.1 e.2
  trades : s.trades = pairs.map (·.2)
  tradeSeq : s.tradeSeq = s.trades.length
  numbered : s.trades.map (·.tradeSeq) = List.range s.trades.length
  capital : ∀ p ∈ held, get s.capitalAtEntryMap p.id = s.shared.equityState
  balance : ∃ m, s.shared.equityState = some m ∧ Booked initialCapital s.trades m

namespace Books

variable {params : EngineRunParams ω} {pairs : List (Position × TradeRecord)} {p : Position}
  {held : Option Position} {s s' : EngineState α ω} {executedAt : Int} {record : TradeRecord}
  {initialCapital : ℚ}

theorem start (adapter : α) (world : ω) (marketState : Option (Option ℚ)) :
    Books initialCapital [] none (.start adapter world ⟨some initialCapital, marketState⟩) where
  positions := rfl
  opened := by simp
  log := rfl
  records := by simp
  trades := rfl
  tradeSeq := rfl
  numbered := rfl
  capital := by simp
  balance := ⟨initialCapital, rfl, .opening⟩

/-- What the books say nothing about may change. -/
theorem congr (h : Books initialCapital pairs held s) (hpositions : s'.positions = s.positions)
    (hlog : s'.log = s.log) (htrades : s'.trades = s.trades) (hseq : s'.tradeSeq = s.tradeSeq)
    (hcapital : s'.capitalAtEntryMap = s.capitalAtEntryMap)
    (hequity : s'.shared.equityState = s.shared.equityState) :
    Books initialCapital pairs held s' where
  positions := hpositions.trans h.positions
  opened := h.opened
  log := hlog.trans h.log
  records := h.records
  trades := htrades.trans h.trades
  tradeSeq := by rw [hseq, htrades, h.tradeSeq]
  numbered := by rw [htrades, h.numbered]
  capital := by rw [hcapital, hequity]; exact h.capital
  balance := by rw [hequity, htrades]; exact h.balance

theorem opens (h : Books params.initialCapital pairs none s)
    (ho : Opens params executedAt s s' p) : Books params.initialCapital pairs (some p) s' := by
  obtain ⟨m, hm, hbooked⟩ := h.balance
  exact {
    toHolds := ho.holds h.toHolds
    log := by rw [ho.state]; simp [h.log]
    records := h.records
    trades := by rw [ho.state]; exact h.trades
    tradeSeq := by rw [ho.state]; exact h.tradeSeq
    numbered := by rw [ho.state]; exact h.numbered
    capital := by
      intro q hq
      obtain rfl : p = q := by simpa using hq
      rw [ho.state]
      simp [get_set_self, equityOr, hm]
    balance := by rw [ho.state]; exact ⟨m, hm, hbooked⟩ }

/-- Closing the position held, and taking it from the map, settles it. -/
theorem closes (hexact : params.numbers = .exact)
    (h : Books params.initialCapital pairs (some p) s)
    (hc : Closes params p.id p executedAt s s' record) {s'' : EngineState α ω}
    (hpositions : s''.positions = []) (hlog : s''.log = s'.log) (htrades : s''.trades = s'.trades)
    (hseq : s''.tradeSeq = s'.tradeSeq) (hshared : s''.shared = s'.shared) :
    Books params.initialCapital (pairs ++ [(p, record)]) none s'' := by
  obtain ⟨m, hm, hbooked⟩ := h.balance
  have htrades' : s''.trades = s.trades ++ [record] := by rw [htrades, hc.state]
  have hequity : s'.shared.equityState = some (m + record.pnlAmount) := by
    rw [hc.state, hexact]
    simp [hm, NumberArithmetic.exact]
  have hcapital : record.capitalAtEntry = m := by
    rw [hc.capitalAtEntry, h.capital p rfl, hm]
    rfl
  have hafter : record.equityAfter = m + record.pnlAmount := by
    rw [hc.equityAfter, equityOr, hequity]
    rfl
  exact {
    positions := hpositions
    opened := by simp
    log := by rw [hlog, hc.state]; simp [h.log, roundTrips]
    records := by
      intro e he
      rcases List.mem_append.mp he with he | he
      · exact h.records e he
      · rw [List.mem_singleton.mp he]
        exact hc.records
    trades := by rw [htrades']; simp [h.trades]
    tradeSeq := by rw [hseq, htrades', hc.state]; simp [h.tradeSeq]
    numbered := by
      rw [htrades']
      simp [h.numbered, List.range_succ, hc.tradeSeq, h.tradeSeq]
    capital := by simp
    balance :=
      ⟨_, by rw [hshared, hequity], by rw [htrades']; exact hbooked.entry hcapital hafter⟩ }

end Books

/-! ## The times -/

/-- Nothing is dated after `now`, and no trade overlaps the one before it. -/
structure Timed (now : Int) (pairs : List (Position × TradeRecord)) (held : Option Position) :
    Prop where
  ended : ∀ e ∈ pairs, e.2.entryTime ≤ e.2.exitTime ∧ e.2.exitTime ≤ now
  ordered : (pairs.map (·.2)).Pairwise (fun a b => a.exitTime ≤ b.entryTime)
  held : ∀ p ∈ held, p.openedAt ≤ now ∧ ∀ e ∈ pairs, e.2.exitTime ≤ p.openedAt

namespace Timed

variable {now now' : Int} {pairs : List (Position × TradeRecord)} {held : Option Position}
  {p : Position} {record : TradeRecord}

theorem mono (h : Timed now pairs held) (hle : now ≤ now') : Timed now' pairs held where
  ended e he := ⟨(h.ended e he).1, le_trans (h.ended e he).2 hle⟩
  ordered := h.ordered
  held q hq := ⟨le_trans (h.held q hq).1 hle, (h.held q hq).2⟩

theorem opens (h : Timed now pairs none) (hle : now ≤ p.openedAt) :
    Timed p.openedAt pairs (some p) where
  ended := (h.mono hle).ended
  ordered := h.ordered
  held q hq := by
    obtain rfl : p = q := by simpa using hq
    exact ⟨le_rfl, fun e he => le_trans (h.ended e he).2 hle⟩

theorem closes (h : Timed now pairs (some p)) (hentry : record.entryTime = p.openedAt)
    (hle : now ≤ record.exitTime) : Timed record.exitTime (pairs ++ [(p, record)]) none where
  ended := by
    intro e he
    rcases List.mem_append.mp he with he | he
    · exact (h.mono hle).ended e he
    · rw [List.mem_singleton.mp he]
      refine ⟨?_, le_rfl⟩
      rw [hentry]
      exact le_trans (h.held p rfl).1 hle
  ordered := by
    rw [List.map_append, List.pairwise_append]
    refine ⟨h.ordered, by simp, ?_⟩
    intro a ha b hb
    obtain ⟨e, he, rfl⟩ := List.mem_map.mp ha
    obtain rfl : b = record := by simpa using hb
    rw [hentry]
    exact (h.held p rfl).2 e he
  held := by simp

end Timed

/-- The invariant of a run with exact numbers: its books, and their times where the simulator
is punctual. -/
def Kept (params : EngineRunParams ω) (now : Int) (held : Option Position)
    (s : EngineState α ω) : Prop :=
  params.numbers = .exact ∧ ∃ pairs, Books params.initialCapital pairs held s ∧
    (params.executionSimulator.Punctual → Timed now pairs held)

namespace Kept

variable {params : EngineRunParams ω} {now executedAt : Int} {held : Option Position}
  {p : Position} {s s' : EngineState α ω} {record : TradeRecord}

theorem start (hexact : params.numbers = .exact) (now : Int) (adapter : α) (world : ω)
    (marketState : Option (Option ℚ)) :
    Kept params now none
      (.start adapter world ⟨some params.initialCapital, marketState⟩) :=
  ⟨hexact, [], Books.start adapter world marketState, fun _ => ⟨by simp, by simp, by simp⟩⟩

theorem holds (h : Kept params now held s) : s.Holds held :=
  h.2.choose_spec.1.toHolds

theorem mono (h : Kept params now held s) {now' : Int} (hle : now ≤ now') :
    Kept params now' held s :=
  let ⟨hexact, pairs, hb, ht⟩ := h
  ⟨hexact, pairs, hb, fun hp => (ht hp).mono hle⟩

theorem congr (h : Kept params now held s) (hpositions : s'.positions = s.positions)
    (hlog : s'.log = s.log) (htrades : s'.trades = s.trades) (hseq : s'.tradeSeq = s.tradeSeq)
    (hcapital : s'.capitalAtEntryMap = s.capitalAtEntryMap)
    (hequity : s'.shared.equityState = s.shared.equityState) : Kept params now held s' :=
  let ⟨hexact, pairs, hb, ht⟩ := h
  ⟨hexact, pairs, hb.congr hpositions hlog htrades hseq hcapital hequity, ht⟩

theorem opens (h : Kept params now none s) (ho : Opens params executedAt s s' p)
    (hle : now ≤ executedAt) : Kept params executedAt (some p) s' := by
  obtain ⟨hexact, pairs, hb, ht⟩ := h
  refine ⟨hexact, pairs, hb.opens ho, fun hp => ?_⟩
  obtain ⟨command, price, result, hfilled, htime, -⟩ := ho.filled
  have hat : p.openedAt = executedAt := htime.trans (hp.entry _ _ _ _ _ _ _ hfilled)
  rw [← hat] at hle ⊢
  exact (ht hp).opens hle

theorem closes (h : Kept params now (some p) s) (hc : Closes params p.id p executedAt s s' record)
    (hle : now ≤ executedAt) {s'' : EngineState α ω} (hpositions : s''.positions = [])
    (hlog : s''.log = s'.log) (htrades : s''.trades = s'.trades)
    (hseq : s''.tradeSeq = s'.tradeSeq) (hshared : s''.shared = s'.shared) :
    Kept params executedAt none s'' := by
  obtain ⟨hexact, pairs, hb, ht⟩ := h
  refine ⟨hexact, _, hb.closes hexact hc hpositions hlog htrades hseq hshared, fun hp => ?_⟩
  obtain ⟨command, price, result, hfilled, htime⟩ := hc.filled
  have hat : record.exitTime = executedAt := htime.trans (hp.exit _ _ _ _ _ _ _ _ _ hfilled)
  rw [← hat] at hle ⊢
  exact (ht hp).closes hc.records.entryTime hle

theorem forget (h : Kept params now (some p) s) (hc : Closes params p.id p executedAt s s' record)
    (hle : now ≤ executedAt) : Kept params executedAt none (s'.forget p.id) :=
  h.closes hc hle (hc.forget_positions h.holds) rfl rfl rfl rfl

end Kept

/-! ## What is conserved -/

def TradeEvent.isOpening : TradeEvent → Bool
  | .opened _ => true
  | .closed _ => false

/-- A finished run: nothing is open, every position opened has one record and every record
is of one, never were two open, and the records account for the equity. -/
structure Conserved (initialCapital : ℚ) (s : EngineState α ω) : Prop where
  closed : s.positions = []
  log : ∃ pairs, s.log = roundTrips pairs ∧ s.trades = pairs.map (·.2) ∧
    ∀ e ∈ pairs, Records e.1 e.2
  alone : ∀ past, past <+: s.log →
    past.countP TradeEvent.isOpening ≤ past.countP (fun e => !e.isOpening) + 1
  numbered : s.trades.map (·.tradeSeq) = List.range s.trades.length
  equityAfter : ∀ k (hk : k < s.trades.length), s.trades[k].equityAfter =
    initialCapital + ((s.trades.take (k + 1)).map (·.pnlAmount)).sum
  equity : s.shared.equityState = some (initialCapital + (s.trades.map (·.pnlAmount)).sum)
  firstCapital : ∀ h : 0 < s.trades.length, s.trades[0].capitalAtEntry = initialCapital
  nextCapital : ∀ k (hk : k + 1 < s.trades.length),
    s.trades[k + 1].capitalAtEntry = s.trades[k].equityAfter

/-- No trade ends before it begins, and none begins before the one before it has ended. -/
structure Timely (trades : List TradeRecord) : Prop where
  lasts : ∀ t ∈ trades, t.entryTime ≤ t.exitTime
  ordered : trades.Pairwise (fun a b => a.exitTime ≤ b.entryTime)

/-- In a log of round trips no two positions are open at once. -/
theorem roundTrips_alone (pairs : List (Position × TradeRecord)) {past : List TradeEvent}
    (h : past <+: roundTrips pairs) :
    past.countP TradeEvent.isOpening ≤ past.countP (fun e => !e.isOpening) + 1 := by
  induction pairs generalizing past with
  | nil =>
    obtain rfl : past = [] := by simpa [roundTrips] using h
    simp
  | cons e pairs ih =>
    have hlog : roundTrips (e :: pairs) = .opened e.1 :: .closed e.2 :: roundTrips pairs := rfl
    rw [hlog] at h
    rcases past with - | ⟨a, - | ⟨b, past⟩⟩
    · simp
    · simp only [List.countP_cons, List.countP_nil]
      split <;> omega
    · obtain ⟨hopened, htail⟩ := List.cons_prefix_cons.mp h
      obtain ⟨hclosed, hrest⟩ := List.cons_prefix_cons.mp htail
      have := ih hrest
      rw [hopened, hclosed]
      simpa [List.countP_cons, TradeEvent.isOpening] using this

theorem Kept.conserved {params : EngineRunParams ω} {now : Int} {s : EngineState α ω}
    (h : Kept params now none s) :
    Conserved params.initialCapital s ∧
      (params.executionSimulator.Punctual → Timely s.trades) := by
  obtain ⟨-, pairs, hb, ht⟩ := h
  obtain ⟨m, hm, hbooked⟩ := hb.balance
  have hlog : s.log = roundTrips pairs := by simpa using hb.log
  refine ⟨?_, fun hp => ⟨?_, ?_⟩⟩
  · exact {
      closed := hb.positions
      log := ⟨pairs, hlog, hb.trades, hb.records⟩
      alone := fun past hpast => roundTrips_alone pairs (hlog ▸ hpast)
      numbered := hb.numbered
      equityAfter := fun k hk => hbooked.after_eq hk
      equity := by rw [hm, hbooked.closing_eq]
      firstCapital := hbooked.before_zero
      nextCapital := fun k hk => hbooked.before_eq_after hk }
  · rw [hb.trades]
    intro t htm
    obtain ⟨e, he, rfl⟩ := List.mem_map.mp htm
    exact ((ht hp).ended e he).1
  · rw [hb.trades]
    exact (ht hp).ordered

end

end Luchida
