import Luchida.TimeFrameBook

/- TradingSession.onMarketData: the gate in front of `process`. One snapshot is processed
   at a time; of those that arrive meanwhile the last is kept and processed next. What
   `process` does in between is a phase of type `π`, so that the entry side and the exit
   side of the session can each be followed on their own. -/
namespace Luchida

/-- `TradingSession`: `phase` is how far `process` has come, `none` while it is idle. -/
structure TradingSession (π : Type) where
  stopped : Bool
  phase : Option π
  pendingSnapshot : Option MarketSnapshot

namespace TradingSession

variable {π : Type}

/-- A session that has started and processes nothing. -/
def started : TradingSession π := ⟨false, none, none⟩

def goto (session : TradingSession π) (phase : π) : TradingSession π :=
  { session with phase := some phase }

/-- `onMarketData` up to its first `await`. `enter` is the phase in which `process`
begins. -/
def onMarketData (pair : CurrencyPair) (enter : MarketSnapshot → π) (session : TradingSession π)
    (snapshot : MarketSnapshot) : TradingSession π :=
  if session.stopped = true then session
  else if snapshot.pair ≠ pair then session
  else match session.phase with
    -- only the latest of the snapshots that come in the meantime is kept
    | some _ => { session with pendingSnapshot := some snapshot }
    | none => session.goto (enter snapshot)

/-- `process` has resolved or thrown: the kept snapshot is next, unless the session was
stopped. -/
def settle (enter : MarketSnapshot → π) (session : TradingSession π) : TradingSession π :=
  match session.pendingSnapshot with
  | some next =>
    if session.stopped = true then ⟨true, none, none⟩ else ⟨false, some (enter next), none⟩
  | none => ⟨session.stopped, none, none⟩

/-- `stop`, up to its first `await`. -/
def stop (session : TradingSession π) : TradingSession π := { session with stopped := true }

/-- A new phase after `onMarketData` is the one `process` begins in. -/
theorem onMarketData_phase (pair : CurrencyPair) (enter : MarketSnapshot → π)
    (session : TradingSession π) (snapshot : MarketSnapshot) :
    (session.onMarketData pair enter snapshot).phase = session.phase ∨
      session.phase = none ∧
        (session.onMarketData pair enter snapshot).phase = some (enter snapshot) := by
  unfold onMarketData
  split
  · exact .inl rfl
  split
  · exact .inl rfl
  split
  · exact .inl rfl
  · rename_i hphase
    exact .inr ⟨hphase, rfl⟩

/-- After a snapshot is settled, `process` is idle or begins anew. -/
theorem settle_phase (enter : MarketSnapshot → π) (session : TradingSession π) :
    (session.settle enter).phase = none ∨
      ∃ next, (session.settle enter).phase = some (enter next) := by
  unfold settle
  split
  · rename_i next hnext
    split
    · exact .inl rfl
    · exact .inr ⟨next, rfl⟩
  · exact .inl rfl

end TradingSession

end Luchida
