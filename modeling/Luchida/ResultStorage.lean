import Luchida.BacktestRunner
import Luchida.Transactions

/- Runner.ts over PostgresResultStore.ts and PostgresBatchStore.ts: what a batch leaves in the
   tables. A result is one row of bt_runs and one of bt_trades for each of its trades, in as
   many inserts as the limit on parameters asks for, in one transaction. The tables keep their
   keys, references and the trigger of migrations/ (`Tables`).

   Any statement may be refused, and any connection lost, a commit whose answer is lost
   included. Whatever happens, the tables hold the whole results of the first sets of the
   batch and of no others, and the row of the batch tells how many (`batch_stored`). With
   nothing but answers a batch goes through exactly if its sets are all of one pair and time
   frame and each has a result whose figures fit the columns (`batch_completes_iff`). -/
namespace Luchida

open Throws Transactions

/-! ## Columns -/

/-- The types of the columns for numbers. -/
inductive ColumnType where
  | numeric (precision scale : Nat)
  | smallint
  | int
  | bigint

/-- An integer of so many bits. -/
def storeInteger (bits : Nat) (x : ℚ) : Option ℚ :=
  if x.den = 1 ∧ -2 ^ (bits - 1) ≤ x ∧ x < 2 ^ (bits - 1) then some x else none

/-- What a column takes of a number. A numeric one rounds halves away from zero. -/
def ColumnType.store : ColumnType → ℚ → Option ℚ
  | .numeric precision scale, x =>
    let stored := toFixed scale x
    if |stored| < 10 ^ (precision - scale) then some stored else none
  | .smallint, x => storeInteger 16 x
  | .int, x => storeInteger 32 x
  | .bigint, x => storeInteger 64 x

/-- A number of a row, with its column. -/
abbrev Figure := ColumnType × Option ℚ

/-- The numbers of a row. A null is taken by a column that may be null. -/
def storeAll (figures : List Figure) : Option (List (Option ℚ)) :=
  figures.mapM fun (column, figure) => match figure with
    | some x => (column.store x).map some
    | none => some none

/-! ## Rows -/

/-- `chk_sample_fold`. -/
def RunLabels.foldFits (labels : RunLabels) : Bool :=
  decide (labels.sampleType = .walkForward) == labels.foldNumber.isSome

/-- `Math.round`. -/
def mathRound (x : ℚ) : ℚ := (x + 1 / 2).floor

/-! The figures of bt_runs, with their columns, in the order of the insert. -/

def auditFigures (labels : RunLabels) : List Figure :=
  [(.numeric 14 2, some labels.initialCapital),
    (.int, some labels.tickCount),
    (.int, some labels.barCount),
    (.int, some labels.gapCount),
    (.smallint, labels.foldNumber.map fun n => (n : ℚ))]

def profitFigures (r : RunResult) : List Figure :=
  [(.numeric 12 2, some r.totalPnl),
    (.numeric 12 2, some r.grossProfit),
    (.numeric 12 2, some r.grossLoss),
    (.numeric 10 4, some r.avgPnl),
    (.numeric 10 4, some r.avgWin),
    (.numeric 10 4, some r.avgLoss),
    (.numeric 10 4, some r.medianPnl),
    (.numeric 10 4, some r.largestWin),
    (.numeric 10 4, some r.largestLoss),
    (.numeric 8 4, some r.payoffRatio),
    (.numeric 8 4, some r.profitFactor),
    (.numeric 10 4, some r.expectancyPips),
    (.numeric 10 4, some r.pnlPerDay)]

def countFigures (r : RunResult) : List Figure :=
  [(.int, some r.tradeCount),
    (.int, some r.winCount),
    (.int, some r.lossCount),
    (.numeric 5 4, some r.winRate),
    (.int, some r.longCount),
    (.int, some r.shortCount),
    (.numeric 5 4, some r.longWinRate),
    (.numeric 5 4, some r.shortWinRate),
    (.numeric 8 2, some r.tradesPerMonth)]

def riskFigures (r : RunResult) : List Figure :=
  [(.numeric 12 2, some r.maxDrawdown),
    (.numeric 7 4, some r.maxDrawdownPct),
    (.bigint, some r.maxDrawdownDurationMs),
    (.numeric 12 2, some r.avgDrawdown),
    (.numeric 8 4, some r.calmarRatio),
    (.numeric 8 4, some r.recoveryFactor),
    (.numeric 8 4, some r.ulcerIndex)]

def stabilityFigures (r : RunResult) : List Figure :=
  [(.numeric 10 4, some r.pnlStddev),
    (.numeric 8 4, some r.sharpeRatio),
    (.numeric 10 4, some r.annualizedSharpeRatio),
    (.numeric 8 4, some r.sortinoRatio),
    (.numeric 10 4, some r.annualizedSortinoRatio),
    (.numeric 10 4, some r.sortinoStandard),
    (.numeric 10 4, some r.annualizedSortinoStandard),
    (.numeric 8 4, some r.sqn),
    (.numeric 8 4, some r.sqnCapped),
    (.int, some r.maxConsecutiveWins),
    (.int, some r.maxConsecutiveLosses)]

def tailFigures (r : RunResult) : List Figure :=
  [(.numeric 10 4, some r.avgMfe),
    (.numeric 10 4, some r.avgMae),
    (.numeric 7 4, some r.mfeEfficiency),
    (.bigint, some (mathRound r.avgHoldingPeriodMs)),
    (.int, some r.durationMs)]

def runFigures (r : RunResult) : List Figure :=
  auditFigures r.labels ++ profitFigures r ++ countFigures r ++ riskFigures r ++
    stabilityFigures r ++ tailFigures r

/-- A row of bt_runs. -/
structure RunRow where
  labels : RunLabels
  dateFrom : Int
  dateTo : Int
  hasDownsideRisk : Bool
  standardMetricsComputed : Bool
  status : String
  ranAt : Int
  figures : List (Option ℚ)

/-- The row of a result, if its figures fit. -/
def RunRow.of (r : RunResult) : Option RunRow :=
  (storeAll (runFigures r)).map fun figures => {
    labels := r.labels
    dateFrom := r.dateFrom
    dateTo := r.dateTo
    hasDownsideRisk := r.hasDownsideRisk
    standardMetricsComputed := true
    status := r.status
    ranAt := r.ranAt
    figures := figures }

/-- The figures of bt_trades, in the order of the insert. -/
def tradeFigures (t : TradeRecord) : List Figure :=
  [(.int, some t.tradeSeq),
    (.numeric 12 5, some t.entryPrice),
    (.numeric 12 5, some t.exitPrice),
    (.numeric 10 2, some t.lot),
    (.numeric 10 2, some t.pnlPips),
    (.numeric 12 2, some t.pnlAmount),
    (.numeric 14 2, some t.capitalAtEntry),
    (.numeric 10 2, some t.mfePips),
    (.numeric 10 2, some t.maePips),
    (.numeric 10 5, t.atrAtEntry),
    (.bigint, some t.holdingPeriodMs),
    (.smallint, some t.entryHourUtc),
    (.smallint, some t.entryDayOfWeek),
    (.numeric 6 2, some t.slippagePips),
    (.numeric 14 2, some t.equityAfter)]

/-- A row of bt_trades. -/
structure TradeRow where
  id : String
  runId : String
  tradeSeq : Nat
  side : BuySell
  entryTime : Int
  exitTime : Int
  mfeTime : Int
  maeTime : Int
  exitType : ExitType
  figures : List (Option ℚ)

/-- The row of a trade, under an id of its own, if its figures fit. -/
def TradeRow.of (runId : String) (trade : String × TradeRecord) : Option TradeRow :=
  let (id, t) := trade
  (storeAll (tradeFigures t)).map fun figures => {
    id := id
    runId := runId
    tradeSeq := t.tradeSeq
    side := t.side
    entryTime := t.entryTime
    exitTime := t.exitTime
    mfeTime := t.mfeTime
    maeTime := t.maeTime
    exitType := t.exitType
    figures := figures }

theorem RunRow.of_labels {r : RunResult} {row : RunRow} (h : RunRow.of r = some row) :
    row.labels = r.labels := by
  obtain ⟨figures, -, rfl⟩ := Option.map_eq_some_iff.mp h
  rfl

theorem TradeRow.of_keys {runId : String} {trade : String × TradeRecord} {row : TradeRow}
    (h : TradeRow.of runId trade = some row) :
    row.id = trade.1 ∧ row.runId = runId ∧ row.tradeSeq = trade.2.tradeSeq := by
  obtain ⟨figures, -, rfl⟩ := Option.map_eq_some_iff.mp h
  exact ⟨rfl, rfl, rfl⟩

/-! ## Tables -/

/-- A row of bt_batches. The status is none while the batch is RUNNING. -/
structure BatchRow extends Batch where
  completedRuns : Nat
  status : Option BatchStatus

/-- The row of a batch as it is inserted. -/
def Batch.row (batch : Batch) : BatchRow := { batch with completedRuns := 0, status := none }

/-- `trg_check_run_batch`, and the reference of a run. -/
def BatchRow.Takes (batch : BatchRow) (labels : RunLabels) : Prop :=
  batch.batchId = labels.batchId ∧ batch.strategy = labels.strategy ∧ batch.pair = labels.pair ∧
    batch.timeframe = labels.timeframe

instance (batch : BatchRow) (labels : RunLabels) : Decidable (batch.Takes labels) :=
  inferInstanceAs (Decidable (_ ∧ _ ∧ _ ∧ _))

/-- `UNIQUE (run_id, trade_seq)`. -/
def TradeRow.key (row : TradeRow) : String × Nat := (row.runId, row.tradeSeq)

/-- The tables, with their keys and references. -/
structure Tables where
  batches : List BatchRow
  runs : List RunRow
  trades : List TradeRow
  batch_ids : (batches.map (·.batchId)).Nodup
  run_ids : (runs.map (·.labels.id)).Nodup
  run_batch : ∀ run ∈ runs, ∃ batch ∈ batches, batch.Takes run.labels
  trade_ids : (trades.map (·.id)).Nodup
  trade_keys : (trades.map (·.key)).Nodup
  trade_run : ∀ trade ∈ trades, ∃ run ∈ runs, run.labels.id = trade.runId

theorem nodup_map_snoc {α β : Type} {f : α → β} {l : List α} (h : (l.map f).Nodup) {a : α}
    (ha : f a ∉ l.map f) : ((l ++ [a]).map f).Nodup := by
  rw [List.map_append, List.nodup_append]
  refine ⟨h, List.nodup_singleton _, fun x hx y hy hxy => ?_⟩
  rw [List.map_singleton, List.mem_singleton] at hy
  exact ha (hy ▸ hxy ▸ hx)

theorem not_mem_of_nodup_append {α : Type} {l l' : List α} {a : α} (h : (l ++ a :: l').Nodup) :
    a ∉ l := fun ha => (List.nodup_append.mp h).2.2 a ha a (List.mem_cons_self ..) rfl

namespace Tables

/-- The insert of `PostgresBatchStore.create`. -/
def insertBatch (batch : Batch) (t : Tables) : Option Tables :=
  if h : batch.row.batchId ∉ t.batches.map (·.batchId) then some { t with
    batches := t.batches ++ [batch.row]
    batch_ids := nodup_map_snoc t.batch_ids h
    run_batch := by
      intro run hrun
      obtain ⟨b, hb, htakes⟩ := t.run_batch run hrun
      exact ⟨b, List.mem_append_left _ hb, htakes⟩ }
  else none

/-- What the update of `PostgresBatchStore.complete` does to a row. -/
def completed (t : Tables) (batchId : String) (status : BatchStatus) (batch : BatchRow) :
    BatchRow :=
  if batch.batchId = batchId then { batch with
    completedRuns := (t.runs.filter (·.labels.batchId = batchId)).length
    status := some status }
  else batch

theorem completed_batchId (t : Tables) (batchId : String) (status : BatchStatus)
    (batch : BatchRow) : (t.completed batchId status batch).batchId = batch.batchId := by
  unfold completed
  split <;> rfl

theorem completed_takes {t : Tables} {batchId : String} {status : BatchStatus} {batch : BatchRow}
    {labels : RunLabels} (h : batch.Takes labels) :
    (t.completed batchId status batch).Takes labels := by
  unfold completed
  split
  · exact h
  · exact h

/-- The update of `PostgresBatchStore.complete`. It changes no row where there is no batch. -/
def completeBatch (batchId : String) (status : BatchStatus) (t : Tables) : Option Tables :=
  some { t with
    batches := t.batches.map (t.completed batchId status)
    batch_ids := by
      have hids : (t.batches.map (t.completed batchId status)).map (·.batchId) =
          t.batches.map (·.batchId) := by
        rw [List.map_map]
        exact List.map_congr_left fun b _ => t.completed_batchId batchId status b
      rw [hids]
      exact t.batch_ids
    run_batch := by
      intro run hrun
      obtain ⟨b, hb, htakes⟩ := t.run_batch run hrun
      exact ⟨_, List.mem_map_of_mem hb, completed_takes htakes⟩ }

/-- A row of bt_runs that is taken by the keys, the reference and the trigger. -/
def addRun (row : RunRow) (t : Tables) : Option Tables :=
  if h : row.labels.id ∉ t.runs.map (·.labels.id) ∧
      ∃ batch ∈ t.batches, batch.Takes row.labels then some { t with
    runs := t.runs ++ [row]
    run_ids := nodup_map_snoc t.run_ids h.1
    run_batch := by
      intro run hrun
      rcases List.mem_append.mp hrun with hrun | hrun
      · exact t.run_batch run hrun
      · rw [List.mem_singleton.mp hrun]
        exact h.2
    trade_run := by
      intro trade htrade
      obtain ⟨run, hrun, heq⟩ := t.trade_run trade htrade
      exact ⟨run, List.mem_append_left _ hrun, heq⟩ }
  else none

/-- `insertRun`. `chk_zero_semantics` refuses no row whose metrics were computed. -/
def insertRun (r : RunResult) (t : Tables) : Option Tables :=
  if r.labels.foldFits then (RunRow.of r).bind fun row => t.addRun row else none

/-- A row of bt_trades that is taken by the keys and the reference. -/
def addTrade (row : TradeRow) (t : Tables) : Option Tables :=
  if h : row.id ∉ t.trades.map (·.id) ∧ row.key ∉ t.trades.map (·.key) ∧
      ∃ run ∈ t.runs, run.labels.id = row.runId then some { t with
    trades := t.trades ++ [row]
    trade_ids := nodup_map_snoc t.trade_ids h.1
    trade_keys := nodup_map_snoc t.trade_keys h.2.1
    trade_run := by
      intro trade htrade
      rcases List.mem_append.mp htrade with htrade | htrade
      · exact t.trade_run trade htrade
      · rw [List.mem_singleton.mp htrade]
        exact h.2.2 }
  else none

/-- One row of an insert into bt_trades. -/
def insertTrade (runId : String) (t : Tables) (trade : String × TradeRecord) : Option Tables :=
  (TradeRow.of runId trade).bind fun row => t.addTrade row

/-- `COLS_PER_ROW`. -/
def colsPerRow : Nat := 23

/-- An insert of `insertTrades`. The server takes no more than 65535 parameters. -/
def insertTrades (runId : String) (batch : List (String × TradeRecord)) (t : Tables) :
    Option Tables :=
  if colsPerRow * batch.length ≤ 65535 then batch.foldlM (insertTrade runId) t else none

/-! ### What the inserts do -/

/-- Rows were added to the two tables of results, and the batches are as they were. -/
structure Grown (t t' : Tables) (runs : List RunRow) (trades : List TradeRow) : Prop where
  batches : t'.batches = t.batches
  runs : t'.runs = t.runs ++ runs
  trades : t'.trades = t.trades ++ trades

variable {t t' : Tables}

theorem addRun_grown {row : RunRow} (h : t.addRun row = some t') : Grown t t' [row] [] := by
  unfold addRun at h
  split at h
  · cases h
    exact ⟨rfl, rfl, (List.append_nil _).symm⟩
  · cases h

theorem addTrade_grown {row : TradeRow} (h : t.addTrade row = some t') : Grown t t' [] [row] := by
  unfold addTrade at h
  split at h
  · cases h
    exact ⟨rfl, (List.append_nil _).symm, rfl⟩
  · cases h

theorem Grown.runs_nil {trades : List TradeRow} (h : Grown t t' [] trades) : t'.runs = t.runs := by
  rw [h.runs, List.append_nil]

theorem exists_addTrade_iff {row : TradeRow} : (∃ t', t.addTrade row = some t') ↔
    row.id ∉ t.trades.map (·.id) ∧ row.key ∉ t.trades.map (·.key) ∧
      ∃ run ∈ t.runs, run.labels.id = row.runId := by
  constructor
  · intro h
    obtain ⟨t', h⟩ := h
    unfold addTrade at h
    split at h
    · rename_i hfresh
      exact hfresh
    · cases h
  · intro h
    exact ⟨_, dif_pos h⟩

theorem exists_addRun_iff {row : RunRow} : (∃ t', t.addRun row = some t') ↔
    row.labels.id ∉ t.runs.map (·.labels.id) ∧
      ∃ batch ∈ t.batches, batch.Takes row.labels := by
  constructor
  · intro h
    obtain ⟨t', h⟩ := h
    unfold addRun at h
    split at h
    · rename_i hfresh
      exact hfresh
    · cases h
  · intro h
    exact ⟨_, dif_pos h⟩

theorem Grown.trans {t'' : Tables} {runs runs' : List RunRow} {trades trades' : List TradeRow}
    (h : Grown t t' runs trades) (h' : Grown t' t'' runs' trades') :
    Grown t t'' (runs ++ runs') (trades ++ trades') where
  batches := h'.batches.trans h.batches
  runs := by rw [h'.runs, h.runs, List.append_assoc]
  trades := by rw [h'.trades, h.trades, List.append_assoc]

/-- The rows of an insert into bt_trades, one after the other. -/
theorem insertTrades_grown {runId : String} {trades : List (String × TradeRecord)}
    (h : trades.foldlM (insertTrade runId) t = some t') :
    ∃ rows, trades.map (TradeRow.of runId) = rows.map some ∧ Grown t t' [] rows := by
  induction trades generalizing t with
  | nil =>
    cases h
    exact ⟨[], rfl, rfl, (List.append_nil _).symm, (List.append_nil _).symm⟩
  | cons trade rest ih =>
    rw [List.foldlM_cons] at h
    obtain ⟨t₁, hinsert, hrest⟩ := Option.bind_eq_some_iff.mp h
    obtain ⟨row, hrow, hadd⟩ := Option.bind_eq_some_iff.mp hinsert
    obtain ⟨rows, hrows, hgrown⟩ := ih hrest
    refine ⟨row :: rows, ?_, (addTrade_grown hadd).trans hgrown⟩
    rw [List.map_cons, hrow, hrows]
    rfl

/-- An insert into bt_trades goes through exactly if the figures fit, no key is there twice, and
the run is there. -/
theorem exists_insertTrades_iff {runId : String} {trades : List (String × TradeRecord)}
    (hrun : ∃ run ∈ t.runs, run.labels.id = runId) :
    (∃ t', trades.foldlM (insertTrade runId) t = some t') ↔
      (∀ trade ∈ trades, (TradeRow.of runId trade).isSome = true) ∧
      (t.trades.map (·.id) ++ trades.map (·.1)).Nodup ∧
      (t.trades.map (·.key) ++ trades.map fun trade => (runId, trade.2.tradeSeq)).Nodup := by
  induction trades generalizing t with
  | nil =>
    refine ⟨fun _ => ⟨by simp, ?_, ?_⟩, fun _ => ⟨t, rfl⟩⟩
    · rw [List.map_nil, List.append_nil]
      exact t.trade_ids
    · rw [List.map_nil, List.append_nil]
      exact t.trade_keys
  | cons trade rest ih =>
    constructor
    · intro h
      obtain ⟨t', h⟩ := h
      rw [List.foldlM_cons] at h
      obtain ⟨t₁, hinsert, hrest⟩ := Option.bind_eq_some_iff.mp h
      obtain ⟨row, hrow, hadd⟩ := Option.bind_eq_some_iff.mp hinsert
      have hgrown := addTrade_grown hadd
      obtain ⟨hid, hrunId, hseq⟩ := TradeRow.of_keys hrow
      obtain ⟨hfit, hids, hkeys⟩ := (ih (hgrown.runs_nil ▸ hrun)).mp ⟨t', hrest⟩
      refine ⟨?_, ?_, ?_⟩
      · intro trade' htrade'
        rcases List.mem_cons.mp htrade' with rfl | htrade'
        · rw [hrow]
          rfl
        · exact hfit trade' htrade'
      · rw [hgrown.trades, List.map_append, List.append_assoc, List.map_singleton, hid] at hids
        exact hids
      · rw [hgrown.trades, List.map_append, List.append_assoc, List.map_singleton, TradeRow.key,
          hrunId, hseq] at hkeys
        exact hkeys
    · intro h
      obtain ⟨hfit, hids, hkeys⟩ := h
      obtain ⟨row, hrow⟩ := Option.isSome_iff_exists.mp (hfit trade (List.mem_cons_self ..))
      obtain ⟨hid, hrunId, hseq⟩ := TradeRow.of_keys hrow
      have hkey : row.key = (runId, trade.2.tradeSeq) := by rw [TradeRow.key, hrunId, hseq]
      have hfresh : row.id ∉ t.trades.map (·.id) ∧ row.key ∉ t.trades.map (·.key) ∧
          ∃ run ∈ t.runs, run.labels.id = row.runId :=
        ⟨hid ▸ not_mem_of_nodup_append hids, hkey ▸ not_mem_of_nodup_append hkeys, hrunId ▸ hrun⟩
      obtain ⟨t₁, hadd⟩ := exists_addTrade_iff.mpr hfresh
      have hgrown := addTrade_grown hadd
      obtain ⟨t', hrest⟩ := (ih (t := t₁) (hgrown.runs_nil ▸ hrun)).mpr ⟨
        fun trade' htrade' => hfit trade' (List.mem_cons_of_mem _ htrade'),
        by rw [hgrown.trades, List.map_append, List.append_assoc, List.map_singleton, hid]
           exact hids,
        by rw [hgrown.trades, List.map_append, List.append_assoc, List.map_singleton, hkey]
           exact hkeys⟩
      refine ⟨t', ?_⟩
      rw [List.foldlM_cons]
      exact Option.bind_eq_some_iff.mpr ⟨t₁, Option.bind_eq_some_iff.mpr ⟨row, hrow, hadd⟩, hrest⟩

end Tables

/-! ## Slices -/

/-- The slices of an array at the offsets `0`, `size`, `2 * size` and so on. -/
def slices {α : Type} (size : Nat) (l : List α) : List (List α) :=
  (List.range ((l.length + size - 1) / size)).map fun k => (l.drop (k * size)).take size

theorem slices_short {α : Type} {size : Nat} {l slice : List α} (h : slice ∈ slices size l) :
    slice.length ≤ size := by
  obtain ⟨k, -, rfl⟩ := List.mem_map.mp h
  rw [List.length_take]
  exact Nat.min_le_left ..

theorem flatten_takes {α : Type} (size n : Nat) (l : List α) (h : l.length ≤ n * size) :
    ((List.range n).map fun k => (l.drop (k * size)).take size).flatten = l := by
  induction n generalizing l with
  | zero =>
    rw [Nat.zero_mul] at h
    rw [List.length_eq_zero_iff.mp (Nat.le_zero.mp h)]
    rfl
  | succ n ih =>
    have hrest := ih (l.drop size) (by rw [List.length_drop, Nat.succ_mul] at *; omega)
    rw [List.range_succ_eq_map, List.map_cons, List.flatten_cons, List.map_map, Nat.zero_mul,
      List.drop_zero]
    have hshift : ((fun k => (l.drop (k * size)).take size) ∘ Nat.succ) =
        fun k => ((l.drop size).drop (k * size)).take size := by
      funext k
      rw [Function.comp_apply, List.drop_drop, Nat.succ_mul, Nat.add_comm]
    rw [hshift, hrest, List.take_append_drop]

/-- Nothing is lost between the slices, and nothing is in two of them. -/
theorem slices_flatten {α : Type} {size : Nat} (hsize : 0 < size) (l : List α) :
    (slices size l).flatten = l := by
  refine flatten_takes size _ l ?_
  have hdiv := Nat.div_add_mod (l.length + size - 1) size
  have hmod := Nat.mod_lt (l.length + size - 1) hsize
  rw [Nat.mul_comm] at hdiv
  omega

/-! ## A result -/

section
variable (tradeId : String → Nat → String)

/-- The trades of a result, each with the id that `randomUUID` gives it. -/
def numberedTrades (r : RunResult) : List (String × TradeRecord) :=
  r.trades.zipIdx.map fun (t, i) => (tradeId r.labels.id i, t)

/-- `BATCH_SIZE`. -/
def tradeBatchSize : Nat := 65535 / Tables.colsPerRow

/-- The statements of `save` between `BEGIN` and `COMMIT`. -/
def saveChanges (r : RunResult) : List (Client.Change Tables) :=
  Tables.insertRun r ::
    (slices tradeBatchSize (numberedTrades tradeId r)).map (Tables.insertTrades r.labels.id)

/-- `PostgresResultStore.save`. -/
def save (replies : Nat → Reply) (r : RunResult) (c : Client Tables) :
    Except QueryError Unit × Client Tables :=
  Client.connect replies c (Client.transact replies (saveChanges tradeId r))

/-- The inserts of slices that are short enough are one insert of all. -/
theorem applyAll_insertTrades (runId : String) {parts : List (List (String × TradeRecord))}
    (hshort : ∀ part ∈ parts, part.length ≤ tradeBatchSize) (t : Tables) :
    applyAll (parts.map (Tables.insertTrades runId)) t =
      parts.flatten.foldlM (Tables.insertTrade runId) t := by
  induction parts generalizing t with
  | nil => rfl
  | cons part rest ih =>
    have hlimit : Tables.colsPerRow * part.length ≤ 65535 :=
      calc Tables.colsPerRow * part.length
          ≤ Tables.colsPerRow * tradeBatchSize :=
            Nat.mul_le_mul_left _ (hshort part (List.mem_cons_self ..))
        _ ≤ 65535 := Nat.mul_div_le ..
    rw [List.map_cons, applyAll_cons, List.flatten_cons, List.foldlM_append, Tables.insertTrades,
      if_pos hlimit]
    exact congrArg _ (funext fun t => ih (fun p hp => hshort p (List.mem_cons_of_mem _ hp)) t)

variable {tradeId}

/-- The limit on parameters refuses no result. -/
theorem applyAll_saveChanges (r : RunResult) (t : Tables) :
    applyAll (saveChanges tradeId r) t = (Tables.insertRun r t).bind fun t =>
      (numberedTrades tradeId r).foldlM (Tables.insertTrade r.labels.id) t := by
  unfold saveChanges
  rw [applyAll_cons]
  refine congrArg _ (funext fun t => ?_)
  rw [applyAll_insertTrades _ (fun part hpart => slices_short hpart),
    slices_flatten (by decide)]

variable (tradeId) in
/-- The tables have grown by these results, whole and in this order. -/
structure Stored (t t' : Tables) (results : List RunResult) : Prop where
  runs : ∃ rows, results.map RunRow.of = rows.map some ∧ t'.runs = t.runs ++ rows
  trades : ∃ rows, (results.flatMap fun r =>
      (numberedTrades tradeId r).map (TradeRow.of r.labels.id)) = rows.map some ∧
    t'.trades = t.trades ++ rows

theorem Stored.refl (t : Tables) : Stored tradeId t t [] :=
  ⟨⟨[], rfl, (List.append_nil _).symm⟩, [], rfl, (List.append_nil _).symm⟩

theorem Stored.trans {t t' t'' : Tables} {results results' : List RunResult}
    (h : Stored tradeId t t' results) (h' : Stored tradeId t' t'' results') :
    Stored tradeId t t'' (results ++ results') := by
  obtain ⟨⟨runs, hruns, hgrown⟩, trades, htrades, htradesGrown⟩ := h
  obtain ⟨⟨runs', hruns', hgrown'⟩, trades', htrades', htradesGrown'⟩ := h'
  refine ⟨⟨runs ++ runs', ?_, ?_⟩, trades ++ trades', ?_, ?_⟩
  · rw [List.map_append, List.map_append, hruns, hruns']
  · rw [hgrown', hgrown, List.append_assoc]
  · rw [List.flatMap_append, List.map_append, htrades, htrades']
  · rw [htradesGrown', htradesGrown, List.append_assoc]

variable (tradeId) in
theorem numberedTrades_ids (r : RunResult) : (numberedTrades tradeId r).map (·.1) =
    (List.range r.trades.length).map (tradeId r.labels.id) := by
  have hsnd : r.trades.zipIdx.map Prod.snd = List.range r.trades.length := by
    rw [List.zipIdx_map_snd, List.range_eq_range']
  unfold numberedTrades
  rw [List.map_map, ← hsnd, List.map_map]
  rfl

theorem map_eq_of_map_some {α β γ : Type} {f : α → Option β} {g : β → γ} {k : α → γ} {l : List α}
    {rows : List β} (h : l.map f = rows.map some) (hkeys : ∀ a b, f a = some b → g b = k a) :
    rows.map g = l.map k := by
  induction l generalizing rows with
  | nil =>
    rw [List.map_nil] at h
    rw [List.map_eq_nil_iff.mp h.symm]
    rfl
  | cons a rest ih =>
    cases rows with
    | nil => cases h
    | cons b rows =>
      rw [List.map_cons, List.map_cons] at h
      obtain ⟨hfirst, hrest⟩ := List.cons.inj h
      rw [List.map_cons, List.map_cons, hkeys a b hfirst, ih hrest]

/-- The keys of a stored result are its own. -/
theorem Stored.keys {t t' : Tables} {r : RunResult} (h : Stored tradeId t t' [r]) :
    t'.runs.map (·.labels.id) = t.runs.map (·.labels.id) ++ [r.labels.id] ∧
      t'.trades.map (·.id) = t.trades.map (·.id) ++ (numberedTrades tradeId r).map (·.1) := by
  obtain ⟨⟨runs, hruns, hgrown⟩, trades, htrades, hgrown'⟩ := h
  rw [List.flatMap_singleton] at htrades
  constructor
  · rw [hgrown, List.map_append, map_eq_of_map_some (k := fun r : RunResult => r.labels.id) hruns
      fun r row hrow => by rw [RunRow.of_labels hrow]]
    rfl
  · rw [hgrown', List.map_append, map_eq_of_map_some (k := fun t : String × TradeRecord => t.1)
      htrades fun trade row hrow => (TradeRow.of_keys hrow).1]

/-- A committed save has stored the result, and left the batches alone. -/
theorem stored_of_applyAll {r : RunResult} {t t' : Tables}
    (h : applyAll (saveChanges tradeId r) t = some t') :
    Stored tradeId t t' [r] ∧ t'.batches = t.batches := by
  rw [applyAll_saveChanges] at h
  obtain ⟨t₁, hrun, htrades⟩ := Option.bind_eq_some_iff.mp h
  unfold Tables.insertRun at hrun
  split at hrun
  · obtain ⟨row, hrow, hadd⟩ := Option.bind_eq_some_iff.mp hrun
    obtain ⟨rows, hrows, hgrown⟩ := Tables.insertTrades_grown htrades
    have hall := (Tables.addRun_grown hadd).trans hgrown
    refine ⟨⟨⟨[row], ?_, hall.runs⟩, rows, ?_, hall.trades⟩, hall.batches⟩
    · rw [List.map_singleton, hrow]
      rfl
    · rw [List.flatMap_singleton, hrows]
  · cases hrun

/-- A save stores the result whole, told or not, or leaves the tables as they were. -/
theorem save_cases (tradeId : String → Nat → String) (replies : Nat → Reply) (r : RunResult)
    {c : Client Tables} (h : c.Released) :
    (∃ outcome c', save tradeId replies r c = (outcome, c') ∧ c'.Released ∧
      c'.committed.batches = c.committed.batches ∧ Stored tradeId c.committed c'.committed [r]) ∨
    (∃ e c', save tradeId replies r c = (.error e, c') ∧ c'.Released ∧
      c'.committed = c.committed) := by
  obtain ⟨hended, hreleased⟩ := Client.connect_transact replies (saveChanges tradeId r) h
  unfold save
  generalize Client.connect replies c (Client.transact replies (saveChanges tradeId r)) = result
    at hended hreleased
  cases hended with
  | committed changed =>
    obtain ⟨hstored, hbatches⟩ := stored_of_applyAll changed
    exact .inl ⟨_, _, rfl, hreleased, hbatches, hstored⟩
  | kept hkept => exact .inr ⟨_, _, rfl, hreleased, hkept⟩

/-- The figures of a result fit the columns, and its trades are numbered apart. -/
structure Fits (r : RunResult) : Prop where
  fold : r.labels.foldFits = true
  run : (RunRow.of r).isSome = true
  trades : ∀ trade ∈ r.trades, (storeAll (tradeFigures trade)).isSome = true
  numbered : (r.trades.map (·.tradeSeq)).Nodup

variable (tradeId) in
theorem numberedTrades_records (r : RunResult) :
    (numberedTrades tradeId r).map (·.2) = r.trades := by
  unfold numberedTrades
  rw [List.map_map]
  exact List.zipIdx_map_fst ..

theorem fits_trades_iff (r : RunResult) :
    (∀ trade ∈ numberedTrades tradeId r, (TradeRow.of r.labels.id trade).isSome = true) ↔
      ∀ trade ∈ r.trades, (storeAll (tradeFigures trade)).isSome = true := by
  rw [← numberedTrades_records tradeId r, List.forall_mem_map]
  exact forall₂_congr fun trade _ => by rw [TradeRow.of, Option.isSome_map]

/-- The row that was added is that of the result. -/
theorem runAdded {r : RunResult} {row : RunRow} {t t' : Tables} (hrow : RunRow.of r = some row)
    (hadd : t.addRun row = some t') : ∃ run ∈ t'.runs, run.labels.id = r.labels.id := by
  refine ⟨row, ?_, by rw [RunRow.of_labels hrow]⟩
  rw [(Tables.addRun_grown hadd).runs]
  exact List.mem_append_right _ (List.mem_singleton_self row)

theorem newKeys_eq (r : RunResult) :
    (numberedTrades tradeId r).map (fun trade => (r.labels.id, trade.2.tradeSeq)) =
      (r.trades.map (·.tradeSeq)).map (Prod.mk r.labels.id) := by
  rw [← numberedTrades_records tradeId r, List.map_map, List.map_map]
  rfl

/-- A trade of a new run has the number of no other. -/
theorem newKeys_nodup {r : RunResult} {t : Tables} (hrun : r.labels.id ∉ t.runs.map (·.labels.id))
    (hnumbered : (r.trades.map (·.tradeSeq)).Nodup) :
    (t.trades.map (·.key) ++ (numberedTrades tradeId r).map
      fun trade => (r.labels.id, trade.2.tradeSeq)).Nodup := by
  rw [newKeys_eq, List.nodup_append]
  refine ⟨t.trade_keys, hnumbered.map (Prod.mk_right_injective _), fun x hx y hy hxy => ?_⟩
  obtain ⟨trade, htrade, rfl⟩ := List.mem_map.mp hx
  obtain ⟨seq, -, rfl⟩ := List.mem_map.mp hy
  obtain ⟨run, hmem, hid⟩ := t.trade_run trade htrade
  have hrunId : trade.runId = r.labels.id := congrArg Prod.fst hxy
  exact hrun (List.mem_map.mpr ⟨run, hmem, hid.trans hrunId⟩)

/-- With new ids a result is taken exactly if it fits and its batch takes it. -/
theorem exists_applyAll_iff {r : RunResult} {t : Tables}
    (hrun : r.labels.id ∉ t.runs.map (·.labels.id))
    (htrades : (t.trades.map (·.id) ++ (numberedTrades tradeId r).map (·.1)).Nodup) :
    (∃ t', applyAll (saveChanges tradeId r) t = some t') ↔
      Fits r ∧ ∃ batch ∈ t.batches, batch.Takes r.labels := by
  rw [applyAll_saveChanges]
  constructor
  · intro h
    obtain ⟨t', h⟩ := h
    obtain ⟨t₁, hinsert, hrest⟩ := Option.bind_eq_some_iff.mp h
    unfold Tables.insertRun at hinsert
    split at hinsert
    · rename_i hfold
      obtain ⟨row, hrow, hadd⟩ := Option.bind_eq_some_iff.mp hinsert
      obtain ⟨-, hbatch⟩ := Tables.exists_addRun_iff.mp ⟨t₁, hadd⟩
      obtain ⟨hfit, -, hkeys⟩ :=
        (Tables.exists_insertTrades_iff (runAdded hrow hadd)).mp ⟨t', hrest⟩
      refine ⟨⟨hfold, by rw [hrow]; rfl, (fits_trades_iff r).mp hfit, ?_⟩,
        RunRow.of_labels hrow ▸ hbatch⟩
      rw [newKeys_eq] at hkeys
      exact (List.nodup_append.mp hkeys).2.1.of_map _
    · cases hinsert
  · intro h
    obtain ⟨hfits, hbatch⟩ := h
    obtain ⟨row, hrow⟩ := Option.isSome_iff_exists.mp hfits.run
    have hlabels := RunRow.of_labels hrow
    obtain ⟨t₁, hadd⟩ := Tables.exists_addRun_iff.mpr
      ⟨by rw [hlabels]; exact hrun, by rw [hlabels]; exact hbatch⟩
    have htradesKept : t₁.trades = t.trades := by
      rw [(Tables.addRun_grown hadd).trades, List.append_nil]
    obtain ⟨t', hrest⟩ := (Tables.exists_insertTrades_iff (runAdded hrow hadd)).mpr
      ⟨(fits_trades_iff r).mpr hfits.trades, htradesKept ▸ htrades,
        htradesKept ▸ newKeys_nodup hrun hfits.numbered⟩
    refine ⟨t', Option.bind_eq_some_iff.mpr ⟨t₁, ?_, hrest⟩⟩
    unfold Tables.insertRun
    rw [if_pos hfits.fold, hrow]
    exact hadd

end

/-! ## A batch -/

/-- What ends a batch: what a run throws, or what a store throws. -/
inductive BatchError where
  | run (error : RunnerError)
  | store (error : QueryError)

/-- The results are those of the first of the sets, the run with this number first. -/
inductive FirstRuns (σ : Type) [SmaCalculator σ] (runner : BacktestRunner) (batchId : String)
    (sampleMeta : SampleMeta) : Nat → List SmaCrossParameters → List RunResult → Prop
  | none (run : Nat) (sets : List SmaCrossParameters) :
      FirstRuns σ runner batchId sampleMeta run sets []
  | next {run : Nat} {ps : SmaCrossParameters} {rest : List SmaCrossParameters}
      {result : RunResult} {results : List RunResult}
      (first : runner.runOne σ batchId sampleMeta run ps = .ok result)
      (others : FirstRuns σ runner batchId sampleMeta (run + 1) rest results) :
      FirstRuns σ runner batchId sampleMeta run (ps :: rest) (result :: results)

namespace BacktestRunner

section
variable (runner : BacktestRunner) (tradeId : String → Nat → String) (replies : Nat → Reply)
  (batchId : String) (sampleMeta : SampleMeta)

/-- What `create` is told. -/
def newBatch (ps0 : SmaCrossParameters) (sets : List SmaCrossParameters) (description : String) :
    Batch where
  batchId := batchId
  description := description
  totalRuns := sets.length
  strategy := .smaCross
  pair := ps0.pair
  timeframe := ps0.timeframe

/-- `batchStore.create`, where there is something to run. -/
def createRow (sets : List SmaCrossParameters) (description : String) (c : Client Tables) :
    Except QueryError Unit × Client Tables :=
  match sets with
  | [] => (.ok (), c)
  | ps0 :: _ =>
    Client.poolQuery replies (Tables.insertBatch (newBatch batchId ps0 sets description)) c

/-- `batchStore.complete`. -/
def completeRow (status : BatchStatus) (c : Client Tables) :
    Except QueryError Unit × Client Tables :=
  Client.poolQuery replies (Tables.completeBatch batchId status) c

section
variable (σ : Type) [SmaCalculator σ]

/-- The loop of `run` over a store, from the run with this number on. -/
def storeSets (run : Nat) : List SmaCrossParameters → Client Tables →
    Except BatchError (List RunResult) × Client Tables
  | [], c => (.ok [], c)
  | ps :: rest, c =>
    match runner.runOne σ batchId sampleMeta run ps with
    | .error e => (.error (.run e), c)
    | .ok result =>
      match save tradeId replies result c with
      | (.error e, c) => (.error (.store e), c)
      | (.ok (), c) =>
        match storeSets (run + 1) rest c with
        | (.error e, c) => (.error e, c)
        | (.ok results, c) => (.ok (result :: results), c)

/-- The part of `run` that is tried. -/
def attemptBatch (sets : List SmaCrossParameters) (c : Client Tables) :
    Except BatchError (List RunResult) × Client Tables :=
  match runner.storeSets tradeId replies batchId sampleMeta σ 0 sets c with
  | (.error e, c) => (.error e, c)
  | (.ok results, c) =>
    match completeRow replies batchId .completed c with
    | (.error e, c) => (.error (.store e), c)
    | (.ok (), c) => (.ok results, c)

/-- `BacktestRunner.run` over the stores of the database. -/
def runStored (sets : List SmaCrossParameters) (description : String) (c : Client Tables) :
    Except BatchError (List RunResult) × Client Tables :=
  match createRow replies batchId sets description c with
  | (.error e, c) => (.error (.store e), c)
  | (.ok (), c) =>
    match runner.attemptBatch tradeId replies batchId sampleMeta σ sets c with
    | (.ok results, c) => (.ok results, c)
    | (.error e, c) =>
      match completeRow replies batchId .failed c with
      | (.error e', c) => (.error (.store e'), c)
      | (.ok (), c) => (.error e, c)

end

end

/-! ### Results and their labels -/

section
variable {σ : Type} [SmaCalculator σ] {runner : BacktestRunner} {batchId : String}
  {sampleMeta : SampleMeta} {tradeId : String → Nat → String} {replies : Nat → Reply}
  {c : Client Tables}

open ResultCalculator in
theorem calculate_labels {Labels : Type} {sqrt : ℚ → ℚ} {ranAt : Int} {input : ResultInput Labels}
    {result : BacktestResult Labels} (h : calculate sqrt ranAt input = .ok result) :
    result.labels = input.labels := by
  unfold calculate at h
  split at h
  · cases h
    rfl
  · obtain ⟨basic, -, h⟩ := bind_eq_ok.mp h
    obtain ⟨risk, -, h⟩ := bind_eq_ok.mp h
    obtain ⟨stability, -, h⟩ := bind_eq_ok.mp h
    obtain ⟨mfe, -, h⟩ := bind_eq_ok.mp h
    cases h
    rfl

/-- A result bears the labels of its run. -/
theorem runOne_labels {run : Nat} {ps : SmaCrossParameters} {result : RunResult}
    (h : runner.runOne σ batchId sampleMeta run ps = .ok result) :
    ∃ outcome, result.labels = runner.labels run ps batchId sampleMeta outcome := by
  obtain ⟨setup, -, h⟩ := bind_eq_ok.mp h
  obtain ⟨outcome, -, h⟩ := bind_eq_ok.mp h
  exact ⟨outcome, calculate_labels (mapError_eq_ok.mp h)⟩

theorem runOne_id {run : Nat} {ps : SmaCrossParameters} {result : RunResult}
    (h : runner.runOne σ batchId sampleMeta run ps = .ok result) :
    result.labels.id = runner.runId run := by
  obtain ⟨outcome, hlabels⟩ := runOne_labels h
  rw [hlabels]
  rfl

/-- The results of a batch bear its id. -/
theorem ran_batchId {run : Nat} {sets : List SmaCrossParameters} {results : List RunResult}
    (h : FirstRuns σ runner batchId sampleMeta run sets results) :
    ∀ r ∈ results, r.labels.batchId = batchId := by
  induction h with
  | none run sets => simp
  | next first others ih =>
    intro r hr
    rcases List.mem_cons.mp hr with rfl | hr
    · obtain ⟨outcome, hlabels⟩ := runOne_labels first
      rw [hlabels]
      rfl
    · exact ih r hr

variable (σ runner batchId sampleMeta tradeId) in
/-- The loop has stored the results of the first sets; it comes back with those of all. -/
structure LoopEnds (run : Nat) (sets : List SmaCrossParameters) (c : Client Tables)
    (stored : List RunResult) (result : Except BatchError (List RunResult) × Client Tables) :
    Prop where
  ran : FirstRuns σ runner batchId sampleMeta run sets stored
  grown : Stored tradeId c.committed result.2.committed stored
  batches : result.2.committed.batches = c.committed.batches
  released : result.2.Released
  returned : ∀ results, result.1 = .ok results → stored = results ∧ results.length = sets.length

variable (σ runner batchId sampleMeta tradeId replies) in
theorem storeSets_ends (run : Nat) (sets : List SmaCrossParameters) (hreleased : c.Released) :
    ∃ stored, LoopEnds σ runner batchId sampleMeta tradeId run sets c stored
      (runner.storeSets tradeId replies batchId sampleMeta σ run sets c) := by
  induction sets generalizing run c with
  | nil =>
    refine ⟨[], .none run [], .refl c.committed, rfl, hreleased, fun results h => ?_⟩
    cases h
    exact ⟨rfl, rfl⟩
  | cons ps rest ih =>
    unfold storeSets
    cases hrun : runner.runOne σ batchId sampleMeta run ps with
    | error e => exact ⟨[], .none run _, .refl c.committed, rfl, hreleased, nofun⟩
    | ok result =>
      dsimp only
      cases save_cases tradeId replies result hreleased with
      | inr hfailed =>
        obtain ⟨e, c₁, hsave, hreleased₁, hkept⟩ := hfailed
        rw [hsave]
        exact ⟨[], .none run _, hkept ▸ .refl c₁.committed, by rw [hkept], hreleased₁, nofun⟩
      | inl hsaved =>
        obtain ⟨outcome, c₁, hsave, hreleased₁, hbatches, hstored⟩ := hsaved
        rw [hsave]
        cases outcome with
        | error e =>
          exact ⟨[result], .next hrun (.none _ rest), hstored, hbatches, hreleased₁, nofun⟩
        | ok _ =>
          dsimp only
          obtain ⟨stored, hrest⟩ := ih (run + 1) hreleased₁
          generalize runner.storeSets tradeId replies batchId sampleMeta σ (run + 1) rest c₁ =
            looped at hrest
          obtain ⟨outcome, c₂⟩ := looped
          cases outcome with
          | error e =>
            exact ⟨result :: stored, .next hrun hrest.ran, hstored.trans hrest.grown,
              hrest.batches.trans hbatches, hrest.released, nofun⟩
          | ok results =>
            obtain ⟨rfl, hlength⟩ := hrest.returned results rfl
            refine ⟨result :: stored, .next hrun hrest.ran, hstored.trans hrest.grown,
              hrest.batches.trans hbatches, hrest.released, fun results' hresults' => ?_⟩
            obtain rfl := Except.ok.inj hresults'
            exact ⟨rfl, congrArg (· + 1) hlength⟩

/-! ### The row of the batch -/

/-- The results are in place, and the batches are these. -/
structure Rests (t t' : Tables) (batches : List BatchRow) : Prop where
  runs : t'.runs = t.runs
  trades : t'.trades = t.trades
  batches : t'.batches = batches

variable (replies batchId) in
/-- A batch is created, told or not, or the tables are as they were. -/
theorem createRow_cases (ps0 : SmaCrossParameters) (rest : List SmaCrossParameters)
    (description : String) (hreleased : c.Released) :
    (∃ outcome c', createRow replies batchId (ps0 :: rest) description c = (outcome, c') ∧
      c'.Released ∧ Rests c.committed c'.committed
        (c.committed.batches ++ [(newBatch batchId ps0 (ps0 :: rest) description).row])) ∨
    (∃ e c', createRow replies batchId (ps0 :: rest) description c = (.error e, c') ∧
      c'.Released ∧ c'.committed = c.committed) := by
  let insert := Tables.insertBatch (newBatch batchId ps0 (ps0 :: rest) description)
  obtain ⟨hended, hreleased'⟩ := Client.poolQuery_ended replies insert hreleased
  show (∃ outcome c', Client.poolQuery replies insert c = (outcome, c') ∧ _) ∨
    ∃ e c', Client.poolQuery replies insert c = (.error e, c') ∧ _
  generalize Client.poolQuery replies insert c = result at hended hreleased'
  cases hended with
  | kept hkept => exact .inr ⟨_, _, rfl, hreleased', hkept⟩
  | committed changed =>
    refine .inl ⟨_, _, rfl, hreleased', ?_⟩
    rw [applyAll_singleton] at changed
    unfold insert Tables.insertBatch at changed
    split at changed
    · rw [← Option.some.inj changed]
      exact ⟨rfl, rfl, rfl⟩
    · cases changed

variable (replies batchId) in
/-- A batch is completed, told or not, or the tables are as they were. -/
theorem completeRow_cases (status : BatchStatus) (hreleased : c.Released) :
    (∃ outcome c', completeRow replies batchId status c = (outcome, c') ∧ c'.Released ∧
      Rests c.committed c'.committed
        (c.committed.batches.map (c.committed.completed batchId status))) ∨
    (∃ e c', completeRow replies batchId status c = (.error e, c') ∧ c'.Released ∧
      c'.committed = c.committed) := by
  obtain ⟨hended, hreleased'⟩ :=
    Client.poolQuery_ended replies (Tables.completeBatch batchId status) hreleased
  unfold completeRow
  generalize Client.poolQuery replies (Tables.completeBatch batchId status) c = result
    at hended hreleased'
  cases hended with
  | kept hkept => exact .inr ⟨_, _, rfl, hreleased', hkept⟩
  | committed changed =>
    refine .inl ⟨_, _, rfl, hreleased', ?_⟩
    rw [applyAll_singleton] at changed
    rw [← Option.some.inj changed]
    exact ⟨rfl, rfl, rfl⟩

variable (batchId) in
/-- What the row of a batch tells, once these results are stored. -/
def Told (sets : List SmaCrossParameters) (stored : List RunResult) (batches : List BatchRow) :
    Prop :=
  ∀ batch ∈ batches, batch.batchId = batchId → batch.totalRuns = sets.length ∧
    (batch.status ≠ none → batch.completedRuns = stored.length) ∧
    (batch.status = some .completed → stored.length = sets.length)

/-- An update tells how many runs of the batch there are. -/
theorem Told.completed {sets : List SmaCrossParameters} {stored : List RunResult} {t : Tables}
    (h : Told batchId sets stored t.batches) {status : BatchStatus}
    (hcount : (t.runs.filter (·.labels.batchId = batchId)).length = stored.length)
    (hall : status = .completed → stored.length = sets.length) :
    Told batchId sets stored (t.batches.map (t.completed batchId status)) := by
  intro batch hbatch hid
  obtain ⟨before, hbefore, rfl⟩ := List.mem_map.mp hbatch
  rw [t.completed_batchId] at hid
  obtain ⟨htotal, -⟩ := h before hbefore hid
  unfold Tables.completed
  rw [if_pos hid]
  exact ⟨htotal, fun _ => hcount, fun hstatus => hall (Option.some.inj hstatus)⟩

/-- The runs of a new batch are those that it has stored. -/
theorem count_stored {t t' : Tables} {stored : List RunResult}
    (hfresh : ∀ batch ∈ t.batches, batch.batchId ≠ batchId)
    (hgrown : Stored tradeId t t' stored) (hids : ∀ r ∈ stored, r.labels.batchId = batchId) :
    (t'.runs.filter (·.labels.batchId = batchId)).length = stored.length := by
  obtain ⟨rows, hrows, hruns⟩ := hgrown.runs
  have hold : t.runs.filter (·.labels.batchId = batchId) = [] := by
    refine List.filter_eq_nil_iff.mpr fun run hrun hid => ?_
    obtain ⟨batch, hbatch, htakes, -⟩ := t.run_batch run hrun
    exact hfresh batch hbatch (htakes.trans (of_decide_eq_true hid))
  have hnew : rows.filter (·.labels.batchId = batchId) = rows := by
    refine List.filter_eq_self.mpr fun row hrow => ?_
    have hmem : some row ∈ stored.map RunRow.of := hrows ▸ List.mem_map_of_mem hrow
    obtain ⟨r, hr, hof⟩ := List.mem_map.mp hmem
    rw [RunRow.of_labels hof, hids r hr]
    exact decide_eq_true rfl
  rw [hruns, List.filter_append, hold, hnew, List.nil_append]
  have hlength := congrArg List.length hrows
  rw [List.length_map, List.length_map] at hlength
  exact hlength.symm

variable (σ runner batchId sampleMeta tradeId) in
/-- What a batch has left behind: the whole results of its first sets, a row that tells how many
they are, and nothing else. -/
structure Left (sets : List SmaCrossParameters) (t t' : Tables) (stored : List RunResult) :
    Prop where
  ran : FirstRuns σ runner batchId sampleMeta 0 sets stored
  grown : Stored tradeId t t' stored
  told : Told batchId sets stored t'.batches
  others : ∀ batch : BatchRow, batch.batchId ≠ batchId → (batch ∈ t'.batches ↔ batch ∈ t.batches)

/-- The row of a batch that runs, if it is there, tells nothing of what is stored. -/
structure Running (batchId : String) (sets : List SmaCrossParameters) (t t' : Tables) : Prop where
  runs : t'.runs = t.runs
  trades : t'.trades = t.trades
  row : ∀ batch ∈ t'.batches, batch.batchId = batchId →
    batch.totalRuns = sets.length ∧ batch.status = none
  others : ∀ batch : BatchRow, batch.batchId ≠ batchId → (batch ∈ t'.batches ↔ batch ∈ t.batches)

variable (replies) in
theorem createRow_running (sets : List SmaCrossParameters) (description : String)
    (hfresh : ∀ batch ∈ c.committed.batches, batch.batchId ≠ batchId) (hreleased : c.Released) :
    ∃ outcome c', createRow replies batchId sets description c = (outcome, c') ∧ c'.Released ∧
      Running batchId sets c.committed c'.committed ∧
      (outcome = .ok () → sets ≠ [] → ∃ batch ∈ c'.committed.batches, batch.batchId = batchId) := by
  have hsame : Running batchId sets c.committed c.committed :=
    ⟨rfl, rfl, fun batch hbatch hid => absurd hid (hfresh batch hbatch), fun _ _ => Iff.rfl⟩
  cases sets with
  | nil => exact ⟨_, c, rfl, hreleased, hsame, fun _ hne => absurd rfl hne⟩
  | cons ps0 rest =>
    cases createRow_cases batchId replies ps0 rest description hreleased with
    | inr hfailed =>
      obtain ⟨e, c', hcreate, hreleased', hkept⟩ := hfailed
      exact ⟨_, c', hcreate, hreleased', hkept ▸ hsame, nofun⟩
    | inl hcreated =>
      obtain ⟨outcome, c', hcreate, hreleased', hrests⟩ := hcreated
      refine ⟨outcome, c', hcreate, hreleased', ⟨hrests.runs, hrests.trades, ?_, ?_⟩, fun _ _ => ?_⟩
      · intro batch hbatch hid
        rw [hrests.batches, List.mem_append, List.mem_singleton] at hbatch
        rcases hbatch with hbatch | rfl
        · exact absurd hid (hfresh batch hbatch)
        · exact ⟨rfl, rfl⟩
      · intro batch hid
        rw [hrests.batches, List.mem_append, List.mem_singleton]
        refine ⟨fun h => h.resolve_right ?_, .inl⟩
        rintro rfl
        exact hid rfl
      · rw [hrests.batches]
        exact ⟨_, List.mem_append_right _ (List.mem_singleton_self _), rfl⟩

/-- The loop leaves what it has stored. -/
theorem LoopEnds.left {sets : List SmaCrossParameters} {t : Tables} {stored : List RunResult}
    {result : Except BatchError (List RunResult) × Client Tables}
    (h : LoopEnds σ runner batchId sampleMeta tradeId 0 sets c stored result)
    (hrunning : Running batchId sets t c.committed) :
    Left σ runner batchId sampleMeta tradeId sets t result.2.committed stored where
  ran := h.ran
  grown := by
    obtain ⟨⟨runs, hruns, hgrown⟩, trades, htrades, hgrown'⟩ := h.grown
    exact ⟨⟨runs, hruns, by rw [hgrown, hrunning.runs]⟩, trades, htrades,
      by rw [hgrown', hrunning.trades]⟩
  told := by
    intro batch hbatch hid
    rw [h.batches] at hbatch
    obtain ⟨htotal, hstatus⟩ := hrunning.row batch hbatch hid
    exact ⟨htotal, fun hne => absurd hstatus hne, fun hcompleted =>
      absurd (hstatus.symm.trans hcompleted) nofun⟩
  others := by
    rw [h.batches]
    exact hrunning.others

/-- An update of the row of the batch changes no other row. -/
theorem Left.completed {sets : List SmaCrossParameters} {t : Tables} {stored : List RunResult}
    (hfresh : ∀ batch ∈ t.batches, batch.batchId ≠ batchId) {t' t'' : Tables}
    (h : Left σ runner batchId sampleMeta tradeId sets t t' stored) (status : BatchStatus)
    (hall : status = .completed → stored.length = sets.length)
    (hrests : Rests t' t'' (t'.batches.map (t'.completed batchId status))) :
    Left σ runner batchId sampleMeta tradeId sets t t'' stored where
  ran := h.ran
  grown := by
    obtain ⟨⟨runs, hruns, hgrown⟩, trades, htrades, hgrown'⟩ := h.grown
    exact ⟨⟨runs, hruns, by rw [hrests.runs, hgrown]⟩, trades, htrades,
      by rw [hrests.trades, hgrown']⟩
  told := by
    rw [hrests.batches]
    exact h.told.completed (count_stored hfresh h.grown (ran_batchId h.ran)) hall
  others := by
    intro batch hid
    rw [← h.others batch hid, hrests.batches, List.mem_map]
    constructor
    · rintro ⟨before, hbefore, rfl⟩
      rw [t'.completed_batchId] at hid
      unfold Tables.completed
      rwa [if_neg hid]
    · intro hbatch
      exact ⟨batch, hbatch, if_neg hid⟩

variable (σ sampleMeta tradeId replies) in
/-- The part of a batch that is tried. -/
theorem attemptBatch_left {sets : List SmaCrossParameters} {t : Tables}
    (hfresh : ∀ batch ∈ t.batches, batch.batchId ≠ batchId)
    (hrunning : Running batchId sets t c.committed) (hreleased : c.Released) :
    ∃ outcome c' stored,
      runner.attemptBatch tradeId replies batchId sampleMeta σ sets c = (outcome, c') ∧
      c'.Released ∧ Left σ runner batchId sampleMeta tradeId sets t c'.committed stored ∧
      ∀ results, outcome = .ok results → stored = results ∧ results.length = sets.length ∧
        ∀ batch ∈ c.committed.batches, batch.batchId = batchId →
          ∃ batch' ∈ c'.committed.batches, batch'.batchId = batchId ∧
            batch'.status = some .completed := by
  obtain ⟨stored, hloop⟩ :=
    storeSets_ends σ runner batchId sampleMeta tradeId replies 0 sets hreleased
  have hleft := hloop.left hrunning
  unfold attemptBatch
  generalize runner.storeSets tradeId replies batchId sampleMeta σ 0 sets c = looped at hloop hleft
  obtain ⟨outcome, c₁⟩ := looped
  cases outcome with
  | error e => exact ⟨_, c₁, stored, rfl, hloop.released, hleft, nofun⟩
  | ok results =>
    obtain ⟨rfl, hlength⟩ := hloop.returned results rfl
    dsimp only
    cases completeRow_cases batchId replies .completed hloop.released with
    | inr hfailed =>
      obtain ⟨e, c', hcomplete, hreleased', hkept⟩ := hfailed
      rw [hcomplete]
      exact ⟨_, c', stored, rfl, hreleased', hkept ▸ hleft, nofun⟩
    | inl hcompleted =>
      obtain ⟨outcome, c', hcomplete, hreleased', hrests⟩ := hcompleted
      have hleft' := hleft.completed hfresh .completed (fun _ => hlength) hrests
      rw [hcomplete]
      cases outcome with
      | error e => exact ⟨_, c', stored, rfl, hreleased', hleft', nofun⟩
      | ok _ =>
        refine ⟨_, c', stored, rfl, hreleased', hleft', fun results hresults => ?_⟩
        refine ⟨Except.ok.inj hresults, Except.ok.inj hresults ▸ hlength, ?_⟩
        intro batch hbatch hid
        refine ⟨c₁.committed.completed batchId .completed batch, ?_, ?_, ?_⟩
        · rw [hrests.batches]
          exact List.mem_map_of_mem (hloop.batches ▸ hbatch)
        · rw [Tables.completed_batchId, hid]
        · unfold Tables.completed
          rw [if_pos hid]

variable (tradeId) in
/-- What `randomUUID` gives these results and their trades is new each time. -/
structure FreshIds (t : Tables) (results : List RunResult) : Prop where
  runs : (t.runs.map (·.labels.id) ++ results.map (·.labels.id)).Nodup
  trades : (t.trades.map (·.id) ++
    results.flatMap fun r => (numberedTrades tradeId r).map (·.1)).Nodup

theorem FreshIds.first {t : Tables} {results : List RunResult} (others : List RunResult)
    (h : FreshIds tradeId t (results ++ others)) : FreshIds tradeId t results := by
  obtain ⟨hruns, htrades⟩ := h
  rw [List.map_append, ← List.append_assoc] at hruns
  rw [List.flatMap_append, ← List.append_assoc] at htrades
  exact ⟨hruns.of_append_left, htrades.of_append_left⟩

/-- With the first result stored, the ids of the others are still new. -/
theorem FreshIds.next {t t' : Tables} {r : RunResult} {results : List RunResult}
    (h : FreshIds tradeId t (r :: results)) (hstored : Stored tradeId t t' [r]) :
    FreshIds tradeId t' results := by
  obtain ⟨hruns, htrades⟩ := hstored.keys
  constructor
  · rw [hruns, List.append_assoc]
    exact h.runs
  · rw [htrades, List.append_assoc]
    exact h.trades

/-- The batch takes the runs of its own pair and time frame, and no others. -/
theorem exists_takes_iff {t : Tables} {row : BatchRow}
    (hrow : row ∈ t.batches) (hid : row.batchId = batchId) (hstrategy : row.strategy = .smaCross)
    (run : Nat) (ps : SmaCrossParameters) (outcome : EngineOutcome) :
    (∃ batch ∈ t.batches, batch.Takes (runner.labels run ps batchId sampleMeta outcome)) ↔
      ps.pair = row.pair ∧ ps.timeframe = row.timeframe := by
  constructor
  · intro h
    obtain ⟨batch, hbatch, hbatchId, -, hpair, htimeframe⟩ := h
    obtain rfl := List.inj_on_of_nodup_map t.batch_ids hbatch hrow (hbatchId.trans hid.symm)
    exact ⟨hpair.symm, htimeframe.symm⟩
  · intro h
    exact ⟨row, hrow, hid, hstrategy, h.1.symm, h.2.symm⟩

/-- A save that comes back has stored the result. -/
theorem save_ok {r : RunResult} {c' : Client Tables} (hreleased : c.Released)
    (hsave : save tradeId replies r c = (.ok (), c')) :
    c'.Released ∧ c'.committed.batches = c.committed.batches ∧
      Stored tradeId c.committed c'.committed [r] := by
  cases save_cases tradeId replies r hreleased with
  | inl hsaved =>
    obtain ⟨outcome, c₁, hsave', hrest⟩ := hsaved
    obtain ⟨-, rfl⟩ := Prod.mk.inj (hsave'.symm.trans hsave)
    exact hrest
  | inr hfailed =>
    obtain ⟨e, c₁, hsave', -⟩ := hfailed
    cases hsave'.symm.trans hsave

/-- Once its row is there, a batch comes back exactly if the part that is tried does. -/
theorem runStored_returns_iff {sets : List SmaCrossParameters} {description : String}
    {c₁ : Client Tables} (hcreate : createRow replies batchId sets description c = (.ok (), c₁)) :
    (∃ results c', runner.runStored tradeId replies batchId sampleMeta σ sets description c =
        (.ok results, c')) ↔
      ∃ results c', runner.attemptBatch tradeId replies batchId sampleMeta σ sets c₁ =
        (.ok results, c') := by
  unfold runStored
  rw [hcreate]
  dsimp only
  generalize runner.attemptBatch tradeId replies batchId sampleMeta σ sets c₁ = attempted
  obtain ⟨outcome, c₂⟩ := attempted
  cases outcome with
  | ok results => exact Iff.rfl
  | error e =>
    constructor
    · intro h
      obtain ⟨_, _, h⟩ := h
      dsimp only at h
      generalize completeRow replies batchId .failed c₂ = completed at h
      obtain ⟨completed, c₃⟩ := completed
      cases completed with
      | error e' => cases h
      | ok _ => cases h
    · intro h
      obtain ⟨_, _, h⟩ := h
      cases h

section
variable (hreplies : ∀ i, replies i = .answered)

include hreplies

/-- A save that is answered goes through exactly if the result is taken. -/
theorem exists_save_iff (hreleased : c.Released) {row : BatchRow}
    (hrow : row ∈ c.committed.batches) (hid : row.batchId = batchId)
    (hstrategy : row.strategy = .smaCross) {run : Nat} {ps : SmaCrossParameters} {r : RunResult}
    (hrun : runner.runOne σ batchId sampleMeta run ps = .ok r)
    (hids : FreshIds tradeId c.committed [r]) :
    (∃ c', save tradeId replies r c = (.ok (), c')) ↔
      Fits r ∧ ps.pair = row.pair ∧ ps.timeframe = row.timeframe := by
  obtain ⟨outcome, hlabels⟩ := runOne_labels hrun
  have hrunFresh : r.labels.id ∉ c.committed.runs.map (·.labels.id) :=
    not_mem_of_nodup_append hids.runs
  have htradesFresh : (c.committed.trades.map (·.id) ++
      (numberedTrades tradeId r).map (·.1)).Nodup := by
    have htrades := hids.trades
    rwa [List.flatMap_singleton] at htrades
  unfold save
  rw [Client.connect_transact_answered hreplies hreleased,
    exists_applyAll_iff hrunFresh htradesFresh, hlabels, exists_takes_iff hrow hid hstrategy]

variable (σ runner sampleMeta tradeId) in
/-- The loop that is answered comes back exactly if each run has a result that is taken. -/
theorem storeSets_returns_iff (hreleased : c.Released) {row : BatchRow}
    (hrow : row ∈ c.committed.batches) (hid : row.batchId = batchId)
    (hstrategy : row.strategy = .smaCross) (run : Nat) (sets : List SmaCrossParameters)
    (hids : ∀ results, FirstRuns σ runner batchId sampleMeta run sets results →
      FreshIds tradeId c.committed results) :
    (∃ results c', runner.storeSets tradeId replies batchId sampleMeta σ run sets c =
        (.ok results, c')) ↔
      ∃ results, FirstRuns σ runner batchId sampleMeta run sets results ∧
        results.length = sets.length ∧ (∀ r ∈ results, Fits r) ∧
        ∀ ps ∈ sets, ps.pair = row.pair ∧ ps.timeframe = row.timeframe := by
  induction sets generalizing run c with
  | nil => exact ⟨fun _ => ⟨[], .none run [], rfl, by simp, by simp⟩, fun _ => ⟨[], c, rfl⟩⟩
  | cons ps rest ih =>
    constructor
    · intro h
      obtain ⟨results, c', h⟩ := h
      unfold storeSets at h
      cases hrun : runner.runOne σ batchId sampleMeta run ps with
      | error e =>
        rw [hrun] at h
        cases h
      | ok r =>
        rw [hrun] at h
        dsimp only at h
        cases hsave : save tradeId replies r c with
        | mk outcome c₁ =>
          rw [hsave] at h
          cases outcome with
          | error e => cases h
          | ok _ =>
            dsimp only at h
            obtain ⟨hreleased₁, hbatches, hstored⟩ := save_ok hreleased hsave
            obtain ⟨hfits, hpair⟩ := (exists_save_iff hreplies hreleased hrow hid hstrategy hrun
              (hids [r] (.next hrun (.none _ rest)))).mp ⟨c₁, hsave⟩
            cases hloop : runner.storeSets tradeId replies batchId sampleMeta σ (run + 1) rest c₁
              with
            | mk outcome c₂ =>
              rw [hloop] at h
              cases outcome with
              | error e => cases h
              | ok results₁ =>
                obtain ⟨results₂, hran, hlength, hall, hpairs⟩ := (ih hreleased₁
                  (hbatches ▸ hrow) (run + 1) fun others hothers =>
                    (hids _ (.next hrun hothers)).next hstored).mp ⟨results₁, c₂, hloop⟩
                refine ⟨r :: results₂, .next hrun hran, congrArg (· + 1) hlength, ?_, ?_⟩
                · exact List.forall_mem_cons.mpr ⟨hfits, hall⟩
                · exact List.forall_mem_cons.mpr ⟨hpair, hpairs⟩
    · intro h
      obtain ⟨results, hran, hlength, hall, hpairs⟩ := h
      cases hran with
      | none => cases hlength
      | next hrun hran =>
        rename_i r results
        obtain ⟨hfits, hall⟩ := List.forall_mem_cons.mp hall
        obtain ⟨hpair, hpairs⟩ := List.forall_mem_cons.mp hpairs
        obtain ⟨c₁, hsave⟩ := (exists_save_iff hreplies hreleased hrow hid hstrategy hrun
          (hids [r] (.next hrun (.none _ rest)))).mpr ⟨hfits, hpair⟩
        obtain ⟨hreleased₁, hbatches, hstored⟩ := save_ok hreleased hsave
        obtain ⟨results₁, c₂, hloop⟩ := (ih hreleased₁ (hbatches ▸ hrow) (run + 1)
          fun others hothers => (hids _ (.next hrun hothers)).next hstored).mpr
          ⟨results, hran, Nat.succ.inj hlength, hall, hpairs⟩
        refine ⟨r :: results₁, c₂, ?_⟩
        unfold storeSets
        rw [hrun]
        dsimp only
        rw [hsave]
        dsimp only
        rw [hloop]

/-- The row of a batch can always be updated. -/
theorem completeRow_answered (status : BatchStatus) (hreleased : c.Released) :
    ∃ c', completeRow replies batchId status c = (.ok (), c') :=
  Client.poolQuery_answered hreplies hreleased rfl

theorem attemptBatch_returns_iff (sets : List SmaCrossParameters) (hreleased : c.Released) :
    (∃ results c', runner.attemptBatch tradeId replies batchId sampleMeta σ sets c =
        (.ok results, c')) ↔
      ∃ results c', runner.storeSets tradeId replies batchId sampleMeta σ 0 sets c =
        (.ok results, c') := by
  obtain ⟨stored, hloop⟩ :=
    storeSets_ends σ runner batchId sampleMeta tradeId replies 0 sets hreleased
  unfold attemptBatch
  generalize runner.storeSets tradeId replies batchId sampleMeta σ 0 sets c = looped at hloop
  obtain ⟨outcome, c₁⟩ := looped
  cases outcome with
  | error e =>
    constructor
    · rintro ⟨_, _, h⟩
      cases h
    · rintro ⟨_, _, h⟩
      cases h
  | ok results =>
    obtain ⟨c₂, hcomplete⟩ := completeRow_answered hreplies .completed hloop.released
    dsimp only
    rw [hcomplete]
    exact ⟨fun _ => ⟨results, c₁, rfl⟩, fun _ => ⟨results, c₂, rfl⟩⟩

theorem createRow_answered (ps0 : SmaCrossParameters) (rest : List SmaCrossParameters)
    (description : String) (hreleased : c.Released)
    (hfresh : ∀ batch ∈ c.committed.batches, batch.batchId ≠ batchId) :
    ∃ c₁, createRow replies batchId (ps0 :: rest) description c = (.ok (), c₁) := by
  have hnew : (newBatch batchId ps0 (ps0 :: rest) description).row.batchId ∉
      c.committed.batches.map (·.batchId) := by
    intro hmem
    obtain ⟨batch, hbatch, hid⟩ := List.mem_map.mp hmem
    exact hfresh batch hbatch hid
  exact Client.poolQuery_answered hreplies hreleased (dif_pos hnew)

end

end

/-! ## Two quiet runs -/

/-- A number in so many digits. -/
def hexDigits (length n : Nat) : List Char :=
  let digits := Nat.toDigits 16 n
  List.replicate (length - digits.length) '0' ++ digits

/-- The UUID of a run, by its number. -/
def quietRunId (run : Nat) : String :=
  "00000000-0000-4000-8000-" ++ String.ofList (hexDigits 12 run)

/-- The UUID of a trade: that of its run, with the number of the trade in the second group. -/
def quietTradeId (run : String) (i : Nat) : String :=
  String.ofList (run.toList.take 9 ++ hexDigits 4 i ++ run.toList.drop 13)

def quietBatchId : String := "00000000-0000-4000-9000-000000000000"

/-- A runner over six quiet bars. -/
def quietRunner : BacktestRunner where
  resultStore _ := .ok ()
  batchStore := none
  dataProviderFactory _ := ⟨fun _ _ _ _ => .ok (quietBars 6), fun _ _ => []⟩
  mode := .ohlc
  executionConfig := ⟨0, 0, 42⟩
  initialCapital := 100000
  codeVersion := "unknown"
  runId := quietRunId
  positionId _ n := .ofNat n
  now := 0
  durationMs := 0
  isBojMeetingDate _ := false
  sqrt x := x
  boxMuller _ _ := 0
  arithmetic := .exact
  numbers := { TrailingTakeProfitExitRule.exactNumbers with fixedText _ := "" }
  text x := toString x.num

def quietSet : SmaCrossParameters where
  pair := .usdJpy
  timeframe := .oneMinute
  dateFrom := 120000
  dateTo := 360000
  shortPeriod := 1
  longPeriod := 2
  stopLossPips := 15
  takeProfitPips := some 150
  trailActivatePips := none
  trailWidthPips := none
  excludeHoursUtc := []
  maxHoldBars := 0
  targetMaintenanceRatio := none
  marginRate := none
  minCrossStrengthPips := none
  excludeMidMonthJstLunchNonBoj := false
  maxDirectionalDivergencePct := none
  priceBandFilter := none
  riskPct := 2 / 100
  short_pos := Nat.one_pos
  long_pos := Nat.two_pos

/-- Nothing is stored yet. -/
def emptyTables : Client Tables where
  committed := ⟨[], [], [], .nil, .nil, by simp, .nil, .nil, by simp⟩
  transaction := .none
  sent := 0

/-- The result fits the columns, and it has no trade. -/
def isQuiet (r : RunResult) : Bool :=
  r.trades.isEmpty && r.labels.foldFits && (RunRow.of r).isSome

theorem fits_of_isQuiet {r : RunResult} (h : isQuiet r = true) : Fits r := by
  unfold isQuiet at h
  simp only [Bool.and_eq_true, List.isEmpty_iff] at h
  obtain ⟨⟨hnone, hfold⟩, hrow⟩ := h
  exact ⟨hfold, hrow, by simp [hnone], by simp [hnone]⟩

/-- What is quiet has its run's id and no trades. -/
theorem quiet_ids {run : Nat} {ps : SmaCrossParameters} {r : RunResult}
    (hrun : quietRunner.runOne RecordedSma quietBatchId .full run ps = .ok r)
    (hquiet : isQuiet r = true) :
    r.labels.id = quietRunId run ∧ (numberedTrades quietTradeId r).map (·.1) = [] := by
  unfold isQuiet at hquiet
  simp only [Bool.and_eq_true, List.isEmpty_iff] at hquiet
  refine ⟨runOne_id hrun, ?_⟩
  rw [numberedTrades_ids, hquiet.1.1]
  rfl

/-- Two quiet runs take two new ids. -/
theorem freshIds_of_quiet {ps ps' : SmaCrossParameters} {r r' : RunResult}
    (hrun : quietRunner.runOne RecordedSma quietBatchId .full 0 ps = .ok r)
    (hquiet : isQuiet r = true)
    (hrun' : quietRunner.runOne RecordedSma quietBatchId .full 1 ps' = .ok r')
    (hquiet' : isQuiet r' = true) (results : List RunResult)
    (hran : FirstRuns RecordedSma quietRunner quietBatchId .full 0 [ps, ps'] results) :
    FreshIds quietTradeId emptyTables.committed results := by
  obtain ⟨hid, htrades⟩ := quiet_ids hrun hquiet
  obtain ⟨hid', htrades'⟩ := quiet_ids hrun' hquiet'
  have hall : FreshIds quietTradeId emptyTables.committed [r, r'] := by
    constructor
    · rw [List.map_cons, List.map_singleton, hid, hid']
      decide
    · rw [List.flatMap_cons, List.flatMap_singleton, htrades, htrades']
      exact .nil
  cases hran with
  | none => exact FreshIds.first [r, r'] hall
  | next first others =>
    obtain rfl := Except.ok.inj (hrun.symm.trans first)
    cases others with
    | none => exact FreshIds.first [r'] hall
    | next second others =>
      obtain rfl := Except.ok.inj (hrun'.symm.trans second)
      cases others
      exact hall

end BacktestRunner

end Luchida
