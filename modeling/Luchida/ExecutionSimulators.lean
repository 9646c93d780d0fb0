import Luchida.BacktestEngine

/- The two simulators of the package: IdealExecutionSimulator.ts, which fills at the price it
   is given, and RealisticExecutionSimulator.ts, which lets the price slip first
   (SlippageModel.ts). The ids and the Gaussian draws come from the world. Both report the
   time they are given (`Punctual`). -/
namespace Luchida

variable {ω : Type}

/-- The simulator reports the time it is given. -/
structure ExecutionSimulator.Punctual (simulator : ExecutionSimulator ω) : Prop where
  entry : ∀ command price pair executedAt world result world',
    simulator.simulateEntry command price pair executedAt world = .ok (result, world') →
      result.executedAt = executedAt
  exit : ∀ command price pair entryPrice buySell executedAt world result world',
    simulator.simulateExit command price pair entryPrice buySell executedAt world =
      .ok (result, world') → result.executedAt = executedAt

/-- `calculatePips`. -/
def calculatePips (numbers : NumberArithmetic) (exitPrice entryPrice : Price) (buySell : BuySell)
    (pair : CurrencyPair) : Pips :=
  let diff := match buySell with
    | .buy => numbers.minus exitPrice.value entryPrice.value
    | .sell => numbers.minus entryPrice.value exitPrice.value
  ⟨numbers.fixed 4 (numbers.divide diff pair.pipUnit)⟩

/-- `SlippageModel`, and where its Gaussian draws come from. -/
structure SlippageModel (ω : Type) where
  stddev : Pips
  nextGaussian : ω → ℚ × ω
  pipUnit : ℚ

/-- `SlippageModel.applyTo`: a step against the trader, and never below a pip. -/
def SlippageModel.applyTo (numbers : NumberArithmetic) (model : SlippageModel ω)
    (basePrice : Price) (buySell : BuySell) (world : ω) : Except String (Price × ω) :=
  let (gaussian, world) := model.nextGaussian world
  let slippage := numbers.times (numbers.times |gaussian| model.stddev.value) model.pipUnit
  let slippedPrice := match buySell with
    | .buy => numbers.plus basePrice.value slippage
    | .sell => numbers.minus basePrice.value slippage
  match Price.ofFixed numbers 8 (max slippedPrice model.pipUnit) with
  | .ok price => .ok (price, world)
  | .error _ => .error "価格は正の数"

/-- A fill at the price that `fillPrice` makes of the one given. -/
def simulatorWith (numbers : NumberArithmetic) (generate : ω → PositionId × ω)
    (fillPrice : Price → BuySell → ω → Except String (Price × ω)) : ExecutionSimulator ω where
  simulateEntry command executionPrice _ executedAt world := do
    let (price, world) ← fillPrice executionPrice command.buySell world
    let (id, world) := generate world
    return (⟨id, price, executedAt⟩, world)
  simulateExit _ executionPrice pair entryPrice buySell executedAt world := do
    let (price, world) ← fillPrice executionPrice buySell.opposite world
    return (⟨price, executedAt, calculatePips numbers price entryPrice buySell pair⟩, world)

/-- `IdealExecutionSimulator`. -/
def idealExecutionSimulator (generate : ω → PositionId × ω) (numbers : NumberArithmetic := .exact) :
    ExecutionSimulator ω :=
  simulatorWith numbers generate fun price _ world => .ok (price, world)

/-- `RealisticExecutionSimulator`. -/
def realisticExecutionSimulator (generate : ω → PositionId × ω) (slippage : SlippageModel ω)
    (numbers : NumberArithmetic := .exact) : ExecutionSimulator ω :=
  simulatorWith numbers generate (slippage.applyTo numbers)

theorem simulatorWith_punctual (numbers : NumberArithmetic) (generate : ω → PositionId × ω)
    (fillPrice : Price → BuySell → ω → Except String (Price × ω)) :
    (simulatorWith numbers generate fillPrice).Punctual where
  entry command price pair executedAt world result world' h := by
    obtain ⟨⟨filled, world₁⟩, -, h⟩ := Throws.bind_eq_ok.mp h
    cases h
    rfl
  exit command price pair entryPrice buySell executedAt world result world' h := by
    obtain ⟨⟨filled, world₁⟩, -, h⟩ := Throws.bind_eq_ok.mp h
    cases h
    rfl

theorem idealExecutionSimulator_punctual (generate : ω → PositionId × ω)
    (numbers : NumberArithmetic := .exact) : (idealExecutionSimulator generate numbers).Punctual :=
  simulatorWith_punctual ..

theorem realisticExecutionSimulator_punctual (generate : ω → PositionId × ω)
    (slippage : SlippageModel ω) (numbers : NumberArithmetic := .exact) :
    (realisticExecutionSimulator generate slippage numbers).Punctual :=
  simulatorWith_punctual ..

/-! ## A run in a quiet market -/

/-- Ids in counting order. -/
def countedIds (n : Nat) : PositionId × Nat := (.ofNat n, n + 1)

/-- Minute bars at one price, the first at midnight. -/
def quietBars (n : Nat) : List ConfirmedCandle :=
  (List.range n).map fun i => flatCandle .oneMinute (60000 * i) quietPrice

/-- Two ticks a minute over so many minutes from the time `t`. -/
def quietTicks (t : Int) (n : Nat) : List Tick :=
  (List.range n).flatMap fun i => [quietTick (t + 60000 * i), quietTick (t + 60000 * i + 30000)]

def leaveCommand (p : Position) : ExitCommand := ⟨p.id, .takeProfit, ⟨"exit", by decide⟩⟩

/-- Rules that enter and leave whenever they are asked, over these bars and ticks. -/
def quietParams (simulator : ExecutionSimulator Nat) (bars : List ConfirmedCandle)
    (ticks : List Tick) : EngineRunParams Nat where
  config := ⟨.usdJpy, .oneMinute, ⟨120000, 300000⟩, 2⟩
  entryRule _ _ world := .ok (some filledEntry, world)
  exitRule _ _ p world := .ok (some (leaveCommand p), world)
  dataProvider := ⟨fun _ _ _ _ => .ok bars, fun _ _ => ticks⟩
  executionSimulator := simulator
  runId := "run"
  initialCapital := 100000
  additionalIndicatorSpecs := []

/-- A fresh adapter of one time frame, with SMAs over one and over two bars. -/
def quietAdapter : BacktestSnapshotAdapter RecordedSma :=
  (BacktestSnapshotAdapter.singleTimeFrame .usdJpy .oneMinute 1 2).toOption.get (by decide)

end Luchida
