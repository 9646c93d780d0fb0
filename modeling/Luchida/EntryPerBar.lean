import Luchida.EntryOnce

/- One entry per signal bar. The cross is a fact about confirmed bars and may be signalled on
   every tick of a bar, so a signal is counted by its ticket: pair, strategy and the confirmed
   bar of the trade time frame.

   What keeps a second position from being opened on a ticket is the first one's OPEN
   row, and that goes away when the position is closed within the bar
   (`exists_reentry_on_bar`). While no position of the bar has been closed, and under the
   conditions that keep one position per strategy, each ticket opens one position at most
   (`onePerBar_of_unclosed`). -/
namespace Luchida

namespace EntryView

variable {pair : CurrencyPair} {strategy : StrategyName}

/-! ## One position per ticket -/

/-- A position flies, or has a row of the pair and strategy, OPEN or CLOSED. -/
def Known (pair : CurrencyPair) (strategy : StrategyName) (v : EntryView) (id : PositionId) :
    Prop :=
  (∃ t, v.flying = some (id, t) ∧ t.isFor pair strategy = true) ∨
    ∃ row ∈ v.rows, row.id = id ∧ row.pair = pair ∧ row.strategyName = strategy

structure OncePerBar (pair : CurrencyPair) (strategy : StrategyName) (v : EntryView) : Prop where
  once : ∀ t : Ticket, t.isFor pair strategy = true →
    (v.cleared.toList ++ v.waiting).count t + (v.opened.map (·.ticket)).count t ≤ 1
  known : ∀ e ∈ v.opened, e.ticket.isFor pair strategy = true → v.Known pair strategy e.id

/-- A signal is cleared while no position opened on its ticket has been closed. -/
def Unclosed (pair : CurrencyPair) (strategy : StrategyName) (v : EntryView) : EntryEvent → Prop
  | .clear t => t.isFor pair strategy = true → ∀ e ∈ v.opened, e.ticket = t →
      ∀ row ∈ v.rows, row.id = e.id → row.status = .opened
  | _ => True

/-- When a signal is cleared, its ticket has opened nothing. -/
theorem count_opened_of_clear {v : EntryView} {t : Ticket} (hv : v.OncePerBar pair strategy)
    (hnone : ∀ row ∈ v.rows, row.isOpenFor t.pair t.strategyName = false)
    (halone : v.Alone pair strategy (.clear t)) (hunclosed : v.Unclosed pair strategy (.clear t))
    (ht : t.isFor pair strategy = true) : (v.opened.map (·.ticket)).count t = 0 := by
  rw [List.count_eq_zero]
  intro hmem
  obtain ⟨e, he, rfl⟩ := List.mem_map.mp hmem
  rcases hv.known e he ht with ⟨t', hfly, hfor⟩ | ⟨row, hrow, hid, hpair, hstrategy⟩
  · have := halone ht t' (by simp [hfly])
    rw [hfor] at this
    cases this
  · have hopen : row.isOpenFor pair strategy = true :=
      EntrySystem.isOpenFor_iff.mpr ⟨hpair, hstrategy, hunclosed ht e he rfl row hrow hid⟩
    rw [isOpenFor_of_isFor ht, hnone row hrow] at hopen
    cases hopen

theorem once_clear_step {v : EntryView} {t : Ticket} (hv : v.OncePerBar pair strategy)
    (hnone : ∀ row ∈ v.rows, row.isOpenFor t.pair t.strategyName = false)
    (halone : v.Alone pair strategy (.clear t))
    (hunclosed : v.Unclosed pair strategy (.clear t)) :
    ({ v with cleared := some t } : EntryView).OncePerBar pair strategy := by
  refine ⟨fun t' ht' => ?_, hv.known⟩
  have honce := hv.once t' ht'
  simp only [List.count_append, Option.toList_some] at honce ⊢
  by_cases heq : t = t'
  · subst heq
    have hwaiting : v.waiting.count t = 0 := by
      rw [List.count_eq_zero]
      intro hmem
      have := halone ht' t (List.mem_append_left _ hmem)
      rw [ht'] at this
      cases this
    rw [hwaiting, count_opened_of_clear hv hnone halone hunclosed ht']
    simp
  · rw [List.count_cons_of_ne heq, List.count_nil]
    omega

theorem once_enqueue_step {v : EntryView} {t : Ticket} (hv : v.OncePerBar pair strategy)
    (hcleared : v.cleared = some t) :
    ({ v with cleared := none, waiting := v.waiting ++ [t] } : EntryView).OncePerBar pair
      strategy := by
  refine ⟨fun t' ht' => ?_, hv.known⟩
  have honce := hv.once t' ht'
  simp only [hcleared, List.count_append, Option.toList_some, Option.toList_none,
    List.count_nil] at honce ⊢
  omega

theorem once_forget_step {v : EntryView} (hv : v.OncePerBar pair strategy) :
    ({ v with cleared := none } : EntryView).OncePerBar pair strategy := by
  refine ⟨fun t' ht' => ?_, hv.known⟩
  have honce := hv.once t' ht'
  simp only [List.count_append, Option.toList_none, List.count_nil] at honce ⊢
  omega

theorem once_drop_step {v : EntryView} {t : Ticket} {rest : List Ticket}
    (hv : v.OncePerBar pair strategy) (hwaiting : v.waiting = t :: rest) :
    ({ v with waiting := rest } : EntryView).OncePerBar pair strategy := by
  refine ⟨fun t' ht' => ?_, hv.known⟩
  have honce := hv.once t' ht'
  simp only [hwaiting, List.count_append, List.count_cons] at honce ⊢
  omega

theorem once_fill_step {v : EntryView} {t : Ticket} {rest : List Ticket} {id : PositionId}
    (hv : v.OncePerBar pair strategy) (hwaiting : v.waiting = t :: rest)
    (hflying : v.flying = none) :
    ({ v with waiting := rest, flying := some (id, t), opened := ⟨id, t, true⟩ :: v.opened } :
      EntryView).OncePerBar pair strategy := by
  refine ⟨fun t' ht' => ?_, fun e he hfor => ?_⟩
  · have honce := hv.once t' ht'
    simp only [hwaiting, List.count_append, List.count_cons, List.map_cons] at honce ⊢
    omega
  · rcases List.mem_cons.mp he with rfl | he
    · exact .inl ⟨t, rfl, hfor⟩
    · rcases hv.known e he hfor with ⟨t', hfly, -⟩ | hrow
      · rw [hflying] at hfly
        cases hfly
      · exact .inr hrow

theorem once_record_step {v : EntryView} {id : PositionId} {t : Ticket} {row : Position}
    (hv : v.OncePerBar pair strategy) (hflying : v.flying = some (id, t)) (hid : row.id = id)
    (hopen : row.isOpenFor t.pair t.strategyName = true) :
    ({ v with flying := none, rows := v.rows ++ [row] } : EntryView).OncePerBar pair
      strategy := by
  refine ⟨hv.once, fun e he hfor => ?_⟩
  rcases hv.known e he hfor with ⟨t', hfly, hfor'⟩ | ⟨row', hrow', hkey⟩
  · rw [hflying] at hfly
    cases hfly
    obtain ⟨hpair, hstrategy, -⟩ :=
      EntrySystem.isOpenFor_iff.mp ((isOpenFor_of_isFor hfor').trans hopen)
    exact .inr ⟨row, by simp, hid, hpair, hstrategy⟩
  · exact .inr ⟨row', List.mem_append_left _ hrow', hkey⟩

theorem once_unrecord_step {v : EntryView} (hv : v.OncePerBar pair strategy)
    (halone : v.Alone pair strategy .unrecord) :
    ({ v with flying := none } : EntryView).OncePerBar pair strategy := by
  refine ⟨hv.once, fun e he hfor => ?_⟩
  rcases hv.known e he hfor with ⟨t, hfly, hfor'⟩ | hrow
  · have := halone _ hfly
    rw [hfor'] at this
    cases this
  · exact .inr hrow

theorem once_brokerCloses_step {v : EntryView} (hv : v.OncePerBar pair strategy)
    (id : PositionId) :
    ({ v with opened := v.opened.map (·.close id) } : EntryView).OncePerBar pair strategy := by
  refine ⟨fun t ht => ?_, fun e he hfor => ?_⟩
  · have honce := hv.once t ht
    rw [List.map_map, show (BrokerEntry.ticket ∘ (·.close id)) = BrokerEntry.ticket from
      funext fun e => e.close_ticket id]
    exact honce
  · obtain ⟨e', he', rfl⟩ := List.mem_map.mp he
    rw [BrokerEntry.close_ticket] at hfor
    rw [BrokerEntry.close_id]
    exact hv.known e' he' hfor

theorem once_rowsClose_step {v : EntryView} {f : Position → Position}
    (hv : v.OncePerBar pair strategy)
    (hkeep : ∀ p, (f p).id = p.id ∧ (f p).pair = p.pair ∧ (f p).strategyName = p.strategyName) :
    ({ v with rows := v.rows.map f } : EntryView).OncePerBar pair strategy := by
  refine ⟨hv.once, fun e he hfor => ?_⟩
  rcases hv.known e he hfor with hfly | ⟨row, hrow, hid, hpair, hstrategy⟩
  · exact .inl hfly
  · obtain ⟨hid', hpair', hstrategy'⟩ := hkeep row
    exact .inr ⟨f row, List.mem_map_of_mem hrow, hid'.trans hid, hpair'.trans hpair,
      hstrategy'.trans hstrategy⟩

/-- Every move that clears alone, on an unclosed bar, and loses no position keeps it. -/
theorem OncePerBar.step {v v' : EntryView} {e : EntryEvent} (hv : v.OncePerBar pair strategy)
    (hmove : Moves e v v') (halone : v.Alone pair strategy e)
    (hunclosed : v.Unclosed pair strategy e) : v'.OncePerBar pair strategy := by
  cases hmove with
  | quiet => exact hv
  | clear hnone => exact once_clear_step hv hnone halone hunclosed
  | forget => exact once_forget_step hv
  | enqueue hcleared => exact once_enqueue_step hv hcleared
  | drop hwaiting => exact once_drop_step hv hwaiting
  | fill hwaiting hflying hfresh => exact once_fill_step hv hwaiting hflying
  | record hflying hid hopen => exact once_record_step hv hflying hid hopen
  | unrecord => exact once_unrecord_step hv halone
  | brokerCloses v id => exact once_brokerCloses_step hv id
  | rowsClose hkeep hclose => exact once_rowsClose_step hv hkeep

end EntryView

/-! ## Runs of the system -/

namespace EntrySystem

variable {config : EntryConfig} {pair : CurrencyPair} {strategy : StrategyName}

/-- The snapshot whose exits are done next. -/
def exiting (s : EntrySystem) : Option MarketSnapshot :=
  match s.session.phase with
  | some (.exiting snapshot) => some snapshot
  | _ => none

/-- The rules return what these rules do when `getSizing` gives that. -/
def RuledWith (rules : List EntryRule) (getSizing : Option SizingResult) (s : EntrySystem) :
    EntryLabel → Prop
  | .exitsDone (.ruled results) => ∀ snapshot ∈ s.exiting,
      results = rules.map (fun rule => rule getSizing snapshot)
  | _ => True

def RuledBy (rules : List EntryRule) (s : EntrySystem) (a : EntryLabel) : Prop :=
  ∃ getSizing, s.RuledWith rules getSizing a

/-- A check that finds no OPEN row is made while no position opened on the same bar has
been closed. -/
def BarUnclosed (config : EntryConfig) (pair : CurrencyPair) (strategy : StrategyName)
    (s : EntrySystem) : EntryLabel → Prop
  | .precheck _ => ∀ t ∈ s.checking config, t.isFor pair strategy = true →
      s.db.openFor pair strategy = [] → ∀ e ∈ s.opened, e.ticket = t →
        ∀ row ∈ s.db.positions, row.id = e.id → row.status = .opened
  | _ => True

/-- The broker has opened one position at most for the cross that a bar shows. -/
def OnePerBar (pair : CurrencyPair) (strategy : StrategyName) (s : EntrySystem) : Prop :=
  ∀ bar, (s.opened.map (·.ticket)).count ⟨pair, strategy, bar⟩ ≤ 1

/-- No position of the pair and strategy was opened, and no signal is on the way. -/
structure Unopened (config : EntryConfig) (pair : CurrencyPair) (strategy : StrategyName)
    (s : EntrySystem) : Prop where
  notOpened : ∀ e ∈ s.opened, e.ticket.isFor pair strategy = false
  noSignal : ∀ t ∈ (s.view config).tickets, t.isFor pair strategy = false

/-- The invariant of a run. -/
def OncePerBar (config : EntryConfig) (pair : CurrencyPair) (strategy : StrategyName)
    (s : EntrySystem) : Prop :=
  (s.view config).OncePerBar pair strategy

theorem unclosed_of_labelled {s : EntrySystem} {a : EntryLabel} {e : EntryEvent}
    (hlabel : s.Labelled config a e) (hunclosed : s.BarUnclosed config pair strategy a) :
    (s.view config).Unclosed pair strategy e := by
  cases e with
  | clear t =>
    intro hfor
    obtain ⟨rfl, hmem, hopen⟩ := precheck_of_clear hlabel hfor
    exact hunclosed t hmem hfor hopen
  | _ => trivial

theorem OncePerBar.step {s s' : EntrySystem} {a : EntryLabel}
    (hs : s.OncePerBar config pair strategy) (hchecks : s.ChecksAlone config pair strategy a)
    (hfills : s.FillsRecorded pair strategy a) (hunclosed : s.BarUnclosed config pair strategy a)
    (h : s.step config a = some s') : s'.OncePerBar config pair strategy := by
  obtain ⟨e, hmove, hlabel⟩ := moves_of_step h
  exact EntryView.OncePerBar.step hs hmove (alone_of_labelled hlabel hchecks hfills)
    (unclosed_of_labelled hlabel hunclosed)

theorem Unopened.oncePerBar {s : EntrySystem} (h : s.Unopened config pair strategy) :
    s.OncePerBar config pair strategy := by
  refine ⟨fun t ht => ?_, fun e he hfor => ?_⟩
  · have hsignals : ((s.view config).cleared.toList ++ (s.view config).waiting).count t = 0 := by
      rw [List.count_eq_zero]
      intro hmem
      have := h.noSignal t (List.mem_append_left _ hmem)
      rw [ht] at this
      cases this
    have hopened : ((s.view config).opened.map (·.ticket)).count t = 0 := by
      rw [List.count_eq_zero]
      intro hmem
      obtain ⟨e, he, rfl⟩ := List.mem_map.mp hmem
      have := h.notOpened e he
      rw [ht] at this
      cases this
    omega
  · rw [h.notOpened e he] at hfor
    cases hfor

theorem OncePerBar.onePerBar {s : EntrySystem} (h : s.OncePerBar config pair strategy) :
    s.OnePerBar pair strategy := by
  intro bar
  have honce := h.once ⟨pair, strategy, bar⟩ (by simp [Ticket.isFor])
  simp only [view] at honce
  omega

/-- Whatever the ticks and the exits, the live rule enters a bar's cross once while its
checks are made alone and on unclosed bars, and its fills are recorded. -/
theorem onePerBar_of_unclosed {isBojMeetingDate : Int → Bool} {s₀ s : EntrySystem}
    (h₀ : s₀.Unopened config pair strategy)
    (h : Runs.Reaches (step config)
      (fun s a => s.RuledBy [liveEntryRule isBojMeetingDate] a ∧
        s.ChecksAlone config pair strategy a ∧ s.FillsRecorded pair strategy a ∧
        s.BarUnclosed config pair strategy a) s₀ s) :
    s.OnePerBar pair strategy := by
  have hinv : s.OncePerBar config pair strategy := h.invariant h₀.oncePerBar
    fun _ _ _ hs hok hstep => hs.step hok.2.1 hok.2.2.1 hok.2.2.2 hstep
  exact hinv.onePerBar

/-! ## A stop loss within the bar -/

instance (rules : List EntryRule) (getSizing : Option SizingResult) (s : EntrySystem)
    (a : EntryLabel) : Decidable (s.RuledWith rules getSizing a) :=
  match a with
  | .exitsDone (.ruled _) => inferInstanceAs (Decidable (∀ snapshot ∈ s.exiting, _))
  | .exitsDone .threw | .exitsDone .killed | .exitsDone .blocked | .onMarketData _ | .balance _
  | .openPositions _ | .sizing _ | .precheck _ | .resume _ | .drain _ | .brokerOpens _
  | .placeEntryResolves .. | .placeEntryRejects | .insertPosition _ | .insertSnapshot _
  | .brokerCloses _ | .exitRecorded _ | .markClosed .. | .stop | .stopQueue
  | .dropQueued => .isTrue trivial

instance (s : EntrySystem) (a : EntryLabel) : Decidable (s.BarUnclosed config pair strategy a) :=
  match a with
  | .precheck _ => inferInstanceAs (Decidable (∀ t ∈ s.checking config, _ → _ →
      ∀ e ∈ s.opened, _ → ∀ row ∈ s.db.positions, _ → _))
  | .onMarketData _ | .exitsDone _ | .balance _ | .openPositions _ | .sizing _ | .resume _
  | .drain _ | .brokerOpens _ | .placeEntryResolves .. | .placeEntryRejects | .insertPosition _
  | .insertSnapshot _ | .brokerCloses _ | .exitRecorded _ | .markClosed .. | .stop | .stopQueue
  | .dropQueued => .isTrue trivial

theorem fresh_unopened (config : EntryConfig) (pair : CurrencyPair) (strategy : StrategyName) :
    fresh.Unopened config pair strategy :=
  ⟨by simp [fresh], (fresh_free config pair strategy).noSignal⟩

end EntrySystem

/-- The first position as the exit side closes it. -/
def stoppedOut : Position :=
  ((Position.openWith
      (SmaCrossEntryRule.command tradeTimeFrame crossSnapshot .buy "ゴールデンクロス" crossSizing)
      ⟨.ofNat 1, crossPrice, 867605100⟩).close
    ⟨.ofNat 1, .stopLoss, ⟨"SL", by decide⟩⟩
    ⟨quietPrice, 867605400, ⟨-100⟩⟩).get (by decide +kernel)

/-- The stop loss closes the position, and the next tick enters the same cross again. -/
theorem exists_reentry_on_bar :
    EntrySystem.fresh.Unopened usdJpyConfig .usdJpy .smaCross ∧
      crossSnapshot.tradeBar = nextCrossSnapshot.tradeBar ∧
      ∃ s, Runs.Reaches (EntrySystem.step usdJpyConfig)
          (fun s a => s.RuledBy [liveEntryRule (fun _ => false)] a) .fresh s ∧
        (s.opened.map (·.ticket)).count ⟨.usdJpy, .smaCross, crossSnapshot.tradeBar⟩ = 2 := by
  refine ⟨EntrySystem.fresh_unopened .., by decide +kernel, ?_⟩
  have hrun : ∃ s, Runs.Reaches (EntrySystem.step usdJpyConfig)
      (fun s a => s.RuledWith [liveEntryRule (fun _ => false)] (some crossSizing) a) .fresh s ∧
      (s.opened.map (·.ticket)).count ⟨.usdJpy, .smaCross, crossSnapshot.tradeBar⟩ = 2 :=
    Runs.exists_reaches (signalLabels crossSnapshot 867605000 ++ fillLabels (.ofNat 1) 867605100 ++
      [.brokerCloses (.ofNat 1), .exitRecorded stoppedOut] ++
      signalLabels nextCrossSnapshot 867606000 ++ fillLabels (.ofNat 2) 867606100)
      (by decide +kernel)
  obtain ⟨s, hreach, hcount⟩ := hrun
  exact ⟨s, hreach.mono fun _ _ h => ⟨_, h⟩, hcount⟩

/-- Without the stop loss the next tick finds the row. -/
theorem onePerBar_of_unclosed_cross :
    ∃ s : EntrySystem, s.opened.length = 1 ∧ s.OnePerBar .usdJpy .smaCross := by
  have hrun : ∃ s, Runs.Reaches (EntrySystem.step usdJpyConfig)
      (fun s a => s.RuledWith [liveEntryRule (fun _ => false)] (some crossSizing) a ∧
        s.ChecksAlone usdJpyConfig .usdJpy .smaCross a ∧ s.FillsRecorded .usdJpy .smaCross a ∧
        s.BarUnclosed usdJpyConfig .usdJpy .smaCross a) .fresh s ∧ s.opened.length = 1 :=
    Runs.exists_reaches (signalLabels crossSnapshot 867605000 ++ fillLabels (.ofNat 1) 867605100 ++
      (signalLabels nextCrossSnapshot 867606000).take 4) (by decide +kernel)
  obtain ⟨s, hreach, hopened⟩ := hrun
  exact ⟨s, hopened, EntrySystem.onePerBar_of_unclosed (EntrySystem.fresh_unopened ..)
    (hreach.mono fun _ _ h => ⟨⟨_, h.1⟩, h.2⟩)⟩

end Luchida
