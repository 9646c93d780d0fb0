import Mathlib.Data.List.Perm.Subperm
import Luchida.EntryView

/- No duplicate position per pair and strategy, over every run of the entry side.

   The checks of `enqueueFor` look at rows only. Between a check and the row of the
   command it lets through lie the queue, the broker and the insert, and a second snapshot
   that is checked in that time is let through as well (`exists_duplicate_position`). Nor
   does a row ever appear for a position whose order was reported as failed or whose
   insert failed. Apart from these two the system keeps one position per pair and strategy
   (`atMostOne_of_clear`): the signals on the way and the OPEN rows are at most one. -/
namespace Luchida

namespace EntryView

variable {pair : CurrencyPair} {strategy : StrategyName}

/-! ## One signal on the way or one OPEN row -/

/-- The signals on the way from the check to a row. -/
def tickets (v : EntryView) : List Ticket :=
  v.cleared.toList ++ v.waiting ++ (v.flying.map (·.2)).toList

/-- The id has an OPEN row of the pair and strategy, or flies for them. -/
def Backed (pair : CurrencyPair) (strategy : StrategyName) (v : EntryView) (id : PositionId) :
    Prop :=
  (∃ t, v.flying = some (id, t) ∧ t.isFor pair strategy = true) ∨
    ∃ row ∈ v.rows, row.id = id ∧ row.isOpenFor pair strategy = true

structure OneHeld (pair : CurrencyPair) (strategy : StrategyName) (v : EntryView) : Prop where
  held : v.tickets.countP (·.isFor pair strategy) +
    v.rows.countP (·.isOpenFor pair strategy) ≤ 1
  backed : ∀ e ∈ v.opened, e.live = true → e.ticket.isFor pair strategy = true →
    v.Backed pair strategy e.id
  distinct : (v.opened.map (·.id)).Nodup

/-- A check that finds no row is made while no signal is on the way, and no position
that flies loses its row. -/
def Alone (pair : CurrencyPair) (strategy : StrategyName) (v : EntryView) : EntryEvent → Prop
  | .clear t => t.isFor pair strategy = true →
      ∀ t' ∈ v.waiting ++ (v.flying.map (·.2)).toList, t'.isFor pair strategy = false
  | .unrecord => ∀ f, v.flying = some f → f.2.isFor pair strategy = false
  | _ => True

theorem Backed.mono {v v' : EntryView} {id : PositionId} (hflying : v'.flying = v.flying)
    (hrows : v'.rows = v.rows) (h : v.Backed pair strategy id) : v'.Backed pair strategy id := by
  unfold Backed
  rw [hflying, hrows]
  exact h

theorem isOpenFor_of_isFor {row : Position} {t : Ticket} (ht : t.isFor pair strategy = true) :
    row.isOpenFor pair strategy = row.isOpenFor t.pair t.strategyName := by
  simp only [Ticket.isFor, decide_eq_true_eq] at ht
  rw [ht.1, ht.2]

theorem clear_step {v : EntryView} {t : Ticket} (hv : v.OneHeld pair strategy)
    (hnone : ∀ row ∈ v.rows, row.isOpenFor t.pair t.strategyName = false)
    (halone : v.Alone pair strategy (.clear t)) :
    ({ v with cleared := some t } : EntryView).OneHeld pair strategy := by
  refine ⟨?_, hv.backed, hv.distinct⟩
  have hheld := hv.held
  simp only [tickets, List.countP_append, Option.toList_some] at hheld ⊢
  cases ht : t.isFor pair strategy with
  | false =>
    simp only [List.countP_cons, List.countP_nil, ht]
    simp only [Bool.false_eq_true, if_false]
    omega
  | true =>
    have hrows : v.rows.countP (·.isOpenFor pair strategy) = 0 := by
      rw [List.countP_eq_zero]
      intro row hrow
      rw [isOpenFor_of_isFor ht, hnone row hrow]
      exact Bool.false_ne_true
    -- no row and, by `halone`, nothing on the way: the new signal is the only one
    have hways : (v.waiting ++ (v.flying.map (·.2)).toList).countP (·.isFor pair strategy) = 0 := by
      rw [List.countP_eq_zero]
      intro t' ht'
      rw [halone ht t' ht']
      exact Bool.false_ne_true
    rw [List.countP_append] at hways
    simp only [List.countP_cons, List.countP_nil, ht, if_true]
    omega

theorem enqueue_step {v : EntryView} {t : Ticket} (hv : v.OneHeld pair strategy)
    (hcleared : v.cleared = some t) :
    ({ v with cleared := none, waiting := v.waiting ++ [t] } : EntryView).OneHeld pair
      strategy := by
  refine ⟨?_, hv.backed, hv.distinct⟩
  have hheld := hv.held
  simp only [tickets, hcleared, List.countP_append, Option.toList_some, Option.toList_none,
    List.countP_nil] at hheld ⊢
  omega

theorem forget_step {v : EntryView} (hv : v.OneHeld pair strategy) :
    ({ v with cleared := none } : EntryView).OneHeld pair strategy := by
  refine ⟨?_, hv.backed, hv.distinct⟩
  have hheld := hv.held
  simp only [tickets, List.countP_append, Option.toList_none, List.countP_nil] at hheld ⊢
  omega

theorem drop_step {v : EntryView} {t : Ticket} {rest : List Ticket}
    (hv : v.OneHeld pair strategy) (hwaiting : v.waiting = t :: rest) :
    ({ v with waiting := rest } : EntryView).OneHeld pair strategy := by
  refine ⟨?_, hv.backed, hv.distinct⟩
  have hheld := hv.held
  simp only [tickets, hwaiting, List.countP_append, List.countP_cons] at hheld ⊢
  omega

/-- The position that the broker opens takes the place of its signal. -/
theorem fill_step {v : EntryView} {t : Ticket} {rest : List Ticket} {id : PositionId}
    (hv : v.OneHeld pair strategy) (hwaiting : v.waiting = t :: rest) (hflying : v.flying = none)
    (hfresh : ∀ e ∈ v.opened, e.id ≠ id) :
    ({ v with waiting := rest, flying := some (id, t), opened := ⟨id, t, true⟩ :: v.opened } :
      EntryView).OneHeld pair strategy := by
  refine ⟨?_, ?_, ?_⟩
  · have hheld := hv.held
    simp only [tickets, hwaiting, hflying, List.countP_append, List.countP_cons, Option.map_none,
      Option.toList_none, Option.map_some, Option.toList_some, List.countP_nil] at hheld ⊢
    omega
  · intro e he hlive hfor
    rcases List.mem_cons.mp he with rfl | he
    · exact .inl ⟨t, rfl, hfor⟩
    · rcases hv.backed e he hlive hfor with ⟨t', hfly, -⟩ | hrow
      · rw [hflying] at hfly
        cases hfly
      · exact .inr hrow
  · rw [List.map_cons, List.nodup_cons]
    refine ⟨?_, hv.distinct⟩
    intro hmem
    obtain ⟨e, he, heid⟩ := List.mem_map.mp hmem
    exact hfresh e he heid

/-- The row takes the place of the position that flies. -/
theorem record_step {v : EntryView} {id : PositionId} {t : Ticket} {row : Position}
    (hv : v.OneHeld pair strategy) (hflying : v.flying = some (id, t)) (hid : row.id = id)
    (hopen : row.isOpenFor t.pair t.strategyName = true) :
    ({ v with flying := none, rows := v.rows ++ [row] } : EntryView).OneHeld pair strategy := by
  refine ⟨?_, ?_, hv.distinct⟩
  · have hheld := hv.held
    have hkey : row.isOpenFor pair strategy = t.isFor pair strategy := by
      simp only [Position.isOpenFor, Ticket.isFor, decide_eq_true_eq] at hopen ⊢
      simp only [hopen, and_true]
    simp only [tickets, hflying, List.countP_append, List.countP_cons, Option.map_some,
      Option.toList_some, Option.map_none, Option.toList_none, List.countP_nil] at hheld ⊢
    rw [hkey]
    omega
  · intro e he hlive hfor
    rcases hv.backed e he hlive hfor with ⟨t', hfly, hfor'⟩ | ⟨row', hrow', hback⟩
    · rw [hflying] at hfly
      cases hfly
      exact .inr ⟨row, by simp, hid, (isOpenFor_of_isFor hfor').trans hopen⟩
    · exact .inr ⟨row', List.mem_append_left _ hrow', hback⟩

/-- A position of another strategy may lose its row. -/
theorem unrecord_step {v : EntryView} (hv : v.OneHeld pair strategy)
    (halone : v.Alone pair strategy .unrecord) :
    ({ v with flying := none } : EntryView).OneHeld pair strategy := by
  refine ⟨?_, ?_, hv.distinct⟩
  · have hheld := hv.held
    simp only [tickets, List.countP_append, Option.map_none, Option.toList_none,
      List.countP_nil] at hheld ⊢
    omega
  · intro e he hlive hfor
    rcases hv.backed e he hlive hfor with ⟨t, hfly, hfor'⟩ | hrow
    · have := halone _ hfly
      rw [hfor'] at this
      cases this
    · exact .inr hrow

theorem brokerCloses_step {v : EntryView} (hv : v.OneHeld pair strategy) (id : PositionId) :
    ({ v with opened := v.opened.map (·.close id) } : EntryView).OneHeld pair strategy := by
  refine ⟨hv.held, ?_, ?_⟩
  · intro e he hlive hfor
    obtain ⟨e', he', rfl⟩ := List.mem_map.mp he
    rw [BrokerEntry.close_id]
    rw [BrokerEntry.close_ticket] at hfor
    exact hv.backed e' he' (BrokerEntry.live_of_close hlive) hfor
  · rw [List.map_map, show (BrokerEntry.id ∘ (·.close id)) = BrokerEntry.id from
      funext fun e => e.close_id id]
    exact hv.distinct

/-- A row that closes has no position behind it. -/
theorem rowsClose_step {v : EntryView} {f : Position → Position} (hv : v.OneHeld pair strategy)
    (hkeep : ∀ p, (f p).id = p.id ∧ (f p).pair = p.pair ∧ (f p).strategyName = p.strategyName)
    (hclose : ∀ p, (f p).status = p.status ∨
      (f p).status = .closed ∧ ∀ e ∈ v.opened, e.id = p.id → e.live = false) :
    ({ v with rows := v.rows.map f } : EntryView).OneHeld pair strategy := by
  have hopen : ∀ p, (f p).isOpenFor pair strategy = true → p.isOpenFor pair strategy = true := by
    intro p hp
    rw [EntrySystem.isOpenFor_iff] at hp ⊢
    obtain ⟨-, hpair, hstrategy⟩ := hkeep p
    rcases hclose p with hsame | ⟨hclosed, -⟩
    · rwa [hpair, hstrategy, hsame] at hp
    · simp [hclosed] at hp
  refine ⟨?_, ?_, hv.distinct⟩
  · have hheld := hv.held
    have hle : (v.rows.map f).countP (·.isOpenFor pair strategy) ≤
        v.rows.countP (·.isOpenFor pair strategy) := by
      rw [List.countP_map]
      exact List.countP_mono_left fun p _ hp => hopen p hp
    simp only [tickets] at hheld ⊢
    omega
  · intro e he hlive hfor
    rcases hv.backed e he hlive hfor with hfly | ⟨row, hrow, hid, hrowopen⟩
    · exact .inl hfly
    · refine .inr ⟨f row, List.mem_map_of_mem hrow, (hkeep row).1.trans hid, ?_⟩
      rw [EntrySystem.isOpenFor_iff] at hrowopen ⊢
      obtain ⟨-, hpair, hstrategy⟩ := hkeep row
      rcases hclose row with hsame | ⟨-, hgone⟩
      · rwa [hpair, hstrategy, hsame]
      · rw [hgone e he hid.symm] at hlive
        cases hlive

/-- Every move that clears alone and loses no position keeps it. -/
theorem OneHeld.step {v v' : EntryView} {e : EntryEvent} (hv : v.OneHeld pair strategy)
    (hmove : Moves e v v') (halone : v.Alone pair strategy e) : v'.OneHeld pair strategy := by
  cases hmove with
  | quiet => exact hv
  | clear hnone => exact clear_step hv hnone halone
  | forget => exact forget_step hv
  | enqueue hcleared => exact enqueue_step hv hcleared
  | drop hwaiting => exact drop_step hv hwaiting
  | fill hwaiting hflying hfresh => exact fill_step hv hwaiting hflying hfresh
  | record hflying hid hopen => exact record_step hv hflying hid hopen
  | unrecord => exact unrecord_step hv halone
  | brokerCloses v id => exact brokerCloses_step hv id
  | rowsClose hkeep hclose => exact rowsClose_step hv hkeep hclose

/-- At most one position of the pair and strategy is live. -/
theorem OneHeld.live_le_one {v : EntryView} (hv : v.OneHeld pair strategy) :
    (v.opened.filter (fun e => e.live && e.ticket.isFor pair strategy)).length ≤ 1 := by
  -- each live position is backed by one of at most one flight or row
  let backing := ((v.flying.toList.filter (·.2.isFor pair strategy)).map (·.1)) ++
    (v.rows.filter (·.isOpenFor pair strategy)).map (·.id)
  have hlength : backing.length ≤ 1 := by
    have hheld := hv.held
    have hfly : (v.flying.toList.filter (·.2.isFor pair strategy)).length =
        (v.flying.map (·.2)).toList.countP (·.isFor pair strategy) := by
      rw [← List.countP_eq_length_filter]
      cases v.flying <;> rfl
    simp only [tickets, List.countP_append] at hheld
    simp only [backing, List.length_append, List.length_map, hfly, ← List.countP_eq_length_filter]
    omega
  have hsubset : (v.opened.filter (fun e => e.live && e.ticket.isFor pair strategy)).map (·.id) ⊆
      backing := by
    intro id hid
    obtain ⟨e, he, rfl⟩ := List.mem_map.mp hid
    simp only [List.mem_filter, Bool.and_eq_true] at he
    obtain ⟨he, hlive, hfor⟩ := he
    rcases hv.backed e he hlive hfor with ⟨t, hfly, hfor'⟩ | ⟨row, hrow, hrowid, hopen⟩
    · refine List.mem_append_left _ (List.mem_map.mpr ⟨(e.id, t), ?_, rfl⟩)
      simp [hfly, hfor']
    · exact List.mem_append_right _
        (List.mem_map.mpr ⟨row, List.mem_filter.mpr ⟨hrow, hopen⟩, hrowid⟩)
  have hnodup : ((v.opened.filter (fun e => e.live && e.ticket.isFor pair strategy)).map
      (·.id)).Nodup := hv.distinct.sublist (List.filter_sublist.map _)
  have := (hnodup.subperm hsubset).length_le
  rw [List.length_map] at this
  omega

end EntryView

/-! ## Runs of the system -/

namespace EntrySystem

variable {config : EntryConfig} {pair : CurrencyPair} {strategy : StrategyName}

/-- The signals in the queue, and those with the broker that have no row. -/
def pending (s : EntrySystem) : List Ticket :=
  s.drain.unfilled ++ s.queue.map (·.ticket) ++ (s.drain.flying.map (·.2)).toList

/-- The signal that waits for its check. -/
def checking (config : EntryConfig) (s : EntrySystem) : Option Ticket :=
  match s.session.phase with
  | some (.awaitingPrecheck turn) => some (turn.ticket config.pair)
  | _ => none

/-- A check that finds no OPEN row is made while no command of the pair and strategy
is in the queue or with the broker. -/
def ChecksAlone (config : EntryConfig) (pair : CurrencyPair) (strategy : StrategyName)
    (s : EntrySystem) : EntryLabel → Prop
  | .precheck _ => ∀ t ∈ s.checking config, t.isFor pair strategy = true →
      s.db.openFor pair strategy = [] → ∀ t' ∈ s.pending, t'.isFor pair strategy = false
  | _ => True

/-- A position that the broker has opened is reported, and its row is written. -/
def FillsRecorded (pair : CurrencyPair) (strategy : StrategyName) (s : EntrySystem) :
    EntryLabel → Prop
  | .placeEntryRejects => ∀ f ∈ s.drain.flying, f.2.isFor pair strategy = false
  | .insertPosition reply => ∀ f ∈ s.drain.flying, f.2.isFor pair strategy = true →
      reply ≠ .failed ∧ s.db.hasRow f.1 = false
  | _ => True

/-- One live position at most, and no second OPEN row for the query to find. -/
def AtMostOne (pair : CurrencyPair) (strategy : StrategyName) (s : EntrySystem) : Prop :=
  (s.opened.filter (fun e => e.live && e.ticket.isFor pair strategy)).length ≤ 1 ∧
    ∀ e, s.db.findOpenByPairAndStrategy pair strategy ≠ .error e

/-- No OPEN row, no live position, and no signal on the way. -/
structure Free (config : EntryConfig) (pair : CurrencyPair) (strategy : StrategyName)
    (s : EntrySystem) : Prop where
  noRow : s.db.openFor pair strategy = []
  notLive : ∀ e ∈ s.opened, e.ticket.isFor pair strategy = true → e.live = false
  noSignal : ∀ t ∈ (s.view config).tickets, t.isFor pair strategy = false
  distinct : (s.opened.map (·.id)).Nodup

/-- A signal is cleared by a check that finds no OPEN row. -/
theorem precheck_of_clear {s : EntrySystem} {a : EntryLabel} {t : Ticket}
    (hlabel : s.Labelled config a (.clear t)) (hfor : t.isFor pair strategy = true) :
    a = .precheck true ∧ t ∈ s.checking config ∧ s.db.openFor pair strategy = [] := by
  obtain ⟨rfl, turn, hphase, rfl, hopen⟩ := hlabel
  have hkey : config.pair = pair ∧ turn.strategy = strategy := of_decide_eq_true hfor
  rw [hkey.1, hkey.2] at hopen
  exact ⟨rfl, by simp [checking, hphase], hopen⟩

theorem alone_of_labelled {s : EntrySystem} {a : EntryLabel} {e : EntryEvent}
    (hlabel : s.Labelled config a e) (hchecks : s.ChecksAlone config pair strategy a)
    (hfills : s.FillsRecorded pair strategy a) : (s.view config).Alone pair strategy e := by
  cases e with
  | clear t =>
    intro hfor
    obtain ⟨rfl, hmem, hopen⟩ := precheck_of_clear hlabel hfor
    exact hchecks t hmem hfor hopen
  | unrecord =>
    intro f hf
    rcases hlabel with ⟨rfl, -⟩ | ⟨reply, entry, result, rfl, hdrain, hfailed⟩
    · exact hfills f hf
    · by_contra hfor
      rw [Bool.not_eq_false] at hfor
      obtain ⟨hreply, hrow⟩ := hfills f hf hfor
      have hid : f.1 = result.positionId := by
        simp only [view, hdrain, DrainPhase.flying, Option.some.injEq] at hf
        rw [← hf]
      rcases hfailed with hfailed | hrow'
      · exact hreply hfailed
      · rw [hid, hrow'] at hrow
        cases hrow
  | _ => trivial

/-- The invariant of a run. -/
def OneHeld (config : EntryConfig) (pair : CurrencyPair) (strategy : StrategyName)
    (s : EntrySystem) : Prop :=
  (s.view config).OneHeld pair strategy

theorem OneHeld.step {s s' : EntrySystem} {a : EntryLabel} (hs : s.OneHeld config pair strategy)
    (hchecks : s.ChecksAlone config pair strategy a) (hfills : s.FillsRecorded pair strategy a)
    (h : s.step config a = some s') : s'.OneHeld config pair strategy := by
  obtain ⟨e, hmove, hlabel⟩ := moves_of_step h
  exact EntryView.OneHeld.step hs hmove (alone_of_labelled hlabel hchecks hfills)

theorem Free.oneHeld {s : EntrySystem} (h : s.Free config pair strategy) :
    s.OneHeld config pair strategy := by
  have htickets : (s.view config).tickets.countP (·.isFor pair strategy) = 0 := by
    rw [List.countP_eq_zero]
    intro t ht
    rw [h.noSignal t ht]
    exact Bool.false_ne_true
  have hrows : s.db.positions.countP (·.isOpenFor pair strategy) = 0 := by
    rw [List.countP_eq_length_filter, ← openFor_eq_filter, h.noRow]
    rfl
  refine ⟨?_, ?_, h.distinct⟩
  · rw [htickets, Nat.zero_add]
    exact Nat.le_trans (Nat.le_of_eq hrows) (Nat.zero_le 1)
  · intro e he hlive hfor
    rw [h.notLive e he hfor] at hlive
    cases hlive

theorem OneHeld.atMostOne {s : EntrySystem} (h : s.OneHeld config pair strategy) :
    s.AtMostOne pair strategy := by
  refine ⟨h.live_le_one, fun e he => ?_⟩
  have hmany := (s.db.findOpenByPairAndStrategy_error_iff pair strategy).mp ⟨e, he⟩
  have hheld := h.held
  rw [openFor_eq_filter, ← List.countP_eq_length_filter] at hmany
  simp only [view] at hheld
  omega

/-- From a state that is free for a pair and strategy, every run in which its checks
are made alone and its fills are recorded keeps one position at most. -/
theorem atMostOne_of_alone {s₀ s : EntrySystem} (h₀ : s₀.Free config pair strategy)
    (h : Runs.Reaches (step config)
      (fun s a => s.ChecksAlone config pair strategy a ∧ s.FillsRecorded pair strategy a) s₀ s) :
    s.AtMostOne pair strategy := by
  have hinv : s.OneHeld config pair strategy := h.invariant h₀.oneHeld
    fun _ _ _ hs hok hstep => hs.step hok.1 hok.2 hstep
  exact hinv.atMostOne

/-! ## Two snapshots before one row -/

instance (s : EntrySystem) (a : EntryLabel) : Decidable (s.ChecksAlone config pair strategy a) :=
  match a with
  | .precheck _ =>
    inferInstanceAs (Decidable (∀ t ∈ s.checking config, _ → _ → ∀ t' ∈ s.pending, _))
  | .onMarketData _ | .exitsDone _ | .balance _ | .openPositions _ | .sizing _ | .resume _
  | .drain _ | .brokerOpens _ | .placeEntryResolves .. | .placeEntryRejects | .insertPosition _
  | .insertSnapshot _ | .brokerCloses _ | .exitRecorded _ | .markClosed .. | .stop | .stopQueue
  | .dropQueued => .isTrue trivial

instance (s : EntrySystem) (a : EntryLabel) : Decidable (s.FillsRecorded pair strategy a) :=
  match a with
  | .placeEntryRejects => inferInstanceAs (Decidable (∀ f ∈ s.drain.flying, _))
  | .insertPosition _ => inferInstanceAs (Decidable (∀ f ∈ s.drain.flying, _ → _ ∧ _))
  | .onMarketData _ | .exitsDone _ | .balance _ | .openPositions _ | .sizing _ | .precheck _
  | .resume _ | .drain _ | .brokerOpens _ | .placeEntryResolves .. | .insertSnapshot _
  | .brokerCloses _ | .exitRecorded _ | .markClosed .. | .stop | .stopQueue
  | .dropQueued => .isTrue trivial

instance (s : EntrySystem) : Decidable (s.AtMostOne pair strategy) :=
  decidable_of_iff ((s.opened.filter (fun e => e.live && e.ticket.isFor pair strategy)).length ≤ 1 ∧
      (s.db.openFor pair strategy).length ≤ 1) (by
    refine and_congr_right fun _ => ?_
    rw [← not_lt, ← s.db.findOpenByPairAndStrategy_error_iff pair strategy, not_exists])

/-- A system without a history. -/
def fresh : EntrySystem := ⟨.started, [], false, .idle, .empty, []⟩

theorem fresh_free (config : EntryConfig) (pair : CurrencyPair) (strategy : StrategyName) :
    fresh.Free config pair strategy :=
  ⟨rfl, by simp [fresh], by simp [fresh, view, EntryView.tickets, clearedIn, DrainPhase.unfilled,
    DrainPhase.flying, TradingSession.started], by simp [fresh]⟩

end EntrySystem

def usdJpyConfig : EntryConfig := ⟨.usdJpy, 3000⟩

/-- A snapshot on its way to the queue, with what the live rule returns for it. -/
def signalLabels (snapshot : MarketSnapshot) (now : Int) : List EntryLabel :=
  [.onMarketData snapshot,
    .exitsDone (.ruled [liveEntryRule (fun _ => false) (some crossSizing) snapshot]),
    .balance (some ⟨1000000, .jpy⟩), .openPositions true, .sizing (some crossSizing),
    .precheck true, .resume now]

/-- A drain whose order is filled as position `id` and recorded. -/
def fillLabels (id : PositionId) (now : Int) : List EntryLabel :=
  [.drain now, .brokerOpens id, .placeEntryResolves crossPrice now, .insertPosition .ok,
    .insertSnapshot .ok]

/-- The second snapshot is checked before the command of the first is drained. -/
theorem exists_duplicate_position :
    EntrySystem.fresh.Free usdJpyConfig .usdJpy .smaCross ∧
      ∃ s, Runs.Reaches (EntrySystem.step usdJpyConfig) (fun _ _ => True) .fresh s ∧
        (s.opened.filter (fun e => e.live && e.ticket.isFor .usdJpy .smaCross)).length = 2 ∧
        s.db.findOpenByPairAndStrategy .usdJpy .smaCross = .error ⟨.usdJpy, .smaCross⟩ :=
  ⟨EntrySystem.fresh_free .., Runs.exists_reaches (signalLabels crossSnapshot 867605000 ++
    signalLabels nextCrossSnapshot 867606000 ++ fillLabels (.ofNat 1) 867606100 ++
    fillLabels (.ofNat 2) 867606200) (by decide +kernel)⟩

/-- The second snapshot comes when the row of the first is there: it gets no lot. -/
theorem atMostOne_of_alone_cross :
    ∃ s : EntrySystem, s.opened.length = 1 ∧ s.AtMostOne .usdJpy .smaCross := by
  have hrun : ∃ s, Runs.Reaches (EntrySystem.step usdJpyConfig)
      (fun s a => s.ChecksAlone usdJpyConfig .usdJpy .smaCross a ∧
        s.FillsRecorded .usdJpy .smaCross a) .fresh s ∧ s.opened.length = 1 :=
    Runs.exists_reaches (signalLabels crossSnapshot 867605000 ++ fillLabels (.ofNat 1) 867605100 ++
      (signalLabels nextCrossSnapshot 867606000).take 4) (by decide +kernel)
  obtain ⟨s, hreach, hopened⟩ := hrun
  exact ⟨s, hopened, EntrySystem.atMostOne_of_alone (EntrySystem.fresh_free ..) hreach⟩

end Luchida
