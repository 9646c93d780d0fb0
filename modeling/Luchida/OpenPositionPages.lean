import Mathlib.Data.Finset.Filter
import Mathlib.Data.Finset.Max
import Std.Data.String.ToNat
import Luchida.GmoBrokerAdapter

/- The pages of `fetchOpenPositionIds`, over a set of open positions that changes from one
   answer to the next.

   The market is what is open at each answer of the tape. Every page request that the loop
   makes is logged with its cursor and the answer it took (`loggedPages`), next to the
   loop's own result (`loggedPages_fst`); the log is the answers of the tape in their order
   (`Sent`), and the result is read off it (`PagingEnds`). Each page is cut off below by its
   cursor, the cursors fall, and what a full page leaves out lies below the next cursor: a
   position that stays open can only be passed over by the pages above it. -/
namespace Luchida.GmoBrokerAdapter

/-! ## The loop with a log of its requests -/

/-- A page request of the loop: its `prevId`, the answer of the tape that it took in the
end, and the list in it, where the request did not fail. -/
structure PageRequest where
  prevId : Option Nat
  moment : Nat
  page : Option (List GmoOpenPosition)

/-- The ids on a page. -/
def pageIds (page : List GmoOpenPosition) : List Nat := page.map (·.positionId)

/-- The ids that a request brought. -/
def PageRequest.ids (r : PageRequest) : List Nat := pageIds (r.page.getD [])

/-- What a page says about the next one. -/
inductive PageTurn where
  | last
  | stuck (prev next : Nat)
  | next (cursor : Nat)
  deriving DecidableEq, Repr

/-- The part of the loop after the page is read. -/
def turnPage (prevId : Option Nat) : List GmoOpenPosition → PageTurn
  | [] => .last
  | first :: rest =>
    if (first :: rest).length < openPositionsPageSize then .last
    else
      let next := smallestId first.positionId (first :: rest)
      match prevId with
      | some prev => if prev ≤ next then .stuck prev next else .next next
      | none => .next next

/-- What the loop throws over the page limit. -/
def pageLimitError : AdapterError :=
  .broker (.unexpected
    ("建玉一覧の全件取得がページ上限 " ++ openPositionsMaxPages.repr ++ " を超過") none)

/-- What the loop throws where the cursor does not fall. -/
def stuckCursorError (prev next : Nat) : AdapterError :=
  .broker (.unexpected ("建玉一覧のページングカーソルが前進しない（prevId=" ++ prev.repr
    ++ ", next=" ++ next.repr ++ "）") none)

/-- `fetchPages` with the requests it makes. -/
def loggedPages (tape : Nat → HttpOutcome (Option (List GmoOpenPosition))) :
    Nat → Nat → Option Nat → List PositionId →
      Except AdapterError (List PositionId) × List PageRequest
  | 0, _, _, _ => (.error pageLimitError, [])
  | pages + 1, pos, prevId, ids =>
    match send tape pos with
    | (.error e, pos') => (.error (.request e), [⟨prevId, pos' - 1, none⟩])
    | (.ok response, pos') =>
      let page := response.data.getD []
      let request : PageRequest := ⟨prevId, pos' - 1, some page⟩
      let ids' := ids ++ (pageIds page).map .ofNat
      match turnPage prevId page with
      | .last => (.ok ids', [request])
      | .stuck prev next => (.error (stuckCursorError prev next), [request])
      | .next cursor =>
        let rest := loggedPages tape pages pos' (some cursor) ids'
        (rest.1, request :: rest.2)

/-- The request that reads the tape from `pos` with the cursor `prevId`, and what it got. -/
structure PageRequest.Took (tape : Nat → HttpOutcome (Option (List GmoOpenPosition))) (pos : Nat)
    (prevId : Option Nat) (r : PageRequest) (answer : Except RequestError (List GmoOpenPosition)) :
    Prop where
  prevId : r.prevId = prevId
  moment : (send tape pos).2 = r.moment + 1
  answered : (send tape pos).1.map (fun response => response.data.getD []) = answer
  page : r.page = answer.toOption

/-- What one turn of the loop can do. -/
theorem loggedPages_cases (tape : Nat → HttpOutcome (Option (List GmoOpenPosition)))
    (pages pos : Nat) (prevId : Option Nat) (ids : List PositionId) :
    (∃ e moment, (⟨prevId, moment, none⟩ : PageRequest).Took tape pos prevId (.error e) ∧
      loggedPages tape (pages + 1) pos prevId ids =
        (.error (.request e), [⟨prevId, moment, none⟩])) ∨
    ∃ page moment, (⟨prevId, moment, some page⟩ : PageRequest).Took tape pos prevId (.ok page) ∧
      (turnPage prevId page = .last ∧
        loggedPages tape (pages + 1) pos prevId ids =
          (.ok (ids ++ (pageIds page).map .ofNat), [⟨prevId, moment, some page⟩]) ∨
      (∃ prev next, turnPage prevId page = .stuck prev next ∧
        loggedPages tape (pages + 1) pos prevId ids =
          (.error (stuckCursorError prev next), [⟨prevId, moment, some page⟩])) ∨
      ∃ cursor, turnPage prevId page = .next cursor ∧
        loggedPages tape (pages + 1) pos prevId ids =
          ((loggedPages tape pages (moment + 1) (some cursor)
              (ids ++ (pageIds page).map .ofNat)).1,
            ⟨prevId, moment, some page⟩ :: (loggedPages tape pages (moment + 1) (some cursor)
              (ids ++ (pageIds page).map .ofNat)).2)) := by
  have hpos := (send_pos tape pos).1
  rcases hsend : send tape pos with ⟨answer, pos'⟩
  rw [hsend] at hpos
  have hmoment : pos' - 1 + 1 = pos' := Nat.sub_add_cancel (Nat.one_le_of_lt hpos)
  cases answer with
  | error e =>
    refine .inl ⟨e, pos' - 1, ⟨rfl, by rw [hsend, hmoment], by rw [hsend]; rfl, rfl⟩, ?_⟩
    simp only [loggedPages, hsend]
  | ok response =>
    refine .inr ⟨response.data.getD [], pos' - 1,
      ⟨rfl, by rw [hsend, hmoment], by rw [hsend]; rfl, rfl⟩, ?_⟩
    rw [hmoment]
    simp only [loggedPages, hsend]
    cases hturn : turnPage prevId (response.data.getD []) with
    | last => exact .inl ⟨rfl, rfl⟩
    | stuck prev next => exact .inr (.inl ⟨prev, next, rfl, rfl⟩)
    | next cursor => exact .inr (.inr ⟨cursor, rfl, rfl⟩)

/-- The log is one of the loop of the source. -/
theorem loggedPages_fst (tape : Nat → HttpOutcome (Option (List GmoOpenPosition)))
    (pages pos : Nat) (prevId : Option Nat) (ids : List PositionId) :
    (loggedPages tape pages pos prevId ids).1 = fetchPages tape pages pos prevId ids := by
  induction pages generalizing pos prevId ids with
  | zero => rfl
  | succ pages ih =>
    rcases hsend : send tape pos with ⟨answer, pos'⟩
    cases answer with
    | error e => simp only [loggedPages, fetchPages, hsend]
    | ok response =>
      cases hpage : response.data.getD [] with
      | nil => simp [loggedPages, fetchPages, hsend, hpage, turnPage, pageIds]
      | cons first rest =>
        have hmap : (pageIds (first :: rest)).map PositionId.ofNat
            = (first :: rest).map (fun p => .ofNat p.positionId) := by
          simp [pageIds]
        simp only [loggedPages, fetchPages, hsend, hpage, turnPage, hmap]
        by_cases hshort : (first :: rest).length < openPositionsPageSize
        · simp only [if_pos hshort]
        · simp only [if_neg hshort]
          cases prevId with
          | none => exact ih pos' _ _
          | some prev =>
            by_cases hstuck : prev ≤ smallestId first.positionId (first :: rest)
            · simp only [if_pos hstuck]
              rfl
            · simp only [if_neg hstuck]
              exact ih pos' _ _

/-- The page requests of a call of `fetchOpenPositionIds`, in their order. -/
def pageRequests (tape : Nat → HttpOutcome (Option (List GmoOpenPosition))) :
    List PageRequest :=
  (loggedPages tape (openPositionsMaxPages + 1) 0 none []).2

/-! ## Turning a page -/

theorem smallestId_le (smallest : Nat) (page : List GmoOpenPosition) :
    smallestId smallest page ≤ smallest ∧ ∀ p ∈ page, smallestId smallest page ≤ p.positionId := by
  induction page generalizing smallest with
  | nil => simp [smallestId]
  | cons pos rest ih =>
    obtain ⟨hle, hrest⟩ := ih (if pos.positionId < smallest then pos.positionId else smallest)
    have hmin : (if pos.positionId < smallest then pos.positionId else smallest) ≤ smallest ∧
        (if pos.positionId < smallest then pos.positionId else smallest) ≤ pos.positionId := by
      split <;> omega
    refine ⟨hle.trans hmin.1, ?_⟩
    intro p hp
    cases List.mem_cons.mp hp with
    | inl h => rw [h]; exact hle.trans hmin.2
    | inr h => exact hrest p h

theorem smallestId_mem (smallest : Nat) (page : List GmoOpenPosition) :
    smallestId smallest page = smallest ∨ smallestId smallest page ∈ pageIds page := by
  induction page generalizing smallest with
  | nil => exact Or.inl rfl
  | cons pos rest ih =>
    simp only [smallestId, pageIds, List.map_cons, List.mem_cons]
    cases ih (if pos.positionId < smallest then pos.positionId else smallest) with
    | inl h =>
      rw [h]
      by_cases hlt : pos.positionId < smallest
      · exact Or.inr (Or.inl (if_pos hlt))
      · exact Or.inl (if_neg hlt)
    | inr h => exact Or.inr (Or.inr h)

/-- The loop ends on a short page, and on no other. -/
theorem turnPage_last {prevId : Option Nat} {page : List GmoOpenPosition}
    (h : turnPage prevId page = .last) : page.length < openPositionsPageSize := by
  cases page with
  | nil => decide
  | cons first rest =>
    by_contra hfull
    simp only [turnPage, if_neg hfull] at h
    cases prevId with
    | none => cases h
    | some prev =>
      simp only at h
      split at h <;> cases h

/-- The next cursor is the smallest id of a full page, and below the one before. -/
theorem turnPage_next {prevId : Option Nat} {page : List GmoOpenPosition} {cursor : Nat}
    (h : turnPage prevId page = .next cursor) :
    openPositionsPageSize ≤ page.length ∧ cursor ∈ pageIds page ∧
      (∀ id ∈ pageIds page, cursor ≤ id) ∧ ∀ prev ∈ prevId, cursor < prev := by
  cases page with
  | nil => cases h
  | cons first rest =>
    simp only [turnPage] at h
    split at h
    · cases h
    · rename_i hfull
      have hmem : smallestId first.positionId (first :: rest) ∈ pageIds (first :: rest) := by
        cases smallestId_mem first.positionId (first :: rest) with
        | inl hfirst => rw [hfirst]; simp [pageIds]
        | inr hrest => exact hrest
      have hle : ∀ id ∈ pageIds (first :: rest),
          smallestId first.positionId (first :: rest) ≤ id := by
        intro id hid
        obtain ⟨p, hp, rfl⟩ := List.mem_map.mp hid
        exact (smallestId_le first.positionId (first :: rest)).2 p hp
      cases prevId with
      | none =>
        cases h
        exact ⟨by omega, hmem, hle, by simp⟩
      | some prev =>
        simp only at h
        split at h
        · cases h
        · rename_i hfall
          cases h
          refine ⟨by omega, hmem, hle, ?_⟩
          intro p hp
          cases hp
          omega

/-- The loop throws where no id of the page is below its cursor. -/
theorem turnPage_stuck {prevId : Option Nat} {page : List GmoOpenPosition} {prev next : Nat}
    (h : turnPage prevId page = .stuck prev next) :
    prev ∈ prevId ∧ ∃ id ∈ pageIds page, prev ≤ id := by
  cases page with
  | nil => cases h
  | cons first rest =>
    simp only [turnPage] at h
    split at h
    · cases h
    · cases prevId with
      | none => cases h
      | some cursor =>
        simp only at h
        split at h
        · rename_i hstuck
          cases h
          have hfirst := (smallestId_le first.positionId (first :: rest)).1
          exact ⟨rfl, first.positionId, by simp [pageIds], hstuck.trans hfirst⟩
        · cases h

/-! ## What the loop returns, whatever is answered -/

section Loop

variable {tape : Nat → HttpOutcome (Option (List GmoOpenPosition))}

/-- Every request uses up one of the pages that are left. -/
theorem loggedPages_length (pages pos : Nat) (prevId : Option Nat) (ids : List PositionId) :
    (loggedPages tape pages pos prevId ids).2.length ≤ pages := by
  induction pages generalizing pos prevId ids with
  | zero => simp [loggedPages]
  | succ pages ih =>
    rcases loggedPages_cases tape pages pos prevId ids with
      ⟨e, moment, _, heq⟩ | ⟨page, moment, _, ⟨_, heq⟩ | ⟨prev, next, _, heq⟩ | ⟨cursor, _, heq⟩⟩
    · simp [heq]
    · simp [heq]
    · simp [heq]
    · rw [heq]
      exact Nat.succ_le_succ (ih _ _ _)

/-- The requests of a loop that reads the tape from `pos` with the cursor `prevId`: each took
the next answer, and only a page that is turned is followed by a request. -/
inductive Sent (tape : Nat → HttpOutcome (Option (List GmoOpenPosition))) :
    Nat → Option Nat → List PageRequest → Prop
  | none {pos : Nat} {prevId : Option Nat} : Sent tape pos prevId []
  | final {pos : Nat} {prevId : Option Nat} {r : PageRequest}
      {answer : Except RequestError (List GmoOpenPosition)} :
      r.Took tape pos prevId answer → Sent tape pos prevId [r]
  | turned {pos cursor : Nat} {prevId : Option Nat} {r : PageRequest}
      {page : List GmoOpenPosition} {rest : List PageRequest} :
      r.Took tape pos prevId (.ok page) → turnPage prevId page = .next cursor →
      Sent tape (r.moment + 1) (some cursor) rest → Sent tape pos prevId (r :: rest)

theorem loggedPages_sent (pages pos : Nat) (prevId : Option Nat) (ids : List PositionId) :
    Sent tape pos prevId (loggedPages tape pages pos prevId ids).2 := by
  induction pages generalizing pos prevId ids with
  | zero => exact .none
  | succ pages ih =>
    rcases loggedPages_cases tape pages pos prevId ids with
      ⟨e, moment, htook, heq⟩ | ⟨page, moment, htook, ⟨_, heq⟩ | ⟨prev, next, _, heq⟩ |
        ⟨cursor, hturn, heq⟩⟩
    · rw [heq]
      exact .final htook
    · rw [heq]
      exact .final htook
    · rw [heq]
      exact .final htook
    · rw [heq]
      exact .turned htook hturn (ih _ _ _)

/-- How a loop with `pages` requests left ends, as its requests say: with every id it read
after a short page, on a request that failed, on a cursor that does not fall, or when all
its requests were answered with full pages. -/
inductive PagingEnds (tape : Nat → HttpOutcome (Option (List GmoOpenPosition))) (pages : Nat)
    (ids : List PositionId) (requests : List PageRequest) :
    Except AdapterError (List PositionId) → Prop
  | listed {r : PageRequest} {page : List GmoOpenPosition} :
      requests.getLast? = some r → r.page = some page → page.length < openPositionsPageSize →
      PagingEnds tape pages ids requests
        (.ok (ids ++ (requests.flatMap PageRequest.ids).map .ofNat))
  | failed {r : PageRequest} {pos : Nat} {e : RequestError} :
      requests.getLast? = some r → r.Took tape pos r.prevId (.error e) →
      PagingEnds tape pages ids requests (.error (.request e))
  | stuck {r : PageRequest} {page : List GmoOpenPosition} {prev next : Nat} :
      requests.getLast? = some r → r.page = some page → turnPage r.prevId page = .stuck prev next →
      PagingEnds tape pages ids requests (.error (stuckCursorError prev next))
  | limit : requests.length = pages → (∀ r ∈ requests, openPositionsPageSize ≤ r.ids.length) →
      PagingEnds tape pages ids requests (.error pageLimitError)

/-- A full page comes first. -/
theorem PagingEnds.cons {pages : Nat} {ids : List PositionId} {requests : List PageRequest}
    {r : PageRequest} {result : Except AdapterError (List PositionId)}
    (h : PagingEnds tape pages (ids ++ r.ids.map .ofNat) requests result)
    (hfull : openPositionsPageSize ≤ r.ids.length) :
    PagingEnds tape (pages + 1) ids (r :: requests) result := by
  have hlast : ∀ last, requests.getLast? = some last → (r :: requests).getLast? = some last := by
    intro last hlast
    rw [List.getLast?_cons, hlast]
    rfl
  cases h with
  | @listed last page hr hpage hshort =>
    have hlisted : PagingEnds tape (pages + 1) ids (r :: requests)
        (.ok (ids ++ ((r :: requests).flatMap PageRequest.ids).map .ofNat)) :=
      .listed (hlast last hr) hpage hshort
    simpa using hlisted
  | failed hr htook => exact .failed (hlast _ hr) htook
  | stuck hr hpage hturn => exact .stuck (hlast _ hr) hpage hturn
  | limit hlength hall =>
    refine .limit (by simp [hlength]) ?_
    intro r' hr'
    cases List.mem_cons.mp hr' with
    | inl heq => rw [heq]; exact hfull
    | inr hmem => exact hall r' hmem

/-- Whatever is answered, the result is what the requests say: the page limit throws, it
does not cut. -/
theorem loggedPages_ends (pages pos : Nat) (prevId : Option Nat) (ids : List PositionId) :
    PagingEnds tape pages ids (loggedPages tape pages pos prevId ids).2
      (loggedPages tape pages pos prevId ids).1 := by
  induction pages generalizing pos prevId ids with
  | zero => exact .limit rfl (by simp [loggedPages])
  | succ pages ih =>
    rcases loggedPages_cases tape pages pos prevId ids with
      ⟨e, moment, htook, heq⟩ | ⟨page, moment, _, ⟨hturn, heq⟩ | ⟨prev, next, hturn, heq⟩ |
        ⟨cursor, hturn, heq⟩⟩
    · rw [heq]
      exact .failed rfl htook
    · have hlisted : PagingEnds tape (pages + 1) ids [⟨prevId, moment, some page⟩]
          (.ok (ids ++ ([(⟨prevId, moment, some page⟩ : PageRequest)].flatMap
            PageRequest.ids).map .ofNat)) := .listed rfl rfl (turnPage_last hturn)
      rw [heq]
      simpa [PageRequest.ids] using hlisted
    · rw [heq]
      exact .stuck rfl rfl hturn
    · rw [heq]
      refine PagingEnds.cons (ih _ _ _) ?_
      simpa [PageRequest.ids, pageIds] using (turnPage_next hturn).1

end Loop

/-! ## Pages of a market that changes -/

/-- The open ids below a cursor, or all of them. -/
def below (opened : Finset Nat) (prevId : Option Nat) : Finset Nat :=
  opened.filter (fun id => ∀ prev ∈ prevId, id < prev)

/-- A page as GMO answers it: the largest of the open ids below the cursor, as many as
fit, in some order. -/
structure Conforms (opened : Finset Nat) (prevId : Option Nat) (ids : List Nat) : Prop where
  nodup : ids.Nodup
  mem : ∀ id ∈ ids, id ∈ below opened prevId
  size : ids.length = min openPositionsPageSize (below opened prevId).card
  largest : ∀ id ∈ ids, ∀ other ∈ below opened prevId, other ∉ ids → other < id

/-- The request was answered from what was open at that moment, or failed. -/
def PageRequest.Answered (market : Nat → Finset Nat) (r : PageRequest) : Prop :=
  ∀ page ∈ r.page, Conforms (market r.moment) r.prevId (pageIds page)

namespace Conforms

variable {opened : Finset Nat} {prevId : Option Nat} {page : List GmoOpenPosition}

/-- A short page is the rest of what is open. -/
theorem mem_of_short (h : Conforms opened prevId (pageIds page))
    (hshort : page.length < openPositionsPageSize) {id : Nat} (hid : id ∈ below opened prevId) :
    id ∈ pageIds page := by
  have hlen : (pageIds page).length = page.length := by simp [pageIds]
  have hsub : (pageIds page).toFinset ⊆ below opened prevId := by
    intro id hid
    exact h.mem id (List.mem_toFinset.mp hid)
  have hcard : (below opened prevId).card ≤ (pageIds page).toFinset.card := by
    have hsize := h.size
    rw [List.toFinset_card_of_nodup h.nodup]
    omega
  rw [← Finset.eq_of_subset_of_card_le hsub hcard] at hid
  exact List.mem_toFinset.mp hid

/-- What a full page leaves out is below the next cursor. -/
theorem lt_cursor (h : Conforms opened prevId (pageIds page)) {cursor id : Nat}
    (hturn : turnPage prevId page = .next cursor) (hid : id ∈ below opened prevId)
    (hout : id ∉ pageIds page) : id < cursor := by
  obtain ⟨_, hcursor, _, _⟩ := turnPage_next hturn
  exact h.largest cursor hcursor id hid hout

/-- The cursor of a page that conforms falls. -/
theorem not_stuck (h : Conforms opened prevId (pageIds page)) (prev next : Nat) :
    turnPage prevId page ≠ .stuck prev next := by
  intro hturn
  obtain ⟨hprev, id, hid, hle⟩ := turnPage_stuck hturn
  have hlt := (Finset.mem_filter.mp (h.mem id hid)).2 prev hprev
  omega

end Conforms

/-- The ids that a list of requests found in a changing market, below the first cursor:
none twice, each of them open at one of the requests, and with them all that were open at
every request. -/
structure Complete (market : Nat → Finset Nat) (prevId : Option Nat)
    (requests : List PageRequest) : Prop where
  nodup : (requests.flatMap PageRequest.ids).Nodup
  below : ∀ id ∈ requests.flatMap PageRequest.ids, ∀ prev ∈ prevId, id < prev
  opened : ∀ id ∈ requests.flatMap PageRequest.ids, ∃ r ∈ requests, id ∈ market r.moment
  all : ∀ id, (∀ prev ∈ prevId, id < prev) → (∀ r ∈ requests, id ∈ market r.moment) →
    id ∈ requests.flatMap PageRequest.ids

/-- The last page is short, and leaves nothing out. -/
theorem Complete.last {market : Nat → Finset Nat} {prevId : Option Nat} {moment : Nat}
    {page : List GmoOpenPosition} (h : Conforms (market moment) prevId (pageIds page))
    (hshort : page.length < openPositionsPageSize) :
    Complete market prevId [⟨prevId, moment, some page⟩] := by
  refine ⟨?_, ?_, ?_, ?_⟩
  · simpa [PageRequest.ids] using h.nodup
  · intro id hid
    have hmem : id ∈ pageIds page := by simpa [PageRequest.ids] using hid
    exact (Finset.mem_filter.mp (h.mem id hmem)).2
  · intro id hid
    have hmem : id ∈ pageIds page := by simpa [PageRequest.ids] using hid
    exact ⟨_, List.mem_singleton_self _, (Finset.mem_filter.mp (h.mem id hmem)).1⟩
  · intro id hlt hopen
    have hid : id ∈ Luchida.GmoBrokerAdapter.below (market moment) prevId :=
      Finset.mem_filter.mpr ⟨hopen _ (List.mem_singleton_self _), hlt⟩
    simpa [PageRequest.ids] using h.mem_of_short hshort hid

/-- A full page comes before the pages below its smallest id. -/
theorem Complete.cons {market : Nat → Finset Nat} {prevId : Option Nat} {moment cursor : Nat}
    {page : List GmoOpenPosition} {requests : List PageRequest}
    (h : Conforms (market moment) prevId (pageIds page))
    (hturn : turnPage prevId page = .next cursor)
    (hrest : Complete market (some cursor) requests) :
    Complete market prevId (⟨prevId, moment, some page⟩ :: requests) := by
  obtain ⟨_, _, hle, hfall⟩ := turnPage_next hturn
  have hflat : (⟨prevId, moment, some page⟩ :: requests).flatMap PageRequest.ids
      = pageIds page ++ requests.flatMap PageRequest.ids := by
    simp [PageRequest.ids]
  refine ⟨?_, ?_, ?_, ?_⟩
  · rw [hflat, List.nodup_append]
    refine ⟨h.nodup, hrest.nodup, ?_⟩
    intro a ha b hb hab
    have hbelow := hrest.below b hb cursor rfl
    have habove := hle a ha
    omega
  · intro id hid prev hprev
    rw [hflat, List.mem_append] at hid
    cases hid with
    | inl hpage => exact (Finset.mem_filter.mp (h.mem id hpage)).2 prev hprev
    | inr hlater =>
      have hbelow := hrest.below id hlater cursor rfl
      have hcursor := hfall prev hprev
      omega
  · intro id hid
    rw [hflat, List.mem_append] at hid
    cases hid with
    | inl hpage =>
      exact ⟨_, List.mem_cons_self, (Finset.mem_filter.mp (h.mem id hpage)).1⟩
    | inr hlater =>
      obtain ⟨r, hr, hopen⟩ := hrest.opened id hlater
      exact ⟨r, List.mem_cons_of_mem _ hr, hopen⟩
  · intro id hlt hopen
    rw [hflat, List.mem_append]
    by_cases hpage : id ∈ pageIds page
    · exact Or.inl hpage
    · have hid : id ∈ Luchida.GmoBrokerAdapter.below (market moment) prevId :=
        Finset.mem_filter.mpr ⟨hopen _ List.mem_cons_self, hlt⟩
      have hcursor := h.lt_cursor hturn hid hpage
      refine Or.inr (hrest.all id ?_ ?_)
      · intro prev hprev
        cases hprev
        exact hcursor
      · intro r hr
        exact hopen r (List.mem_cons_of_mem _ hr)

section Market

variable {tape : Nat → HttpOutcome (Option (List GmoOpenPosition))} {market : Nat → Finset Nat}

/-- The pages of a loop that returns are complete. -/
theorem loggedPages_complete {pages pos : Nat} {prevId : Option Nat} {ids found : List PositionId}
    (hanswered : ∀ r ∈ (loggedPages tape pages pos prevId ids).2, r.Answered market)
    (h : (loggedPages tape pages pos prevId ids).1 = .ok found) :
    Complete market prevId (loggedPages tape pages pos prevId ids).2 := by
  induction pages generalizing pos prevId ids with
  | zero => cases h
  | succ pages ih =>
    rcases loggedPages_cases tape pages pos prevId ids with
      ⟨e, moment, _, heq⟩ | ⟨page, moment, _, ⟨hturn, heq⟩ | ⟨prev, next, _, heq⟩ |
        ⟨cursor, hturn, heq⟩⟩
    · rw [heq] at h
      cases h
    · rw [heq] at hanswered ⊢
      have hpage := hanswered _ List.mem_cons_self page rfl
      exact Complete.last hpage (turnPage_last hturn)
    · rw [heq] at h
      cases h
    · rw [heq] at h hanswered ⊢
      have hpage := hanswered _ List.mem_cons_self page rfl
      refine Complete.cons hpage hturn (ih ?_ h)
      intro r hr
      exact hanswered r (List.mem_cons_of_mem _ hr)

end Market

/-! ## `fetchOpenPositionIds` -/

theorem ofNat_injective : Function.Injective PositionId.ofNat := by
  intro a b h
  exact Nat.repr_injective (congrArg PositionId.value h)

/-- The requests of a call are logged beside its result. -/
theorem fetchOpenPositionIds_eq (tape : Nat → HttpOutcome (Option (List GmoOpenPosition))) :
    fetchOpenPositionIds tape = translate translateFetchError
      (loggedPages tape (openPositionsMaxPages + 1) 0 none []).1 := by
  rw [loggedPages_fst]
  rfl

theorem fetchOpenPositionIds_ok {tape : Nat → HttpOutcome (Option (List GmoOpenPosition))}
    {ids : List PositionId} (h : fetchOpenPositionIds tape = .ok ids) :
    (loggedPages tape (openPositionsMaxPages + 1) 0 none []).1 = .ok ids := by
  rw [fetchOpenPositionIds_eq] at h
  unfold translate at h
  split at h
  · cases h
  · rename_i heq
    cases h
    exact heq

/-- Over a market that answers, the call returns a list unless a request fails or all its
pages are full. -/
theorem fetchOpenPositionIds_returns {tape : Nat → HttpOutcome (Option (List GmoOpenPosition))}
    {market : Nat → Finset Nat} (hanswered : ∀ r ∈ pageRequests tape, r.Answered market) :
    (∃ ids, fetchOpenPositionIds tape = .ok ids) ∨ (∃ r ∈ pageRequests tape, r.page = none) ∨
      (pageRequests tape).length = openPositionsMaxPages + 1 ∧
        ∀ r ∈ pageRequests tape, openPositionsPageSize ≤ r.ids.length := by
  rw [fetchOpenPositionIds_eq]
  have hends : PagingEnds tape (openPositionsMaxPages + 1) [] (pageRequests tape) _ :=
    loggedPages_ends _ _ _ _
  revert hends
  cases (loggedPages tape (openPositionsMaxPages + 1) 0 none []).1 with
  | ok ids => exact fun _ => .inl ⟨ids, rfl⟩
  | error e =>
    intro hends
    cases hends with
    | failed hr htook => exact .inr (.inl ⟨_, List.mem_of_getLast? hr, htook.page⟩)
    | stuck hr hpage hturn =>
      have hconforms := hanswered _ (List.mem_of_getLast? hr) _ hpage
      exact absurd hturn (hconforms.not_stuck _ _)
    | limit hlength hfull => exact .inr (.inr ⟨hlength, hfull⟩)

/-- Whatever is answered, the call makes at most 101 page requests, each of which takes the
next answer, and it ends as they say: a list that it returns holds all the pages it read, of
which the last was short. Where the answers are those of a changing market it returns a list
unless a request fails or a hundred and one pages are full, and the list holds every id that
was open at all the requests, none twice, and only ids that were open at one of them. -/
theorem fetchOpenPositionIds_complete
    (tape : Nat → HttpOutcome (Option (List GmoOpenPosition))) :
    (pageRequests tape).length ≤ openPositionsMaxPages + 1 ∧
    Sent tape 0 none (pageRequests tape) ∧
    (∃ result, fetchOpenPositionIds tape = translate translateFetchError result ∧
      PagingEnds tape (openPositionsMaxPages + 1) [] (pageRequests tape) result) ∧
    ∀ market : Nat → Finset Nat, (∀ r ∈ pageRequests tape, r.Answered market) →
      ((∃ ids, fetchOpenPositionIds tape = .ok ids) ∨ (∃ r ∈ pageRequests tape, r.page = none) ∨
        (pageRequests tape).length = openPositionsMaxPages + 1 ∧
          ∀ r ∈ pageRequests tape, openPositionsPageSize ≤ r.ids.length) ∧
      ∀ ids, fetchOpenPositionIds tape = .ok ids →
        (∀ id, (∀ r ∈ pageRequests tape, id ∈ market r.moment) → .ofNat id ∈ ids) ∧
        ids.Nodup ∧
        ∀ i ∈ ids, ∃ id, i = .ofNat id ∧ ∃ r ∈ pageRequests tape, id ∈ market r.moment := by
  refine ⟨loggedPages_length _ _ _ _, loggedPages_sent _ _ _ _,
    ⟨_, fetchOpenPositionIds_eq tape, loggedPages_ends _ _ _ _⟩, ?_⟩
  intro market hanswered
  refine ⟨fetchOpenPositionIds_returns hanswered, ?_⟩
  intro ids h
  have hcomplete := loggedPages_complete hanswered (fetchOpenPositionIds_ok h)
  have hids : ids = ((pageRequests tape).flatMap PageRequest.ids).map .ofNat := by
    have hends : PagingEnds tape (openPositionsMaxPages + 1) [] (pageRequests tape) _ :=
      loggedPages_ends _ _ _ _
    rw [fetchOpenPositionIds_ok h] at hends
    cases hends with
    | listed => rfl
  refine ⟨?_, ?_, ?_⟩
  · intro id hopen
    rw [hids]
    exact List.mem_map_of_mem (hcomplete.all id (by simp) hopen)
  · rw [hids]
    exact hcomplete.nodup.map ofNat_injective
  · intro i hi
    rw [hids] at hi
    obtain ⟨id, hid, rfl⟩ := List.mem_map.mp hi
    exact ⟨id, rfl, hcomplete.opened id hid⟩

/-! ## A market that moves while it is read -/

/-- A page of buys with these ids. -/
def openPage (ids : List Nat) : List GmoOpenPosition :=
  ids.map (fun id => ⟨id, "BUY", "10000", some 0⟩)

def pageOutcome (ids : List Nat) : HttpOutcome (Option (List GmoOpenPosition)) :=
  .response ⟨200, "{}", some ⟨0, some (openPage ids), none⟩⟩

/-- A full page, and a second one with what is left below it. -/
def shiftingTape : Nat → HttpOutcome (Option (List GmoOpenPosition))
  | 0 => pageOutcome ((List.range 100).map (· + 1))
  | _ => pageOutcome [0]

/-- Between the two pages position 50 is closed and position 200 is opened. -/
def shiftingMarket : Nat → Finset Nat
  | 0 => Finset.range 101
  | _ => insert 200 ((Finset.range 101).erase 50)

set_option maxRecDepth 4000 in
theorem shifting_requests : pageRequests shiftingTape =
    [⟨none, 0, some (openPage ((List.range 100).map (· + 1)))⟩,
      ⟨some 1, 1, some (openPage [0])⟩] := by
  rfl

theorem shifting_answered : ∀ r ∈ pageRequests shiftingTape, r.Answered shiftingMarket := by
  rw [shifting_requests]
  intro r hr page hpage
  simp only [List.mem_cons, List.not_mem_nil, or_false] at hr
  cases hr with
  | inl h =>
    rw [h] at hpage ⊢
    cases hpage
    have hids : pageIds (openPage ((List.range 100).map (· + 1)))
        = (List.range 100).map (· + 1) := by
      simp [pageIds, openPage, Function.comp_def]
    have hbelow : below (shiftingMarket 0) none = Finset.range 101 := by
      simp [below, shiftingMarket]
    refine ⟨?_, ?_, ?_, ?_⟩
    · rw [hids]
      exact List.nodup_range.map (add_left_injective 1)
    · rw [hids, hbelow]
      intro id hid
      simp at hid ⊢
      omega
    · rw [hids, hbelow]
      simp [openPositionsPageSize]
    · rw [hids, hbelow]
      intro id hid other hother hout
      simp at hid hother hout
      have hgap := hout (other - 1)
      omega
  | inr h =>
    rw [h] at hpage ⊢
    cases hpage
    have hbelow : below (shiftingMarket 1) (some 1) = {0} := by
      decide
    refine ⟨by decide, ?_, ?_, ?_⟩
    all_goals rw [hbelow]; decide

/-- The call returns, first the page that was full and then the rest. -/
theorem fetchOpenPositionIds_complete_shifting :
    (∀ r ∈ pageRequests shiftingTape, r.Answered shiftingMarket) ∧
      fetchOpenPositionIds shiftingTape =
        .ok (((List.range 100).map (· + 1) ++ [0]).map .ofNat) ∧
      (((List.range 100).map (· + 1) ++ [0]).map PositionId.ofNat).Nodup ∧
      PositionId.ofNat 0 ∈ ((List.range 100).map (· + 1) ++ [0]).map PositionId.ofNat := by
  obtain ⟨_, _, ⟨result, hresult, hends⟩, hcomplete⟩ := fetchOpenPositionIds_complete shiftingTape
  have hlist : fetchOpenPositionIds shiftingTape =
      .ok (((List.range 100).map (· + 1) ++ [0]).map .ofNat) := by
    rw [hresult]
    rw [shifting_requests] at hends
    cases hends with
    | listed => rfl
    | failed hr htook =>
      cases hr
      cases htook.page
    | stuck hr hpage hturn =>
      cases hr
      cases hpage
      cases hturn
    | limit hlength => cases hlength
  obtain ⟨_, hfound⟩ := hcomplete shiftingMarket shifting_answered
  obtain ⟨hall, hnodup, _⟩ := hfound _ hlist
  refine ⟨shifting_answered, hlist, hnodup, hall 0 ?_⟩
  rw [shifting_requests]
  decide

end Luchida.GmoBrokerAdapter
