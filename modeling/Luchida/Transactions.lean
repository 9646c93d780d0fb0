import Mathlib.Data.List.Basic

/- A client of a transactional store, over any state. The store applies a change or rejects
   it. On the way a statement can be refused, or the connection is lost: then the statement
   takes effect where it stands alone or is a commit, and the client is not told.

   A transaction is all or nothing whatever the replies are (`transact_atomic`), and with
   nothing but answers it goes through exactly if the store takes all its changes
   (`transact_answered`). -/
namespace Transactions

variable {T : Type*}

/-- What becomes of a statement. -/
inductive Reply where
  | answered
  | refused
  | lost
  deriving DecidableEq

/-- What the client is thrown. -/
inductive QueryError where
  /-- The store rejects the change. -/
  | rejected
  | refused
  | lost
  deriving DecidableEq

/-- The transaction of a connection, with the state that it works on. -/
inductive Transaction (T : Type*) where
  | none
  | active (working : T)
  | aborted
  /-- There is no connection any more. -/
  | lost

structure Client (T : Type*) where
  committed : T
  transaction : Transaction T
  /-- The statements sent so far. -/
  sent : Nat

namespace Client

/-- A change of the state, or none where the store rejects it. -/
abbrev Change (T : Type*) := T → Option T

variable (c : Client T)

/-- The client once one more statement is sent. -/
def send : Client T := { c with sent := c.sent + 1 }

/-- `BEGIN`. -/
def begin : Reply → Except QueryError Unit × Client T
  | .answered => match c.transaction with
    | .none => (.ok (), { c.send with transaction := .active c.committed })
    | .lost => (.error .lost, c.send)
    -- a warning, and the transaction goes on
    | _ => (.ok (), c.send)
  | .refused => (.error .refused, c.send)
  | .lost => (.error .lost, { c.send with transaction := .lost })

/-- A statement that changes the state. Outside a transaction it stands alone. -/
def change (f : Change T) (reply : Reply) : Except QueryError Unit × Client T :=
  match c.transaction, reply with
  | .active working, .answered => match f working with
    | some working => (.ok (), { c.send with transaction := .active working })
    | none => (.error .rejected, { c.send with transaction := .aborted })
  | .active _, .refused => (.error .refused, { c.send with transaction := .aborted })
  | .none, .answered => match f c.committed with
    | some committed => (.ok (), { c.send with committed := committed })
    | none => (.error .rejected, c.send)
  | .none, .refused => (.error .refused, c.send)
  | .none, .lost =>
    (.error .lost, { c.send with
      committed := (f c.committed).getD c.committed
      transaction := .lost })
  | .aborted, .lost | .active _, .lost => (.error .lost, { c.send with transaction := .lost })
  | .aborted, _ => (.error .rejected, c.send)
  | .lost, _ => (.error .lost, c.send)

/-- `COMMIT`. -/
def commit (reply : Reply) : Except QueryError Unit × Client T :=
  match c.transaction, reply with
  | .active working, .answered =>
    (.ok (), { c.send with committed := working, transaction := .none })
  | .active working, .lost =>
    (.error .lost, { c.send with committed := working, transaction := .lost })
  -- an aborted transaction is rolled back
  | .none, .answered | .aborted, .answered => (.ok (), { c.send with transaction := .none })
  | .lost, _ => (.error .lost, c.send)
  | _, .refused => (.error .refused, { c.send with transaction := .none })
  | _, .lost => (.error .lost, { c.send with transaction := .lost })

/-- `ROLLBACK`, which fails with its connection only. -/
def rollback (reply : Reply) : Except QueryError Unit × Client T :=
  match c.transaction, reply with
  | .lost, _ => (.error .lost, c.send)
  | _, .answered => (.ok (), { c.send with transaction := .none })
  | _, _ => (.error .lost, { c.send with transaction := .lost })

/-- One more statement after those that went through. -/
def andThen (result : Except QueryError Unit × Client T)
    (next : Client T → Except QueryError Unit × Client T) : Except QueryError Unit × Client T :=
  match result with
  | (.ok (), c) => next c
  | (.error e, c) => (.error e, c)

variable (replies : Nat → Reply)

/-- Changes one after the other, up to the first that fails. -/
def changes : List (Change T) → Client T → Except QueryError Unit × Client T
  | [], c => (.ok (), c)
  | f :: rest, c => andThen (c.change f (replies c.sent)) (changes rest)

/-- The part of a transaction that is tried. -/
def attempt (fs : List (Change T)) (c : Client T) : Except QueryError Unit × Client T :=
  andThen (c.begin (replies c.sent)) fun c =>
    andThen (changes replies fs c) fun c => c.commit (replies c.sent)

/-- A transaction. What fails is rolled back and thrown on, unless the rollback throws. -/
def transact (fs : List (Change T)) (c : Client T) : Except QueryError Unit × Client T :=
  match attempt replies fs c with
  | (.ok (), c) => (.ok (), c)
  | (.error e, c) => andThen (c.rollback (replies c.sent)) fun c => (.error e, c)

/-- What a pool hands out: its connection, or a new one where it has lost that. -/
def reconnect : Transaction T → Transaction T
  | .lost => .none
  | transaction => transaction

/-- Get a client of the pool. -/
def connect (c : Client T) (next : Client T → Except QueryError Unit × Client T) :
    Except QueryError Unit × Client T :=
  match replies c.sent with
  | .answered => next { c.send with transaction := reconnect c.transaction }
  | .refused => (.error .refused, c.send)
  | .lost => (.error .lost, c.send)

/-- A statement on its own, on a client of the pool. -/
def poolQuery (f : Change T) (c : Client T) : Except QueryError Unit × Client T :=
  connect replies c fun c => c.change f (replies c.sent)

end Client

/-! ## All or nothing -/

/-- The state after all changes, if none of them is rejected. -/
def applyAll (fs : List (Client.Change T)) (t : T) : Option T := fs.foldlM (fun t f => f t) t

@[simp] theorem applyAll_cons (f : Client.Change T) (fs : List (Client.Change T)) (t : T) :
    applyAll (f :: fs) t = (f t).bind (applyAll fs) := rfl

theorem applyAll_singleton (f : Client.Change T) (t : T) : applyAll [f] t = f t := by
  rw [applyAll_cons]
  exact Option.bind_fun_some (f t)

namespace Client

variable {replies : Nat → Reply} {fs : List (Change T)} {c : Client T} {f : Change T}

theorem andThen_ok {result : Except QueryError Unit × Client T}
    {next : Client T → Except QueryError Unit × Client T} {c' : Client T}
    (h : andThen result next = (.ok (), c')) : ∃ c₁, result = (.ok (), c₁) ∧
      next c₁ = (.ok (), c') := by
  obtain ⟨outcome, c₁⟩ := result
  cases outcome with
  | ok _ => exact ⟨c₁, rfl, h⟩
  | error e => cases h

/-- One change inside a transaction. -/
theorem change_cases {working : T} (h : c.transaction = .active working) (reply : Reply) :
    (∃ working', f working = some working' ∧ c.change f reply =
      (.ok (), { c.send with transaction := .active working' })) ∨
    (∃ e c', c.change f reply = (.error e, c') ∧ c'.committed = c.committed ∧
      (reply = .answered → f working = none)) := by
  unfold change
  rw [h]
  cases reply with
  | answered =>
    dsimp only
    cases hf : f working with
    | some working' => exact .inl ⟨working', rfl, rfl⟩
    | none => exact .inr ⟨_, _, rfl, rfl, fun _ => rfl⟩
  | refused => exact .inr ⟨_, _, rfl, rfl, nofun⟩
  | lost => exact .inr ⟨_, _, rfl, rfl, nofun⟩

/-- The changes of a transaction touch what it works on only. -/
theorem changes_cases (replies : Nat → Reply) (fs : List (Change T)) {working : T}
    (h : c.transaction = .active working) :
    (∃ working' c', applyAll fs working = some working' ∧
      changes replies fs c = (.ok (), c') ∧ c'.committed = c.committed ∧
      c'.transaction = .active working') ∨
    (∃ e c', changes replies fs c = (.error e, c') ∧ c'.committed = c.committed ∧
      ((∀ i, replies i = .answered) → applyAll fs working = none)) := by
  induction fs generalizing c working with
  | nil => exact .inl ⟨working, c, rfl, rfl, rfl, h⟩
  | cons f rest ih =>
    unfold changes
    cases change_cases (f := f) h (replies c.sent) with
    | inl hok =>
      obtain ⟨working₁, hf, hchange⟩ := hok
      have hall : applyAll (f :: rest) working = applyAll rest working₁ := by
        rw [applyAll_cons, hf]
        rfl
      rw [hchange, hall]
      exact ih rfl
    | inr hfailed =>
      obtain ⟨e, c', hchange, hfailed, hanswered⟩ := hfailed
      rw [hchange]
      refine .inr ⟨e, c', rfl, hfailed, fun hreplies => ?_⟩
      rw [applyAll_cons, hanswered (hreplies _)]
      rfl

/-- Whether it comes back or throws, a transaction has had all its changes taken and is
committed, or has left nothing behind. -/
inductive Ended (fs : List (Change T)) (before : T) : Except QueryError Unit × Client T → Prop
  | committed {result : Except QueryError Unit} {c' : Client T}
      (changed : applyAll fs before = some c'.committed) : Ended fs before (result, c')
  | kept {e : QueryError} {c' : Client T} (kept : c'.committed = before) :
      Ended fs before (.error e, c')

/-- A connection that is not in a transaction, so that it can go back to the pool. -/
def Released (c : Client T) : Prop := c.transaction = .none ∨ c.transaction = .lost

/-- A rollback commits nothing and ends the transaction. -/
theorem rollback_committed (c : Client T) (reply : Reply) :
    (c.rollback reply).2.committed = c.committed ∧ (c.rollback reply).2.Released := by
  unfold rollback
  split
  · rename_i hlost
    exact ⟨rfl, .inr hlost⟩
  · exact ⟨rfl, .inl rfl⟩
  · exact ⟨rfl, .inr rfl⟩

/-- A commit ends the transaction. -/
theorem commit_released (c : Client T) (reply : Reply) : (c.commit reply).2.Released := by
  unfold commit
  split
  · exact .inl rfl
  · exact .inr rfl
  · exact .inl rfl
  · exact .inl rfl
  · rename_i hlost
    exact .inr hlost
  · exact .inl rfl
  · exact .inr rfl

theorem begin_cases (h : c.transaction = .none) (reply : Reply) :
    c.begin reply = (.ok (), { c.send with transaction := .active c.committed }) ∨
    ∃ e c', c.begin reply = (.error e, c') ∧ c'.committed = c.committed ∧
      reply ≠ .answered := by
  cases reply with
  | answered =>
    unfold begin
    rw [h]
    exact .inl rfl
  | refused => exact .inr ⟨_, _, rfl, rfl, nofun⟩
  | lost => exact .inr ⟨_, _, rfl, rfl, nofun⟩

/-- The part that is tried. -/
theorem attempt_ended (h : c.transaction = .none) :
    Ended fs c.committed (attempt replies fs c) := by
  unfold attempt
  cases begin_cases h (replies c.sent) with
  | inr hfailed =>
    obtain ⟨e, c', hbegin, hkept, -⟩ := hfailed
    rw [hbegin]
    exact .kept hkept
  | inl hbegin =>
    rw [hbegin]
    show Ended fs c.committed (andThen (changes replies fs _) _)
    cases changes_cases replies fs
      (c := { c.send with transaction := .active c.committed }) rfl with
    | inr hfailed =>
      obtain ⟨e, c', hchanges, hfailed, -⟩ := hfailed
      rw [hchanges]
      exact .kept hfailed
    | inl hok =>
      obtain ⟨t, c', hall, hchanges, hkept, hactive⟩ := hok
      rw [hchanges]
      show Ended fs c.committed (c'.commit (replies c'.sent))
      unfold commit
      rw [hactive]
      cases replies c'.sent with
      | answered => exact .committed hall
      | refused => exact .kept hkept
      | lost => exact .committed hall

/-- What was thrown is rolled back. -/
theorem andThen_rollback (e : QueryError) (c : Client T) (reply : Reply) :
    ∃ e', andThen (c.rollback reply) (fun c => (.error e, c)) =
      (.error e', (c.rollback reply).2) := by
  generalize c.rollback reply = rolled
  obtain ⟨result, c'⟩ := rolled
  cases result with
  | ok _ => exact ⟨e, rfl⟩
  | error e' => exact ⟨e', rfl⟩

/-- All or nothing, whatever the replies. -/
theorem transact_atomic (replies : Nat → Reply) (fs : List (Change T)) (h : c.transaction = .none) :
    Ended fs c.committed (transact replies fs c) := by
  have hended : Ended fs c.committed (attempt replies fs c) := attempt_ended h
  unfold transact
  generalize attempt replies fs c = attempted at hended
  obtain ⟨result, c'⟩ := attempted
  cases result with
  | ok _ => exact hended
  | error e =>
    obtain ⟨hkept, -⟩ := rollback_committed c' (replies c'.sent)
    obtain ⟨e', hrolled⟩ := andThen_rollback e c' (replies c'.sent)
    show Ended fs c.committed (andThen (c'.rollback (replies c'.sent)) _)
    rw [hrolled]
    cases hended with
    | committed changed => exact .committed (by rw [hkept, changed])
    | kept kept => exact .kept (hkept.trans kept)

/-- What is tried comes back from its commit only. -/
theorem attempt_released {c' : Client T} (hok : attempt replies fs c = (.ok (), c')) :
    c'.Released := by
  unfold attempt at hok
  obtain ⟨c₁, -, hok⟩ := andThen_ok hok
  obtain ⟨c₂, -, hok⟩ := andThen_ok hok
  have hreleased := commit_released c₂ (replies c₂.sent)
  rw [hok] at hreleased
  exact hreleased

/-- After a transaction the connection can go back to the pool. -/
theorem transact_released (replies : Nat → Reply) (fs : List (Change T)) (c : Client T) :
    (transact replies fs c).2.Released := by
  unfold transact
  cases hattempt : attempt replies fs c with
  | mk result c' =>
    cases result with
    | ok _ => exact attempt_released hattempt
    | error e =>
      obtain ⟨-, hreleased⟩ := rollback_committed c' (replies c'.sent)
      obtain ⟨e', hrolled⟩ := andThen_rollback e c' (replies c'.sent)
      show (andThen (c'.rollback (replies c'.sent)) _).2.Released
      rw [hrolled]
      exact hreleased

/-- A transaction that comes back is committed. -/
theorem transact_ok (h : c.transaction = .none) {c' : Client T}
    (hok : transact replies fs c = (.ok (), c')) :
    applyAll fs c.committed = some c'.committed := by
  have hended := transact_atomic replies fs h
  rw [hok] at hended
  cases hended with
  | committed changed => exact changed

theorem attempt_answered (h : c.transaction = .none) (hreplies : ∀ i, replies i = .answered)
    {t : T} (hall : applyAll fs c.committed = some t) :
    ∃ c', attempt replies fs c = (.ok (), c') := by
  unfold attempt
  cases begin_cases h (replies c.sent) with
  | inr hfailed =>
    obtain ⟨-, -, -, -, hreply⟩ := hfailed
    exact absurd (hreplies _) hreply
  | inl hbegin =>
    rw [hbegin]
    show ∃ c', andThen (changes replies fs _) _ = (.ok (), c')
    cases changes_cases replies fs
      (c := { c.send with transaction := .active c.committed }) rfl with
    | inr hfailed =>
      obtain ⟨-, -, -, -, hnone⟩ := hfailed
      exact absurd hall (by rw [hnone hreplies]; exact nofun)
    | inl hok =>
      obtain ⟨t', c', -, hchanges, -, hactive⟩ := hok
      rw [hchanges]
      show ∃ c'', c'.commit (replies c'.sent) = (.ok (), c'')
      unfold commit
      rw [hactive, hreplies]
      exact ⟨_, rfl⟩

/-- Where everything is answered a transaction goes through exactly if no change is rejected. -/
theorem transact_answered (h : c.transaction = .none) (hreplies : ∀ i, replies i = .answered) :
    (∃ c', transact replies fs c = (.ok (), c')) ↔
      ∃ t, applyAll fs c.committed = some t := by
  constructor
  · intro hok
    obtain ⟨c', hok⟩ := hok
    exact ⟨_, transact_ok h hok⟩
  · intro hall
    obtain ⟨t, hall⟩ := hall
    obtain ⟨c', hattempt⟩ := attempt_answered h hreplies hall
    unfold transact
    rw [hattempt]
    exact ⟨c', rfl⟩

/-! ### Over a pool -/

theorem Released.reconnect {c : Client T} (h : c.Released) :
    Client.reconnect c.transaction = .none := by
  unfold Client.reconnect
  cases h with
  | inl hnone => rw [hnone]
  | inr hlost => rw [hlost]

/-- A transaction on a client of the pool. -/
theorem connect_transact (replies : Nat → Reply) (fs : List (Change T)) (h : c.Released) :
    Ended fs c.committed (connect replies c (transact replies fs)) ∧
      (connect replies c (transact replies fs)).2.Released := by
  unfold connect
  cases replies c.sent with
  | answered =>
    have hnone := h.reconnect
    refine ⟨?_, transact_released replies fs _⟩
    exact transact_atomic replies fs
      (c := { c.send with transaction := Client.reconnect c.transaction }) hnone
  | refused => exact ⟨.kept rfl, h⟩
  | lost => exact ⟨.kept rfl, h⟩

/-- A statement on its own. -/
theorem change_ended (f : Change T) (h : c.transaction = .none) (reply : Reply) :
    Ended [f] c.committed (c.change f reply) ∧ (c.change f reply).2.Released := by
  have happly : applyAll [f] c.committed = f c.committed := applyAll_singleton f c.committed
  unfold change
  rw [h]
  cases reply with
  | answered =>
    dsimp only
    cases hf : f c.committed with
    | some t => exact ⟨.committed (happly.trans hf), .inl h⟩
    | none => exact ⟨.kept rfl, .inl h⟩
  | refused => exact ⟨.kept rfl, .inl h⟩
  | lost =>
    refine ⟨?_, .inr rfl⟩
    cases hf : f c.committed with
    | some t => exact .committed (happly.trans (by rw [hf]; rfl))
    | none => exact .kept rfl

theorem change_answered (h : c.transaction = .none) {t : T} (hf : f c.committed = some t) :
    ∃ c', c.change f .answered = (.ok (), c') := by
  unfold change
  rw [h]
  dsimp only
  rw [hf]
  exact ⟨_, rfl⟩

theorem poolQuery_ended (replies : Nat → Reply) (f : Change T) (h : c.Released) :
    Ended [f] c.committed (poolQuery replies f c) ∧ (poolQuery replies f c).2.Released := by
  unfold poolQuery connect
  cases replies c.sent with
  | answered =>
    exact change_ended f (c := { c.send with transaction := Client.reconnect c.transaction })
      h.reconnect _
  | refused => exact ⟨.kept rfl, h⟩
  | lost => exact ⟨.kept rfl, h⟩

section
variable (hreplies : ∀ i, replies i = .answered)

include hreplies

theorem connect_transact_answered (h : c.Released) :
    (∃ c', connect replies c (transact replies fs) = (.ok (), c')) ↔
      ∃ t, applyAll fs c.committed = some t := by
  unfold connect
  rw [hreplies]
  exact transact_answered (c := { c.send with transaction := Client.reconnect c.transaction })
    h.reconnect hreplies

theorem poolQuery_answered (h : c.Released) {t : T} (hf : f c.committed = some t) :
    ∃ c', poolQuery replies f c = (.ok (), c') := by
  unfold poolQuery connect
  rw [hreplies]
  dsimp only
  rw [hreplies]
  exact change_answered (c := { c.send with transaction := Client.reconnect c.transaction })
    h.reconnect hf

end

end Client

end Transactions
