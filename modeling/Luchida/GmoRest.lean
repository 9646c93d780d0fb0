import Mathlib.Tactic.Linarith
import Luchida.Domain

/- GmoRestClient.ts, GmoApiError.ts and BrokerError.ts: one HTTP exchange, the errors the
   client makes of it, and the retries on rate limits. What GMO answers is a tape: the
   `n`-th exchange of a call ends in the `n`-th outcome of the tape. A call returns
   what it read from the tape together with the position after it. -/
namespace Luchida

/-! ## One exchange -/

structure GmoApiMessage where
  messageCode : String
  messageString : String
  deriving DecidableEq, Repr

/-- `GmoApiError`: the business status (not the HTTP one) and the messages. -/
structure GmoApiError where
  statusCode : Int
  apiMessages : List GmoApiMessage
  deriving DecidableEq, Repr

namespace GmoApiError

/-- The `message` of the error. -/
def message (e : GmoApiError) : String :=
  let detail := ", ".intercalate (e.apiMessages.map (·.messageString))
  if detail = "" then "status=" ++ toString e.statusCode else detail

/-- `isRateLimited`: business status 4, or HTTP 429. -/
def isRateLimited (e : GmoApiError) : Bool :=
  e.statusCode == 4 || e.apiMessages.any (fun m => m.messageCode == "HTTP_429")

/-- `isAuthenticationFailed`: a message code in `GMO_AUTH_FAILED_MESSAGE_CODES`. -/
def isAuthenticationFailed (e : GmoApiError) : Bool :=
  e.apiMessages.any (fun m => ["ERR-5012"].contains m.messageCode)

end GmoApiError

/-- `GmoApiResponse`. -/
structure GmoApiResponse (α : Type) where
  status : Int
  data : α
  messages : Option (List GmoApiMessage)

/-- An HTTP response: its status, its body, and what `JSON.parse` makes of the body
(`none` where it throws). -/
structure HttpResponse (α : Type) where
  httpStatus : Nat
  text : String
  json : Option (GmoApiResponse α)

/-- How one `fetch` ends: it rejects (no connection, a timeout), or it responds. -/
inductive HttpOutcome (α : Type) where
  | failed
  | response (r : HttpResponse α)

/-- What a request throws. -/
inductive RequestError where
  | network
  | api (error : GmoApiError)
  deriving DecidableEq, Repr

/-- `text.slice(0, n)`. -/
def slice (text : String) (n : Nat) : String := String.ofList (text.toList.take n)

/-- `handleResponse`: the HTTP status first, then the JSON, then the business status. -/
def handleResponse {α : Type} (r : HttpResponse α) : Except GmoApiError (GmoApiResponse α) :=
  if ¬ (200 ≤ r.httpStatus ∧ r.httpStatus < 300) then
    .error ⟨-1, [⟨"HTTP_" ++ toString r.httpStatus, slice r.text 200⟩]⟩
  else match r.json with
    | none => .error ⟨-1, [⟨"PARSE_ERROR", slice r.text 200⟩]⟩
    | some json =>
      if json.status ≠ 0 then .error ⟨json.status, json.messages.getD []⟩
      else .ok json

/-- `doGet` and `doPost`, throttling aside. -/
def request {α : Type} : HttpOutcome α → Except RequestError (GmoApiResponse α)
  | .failed => .error .network
  | .response r =>
    match handleResponse r with
    | .error e => .error (.api e)
    | .ok json => .ok json

/-! ## Retries -/

/-- `withRateLimitRetry` with `retries` left, reading the tape from `pos`. -/
def withRateLimitRetry {α : Type} (tape : Nat → HttpOutcome α) :
    Nat → Nat → Except RequestError (GmoApiResponse α) × Nat
  | 0, pos => (request (tape pos), pos + 1)
  | retries + 1, pos =>
    match request (tape pos) with
    | .error (.api e) =>
      -- the last of the retries is returned as it is, rate limited or not
      if e.isRateLimited then withRateLimitRetry tape retries (pos + 1)
      else (.error (.api e), pos + 1)
    | .error .network => (.error .network, pos + 1)
    | .ok json => (.ok json, pos + 1)

/-- `RATE_LIMIT_MAX_RETRIES`. -/
def rateLimitMaxRetries : Nat := 3

/-- `get` and `post`. -/
def send {α : Type} (tape : Nat → HttpOutcome α) (pos : Nat) :
    Except RequestError (GmoApiResponse α) × Nat :=
  withRateLimitRetry tape rateLimitMaxRetries pos

/-- A request reads on, and at most four outcomes of the tape. -/
theorem send_pos {α : Type} (tape : Nat → HttpOutcome α) (pos : Nat) :
    pos < (send tape pos).2 ∧ (send tape pos).2 ≤ pos + 4 := by
  have hretry : ∀ retries pos, pos < (withRateLimitRetry tape retries pos).2 ∧
      (withRateLimitRetry tape retries pos).2 ≤ pos + retries + 1 := by
    intro retries
    induction retries with
    | zero => intro pos; simp [withRateLimitRetry]
    | succ n ih =>
      intro pos
      simp only [withRateLimitRetry]
      split
      · split
        · obtain ⟨hlt, hle⟩ := ih (pos + 1)
          omega
        · exact ⟨by simp, by simp⟩
      · exact ⟨by simp, by simp⟩
      · exact ⟨by simp, by simp⟩
  exact hretry 3 pos

/-! ## The broker's own errors -/

/-- `BrokerErrorCode`. -/
inductive BrokerErrorCode where
  | authenticationFailed
  | orderRejected
  | executionTimeout
  | rateLimited
  | networkError
  | unexpected
  deriving DecidableEq, Repr

structure BrokerError where
  message : String
  code : BrokerErrorCode
  cause : Option RequestError
  deriving DecidableEq, Repr

namespace BrokerError

def authenticationFailed (cause : Option RequestError) : BrokerError :=
  ⟨"認証に失敗した", .authenticationFailed, cause⟩

def orderRejected (reason : String) (cause : Option RequestError) : BrokerError :=
  ⟨"注文が拒否された: " ++ reason, .orderRejected, cause⟩

def executionTimeout (orderId : String) : BrokerError :=
  ⟨"約定を確認できなかった: orderId=" ++ orderId, .executionTimeout, none⟩

def rateLimited (cause : Option RequestError) : BrokerError :=
  ⟨"レート制限に到達した", .rateLimited, cause⟩

def networkError (cause : Option RequestError) : BrokerError :=
  ⟨"通信エラーが発生した", .networkError, cause⟩

def unexpected (message : String) (cause : Option RequestError) : BrokerError :=
  ⟨message, .unexpected, cause⟩

/-- `isAuthenticationFailure`. -/
def isAuthenticationFailure (e : BrokerError) : Bool := e.code == .authenticationFailed

end BrokerError

/-- What the body of an adapter method can throw: a `BrokerError` it made itself, an
error of a request, or anything else (a property of `undefined`, a factory). -/
inductive AdapterError where
  | broker (error : BrokerError)
  | request (error : RequestError)
  | other
  deriving DecidableEq, Repr

end Luchida
