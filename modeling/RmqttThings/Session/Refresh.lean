import Mathlib.Data.List.Infix
import RmqttThings.Js.Promises

namespace RmqttThings.Session

open Js

-- The promises of a refresh: the one of `refreshToken()`, and what `then`, `catch` and `finally`
-- make of it. `finally` makes two more when its callback has run.
inductive Link where
  | request
  | checked
  | caught
  | inflight
  | cleared
  | restored
  deriving DecidableEq

-- `interceptor n` is what the interceptor returns for the response to request `n`.
inductive Name where
  | refresh (link : Link) (k : Nat)
  | interceptor (n : Nat)
  | replay (n : Nat)
  deriving DecidableEq

-- An object has the names that `in` finds. An `exception` is one that the browser throws.
inductive Value where
  | undefined
  | boolean (value : Bool)
  | object (names : List String)
  | response (status : Nat)
  | error (message : String)
  | exception
  deriving DecidableEq

def Value.truthy : Value → Bool
  | .undefined => false
  | .boolean value => value
  | _ => true

-- `bodyUsed` once the request has been fetched, that is if it has a body.
structure Request where
  url : String
  bodyUsed : Bool
  answered : Bool

inductive Callback where
  | checkResult
  | onRefreshFailed
  | thenFinally (k : Nat)
  | catchFinally (k : Nat)
  | restore (outcome : Outcome Value)
  | resume (n : Nat) (request : Request)

-- What becomes of the refresh token of a refresh.
inductive Exchange where
  | unsent
  | presented
  | rotated (next : Nat)
  | stored
  deriving DecidableEq

inductive Event where
  | responded (n status : Nat)
  | started (k cause : Nat)
  | joined (n k : Nat)
  | presented (k token : Nat)
  | rotated (k : Nat)
  | stored (k : Nat)
  | completed (k : Nat) (success : Bool)
  | replayed (n : Nat)
  deriving DecidableEq

-- Refresh tokens are numbered as the server issues them. The log is newest first.
structure Tab where
  requests : List Request
  refreshes : Nat
  inflightRefresh : Option Nat
  isRedirecting : Bool
  cookie : Nat
  issued : Nat
  exchange : Nat → Exchange
  promises : Promises Name Callback Value
  log : List Event

namespace Tab

def start : Tab := ⟨[], 0, none, false, 0, 0, fun _ => .unsent, fun _ => .pending, []⟩

def emit (event : Event) (tab : Tab) : Tab := { tab with log := event :: tab.log }

def follow (name on : Name) (reaction : Reaction Callback) (tab : Tab) : Tab :=
  { tab with promises := tab.promises.follow name on reaction }

def settle (name : Name) (outcome : Outcome Value) (tab : Tab) : Tab :=
  { tab with promises := tab.promises.settle name outcome }

def resolve (name : Name) (completion : Completion Name Value) (tab : Tab) : Tab :=
  { tab with promises := tab.promises.resolve name completion }

-- The request of the refresh has not been answered yet.
def inFlight (tab : Tab) (k : Nat) : Bool :=
  decide (k < tab.refreshes) && (tab.promises (.refresh .request k)).isPending

end Tab

-- `text.includes(part)`
def includes (text part : String) : Bool := decide (part.toList <:+: text.toList)

def noRefreshPrefixes : List String := ["/api/auth/refresh", "/api/auth/logout", "/api/auth/oauth/"]

def shouldSkipRefresh (url : String) : Bool := noRefreshPrefixes.any fun path => includes url path

section RefreshAccessToken

variable (origin : String)

-- The promise that `refreshToken()` starts is `request k`. Its HTTP request goes through the
-- interceptor like any other.
def startRefresh (cause : Nat) (tab : Tab) : Tab :=
  let k := tab.refreshes
  let started : Tab :=
    { tab with
      requests := tab.requests ++ [⟨origin ++ "/api/auth/refresh", false, false⟩]
      refreshes := k + 1
      inflightRefresh := some k }
  started.emit (.started k cause)
  |>.follow (.refresh .checked k) (.refresh .request k) ⟨some .checkResult, none⟩
  |>.follow (.refresh .caught k) (.refresh .checked k) ⟨none, some .onRefreshFailed⟩
  |>.follow (.refresh .inflight k) (.refresh .caught k) ⟨some (.thenFinally k),
    some (.catchFinally k)⟩

-- The refresh whose promise is returned. The request that asks for it is a ghost.
def refreshAccessToken (cause : Nat) (tab : Tab) : Nat × Tab :=
  match tab.inflightRefresh with
  | some k => (k, tab)
  | none => (tab.refreshes, startRefresh origin cause tab)

-- The function up to its `await`, for the response to request `n`.
def interceptor (n : Nat) (request : Request) (status : Nat) (tab : Tab) : Tab :=
  if status ≠ 401 then tab.settle (.interceptor n) (.fulfilled (.response status))
  else if shouldSkipRefresh request.url then tab.settle (.interceptor n)
    (.fulfilled (.response status))
  else
    let (k, tab) := refreshAccessToken origin n tab
    tab.emit (.joined n k) |>.follow (.interceptor n) (.refresh .inflight k)
      ⟨some (.resume n request), none⟩

end RefreshAccessToken

section Callbacks

def checkResult : Value → Completion Name Value
  | .object names =>
      if "error" ∈ names then .throw (.error "refresh failed") else .normal (.boolean true)
  | _ => .normal (.boolean true)

-- It throws if the URL of the login page cannot be built.
def handle401 (urlFails : Bool) (tab : Tab) : Except Value Unit × Tab :=
  if tab.isRedirecting then (.ok (), tab)
  else if urlFails then (.error .exception, tab)
  else (.ok (), { tab with isRedirecting := true })

def onRefreshFailed (urlFails : Bool) (tab : Tab) : Completion Name Value × Tab :=
  match handle401 urlFails tab with
  | (.error thrown, tab) => (.throw thrown, tab)
  | (.ok _, tab) => (.normal (.boolean false), tab)

-- `finally` calls its callback, waits for what it returns and restores the outcome.
def onFinally (k : Nat) (outcome : Outcome Value) (tab : Tab) : Completion Name Value × Tab :=
  let cleared : Tab := { tab with inflightRefresh := none }
  (.promise (.refresh .restored k),
    cleared.settle (.refresh .cleared k) (.fulfilled .undefined)
    |>.follow (.refresh .restored k) (.refresh .cleared k) ⟨some (.restore outcome), none⟩)

-- The interceptor after its `await`. A request whose body has been used cannot be cloned.
def resume (n : Nat) (request : Request) (ok : Value) (tab : Tab) : Completion Name Value × Tab :=
  if !ok.truthy then (.normal (.response 401), tab)
  else if request.bodyUsed then (.throw .exception, tab)
  else (.promise (.replay n), tab.emit (.replayed n))

def call (urlFails : Bool) (argument : Value) (tab : Tab) : Callback → Completion Name Value × Tab
  | .checkResult => (checkResult argument, tab)
  | .onRefreshFailed => onRefreshFailed urlFails tab
  | .thenFinally k => onFinally k (.fulfilled argument) tab
  | .catchFinally k => onFinally k (.rejected argument) tab
  | .restore outcome => (outcome.completion, tab)
  | .resume n request => resume n request argument tab

def react (urlFails : Bool) (reaction : Reaction Callback) (outcome : Outcome Value) (tab : Tab) :
    Completion Name Value × Tab :=
  match outcome with
  | .fulfilled value => reaction.onFulfilled.elim (.normal value, tab) (call urlFails value tab)
  | .rejected reason => reaction.onRejected.elim (.throw reason, tab) (call urlFails reason tab)

-- The job of a promise, if it has one.
def runJob (name : Name) (urlFails : Bool) (tab : Tab) : Tab :=
  match tab.promises name with
  | .queued _ reaction outcome =>
      let taken : Tab := { tab with promises := Function.update tab.promises name .pending }
      let (completion, tab) := react urlFails reaction outcome taken
      tab.resolve name completion
  | .adopts other => tab.follow name other .pass
  | _ => tab

end Callbacks

-- An error payload or a rejection is no success.
def isSuccess : Outcome Value → Bool
  | .fulfilled (.object names) => decide ("error" ∉ names)
  | .fulfilled _ => true
  | .rejected _ => false

-- What can happen next, in any order. The jobs need not run in the order in which they were queued,
-- and other moves may come between them.
inductive Move where
  | send (url : String) (bodyUsed : Bool)
  | respond (n status : Nat)
  | present (k : Nat)
  | rotate (k : Nat)
  | store (k : Nat)
  | complete (k : Nat) (outcome : Outcome Value)
  | run (name : Name) (urlFails : Bool)

-- A move that is not possible changes nothing. Only `refreshAccessToken` calls the refresh
-- endpoint, and a replay is a plain `fetch`, whose response no interceptor sees.
def step (origin : String) (tab : Tab) : Move → Tab
  | .send url bodyUsed =>
      if includes url "/api/auth/refresh" then tab
      else { tab with requests := tab.requests ++ [⟨url, bodyUsed, false⟩] }
  | .respond n status =>
      match tab.requests[n]? with
      | some request =>
          if request.answered then tab
          else
            let answered : Tab :=
              { tab with requests := tab.requests.set n { request with answered := true } }
            interceptor origin n request status (answered.emit (.responded n status))
      | none => tab
  | .present k =>
      if tab.inFlight k ∧ tab.exchange k = .unsent then
        let presented : Tab := { tab with exchange := Function.update tab.exchange k .presented }
        presented.emit (.presented k tab.cookie)
      else tab
  | .rotate k =>
      if tab.inFlight k ∧ tab.exchange k = .presented then
        let next := tab.issued + 1
        let rotated : Tab :=
          { tab with issued := next, exchange := Function.update tab.exchange k (.rotated next) }
        rotated.emit (.rotated k)
      else tab
  | .store k =>
      match tab.exchange k with
      | .rotated next =>
          if tab.inFlight k then
            let stored : Tab :=
              { tab with cookie := next, exchange := Function.update tab.exchange k .stored }
            stored.emit (.stored k)
          else tab
      | _ => tab
  | .complete k outcome =>
      if tab.inFlight k then
        tab.emit (.completed k (isSuccess outcome)) |>.settle (.refresh .request k) outcome
      else tab
  | .run name urlFails => runJob name urlFails tab

def run (origin : String) (moves : List Move) : Tab := moves.foldl (step origin) .start

end RmqttThings.Session
