import RmqttThings.Session.Account

namespace RmqttThings.Session

open Js

-- What a promise of refresh `k` may end with: not before the request has been answered, and with
-- a truthy value only after a success.
def Earned (log : List Event) (k : Nat) (outcome : Outcome Value) : Prop :=
  Ended log k ∧ ∀ value, outcome = .fulfilled value → value.truthy = true → .completed k true ∈ log

inductive Follows (inflight : Option Nat) (log : List Event) :
    Name → Name → Reaction Callback → Prop where
  | check (k : Nat) :
      Follows inflight log (.refresh .checked k) (.refresh .request k) ⟨some .checkResult, none⟩
  | fail (k : Nat) :
      Follows inflight log (.refresh .caught k) (.refresh .checked k) ⟨none, some .onRefreshFailed⟩
  | clear {k : Nat} (h : inflight = some k) :
      Follows inflight log (.refresh .inflight k) (.refresh .caught k)
      ⟨some (.thenFinally k), some (.catchFinally k)⟩
  | restore {k : Nat} {outcome : Outcome Value} (h : Earned log k outcome) :
      Follows inflight log (.refresh .restored k) (.refresh .cleared k) ⟨some (.restore outcome),
        none⟩
  | restored (k : Nat) : Follows inflight log (.refresh .inflight k) (.refresh .restored k) .pass
  | resume {n k : Nat} (request : Request) (hjoined : .joined n k ∈ log) (hfirst : .replayed n ∉
      log) :
      Follows inflight log (.interceptor n) (.refresh .inflight k) ⟨some (.resume n request), none⟩
  | replay (n : Nat) : Follows inflight log (.interceptor n) (.replay n) .pass

inductive Adopts : Name → Name → Prop where
  | restored (k : Nat) : Adopts (.refresh .inflight k) (.refresh .restored k)
  | replay (n : Nat) : Adopts (.interceptor n) (.replay n)

def contract (inflight : Option Nat) (log : List Event) : Contract Name Callback Value where
  idle
    | .refresh .request k => ¬Ended log k
    | _ => True
  follows := Follows inflight log
  adopts := Adopts
  ends
    | .refresh .request k, outcome => .completed k (isSuccess outcome) ∈ log
    | .refresh .checked k, outcome | .refresh .caught k, outcome | .refresh .restored k, outcome
    | .refresh .inflight k, outcome => Earned log k outcome
    | _, _ => True

structure Sound (tab : Tab) : Prop where
  account : Account tab
  keeps : Keeps (contract tab.inflightRefresh tab.log) tab.promises

section Contract

variable {inflight inflight' : Option Nat} {log log' : List Event} {event : Event}
  {promises : Promises Name Callback Value} {name on : Name} {reaction : Reaction Callback}

theorem Earned.mono {k : Nat} {outcome : Outcome Value} (h : Earned log k outcome)
    (hsub : log ⊆ log') :
    Earned log' k outcome :=
  ⟨h.1.mono hsub, fun value hvalue htruthy => hsub (h.2 value hvalue htruthy)⟩

theorem Follows.mono (h : Follows inflight log name on reaction) (hsub : log ⊆ log')
    (hclear : ∀ k, name = .refresh .inflight k → inflight = some k → inflight' = some k)
    (hfirst : ∀ n, name = .interceptor n → .replayed n ∉ log → .replayed n ∉ log') :
    Follows inflight' log' name on reaction := by
  cases h with
  | check k => exact .check k
  | fail k => exact .fail k
  | clear h => exact .clear (hclear _ rfl h)
  | restore h => exact .restore (h.mono hsub)
  | restored k => exact .restored k
  | resume request hjoined hnew => exact .resume request (hsub hjoined) (hfirst _ rfl hnew)
  | replay n => exact .replay n

-- The contract of a promise after a change of the tab. Only the log grows, so what a promise may
-- end with stays allowed.
theorem meets_mono {promise : Promise Name Callback Value}
    (h : promise.Meets (contract inflight log) name) (hsub : log ⊆ log')
    (hlive : ∀ k, name = .refresh .request k → ¬Ended log k → ¬Ended log' k)
    (hclear : ∀ k, name = .refresh .inflight k → inflight = some k → inflight' = some k)
    (hfirst : ∀ n, name = .interceptor n → .replayed n ∉ log → .replayed n ∉ log') :
    promise.Meets (contract inflight' log') name := by
  refine h.mono ?_ (fun _ _ hfollows => Follows.mono hfollows hsub hclear hfirst) (fun _ => id) ?_
  · cases name with
    | refresh link k =>
        cases link with
        | request => exact hlive k rfl
        | checked | caught | inflight | cleared | restored => exact id
    | interceptor n | replay n => exact id
  · intro other outcome hends
    cases other with
    | refresh link k =>
        cases link with
        | request => exact hsub hends
        | cleared => trivial
        | checked | caught | inflight | restored => exact Earned.mono hends hsub
    | interceptor n | replay n => trivial

-- An event that neither completes a refresh nor replays a request leaves the contract as it is.
theorem keeps_cons (h : Keeps (contract inflight log) promises)
    (hcompleted : ∀ k success, event ≠ .completed k success)
    (hreplayed : ∀ n, event ≠ .replayed n) :
    Keeps (contract inflight (event :: log)) promises := by
  intro name
  refine meets_mono (h name) (List.subset_cons_self event log) ?_ (fun _ _ => id) ?_
  · intro k _ hlive hended
    exact hlive (hended.of_cons (hcompleted k))
  · intro n _ hnew hmem
    exact hnew ((List.mem_cons.mp hmem).resolve_left (hreplayed n).symm)

theorem keeps_completed {k : Nat} {outcome : Outcome Value}
    (h : Keeps (contract inflight log) promises) :
    Keeps (contract inflight (.completed k (isSuccess outcome) :: log))
      (promises.settle (.refresh .request k) outcome) := by
  refine keeps_settle (fun name hne => ?_) List.mem_cons_self
  refine meets_mono (h name) (List.subset_cons_self _ log) ?_ (fun _ _ => id) ?_
  · intro other hother hlive hended
    refine hlive (hended.of_cons fun success he => hne ?_)
    rw [hother, (Event.completed.inj he).1]
  · intro n _ hnew hmem
    rcases List.mem_cons.mp hmem with he | hold
    · cases he
    · exact hnew hold

-- The interceptor that replays has left its `await`.
theorem keeps_replayed {n : Nat} (h : Keeps (contract inflight log) promises)
    (hpending : promises (.interceptor n) = .pending) :
    Keeps (contract inflight (.replayed n :: log)) promises := by
  intro name
  by_cases hn : name = .interceptor n
  · rw [hn, hpending]
    trivial
  · refine meets_mono (h name) (List.subset_cons_self _ log) ?_ (fun _ _ => id) ?_
    · intro k _ hlive hended
      refine hlive (hended.of_cons fun success he => ?_)
      cases he
    · intro other hother hnew hmem
      rcases List.mem_cons.mp hmem with he | hold
      · exact hn (by rw [hother, Event.replayed.inj he])
      · exact hnew hold

theorem keeps_begin {k : Nat} (h : Keeps (contract none log) promises) :
    Keeps (contract (some k) log) promises :=
  fun name => meets_mono (h name) (List.Subset.refl log) (fun _ _ => id) nofun fun _ _ => id

theorem keeps_clear {k : Nat} (h : Keeps (contract (some k) log) promises)
    (hpending : promises (.refresh .inflight k) = .pending) :
    Keeps (contract none log) promises := by
  intro name
  by_cases hn : name = .refresh .inflight k
  · rw [hn, hpending]
    trivial
  · refine meets_mono (h name) (List.Subset.refl log) (fun _ _ => id) ?_ fun _ _ => id
    intro other hother he
    exact absurd (by rw [hother, Option.some.inj he]) hn

end Contract

namespace Sound

variable {tab : Tab} {name on : Name} {reaction : Reaction Callback} {outcome : Outcome Value}

theorem follow (h : Sound tab) (hfollows : Follows tab.inflightRefresh tab.log name on reaction) :
    Sound (tab.follow name on reaction) :=
  ⟨{ h.account with }, h.keeps.follow hfollows⟩

theorem settle (h : Sound tab) (hends : (contract tab.inflightRefresh tab.log).ends name outcome) :
    Sound (tab.settle name outcome) :=
  ⟨{ h.account with }, h.keeps.settle hends⟩

theorem emit (event : Event) (h : Sound tab) (hadmissible : Admissible tab.log event)
    (hfits : Fits tab event) (hcompleted : ∀ k success, event ≠ .completed k success)
    (hreplayed : ∀ n, event ≠ .replayed n) :
    Sound (tab.emit event) :=
  ⟨h.account.emit hadmissible hfits, keeps_cons h.keeps hcompleted hreplayed⟩

theorem send (h : Sound tab) (request : Request) :
    Sound { tab with requests := tab.requests ++ [request] } :=
  ⟨h.account.send request, h.keeps⟩

-- What a callback has done before its promise is resolved.
structure Answers (name : Name) (result : Completion Name Value × Tab) : Prop where
  sound : Sound result.2
  ends : ∀ outcome, result.1 = outcome.completion →
    (contract result.2.inflightRefresh result.2.log).ends name outcome
  adopts : ∀ other, result.1 = .promise other → Adopts name other

theorem Answers.resolve {result : Completion Name Value × Tab} (h : Answers name result) :
    Sound (result.2.resolve name result.1) :=
  ⟨{ h.sound.account with }, h.sound.keeps.resolve h.ends h.adopts⟩

theorem answers_outcome (outcome : Outcome Value) (h : Sound tab)
    (hends : (contract tab.inflightRefresh tab.log).ends name outcome) :
    Answers name (outcome.completion, tab) where
  sound := h
  ends := by
    intro other he
    cases outcome <;> cases other <;> cases he <;> exact hends
  adopts := by
    intro other he
    cases outcome <;> cases he

theorem answers_promise {other : Name} (h : Sound tab) (hadopts : Adopts name other) :
    Answers name (.promise other, tab) where
  sound := h
  ends := by
    intro outcome he
    cases outcome <;> cases he
  adopts := by
    rintro _ ⟨⟩
    exact hadopts

theorem answers_checkResult {k : Nat} {value : Value} (h : Sound tab)
    (hends : .completed k (isSuccess (.fulfilled value)) ∈ tab.log) :
    Answers (.refresh .checked k) (checkResult value, tab) := by
  have hended : Ended tab.log k := ⟨_, hends⟩
  have hpasses (hsuccess : isSuccess (.fulfilled value) = true) :
      Answers (.refresh .checked k) (.normal (.boolean true), tab) :=
    answers_outcome (.fulfilled (.boolean true)) h ⟨hended, fun _ _ _ => hsuccess ▸ hends⟩
  cases value with
  | object names =>
      by_cases herror : "error" ∈ names
      · rw [checkResult, if_pos herror]
        exact answers_outcome (.rejected (.error "refresh failed")) h ⟨hended, nofun⟩
      · rw [checkResult, if_neg herror]
        exact hpasses (decide_eq_true herror)
  | undefined | boolean value | response status | error message | exception => exact hpasses rfl

theorem answers_onRefreshFailed {k : Nat} (urlFails : Bool) (h : Sound tab)
    (hended : Ended tab.log k) :
    Answers (.refresh .caught k) (onRefreshFailed urlFails tab) := by
  cases hredirecting : tab.isRedirecting with
  | true =>
      rw [onRefreshFailed, handle401, hredirecting]
      exact answers_outcome (.fulfilled (.boolean false)) h ⟨hended, nofun⟩
  | false =>
      rw [onRefreshFailed, handle401, hredirecting]
      cases urlFails with
      | true => exact answers_outcome (.rejected .exception) h ⟨hended, nofun⟩
      | false =>
          have hredirected : Sound { tab with isRedirecting := true } :=
            ⟨{ h.account with }, h.keeps⟩
          exact answers_outcome (.fulfilled (.boolean false)) hredirected ⟨hended, nofun⟩

theorem answers_onFinally {k : Nat} {outcome : Outcome Value} (h : Sound tab)
    (hsome : tab.inflightRefresh = some k) (hpending : tab.promises (.refresh .inflight k) =
      .pending)
    (hearned : Earned tab.log k outcome) :
    Answers (.refresh .inflight k) (onFinally k outcome tab) := by
  have hkeeps := h.keeps
  rw [hsome] at hkeeps
  have hcleared : Sound { tab with inflightRefresh := none } :=
    ⟨h.account.clear hsome hearned.1, keeps_clear hkeeps hpending⟩
  have hends : (contract none tab.log).ends (.refresh .cleared k) (.fulfilled .undefined) := trivial
  exact answers_promise ((hcleared.settle hends).follow (.restore hearned)) (.restored k)

theorem answers_resume {n k : Nat} {request : Request} {ok : Value} (h : Sound tab)
    (hpending : tab.promises (.interceptor n) = .pending) (hjoined : .joined n k ∈ tab.log)
    (hfirst : .replayed n ∉ tab.log) (hok : ok.truthy = true → .completed k true ∈ tab.log) :
    Answers (.interceptor n) (resume n request ok tab) := by
  rw [resume]
  cases htruthy : ok.truthy with
  | false => exact answers_outcome (.fulfilled (.response 401)) h trivial
  | true =>
      cases hused : request.bodyUsed with
      | true => exact answers_outcome (.rejected .exception) h trivial
      | false =>
          have hadmissible : Admissible tab.log (.replayed n) := ⟨hfirst, k, hjoined, hok htruthy⟩
          have hreplayed : Sound (tab.emit (.replayed n)) :=
            ⟨h.account.emit hadmissible trivial, keeps_replayed h.keeps hpending⟩
          exact answers_promise hreplayed (.replay n)

theorem answers_react (urlFails : Bool) (h : Sound tab) (hpending : tab.promises name = .pending)
    (hfollows : Follows tab.inflightRefresh tab.log name on reaction)
    (hends : (contract tab.inflightRefresh tab.log).ends on outcome) :
    Answers name (react urlFails reaction outcome tab) := by
  cases hfollows with
  | check k =>
      cases outcome with
      | fulfilled value => exact answers_checkResult h hends
      | rejected reason => exact answers_outcome (.rejected reason) h ⟨⟨_, hends⟩, nofun⟩
  | fail k =>
      cases outcome with
      | fulfilled value => exact answers_outcome (.fulfilled value) h hends
      | rejected reason => exact answers_onRefreshFailed urlFails h hends.1
  | clear hsome =>
      cases outcome with
      | fulfilled value => exact answers_onFinally h hsome hpending hends
      | rejected reason => exact answers_onFinally h hsome hpending hends
  | @restore k outcome' hearned =>
      cases outcome with
      | fulfilled value => exact answers_outcome outcome' h hearned
      | rejected reason => exact answers_outcome (.rejected reason) h ⟨hearned.1, nofun⟩
  | restored k =>
      cases outcome with
      | fulfilled value => exact answers_outcome (.fulfilled value) h hends
      | rejected reason => exact answers_outcome (.rejected reason) h hends
  | resume request hjoined hfirst =>
      cases outcome with
      | fulfilled value => exact answers_resume h hpending hjoined hfirst (hends.2 value rfl)
      | rejected reason => exact answers_outcome (.rejected reason) h trivial
  | replay n =>
      cases outcome with
      | fulfilled value => exact answers_outcome (.fulfilled value) h trivial
      | rejected reason => exact answers_outcome (.rejected reason) h trivial

theorem runJob (h : Sound tab) (name : Name) (urlFails : Bool) :
    Sound (runJob name urlFails tab) := by
  have hmeets := h.keeps name
  rw [Session.runJob]
  cases hpromise : tab.promises name with
  | queued on reaction outcome =>
      rw [hpromise] at hmeets
      obtain ⟨hfollows, hends⟩ := hmeets
      have hidle : (contract tab.inflightRefresh tab.log).idle name := by cases hfollows <;> trivial
      have htaken : Sound { tab with promises := Function.update tab.promises name .pending } :=
        ⟨{ h.account with }, h.keeps.update hidle⟩
      exact (answers_react urlFails htaken (Function.update_self name _ _) hfollows hends).resolve
  | adopts other =>
      rw [hpromise] at hmeets
      refine h.follow ?_
      cases hmeets with
      | restored k => exact .restored k
      | replay n => exact .replay n
  | pending | waits on reaction | settled outcome => exact h

theorem startRefresh {n : Nat} {request : Request} (origin : String) (h : Sound tab)
    (hnone : tab.inflightRefresh = none) (hn : tab.requests[n]? = some request)
    (hskip : shouldSkipRefresh request.url = false) (hresponded : .responded n 401 ∈ tab.log) :
    Sound (startRefresh origin n tab) := by
  have hkeeps := h.keeps
  rw [hnone] at hkeeps
  have hbegun : Sound { tab with
      requests := tab.requests ++ [⟨origin ++ "/api/auth/refresh", false, false⟩]
      refreshes := tab.refreshes + 1
      inflightRefresh := some tab.refreshes } :=
    ⟨(h.account.send _).begin hnone, keeps_begin hkeeps⟩
  have hadmissible : Admissible tab.log (.started tab.refreshes n) := by
    intro k cause hmem
    have hk := h.account.started k cause hmem
    refine ⟨hk.ne, ?_⟩
    by_contra hlive
    have hsome := h.account.live k hk hlive
    rw [hnone] at hsome
    cases hsome
  have hstarted := hbegun.emit (.started tab.refreshes n) hadmissible
    ⟨Nat.lt_succ_self _, hresponded, request, request_kept hn _, hskip⟩ nofun nofun
  exact ((hstarted.follow (.check _)).follow (.fail _)).follow (.clear rfl)

theorem join {n k : Nat} {request : Request} (h : Sound tab) (hn : tab.requests[n]? = some request)
    (hanswered : request.answered = true) (hfirst : .replayed n ∉ tab.log) (closure : Request) :
    Sound ((tab.emit (.joined n k)).follow (.interceptor n) (.refresh .inflight k)
      ⟨some (.resume n closure), none⟩) := by
  have hjoined : Sound (tab.emit (.joined n k)) :=
    h.emit (.joined n k) trivial ⟨request, hn, hanswered⟩ nofun nofun
  refine hjoined.follow (.resume closure List.mem_cons_self ?_)
  rw [Tab.emit, List.mem_cons, not_or]
  exact ⟨nofun, hfirst⟩

theorem interceptor {n : Nat} {request : Request} {status : Nat} (origin : String) (h : Sound tab)
    (hn : tab.requests[n]? = some { request with answered := true })
    (hresponded : .responded n status ∈ tab.log)
    (hfirst : .replayed n ∉ tab.log) : Sound (interceptor origin n request status tab) := by
  have hreturns : Sound (tab.settle (.interceptor n) (.fulfilled (.response status))) :=
    h.settle trivial
  rw [Session.interceptor]
  by_cases hstatus : status = 401
  · cases hskip : shouldSkipRefresh request.url with
    | true =>
        simpa only [hstatus, ne_eq, not_true_eq_false, if_false, if_true] using hstatus ▸ hreturns
    | false =>
        subst hstatus
        simp only [ne_eq, not_true_eq_false, if_false, Bool.false_eq_true, refreshAccessToken]
        cases hinflight : tab.inflightRefresh with
        | some k => exact h.join hn rfl hfirst request
        | none =>
            have hstarted := h.startRefresh origin hinflight hn hskip hresponded
            have hkept : (Session.startRefresh origin n tab).requests[n]? =
                some { request with answered := true } := request_kept hn _
            refine hstarted.join hkept rfl ?_ request
            exact fun hmem => (List.mem_cons.mp hmem).elim nofun hfirst
  · simpa only [hstatus, ne_eq, not_false_eq_true, if_true] using hreturns

theorem live_of_inFlight {k : Nat} (h : Sound tab) (hk : tab.inFlight k = true) :
    k < tab.refreshes ∧ ¬Ended tab.log k := by
  rw [Tab.inFlight, Bool.and_eq_true, decide_eq_true_eq] at hk
  refine ⟨hk.1, ?_⟩
  have hmeets := h.keeps (.refresh .request k)
  cases hpromise : tab.promises (.refresh .request k) with
  | pending =>
      rw [hpromise] at hmeets
      exact hmeets
  | waits on reaction | queued on reaction outcome | adopts other | settled outcome =>
      rw [hpromise] at hk
      exact absurd hk.2 nofun

-- Everything that was presented before has been answered when a new token is presented.
theorem admissible_presented {k : Nat} (h : Sound tab) (hk : k < tab.refreshes)
    (hlive : ¬Ended tab.log k)
    (hunsent : tab.exchange k = .unsent) : Admissible tab.log (.presented k tab.cookie) := by
  intro other hmem
  obtain ⟨hle, hsent, hlt⟩ := h.account.presented other tab.cookie hmem
  refine ⟨?_, fun hstored => (hlt hstored).false⟩
  by_contra hother
  have hsame := h.account.live_unique (h.account.sent other hsent) hother hk hlive
  exact hsent (hsame ▸ hunsent)

theorem step (origin : String) (h : Sound tab) (move : Move) : Sound (step origin tab move) := by
  cases move with
  | send url bodyUsed =>
      rw [Session.step]
      split_ifs
      · exact h
      · exact h.send _
  | respond n status =>
      rw [Session.step]
      cases hn : tab.requests[n]? with
      | none => exact h
      | some request =>
          dsimp only
          split_ifs with hanswered
          · exact h
          · have hfirst : .replayed n ∉ tab.log := by
              intro hmem
              obtain ⟨k, hjoined⟩ := h.account.replayed n hmem
              obtain ⟨old, hold, hdone⟩ := h.account.joined n k hjoined
              rw [hn, Option.some.injEq] at hold
              exact hanswered (hold ▸ hdone)
            have hset : Sound { tab with requests := tab.requests.set n { request with
                answered := true } } :=
              ⟨h.account.answer hn, h.keeps⟩
            have hresponded := hset.emit (.responded n status) trivial trivial nofun nofun
            refine hresponded.interceptor origin ?_ List.mem_cons_self ?_
            · exact List.getElem?_set_self (List.getElem?_eq_some_iff.mp hn).1
            · exact fun hmem => (List.mem_cons.mp hmem).elim nofun hfirst
  | present k =>
      rw [Session.step]
      split_ifs with hcan
      · obtain ⟨hk, hlive⟩ := h.live_of_inFlight hcan.1
        have hadmissible := h.admissible_presented hk hlive hcan.2
        have hunstored : .stored k ∉ tab.log := h.account.unstored (by rw [hcan.2]; nofun)
        have hpresented : Sound { tab with
            exchange := Function.update tab.exchange k .presented } :=
          ⟨h.account.present hk hcan.2, h.keeps⟩
        refine hpresented.emit (.presented k tab.cookie) hadmissible ⟨le_rfl, ?_,
          hunstored⟩ nofun nofun
        show Function.update tab.exchange k .presented k ≠ .unsent
        rw [Function.update_self]
        nofun
      · exact h
  | rotate k =>
      rw [Session.step]
      split_ifs with hcan
      · obtain ⟨hk, hlive⟩ := h.live_of_inFlight hcan.1
        have hrotated : Sound { tab with
            issued := tab.issued + 1
            exchange := Function.update tab.exchange k (.rotated (tab.issued + 1)) } :=
          ⟨h.account.rotate hk hcan.2, h.keeps⟩
        exact hrotated.emit (.rotated k) hlive trivial nofun nofun
      · exact h
  | store k =>
      rw [Session.step]
      cases hexchange : tab.exchange k with
      | rotated next =>
          dsimp only
          split_ifs with hcan
          · obtain ⟨hk, hlive⟩ := h.live_of_inFlight hcan
            have hstored : Sound { tab with
                cookie := next, exchange := Function.update tab.exchange k .stored } :=
              ⟨h.account.store hk hlive hexchange, h.keeps⟩
            refine hstored.emit (.stored k) trivial ⟨Function.update_self k _ _,
              fun token hmem => ?_⟩ nofun nofun
            exact (h.account.presented k token hmem).1.trans_lt
              (h.account.next k next hexchange hlive).1
          · exact h
      | unsent | presented | stored => exact h
  | complete k outcome =>
      rw [Session.step]
      split_ifs
      · have haccount : Account (tab.emit (.completed k (isSuccess outcome))) :=
          h.account.emit trivial trivial
        exact ⟨{ haccount with }, keeps_completed h.keeps⟩
      · exact h
  | run name urlFails => exact h.runJob name urlFails

end Sound

theorem sound_start : Sound .start where
  account := by
    constructor <;> intros <;> first | contradiction | trivial
  keeps := by
    intro name
    cases name with
    | refresh link k =>
        cases link with
        | request => exact fun ⟨_, hmem⟩ => nomatch hmem
        | checked | caught | inflight | cleared | restored => trivial
    | interceptor n | replay n => trivial

theorem sound_run (origin : String) (moves : List Move) : Sound (run origin moves) := by
  induction moves using List.reverseRecOn with
  | nil => exact sound_start
  | append_singleton moves move ih =>
      rw [run, List.foldl_append]
      exact ih.step origin move

section Laws

def InFlight (log : List Event) (k : Nat) : Prop := (∃ cause, .started k cause ∈ log) ∧ ¬Ended log k

def AuthEndpoint (url : String) : Prop := ∃ origin path rest,
  path ∈ ["/api/auth/refresh", "/api/auth/logout", "/api/auth/oauth/"] ∧
    url = origin ++ path ++ rest

structure SingleFlight (tab : Tab) : Prop where
  single : ∀ k k', InFlight tab.log k → InFlight tab.log k' → k = k'
  starts : ∀ later k cause earlier, tab.log = later ++ .started k cause :: earlier →
    ∀ k' cause', .started k' cause' ∈ earlier → k' ≠ k ∧ Ended earlier k'
  presents : ∀ later k token earlier, tab.log = later ++ .presented k token :: earlier →
    .rotated k ∈ tab.log → StoredFirst tab.log k → ∀ k', .presented k' token ∉ later
  replays : ∀ later n earlier, tab.log = later ++ .replayed n :: earlier →
    .replayed n ∉ later ∧ ∃ k, .joined n k ∈ earlier ∧ .completed k true ∈ earlier
  causes : ∀ k n, .started k n ∈ tab.log → .responded n 401 ∈ tab.log ∧
    ∃ request, tab.requests[n]? = some request ∧ ¬AuthEndpoint request.url

theorem shouldSkipRefresh_of_authEndpoint {url : String} (h : AuthEndpoint url) :
    shouldSkipRefresh url = true := by
  obtain ⟨origin, path, rest, hpath, rfl⟩ := h
  rw [shouldSkipRefresh, List.any_eq_true]
  refine ⟨path, hpath, decide_eq_true ?_⟩
  rw [String.toList_append, String.toList_append]
  exact List.infix_append _ _ _

end Laws

-- Whatever happens in the tab, in whatever order.
theorem single_flight (origin : String) (moves : List Move) : SingleFlight (run origin moves) where
  single := by
    rintro k k' ⟨⟨cause, hstarted⟩, hlive⟩ ⟨⟨cause', hstarted'⟩, hlive'⟩
    have haccount := (sound_run origin moves).account
    have hk := haccount.started k cause hstarted
    have hk' := haccount.started k' cause' hstarted'
    exact haccount.live_unique hk hlive hk' hlive'
  starts := by
    intro later k cause earlier hlog
    exact (hlog ▸ (sound_run origin moves).account.orderly : Orderly _).admissible
  presents := by
    intro later k token earlier hlog
    exact (sound_run origin moves).account.orderly.presents hlog
  replays := by
    intro later n earlier hlog
    exact (sound_run origin moves).account.orderly.replays hlog
  causes := by
    intro k n hmem
    obtain ⟨hresponded, request, hn, hskip⟩ := (sound_run origin moves).account.cause k n hmem
    refine ⟨hresponded, request, hn, fun hendpoint => ?_⟩
    rw [shouldSkipRefresh_of_authEndpoint hendpoint] at hskip
    cases hskip

-- Two concurrent 401s, one of them for a request whose body has been used.
example : (run "http://localhost"
    [.send "/api/admin/product" false, .send "/api/admin/device" true, .respond 0 401, .present 0,
      .respond 1 401, .rotate 0, .store 0, .complete 0 (.fulfilled (.object ["data"])),
        .run (.refresh .checked 0) false,
      .run (.refresh .caught 0) false, .run (.refresh .inflight 0) false,
        .run (.refresh .restored 0) false,
      .run (.refresh .inflight 0) false, .run (.refresh .inflight 0) false,
        .run (.interceptor 0) false,
      .run (.interceptor 1) false]).log =
    [.replayed 0, .completed 0 true, .stored 0, .rotated 0, .joined 1 0, .responded 1 401,
      .presented 0 0, .joined 0 0, .started 0 0, .responded 0 401] := by decide +kernel

end RmqttThings.Session
