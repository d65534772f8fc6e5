import RmqttThings.Session.Refresh

namespace RmqttThings.Session

def Ended (log : List Event) (k : Nat) : Prop := ∃ success, .completed k success ∈ log

-- What holds of an event when it happens, given the ones before.
def Admissible (past : List Event) : Event → Prop
  | .started k _ => ∀ k' cause, .started k' cause ∈ past → k' ≠ k ∧ Ended past k'
  | .presented _ token => ∀ k, .presented k token ∈ past → Ended past k ∧ .stored k ∉ past
  | .rotated k => ¬Ended past k
  | .replayed n => .replayed n ∉ past ∧ ∃ k, .joined n k ∈ past ∧ .completed k true ∈ past
  | _ => True

def Orderly : List Event → Prop
  | [] => True
  | event :: past => Admissible past event ∧ Orderly past

-- If the server rotates the token of a refresh, the browser stores the new cookie before the
-- promise of the refresh settles.
def StoredFirst (log : List Event) (k : Nat) : Prop :=
  ∀ later success earlier, log = later ++ .completed k success :: earlier →
    .rotated k ∈ earlier → .stored k ∈ earlier

section Orderly

variable {log later earlier : List Event} {event : Event} {k : Nat}

theorem Ended.mono {log' : List Event} (h : Ended log k) (hsub : log ⊆ log') : Ended log' k :=
  h.imp fun _ hmem => hsub hmem

theorem Ended.cons (h : Ended log k) : Ended (event :: log) k :=
  h.mono (List.subset_cons_self event log)

theorem Ended.of_cons (h : Ended (event :: log) k)
    (hevent : ∀ success, event ≠ .completed k success) :
    Ended log k := by
  obtain ⟨success, hmem⟩ := h
  exact ⟨success, (List.mem_cons.mp hmem).resolve_left fun he => hevent success he.symm⟩

theorem Orderly.admissible (h : Orderly (later ++ event :: earlier)) :
    Admissible earlier event := by
  induction later with
  | nil => exact h.1
  | cons last later ih => exact ih h.2

-- No token is rotated after its refresh has been answered.
theorem Orderly.rotated_before {success : Bool} (h : Orderly log)
    (hlog : log = later ++ .completed k success :: earlier) (hrotated : .rotated k ∈ log) :
    .rotated k ∈ earlier := by
  rw [hlog, List.mem_append, List.mem_cons] at hrotated
  rcases hrotated with hlate | he | hearly
  · obtain ⟨last, between, rfl⟩ := List.append_of_mem hlate
    rw [hlog, List.append_assoc, List.cons_append] at h
    exact absurd ⟨success, List.mem_append_right _ List.mem_cons_self⟩ h.admissible
  · cases he
  · exact hearly

theorem Orderly.presents {token : Nat} (h : Orderly log)
    (hlog : log = later ++ .presented k token :: earlier)
    (hrotated : .rotated k ∈ log) (hstored : StoredFirst log k) (k' : Nat) :
    .presented k' token ∉ later := by
  intro hmem
  obtain ⟨last, between, rfl⟩ := List.append_of_mem hmem
  rw [List.append_assoc, List.cons_append] at hlog
  -- the first refresh has been answered by then, and its new cookie has not been stored
  obtain ⟨⟨success, hended⟩, hunstored⟩ :=
    (hlog ▸ h).admissible k (List.mem_append_right between List.mem_cons_self)
  obtain ⟨front, past, hpast⟩ := List.append_of_mem hended
  have hcompleted : log = (last ++ .presented k' token :: front) ++ .completed k success ::
      past := by
    rw [hlog, hpast, List.append_assoc, List.cons_append]
  have hin := hstored _ success past hcompleted (h.rotated_before hcompleted hrotated)
  rw [hpast] at hunstored
  exact hunstored (List.mem_append_right front (List.mem_cons_of_mem _ hin))

theorem Orderly.replays {n : Nat} (h : Orderly log) (hlog : log = later ++ .replayed n :: earlier) :
    .replayed n ∉ later ∧ ∃ k, .joined n k ∈ earlier ∧ .completed k true ∈ earlier := by
  refine ⟨fun hmem => ?_, (hlog ▸ h).admissible.2⟩
  obtain ⟨last, between, rfl⟩ := List.append_of_mem hmem
  rw [List.append_assoc, List.cons_append] at hlog
  exact (hlog ▸ h).admissible.1 (List.mem_append_right between List.mem_cons_self)

end Orderly

structure Account (tab : Tab) : Prop where
  live : ∀ k < tab.refreshes, ¬Ended tab.log k → tab.inflightRefresh = some k
  started : ∀ k cause, .started k cause ∈ tab.log → k < tab.refreshes
  cause : ∀ k n, .started k n ∈ tab.log → .responded n 401 ∈ tab.log ∧
    ∃ request, tab.requests[n]? = some request ∧ shouldSkipRefresh request.url = false
  joined : ∀ n k, .joined n k ∈ tab.log → ∃ request, tab.requests[n]? = some request ∧
    request.answered = true
  replayed : ∀ n, .replayed n ∈ tab.log → ∃ k, .joined n k ∈ tab.log
  issued : tab.cookie ≤ tab.issued
  sent : ∀ k, tab.exchange k ≠ .unsent → k < tab.refreshes
  next : ∀ k token, tab.exchange k = .rotated token → ¬Ended tab.log k → tab.cookie < token ∧
    token ≤ tab.issued
  presented : ∀ k token, .presented k token ∈ tab.log →
    token ≤ tab.cookie ∧ tab.exchange k ≠ .unsent ∧ (.stored k ∈ tab.log → token < tab.cookie)
  stored : ∀ k, .stored k ∈ tab.log → tab.exchange k = .stored
  orderly : Orderly tab.log

-- What the tab must be like for an event to be logged.
def Fits (tab : Tab) : Event → Prop
  | .started k cause => k < tab.refreshes ∧ .responded cause 401 ∈ tab.log ∧
      ∃ request, tab.requests[cause]? = some request ∧ shouldSkipRefresh request.url = false
  | .joined n _ => ∃ request, tab.requests[n]? = some request ∧ request.answered = true
  | .presented k token => token ≤ tab.cookie ∧ tab.exchange k ≠ .unsent ∧ .stored k ∉ tab.log
  | .stored k =>
      tab.exchange k = .stored ∧ ∀ token, .presented k token ∈ tab.log → token < tab.cookie
  | _ => True

theorem request_kept {requests : List Request} {n : Nat} {old : Request}
    (hn : requests[n]? = some old)
    (request : Request) : (requests ++ [request])[n]? = some old := by
  rw [List.getElem?_append_left (List.getElem?_eq_some_iff.mp hn).1, hn]

namespace Account

variable {tab : Tab} {k : Nat}

theorem unstored (h : Account tab) (hexchange : tab.exchange k ≠ .stored) : .stored k ∉ tab.log :=
  fun hmem => hexchange (h.stored k hmem)

theorem live_unique {k' : Nat} (h : Account tab) (hk : k < tab.refreshes) (hlive : ¬Ended tab.log k)
    (hk' : k' < tab.refreshes) (hlive' : ¬Ended tab.log k') : k = k' :=
  Option.some.inj ((h.live k hk hlive).symm.trans (h.live k' hk' hlive'))

theorem emit {event : Event} (h : Account tab) (hadmissible : Admissible tab.log event)
    (hfits : Fits tab event) :
    Account (tab.emit event) where
  live := by
    intro k hk hended
    exact h.live k hk fun he => hended he.cons
  started := by
    intro k cause hmem
    rcases List.mem_cons.mp hmem with rfl | hold
    · exact hfits.1
    · exact h.started k cause hold
  cause := by
    intro k n hmem
    rcases List.mem_cons.mp hmem with rfl | hold
    · exact ⟨List.mem_cons_of_mem _ hfits.2.1, hfits.2.2⟩
    · exact ⟨List.mem_cons_of_mem _ (h.cause k n hold).1, (h.cause k n hold).2⟩
  joined := by
    intro n k hmem
    rcases List.mem_cons.mp hmem with rfl | hold
    · exact hfits
    · exact h.joined n k hold
  replayed := by
    intro n hmem
    rcases List.mem_cons.mp hmem with rfl | hold
    · obtain ⟨k, hjoined, -⟩ := hadmissible.2
      exact ⟨k, List.mem_cons_of_mem _ hjoined⟩
    · exact (h.replayed n hold).imp fun _ => List.mem_cons_of_mem _
  issued := h.issued
  sent := h.sent
  next := by
    intro k token hexchange hended
    exact h.next k token hexchange fun he => hended he.cons
  presented := by
    intro k token hmem
    rcases List.mem_cons.mp hmem with rfl | hold
    · refine ⟨hfits.1, hfits.2.1, fun hstored => ?_⟩
      rcases List.mem_cons.mp hstored with he | hstored
      · cases he
      · exact absurd hstored hfits.2.2
    · obtain ⟨hle, hsent, hlt⟩ := h.presented k token hold
      refine ⟨hle, hsent, fun hstored => ?_⟩
      rcases List.mem_cons.mp hstored with rfl | hstored
      · exact hfits.2 token hold
      · exact hlt hstored
  stored := by
    intro k hmem
    rcases List.mem_cons.mp hmem with rfl | hold
    · exact hfits.1
    · exact h.stored k hold
  orderly := ⟨hadmissible, h.orderly⟩

theorem send (h : Account tab) (request : Request) :
    Account { tab with requests := tab.requests ++ [request] } :=
  { h with
    cause := by
      intro k n hmem
      obtain ⟨hresponded, old, hold, hskip⟩ := h.cause k n hmem
      exact ⟨hresponded, old, request_kept hold request, hskip⟩
    joined := by
      intro n k hmem
      obtain ⟨old, hold, hanswered⟩ := h.joined n k hmem
      exact ⟨old, request_kept hold request, hanswered⟩ }

theorem answer {n : Nat} {request : Request} (h : Account tab)
    (hn : tab.requests[n]? = some request) :
    Account { tab with requests := tab.requests.set n { request with answered := true } } :=
  have hlength : n < tab.requests.length := (List.getElem?_eq_some_iff.mp hn).1
  { h with
    cause := by
      intro k cause hmem
      obtain ⟨hresponded, old, hold, hskip⟩ := h.cause k cause hmem
      refine ⟨hresponded, ?_⟩
      by_cases he : n = cause
      · subst he
        rw [hn, Option.some.injEq] at hold
        exact ⟨_, List.getElem?_set_self hlength, hold ▸ hskip⟩
      · exact ⟨old, by rw [List.getElem?_set_ne he, hold], hskip⟩
    joined := by
      intro other k hmem
      obtain ⟨old, hold, hanswered⟩ := h.joined other k hmem
      by_cases he : n = other
      · subst he
        exact ⟨_, List.getElem?_set_self hlength, rfl⟩
      · exact ⟨old, by rw [List.getElem?_set_ne he, hold], hanswered⟩ }

theorem begin (h : Account tab) (hnone : tab.inflightRefresh = none) :
    Account { tab with refreshes := tab.refreshes + 1, inflightRefresh := some tab.refreshes } :=
  { h with
    live := by
      intro k hk hended
      rcases Nat.lt_succ_iff_lt_or_eq.mp hk with hold | rfl
      · rw [h.live k hold hended] at hnone
        cases hnone
      · rfl
    started := fun k cause hmem => (h.started k cause hmem).trans (Nat.lt_succ_self _)
    sent := fun k hsent => (h.sent k hsent).trans (Nat.lt_succ_self _) }

-- The refresh that is cleared has ended, and no other one was live.
theorem clear (h : Account tab) (hsome : tab.inflightRefresh = some k) (hended : Ended tab.log k) :
    Account { tab with inflightRefresh := none } :=
  { h with
    live := by
      intro other hother hlive
      have he := h.live other hother hlive
      rw [hsome, Option.some.injEq] at he
      exact absurd (he ▸ hended) hlive }

-- One exchange goes on. The cookie and the last token issued do not go back.
theorem advance {exchange : Exchange} {cookie issued : Nat} (h : Account tab)
    (hk : k < tab.refreshes) (hsent : exchange ≠ .unsent) (hcookie : tab.cookie ≤ cookie)
    (hissued : cookie ≤ issued) (hstored : .stored k ∈ tab.log → exchange = .stored)
    (hself : ∀ token, exchange = .rotated token → cookie < token ∧ token ≤ issued)
    (hothers : ∀ other token, other ≠ k → tab.exchange other = .rotated token →
      ¬Ended tab.log other → cookie < token ∧ token ≤ issued) :
    Account { tab with
      cookie := cookie, issued := issued, exchange := Function.update tab.exchange k exchange } :=
  { h with
    issued := hissued
    sent := by
      intro other hother
      by_cases he : other = k
      · exact he ▸ hk
      · exact h.sent other (Function.update_of_ne he exchange tab.exchange ▸ hother)
    next := by
      intro other token (hother : Function.update tab.exchange k exchange other = .rotated token)
        hlive
      by_cases he : other = k
      · rw [he, Function.update_self] at hother
        exact hself token hother
      · rw [Function.update_of_ne he] at hother
        exact hothers other token he hother hlive
    presented := by
      intro other token hmem
      obtain ⟨hle, hold, hlt⟩ := h.presented other token hmem
      refine ⟨hle.trans hcookie, ?_, fun hmem => (hlt hmem).trans_le hcookie⟩
      show Function.update tab.exchange k exchange other ≠ .unsent
      by_cases he : other = k
      · rwa [he, Function.update_self]
      · rwa [Function.update_of_ne he]
    stored := by
      intro other hmem
      show Function.update tab.exchange k exchange other = .stored
      by_cases he : other = k
      · subst he
        rw [Function.update_self, hstored hmem]
      · rw [Function.update_of_ne he, h.stored other hmem] }

theorem present (h : Account tab) (hk : k < tab.refreshes) (hexchange : tab.exchange k = .unsent) :
    Account { tab with exchange := Function.update tab.exchange k .presented } := by
  have hunstored : .stored k ∉ tab.log := h.unstored (by rw [hexchange]; nofun)
  refine h.advance hk nofun le_rfl h.issued (absurd · hunstored) nofun ?_
  intro other token _ hother hlive
  exact h.next other token hother hlive

theorem rotate (h : Account tab) (hk : k < tab.refreshes)
    (hexchange : tab.exchange k = .presented) :
    Account { tab with
      issued := tab.issued + 1
      exchange := Function.update tab.exchange k (.rotated (tab.issued + 1)) } := by
  have hissued := h.issued
  have hunstored : .stored k ∉ tab.log := h.unstored (by rw [hexchange]; nofun)
  refine h.advance hk nofun le_rfl (by omega) (absurd · hunstored) ?_ ?_
  · intro token he
    rw [Exchange.rotated.injEq] at he
    omega
  · intro other token _ hother hlive
    have hnext := h.next other token hother hlive
    omega

-- The refresh is the only live one, so no other token waits for the cookie.
theorem store (h : Account tab) {next : Nat} (hk : k < tab.refreshes) (hlive : ¬Ended tab.log k)
    (hexchange : tab.exchange k = .rotated next) :
    Account { tab with cookie := next, exchange := Function.update tab.exchange k .stored } := by
  have hnext := h.next k next hexchange hlive
  refine h.advance hk nofun hnext.1.le hnext.2 (fun _ => rfl) nofun ?_
  intro other token hne hother hlive'
  have hsent : other < tab.refreshes := h.sent other (by rw [hother]; nofun)
  exact absurd (h.live_unique hsent hlive' hk hlive) hne

end Account

end RmqttThings.Session
