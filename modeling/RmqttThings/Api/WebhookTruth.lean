import RmqttThings.Api.PendingRetries

namespace RmqttThings.Api

open Effects RuleEngine

section Delivery

-- The statement that records the outcome of a retry of the alarm.
def Concludes (id : Int) (event : Event Op.Ans) : Prop :=
  (∃ answer, event = ⟨.sql (.markWebhookSuccess id), answer⟩) ∨
    ∃ secs answer, event = ⟨.sql (.decrementRetryAndScheduleNext id secs), answer⟩

-- A post to the webhook has been answered with a 2xx for this alarm: by the task that
-- inserted the alarm, or among the posts of a retry of this alarm, which directly
-- precede the statement that records its outcome.
inductive Delivered (log : Log) (id : Int) (url : String) : Prop where
  | first (thread : Nat) (hinserted : Inserted id (Pool.history thread log))
      (hpost : ∃ event ∈ Pool.history thread log, PostOk url event)
  | retry (thread : Nat) (later posts earlier : Past) (conclusion : Event Op.Ans)
      (hhistory : Pool.history thread log = later ++ conclusion :: (posts ++ earlier))
      (hconclusion : Concludes id conclusion) (hposts : ∀ event ∈ posts, IsPost event)
      (hpost : ∃ event ∈ posts, PostOk url event)

theorem Delivered.mono {log earlier : Log} {id : Int} {url : String} (h : Delivered earlier id url)
    (hsuffix : earlier <:+ log) : Delivered log id url := by
  obtain ⟨later, rfl⟩ := hsuffix
  cases h with
  | first thread hinserted hpost =>
      have hhistory : Pool.history thread earlier <:+ Pool.history thread (later ++ earlier) :=
        ⟨Pool.history thread later, (Pool.history_append _ _ _).symm⟩
      obtain ⟨event, hevent, hok⟩ := hpost
      exact .first thread (hinserted.mono hhistory) ⟨event, hhistory.subset hevent, hok⟩
  | retry thread newer posts older conclusion hhistory hconclusion hposts hpost =>
      refine .retry thread (Pool.history thread later ++ newer) posts older conclusion ?_
        hconclusion hposts hpost
      rw [Pool.history_append, hhistory, List.append_assoc]

-- The alarm was fired in this run by a rule with these webhooks.
def Fired (pool : Pool World Job Op.Ans Unit) (id : Int) (urls : List String) : Prop :=
  ∃ thread actions ctx ruleId ruleName program,
    pool.threads[thread]? = some ⟨.executeActions actions ctx ruleId ruleName, program⟩ ∧
      Inserted id (Pool.history thread pool.log) ∧ urls = webhookUrls actions

def Truthful (pool : Pool World Job Op.Ans Unit) : Prop :=
  ∀ row ∈ pool.state.tables.alarms, row.webhookStatus = some 0 →
    ∀ urls, Fired pool row.id urls → ∀ url ∈ urls, Delivered pool.log row.id url

-- Every retry that is recorded as a success has read a rule that still lists the
-- webhooks of the alarm, except for those that have answered already.
def WebhooksKept (pool : Pool World Job Op.Ans Unit) : Prop :=
  ∀ later thread id answer earlier posts ruleId found past,
    pool.log = later ++ (thread, ⟨.sql (.markWebhookSuccess id), answer⟩) :: earlier →
    Pool.history thread earlier = posts ++ ⟨.sql (.getRuleActions ruleId), .ok found⟩ :: past →
    (∀ event ∈ posts, IsPost event) → ∀ urls, Fired pool id urls →
      ∀ url ∈ urls, url ∈ listedUrls found ∨ Delivered earlier id url

end Delivery

section Status

-- The events that write the webhook status of the alarm.
def SetsStatus (id : Int) (event : Event Op.Ans) : Prop :=
  Touches id event ∧ ∀ secs left, event ≠ ⟨.sql (.decrementRetryAndScheduleNext id secs),
    .ok (some left)⟩

theorem status_frame {w : World} (hfresh : w.Fresh) (id : Int) (op : Op)
    (h : ¬SetsStatus id ⟨op, (sem op w).1⟩) :
    (retryAt (sem op w).2 id).map (·.status) = (retryAt w id).map (·.status) := by
  by_cases htouch : Touches id ⟨op, (sem op w).1⟩
  · obtain ⟨secs, left, he⟩ : ∃ secs left, (⟨op, (sem op w).1⟩ : Event Op.Ans) =
        ⟨.sql (.decrementRetryAndScheduleNext id secs), .ok (some left)⟩ := by
      by_contra hnone
      exact h ⟨htouch, fun secs left he => hnone ⟨secs, left, he⟩⟩
    cases hrow : retryAt w id with
    | some columns =>
        rw [retryAt_step hfresh op hrow, he]
        simp [RetryColumns.after]
    | none =>
        rcases retryAt_created op hrow with hnone | ⟨alarm, hinsert, -⟩
        · rw [hnone]
        · rw [he] at hinsert
          cases hinsert
  · rw [retryAt_untouched hfresh op htouch]

end Status

section Runs

variable {state : ApiState} {start : World} {moves : List (Move Job)} {id : Int}
  {later earlier : Log} {thread : Nat} {served : Thread Job Op.Ans Unit} {urls : List String}
  {url : String}

-- The first attempt is recorded as a success by the task that inserted the alarm.
theorem delivered_by_first (hfresh : start.Fresh) {status : Int16}
    (he : (webhookRun state moves start).log =
      later ++ (thread, ⟨.sql (.updateAlarmWebhookStatus id status), .ok ()⟩) :: earlier)
    (hserved : (webhookRun state moves start).threads[thread]? = some served)
    (hrule : WebhookRule state served.request (Pool.history thread earlier)
      (.sql (.updateAlarmWebhookStatus id status)))
    (hfired : Fired (webhookRun state moves start) id urls) (hurl : url ∈ urls) :
    Delivered (webhookRun state moves start).log id url := by
  obtain ⟨-, hmine, actions, ctx, ruleId, ruleName, hjob, hposts⟩ := hrule
  obtain ⟨firing, actions', ctx', ruleId', ruleName', program, hthread, hinserted, rfl⟩ := hfired
  have hhistory : Pool.history thread earlier <:+ Pool.history thread
      (webhookRun state moves start).log := by
    rw [he, Pool.history_append, Pool.history_cons_self]
    exact (List.suffix_cons _ _).trans (List.suffix_append _ _)
  have hanswered := Pool.answered_play sem (work state) moves start
  obtain rfl := inserted_once hfresh hanswered hinserted (hmine.mono hhistory)
  obtain rfl := Option.some.inj (hthread.symm.trans hserved)
  cases hjob
  obtain ⟨post, hpost, hok⟩ := hposts url hurl
  exact .first firing hinserted ⟨post, hhistory.subset hpost, hok⟩

-- A retry is recorded as a success behind the posts to the webhooks that it found.
theorem delivered_by_retry (hkept : WebhooksKept (webhookRun state moves start))
    (he : (webhookRun state moves start).log =
      later ++ (thread, ⟨.sql (.markWebhookSuccess id), .ok ()⟩) :: earlier)
    (hrule : Redelivered (Pool.history thread earlier))
    (hfired : Fired (webhookRun state moves start) id urls) (hurl : url ∈ urls) :
    Delivered (webhookRun state moves start).log id url := by
  obtain ⟨posts, ruleId, found, past, hhistory, hposts, hlisted⟩ := hrule
  rcases hkept later thread id (.ok ()) earlier posts ruleId found past he hhistory hposts urls
    hfired url hurl with
    hmem | hdone
  · refine .retry thread (Pool.history thread later) posts (⟨.sql (.getRuleActions ruleId),
      .ok found⟩ :: past)
      ⟨.sql (.markWebhookSuccess id), .ok ()⟩ ?_ (.inl ⟨_, rfl⟩) hposts (hlisted url hmem)
    rw [he, Pool.history_append, Pool.history_cons_self, hhistory]
  · have hsuffix : earlier <:+ (webhookRun state moves start).log := by
      rw [he]
      exact (List.suffix_cons _ _).trans (List.suffix_append _ _)
    exact hdone.mono hsuffix

end Runs

-- A success is only recorded for a delivery, provided that no webhook of a pending
-- alarm is dropped from its rule before it has answered.
theorem webhook_success_truthful (state : ApiState) (start : World) (hfresh : start.Fresh)
    (moves : List (Move Job)) (hkept : WebhooksKept (webhookRun state moves start)) :
    Truthful (webhookRun state moves start) := by
  intro row hrow hstatus urls hfired url hurl
  have hanswered := Pool.answered_play sem (work state) moves start
  rw [Pool.state_eq_replay sem (work state) moves start] at hrow
  have hcolumns : (retryAt (stateAt start (webhookRun state moves start).log) row.id).map
      (·.status) =
      some (some 0) := by
    rw [retryAt_of_mem (fresh_stateAt hfresh _) hrow, Option.map_some, ← hstatus]
    rfl
  have hlast := last_event hfresh hanswered row.id (SetsStatus row.id) (Option.map (·.status))
    fun w hw op h => status_frame hw row.id op h
  rcases hlast with ⟨hnone, -⟩ | ⟨later, thread, event, earlier, he, ⟨htouch, hdecrement⟩, -,
    hanswer, hsame⟩
  · obtain ⟨firing, _, _, _, _, _, -, ⟨alarm, hmem⟩, -⟩ := hfired
    exact absurd ⟨.insert alarm, nofun⟩ (hnone _ (Pool.mem_history.mp hmem))
  · obtain ⟨served, hserved, hrule⟩ :=
      Pool.allowed_of_log sem (work state) (spec_work state) moves start later earlier thread event
        he
    rw [hsame] at hcolumns
    obtain ⟨columns, hafter, hzero⟩ := Option.map_eq_some_iff.mp hcolumns
    rcases retryAt_origin (fresh_stateAt hfresh earlier) hanswer hafter with
      ⟨-, rfl⟩ | ⟨before, -, rfl⟩
    · cases hzero
    · generalize row.id = id at *
      cases htouch with
      | insert alarm =>
          obtain ⟨-, hinitial⟩ := retryAt_inserted (fresh_stateAt hfresh earlier) hanswer
          rw [hinitial] at hafter
          rw [← Option.some.inj hafter] at hzero
          cases hzero
      | status status => exact delivered_by_first hfresh he hserved hrule hfired hurl
      | retry status left nextRetryAt =>
          obtain ⟨rfl, -⟩ := hrule
          simp [RetryColumns.after] at hzero
      | decrement secs left => exact absurd rfl (hdecrement secs left)
      | finalFailure => simp [RetryColumns.after, RetryColumns.settled] at hzero
      | success => exact delivered_by_retry hkept he hrule.2 hfired hurl

-- The webhooks that a read of a rule finds, and those of a rule that fires.
def readUrls : Event Op.Ans → Option (List String)
  | ⟨.sql (.getRuleActions _), .ok found⟩ => some (listedUrls found)
  | _ => none

def Job.firedUrls : Job → Option (List String)
  | .executeActions actions _ _ _ => some (webhookUrls actions)
  | _ => none

-- Where every read finds the webhooks that every rule fired with, none of them is dropped.
theorem webhooksKept_of_unedited {pool : Pool World Job Op.Ans Unit} (urls : List String)
    (hreads : ∀ entry ∈ pool.log, ∀ found ∈ readUrls entry.2, found = urls)
    (hjobs : ∀ served ∈ pool.threads, ∀ fired ∈ served.request.firedUrls, fired = urls) :
    WebhooksKept pool := by
  intro later thread id answer earlier posts ruleId found past hlog hhistory _ fired hfired url hurl
  obtain ⟨firing, actions, ctx, ruleId', ruleName, program, hthread, -, rfl⟩ := hfired
  have hread : ((thread, ⟨.sql (.getRuleActions ruleId), .ok found⟩) : Nat × Event Op.Ans) ∈
      pool.log := by
    have hmem : (⟨.sql (.getRuleActions ruleId), .ok found⟩ : Event Op.Ans) ∈
        Pool.history thread earlier := by
      simp [hhistory]
    rw [hlog]
    exact List.mem_append_right _ (List.mem_cons_of_mem _ (Pool.mem_history.mp hmem))
  have hlisted := hreads _ hread (listedUrls found) rfl
  have hactions := hjobs _ (List.mem_of_getElem? hthread) (webhookUrls actions) rfl
  exact .inl (by rw [hlisted, ← hactions]; exact hurl)

-- The first post fails and the retry succeeds.
theorem webhook_success_truthful_retried :
    let start := { hookStart with
        webhooks := fun n => if n = 0 then some "503 Service Unavailable" else none }
    let moves : List (Move Job) := .spawn hookJob :: List.replicate 4 (.step 0) ++
      .spawn .webhookRetry :: List.replicate 4 (.step 1)
    let pool := webhookRun (hookState 3) moves start
    pool.state.tables.alarms.map (·.webhookStatus) = [some 0] ∧ Truthful pool := by
  intro start moves pool
  have hstart : start.tables.alarms = [] := rfl
  refine ⟨by decide +kernel, webhook_success_truthful (hookState 3) start
    ⟨by simp [hstart], by simp [hstart]⟩ moves ?_⟩
  exact webhooksKept_of_unedited ["https://hook"] (by decide +kernel) (by decide +kernel)

-- The rule is deleted between the failed first post and the retry, which then finds
-- nothing to post to.
def ruleDeleted : List (Move Job) :=
  .spawn hookJob :: (List.replicate 4 (.step 0) ++ .spawn (.deleteAlarmRule 1) :: List.replicate 4
    (.step 1) ++
    .spawn .webhookRetry :: List.replicate 3 (.step 2))

theorem unsent_webhook_marked_success :
    ¬∀ (state : ApiState) (start : World) (moves : List (Move Job)), start.Fresh →
      Truthful (webhookRun state moves start) := by
  intro h
  have htruthful := h (hookState 3) hookStart ruleDeleted hookStart_fresh
  have hspawned : (webhookRun (hookState 3) [.spawn hookJob] hookStart).threads[0]? =
      some ⟨hookJob, work (hookState 3) hookJob⟩ := rfl
  have hthread : ∃ program, (webhookRun (hookState 3) ruleDeleted hookStart).threads[0]? =
      some ⟨hookJob, program⟩ :=
    Pool.request_stable sem (work (hookState 3)) [.spawn hookJob] _ hookStart 0 _ hspawned
  have hrow : ∃ row ∈ (webhookRun (hookState 3) ruleDeleted hookStart).state.tables.alarms,
      row.id = 1 ∧ row.webhookStatus = some 0 := by decide +kernel
  have hposts : ∀ entry ∈ (webhookRun (hookState 3) ruleDeleted hookStart).log,
      ¬PostOk "https://hook" entry.2 := by
    decide +kernel
  have hinsert : some 1 ∈ (Pool.history 0 (webhookRun (hookState 3) ruleDeleted hookStart).log).map
      insertedAlarm := by
    decide +kernel
  generalize webhookRun (hookState 3) ruleDeleted hookStart = pool at *
  obtain ⟨program, hthread⟩ := hthread
  obtain ⟨row, hmem, hid, hstatus⟩ := hrow
  have hfired : Fired pool row.id (webhookUrls hookActions) :=
    ⟨0, hookActions, online "d", 1, "online", program, hthread, hid ▸ inserted_of_mem hinsert, rfl⟩
  have hnone : ∀ thread event, event ∈ Pool.history thread pool.log →
      ¬PostOk "https://hook" event :=
    fun thread event hevent => hposts _ (Pool.mem_history.mp hevent)
  cases htruthful row hmem hstatus _ hfired "https://hook" (by decide) with
  | first thread _ hpost =>
      obtain ⟨event, hevent, hok⟩ := hpost
      exact hnone thread event hevent hok
  | retry thread later posts earlier conclusion hhistory _ _ hpost =>
      obtain ⟨event, hevent, hok⟩ := hpost
      exact hnone thread event (by simp [hhistory, hevent]) hok

end RmqttThings.Api
