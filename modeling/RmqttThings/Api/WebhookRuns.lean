import RmqttThings.Api.SharedRules
import RmqttThings.RuleEngine.RetryColumns

namespace RmqttThings.Api

open Effects RuleEngine

-- The tasks around the webhooks of an alarm: the actions of a rule that fires, one
-- iteration of the retry loop, and the edits of the rules in between.
inductive Job where
  | executeActions (actions : List Json) (ctx : TriggerContext) (ruleId : Int) (ruleName : String)
  | webhookRetry
  | updateAlarmRule (id : Int) (req : UpdateAlarmRuleRequest)
  | deleteAlarmRule (id : Int)

def work (state : ApiState) : Job → M Unit
  | .executeActions actions ctx ruleId ruleName => do
      let _ ← executeActions state.alarm actions ctx ruleId ruleName
      return ()
  | .webhookRetry => webhookRetryTick state.alarm
  | .updateAlarmRule id req => do
      let _ ← updateAlarmRule state id req
      return ()
  | .deleteAlarmRule id => do
      let _ ← deleteAlarmRule state id
      return ()

abbrev webhookRun (state : ApiState) (moves : List (Move Job)) (start : World) :
    Pool World Job Op.Ans Unit :=
  Pool.play sem (work state) moves start

section Events

def IsPost (event : Event Op.Ans) : Prop := ∃ url payload, event.1 = .sendWebhook url payload

def PostOk (url : String) (event : Event Op.Ans) : Prop :=
  ∃ payload, event = ⟨.sendWebhook url payload, .ok ()⟩

def PostFailed (event : Event Op.Ans) : Prop :=
  ∃ url payload error, event = ⟨.sendWebhook url payload, .error error⟩

-- The webhook of a post and whether it was answered with a 2xx.
def postResult : Event Op.Ans → Option (String × Bool)
  | ⟨.sendWebhook url _, .ok _⟩ => some (url, true)
  | ⟨.sendWebhook url _, .error _⟩ => some (url, false)
  | _ => none

theorem postOk_iff {url : String} {event : Event Op.Ans} :
    PostOk url event ↔ postResult event = some (url, true) := by
  constructor
  · rintro ⟨payload, rfl⟩
    rfl
  · intro h
    unfold postResult at h
    split at h
    · cases h
      exact ⟨_, rfl⟩
    · cases h
    · cases h

theorem postFailed_iff {event : Event Op.Ans} :
    PostFailed event ↔ (postResult event).any (fun result => !result.2) = true := by
  constructor
  · rintro ⟨url, payload, error, rfl⟩
    rfl
  · intro h
    unfold postResult at h
    split at h
    · cases h
    · exact ⟨_, _, _, rfl⟩
    · cases h

instance (url : String) (event : Event Op.Ans) : Decidable (PostOk url event) :=
  decidable_of_iff _ postOk_iff.symm

instance (event : Event Op.Ans) : Decidable (PostFailed event) :=
  decidable_of_iff _ postFailed_iff.symm

def sqlFailed : Event Op.Ans → Bool
  | ⟨.sql _, .error _⟩ => true
  | _ => false

-- The alarm that an event inserts.
def insertedAlarm : Event Op.Ans → Option Int
  | ⟨.sql (.insertAlarm _), .ok id⟩ => some id
  | _ => none

def Inserted (id : Int) (past : Past) : Prop :=
  ∃ alarm, (⟨.sql (.insertAlarm alarm), .ok id⟩ : Event Op.Ans) ∈ past

theorem inserted_of_mem {id : Int} {past : Past} (h : some id ∈ past.map insertedAlarm) :
    Inserted id past := by
  obtain ⟨event, hmem, he⟩ := List.mem_map.mp h
  unfold insertedAlarm at he
  split at he
  · cases he
    exact ⟨_, hmem⟩
  · cases he

-- The webhooks that a retry finds in the rule; a rule that is gone has none.
def listedUrls (found : Option Json) : List String :=
  (found.map fun actions => webhookUrls (actions.asArray.getD [])).getD []

-- The last thing was a complete delivery to the webhooks that the rule listed.
def Redelivered (past : Past) : Prop :=
  ∃ posts ruleId found earlier, past = posts ++ ⟨.sql (.getRuleActions ruleId), .ok found⟩ ::
    earlier ∧
    (∀ event ∈ posts, IsPost event) ∧ ∀ url ∈ listedUrls found, ∃ event ∈ posts, PostOk url event

-- Every counter that was taken to zero has been followed by the terminal mark.
def Closed (past : Past) : Prop :=
  ∀ later id secs left earlier, past = later ++ ⟨.sql (.decrementRetryAndScheduleNext id secs),
    .ok (some left)⟩ :: earlier →
    left.toInt ≤ 0 → ∃ answer, (⟨.sql (.markWebhookFinalFailure id), answer⟩ : Event Op.Ans) ∈ later

-- Who writes the retry columns, and after what.
def WebhookRule (state : ApiState) (job : Job) (past : Past) : Op → Prop
  | .sql (.updateAlarmWebhookStatus id status) => status = 0 ∧ Inserted id past ∧
      ∃ actions ctx ruleId ruleName, job = .executeActions actions ctx ruleId ruleName ∧
        ∀ url ∈ webhookUrls actions, ∃ event ∈ past, PostOk url event
  | .sql (.updateAlarmWebhookStatusWithRetry id status left nextRetryAt) =>
      status = 1 ∧ Inserted id past ∧
      left = state.alarm.webhookMaxRetries ∧ nextRetryAt.isSome ∧
      (∃ actions ctx ruleId ruleName, job = .executeActions actions ctx ruleId ruleName) ∧
      ∃ event ∈ past, PostFailed event
  | .sql (.decrementRetryAndScheduleNext _ _) | .sql (.markWebhookFinalFailure _) =>
      job = .webhookRetry
  | .sql (.markWebhookSuccess _) => job = .webhookRetry ∧ Redelivered past
  | _ => True

def WebhookDone : Job → Unit → Past → Prop
  | .webhookRetry, _, past => Closed past
  | _, _, _ => True

end Events

section Closed

variable {past : Past}

theorem closed_nil : Closed [] := by
  intro later id secs left earlier he
  simp at he

theorem Closed.cons (h : Closed past) (event : Event Op.Ans)
    (hevent : ∀ id secs left, event = ⟨.sql (.decrementRetryAndScheduleNext id secs),
      .ok (some left)⟩ → 0 < left.toInt) : Closed (event :: past) := by
  intro later id secs left earlier he hleft
  cases later with
  | nil =>
      simp only [List.nil_append, List.cons.injEq] at he
      have hpos := hevent id secs left he.1
      omega
  | cons first later =>
      simp only [List.cons_append, List.cons.injEq] at he
      obtain ⟨answer, hmem⟩ := h later id secs left earlier he.2 hleft
      exact ⟨answer, List.mem_cons_of_mem _ hmem⟩

theorem Closed.posts (h : Closed past) {posts : Past} (hposts : ∀ event ∈ posts, IsPost event) :
    Closed (posts ++ past) := by
  induction posts with
  | nil => exact h
  | cons event posts ih =>
      refine (ih fun other hother => hposts other (List.mem_cons_of_mem _ hother)).cons _ ?_
      rintro id secs left rfl
      obtain ⟨url, payload, he⟩ := hposts _ List.mem_cons_self
      cases he

theorem Closed.marked (h : Closed past) {id : Int} {event : Event Op.Ans}
    (hevent : ∀ other secs left, event = ⟨.sql (.decrementRetryAndScheduleNext other secs),
      .ok (some left)⟩ → other = id)
    (answer : (Op.sql (.markWebhookFinalFailure id)).Ans) :
    Closed (⟨.sql (.markWebhookFinalFailure id), answer⟩ :: event :: past) := by
  intro later other secs left earlier he hleft
  rcases later with _ | ⟨first, _ | ⟨second, later⟩⟩
  · simp at he
  · simp only [List.cons_append, List.nil_append, List.cons.injEq] at he
    obtain rfl := hevent other secs left he.2.1
    exact ⟨answer, by simp [he.1]⟩
  · simp only [List.cons_append, List.cons.injEq] at he
    obtain ⟨mark, hmem⟩ := h later other secs left earlier he.2.2 hleft
    exact ⟨mark, by simp [hmem]⟩

end Closed

section Spec

variable (state : ApiState) {job : Job} {past : Past}

-- Every webhook is posted to; the answer tells whether one of them failed.
theorem spec_sendWebhooks (payload : Json) (urls : List String) (anyFailed : Bool) :
    Prog.Spec (WebhookRule state job) (fun failed past' => past <:+ past' ∧
      (failed = false → anyFailed = false ∧ ∀ url ∈ urls, ∃ event ∈ past', PostOk url event) ∧
      (failed = true → anyFailed = true ∨ ∃ event ∈ past', PostFailed event))
      (sendWebhooks payload urls anyFailed) past := by
  induction urls generalizing anyFailed past with
  | nil => exact ⟨List.suffix_rfl, by simp, .inl⟩
  | cons url urls ih =>
      refine ⟨trivial, fun sent => ?_⟩
      cases sent with
      | ok _ =>
          refine Prog.Spec.mono (ih anyFailed) ?_
          rintro failed past' ⟨hsuffix, hok, hfailed⟩
          refine ⟨(List.suffix_cons _ _).trans hsuffix,
            fun he => ⟨(hok he).1, fun other hother => ?_⟩, hfailed⟩
          rcases List.mem_cons.mp hother with rfl | hother
          · exact ⟨_, hsuffix.subset List.mem_cons_self, payload, rfl⟩
          · exact (hok he).2 other hother
      | error e =>
          refine Prog.Spec.mono (ih true) ?_
          rintro failed past' ⟨hsuffix, hok, -⟩
          refine ⟨(List.suffix_cons _ _).trans hsuffix, fun he => absurd (hok he).1 (by simp),
            fun _ => .inr ?_⟩
          exact ⟨_, hsuffix.subset List.mem_cons_self, url, payload, e, rfl⟩

theorem Inserted.mono {id : Int} {past' : Past} (h : Inserted id past) (hsuffix : past <:+ past') :
    Inserted id past' := by
  obtain ⟨alarm, hmem⟩ := h
  exact ⟨alarm, hsuffix.subset hmem⟩

theorem spec_executeActions_webhooks (actions : List Json) (ctx : TriggerContext) (ruleId : Int)
    (ruleName : String) (hjob : job = .executeActions actions ctx ruleId ruleName) :
    Prog.Spec (WebhookRule state job) (fun _ _ => True)
      (executeActions state.alarm actions ctx ruleId ruleName) past := by
  refine ⟨trivial, fun inserted => ?_⟩
  cases inserted with
  | error _ => trivial
  | ok alarmId =>
      have hinserted : Inserted alarmId
          (⟨.sql (.insertAlarm (newAlarm (parseActions actions) ctx ruleId ruleName)),
          .ok alarmId⟩ :: past) := ⟨_, List.mem_cons_self⟩
      simp only [Prog.bind_eq, Prog.pure_eq, Prog.ret_bind]
      split
      · trivial
      · apply Prog.Spec.seq (spec_sendWebhooks state _ _ false)
        rintro failed past' ⟨hsuffix, hok, hfailed⟩
        have hmine := hinserted.mono hsuffix
        cases failed with
        | true =>
            obtain ⟨event, hevent, hpost⟩ := (hfailed rfl).resolve_left (by simp)
            refine ⟨trivial, fun now => ⟨⟨rfl, hmine.mono (List.suffix_cons _ _), rfl, rfl,
              ⟨_, _, _, _, hjob⟩, event, List.mem_cons_of_mem _ hevent, hpost⟩, fun _ => trivial⟩⟩
        | false => exact ⟨⟨rfl, hmine, _, _, _, _, hjob, (hok rfl).2⟩, fun _ => trivial⟩

-- A retry that succeeds has posted to every webhook it was given.
theorem spec_resendWebhooks (payload : Json) (urls : List String) :
    Prog.Spec (WebhookRule state job) (fun result past' => ∃ posts, past' = posts ++ past ∧
      (∀ event ∈ posts, IsPost event) ∧ (result = .ok () → ∀ url ∈ urls, ∃ event ∈ posts,
        PostOk url event))
      (resendWebhooks payload urls) past := by
  induction urls generalizing past with
  | nil => exact ⟨[], rfl, by simp, by simp⟩
  | cons url urls ih =>
      refine ⟨trivial, fun sent => ?_⟩
      cases sent with
      | ok _ =>
          refine Prog.Spec.mono ih ?_
          rintro result past' ⟨posts, rfl, hposts, hok⟩
          refine ⟨posts ++ [⟨.sendWebhook url payload, .ok ()⟩], by simp, ?_,
            fun he other hother => ?_⟩
          · intro event hevent
            rcases List.mem_append.mp hevent with hevent | hevent
            · exact hposts event hevent
            · exact ⟨url, payload, by rw [List.mem_singleton.mp hevent]⟩
          · rcases List.mem_cons.mp hother with rfl | hother
            · exact ⟨_, List.mem_append_right _ List.mem_cons_self, payload, rfl⟩
            · obtain ⟨event, hevent, hpost⟩ := hok he other hother
              exact ⟨event, List.mem_append_left _ hevent, hpost⟩
      | error e =>
          refine ⟨[⟨.sendWebhook url payload, .error e⟩], rfl, ?_, by simp⟩
          intro event hevent
          exact ⟨url, payload, by rw [List.mem_singleton.mp hevent]⟩

theorem spec_retrySingleWebhook (alarm : AlarmRecord) (hclosed : Closed past) :
    Prog.Spec (WebhookRule state job) (fun result past' => Closed past' ∧
      (result = .ok () → Redelivered past')) (retrySingleWebhook alarm) past := by
  refine ⟨trivial, fun found => ?_⟩
  have hread := hclosed.cons ⟨.sql (.getRuleActions alarm.ruleId), found⟩ (by rintro _ _ _ ⟨⟩)
  rcases found with e | _ | actions
  · exact ⟨hread, by simp⟩
  · exact ⟨hread, fun _ => ⟨[], _, none, past, rfl, by simp, by simp [listedUrls]⟩⟩
  · simp only [Prog.pure_eq, Prog.ret_bind]
    split
    · rename_i hempty
      refine ⟨hread, fun _ => ⟨[], _, some actions, past, rfl, by simp, ?_⟩⟩
      have hnone : listedUrls (some actions) = [] := by simpa [listedUrls] using hempty
      simp [hnone]
    · refine Prog.Spec.mono (spec_resendWebhooks state _ _) ?_
      rintro result past' ⟨posts, rfl, hposts, hok⟩
      refine ⟨hread.posts hposts, fun he => ⟨posts, _, some actions, past, rfl, hposts, ?_⟩⟩
      exact fun url hurl => hok he url (by simpa [listedUrls] using hurl)

theorem spec_recordRetry (alarmId : Int) (result : Except String Unit) (hjob : job = .webhookRetry)
    (hclosed : Closed past) (hok : result = .ok () → Redelivered past) :
    Prog.Spec (WebhookRule state job) (fun _ past' => Closed past')
      (recordRetry state.alarm alarmId result) past := by
  cases result with
  | ok _ => exact ⟨⟨hjob, hok rfl⟩, fun _ => hclosed.cons _ (by rintro _ _ _ ⟨⟩)⟩
  | error e =>
      refine ⟨hjob, fun answer => ?_⟩
      rcases answer with e | _ | remaining
      · exact hclosed.cons _ (by rintro _ _ _ ⟨⟩)
      · exact hclosed.cons _ (by rintro _ _ _ ⟨⟩)
      · simp only [Prog.pure_eq, Prog.ret_bind]
        split_ifs with hremaining
        · exact ⟨hjob, fun mark => hclosed.marked (by rintro _ _ _ ⟨⟩; rfl) mark⟩
        · refine hclosed.cons _ ?_
          rintro _ _ _ ⟨⟩
          omega

theorem spec_webhookRetryTick (hjob : job = .webhookRetry) :
    Prog.Spec (WebhookRule state job) (fun _ past' => Closed past') (webhookRetryTick state.alarm)
      [] := by
  refine ⟨trivial, fun pending => ?_⟩
  have hread := closed_nil.cons ⟨.sql .queryPendingRetries, pending⟩ (by rintro _ _ _ ⟨⟩)
  cases pending with
  | error e => exact hread
  | ok pending =>
      refine Prog.spec_forEach pending _ (fun alarm _ past hclosed => ?_) _ hread
      apply Prog.Spec.seq (spec_retrySingleWebhook state alarm hclosed)
      rintro result past' ⟨hclosed, hok⟩
      exact spec_recordRetry state alarm.id result hjob hclosed hok

section Admin

-- The handlers of the rules leave the alarms alone.
def KeepsAlarms (op : Op) : Prop := op.writes ≠ some .alarms

theorem keepsAlarms_invalidateProduct (productId : String) :
    (state.ruleCache.invalidateProduct productId).Uses KeepsAlarms := by
  refine uses_invalidateProduct state.cacheType _ productId nofun nofun fun op hop => ?_
  cases op <;> first | exact hop.elim | exact nofun

theorem keepsAlarms_updateAlarmRule (id : Int) (req : UpdateAlarmRuleRequest) :
    (updateAlarmRule state id req).Uses KeepsAlarms := by
  unfold updateAlarmRule
  split_ifs
  · trivial
  · refine ⟨nofun, fun found => ?_⟩
    rcases found with e | _ | existing
    · trivial
    · trivial
    · simp only [Prog.pure_eq, Prog.ret_bind]
      split
      · trivial
      · refine ⟨nofun, fun written => ?_⟩
        rcases written with e | _ | affected
        · trivial
        · trivial
        · refine ⟨nofun, fun found => ?_⟩
          rcases found with e | _ | updated
          · trivial
          · trivial
          · exact (keepsAlarms_invalidateProduct state _).bind fun _ => trivial

theorem keepsAlarms_deleteAlarmRule (id : Int) : (deleteAlarmRule state id).Uses KeepsAlarms := by
  refine ⟨nofun, fun found => ?_⟩
  rcases found with e | _ | existing
  · trivial
  · trivial
  · refine ⟨nofun, fun deleted => ?_⟩
    rcases deleted with e | _ | affected
    · trivial
    · trivial
    · exact (keepsAlarms_invalidateProduct state _).bind fun _ => trivial

theorem webhookRule_of_keepsAlarms {op : Op} (h : KeepsAlarms op) :
    WebhookRule state job past op := by
  cases op with
  | sql stmt => cases stmt <;> trivial
  | _ => trivial

theorem spec_of_keepsAlarms {α : Type} {program : M α} (h : program.Uses KeepsAlarms) :
    Prog.Spec (WebhookRule state job) (fun _ _ => True) program past :=
  h.spec (fun _ => True) (fun _ _ hop _ => webhookRule_of_keepsAlarms state hop)
    (fun _ _ _ _ _ => trivial) trivial

end Admin

theorem spec_work (job : Job) :
    Prog.Spec (WebhookRule state job) (WebhookDone job) (work state job) [] := by
  cases job with
  | executeActions actions ctx ruleId ruleName =>
      exact Prog.Spec.seq (spec_executeActions_webhooks state actions ctx ruleId ruleName rfl)
        fun _ _ _ => trivial
  | webhookRetry => exact spec_webhookRetryTick state rfl
  | updateAlarmRule id req =>
      exact Prog.Spec.seq (spec_of_keepsAlarms state (keepsAlarms_updateAlarmRule state id req))
        fun _ _ _ => trivial
  | deleteAlarmRule id =>
      exact Prog.Spec.seq (spec_of_keepsAlarms state (keepsAlarms_deleteAlarmRule state id))
        fun _ _ _ => trivial

end Spec

section Log

variable {start : World}

theorem fresh_stateAt (hfresh : start.Fresh) (log : Log) : (stateAt start log).Fresh := by
  induction log with
  | nil => exact hfresh
  | cons entry log ih => exact ih.step entry.2.1

-- A part of the retry columns is as the last event that bears on it has left it.
theorem last_event {β : Type} (hfresh : start.Fresh) {log : Log}
    (hanswered : Pool.Answered sem start log) (id : Int) (bears : Event Op.Ans → Prop)
    (part : Option RetryColumns → β)
    (hframe : ∀ w : World, w.Fresh → ∀ op, ¬bears ⟨op, (sem op w).1⟩ →
      part (retryAt (sem op w).2 id) = part (retryAt w id)) :
    ((∀ entry ∈ log, ¬bears entry.2) ∧ part (retryAt (stateAt start log) id) =
      part (retryAt start id)) ∨
      ∃ later thread event earlier, log = later ++ (thread, event) :: earlier ∧ bears event ∧
        (∀ other ∈ later, ¬bears other.2) ∧ event.2 = (sem event.1 (stateAt start earlier)).1 ∧
        part (retryAt (stateAt start log) id) =
          part (retryAt (sem event.1 (stateAt start earlier)).2 id) := by
  have hlast := Pool.replay_last sem start log (fun entry => bears entry.2)
      (fun w => part (retryAt w id)) fun later entry earlier he hbears => by
    have hanswer := hanswered later entry earlier he
    have hevent : entry.2 = ⟨entry.2.1, (sem entry.2.1 (stateAt start earlier)).1⟩ := by
      rw [← hanswer]
    rw [hevent] at hbears
    exact hframe _ (fresh_stateAt hfresh earlier) entry.2.1 hbears
  rcases hlast with hnone | ⟨later, ⟨thread, event⟩, earlier, he, hbears, hlater, hsame⟩
  · exact .inl hnone
  · exact .inr ⟨later, thread, event, earlier, he, hbears, hlater, hanswered later _ earlier he,
      hsame⟩

theorem retryAt_stays (hfresh : start.Fresh) (later earlier : Log) {id : Int}
    (h : retryAt (stateAt start earlier) id ≠ none) :
    retryAt (stateAt start (later ++ earlier)) id ≠ none := by
  induction later with
  | nil => exact h
  | cons entry later ih =>
      obtain ⟨columns, hcolumns⟩ := Option.ne_none_iff_exists'.mp ih
      have hstep := retryAt_step (fresh_stateAt hfresh _) entry.2.1 hcolumns
      exact Option.ne_none_iff_exists'.mpr ⟨_, hstep⟩

-- An insert that answers `id` is the first one to do so.
theorem inserted_once (hfresh : start.Fresh) {log : Log} (hanswered : Pool.Answered sem start log)
    {id : Int} {first second : Nat} (hfirst : Inserted id (Pool.history first log))
    (hsecond : Inserted id (Pool.history second log)) : first = second := by
  have hsplit : ∀ later thread earlier alarm other alarm',
      log = later ++ (thread, ⟨.sql (.insertAlarm alarm), .ok id⟩) :: earlier →
      ((other, ⟨.sql (.insertAlarm alarm'), .ok id⟩) : Nat × Event Op.Ans) ∉ earlier := by
    intro later thread earlier alarm other alarm' he hmem
    obtain ⟨between, before, rfl⟩ := List.append_of_mem hmem
    have hafter := hanswered later _ _ he
    have hbefore := hanswered (later ++ (thread, ⟨.sql (.insertAlarm alarm), .ok id⟩) :: between)
      (other, ⟨.sql (.insertAlarm alarm'), .ok id⟩) before (by simp [he])
    have hrow := (retryAt_inserted (fresh_stateAt hfresh before) hbefore).2
    have hstays := retryAt_stays hfresh between ((other, ⟨.sql (.insertAlarm alarm'), .ok id⟩) ::
        before)
      (Option.ne_none_iff_exists'.mpr ⟨_, hrow⟩)
    exact not_reinserted (fresh_stateAt hfresh _) hstays alarm hafter
  obtain ⟨alarm, hfirst⟩ := hfirst
  obtain ⟨alarm', hsecond⟩ := hsecond
  obtain ⟨later, earlier, he⟩ := List.append_of_mem (Pool.mem_history.mp hfirst)
  obtain ⟨later', earlier', he'⟩ := List.append_of_mem (Pool.mem_history.mp hsecond)
  rcases Pool.same_or_mem_of_append_eq (he.symm.trans he') with
    ⟨-, hsame, -⟩ | ⟨-, hmem⟩ | ⟨-, hmem⟩
  · exact congrArg Prod.fst hsame
  · exact absurd hmem (hsplit later first earlier alarm second alarm' he)
  · exact absurd hmem (hsplit later' second earlier' alarm' first alarm he')

end Log

-- A rule with one webhook that fires while every post fails, for concrete runs. The
-- first retry is due when four operations are done.
def hookActions : List Json :=
  [.object [("type", .string "webhook"), ("url", .string "https://hook")]]

def hookState (maxRetries : Int16) : ApiState := ⟨⟨maxRetries, 60⟩, .memory, fun _ => none⟩

def hookStart : World :=
  { World.started { Tables.empty with
    rules := [{ onlineRule 1 5 with actions := .array hookActions }] } with
    webhooks := fun _ => some "503 Service Unavailable"
    delays := fun n => if n = 4 then 60 * 1000000000 else 0 }

def hookJob : Job := .executeActions hookActions (online "d") 1 "online"

theorem hookStart_alarms : hookStart.tables.alarms = [] := rfl

theorem hookStart_fresh : hookStart.Fresh :=
  ⟨by simp [hookStart_alarms], by simp [hookStart_alarms]⟩

end RmqttThings.Api
