import RmqttThings.Api.Invalidation
import RmqttThings.RuleEngine.Keys

namespace RmqttThings.Api

open Effects RuleEngine
open InMemoryRuleStateStore (stateKey)
open RedisRuleStateStore (dedupKey durationKey dedupTtl)

section Marks

-- The operation that marks the rule and device at this instant.
def CacheType.MarkOp : CacheType → AlarmRule → String → OffsetDateTime → Op → Prop
  | .memory, rule, deviceId, marked, op => op = .dedupInsert (stateKey rule.id deviceId) marked
  | .redis iso, rule, deviceId, marked, op => ∃ text, iso.format marked = .ok text ∧
      op = .redisSet (dedupKey rule.id deviceId) text (dedupTtl rule.throttleMinutes.toInt)

-- The lookup that lets the trigger pass: it found no mark, or one that is old enough.
def CacheType.Passes (rule : AlarmRule) (deviceId : String) (now : OffsetDateTime) :
    CacheType → Event Op.Ans → Prop
  | .memory, event => ∃ found, event = ⟨.dedupGet (stateKey rule.id deviceId), found⟩ ∧
      ∀ last, found = some last → rule.throttleMinutes.toInt ≤ wholeMinutes (now - last)
  | .redis iso, event => ∃ found, event = ⟨.redisGet (dedupKey rule.id deviceId), .ok found⟩ ∧
      ∀ text, found = some text → ∃ last, iso.parse text = .ok last ∧
        rule.throttleMinutes.toInt ≤ wholeMinutes (now - last)

-- What keeps `mark_triggered` from its mark.
def CacheType.Fails : CacheType → Event Op.Ans → Prop
  | .redis _, ⟨.redisConnect, .error _⟩ => True
  | .redis iso, ⟨.nowUtc, now⟩ => ∃ error, iso.format now = .error error
  | _, _ => False

variable (cacheType : CacheType) (rule : AlarmRule) (deviceId : String)

def Passed (past : Past) : Prop :=
  ∃ look now rest, past = look :: rest ∧ ⟨.nowUtc, now⟩ ∈ rest ∧
    cacheType.Passes rule deviceId now look

-- With a throttle, a mark stands behind its check: the clock was read, and the lookup
-- that followed let the trigger pass.
def Checked (marked : OffsetDateTime) (past : Past) : Prop :=
  ∃ gap look now rest, past = ⟨.nowUtc, marked⟩ :: (gap ++ look :: rest) ∧
    (∀ event ∈ gap, event.1 = .redisConnect) ∧ ⟨.nowUtc, now⟩ ∈ rest ∧
      cacheType.Passes rule deviceId now look

-- The evaluation has loaded these rules.
def Loaded (productId : String) (rules : List AlarmRule) (past : Past) : Prop :=
  ∃ event ∈ past, Loads productId rules event

def Marking (ctx : TriggerContext) (past : Past) (op : Op) : Prop :=
  ∃ rules, ∃ rule ∈ rules, ∃ marked, Loaded ctx.productId rules past ∧
    cacheType.MarkOp rule ctx.deviceId marked op ∧ past.head? = some ⟨.nowUtc, marked⟩ ∧
    (0 < rule.throttleMinutes.toInt → Checked cacheType rule ctx.deviceId marked past)

def BehindMark (past : Past) : Prop :=
  ∃ event rest, past = event :: rest ∧ (cacheType.Fails event ∨
    ∃ marked, cacheType.MarkOp rule deviceId marked event.1)

-- How an evaluation may use the marks. An alarm is inserted right behind a mark.
def MarkRule (ctx : TriggerContext) (past : Past) : Op → Prop
  | .dedupInsert key marked => Marking cacheType ctx past (.dedupInsert key marked)
  | .redisSet key text ttlSecs => (∃ ruleId deviceId, key = durationKey ruleId deviceId) ∨
      Marking cacheType ctx past (.redisSet key text ttlSecs)
  | .sql (.insertAlarm alarm) => ∃ rule : AlarmRule, rule.id = alarm.ruleId ∧
      BehindMark cacheType rule alarm.deviceId past
  | .sql stmt => stmt.writes ≠ some .rules
  | _ => True

-- Operations that this does not restrict.
def Unmarking : Op → Prop
  | .dedupInsert _ _ | .sql (.insertAlarm _) => False
  | .redisSet key _ _ => ∃ ruleId deviceId, key = durationKey ruleId deviceId
  | .sql stmt => stmt.writes ≠ some .rules
  | _ => True

end Marks

section Spec

variable {cacheType : CacheType} {ctx : TriggerContext} {rules : List AlarmRule} {past : Past}

theorem Loaded.cons (h : Loaded ctx.productId rules past) (event : Event Op.Ans) :
    Loaded ctx.productId rules (event :: past) := by
  obtain ⟨found, hmem, hloads⟩ := h
  exact ⟨found, List.mem_cons_of_mem _ hmem, hloads⟩

theorem markRule_of_unmarking {op : Op} (h : Unmarking op) : MarkRule cacheType ctx past op := by
  cases op with
  | sql stmt => cases stmt <;> first | exact h | exact h.elim
  | dedupInsert _ _ => exact h.elim
  | redisSet _ _ _ => exact .inl h
  | _ => trivial

theorem markRule_of_marking {op : Op} (h : Marking cacheType ctx past op) :
    MarkRule cacheType ctx past op := by
  obtain ⟨rules, rule, hrule, marked, hloaded, hop, hrest⟩ := h
  cases cacheType with
  | memory =>
      obtain rfl : op = _ := hop
      exact ⟨rules, rule, hrule, marked, hloaded, rfl, hrest⟩
  | redis iso =>
      obtain ⟨text, hformat, rfl⟩ := hop
      exact .inr ⟨rules, rule, hrule, marked, hloaded, ⟨text, hformat, rfl⟩, hrest⟩

abbrev MarkSpec {α : Type} (cacheType : CacheType) (ctx : TriggerContext) (rules : List AlarmRule)
    (program : M α) (past : Past) : Prop :=
  Prog.Spec (MarkRule cacheType ctx) (fun _ past => Loaded ctx.productId rules past) program past

theorem spec_of_unmarking {α : Type} {program : M α} (h : program.Uses Unmarking)
    (hloaded : Loaded ctx.productId rules past) : MarkSpec cacheType ctx rules program past :=
  h.spec _ (fun _ _ hop _ => markRule_of_unmarking hop) (fun _ _ _ _ hinv => hinv.cons _) hloaded

theorem unmarking_of_reports {op : Op} (h : op.Reports) : Unmarking op := by
  unfold Op.Reports at h
  split at h <;> first | exact h.elim | simp [Unmarking, Sql.writes]

variable (repo : AlarmRepo) (map : Nat) {rule : AlarmRule}

-- A check that does not skip has looked and let the trigger pass.
theorem spec_checkDedup {now : OffsetDateTime} (hnow : ⟨.nowUtc, now⟩ ∈ past)
    (hloaded : Loaded ctx.productId rules past) :
    Prog.Spec (MarkRule cacheType ctx)
      (fun skip past => Loaded ctx.productId rules past ∧
        (skip = false → 0 < rule.throttleMinutes.toInt → Passed cacheType rule ctx.deviceId past))
      (cacheType.stateStore.checkDedup rule.id ctx.deviceId rule.throttleMinutes.toInt now)
        past := by
  cases cacheType with
  | memory =>
      simp only [CacheType.stateStore, InMemoryRuleStateStore.store_checkDedup,
        InMemoryRuleStateStore.checkDedup]
      split_ifs with hpos
      · exact ⟨hloaded, fun _ h => absurd hpos (not_le.mpr h)⟩
      · refine ⟨trivial, fun found => ?_⟩
        cases found with
        | none => exact ⟨hloaded.cons _, fun _ _ => ⟨_, now, past, rfl, hnow, none, rfl, by simp⟩⟩
        | some last =>
            refine ⟨hloaded.cons _, fun hskip _ => ⟨_, now, past, rfl, hnow, some last, rfl,
              fun other he => ?_⟩⟩
            obtain rfl := Option.some.inj he
            simpa using hskip
  | redis iso =>
      simp only [CacheType.stateStore, RedisRuleStateStore.store_checkDedup,
        RedisRuleStateStore.checkDedup]
      split_ifs with hpos
      · exact ⟨hloaded, fun _ h => absurd hpos (not_le.mpr h)⟩
      · refine ⟨trivial, fun connected => ?_⟩
        have hconnected := hloaded.cons ⟨.redisConnect, connected⟩
        cases connected with
        | error _ => exact ⟨hconnected, by simp⟩
        | ok _ =>
            refine ⟨trivial, fun found => ?_⟩
            have hlooked := hconnected.cons ⟨.redisGet (dedupKey rule.id ctx.deviceId), found⟩
            have hread : (⟨.nowUtc, now⟩ : Event Op.Ans) ∈ ⟨.redisConnect, .ok ()⟩ :: past :=
              List.mem_cons_of_mem _ hnow
            rcases found with error | _ | text
            · exact ⟨hlooked, by simp⟩
            · exact ⟨hlooked, fun _ _ => ⟨_, now, _, rfl, hread, none, rfl, by simp⟩⟩
            · simp only [Prog.pure_eq, Prog.ret_bind]
              split
              · exact ⟨hlooked, by simp⟩
              · rename_i last hparse
                refine ⟨hlooked, fun hskip _ => ⟨_, now, _, rfl, hread, some text, rfl,
                  fun other he => ?_⟩⟩
                obtain rfl := Option.some.inj he
                exact ⟨last, hparse, by simpa using hskip⟩

theorem spec_markTriggered (hrule : rule ∈ rules) (hloaded : Loaded ctx.productId rules past)
    (hpassed : 0 < rule.throttleMinutes.toInt → Passed cacheType rule ctx.deviceId past) :
    Prog.Spec (MarkRule cacheType ctx)
      (fun _ past => Loaded ctx.productId rules past ∧ BehindMark cacheType rule ctx.deviceId past)
      (cacheType.stateStore.markTriggered rule.id ctx.deviceId rule.throttleMinutes.toInt)
        past := by
  cases cacheType with
  | memory =>
      refine ⟨trivial, fun marked =>
        ⟨markRule_of_marking ⟨rules, rule, hrule, marked, hloaded.cons _, rfl, rfl,
        fun hpos => ?_⟩, fun _ => ⟨(hloaded.cons _).cons _, _, _, rfl, .inr ⟨marked, rfl⟩⟩⟩⟩
      obtain ⟨look, now, rest, rfl, hnow, hpasses⟩ := hpassed hpos
      exact ⟨[], look, now, rest, rfl, by simp, hnow, hpasses⟩
  | redis iso =>
      refine ⟨trivial, fun connected => ?_⟩
      cases connected with
      | error _ => exact ⟨hloaded.cons _, _, _, rfl, .inl trivial⟩
      | ok _ =>
          refine ⟨trivial, fun marked => ?_⟩
          have hread := (hloaded.cons ⟨.redisConnect, .ok ()⟩).cons ⟨.nowUtc, marked⟩
          simp only [Prog.pure_eq, Prog.ret_bind]
          split
          · rename_i error hformat
            exact ⟨hread, _, _, rfl, .inl ⟨error, hformat⟩⟩
          · rename_i text hformat
            refine ⟨markRule_of_marking ⟨rules, rule, hrule, marked, hread, ⟨text, hformat, rfl⟩,
              rfl, fun hpos => ?_⟩, fun stored => ?_⟩
            · obtain ⟨look, now, rest, rfl, hnow, hpasses⟩ := hpassed hpos
              exact ⟨[⟨.redisConnect, .ok ()⟩], look, now, rest, rfl, by simp, hnow, hpasses⟩
            · have hbehind : BehindMark (.redis iso) rule ctx.deviceId
                  (⟨.redisSet (dedupKey rule.id ctx.deviceId) text
                    (dedupTtl rule.throttleMinutes.toInt), stored⟩ ::
                    ⟨.nowUtc, marked⟩ :: ⟨.redisConnect, .ok ()⟩ :: past) :=
                ⟨_, _, rfl, .inr ⟨marked, text, hformat, rfl⟩⟩
              cases stored <;> exact ⟨hread.cons _, hbehind⟩

theorem spec_executeActions (actions : List Json) (hloaded : Loaded ctx.productId rules past)
    (hbehind : BehindMark cacheType rule ctx.deviceId past) :
    MarkSpec cacheType ctx rules (executeActions repo actions ctx rule.id rule.name) past := by
  refine ⟨⟨rule, rfl, hbehind⟩, fun inserted => ?_⟩
  have hinserted := hloaded.cons
    ⟨.sql (.insertAlarm (newAlarm (parseActions actions) ctx rule.id rule.name)), inserted⟩
  cases inserted with
  | error _ => exact hinserted
  | ok alarmId =>
      simp only [Prog.pure_eq, Prog.ret_bind]
      split_ifs
      · exact hinserted
      · refine spec_of_unmarking (Prog.Uses.bind ?_ fun failed => Prog.Uses.bind ?_ fun _ =>
          trivial) hinserted
        · exact (reports_sendWebhooks _ _ _).mono fun _ => unmarking_of_reports
        · exact (reports_recordWebhooks repo alarmId failed).mono fun _ => unmarking_of_reports

theorem spec_fire (hrule : rule ∈ rules) (hloaded : Loaded ctx.productId rules past) :
    MarkSpec cacheType ctx rules (fire repo nowUtc ctx ⟨map, cacheType.stateStore⟩ rule) past := by
  refine ⟨trivial, fun now => ?_⟩
  simp only [Prog.bind_eq, Prog.pure_eq, Prog.ret_bind]
  refine Prog.Spec.seq (spec_checkDedup List.mem_cons_self (hloaded.cons _)) ?_
  rintro skip past ⟨hloaded, hpassed⟩
  cases skip with
  | true => exact hloaded
  | false =>
      refine Prog.Spec.seq (spec_markTriggered hrule hloaded (hpassed rfl)) ?_
      rintro _ past ⟨hloaded, hbehind⟩
      exact Prog.Spec.seq (spec_executeActions repo _ hloaded hbehind) fun _ _ h => h

theorem unmarking_checkDuration (duration : Int32) (now : OffsetDateTime) :
    (cacheType.stateStore.checkDuration rule.id ctx.deviceId duration now).Uses Unmarking := by
  cases cacheType with
  | memory =>
      refine (InMemoryRuleStateStore.ops_checkDuration rule.id ctx.deviceId duration now).mono ?_
      rintro _ (rfl | rfl) <;> trivial
  | redis iso =>
      refine (RedisRuleStateStore.ops_checkDuration iso rule.id ctx.deviceId duration now).mono ?_
      rintro _ (rfl | rfl | ⟨text, -, rfl⟩)
      · trivial
      · trivial
      · exact ⟨_, _, rfl⟩

theorem unmarking_resetTracking :
    (resetTracking ctx ⟨map, cacheType.stateStore⟩ rule).Uses Unmarking := by
  refine uses_resetTracking ctx rule ?_
  cases cacheType with
  | memory => exact ⟨trivial, fun _ => trivial⟩
  | redis iso =>
      refine (RedisRuleStateStore.ops_resetDuration rule.id ctx.deviceId).mono ?_
      rintro _ (rfl | rfl) <;> trivial

theorem spec_evaluateRule (hrule : rule ∈ rules) (hloaded : Loaded ctx.productId rules past) :
    MarkSpec cacheType ctx rules (evaluateRule repo nowUtc ctx ⟨map, cacheType.stateStore⟩ rule)
      past := by
  unfold evaluateRule
  split
  · exact hloaded
  · split_ifs
    · have hsustained : (sustained nowUtc ctx ⟨map, cacheType.stateStore⟩ rule).Uses Unmarking :=
        uses_sustained ctx rule trivial fun now => unmarking_checkDuration _ now
      refine Prog.Spec.seq (spec_of_unmarking hsustained hloaded) fun holds past hpast => ?_
      cases holds with
      | false => exact hpast
      | true => exact spec_fire repo map hrule hpast
    · exact spec_of_unmarking (unmarking_resetTracking map) hloaded
    · exact hloaded

theorem spec_evaluateRules (hloaded : Loaded ctx.productId rules past) :
    MarkSpec cacheType ctx rules (evaluateRules repo nowUtc ctx ⟨map, cacheType.stateStore⟩ rules)
      past := by
  refine Prog.Spec.seq (Prog.spec_forEach rules _ (fun rule hrule past hpast =>
    spec_evaluateRule repo map hrule hpast) past hloaded) fun _ past hpast => ?_
  split_ifs
  · refine spec_of_unmarking (Prog.Uses.forEach fun rule _ => ?_) hpast
    exact uses_clearRule ctx rule (by simp [Unmarking, Sql.writes])
      (by simp [Unmarking, Sql.writes]) (unmarking_resetTracking map)
  · exact hpast

theorem spec_marks (state : ApiState) (ctx : TriggerContext) :
    Prog.Spec (MarkRule state.cacheType ctx) (fun _ _ => True) (serve state (.report ctx)) [] := by
  refine ⟨trivial, fun map => ⟨trivial, fun cached => ?_⟩⟩
  cases cached with
  | some rules =>
      exact Prog.Spec.seq (spec_evaluateRules state.alarm map ⟨_, List.mem_cons_self,
        .inl ⟨map, rfl⟩⟩) fun _ _ _ => trivial
  | none =>
      refine ⟨by simp [MarkRule, Sql.writes], fun found => ?_⟩
      cases found with
      | error _ => trivial
      | ok rules =>
          refine ⟨trivial, fun _ => ?_⟩
          have hloaded : Loaded ctx.productId rules
              (⟨.mapInsert map ctx.productId rules, ()⟩ ::
                [⟨.sql (.queryEnabledRulesByProduct ctx.productId), .ok rules⟩,
                  ⟨.mapGet map ctx.productId, none⟩, ⟨.mapClone 0, map⟩]) :=
            ⟨_, List.mem_cons_of_mem _ List.mem_cons_self, .inr rfl⟩
          exact Prog.Spec.seq (spec_evaluateRules state.alarm map hloaded) fun _ _ _ => trivial

end Spec

end RmqttThings.Api
