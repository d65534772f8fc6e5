import RmqttThings.Api.AlarmHandlers
import RmqttThings.RuleEngine.Runs

namespace RmqttThings.Api

open Effects RuleEngine

-- The process has just started: empty maps, and 0 is the map of the shared cache.
structure Booted (w : World) : Prop where
  maps : ∀ map key, w.maps map key = none
  nextMap : 0 < w.nextMap
  dedup : ∀ key, w.dedup key = none
  durationTracking : ∀ key, w.durationTracking key = none

-- Operations on the maps of rules.
def UsesMap : Op → Prop
  | .mapClone _ | .mapGet _ _ | .mapInsert _ _ _ | .mapRemove _ _ => True
  | _ => False

-- What a request may do to the state store: only an evaluation does anything, and that to
-- the entries of its device.
def Owns (request : Request) : Op → Prop
  | .dedupInsert key _ | .durationInsert key _ | .durationRemove key =>
      ∃ ctx ruleId, request = .report ctx ∧
      key = InMemoryRuleStateStore.stateKey ruleId ctx.deviceId
  | .redisSet key _ _ => ∃ ctx ruleId, request = .report ctx ∧
      (key = RedisRuleStateStore.dedupKey ruleId ctx.deviceId ∨
        key = RedisRuleStateStore.durationKey ruleId ctx.deviceId)
  | .redisDel keys => ∃ ctx ruleId, request = .report ctx ∧
      keys = [RedisRuleStateStore.durationKey ruleId ctx.deviceId]
  | .dedupRetain _ | .durationRetain _ => False
  | _ => True

-- How a request may use the maps, given what it has done before: an evaluation
-- works on its own clone, the handlers look at the shared map, and only what they
-- find there makes them drop rules from the state.
def MapRule (request : Request) (past : Past) : Op → Prop
  | .mapClone map => map = 0
  | .mapGet map key =>
      match request with
      | .report ctx => past = [⟨.mapClone 0, map⟩] ∧ key = ctx.productId
      | _ => map = 0
  | .mapInsert map _ _ => (⟨.mapClone 0, map⟩ : Event Op.Ans) ∈ past
  | .mapRemove map _ => map = 0
  | op => Owns request op ∨ ∃ key rules, (⟨.mapGet 0 key, some rules⟩ : Event Op.Ans) ∈ past

section Footprint

variable (cacheType : CacheType) {request : Request} {ctx : TriggerContext}

def Plain (request : Request) (op : Op) : Prop := ¬UsesMap op ∧ Owns request op

theorem plain_sql (stmt : Sql) : Plain request (.sql stmt) := ⟨id, trivial⟩

theorem plain_checkDedup (ruleId throttle : Int) (now : OffsetDateTime) :
    (cacheType.stateStore.checkDedup ruleId ctx.deviceId throttle now).Uses
      (Plain (.report ctx)) := by
  cases cacheType with
  | memory =>
      apply Prog.Uses.mono (InMemoryRuleStateStore.ops_checkDedup ruleId ctx.deviceId throttle now)
      rintro _ rfl
      exact ⟨id, trivial⟩
  | redis iso =>
      apply Prog.Uses.mono (RedisRuleStateStore.ops_checkDedup iso ruleId ctx.deviceId throttle now)
      rintro _ (rfl | rfl) <;> exact ⟨id, trivial⟩

theorem plain_markTriggered (ruleId throttle : Int) :
    (cacheType.stateStore.markTriggered ruleId ctx.deviceId throttle).Uses
      (Plain (.report ctx)) := by
  cases cacheType with
  | memory =>
      apply Prog.Uses.mono (InMemoryRuleStateStore.ops_markTriggered ruleId ctx.deviceId throttle)
      rintro _ (rfl | ⟨now, rfl⟩)
      · exact ⟨id, trivial⟩
      · exact ⟨id, ctx, ruleId, rfl, rfl⟩
  | redis iso =>
      apply Prog.Uses.mono (RedisRuleStateStore.ops_markTriggered iso ruleId ctx.deviceId throttle)
      rintro _ (rfl | rfl | ⟨now, text, -, rfl⟩)
      · exact ⟨id, trivial⟩
      · exact ⟨id, trivial⟩
      · exact ⟨id, ctx, ruleId, rfl, .inl rfl⟩

theorem plain_checkDuration (ruleId : Int) (duration : Int32) (now : OffsetDateTime) :
    (cacheType.stateStore.checkDuration ruleId ctx.deviceId duration now).Uses
      (Plain (.report ctx)) := by
  cases cacheType with
  | memory =>
      apply Prog.Uses.mono (InMemoryRuleStateStore.ops_checkDuration ruleId ctx.deviceId
        duration now)
      rintro _ (rfl | rfl)
      · exact ⟨id, trivial⟩
      · exact ⟨id, ctx, ruleId, rfl, rfl⟩
  | redis iso =>
      apply Prog.Uses.mono (RedisRuleStateStore.ops_checkDuration iso ruleId ctx.deviceId
        duration now)
      rintro _ (rfl | rfl | ⟨text, -, rfl⟩)
      · exact ⟨id, trivial⟩
      · exact ⟨id, trivial⟩
      · exact ⟨id, ctx, ruleId, rfl, .inr rfl⟩

theorem plain_resetDuration (ruleId : Int) :
    (cacheType.stateStore.resetDuration ruleId ctx.deviceId).Uses (Plain (.report ctx)) := by
  cases cacheType with
  | memory =>
      apply Prog.Uses.mono (InMemoryRuleStateStore.ops_resetDuration ruleId ctx.deviceId)
      rintro _ rfl
      exact ⟨id, ctx, ruleId, rfl, rfl⟩
  | redis iso =>
      apply Prog.Uses.mono (RedisRuleStateStore.ops_resetDuration ruleId ctx.deviceId)
      rintro _ (rfl | rfl)
      · exact ⟨id, trivial⟩
      · exact ⟨id, ctx, ruleId, rfl, rfl⟩

theorem plain_evaluateRules (repo : AlarmRepo) (map : Nat) (rules : List AlarmRule) :
    (evaluateRules repo nowUtc ctx ⟨map, cacheType.stateStore⟩ rules).Uses (Plain (.report ctx)) :=
  uses_evaluateRules repo ctx (plain_checkDedup cacheType) (plain_markTriggered cacheType)
    (plain_checkDuration cacheType) (plain_resetDuration cacheType) ⟨id, trivial⟩
    (fun _ => ⟨id, trivial⟩)
    (fun op hop => by
      unfold Op.Reports at hop
      split at hop <;> first | exact ⟨id, trivial⟩ | exact hop.elim)
    (fun _ _ => ⟨id, trivial⟩) (fun _ => ⟨id, trivial⟩) rules

-- What dropping the state of some rules can do.
def Invalidates : Op → Prop
  | .durationRetain _ | .dedupRetain _ | .redisConnect | .redisScan _ | .redisDel _ => True
  | _ => False

theorem invalidates_invalidateByRuleIds (ruleIds : List Int) :
    (cacheType.stateStore.invalidateByRuleIds ruleIds).Uses Invalidates := by
  cases cacheType with
  | memory =>
      simp only [CacheType.stateStore, InMemoryRuleStateStore.store_invalidateByRuleIds,
        InMemoryRuleStateStore.invalidateByRuleIds]
      split_ifs
      · trivial
      · exact ⟨trivial, fun _ => ⟨trivial, fun _ => trivial⟩⟩
  | redis iso =>
      have hpattern (pattern : String) :
          (RedisRuleStateStore.invalidatePattern pattern).Uses Invalidates := by
        refine ⟨trivial, fun found => ?_⟩
        cases found with
        | error _ => trivial
        | ok batches =>
            refine Prog.Uses.forEach fun keys _ => ?_
            split_ifs
            · trivial
            · exact ⟨trivial, fun _ => trivial⟩
      simp only [CacheType.stateStore, RedisRuleStateStore.store_invalidateByRuleIds,
        RedisRuleStateStore.invalidateByRuleIds]
      split_ifs
      · trivial
      · refine ⟨trivial, fun connected => ?_⟩
        cases connected with
        | error _ => trivial
        | ok _ =>
            simp only [Prog.bind_eq, Prog.pure_eq, Prog.ret_bind]
            refine Prog.Uses.bind (Prog.Uses.forEach fun ruleId _ => ?_) fun _ => trivial
            exact (hpattern _).bind fun _ => hpattern _

theorem uses_invalidateProduct {allowed : Op → Prop} (map : Nat) (productId : String)
    (hget : allowed (.mapGet map productId)) (hremove : allowed (.mapRemove map productId))
    (hinvalidates : ∀ op, Invalidates op → allowed op) :
    (RuleCache.invalidateProduct ⟨map, cacheType.stateStore⟩ productId).Uses allowed := by
  refine ⟨hget, fun cached => ⟨hremove, fun _ => ?_⟩⟩
  cases cached with
  | none => trivial
  | some rules =>
      simp only [Prog.pure_eq, Prog.ret_bind]
      split_ifs
      · trivial
      · exact ((invalidates_invalidateByRuleIds cacheType _).mono hinvalidates).bind fun _ =>
          trivial

theorem mapFree_invalidateByRuleIds (ruleIds : List Int) :
    (cacheType.stateStore.invalidateByRuleIds ruleIds).Uses (¬UsesMap ·) :=
  (invalidates_invalidateByRuleIds cacheType ruleIds).mono fun op hop => by
    cases op <;> first | exact hop.elim | exact id

end Footprint

section Spec

variable {request : Request} {past : Past}

theorem mapRule_of_plain {op : Op} (h : Plain request op) : MapRule request past op := by
  cases op <;> first | exact absurd trivial h.1 | exact .inl h.2

abbrev MapSpec {α : Type} (request : Request) (program : M α) (past : Past) : Prop :=
  Prog.Spec (MapRule request) (fun _ _ => True) program past

theorem spec_of_plain {α : Type} {program : M α} (h : program.Uses (Plain request)) :
    MapSpec request program past :=
  h.spec _ (fun _ _ hop _ => mapRule_of_plain hop) (fun _ _ _ _ _ => trivial) trivial

-- An evaluation looks into its clone at once, and fills only that.
theorem spec_report (state : ApiState) (ctx : TriggerContext) :
    MapSpec (.report ctx) (serve state (.report ctx)) [] := by
  refine ⟨rfl, fun map => ⟨⟨rfl, rfl⟩, fun cached => ?_⟩⟩
  cases cached with
  | some rules =>
      exact Prog.Spec.seq
        (spec_of_plain (plain_evaluateRules state.cacheType state.alarm map rules))
        fun _ _ _ => trivial
  | none =>
      refine ⟨.inl trivial, fun found => ?_⟩
      cases found with
      | error _ => trivial
      | ok rules =>
          refine ⟨by simp [MapRule], fun _ => ?_⟩
          exact Prog.Spec.seq
            (spec_of_plain (plain_evaluateRules state.cacheType state.alarm map rules))
            fun _ _ _ => trivial


section Handlers

variable (state : ApiState) (hrequest : ∀ ctx, request ≠ .report ctx)
include hrequest

theorem mapRule_shared (key : String) : MapRule request past (.mapGet 0 key) := by
  cases request with
  | report ctx => exact absurd rfl (hrequest ctx)
  | _ => rfl

-- The state store is asked to drop rules only when the shared map has some.
theorem spec_invalidateProduct (productId : String) :
    MapSpec request (state.ruleCache.invalidateProduct productId) past := by
  refine ⟨mapRule_shared hrequest productId, fun cached => ⟨rfl, fun _ => ?_⟩⟩
  cases cached with
  | none => trivial
  | some rules =>
      simp only [Prog.pure_eq, Prog.ret_bind]
      split_ifs
      · trivial
      · refine Prog.Spec.seq ((mapFree_invalidateByRuleIds state.cacheType _).spec
          (fun past => ∃ key rules, (⟨.mapGet 0 key, some rules⟩ : Event Op.Ans) ∈ past)
          (fun op past hop hinv => ?_) (fun op answer past _ hinv => ?_) ?_) fun _ _ _ => trivial
        · cases op <;> first | exact absurd trivial hop | exact .inr hinv
        · obtain ⟨key, rules, hmem⟩ := hinv
          exact ⟨key, rules, List.mem_cons_of_mem _ hmem⟩
        · exact ⟨productId, rules, by simp⟩

-- The end of every successful handler.
theorem spec_invalidated {α : Type} (productId : String) (value : α) :
    MapSpec request ((state.ruleCache.invalidateProduct productId).bind fun _ => .ret value) past :=
  Prog.Spec.seq (spec_invalidateProduct state hrequest productId) fun _ _ _ => trivial

theorem spec_writeRule (id : Int) (productId : String) (write : M (Except String Nat))
    (hwrite : MapSpec request write past) :
    MapSpec request (writeRule state id productId write) past := by
  refine Prog.Spec.seq hwrite fun written past _ => ?_
  rcases written with e | _ | affected
  · trivial
  · trivial
  · refine ⟨.inl trivial, fun found => ?_⟩
    rcases found with e | _ | updated
    · trivial
    · trivial
    · exact spec_invalidated state hrequest productId _

theorem spec_createAlarmRule (req : CreateAlarmRuleRequest) :
    MapSpec request (createAlarmRule state req) past := by
  unfold createAlarmRule
  split
  · trivial
  · split
    · trivial
    · refine ⟨.inl trivial, fun product => ?_⟩
      rcases product with e | _ | product
      · trivial
      · trivial
      · simp only [Prog.pure_eq, Prog.ret_bind]
        split_ifs
        · trivial
        · trivial
        · refine ⟨.inl trivial, fun created => ?_⟩
          cases created with
          | error _ => trivial
          | ok ruleId =>
              refine ⟨.inl trivial, fun found => ?_⟩
              rcases found with e | _ | rule
              · trivial
              · trivial
              · exact spec_invalidated state hrequest req.productId _

theorem spec_updateAlarmRule (id : Int) (req : UpdateAlarmRuleRequest) :
    MapSpec request (updateAlarmRule state id req) past := by
  unfold updateAlarmRule
  split_ifs
  · trivial
  · refine ⟨.inl trivial, fun found => ?_⟩
    rcases found with e | _ | existing
    · trivial
    · trivial
    · simp only [Prog.pure_eq, Prog.ret_bind]
      split
      · trivial
      · exact spec_writeRule state hrequest id _ _ ⟨.inl trivial, fun _ => trivial⟩

theorem spec_updateAlarmRuleStatus (id : Int) (enabled : Bool) :
    MapSpec request (updateAlarmRuleStatus state id enabled) past := by
  refine ⟨.inl trivial, fun found => ?_⟩
  rcases found with e | _ | existing
  · trivial
  · trivial
  · exact spec_writeRule state hrequest id _ _ ⟨.inl trivial, fun _ => trivial⟩

theorem spec_deleteAlarmRule (id : Int) : MapSpec request (deleteAlarmRule state id) past := by
  refine ⟨.inl trivial, fun found => ?_⟩
  rcases found with e | _ | existing
  · trivial
  · trivial
  · refine ⟨.inl trivial, fun deleted => ?_⟩
    rcases deleted with e | _ | affected
    · trivial
    · trivial
    · exact spec_invalidated state hrequest existing.productId _

end Handlers

theorem uses_moveAlarm {allowed : Op → Prop} (state : ApiState) (id : Int)
    (refuses : AlarmStatus → Bool) (refusal lost : String) {update : M (Except String Nat)}
    (hfetch : allowed (.sql (.getAlarmById id))) (hupdate : update.Uses allowed) :
    (moveAlarm state id refuses refusal lost update).Uses allowed := by
  refine ⟨hfetch, fun found => ?_⟩
  rcases found with e | _ | existing
  · trivial
  · trivial
  · simp only [Prog.pure_eq, Prog.ret_bind]
    split_ifs
    · trivial
    · refine hupdate.bind fun updated => ?_
      rcases updated with e | _ | affected
      · trivial
      · trivial
      · refine ⟨hfetch, fun found => ?_⟩
        rcases found with e | _ | record <;> trivial

theorem spec_answer {α : Type} {program : M α} {reply : α → Reply}
    (h : MapSpec request program past) :
    MapSpec request (program.bind fun value => .ret (reply value)) past :=
  Prog.Spec.seq h fun _ _ _ => trivial

theorem spec_serve (state : ApiState) (request : Request) :
    Prog.Spec (MapRule request) (fun _ _ => True) (serve state request) [] := by
  cases request with
  | report ctx => exact spec_report state ctx
  | createAlarmRule req => exact spec_answer (spec_createAlarmRule state (by simp) req)
  | updateAlarmRule id req => exact spec_answer (spec_updateAlarmRule state (by simp) id req)
  | updateAlarmRuleStatus id enabled =>
      exact spec_answer (spec_updateAlarmRuleStatus state (by simp) id enabled)
  | deleteAlarmRule id => exact spec_answer (spec_deleteAlarmRule state (by simp) id)
  | ackAlarm id =>
      exact spec_answer (spec_of_plain (uses_moveAlarm state id _ _ _ (plain_sql _) ⟨plain_sql _,
        fun _ => trivial⟩))
  | clearAlarm id =>
      exact spec_answer (spec_of_plain (uses_moveAlarm state id _ _ _ (plain_sql _) ⟨plain_sql _,
        fun _ => trivial⟩))

end Spec

section Maps

-- What the maps hold: the shared one nothing, a clone what its owner has filled in.
structure MapsOk (start : World) (log : Log) : Prop where
  shared : ∀ key, (stateAt start log).maps 0 key = none
  filled : ∀ map key, (stateAt start log).maps map key ≠ none →
    ∃ thread rules, ((thread, ⟨.mapInsert map key rules, ()⟩) : Nat × Event Op.Ans) ∈ log
  pos : 0 < (stateAt start log).nextMap
  clones : ∀ thread map, ((thread, ⟨.mapClone 0, map⟩) : Nat × Event Op.Ans) ∈ log →
    0 < map ∧ map < (stateAt start log).nextMap
  owner : ∀ thread other map, ((thread, ⟨.mapClone 0, map⟩) : Nat × Event Op.Ans) ∈ log →
    ((other, ⟨.mapClone 0, map⟩) : Nat × Event Op.Ans) ∈ log → thread = other

variable {start : World} {log : Log} {thread : Nat}

theorem MapsOk.clone (h : MapsOk start log) :
    MapsOk start ((thread, ⟨.mapClone 0, (stateAt start log).nextMap⟩) :: log) := by
  have hmaps : (stateAt start ((thread, ⟨.mapClone 0, (stateAt start log).nextMap⟩) :: log)).maps =
      Function.update (stateAt start log).maps (stateAt start log).nextMap
        ((stateAt start log).maps 0) := rfl
  have hnext : (stateAt start ((thread, ⟨.mapClone 0, (stateAt start log).nextMap⟩) ::
      log)).nextMap =
      (stateAt start log).nextMap + 1 := rfl
  have hpos := h.pos
  have hentry {other map : Nat} (hmem : ((other, ⟨.mapClone 0, map⟩) : Nat × Event Op.Ans) ∈
      (thread, ⟨.mapClone 0, (stateAt start log).nextMap⟩) :: log) :
      (other = thread ∧ map = (stateAt start log).nextMap) ∨
        ((other, ⟨.mapClone 0, map⟩) : Nat × Event Op.Ans) ∈ log := by
    simpa using hmem
  constructor
  · intro key
    rw [hmaps, Function.update_of_ne (by omega)]
    exact h.shared key
  · intro map key hne
    rw [hmaps] at hne
    by_cases he : map = (stateAt start log).nextMap
    · rw [he, Function.update_self] at hne
      exact absurd (h.shared key) hne
    · rw [Function.update_of_ne he] at hne
      obtain ⟨other, rules, hmem⟩ := h.filled map key hne
      exact ⟨other, rules, List.mem_cons_of_mem _ hmem⟩
  · omega
  · intro other map hmem
    rcases hentry hmem with ⟨-, rfl⟩ | hold
    · exact ⟨hpos, Nat.lt_succ_self _⟩
    · have hlt := h.clones other map hold
      exact ⟨hlt.1, hlt.2.trans (Nat.lt_succ_self _)⟩
  · intro first second map hfirst hsecond
    have hnew {other : Nat} (hmem : ((other, ⟨.mapClone 0, (stateAt start log).nextMap⟩) :
        Nat × Event Op.Ans) ∈ log) :
        False := lt_irrefl _ (h.clones other _ hmem).2
    rcases hentry hfirst with ⟨hf, he⟩ | hf
    · rcases hentry hsecond with ⟨hs, -⟩ | hs
      · rw [hf, hs]
      · exact (hnew (he ▸ hs)).elim
    · rcases hentry hsecond with ⟨-, he⟩ | hs
      · exact (hnew (he ▸ hf)).elim
      · exact h.owner first second map hf hs

-- Every other operation, by what it leaves in the maps.
theorem MapsOk.write (h : MapsOk start log) {op : Op} {answer : op.Ans}
    (hclone : ∀ map, op ≠ .mapClone map)
    (hshared : ∀ key, (stateAt start ((thread, ⟨op, answer⟩) :: log)).maps 0 key = none)
    (hfilled : ∀ map key, (stateAt start ((thread, ⟨op, answer⟩) :: log)).maps map key ≠ none →
      (stateAt start log).maps map key ≠ none ∨ ∃ rules, (⟨op, answer⟩ : Event Op.Ans) =
        ⟨.mapInsert map key rules, ()⟩) :
    MapsOk start ((thread, ⟨op, answer⟩) :: log) := by
  have hnext : (stateAt start ((thread, ⟨op, answer⟩) :: log)).nextMap =
      (stateAt start log).nextMap :=
    sem_nextMap hclone _
  have hold {other map : Nat}
      (hmem : ((other, ⟨.mapClone 0, map⟩) : Nat × Event Op.Ans) ∈ (thread, ⟨op, answer⟩) :: log) :
      ((other, ⟨.mapClone 0, map⟩) : Nat × Event Op.Ans) ∈ log := by
    refine (List.mem_cons.mp hmem).resolve_left fun he => hclone 0 ?_
    exact (congrArg (fun entry => entry.2.1) he).symm
  refine ⟨hshared, fun map key hne => ?_, by rw [hnext]; exact h.pos, fun other map hmem => ?_,
    fun first second map hfirst hsecond => h.owner first second map (hold hfirst) (hold hsecond)⟩
  · rcases hfilled map key hne with hne | ⟨rules, he⟩
    · obtain ⟨other, rules, hmem⟩ := h.filled map key hne
      exact ⟨other, rules, List.mem_cons_of_mem _ hmem⟩
    · exact ⟨thread, rules, by simp [he]⟩
  · rw [hnext]
    exact h.clones other map (hold hmem)

theorem MapsOk.frame (h : MapsOk start log) {op : Op} (answer : op.Ans)
    (hwrites : op.writes ≠ some .maps) :
    MapsOk start ((thread, ⟨op, answer⟩) :: log) := by
  have hmaps : (stateAt start ((thread, ⟨op, answer⟩) :: log)).maps = (stateAt start log).maps :=
    sem_same .maps hwrites _
  refine h.write (fun map he => ?_) (fun key => ?_) fun map key hne => .inl (by rwa [hmaps] at hne)
  · simp [he, Op.writes] at hwrites
  · rw [hmaps]
    exact h.shared key

theorem mapsOk (hboot : Booted start)
    (h : Pool.Justified sem (fun _ past op => ∃ request, MapRule request past op) start log) :
    MapsOk start log := by
  induction log with
  | nil =>
      exact ⟨hboot.maps 0, fun map key hne => absurd (hboot.maps map key) hne,
        hboot.nextMap, by simp, by simp⟩
  | cons entry log ih =>
      obtain ⟨thread, op, answer⟩ := entry
      obtain ⟨⟨request, hrule⟩, hanswer, hlog⟩ := h
      have hok := ih hlog
      by_cases hwrites : op.writes = some .maps
      · cases op with
        | mapClone map =>
            obtain rfl : map = 0 := hrule
            obtain rfl : answer = (stateAt start log).nextMap := hanswer
            exact hok.clone
        | mapInsert map key rules =>
            have hpos := (hok.clones thread map (Pool.mem_history.mp hrule)).1
            have hmaps : (stateAt start ((thread, ⟨.mapInsert map key rules, answer⟩) ::
                log)).maps =
                Function.update (stateAt start log).maps map
                  (Function.update ((stateAt start log).maps map) key (some rules)) := rfl
            refine hok.write (by simp) (fun other => ?_) fun other name hne => ?_
            · rw [hmaps, Function.update_of_ne hpos.ne]
              exact hok.shared other
            · rw [hmaps] at hne
              by_cases he : other = map
              · subst he
                rw [Function.update_self] at hne
                by_cases hkey : name = key
                · exact .inr ⟨rules, by rw [hkey]⟩
                · exact .inl (by rwa [Function.update_of_ne hkey] at hne)
              · exact .inl (by rwa [Function.update_of_ne he] at hne)
        | mapRemove map key =>
            obtain rfl : map = 0 := hrule
            have hmaps : (stateAt start ((thread, ⟨.mapRemove 0 key, answer⟩) :: log)).maps =
                Function.update (stateAt start log).maps 0
                  (Function.update ((stateAt start log).maps 0) key none) := rfl
            have hsame : (stateAt start ((thread, ⟨.mapRemove 0 key, answer⟩) :: log)).maps =
                (stateAt start log).maps := by
              rw [hmaps]
              refine (congrArg _ ?_).trans (Function.update_eq_self 0 _)
              exact (congrArg _ (hok.shared key).symm).trans (Function.update_eq_self key _)
            refine hok.write (by simp) (fun other => ?_) fun other name hne => ?_
            · rw [hsame]
              exact hok.shared other
            · exact .inl (by rwa [hsame] at hne)
        | sql stmt => cases stmt <;> simp [Op.writes, Sql.writes] at hwrites
        | _ => simp [Op.writes] at hwrites
      · exact hok.frame answer hwrites

end Maps

end RmqttThings.Api
