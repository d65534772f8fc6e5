import RmqttThings.Api.SharedRules

namespace RmqttThings.Api

open Effects RuleEngine

section Validators

-- What `validate_actions` accepts.
def HasAlarmAction (actions : Json) : Prop :=
  ∃ items, actions = .array items ∧ ∃ action ∈ items, (action.get "type").bind Json.asStr =
    some "alarm"

theorem validateActions_ok_iff (actions : Json) :
    validateActions actions = .ok () ↔ HasAlarmAction actions := by
  cases actions with
  | array items =>
      cases items with
      | nil => simp [validateActions, Json.asArray, HasAlarmAction]
      | cons first rest =>
          simp only [validateActions, Json.asArray, HasAlarmAction, List.isEmpty_cons,
            Bool.false_eq_true, if_false, Json.array.injEq, exists_eq_left']
          split_ifs with hany
          · simpa [List.any_eq_true] using hany
          · simpa [List.any_eq_true] using hany
  | _ => simp [validateActions, Json.asArray, HasAlarmAction]

def DeviceStatusTrigger (triggerType : String) : Prop :=
  triggerType = "device_online" ∨ triggerType = "device_offline"

theorem validateDeviceTriggerCondition_ok_iff (triggerType : String) (condition : Json) :
    validateDeviceTriggerCondition triggerType condition = .ok () ↔
      (DeviceStatusTrigger triggerType → (condition.get "operator").bind Json.asStr =
        some "always") := by
  simp only [validateDeviceTriggerCondition, DeviceStatusTrigger]
  split_ifs with htype halways <;> simp_all

end Validators

-- A rule that the evaluation can work with.
structure ValidRule (rule : AlarmRule) : Prop where
  triggerType : (TriggerType.fromStr rule.triggerType).isSome = true
  triggerConfig : validateTriggerConfig rule.triggerType rule.triggerConfig = .ok ()
  condition : ValidCondition rule.condition
  clearCondition : ∀ clear, rule.clearCondition = some clear → ValidCondition clear
  actions : HasAlarmAction rule.actions
  durationMinutes : 0 ≤ rule.durationMinutes.toInt
  propertyOnly : rule.triggerType ≠ "property" → rule.durationMinutes.toInt = 0 ∧
    rule.clearCondition = none
  alwaysOnDeviceStatus : DeviceStatusTrigger rule.triggerType →
    (rule.condition.get "operator").bind Json.asStr = some "always"

-- The columns of a rule that are written once.
structure SameRule (rule rule' : AlarmRule) : Prop where
  triggerType : rule'.triggerType = rule.triggerType
  productId : rule'.productId = rule.productId
  createdAt : rule'.createdAt = rule.createdAt

theorem SameRule.refl (rule : AlarmRule) : SameRule rule rule := ⟨rfl, rfl, rfl⟩

theorem SameRule.trans {first second third : AlarmRule} (h : SameRule first second)
    (h' : SameRule second third) :
    SameRule first third :=
  ⟨h'.triggerType.trans h.triggerType, h'.productId.trans h.productId,
    h'.createdAt.trans h.createdAt⟩

section Accepted

-- The checks before the insert.
structure CreateAccepted (req : CreateAlarmRuleRequest) : Prop where
  triggerType : (TriggerType.fromStr req.triggerType).isSome = true
  request : validateCreateRuleRequest req = .ok ()
  durationMinutes : ¬req.durationMinutes.toInt < 0
  propertyOnly : ¬(req.triggerType ≠ "property" ∧
    (0 < req.durationMinutes.toInt ∨ req.clearCondition.isSome = true))

-- The checks before the update, the last ones against the rule as it was fetched.
structure UpdateAccepted (existing : AlarmRule) (req : UpdateAlarmRuleRequest) : Prop where
  durationMinutes : ¬(req.durationMinutes.any fun value => decide (value.toInt < 0)) = true
  request : validateUpdate existing req = .ok ()

variable {now : OffsetDateTime}

theorem CreateAccepted.valid {req : CreateAlarmRuleRequest} (h : CreateAccepted req) (id : Int) :
    ValidRule (req.toRule id now) := by
  obtain ⟨_, hconfig, hrest⟩ := ok_of_bind h.request
  obtain ⟨_, hcondition, hrest⟩ := ok_of_bind hrest
  obtain ⟨_, hdevice, hrest⟩ := ok_of_bind hrest
  have hclear : ∀ clear, req.clearCondition = some clear → ValidCondition clear := by
    intro clear he
    rw [he] at hrest
    obtain ⟨_, hvalid, -⟩ := ok_of_bind hrest
    exact (validateCondition_ok_iff clear _).mp hvalid
  have hactions : validateActions req.actions = .ok () := by
    cases he : req.clearCondition with
    | none =>
        rw [he] at hrest
        exact hrest
    | some clear =>
        rw [he] at hrest
        obtain ⟨_, -, hvalid⟩ := ok_of_bind hrest
        exact hvalid
  have hduration := h.durationMinutes
  refine ⟨h.triggerType, hconfig, (validateCondition_ok_iff _ _).mp hcondition, hclear,
    (validateActions_ok_iff _).mp hactions, not_lt.mp hduration, ?_,
    (validateDeviceTriggerCondition_ok_iff _ _).mp hdevice⟩
  intro hother
  have hproperty := h.propertyOnly
  simp only [CreateAlarmRuleRequest.toRule, Ne, not_and, not_or,
    Option.not_isSome_iff_eq_none] at hother hproperty ⊢
  obtain ⟨hzero, hnone⟩ := hproperty hother
  exact ⟨by omega, hnone⟩

-- The checks of an update, field by field.
structure UpdateChecked (existing : AlarmRule) (req : UpdateAlarmRuleRequest) : Prop where
  propertyOnly : ¬(existing.triggerType ≠ "property" ∧
    ((req.durationMinutes.any fun value => decide (0 < value.toInt)) = true ∨
      req.clearCondition.any Option.isSome = true))
  condition : ∀ condition, req.condition = some condition → ValidCondition condition ∧
    (DeviceStatusTrigger existing.triggerType → (condition.get "operator").bind Json.asStr =
      some "always")
  actions : ∀ actions, req.actions = some actions → HasAlarmAction actions
  clearCondition : ∀ clear, req.clearCondition = some (some clear) → ValidCondition clear
  triggerConfig : ∀ config, req.triggerConfig = some config →
    validateTriggerConfig existing.triggerType config = .ok ()

-- The check of a field that the request may leave out.
def checkField {α : Type} (field : Option α) (check : α → Except ApiError Unit) :
    Except ApiError Unit :=
  match field with
  | some value => check value
  | none => pure ()

theorem checkField_ok_iff {α : Type} {field : Option α} {check : α → Except ApiError Unit} :
    checkField field check = .ok () ↔ ∀ value, field = some value → check value = .ok () := by
  cases field <;> simp [checkField, pure, Except.pure]

-- The checks against the fetched rule, in the order of the source.
theorem validateUpdate_eq (existing : AlarmRule) (req : UpdateAlarmRuleRequest) :
    validateUpdate existing req =
      if existing.triggerType ≠ "property" ∧
        ((req.durationMinutes.any fun value => decide (0 < value.toInt)) = true ∨
          req.clearCondition.any Option.isSome = true) then .error durationNotSupported
      else (do
        checkField req.condition (fun condition => do
          validateCondition condition "condition"
          validateDeviceTriggerCondition existing.triggerType condition)
        checkField req.actions validateActions
        checkField req.clearCondition.join (validateCondition · "clear_condition")
        checkField req.triggerConfig (validateTriggerConfig existing.triggerType)) := by
  unfold validateUpdate
  split_ifs
  · rfl
  · rcases req.condition with _ | condition <;> rcases req.actions with _ | actions <;>
      rcases req.clearCondition with _ | _ | clear <;> rcases req.triggerConfig with _ | config <;>
      simp [checkField]

theorem validateUpdate_checked {existing : AlarmRule} {req : UpdateAlarmRuleRequest}
    (h : validateUpdate existing req = .ok ()) : UpdateChecked existing req := by
  rw [validateUpdate_eq] at h
  split_ifs at h with hproperty
  obtain ⟨_, hcondition, hrest⟩ := ok_of_bind h
  obtain ⟨_, hactions, hrest⟩ := ok_of_bind hrest
  obtain ⟨_, hclear, hconfig⟩ := ok_of_bind hrest
  refine ⟨hproperty, ?_, ?_, ?_, checkField_ok_iff.mp hconfig⟩
  · intro condition hfield
    obtain ⟨_, hvalid, hdevice⟩ := ok_of_bind (checkField_ok_iff.mp hcondition condition hfield)
    exact ⟨(validateCondition_ok_iff condition _).mp hvalid,
      (validateDeviceTriggerCondition_ok_iff _ _).mp hdevice⟩
  · intro actions hfield
    exact (validateActions_ok_iff actions).mp (checkField_ok_iff.mp hactions actions hfield)
  · intro clear hfield
    have hvalid := checkField_ok_iff.mp hclear clear (by rw [hfield]; rfl)
    exact (validateCondition_ok_iff clear _).mp hvalid

-- Each field that the request leaves out is kept, and the fetched rule had the same trigger type.
theorem UpdateAccepted.valid {existing rule : AlarmRule} {req : UpdateAlarmRuleRequest}
    (h : UpdateAccepted existing req) (htype : existing.triggerType = rule.triggerType)
    (hrule : ValidRule rule) :
    ValidRule (req.set now rule) := by
  have hchecked := validateUpdate_checked h.request
  refine ⟨hrule.triggerType, ?_, ?_, ?_, ?_, ?_, ?_, ?_⟩
  · cases hfield : req.triggerConfig with
    | none => simpa [UpdateAlarmRuleRequest.set, hfield] using hrule.triggerConfig
    | some config =>
        simpa [UpdateAlarmRuleRequest.set, hfield, htype] using hchecked.triggerConfig config hfield
  · cases hfield : req.condition with
    | none => simpa [UpdateAlarmRuleRequest.set, hfield] using hrule.condition
    | some condition =>
        simpa [UpdateAlarmRuleRequest.set, hfield] using (hchecked.condition condition hfield).1
  · intro clear hclear
    rcases hfield : req.clearCondition with _ | _ | new
    · exact hrule.clearCondition clear (by simpa [UpdateAlarmRuleRequest.set, hfield] using hclear)
    · simp [UpdateAlarmRuleRequest.set, hfield] at hclear
    · simp only [UpdateAlarmRuleRequest.set, hfield, Option.getD_some, Option.some.injEq] at hclear
      exact hclear ▸ hchecked.clearCondition new hfield
  · cases hfield : req.actions with
    | none => simpa [UpdateAlarmRuleRequest.set, hfield] using hrule.actions
    | some actions =>
        simpa [UpdateAlarmRuleRequest.set, hfield] using hchecked.actions actions hfield
  · cases hfield : req.durationMinutes with
    | none => simpa [UpdateAlarmRuleRequest.set, hfield] using hrule.durationMinutes
    | some minutes =>
        have hminutes := h.durationMinutes
        simpa [UpdateAlarmRuleRequest.set, hfield] using hminutes
  · intro hother
    have hproperty := hchecked.propertyOnly
    obtain ⟨hzero, hnone⟩ := hrule.propertyOnly hother
    simp only [htype, not_and, not_or] at hproperty
    obtain ⟨hduration, hclear⟩ := hproperty hother
    constructor
    · cases hfield : req.durationMinutes with
      | none => simpa [UpdateAlarmRuleRequest.set, hfield] using hzero
      | some minutes =>
          have hminutes := h.durationMinutes
          simp only [UpdateAlarmRuleRequest.set, hfield, Option.any_some, decide_eq_true_eq,
            Option.getD_some] at hminutes hduration ⊢
          omega
    · rcases hfield : req.clearCondition with _ | _ | clear
      · simpa [UpdateAlarmRuleRequest.set, hfield] using hnone
      · simp [UpdateAlarmRuleRequest.set, hfield]
      · simp [hfield] at hclear
  · intro hdevice
    cases hfield : req.condition with
    | none => simpa [UpdateAlarmRuleRequest.set, hfield] using hrule.alwaysOnDeviceStatus hdevice
    | some condition =>
        have halways := (hchecked.condition condition hfield).2
        simpa [UpdateAlarmRuleRequest.set, hfield] using halways (htype ▸ hdevice)

end Accepted

section Table

-- Everything an operation can do to a rule that exists, short of deleting it.
inductive RuleStep (op : Op) (now : OffsetDateTime) (rule : AlarmRule) : AlarmRule → Prop where
  | same : RuleStep op now rule rule
  | updated (req : UpdateAlarmRuleRequest) (h : op = .sql (.updateRule rule.id req)) :
      RuleStep op now rule (req.set now rule)
  | status (enabled : Bool) :
      RuleStep op now rule { rule with enabled := enabled, updatedAt := now }

variable {op : Op} {now : OffsetDateTime} {rule rule' : AlarmRule} {w : World}

theorem RuleStep.id (h : RuleStep op now rule rule') : rule'.id = rule.id := by
  cases h <;> rfl

theorem RuleStep.sameRule (h : RuleStep op now rule rule') : SameRule rule rule' := by
  cases h <;> exact ⟨rfl, rfl, rfl⟩

-- What an operation leaves of the rules that were there.
structure RulesKept (op : Op) (now : OffsetDateTime) (rules rules' : List AlarmRule) : Prop where
  ids : (rules'.map (·.id)).Sublist (rules.map (·.id))
  steps : ∀ rule' ∈ rules', ∃ rule ∈ rules, RuleStep op now rule rule'

theorem RulesKept.refl (op : Op) (now : OffsetDateTime) (rules : List AlarmRule) :
    RulesKept op now rules rules :=
  ⟨List.Sublist.refl _, fun rule hrule => ⟨rule, hrule, .same⟩⟩

theorem rulesKept_updateWhere (rules : List AlarmRule) (cond : AlarmRule → Bool)
    (set : AlarmRule → AlarmRule)
    (hset : ∀ rule, cond rule = true → RuleStep op now rule (set rule)) :
    RulesKept op now rules (updateWhere rules cond set).2 := by
  have hstep : ∀ rule, RuleStep op now rule (if cond rule then set rule else rule) := by
    intro rule
    by_cases hcond : cond rule = true
    · simpa [hcond] using hset rule hcond
    · simpa [hcond] using RuleStep.same
  constructor
  · have hids : ((updateWhere rules cond set).2).map (·.id) = rules.map (·.id) := by
      simp only [updateWhere, List.map_map, Function.comp_def, (hstep _).id]
    rw [hids]
  · intro rule' hrule'
    obtain ⟨rule, hrule, rfl⟩ := List.mem_map.mp hrule'
    exact ⟨rule, hrule, hstep rule⟩

-- A statement inserts one rule or keeps, changes and deletes the ones that exist.
theorem exec_rules (stmt : Sql) (now : OffsetDateTime) (t : Tables) :
    (∃ req, stmt = .createRule req ∧ (stmt.exec now t).2.rules =
      t.rules ++ [req.toRule t.nextRuleId now] ∧
      (stmt.exec now t).2.nextRuleId = t.nextRuleId + 1) ∨
    (RulesKept (.sql stmt) now t.rules (stmt.exec now t).2.rules ∧ (stmt.exec now t).2.nextRuleId =
      t.nextRuleId) := by
  cases stmt with
  | createRule req => exact .inl ⟨req, rfl, rfl, rfl⟩
  | updateRule id req =>
      refine .inr ⟨rulesKept_updateWhere t.rules (·.id == id) _ ?_, rfl⟩
      intro rule hid
      exact .updated req (by rw [beq_iff_eq.mp hid])
  | updateRuleStatus id enabled =>
      exact .inr ⟨rulesKept_updateWhere t.rules (·.id == id) _ fun rule _ => .status enabled, rfl⟩
  | deleteRule id =>
      refine .inr ⟨⟨List.filter_sublist.map _, ?_⟩, rfl⟩
      intro rule hrule
      exact ⟨rule, List.mem_of_mem_filter hrule, .same⟩
  | _ => exact .inr ⟨RulesKept.refl _ now t.rules, rfl⟩

theorem sem_rules (op : Op) (w : World) :
    (∃ req, op = .sql (.createRule req) ∧
      (sem op w).2.tables.rules = w.tables.rules ++ [req.toRule w.tables.nextRuleId w.tick.clock] ∧
      (sem op w).2.tables.nextRuleId = w.tables.nextRuleId + 1) ∨
    (RulesKept op w.tick.clock w.tables.rules (sem op w).2.tables.rules ∧
      (sem op w).2.tables.nextRuleId = w.tables.nextRuleId) := by
  have hsame (h : (sem op w).2.tables = w.tables) :
      RulesKept op w.tick.clock w.tables.rules (sem op w).2.tables.rules ∧
      (sem op w).2.tables.nextRuleId = w.tables.nextRuleId := by
    rw [h]
    exact ⟨RulesKept.refl _ _ _, rfl⟩
  cases op with
  | sql stmt =>
      cases hfault : w.sqlFaults 0 with
      | some error => exact .inr (hsame (by simp [sem, Op.exec, hfault]))
      | none =>
          rcases exec_rules stmt w.tick.clock w.tables with ⟨req, rfl, hr, hn⟩ | ⟨hkept, hn⟩
          · exact .inl ⟨req,
              rfl, by simp [sem, Op.exec, hfault, Sql.exec],
              by simp [sem, Op.exec, hfault, Sql.exec]⟩
          · exact .inr ⟨by simpa [sem, Op.exec, hfault] using hkept,
              by simpa [sem, Op.exec, hfault] using hn⟩
  | _ =>
      refine .inr (hsame ?_)
      simp only [sem, Op.exec, World.redisCommand]
      first | rfl | (split <;> rfl)

-- The rule ids are unique and below the next one.
structure RulesFresh (w : World) : Prop where
  nodup : (w.tables.rules.map (·.id)).Nodup
  lt : ∀ rule ∈ w.tables.rules, rule.id < w.tables.nextRuleId

theorem RulesFresh.step (h : RulesFresh w) (op : Op) : RulesFresh (sem op w).2 := by
  rcases sem_rules op w with ⟨req, -, hr, hn⟩ | ⟨hkept, hn⟩
  · constructor
    · rw [hr, List.map_append, List.nodup_append]
      refine ⟨h.nodup, by simp, ?_⟩
      intro id hid other hother
      obtain ⟨rule, hrule, rfl⟩ := List.mem_map.mp hid
      have hlt := h.lt rule hrule
      simp only [List.map_cons, List.map_nil, List.mem_singleton,
        CreateAlarmRuleRequest.toRule] at hother
      omega
    · rw [hr, hn]
      intro rule hrule
      rcases List.mem_append.mp hrule with hrule | hrule
      · have hlt := h.lt rule hrule
        omega
      · rw [List.mem_singleton.mp hrule]
        simp only [CreateAlarmRuleRequest.toRule]
        omega
  · refine ⟨h.nodup.sublist hkept.ids, ?_⟩
    intro rule' hrule'
    obtain ⟨rule, hrule, hstep⟩ := hkept.steps rule' hrule'
    rw [hn, hstep.id]
    exact h.lt rule hrule

end Table

section Spec

-- The statements that write the columns which are validated come after the checks. The rule that
-- an update was checked against has been fetched before, by the same request.
def RuleStatement (past : Past) : Op → Prop
  | .sql (.createRule req) => CreateAccepted req
  | .sql (.updateRule id req) => ∃ existing,
      (⟨.sql (.getRuleById id), .ok (some existing)⟩ : Event Op.Ans) ∈ past ∧
        UpdateAccepted existing req
  | _ => True

-- Every other operation.
def Unedited (op : Op) : Prop := ∀ past, RuleStatement past op

abbrev RuleSpec {α : Type} (program : M α) (past : Past) : Prop :=
  Prog.Spec RuleStatement (fun _ _ => True) program past

variable {past : Past}

theorem spec_of_unedited {α : Type} {program : M α} (h : program.Uses Unedited) :
    RuleSpec program past :=
  h.spec (fun _ => True) (fun _ past hop _ => hop past) (fun _ _ _ _ _ => trivial) trivial

theorem unedited_of_writes {op : Op} (h : op.writes ≠ some .rules) : Unedited op := by
  intro past
  cases op with
  | sql stmt => cases stmt <;> trivial
  | _ => trivial

theorem unedited_of_within {α : Type} {program : M α} {parts : List Part} (h : Writes parts program)
    (hparts : .rules ∉ parts) : program.Uses Unedited :=
  Prog.Uses.mono h fun _ hop => unedited_of_writes fun he => hparts (hop .rules he)

-- No store keeps its state in the table of the rules.
theorem CacheType.footprint (cacheType : CacheType) :
    ∃ marks tracks, marks ≠ .rules ∧ tracks ≠ .rules ∧
      cacheType.stateStore.Footprint marks tracks := by
  cases cacheType with
  | memory => exact ⟨.dedup, .durationTracking, by simp, by simp, InMemoryRuleStateStore.footprint⟩
  | redis iso => exact ⟨.redis, .redis, by simp, by simp, RedisRuleStateStore.footprint iso⟩

variable (state : ApiState)

theorem unedited_report (ctx : TriggerContext) : (serve state (.report ctx)).Uses Unedited := by
  obtain ⟨marks, tracks, hmarks, htracks, hfoot⟩ := state.cacheType.footprint
  have hsql (stmt : Sql) (h : stmt.writes ≠ some .rules) : Unedited (.sql stmt) :=
    unedited_of_writes h
  refine ⟨fun _ => trivial, fun copy => ?_⟩
  simp only [Prog.pure_eq, Prog.ret_bind]
  refine Prog.Uses.bind (Prog.Uses.bind (unedited_of_within (writes_loadRules ctx _) (by simp))
    fun loaded => ?_) fun _ => trivial
  cases loaded with
  | none => trivial
  | some rules =>
      refine uses_evaluateRules state.alarm ctx (fun _ _ _ => ?_) (fun _ _ => ?_) (fun _ _ _ => ?_)
        (fun _ => ?_) (fun _ => trivial) (fun _ => hsql _ (by simp [Sql.writes])) (fun op hop => ?_)
        (fun _ _ => hsql _ (by simp [Sql.writes])) (fun _ => hsql _ (by simp [Sql.writes])) rules
      · exact unedited_of_within (hfoot.checkDedup _ _ _ _) (by simp)
      · exact unedited_of_within (hfoot.markTriggered _ _ _) (by simpa using hmarks.symm)
      · exact unedited_of_within (hfoot.checkDuration _ _ _ _) (by simpa using htracks.symm)
      · exact unedited_of_within (hfoot.resetDuration _ _) (by simpa using htracks.symm)
      · exact unedited_of_writes fun he => absurd (hop.within .rules he) (by simp)

theorem unedited_invalidateProduct (productId : String) :
    (state.ruleCache.invalidateProduct productId).Uses Unedited := by
  refine uses_invalidateProduct state.cacheType _ productId (fun _ => trivial) (fun _ => trivial)
    fun op hop => ?_
  cases op <;> first | exact hop.elim | exact fun _ => trivial

-- The end of every successful handler.
theorem rules_invalidated {α : Type} (productId : String) (value : α) :
    RuleSpec ((state.ruleCache.invalidateProduct productId).bind fun _ => .ret value) past :=
  Prog.Spec.seq (spec_of_unedited (unedited_invalidateProduct state productId)) fun _ _ _ => trivial

-- What comes after the statement edits nothing.
theorem spec_written (id : Int) (productId : String) {write : M (Except String Nat)}
    (hwrite : RuleSpec write past) :
    RuleSpec (writeRule state id productId write) past := by
  refine Prog.Spec.seq hwrite fun written past _ => ?_
  rcases written with e | _ | affected
  · trivial
  · trivial
  · refine ⟨trivial, fun found => ?_⟩
    rcases found with e | _ | updated
    · trivial
    · trivial
    · exact rules_invalidated state productId _

theorem rules_createAlarmRule (req : CreateAlarmRuleRequest) :
    RuleSpec (createAlarmRule state req) past := by
  unfold createAlarmRule
  split
  · trivial
  · rename_i htype
    split
    · trivial
    · rename_i hrequest
      refine ⟨trivial, fun product => ?_⟩
      rcases product with e | _ | product
      · trivial
      · trivial
      · simp only [Prog.pure_eq, Prog.ret_bind]
        split_ifs with hduration hproperty
        · trivial
        · trivial
        · have haccepted : CreateAccepted req :=
            ⟨by simpa [Option.isNone_iff_eq_none, Option.isSome_iff_ne_none] using htype, hrequest,
              hduration, hproperty⟩
          refine ⟨haccepted, fun created => ?_⟩
          cases created with
          | error _ => trivial
          | ok ruleId =>
              refine ⟨trivial, fun found => ?_⟩
              rcases found with e | _ | rule
              · trivial
              · trivial
              · exact rules_invalidated state _ _

theorem rules_updateAlarmRule (id : Int) (req : UpdateAlarmRuleRequest) :
    RuleSpec (updateAlarmRule state id req) past := by
  unfold updateAlarmRule
  split_ifs with hduration
  · trivial
  · refine ⟨trivial, fun found => ?_⟩
    rcases found with e | _ | existing
    · trivial
    · trivial
    · simp only [Prog.pure_eq, Prog.ret_bind]
      split
      · trivial
      · rename_i hrequest
        refine spec_written state id _ ⟨⟨existing, List.mem_cons_self, hduration, hrequest⟩,
          fun _ => trivial⟩

theorem rules_updateAlarmRuleStatus (id : Int) (enabled : Bool) :
    RuleSpec (updateAlarmRuleStatus state id enabled) past := by
  refine ⟨trivial, fun found => ?_⟩
  rcases found with e | _ | existing
  · trivial
  · trivial
  · exact spec_written state id _ ⟨trivial, fun _ => trivial⟩

theorem rules_deleteAlarmRule (id : Int) : RuleSpec (deleteAlarmRule state id) past := by
  refine ⟨trivial, fun found => ?_⟩
  rcases found with e | _ | existing
  · trivial
  · trivial
  · refine ⟨trivial, fun deleted => ?_⟩
    rcases deleted with e | _ | affected
    · trivial
    · trivial
    · exact rules_invalidated state _ _

theorem rules_serve (request : Request) : RuleSpec (serve state request) [] := by
  have hanswer {α : Type} {program : M α} {reply : α → Reply} (h : RuleSpec program []) :
      RuleSpec (program.bind fun value => .ret (reply value)) [] :=
    Prog.Spec.seq h fun _ _ _ => trivial
  cases request with
  | report ctx => exact spec_of_unedited (unedited_report state ctx)
  | createAlarmRule req => exact hanswer (rules_createAlarmRule state req)
  | updateAlarmRule id req => exact hanswer (rules_updateAlarmRule state id req)
  | updateAlarmRuleStatus id enabled => exact hanswer (rules_updateAlarmRuleStatus state id enabled)
  | deleteAlarmRule id => exact hanswer (rules_deleteAlarmRule state id)
  | ackAlarm id =>
      exact hanswer (spec_of_unedited (uses_moveAlarm state id _ _ _ (fun _ => trivial)
        ⟨fun _ => trivial, fun _ => trivial⟩))
  | clearAlarm id =>
      exact hanswer (spec_of_unedited (uses_moveAlarm state id _ _ _ (fun _ => trivial)
        ⟨fun _ => trivial, fun _ => trivial⟩))

end Spec

section Replay

variable {start : World} (hfresh : RulesFresh start)

include hfresh in
theorem rulesFresh_stateAt (log : Log) : RulesFresh (stateAt start log) := by
  induction log with
  | nil => exact hfresh
  | cons entry log ih => exact ih.step entry.2.1

theorem nextRuleId_le_sem (op : Op) (w : World) :
    w.tables.nextRuleId ≤ (sem op w).2.tables.nextRuleId := by
  rcases sem_rules op w with ⟨req, -, -, hn⟩ | ⟨-, hn⟩ <;> omega

-- A rule with an id that was already given out has been there since, with the same fixed columns.
theorem rule_origin (later earlier : Log) {rule' : AlarmRule}
    (hrule' : rule' ∈ (stateAt start (later ++ earlier)).tables.rules)
    (hid : rule'.id < (stateAt start earlier).tables.nextRuleId) :
    ∃ rule ∈ (stateAt start earlier).tables.rules, rule.id = rule'.id ∧ SameRule rule rule' := by
  induction later generalizing rule' with
  | nil => exact ⟨rule', hrule', rfl, SameRule.refl rule'⟩
  | cons entry later ih =>
      rcases sem_rules entry.2.1 (stateAt start (later ++ earlier)) with
        ⟨req, -, hr, -⟩ | ⟨hkept, -⟩
      · have hnew : rule' ∈ (sem entry.2.1 (stateAt start (later ++ earlier))).2.tables.rules :=
          hrule'
        rw [hr] at hnew
        rcases List.mem_append.mp hnew with hold | hnew
        · exact ih hold hid
        · have hmono : (stateAt start earlier).tables.nextRuleId ≤
              (stateAt start (later ++ earlier)).tables.nextRuleId :=
            Pool.replay_mono sem (fun w => w.tables.nextRuleId) nextRuleId_le_sem start
              (List.suffix_append later earlier)
          rw [List.mem_singleton.mp hnew] at hid
          simp only [CreateAlarmRuleRequest.toRule] at hid
          omega
      · obtain ⟨middle, hmiddle, hstep⟩ := hkept.steps rule' hrule'
        rw [hstep.id] at hid
        obtain ⟨rule, hrule, he, hsame⟩ := ih hmiddle hid
        exact ⟨rule, hrule, he.trans hstep.id.symm, hsame.trans hstep.sameRule⟩

include hfresh in
theorem sameRule_of_id {earlier log : Log} (hsuffix : earlier <:+ log) {rule rule' : AlarmRule}
    (hrule : rule ∈ (stateAt start earlier).tables.rules)
    (hrule' : rule' ∈ (stateAt start log).tables.rules)
    (hid : rule'.id = rule.id) : SameRule rule rule' := by
  obtain ⟨later, rfl⟩ := hsuffix
  have hearlier := rulesFresh_stateAt hfresh earlier
  obtain ⟨other, hother, he, hsame⟩ :=
    rule_origin later earlier hrule' (hid ▸ hearlier.lt rule hrule)
  have hsingle := List.inj_on_of_nodup_map hearlier.nodup hother hrule (he.trans hid)
  exact hsingle ▸ hsame

-- Every rule of every state of a run is valid: an update was checked against an earlier row of the
-- same id, which had the trigger type that the row still has.
include hfresh in
theorem valid_stateAt (hvalid : ∀ rule ∈ start.tables.rules, ValidRule rule) {log : Log}
    (hlog : Pool.Justified sem (fun _ past op => RuleStatement past op) start log) :
    ∀ rule ∈ (stateAt start log).tables.rules, ValidRule rule := by
  induction log with
  | nil => exact hvalid
  | cons entry log ih =>
      obtain ⟨thread, op, answer⟩ := entry
      obtain ⟨hstatement, -, hrest⟩ := hlog
      intro rule' hrule'
      rcases sem_rules op (stateAt start log) with ⟨req, rfl, hr, -⟩ | ⟨hkept, -⟩
      · have hnew : rule' ∈ (sem (.sql (.createRule req)) (stateAt start log)).2.tables.rules :=
          hrule'
        rw [hr] at hnew
        rcases List.mem_append.mp hnew with hold | hnew
        · exact ih hrest rule' hold
        · rw [List.mem_singleton.mp hnew]
          exact CreateAccepted.valid hstatement _
      · obtain ⟨rule, hrule, hstep⟩ := hkept.steps rule' hrule'
        have hold := ih hrest rule hrule
        cases hstep with
        | same => exact hold
        | status enabled => exact ⟨hold.1, hold.2, hold.3, hold.4, hold.5, hold.6, hold.7, hold.8⟩
        | updated req hop =>
            subst hop
            obtain ⟨existing, hfetched, haccepted⟩ := hstatement
            obtain ⟨later, earlier, hcut⟩ := List.append_of_mem (Pool.mem_history.mp hfetched)
            have hsuffix : earlier <:+ log := Pool.suffix_of_eq_append hcut
            have hfetch : (thread, ⟨.sql (.getRuleById rule.id), .ok (some existing)⟩) ::
                earlier <:+ log :=
              ⟨later, hcut.symm⟩
            obtain ⟨-, hanswer, -⟩ := hrest.suffix hfetch
            have hfind : some existing = (stateAt start earlier).tables.rules.find?
                (·.id == rule.id) := by
              have hboth := hanswer
              simp only [sem, Op.exec] at hboth
              split at hboth
              · cases hboth
              · exact Except.ok.inj hboth
            have hmem := List.mem_of_find?_eq_some hfind.symm
            have hid : existing.id = rule.id := by simpa using List.find?_some hfind.symm
            exact haccepted.valid
              (sameRule_of_id hfresh hsuffix hmem hrule hid.symm).triggerType.symm hold

end Replay

section Contract

variable (state : ApiState) (start : World) (moves : List (Move Request))

-- The stored rules at any moment of a run, and what later requests leave of them.
structure RulesStayValid : Prop where
  valid : ∀ rule ∈ (run state moves start).state.tables.rules, ValidRule rule
  kept : ∀ more, ∀ rule ∈ (run state moves start).state.tables.rules,
    ∀ rule' ∈ (run state (moves ++ more) start).state.tables.rules, rule'.id = rule.id →
      SameRule rule rule'

-- Whatever the requests are and however they interleave: from a table of valid rules, such as
-- the empty one, no partial update ever leads to an invalid rule.
theorem stored_rules_stay_valid (hfresh : RulesFresh start) (hvalid : ∀ rule ∈ start.tables.rules,
    ValidRule rule) :
    RulesStayValid state start moves := by
  constructor
  · rw [Pool.state_eq_replay sem (serve state) moves start]
    have hlog := Pool.justified_play sem (serve state) (rules_serve state) moves start
    exact valid_stateAt hfresh hvalid (hlog.mono fun _ _ _ ⟨_, _, hstatement⟩ => hstatement)
  · intro more rule hrule rule' hrule' hid
    rw [Pool.state_eq_replay sem (serve state)] at hrule hrule'
    exact sameRule_of_id hfresh (Pool.log_suffix sem (serve state) moves more start) hrule
      hrule' hid

-- A rule is created, and two updates of it race: one replaces the condition, the other one sets a
-- duration and a clear condition.
def racingUpdates : List (Move Request) :=
  let hot (value : UInt64) : Json :=
    .object [("operator", .string ">"), ("value", .number (.posInt value))]
  let untouched : UpdateAlarmRuleRequest := ⟨none, none, none, none, none, none, none, none⟩
  [.spawn (.createAlarmRule ⟨"p", "hot", none, "property",
    .object [("property_name", .string "temp")], hot 50,
      .array [.object [("type", .string "alarm")]], 0, 0, none⟩),
    .step 0, .step 0, .step 0, .step 0, .step 0,
    .spawn (.updateAlarmRule 1 { untouched with condition := some (hot 60) }),
    .spawn (.updateAlarmRule 1
      { untouched with durationMinutes := some 5, clearCondition := some (some (hot 40)) }),
    .step 1, .step 2, .step 2, .step 1]

theorem racing_updates_stay_valid :
    let start := World.started { Tables.empty with products := ["p"] }
    RulesStayValid memoryState start racingUpdates ∧
      (run memoryState racingUpdates start).state.tables.rules.map
        (fun rule => (rule.id, rule.durationMinutes)) =
        [(1, 5)] := by
  intro start
  refine ⟨stored_rules_stay_valid memoryState start racingUpdates ⟨by simp [start, Tables.empty],
    ?_⟩ ?_, ?_⟩
  · simp [start, Tables.empty]
  · simp [start, Tables.empty]
  · decide +kernel

end Contract

end RmqttThings.Api
