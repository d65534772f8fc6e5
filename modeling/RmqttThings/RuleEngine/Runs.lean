import RmqttThings.Effects.Hoare
import RmqttThings.RuleEngine.Footprint

namespace RmqttThings.RuleEngine

open Effects

abbrev Past := List (Event Op.Ans)

-- The report carries a value of the rule, and the condition is true of it; or false.
def Satisfies (rule : AlarmRule) (ctx : TriggerContext) : Prop :=
  ∃ actual, actualValue ctx rule = some actual ∧ RuleEvaluator.evaluate rule.condition actual = true

def Fails (rule : AlarmRule) (ctx : TriggerContext) : Prop :=
  ∃ actual, actualValue ctx rule = some actual ∧ RuleEvaluator.evaluate rule.condition actual =
    false

theorem Satisfies.not_fails {rule : AlarmRule} {ctx : TriggerContext} (h : Satisfies rule ctx) :
    ¬Fails rule ctx := by
  obtain ⟨actual, hactual, hcondition⟩ := h
  simp [Fails, hactual, hcondition]

theorem tracksDuration_of_actualValue {rule : AlarmRule} {ctx : TriggerContext}
    (htype : rule.triggerType = "property") (hpos : 0 < rule.durationMinutes.toInt) {actual : Json}
    (hactual : actualValue ctx rule = some actual) :
    tracksDuration ctx rule = true := by
  have hkind : ctx.triggerType = .property := by
    simp only [actualValue, htype, TriggerType.fromStr] at hactual
    split_ifs at hactual with hne
    exact (not_not.mp hne).symm
  simp [tracksDuration, hkind, hpos]

section Runs

variable (repo : AlarmRepo) (cache : RuleCache)

-- One context after the other. The delays before the operations let any time pass
-- between two contexts and inside each of them.
def evaluations (contexts : List TriggerContext) : M Unit :=
  Prog.forEach contexts fun ctx => evaluateAndTrigger ctx repo cache none

-- The evaluations of `before`, and that of `ctx` up to the rule behind `done`.
def upTo (before : List TriggerContext) (ctx : TriggerContext) (done : List AlarmRule) :
    M Unit := do
  evaluations repo cache before
  let _ ← loadRules ctx cache
  Prog.forEach done (evaluateRule repo nowUtc ctx cache)

def clearLoop (ctx : TriggerContext) (rules : List AlarmRule) : M Unit :=
  if ctx.triggerType = .property then Prog.forEach rules (clearRule ctx cache) else pure ()

-- `between` holds whenever the contexts so far are done; `during` inside the next
-- one, when the rules so far are done.
structure Inductive (catalogue : String → List AlarmRule)
    (between : List TriggerContext → Past → World → Prop)
    (during : List TriggerContext → TriggerContext → List AlarmRule → Past → World → Prop) :
    Prop where
  load : ∀ before ctx past w, between before past w →
    (loadRules ctx cache).wp sem (fun loaded past w =>
      (loaded = none ∧ between (before ++ [ctx]) past w) ∨
        (loaded = some (catalogue ctx.productId) ∧ during before ctx [] past w)) past w
  rule : ∀ before ctx done rule rest past w, catalogue ctx.productId = done ++ rule :: rest →
    during before ctx done past w →
    (evaluateRule repo nowUtc ctx cache rule).wp sem
      (fun _ => during before ctx (done ++ [rule])) past w
  clear : ∀ before ctx past w, during before ctx (catalogue ctx.productId) past w →
    (clearLoop cache ctx (catalogue ctx.productId)).wp sem (fun _ => between (before ++ [ctx])) past
      w

variable {repo cache} {catalogue : String → List AlarmRule}
  {between : List TriggerContext → Past → World → Prop}
  {during : List TriggerContext → TriggerContext → List AlarmRule → Past → World → Prop}

section Cut

variable {before : List TriggerContext} {ctx : TriggerContext} {done rest : List AlarmRule}
  {rule : AlarmRule} {start : World}

-- One evaluation, cut at the rule.
theorem evaluation_final (w : World)
    (hloaded : ((loadRules ctx cache).run sem w).1 = some (done ++ rule :: rest)) :
    (evaluateAndTrigger ctx repo cache none).final sem w =
      (clearLoop cache ctx (done ++ rule :: rest)).final sem
        ((Prog.forEach rest (evaluateRule repo nowUtc ctx cache)).final sem
          ((evaluateRule repo nowUtc ctx cache rule).final sem
            ((Prog.forEach done (evaluateRule repo nowUtc ctx cache)).final sem
              ((loadRules ctx cache).final sem w)))) := by
  simp only [evaluateAndTrigger, Prog.bind_eq, Prog.final_bind, hloaded, evaluateRules,
    Option.getD_none, Prog.final_forEach_append, Prog.final_forEach_cons]
  rfl

theorem upTo_final :
    (upTo repo cache before ctx done).final sem start =
      (Prog.forEach done (evaluateRule repo nowUtc ctx cache)).final sem
        ((loadRules ctx cache).final sem ((evaluations repo cache before).final sem start)) := by
  simp [upTo]

theorem evaluations_snoc :
    (evaluations repo cache (before ++ [ctx])).final sem start =
      (evaluateAndTrigger ctx repo cache none).final sem
        ((evaluations repo cache before).final sem start) := by
  simp only [evaluations, Prog.final_forEach_append, Prog.final_forEach_cons,
    Prog.final_forEach_nil]

-- Ids are unique, so that no other rule of the list has the id of this one.
theorem ids_ne_of_nodup {rules : List AlarmRule} (hrules : rules = done ++ rule :: rest)
    (hunique : (rules.map (·.id)).Nodup) :
    (∀ other ∈ done, other.id ≠ rule.id) ∧ ∀ other ∈ rest, other.id ≠ rule.id := by
  subst hrules
  simp only [List.map_append, List.map_cons, List.nodup_append, List.nodup_cons, List.mem_map,
    List.mem_cons] at hunique
  exact ⟨fun other hmem => hunique.2.2 other.id ⟨other, hmem, rfl⟩ rule.id (.inl rfl),
    fun other hmem he => hunique.2.1.1 ⟨other, hmem, he⟩⟩

end Cut

namespace Inductive

variable (h : Inductive repo cache catalogue between during)
include h

theorem rules_wp (before : List TriggerContext) (ctx : TriggerContext) (done rest : List AlarmRule)
    (he : catalogue ctx.productId = done ++ rest) {past : Past} {w : World}
    (hstart : during before ctx [] past w) :
    (Prog.forEach done (evaluateRule repo nowUtc ctx cache)).wp sem
      (fun _ => during before ctx done) past w := by
  apply Prog.wp_forEach _ done _ hstart
  intro first rule second hdone past w hinv
  exact h.rule before ctx first rule (second ++ rest) past w (by simp [he, hdone]) hinv

theorem evaluation_wp (before : List TriggerContext) (ctx : TriggerContext) {past : Past}
    {w : World} (hstart : between before past w) :
    (evaluateAndTrigger ctx repo cache none).wp sem (fun _ => between (before ++ [ctx]))
      past w := by
  apply Prog.wp_seq (h.load before ctx past w hstart)
  rintro loaded past w (⟨rfl, hdone⟩ | ⟨rfl, hloaded⟩)
  · exact hdone
  · apply Prog.wp_seq (h.rules_wp before ctx _ [] (by simp) hloaded)
    exact fun _ past w hrules => h.clear before ctx past w hrules

theorem evaluations_wp (contexts : List TriggerContext) {past : Past} {w : World}
    (hstart : between [] past w) :
    (evaluations repo cache contexts).wp sem (fun _ => between contexts) past w := by
  apply Prog.wp_forEach _ contexts _ hstart
  intro before ctx after _ past w hinv
  exact h.evaluation_wp before ctx hinv

-- Whenever the run comes to a rule, the invariant holds.
theorem upTo_wp (before : List TriggerContext) (ctx : TriggerContext) (done rest : List AlarmRule)
    (he : catalogue ctx.productId = done ++ rest) {w : World} (hstart : between [] [] w)
    (hloaded : ((loadRules ctx cache).run sem ((evaluations repo cache before).final sem w)).1 ≠
      none) :
    during before ctx done ((upTo repo cache before ctx done).trace sem w)
      ((upTo repo cache before ctx done).final sem w) := by
  have hbetween := (Prog.wp_iff _ _ _).mp (h.evaluations_wp before hstart)
  have hload := (Prog.wp_iff _ _ _).mp (h.load before ctx _ _ hbetween)
  rcases hload with ⟨hnone, -⟩ | ⟨-, hduring⟩
  · exact absurd hnone hloaded
  · have hrules := (Prog.wp_iff _ _ _).mp (h.rules_wp before ctx done rest he hduring)
    simpa [upTo] using hrules

end Inductive

-- The rules that every evaluation of a product finds, cached or not.
structure Serves (cache : RuleCache) (catalogue : String → List AlarmRule) (w : World) : Prop where
  cached : ∀ productId loaded, w.maps cache.rules productId = some loaded →
    loaded = catalogue productId
  stored : ∀ productId, enabledRules productId w.tables.rules = catalogue productId

theorem Serves.of_same {w w' : World} (h : Serves cache catalogue w) (hmaps : Part.maps.Same w w')
    (hrules : Part.rules.Same w w') : Serves cache catalogue w' := by
  simp only [Part.Same] at hmaps hrules
  exact ⟨hmaps ▸ h.cached, hrules ▸ h.stored⟩

theorem Serves.step {w : World} (h : Serves cache catalogue w) (op : Op)
    (hmaps : op.writes ≠ some .maps) (hrules : op.writes ≠ some .rules) :
    Serves cache catalogue (sem op w).2 :=
  h.of_same (sem_same .maps hmaps w) (sem_same .rules hrules w)

theorem Serves.mapInsert {w : World} (h : Serves cache catalogue w) (productId : String) :
    Serves cache catalogue (sem (.mapInsert cache.rules productId (catalogue productId)) w).2 := by
  refine ⟨fun other loaded hloaded => ?_, h.stored⟩
  by_cases he : other = productId
  · subst he
    simpa [sem, Op.exec, eq_comm] using hloaded
  · exact h.cached other loaded (by simpa [sem, Op.exec, Function.update_of_ne he] using hloaded)

-- Loading the rules fails only when its statement fails.
theorem loadRules_wp (inv : Past → World → Prop)
    (hkeep : ∀ op past w, op.Within [.maps] → inv past w →
      inv (⟨op, (sem op w).1⟩ :: past) (sem op w).2)
    (ctx : TriggerContext) (past : Past) {w : World} (hserves : Serves cache catalogue w)
    (hinv : inv past w) :
    (loadRules ctx cache).wp sem (fun loaded past w' =>
      Serves cache catalogue w' ∧ inv past w' ∧
        ((loaded = none ∧ w.sqlFaults 0 ≠ none) ∨ loaded = some (catalogue ctx.productId)))
          past w := by
  have hget := hkeep (.mapGet cache.rules ctx.productId) past w (within_of_writes_none rfl) hinv
  have hserved := hserves.step (.mapGet cache.rules ctx.productId) (by simp [Op.writes])
    (by simp [Op.writes])
  simp only [loadRules, RuleCache.getRules, Prog.bind_eq, Prog.perform_bind, Prog.wp_call]
  cases hcached : (sem (.mapGet cache.rules ctx.productId) w).1 with
  | some loaded =>
      have he := hserves.cached _ loaded hcached
      exact ⟨hserved, hcached ▸ hget, .inr (by rw [he])⟩
  | none =>
      rw [hcached] at hget
      have hquery := hkeep (.sql (.queryEnabledRulesByProduct ctx.productId)) _ _
        (within_of_writes_none rfl) hget
      have hread := hserved.step (.sql (.queryEnabledRulesByProduct ctx.productId))
        (by simp [Op.writes, Sql.writes]) (by simp [Op.writes, Sql.writes])
      simp only [query, Prog.perform_bind, Prog.wp_call]
      cases hfound : (sem (.sql (.queryEnabledRulesByProduct ctx.productId))
          (sem (.mapGet cache.rules ctx.productId) w).2).1 with
      | error e =>
          rw [hfound] at hquery
          refine ⟨hread, hquery, .inl ⟨rfl, fun hnone => ?_⟩⟩
          simp [sem, Op.exec, hnone] at hfound
      | ok found =>
          rw [hfound] at hquery
          have he : found = catalogue ctx.productId := by
            simp only [sem, Op.exec] at hfound
            split at hfound
            · simp at hfound
            · simpa [Sql.exec, hserves.stored, eq_comm] using hfound
          subst he
          have hinsert := hkeep (.mapInsert cache.rules ctx.productId (catalogue ctx.productId)) _ _
            (within_of_writes rfl (by simp)) hquery
          exact ⟨hread.mapInsert _, hinsert, .inr rfl⟩

-- With the database up, loading succeeds.
theorem loadRules_run (ctx : TriggerContext) {w : World} (hserves : Serves cache catalogue w)
    (hup : ∀ n, w.sqlFaults n = none) :
    ((loadRules ctx cache).run sem w).1 = some (catalogue ctx.productId) := by
  have hwp := loadRules_wp (fun _ _ => True) (fun _ _ _ _ _ => trivial) ctx [] hserves trivial
  have hload := (Prog.wp_iff _ _ _).mp hwp
  rcases hload.2.2 with ⟨-, hfault⟩ | hsome
  · exact absurd (hup 0) hfault
  · exact hsome

-- Where the database is up, no statement of a run has failed.
theorem no_sql_error {α : Type} (program : M α) {w : World} (hup : ∀ n, w.sqlFaults n = none)
    (stmt : Sql) (error : String) :
    (⟨.sql stmt, .error error⟩ : Event Op.Ans) ∉ program.trace sem w := by
  have hwp : program.wp sem (fun _ past w => (∀ n, w.sqlFaults n = none) ∧
      ∀ stmt error, (⟨.sql stmt, .error error⟩ : Event Op.Ans) ∉ past) [] w := by
    refine program.uses_true.wp _ ?_ ⟨hup, by simp⟩
    rintro op past w - ⟨hup, hnone⟩
    refine ⟨sqlUp_step hup, fun stmt error hmem => ?_⟩
    rcases List.mem_cons.mp hmem with he | hmem
    · obtain ⟨rfl, he⟩ := Sigma.mk.inj he
      simp [sem, Op.exec, hup] at he
    · exact hnone stmt error hmem
  rw [Prog.wp_iff, List.append_nil] at hwp
  exact hwp.2 stmt error

section Fire

variable (ctx : TriggerContext) (rule : AlarmRule) (w : World)

-- The dedup check that `fire` makes in the world `w`.
abbrev dedupCheck (cache : RuleCache) : M Bool :=
  cache.stateStore.checkDedup rule.id ctx.deviceId rule.throttleMinutes.toInt w.tick.clock

theorem fire_final_skipped (h : ((dedupCheck ctx rule w cache).run sem w.tick).1 = true) :
    (fire repo nowUtc ctx cache rule).final sem w = (dedupCheck ctx rule w cache).final sem
      w.tick := by
  simp only [fire, nowUtc, Prog.bind_eq, Prog.perform_bind, Prog.final, Prog.run_call,
    Prog.run_bind]
  rw [show (sem .nowUtc w) = (w.tick.clock, w.tick) from rfl, if_pos h]
  rfl

theorem fire_final_passed (h : ((dedupCheck ctx rule w cache).run sem w.tick).1 = false) :
    (fire repo nowUtc ctx cache rule).final sem w =
      (executeActions repo (rule.actions.asArray.getD []) ctx rule.id rule.name).final sem
        ((cache.stateStore.markTriggered rule.id ctx.deviceId rule.throttleMinutes.toInt).final sem
          ((dedupCheck ctx rule w cache).final sem w.tick)) := by
  simp only [fire, nowUtc, Prog.bind_eq, Prog.perform_bind, Prog.final, Prog.run_call,
    Prog.run_bind]
  rw [show (sem .nowUtc w) = (w.tick.clock, w.tick) from rfl, if_neg (Bool.eq_false_iff.mp h)]
  simp only [Prog.run_bind]
  rfl

end Fire

-- The insert decides; what follows it only touches the webhook columns.
theorem executeActions_wp (inv : Past → World → Prop)
    (hkeep : ∀ op past w, op.Reports → inv past w → inv (⟨op, (sem op w).1⟩ :: past) (sem op w).2)
    {ctx : TriggerContext} {actions : List Json} {ruleId : Int} {ruleName : String} {past : Past}
    {w : World}
    (hinsert : inv (⟨.sql (.insertAlarm (newAlarm (parseActions actions) ctx ruleId ruleName)),
        (sem (.sql (.insertAlarm (newAlarm (parseActions actions) ctx ruleId ruleName))) w).1⟩ ::
          past)
      (sem (.sql (.insertAlarm (newAlarm (parseActions actions) ctx ruleId ruleName))) w).2) :
    (executeActions repo actions ctx ruleId ruleName).wp sem (fun _ => inv) past w := by
  simp only [executeActions, query, Prog.bind_eq, Prog.perform_bind, Prog.wp_call]
  cases hresult : (sem (.sql (.insertAlarm (newAlarm (parseActions actions) ctx ruleId ruleName)))
    w).1 with
  | error e =>
      rw [hresult] at hinsert
      exact hinsert
  | ok alarmId =>
      rw [hresult] at hinsert
      simp only
      split_ifs
      · exact hinsert
      · apply Prog.wp_seq ((reports_sendWebhooks _ _ _).wp inv hkeep hinsert)
        intro failed past w hinv
        exact Prog.wp_seq ((reports_recordWebhooks repo alarmId failed).wp inv hkeep hinv)
          fun _ _ _ h => h

end Runs

end RmqttThings.RuleEngine
