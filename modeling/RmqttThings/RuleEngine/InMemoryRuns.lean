import RmqttThings.RuleEngine.Semantics

namespace RmqttThings.RuleEngine

open Effects
open InMemoryRuleStateStore (stateKey)

-- The runs of the in-memory store while the clock stands still.

section Runs

variable {w : World} (h : w.Still) (ruleId : Int) (deviceId : String) (now : OffsetDateTime)
include h

theorem run_nowUtc : nowUtc.run sem w = (w.clock, w) := by
  simp only [nowUtc, Prog.run_perform, h.sem_eq, Op.exec]

theorem run_inMemory_dedup {throttle : Int} (hpos : 0 < throttle) :
    (InMemoryRuleStateStore.checkDedup ruleId deviceId throttle now).run sem w =
      ((w.dedup (stateKey ruleId deviceId)).elim false
        fun marked => decide (wholeMinutes (now - marked) < throttle), w) := by
  simp only [InMemoryRuleStateStore.checkDedup, if_neg (not_le.mpr hpos), Prog.bind_eq,
    Prog.perform_bind, Prog.run_call, h.sem_eq, Op.exec, Prog.pure_eq]
  cases w.dedup (stateKey ruleId deviceId) <;> rfl

theorem run_inMemory_mark (throttle : Int) :
    (InMemoryRuleStateStore.markTriggered ruleId deviceId throttle).run sem w =
      (.ok (), w.withDedup (Function.update w.dedup (stateKey ruleId deviceId)
        (some w.clock))) := by
  simp only [InMemoryRuleStateStore.markTriggered, Prog.bind_eq, Prog.run_bind, run_nowUtc h,
    Prog.run_perform, h.sem_eq, Op.exec, Prog.pure_eq, Prog.run_ret]

theorem run_inMemory_check_none {duration : Int32} (hpos : 0 < duration.toInt)
    (hnone : w.durationTracking (stateKey ruleId deviceId) = none) :
    (InMemoryRuleStateStore.checkDuration ruleId deviceId duration now).run sem w =
      (.justStarted, w.withDurationTracking
        (Function.update w.durationTracking (stateKey ruleId deviceId) (some now))) := by
  simp only [InMemoryRuleStateStore.checkDuration, if_neg (not_le.mpr hpos), Prog.bind_eq,
    Prog.perform_bind, Prog.run_call, h.sem_eq, Op.exec, hnone, Prog.pure_eq, Prog.run_ret]

theorem run_inMemory_check_some {duration : Int32} (hpos : 0 < duration.toInt)
    {started : OffsetDateTime}
    (hsome : w.durationTracking (stateKey ruleId deviceId) = some started) :
    (InMemoryRuleStateStore.checkDuration ruleId deviceId duration now).run sem w =
      (if wholeMinutes (now - started) ≥ duration.toInt then .met else .notYetMet, w) := by
  simp only [InMemoryRuleStateStore.checkDuration, if_neg (not_le.mpr hpos), Prog.bind_eq,
    Prog.perform_bind, Prog.run_call, h.sem_eq, Op.exec, hsome, Prog.pure_eq]
  split_ifs <;> rfl

theorem run_inMemory_reset :
    (InMemoryRuleStateStore.resetDuration ruleId deviceId).run sem w =
      (.ok (), w.withDurationTracking
        (Function.update w.durationTracking (stateKey ruleId deviceId) none)) := by
  simp only [InMemoryRuleStateStore.resetDuration, Prog.bind_eq, Prog.perform_bind, Prog.run_call,
    h.sem_eq, Op.exec, Prog.pure_eq, Prog.run_ret]

end Runs

end RmqttThings.RuleEngine
