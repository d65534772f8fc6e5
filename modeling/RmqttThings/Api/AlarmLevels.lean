import RmqttThings.Api.AlarmLifecycle
import RmqttThings.Api.StoredRules
import RmqttThings.Api.WebhookRuns

namespace RmqttThings.Api

open Effects RuleEngine

section Listing

structure AlarmQuery where
  productId : Option String
  deviceId : Option String
  level : Option String
  acknowledged : Option Bool
  status : Option String
  page : Int
  pageSize : Int

structure PaginationInfo where
  page : Int
  pageSize : Int
  total : Nat

structure AlarmRecordListResponse where
  data : List ApiAlarmRecord
  pagination : PaginationInfo

def parseLevel (levelStr : String) : Option Int16 :=
  match levelStr with
  | "info" => some 0
  | "warning" => some 1
  | "critical" => some 2
  | _ => none

def alarmStatuses : List String := ["active", "acknowledged", "cleared"]

def validateAlarmStatus (status : Option String) : Except ApiError Unit :=
  match status with
  | none => .ok ()
  | some text =>
      if alarmStatuses.contains text then .ok ()
      else .error (.badRequest ("Invalid status '" ++ text ++
        "'. Must be one of: active, acknowledged, cleared"))

def statusText : AlarmStatus → String
  | .active => "active"
  | .acknowledged => "acknowledged"
  | .cleared => "cleared"

-- The conditions that `query_alarms` appends to its two statements.
def alarmMatches (productId deviceId : Option String) (level : Option Int16)
    (acknowledged : Option Bool) (status : Option String) (row : AlarmRecord) : Bool :=
  productId.all (row.productId == ·) && deviceId.all (row.deviceId == ·) &&
    level.all (row.level == ·) &&
    match status, acknowledged with
    | some text, _ => statusText row.status == text
    | none, some true => row.status != .active
    | none, some false => row.status == .active
    | none, none => true

-- `ORDER BY created_at DESC`: rows of one instant come in an order of the database's choice.
structure NewestFirst where
  arrange : List AlarmRecord → List AlarmRecord
  perm : ∀ rows, (arrange rows).Perm rows
  sorted : ∀ rows, (arrange rows).Pairwise fun row next => next.createdAt ≤ row.createdAt

-- `LIMIT page_size OFFSET (page - 1) * page_size`; the database refuses negative numbers.
def paginate {α : Type} (page pageSize : Int) (rows : List α) : Except String (List α) :=
  let offset := wrapI64 (wrapI64 (page - 1) * pageSize)
  if pageSize < 0 then .error "LIMIT must not be negative"
  else if offset < 0 then .error "OFFSET must not be negative"
  else .ok ((rows.drop offset.toNat).take pageSize.toNat)

-- The rows are counted by a statement of its own, on the table as it is then.
def queryAlarms (order : NewestFirst) (rows counted : List AlarmRecord) (cond : AlarmRecord → Bool)
    (page pageSize : Int) : Except String (List AlarmRecord × Nat) := do
  let alarms ← paginate page pageSize (order.arrange (rows.filter cond))
  return (alarms, counted.countP cond)

-- A level name that is not known filters nothing.
def listAlarms (rfc3339 : OffsetDateTime → Option String) (order : NewestFirst)
    (rows counted : List AlarmRecord)
    (query : AlarmQuery) : Except ApiError AlarmRecordListResponse := do
  validateAlarmStatus query.status
  if query.status.isSome ∧ query.acknowledged.isSome then
    throw (.badRequest "Parameters 'status' and 'acknowledged' are mutually exclusive")
  let level := query.level.bind parseLevel
  match queryAlarms order rows counted
      (alarmMatches query.productId query.deviceId level query.acknowledged query.status) query.page
        query.pageSize with
  | .error _ => throw databaseError
  | .ok (alarms, total) =>
      return ⟨alarms.map (ApiAlarmRecord.ofRecord rfc3339), ⟨query.page, query.pageSize, total⟩⟩

def levelQuery (level : String) (page pageSize : Int) : AlarmQuery :=
  ⟨none, none, some level, none, none, page, pageSize⟩

variable (rfc3339 : OffsetDateTime → Option String) (order : NewestFirst) (rows : List AlarmRecord)

-- The alarm is on some page of the list that is filtered by the level.
def ListedAt (level : String) (id : Int) : Prop :=
  ∃ counted page pageSize response, listAlarms rfc3339 order rows counted
    (levelQuery level page pageSize) = .ok response ∧ ∃ shown ∈ response.data, shown.id = id

variable {rfc3339 order rows}

theorem mem_of_paginate {α : Type} {page pageSize : Int} {items shown : List α} {item : α}
    (h : paginate page pageSize items = .ok shown) (hmem : item ∈ shown) : item ∈ items := by
  simp only [paginate] at h
  split_ifs at h
  rw [← Except.ok.inj h] at hmem
  exact List.mem_of_mem_drop (List.mem_of_mem_take hmem)

theorem paginate_first {α : Type} (items : List α) : paginate 1 items.length items = .ok items := by
  simp [paginate, wrapI64]

theorem listAlarms_level (counted : List AlarmRecord) (level : String) (page pageSize : Int) :
    listAlarms rfc3339 order rows counted (levelQuery level page pageSize) =
      match queryAlarms order rows counted (fun row => (parseLevel level).all (row.level == ·)) page
        pageSize with
      | .error _ => .error databaseError
      | .ok (alarms, total) =>
          .ok ⟨alarms.map (ApiAlarmRecord.ofRecord rfc3339), ⟨page, pageSize, total⟩⟩ := by
  have hmatches : alarmMatches none none (parseLevel level) none none =
      fun row => (parseLevel level).all (row.level == ·) := by
    funext row
    simp [alarmMatches]
  have hquery : (levelQuery level page pageSize).level.bind parseLevel = parseLevel level := rfl
  rw [listAlarms, hquery, ← hmatches]
  rfl

-- Only the filter decides which alarms are listed.
theorem listedAt_iff (level : String) (id : Int) :
    ListedAt rfc3339 order rows level id ↔
      ∃ row ∈ rows, row.id = id ∧ (parseLevel level).all (row.level == ·) = true := by
  simp only [ListedAt, listAlarms_level, queryAlarms]
  constructor
  · rintro ⟨counted, page, pageSize, response, hlist, shown, hshown, hid⟩
    cases hpage : paginate page pageSize (order.arrange (rows.filter
        fun row => (parseLevel level).all (row.level == ·))) with
    | error e => simp [hpage, bind, Except.bind] at hlist
    | ok alarms =>
        simp only [hpage, bind, Except.bind, pure, Except.pure, Except.ok.injEq] at hlist
        subst hlist
        obtain ⟨row, hrow, rfl⟩ := List.mem_map.mp hshown
        have hmem := (order.perm _).mem_iff.mp (mem_of_paginate hpage hrow)
        obtain ⟨hrows, hcond⟩ := List.mem_filter.mp hmem
        exact ⟨row, hrows, hid, hcond⟩
  · rintro ⟨row, hrow, hid, hcond⟩
    have hmem : row ∈ order.arrange (rows.filter fun row => (parseLevel level).all
        (row.level == ·)) :=
      (order.perm _).mem_iff.mpr (List.mem_filter.mpr ⟨hrow, hcond⟩)
    generalize hall : order.arrange (rows.filter fun row => (parseLevel level).all
      (row.level == ·)) = all at hmem
    refine ⟨[], 1, all.length, ⟨all.map (ApiAlarmRecord.ofRecord rfc3339), ⟨1, all.length, 0⟩⟩, ?_,
      ApiAlarmRecord.ofRecord rfc3339 row, List.mem_map_of_mem hmem, hid⟩
    rw [paginate_first]
    rfl

end Listing

section Levels

def levelNames : List String := ["info", "warning", "critical"]

-- The comment of the column: 0=info, 1=warning, 2=critical.
def levelNumbered (n : Int) : Option String := if n < 0 then none else levelNames[n.toNat]?

def asInteger : Json → Option Int
  | .number (.posInt value) => some value.toNat
  | .number (.negInt value) => some value.toInt
  | _ => none

def isAlarm (action : Json) : Bool := (action.get "type").bind Json.asStr == some "alarm"

-- The level that is configured in the entry that counts, the first one of type `alarm`.
def alarmLevel (items : List Json) : Option Json := (items.find? isAlarm).bind (·.get "level")

def integerLevel (items : List Json) : Option Int := (alarmLevel items).bind asInteger

theorem parseAction_of_isAlarm {action : Json} (h : isAlarm action = true) :
    ∃ message, parseAction action = some (.alarm (RuleEngine.parseLevel (action.get "level"))
      message) := by
  have htype : (action.get "type").bind Json.asStr = some "alarm" := by simpa [isAlarm] using h
  simp only [parseAction, htype]
  exact ⟨_, rfl⟩

theorem alarm?_of_not_isAlarm {action : Json} (h : isAlarm action = false) :
    (parseAction action).bind AlarmAction.alarm? = none := by
  unfold parseAction
  split
  · rename_i htype
    simp [isAlarm, htype] at h
  · cases (action.get "url").bind Json.asStr <;> rfl
  · rfl

theorem parseActions_alarm {items : List Json} {action : Json}
    (h : items.find? isAlarm = some action) :
    ∃ message, (parseActions items).findSome? AlarmAction.alarm? =
      some (RuleEngine.parseLevel (action.get "level"), message) := by
  induction items with
  | nil => simp at h
  | cons first rest ih =>
      cases hfirst : isAlarm first with
      | true =>
          simp only [List.find?_cons, hfirst, Option.some.injEq] at h
          subst h
          obtain ⟨message, hparse⟩ := parseAction_of_isAlarm hfirst
          exact ⟨message, by rw [parseActions, List.filterMap_cons_some hparse]; rfl⟩
      | false =>
          simp only [List.find?_cons, hfirst] at h
          obtain ⟨message, hrest⟩ := ih h
          have hskip := alarm?_of_not_isAlarm hfirst
          refine ⟨message, ?_⟩
          cases hparse : parseAction first with
          | none => simpa [parseActions, hparse] using hrest
          | some parsed =>
              rw [hparse, Option.bind_some] at hskip
              simpa [parseActions, hparse, hskip] using hrest

-- A list of actions that is accepted decides the level of every alarm that is created from it.
theorem newAlarm_level {items : List Json} (hvalid : validateActions (.array items) = .ok ())
    (ctx : TriggerContext) (ruleId : Int) (ruleName : String) :
    (newAlarm (parseActions items) ctx ruleId ruleName).level = RuleEngine.parseLevel
      (alarmLevel items) := by
  obtain ⟨listed, hitems, action, haction, htype⟩ :=
    (validateActions_ok_iff (.array items)).mp hvalid
  rw [← Json.array.inj hitems] at haction
  cases hfind : items.find? isAlarm with
  | none => exact absurd (by simp [isAlarm, htype]) (List.find?_eq_none.mp hfind action haction)
  | some first =>
      obtain ⟨message, hparsed⟩ := parseActions_alarm hfind
      simp [newAlarm, alarmLevel, hparsed, hfind]

def InRange (level : Int16) : Prop := level = 0 ∨ level = 1 ∨ level = 2

theorem inRange_of_toInt {level : Int16} (h : 0 ≤ level.toInt) (hle : level.toInt ≤ 2) :
    InRange level := by
  have hcases : level.toInt = 0 ∨ level.toInt = 1 ∨ level.toInt = 2 := by omega
  exact hcases.imp (Int16.toInt_inj.mp ·) (Or.imp (Int16.toInt_inj.mp ·) (Int16.toInt_inj.mp ·))

theorem parseLevel_inRange {level : Option Json} (h : level.bind asInteger = none) :
    InRange (RuleEngine.parseLevel level) := by
  unfold RuleEngine.parseLevel
  split
  · exact .inl rfl
  · exact .inr (.inl rfl)
  · exact .inr (.inr rfl)
  · rename_i value
    cases value with
    | posInt value => simp [asInteger] at h
    | negInt value => simp [asInteger] at h
    | float value => exact .inl rfl
  · exact .inl rfl

theorem toInt_toInt64 {value : UInt64} (h : value.toNat < 2 ^ 63) :
    value.toInt64.toInt = value.toNat := by
  have hbits : value.toInt64.toInt = value.toBitVec.toInt := rfl
  rw [hbits, BitVec.toInt_eq_toNat_of_lt (by rw [UInt64.toNat_toBitVec]; omega),
    UInt64.toNat_toBitVec]

-- The truncation to sixteen bits leaves the three numbers of the levels alone.
theorem parseLevel_of_integer {value : Json} {n : Int} (h : asInteger value = some n) (hn : 0 ≤ n)
    (hle : n ≤ 2) :
    (RuleEngine.parseLevel (some value)).toInt = n := by
  have htruncate {number : Number} (hnumber : (number.asI64.map Int64.toInt).getD 0 = n) :
      (RuleEngine.parseLevel (some (.number number))).toInt = n := by
    rw [RuleEngine.parseLevel, hnumber, Int16.toInt_ofInt_of_le] <;> omega
  cases value with
  | number number =>
      cases number with
      | posInt value =>
          have hvalue : (value.toNat : Int) = n := by simpa [asInteger] using h
          have hsmall : value.toNat < 2 ^ 63 := by omega
          refine htruncate ?_
          rw [Number.asI64, if_pos hsmall, Option.map_some, Option.getD_some, toInt_toInt64 hsmall,
            hvalue]
      | negInt value =>
          refine htruncate ?_
          simpa [asInteger, Number.asI64] using h
      | float value => simp [asInteger] at h
  | _ => simp [asInteger] at h

variable (rfc3339 : OffsetDateTime → Option String) (row : AlarmRecord)

def shownLevel : String := (ApiAlarmRecord.ofRecord rfc3339 row).level

-- The display calls every other level critical, and the filter finds only the level 2 by that name.
theorem filter_shows_iff :
    (∀ level ∈ levelNames, ((parseLevel level).all (row.level == ·) = true ↔
      shownLevel rfc3339 row = level)) ↔ InRange row.level := by
  simp only [levelNames, List.forall_mem_cons, List.not_mem_nil, false_implies, implies_true,
    and_true]
  have hinfo : (parseLevel "info").all (row.level == ·) = decide (row.level = 0) := rfl
  have hwarning : (parseLevel "warning").all (row.level == ·) = decide (row.level = 1) := rfl
  have hcritical : (parseLevel "critical").all (row.level == ·) = decide (row.level = 2) := rfl
  rw [hinfo, hwarning, hcritical, shownLevel, ApiAlarmRecord.ofRecord, InRange]
  by_cases hzero : row.level = 0
  · simp [hzero]
  · by_cases hone : row.level = 1
    · simp [hone]
    · simp [hzero, hone]

theorem shown_of_inRange (h : InRange row.level) :
    levelNumbered row.level.toInt = some (shownLevel rfc3339 row) := by
  rw [shownLevel, ApiAlarmRecord.ofRecord]
  rcases h with h | h | h <;> rw [h] <;> rfl

end Levels

section Runs

-- The alarm `id` has been created from these actions.
def CreatedFrom (items : List Json) (id : Int) (log : Log) : Prop :=
  ∃ thread ctx ruleId ruleName,
    (thread, (⟨.sql (.insertAlarm (newAlarm (parseActions items) ctx ruleId ruleName)), .ok id⟩ :
      Event Op.Ans)) ∈ log

def HasLevel (w : World) (id : Int) (level : Int16) : Prop :=
  ∃ row, alarmAt w id = some row ∧ row.level = level

theorem level_of_rowStep {now : OffsetDateTime} {row row' : AlarmRecord}
    (h : RowStep now row row') :
    row'.level = row.level := by
  cases h <;> rfl

theorem HasLevel.step {w : World} {id : Int} {level : Int16} (h : HasLevel w id level) (op : Op) :
    HasLevel (sem op w).2 id level := by
  obtain ⟨row, hrow, hlevel⟩ := h
  obtain ⟨row', hrow', hstep⟩ := alarmAt_step op hrow
  exact ⟨row', hrow', (level_of_rowStep hstep).trans hlevel⟩

theorem hasLevel_inserted {w : World} (hfresh : w.Fresh) {alarm : NewAlarm} {id : Int}
    (hanswer : .ok id = (sem (.sql (.insertAlarm alarm)) w).1) :
    HasLevel (sem (.sql (.insertAlarm alarm)) w).2 id alarm.level := by
  obtain ⟨hid, -⟩ := retryAt_inserted hfresh hanswer
  have hup : w.sqlFaults 0 = none := by
    cases hfault : w.sqlFaults 0 with
    | none => rfl
    | some error => simp [sem, Op.exec, hfault] at hanswer
  have hmem : alarm.toRecord id w.tick.clock ∈
      (sem (.sql (.insertAlarm alarm)) w).2.tables.alarms := by
    rw [hid]
    simp [sem, Op.exec, hup, Sql.exec]
  exact ⟨_, alarmAt_of_mem (hfresh.step _) hmem, rfl⟩

theorem hasLevel_stateAt {start : World} (hfresh : start.Fresh) {log : Log}
    (hanswered : Pool.Answered sem start log) {items : List Json}
    (hvalid : validateActions (.array items) = .ok ()) {id : Int}
    (hcreated : CreatedFrom items id log) :
    HasLevel (stateAt start log) id (RuleEngine.parseLevel (alarmLevel items)) := by
  obtain ⟨thread, ctx, ruleId, ruleName, hmem⟩ := hcreated
  obtain ⟨later, earlier, rfl⟩ := List.append_of_mem hmem
  rw [← newAlarm_level hvalid ctx ruleId ruleName]
  have hinserted := hasLevel_inserted (fresh_stateAt hfresh earlier) (hanswered later _ earlier rfl)
  clear hanswered hmem
  induction later with
  | nil => exact hinserted
  | cons entry later ih => exact ih.step entry.2.1

section Agreement

variable (rfc3339 : OffsetDateTime → Option String) (order : NewestFirst) (w : World) (id : Int)
  (items : List Json)

-- By the name of every level the list has the alarm exactly when it shows that level, and a level
-- that is configured by its number is shown as the level of this number.
structure LevelsAgree : Prop where
  filtered : ∀ level ∈ levelNames, (ListedAt rfc3339 order w.tables.alarms level id ↔
    ∃ row ∈ w.tables.alarms, row.id = id ∧ shownLevel rfc3339 row = level)
  numbered : ∀ n, integerLevel items = some n →
    ∃ row ∈ w.tables.alarms, row.id = id ∧ levelNumbered n = some (shownLevel rfc3339 row)

variable {w id items}

-- The condition of a level that is kept in the row.
theorem levelsAgree_iff_of_hasLevel (hfresh : w.Fresh)
    (hlevel : HasLevel w id (RuleEngine.parseLevel (alarmLevel items))) :
    LevelsAgree rfc3339 order w id items ↔ ∀ n, integerLevel items = some n → 0 ≤ n ∧ n ≤ 2 := by
  obtain ⟨row, hrow, hvalue⟩ := hlevel
  have hunique (property : AlarmRecord → Prop) :
      (∃ other ∈ w.tables.alarms, other.id = id ∧ property other) ↔ property row := by
    constructor
    · rintro ⟨other, hmem, rfl, hproperty⟩
      rwa [← Option.some.inj ((alarmAt_of_mem hfresh hmem).symm.trans hrow)]
    · intro hproperty
      have hid : row.id = id := by simpa using List.find?_some hrow
      exact ⟨row, List.mem_of_find?_eq_some hrow, hid, hproperty⟩
  constructor
  · rintro ⟨-, hnumbered⟩ n hn
    have hshown := (hunique _).mp (hnumbered n hn)
    simp only [levelNumbered] at hshown
    split_ifs at hshown with hnegative
    have hlength := (List.getElem?_eq_some_iff.mp hshown).1
    simp only [levelNames, List.length_cons, List.length_nil] at hlength
    omega
  · intro hcondition
    have hrange : InRange row.level ∧ ∀ n, integerLevel items = some n → row.level.toInt = n := by
      cases hinteger : integerLevel items with
      | none => exact ⟨hvalue ▸ parseLevel_inRange hinteger, by simp⟩
      | some n =>
          obtain ⟨hn, hle⟩ := hcondition n hinteger
          obtain ⟨value, hlevel, hasInteger⟩ := Option.bind_eq_some_iff.mp hinteger
          rw [hlevel] at hvalue
          have hkept := parseLevel_of_integer hasInteger hn hle
          rw [← hvalue] at hkept
          refine ⟨inRange_of_toInt (by omega) (by omega), fun m hm => ?_⟩
          rw [hkept, Option.some.inj hm]
    constructor
    · intro level hname
      rw [listedAt_iff, hunique, hunique]
      exact (filter_shows_iff rfc3339 row).mpr hrange.1 level hname
    · intro n hn
      rw [hunique, ← hrange.2 n hn]
      exact shown_of_inRange rfc3339 row hrange.1

end Agreement

variable (state : ApiState) (start : World) (moves : List (Move Request))

-- Whatever the requests are: an alarm that accepted actions have created is listed by the level
-- that it shows, as it is configured, exactly when a configured integer is the number of a level.
theorem levels_agree_iff (hfresh : start.Fresh) (rfc3339 : OffsetDateTime → Option String)
    (order : NewestFirst) (items : List Json) (hvalid : validateActions (.array items) = .ok ())
    (id : Int) (hcreated : CreatedFrom items id (run state moves start).log) :
    LevelsAgree rfc3339 order (run state moves start).state id items ↔
      ∀ n, integerLevel items = some n → 0 ≤ n ∧ n ≤ 2 := by
  rw [Pool.state_eq_replay sem (serve state) moves start]
  have hanswered := Pool.answered_play sem (serve state) moves start
  exact levelsAgree_iff_of_hasLevel rfc3339 order (fresh_stateAt hfresh _)
    (hasLevel_stateAt hfresh hanswered hvalid hcreated)

def newestFirst : NewestFirst where
  arrange rows := rows.mergeSort fun row next => decide (next.createdAt ≤ row.createdAt)
  perm rows := List.mergeSort_perm rows _
  sorted rows := by
    have h : (rows.mergeSort fun row next => decide (next.createdAt ≤ row.createdAt)).Pairwise
        fun row next => decide (next.createdAt ≤ row.createdAt) = true :=
      List.pairwise_mergeSort (fun row next last => by simpa using fun h h' => le_trans h' h)
        (fun row next => by simpa using le_total next.createdAt row.createdAt) rows
    simpa using h

-- Two rules with numbered levels fire for a device that comes online.
def levelItems (n : UInt64) : List Json :=
  [.object [("level", .number (.posInt n)), ("type", .string "alarm")]]

def levelStart : World :=
  World.started { Tables.empty with rules :=
    [{ onlineRule 1 5 with actions := .array (levelItems 1) }, { onlineRule 2 5 with
      actions := .array (levelItems 3) }] }

def levelMoves : List (Move Request) := .spawn (.report (online "d")) :: List.replicate 20 (.step 0)

theorem fresh_levelStart : levelStart.Fresh :=
  ⟨by simp [levelStart, Tables.empty], by simp [levelStart, Tables.empty]⟩

theorem levels_agree_iff_warning :
    LevelsAgree (fun _ => none) newestFirst (run memoryState levelMoves levelStart).state 1
      (levelItems 1) := by
  have hcreated : CreatedFrom (levelItems 1) 1 (run memoryState levelMoves levelStart).log :=
    ⟨0, online "d", 1, "online", List.mem_of_getElem? (i := 5) rfl⟩
  refine (levels_agree_iff memoryState levelStart levelMoves fresh_levelStart _ newestFirst
    (levelItems 1) rfl 1 hcreated).mpr fun n hn => ?_
  obtain rfl := Option.some.inj (hn.symm.trans (rfl : integerLevel (levelItems 1) = some 1))
  decide

-- The level 3 is shown as critical, is not found by that name, and is the number of no level.
theorem level_three_disagrees :
    validateActions (.array (levelItems 3)) = .ok () ∧
      CreatedFrom (levelItems 3) 2 (run memoryState levelMoves levelStart).log ∧
      ¬LevelsAgree (fun _ => none) newestFirst (run memoryState levelMoves levelStart).state 2
        (levelItems 3) := by
  have hvalid : validateActions (.array (levelItems 3)) = .ok () := rfl
  have hcreated : CreatedFrom (levelItems 3) 2 (run memoryState levelMoves levelStart).log :=
    ⟨0, online "d", 2, "online", List.mem_of_getElem? (i := 0) rfl⟩
  refine ⟨hvalid, hcreated, fun hagree => ?_⟩
  have hcritical := hagree.filtered "critical" (by decide)
  rw [listedAt_iff] at hcritical
  have hshown : ∃ row ∈ (run memoryState levelMoves levelStart).state.tables.alarms, row.id = 2 ∧
      shownLevel (fun _ => none) row = "critical" := by decide +kernel
  have hlisted : ¬∃ row ∈ (run memoryState levelMoves levelStart).state.tables.alarms, row.id = 2 ∧
      (parseLevel "critical").all (row.level == ·) = true := by decide +kernel
  exact hlisted (hcritical.mpr hshown)

end Runs

end RmqttThings.Api
