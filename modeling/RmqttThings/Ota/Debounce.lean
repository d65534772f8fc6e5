import RmqttThings.Ota.DeviceVersions

namespace RmqttThings.Ota

open Effects
open Api (ApiError)

abbrev recordedEvent (productId deviceId key : String) (version : Int32) (now : OffsetDateTime)
    (answer : Except String Unit) : Event Op.Ans :=
  ⟨.sql (.upsertDeviceVersion productId deviceId key version now), answer⟩

abbrev checkedEvent (productId deviceId key : String) (version : Int32)
    (answer : Except String (Option OtaVersion)) :
    Event Op.Ans :=
  ⟨.sql (.getOtaUpdate productId deviceId key version), answer⟩

section Paired

-- An event of another kind than a check or an upsert that has succeeded.
structure Plain (event : Event Op.Ans) : Prop where
  unchecked : ∀ productId deviceId key version answer, event ≠ checkedEvent productId deviceId key
    version answer
  unrecorded : ∀ productId deviceId key version now, event ≠ recordedEvent productId deviceId key
    version now (.ok ())

-- A check follows directly on the upsert of its entry, and on every one that succeeds.
inductive Paired : Past → Prop
  | nil : Paired []
  | check (productId deviceId key : String) (version : Int32) (now : OffsetDateTime)
      (answer : Except String (Option OtaVersion)) {past : Past} (h : Paired past) :
      Paired (checkedEvent productId deviceId key version answer ::
        recordedEvent productId deviceId key version now (.ok ()) :: past)
  | plain {event : Event Op.Ans} {past : Past} (hevent : Plain event) (h : Paired past) :
      Paired (event :: past)

variable {productId deviceId key : String} {version : Int32} {past later earlier : Past}

theorem Paired.checked (h : Paired past) {now : OffsetDateTime}
    (hsplit : past = later ++ recordedEvent productId deviceId key version now (.ok ()) ::
      earlier) :
    ∃ answer, later.getLast? = some (checkedEvent productId deviceId key version answer) := by
  induction h generalizing later with
  | nil => simp at hsplit
  | check productId' deviceId' key' version' now' answer h ih =>
      match later with
      | [] => cases hsplit
      | [event] =>
          simp only [List.cons_append, List.nil_append, List.cons.injEq] at hsplit
          obtain ⟨rfl, hrecorded, -⟩ := hsplit
          cases hrecorded
          exact ⟨answer, rfl⟩
      | event :: next :: rest =>
          simp only [List.cons_append, List.cons.injEq] at hsplit
          obtain ⟨-, -, hpast⟩ := hsplit
          obtain ⟨found, hlast⟩ := ih hpast
          exact ⟨found, by rw [List.getLast?_cons, List.getLast?_cons, hlast]; rfl⟩
  | plain hevent h ih =>
      match later with
      | [] => exact absurd (List.cons.inj hsplit).1 (hevent.unrecorded _ _ _ _ _)
      | event :: rest =>
          obtain ⟨found, hlast⟩ := ih (List.cons.inj hsplit).2
          exact ⟨found, by rw [List.getLast?_cons, hlast]; rfl⟩

theorem Paired.recorded (h : Paired past) {answer : Except String (Option OtaVersion)}
    (hsplit : past = later ++ checkedEvent productId deviceId key version answer :: earlier) :
    ∃ now rest, earlier = recordedEvent productId deviceId key version now (.ok ()) :: rest := by
  induction h generalizing later with
  | nil => simp at hsplit
  | check productId' deviceId' key' version' now' answer h ih =>
      match later with
      | [] =>
          obtain ⟨hchecked, rfl⟩ := List.cons.inj hsplit
          cases hchecked
          exact ⟨now', _, rfl⟩
      | [event] =>
          simp only [List.cons_append, List.nil_append, List.cons.injEq] at hsplit
          cases hsplit.2.1
      | event :: next :: rest =>
          simp only [List.cons_append, List.cons.injEq] at hsplit
          exact ih hsplit.2.2
  | plain hevent h ih =>
      match later with
      | [] => exact absurd (List.cons.inj hsplit).1 (hevent.unchecked _ _ _ _ _)
      | event :: rest => exact ih (List.cons.inj hsplit).2

end Paired

section Serve

-- Operations that are neither upserts of device versions nor checks.
def Op.IsOther : Op → Prop
  | .sql (.upsertDeviceVersion _ _ _ _ _) => False
  | .sql (.getOtaUpdate _ _ _ _) => False
  | _ => True

theorem Op.IsPublish.isOther {op : Op} (h : op.IsPublish) : op.IsOther := by
  cases op with
  | postPublish request => trivial
  | _ => exact absurd h id

-- The statements of the admin API.
def Op.IsAdmin : Op → Prop
  | .sql (.createOtaVersion _) => True
  | .sql (.updateOtaVersion _ _) => True
  | .sql (.deleteOtaVersion _) => True
  | _ => False

theorem Op.IsAdmin.isOther {op : Op} (h : op.IsAdmin) : op.IsOther := by
  cases op with
  | sql stmt => cases stmt <;> trivial
  | _ => exact absurd h id

theorem Op.IsAdmin.not_publish {op : Op} (h : op.IsAdmin) : ¬op.IsPublish := by
  cases op with
  | postPublish request => exact absurd h id
  | _ => exact id

theorem plain_of_isOther (op : Op) (h : op.IsOther) (answer : op.Ans) : Plain ⟨op, answer⟩ := by
  constructor
  · rintro productId deviceId key version found he
    cases he
    exact h
  · rintro productId deviceId key version now he
    cases he
    exact h

theorem plain_of_failed (productId deviceId key : String) (version : Int32) (now : OffsetDateTime)
    (text : String) :
    Plain (recordedEvent productId deviceId key version now (.error text)) := by
  constructor
  · rintro _ _ _ _ _ he
    cases he
  · rintro _ _ _ _ _ he
    cases he

variable {past : Past}

theorem spec_of_uses {α : Type} {program : M α} (h : program.Uses Op.IsAdmin)
    (hpast : Paired past) :
    Prog.Spec (fun _ _ => True) (fun _ past => Paired past) program past :=
  h.spec Paired (fun _ _ _ _ => trivial)
    (fun op answer _ hop hpaired => .plain (plain_of_isOther op hop.isOther answer) hpaired) hpast

theorem processReports_paired (productId deviceId : String) (reports : List OtaReport)
    (updates : List OtaVersion) (hpast : Paired past) :
    Prog.Spec (fun _ _ => True) (fun _ past => Paired past)
      (processReports productId deviceId reports updates) past := by
  induction reports generalizing updates past with
  | nil => exact hpast
  | cons report reports ih =>
      unfold processReports
      cases parseSemverToInt report.version with
      | error e => exact hpast
      | ok version =>
          refine ⟨trivial, fun now => ⟨trivial, fun recorded => ?_⟩⟩
          have hclock : Paired (⟨.nowUtc, now⟩ :: past) :=
            .plain (plain_of_isOther .nowUtc trivial now) hpast
          cases recorded with
          | error text => exact .plain (plain_of_failed _ _ _ _ _ text) hclock
          | ok value =>
              refine ⟨trivial, fun found => ?_⟩
              have hchecked := Paired.check productId deviceId report.key version now found hclock
              rcases found with text | _ | row
              · exact hchecked
              · exact ih updates hchecked
              · exact ih _ hchecked

theorem uses_createOtaVersion (req : CreateOtaVersionRequest) :
    (createOtaVersion req).Uses Op.IsAdmin := by
  unfold createOtaVersion
  cases validateCreate req with
  | error e => trivial
  | ok valid =>
      cases req.bound with
      | none => trivial
      | some new =>
          refine ⟨trivial, fun created => ?_⟩
          cases created <;> trivial

theorem uses_updateOtaVersion (id : Int) (req : UpdateOtaVersionRequest) :
    (updateOtaVersion id req).Uses Op.IsAdmin := by
  unfold updateOtaVersion
  cases validateOptional req.minVersion "min_version" with
  | error e => trivial
  | ok valid =>
      cases validateOptional req.maxVersion "max_version" with
      | error e => trivial
      | ok valid =>
          cases req.bound with
          | none => trivial
          | some change =>
              by_cases hempty : change.isEmpty = true
              · simp [hempty]
              · simp only [hempty]
                refine ⟨trivial, fun updated => ?_⟩
                cases updated <;> trivial

theorem uses_deleteOtaVersion (id : Int) : (deleteOtaVersion id).Uses Op.IsAdmin := by
  refine ⟨trivial, fun deleted => ?_⟩
  cases deleted <;> trivial

variable (config : MqttConfig)

theorem serve_paired (request : Request) (hpast : Paired past) :
    Prog.Spec (fun _ _ => True) (fun _ past => Paired past) (serve config request) past := by
  cases request with
  | report msg =>
      simp only [serve, otaVersionPost]
      cases parseReport msg with
      | error e => exact hpast
      | ok parsed =>
          refine Prog.Spec.seq (processReports_paired parsed.1 msg.clientId parsed.2.params
            [] hpast) fun result past h => ?_
          cases result with
          | error e => exact h
          | ok updates =>
              have hanswer := (spec_answerReport config msg parsed.1 parsed.2 updates past).keeps
                  Paired
                (fun op answer past hop hpaired =>
                  .plain (plain_of_isOther op hop.isPublish.isOther answer) hpaired) h
              exact (hanswer.weaken fun _ _ _ => trivial).mono fun _ _ h => h.2
  | createOtaVersion req => exact spec_of_uses (uses_createOtaVersion req) hpast
  | updateOtaVersion id req => exact spec_of_uses (uses_updateOtaVersion id req) hpast
  | deleteOtaVersion id => exact spec_of_uses (uses_deleteOtaVersion id) hpast

theorem session_paired (requests : List Request) (w : World) :
    Paired ((session config requests).trace sem w) := by
  have hspec : Prog.Spec (fun _ _ => True) (fun _ past => Paired past) (session config requests)
      [] := by
    refine Prog.spec_forEach requests _ (fun request _ past h => ?_) [] .nil
    exact Prog.Spec.seq (serve_paired config request h) fun _ _ hpast => hpast
  exact hspec.trace sem w

end Serve

section Debounce

-- The version has been reported less than ten minutes before.
def RecentlyReported (earlier : Past) (productId deviceId key : String) (version : Int32)
    (now : OffsetDateTime) : Prop :=
  ∃ instant answer, recordedEvent productId deviceId key version instant answer ∈ earlier ∧
    now < instant + tenMinutes

-- The entry repeats the recorded version too early.
structure Repeats (start : World) (earlier : Past) (productId deviceId key : String)
    (version : Int32) (now : OffsetDateTime) : Prop where
  recorded : ∃ row, (Prog.replay sem start earlier).tables.deviceVersions (productId, deviceId,
    key) = some row ∧ row.version = version
  recent : RecentlyReported earlier productId deviceId key version now

-- The entry is not looked up, so that it adds nothing to a push either.
def Ignored (later : Past) (productId deviceId key : String) (version : Int32) : Prop :=
  ∀ answer, later.getLast? ≠ some (checkedEvent productId deviceId key version answer)

def Debounced (start : World) (past : Past) : Prop :=
  ∀ later productId deviceId key version now answer earlier,
    past = later ++ recordedEvent productId deviceId key version now answer :: earlier →
    Repeats start earlier productId deviceId key version now →
      Ignored later productId deviceId key version

theorem debounced_iff_of_paired {start : World} {past : Past} (h : Paired past) :
    Debounced start past ↔ ∀ later productId deviceId key version now earlier,
      past = later ++ recordedEvent productId deviceId key version now (.ok ()) :: earlier →
      ¬Repeats start earlier productId deviceId key version now := by
  constructor
  · intro hdebounced later productId deviceId key version now earlier hsplit hrepeats
    obtain ⟨answer, hlast⟩ := h.checked hsplit
    exact hdebounced later productId deviceId key version now (.ok ()) earlier hsplit hrepeats
      answer hlast
  · intro hnone later productId deviceId key version now answer earlier hsplit hrepeats found hlast
    obtain ⟨front, rfl⟩ := List.getLast?_eq_some_iff.mp hlast
    -- Only an upsert that has succeeded is followed by a check.
    have hchecked : past = front ++ checkedEvent productId deviceId key version found ::
        recordedEvent productId deviceId key version now answer :: earlier := by
      rw [hsplit, List.append_assoc]
      rfl
    obtain ⟨now', rest, hrecorded⟩ := h.recorded hchecked
    cases hrecorded
    exact hnone _ _ _ _ _ _ _ hsplit hrepeats

-- However the device reports: the debounce holds in a session exactly when no entry that is
-- recorded repeats its version within ten minutes, because every such entry is looked up.
theorem debounced_iff (config : MqttConfig) (start : World) (requests : List Request) :
    Debounced start ((session config requests).trace sem start) ↔
      ∀ later productId deviceId key version now earlier,
        (session config requests).trace sem start =
          later ++ recordedEvent productId deviceId key version now (.ok ()) :: earlier →
        ¬Repeats start earlier productId deviceId key version now :=
  debounced_iff_of_paired (session_paired config requests start)

-- A version that upgrades the one that the device reports.
def offered : OtaVersion where
  id := 1
  productId := "p"
  key := "main"
  version := 101000
  maxVersion := none
  minVersion := 0
  fileKey := "p/main/1.1.0"
  log := none
  deviceIds := none
  binLength := 0
  binMd5 := ""
  releasedAt := 0
  status := 0

-- The device reports its version twice, a minute apart.
def repeatedStart : World :=
  { World.started { Tables.empty with otaVersions := [offered], nextId := 2 } with
    delays := fun n => if n = 4 then 60000000000 else 0 }

def repeatedReports : List Request := [.report (reportOf "1.0.0"), .report (reportOf "1.0.0")]

def isPush : Event Op.Ans → Bool
  | ⟨.postPublish request, _⟩ => match request.payload with
      | .upgrade _ _ params => params.length == 1
      | .response _ _ => false
  | _ => false

abbrev repeatedPast : Past := (session testConfig repeatedReports).trace sem repeatedStart

-- The second report is looked up again and pushed again.
theorem repeated_report_checked :
    ¬Debounced repeatedStart ((session testConfig repeatedReports).trace sem repeatedStart) ∧
      ((session testConfig repeatedReports).trace sem repeatedStart).countP isPush = 2 := by
  refine ⟨fun h => ?_, by decide +kernel⟩
  rw [debounced_iff_of_paired (session_paired testConfig repeatedReports repeatedStart)] at h
  have hsecond : repeatedPast[2]? = some (recordedEvent "p" "d" "main" 100000 60000000000
      (.ok ())) := rfl
  have hfirst : repeatedPast[6]? = some (recordedEvent "p" "d" "main" 100000 0 (.ok ())) := rfl
  have hsplit : repeatedPast = repeatedPast.take 2 ++ recordedEvent "p" "d" "main" 100000
      60000000000 (.ok ()) ::
      repeatedPast.drop 3 := by
    obtain ⟨hlt, hget⟩ := List.getElem?_eq_some_iff.mp hsecond
    rw [← hget, List.getElem_cons_drop, List.take_append_drop]
  have hrow : ((Prog.replay sem repeatedStart (repeatedPast.drop 3)).tables.deviceVersions ("p",
      "d", "main")).map (·.version) = some 100000 := by decide +kernel
  refine h _ _ _ _ _ _ _ hsplit ⟨Option.map_eq_some_iff.mp hrow, 0, .ok (), ?_, by decide⟩
  exact List.mem_of_getElem? (i := 3) (by rw [List.getElem?_drop]; exact hfirst)

end Debounce

end RmqttThings.Ota
