import RmqttThings.Commands.SubscriptionGate
import RmqttThings.Shadow.Convergence

namespace RmqttThings.Commands

open Effects Shadow

-- Set-Desired requests for one device, handled one at a time.
def setDesiredInTurn (config : MqttConfig) (productId deviceId : String) : List JsonMap → M Unit
  | [] => return ()
  | patch :: patches => do
      let _ ← setPropertyDesired config ⟨productId, deviceId, patch⟩
      setDesiredInTurn config productId deviceId patches

-- The patches of the requests that pass the checks.
def acceptedPatches (productId deviceId : String) (patches : List JsonMap) : List JsonMap :=
  if (validateDevice productId deviceId).isOk then patches.filter (!·.isEmpty) else []

def isDelta (row : CommandRow PropertyCommand) : Bool := row.body.source == .desiredDelta

-- The waiting commands that Set-Desired has stored for the device, in queue order.
def World.desiredDeltas (w : World) (productId deviceId : String) : List JsonMap :=
  ((w.tables.propertyCommands.queue productId deviceId).filter isDelta).map
    (objectOrDefault ·.body.command)

-- The database works, and the broker knows no subscription of the device. What waits for
-- the device is not from the future.
structure Offline (productId deviceId : String) (w : World) : Prop where
  done : ∀ n, w.sqlFaults n = none
  unsubscribed : ∀ n, ¬ReplyMeets ownTopic (w.subscriptions n) productId deviceId "property"
  past : ∀ row ∈ w.tables.propertyCommands.queue productId deviceId, isDelta row = true →
    row.createdTime ≤ w.clock

section SetDesired

variable {config : MqttConfig} {productId deviceId : String} {w : World}
  {past : List (Event Op.Ans)}

theorem clock_sem (op : Op) (w : World) : (sem op w).2.clock = w.tick.clock := by
  cases op with
  | sql stmt =>
      simp only [sem, Op.exec]
      cases w.tick.sqlFaults 0 <;> rfl
  | postPublish request => rfl
  | getSubscriptions clientId => rfl

theorem clock_le_tick (w : World) : w.clock ≤ w.tick.clock :=
  Int.le_add_of_nonneg_right (Int.natCast_nonneg _)

theorem clock_le_sem (op : Op) (w : World) : w.clock ≤ (sem op w).2.clock := by
  rw [clock_sem]
  exact clock_le_tick w

-- A statement that leaves the queue of commands alone.
theorem Offline.sql (h : Offline productId deviceId w) {stmt : Sql}
    (hqueue : (sem (.sql stmt) w).2.tables.propertyCommands = w.tables.propertyCommands) :
    Offline productId deviceId (sem (.sql stmt) w).2 := by
  refine ⟨?_, ?_, ?_⟩
  · rw [sem_sql_sqlFaults]
    exact fun n => h.done (n + 1)
  · rw [sem_sql_subscriptions]
    exact h.unsubscribed
  · intro row hrow hdelta
    rw [hqueue] at hrow
    exact (h.past row hrow hdelta).trans (clock_le_sem _ w)

-- The immediate delivery does not happen.
theorem wp_deliver_offline (h : Offline productId deviceId w) :
    (deliverProperties config productId deviceId).wp sem
      (fun _ _ w' => Offline productId deviceId w' ∧ w'.tables = w.tables) past w := by
  apply Prog.wp_seq (show (isSubscribedToProperties productId deviceId).wp _ _ _ _ from wp_gate)
  rintro result past' w' ⟨-, rfl, hresult⟩
  have hclosed : result ≠ .ok true := mt hresult.mp (h.unsubscribed 0)
  have hoffline : Offline productId deviceId (sem (.getSubscriptions deviceId) w).2 := by
    refine ⟨h.done, fun n => h.unsubscribed (n + 1), ?_⟩
    exact fun row hrow hdelta => (h.past row hrow hdelta).trans (clock_le_sem _ w)
  cases result with
  | error error => exact ⟨hoffline, rfl⟩
  | ok answer =>
      cases answer with
      | false => exact ⟨hoffline, rfl⟩
      | true => exact absurd rfl hclosed

-- A statement that does not fail goes on with its answer.
theorem wp_query_done {α : Type} {stmt : Sql} {next : Except String stmt.Ans → M α}
    {post : α → List (Event Op.Ans) → World → Prop} (h : w.sqlFaults 0 = none)
    (hnext : ∀ past', (next (.ok (stmt.exec w.tick.clock w.tables).1)).wp sem post past'
      (sem (.sql stmt) w).2) :
    ((query stmt).bind next).wp sem post past w := by
  simp only [query, Prog.perform_bind, Prog.wp_call]
  rw [(sem_sql_done stmt h).1]
  exact hnext _

theorem desiredOf_upsert (t : Tables) (patch : JsonMap) (now : OffsetDateTime) :
    ((Sql.upsertPropertyDesired productId deviceId patch).exec now t).2.desiredOf productId
      deviceId =
      mergeDesired (t.desiredOf productId deviceId) patch := by
  simp [Sql.exec, Tables.desiredOf, objectOrDefault]

-- A delta goes to the end of the queue.
theorem offline_insert (h : Offline productId deviceId w) (delta : JsonMap) :
    let w' := (sem (.sql (.insertPropertyCommand productId deviceId delta.toJson .desiredDelta))
        w).2
    Offline productId deviceId w' ∧ w'.tables.propertyLatest = w.tables.propertyLatest ∧
      w'.tables.desiredOf productId deviceId = w.tables.desiredOf productId deviceId ∧
      w'.desiredDeltas productId deviceId = w.desiredDeltas productId deviceId ++ [delta] := by
  intro w'
  have htables : w'.tables = _ :=
    (sem_sql_done (.insertPropertyCommand productId deviceId delta.toJson .desiredDelta)
      (h.done 0)).2
  have hbehind : ∀ row ∈ w.tables.propertyCommands.queue productId deviceId, isDelta row = true →
      row.createdTime ≤ w.tick.clock :=
        fun row hrow hdelta => (h.past row hrow hdelta).trans (clock_le_tick w)
  refine ⟨⟨?_, ?_, ?_⟩, by rw [htables]; rfl, by rw [htables]; rfl, ?_⟩
  · rw [sem_sql_sqlFaults]
    exact fun n => h.done (n + 1)
  · rw [sem_sql_subscriptions]
    exact h.unsubscribed
  · intro row hrow hdelta
    rw [htables] at hrow
    rcases CommandTable.mem_queue_insert.mp hrow with hold | rfl
    · exact (h.past row hold hdelta).trans (clock_le_sem _ w)
    · exact le_of_eq (clock_sem _ w).symm
  · rw [World.desiredDeltas, htables]
    simp only [Sql.exec]
    rw [CommandTable.filter_queue_insert rfl hbehind, List.map_append]
    simp [World.desiredDeltas, CommandTable.newRow, objectOrDefault]

-- One accepted request: the patch is merged, and a delta that is not empty is queued.
theorem wp_setDesired_offline (h : Offline productId deviceId w) {patch : JsonMap}
    (hdevice : (validateDevice productId deviceId).isOk = true) (hpatch : patch.isEmpty = false) :
    let merged := mergeDesired (w.tables.desiredOf productId deviceId) patch
    let delta := computeDelta merged (w.tables.reportedOf productId deviceId)
    (setPropertyDesired config ⟨productId, deviceId, patch⟩).wp sem
      (fun _ _ w' => Offline productId deviceId w' ∧
      w'.tables.propertyLatest = w.tables.propertyLatest ∧ w'.tables.desiredOf productId deviceId =
        merged ∧
      w'.desiredDeltas productId deviceId = w.desiredDeltas productId deviceId ++
        if delta.isEmpty then [] else [delta]) past w := by
  intro merged delta
  cases hvalid : validateDevice productId deviceId with
  | error error => simp [hvalid, Except.isOk, Except.toBool] at hdevice
  | ok _ =>
      obtain ⟨hmerged, htables⟩ :=
        sem_sql_done (.upsertPropertyDesired productId deviceId patch) (h.done 0)
      have hqueue : (sem (.sql (.upsertPropertyDesired productId deviceId patch))
          w).2.tables.propertyCommands =
          w.tables.propertyCommands := by
        rw [htables]
        rfl
      have hupserted := h.sql hqueue
      obtain ⟨-, hsame⟩ :=
        sem_sql_done (.getPropertyLatestOne productId deviceId) (hupserted.done 0)
      have hread := hupserted.sql (congrArg Tables.propertyCommands hsame)
      simp only [Sql.exec, htables] at hsame
      have hdelta : computeDelta
          (objectOrDefault ((Sql.upsertPropertyDesired productId deviceId patch).exec
        w.tick.clock
          w.tables).1.desired) (reportedMap ((Sql.getPropertyLatestOne productId deviceId).exec
            (sem (.sql (.upsertPropertyDesired productId deviceId patch)) w).2.tick.clock
            (sem (.sql (.upsertPropertyDesired productId deviceId patch)) w).2.tables).1) =
              delta := by
        rw [htables]
        simp [Sql.exec, objectOrDefault, delta, merged, Tables.reportedOf]
      simp only [setPropertyDesired, hvalid, hpatch, Prog.bind_eq, Bool.false_eq_true, if_false]
      apply wp_query_done (h.done 0)
      intro past₁
      apply wp_query_done (hupserted.done 0)
      intro past₂
      dsimp only
      rw [hdelta]
      generalize (sem (.sql (.getPropertyLatestOne productId deviceId))
        (sem (.sql (.upsertPropertyDesired productId deviceId patch)) w).2).2 = w₂ at hread hsame ⊢
      have hlatest : w₂.tables.propertyLatest = w.tables.propertyLatest := by rw [hsame]
      have hdesired : w₂.tables.desiredOf productId deviceId = merged := by
        rw [hsame]
        exact desiredOf_upsert w.tables patch w.tick.clock
      have hcommands : w₂.tables.propertyCommands = w.tables.propertyCommands := by rw [hsame]
      by_cases hempty : delta.isEmpty = true
      · rw [if_pos hempty, if_pos hempty, List.append_nil]
        exact ⟨hread, hlatest,
          hdesired, by rw [World.desiredDeltas, hcommands, World.desiredDeltas]⟩
      · rw [if_neg hempty, if_neg hempty]
        apply wp_query_done (hread.done 0)
        intro past₃
        obtain ⟨hinserted, hlatest₃, hdesired₃, hdeltas⟩ := offline_insert hread delta
        apply Prog.wp_seq (wp_deliver_offline hinserted)
        rintro _ past₄ w₄ ⟨hoffline, hkept⟩
        refine ⟨hoffline, ?_, ?_, ?_⟩
        · rw [hkept, hlatest₃, hlatest]
        · rw [hkept, hdesired₃, hdesired]
        · rw [World.desiredDeltas, hkept]
          apply hdeltas.trans
          rw [World.desiredDeltas, hcommands, World.desiredDeltas]

-- A request that the checks refuse changes nothing.
theorem wp_setDesired_refused {patch : JsonMap}
    (h : (validateDevice productId deviceId).isOk = false ∨ patch.isEmpty = true) :
    (setPropertyDesired config ⟨productId, deviceId, patch⟩).wp sem (fun _ _ w' => w' = w)
      past w := by
  cases hvalid : validateDevice productId deviceId with
  | error error =>
      simp only [setPropertyDesired, hvalid]
      rfl
  | ok _ =>
      have hpatch : patch.isEmpty = true :=
        h.resolve_left (by simp [hvalid, Except.isOk, Except.toBool])
      simp only [setPropertyDesired, hvalid, hpatch, if_true]
      rfl

theorem wp_setDesiredInTurn (config : MqttConfig) (patches : List JsonMap)
    (h : Offline productId deviceId w) :
    let desired := w.tables.desiredOf productId deviceId
    let reported := w.tables.reportedOf productId deviceId
    let accepted := acceptedPatches productId deviceId patches
    (setDesiredInTurn config productId deviceId patches).wp sem (fun _ _ w' =>
      w'.tables.propertyLatest = w.tables.propertyLatest ∧
      w'.tables.desiredOf productId deviceId = accepted.foldl mergeDesired desired ∧
      w'.desiredDeltas productId deviceId = w.desiredDeltas productId deviceId ++
        ((documents desired accepted).map (computeDelta · reported)).filter (!·.isEmpty))
          past w := by
  intro desired reported accepted
  induction patches generalizing w past with
  | nil =>
      have hnone : accepted = [] := by simp [accepted, acceptedPatches]
      rw [hnone]
      exact ⟨rfl, rfl, by simp [documents]⟩
  | cons patch patches ih =>
      unfold setDesiredInTurn
      by_cases hrefused : (validateDevice productId deviceId).isOk = false ∨ patch.isEmpty = true
      · apply Prog.wp_seq (wp_setDesired_refused hrefused)
        rintro _ past₁ w₁ rfl
        have haccepted : accepted = acceptedPatches productId deviceId patches := by
          rcases hrefused with hvalid | hpatch
          · simp [accepted, acceptedPatches, hvalid]
          · simp [accepted, acceptedPatches, hpatch]
        rw [haccepted]
        exact ih h
      · simp only [not_or, Bool.not_eq_false, Bool.not_eq_true] at hrefused
        obtain ⟨hvalid, hpatch⟩ := hrefused
        have haccepted : accepted = patch :: acceptedPatches productId deviceId patches := by
          simp [accepted, acceptedPatches, hvalid, hpatch]
        apply Prog.wp_seq (wp_setDesired_offline h hvalid hpatch)
        rintro _ past₁ w₁ ⟨hoffline, hlatest, hdesired, hdeltas⟩
        refine Prog.wp_mono (ih hoffline) ?_
        rintro _ past₂ w₂ ⟨hlatest₂, hdesired₂, hdeltas₂⟩
        have hreported : w₁.tables.reportedOf productId deviceId = reported := by
          rw [Tables.reportedOf, hlatest]
          rfl
        rw [hdesired] at hdesired₂ hdeltas₂
        rw [haccepted]
        refine ⟨hlatest₂.trans hlatest, hdesired₂, ?_⟩
        rw [hdeltas₂, hdeltas, hreported, documents, List.map_cons, List.filter_cons,
          List.append_assoc]
        congr 1
        cases (computeDelta (mergeDesired desired patch) reported).isEmpty <;> rfl

end SetDesired

-- A device has gone offline: the database works, the broker knows no subscription of it,
-- no delta is waiting for it, and its snapshot, if there is one, is an object.
structure WentOffline (productId deviceId : String) (w : World) : Prop where
  done : ∀ n, w.sqlFaults n = none
  unsubscribed : ∀ n, ¬ReplyMeets ownTopic (w.subscriptions n) productId deviceId "property"
  drained : w.desiredDeltas productId deviceId = []
  snapshot : ∀ row, w.tables.propertyLatest (productId, deviceId) = some row →
    ∃ properties : JsonMap, row.properties = properties.toJson

theorem WentOffline.offline {productId deviceId : String} {w : World}
    (h : WentOffline productId deviceId w) :
    Offline productId deviceId w := by
  refine ⟨h.done, h.unsubscribed, ?_⟩
  intro row hrow hdelta
  have hnone := List.map_eq_nil_iff.mp h.drained
  exact absurd (List.mem_filter.mpr ⟨hrow, hdelta⟩) (by simp [hnone])

-- What a report does to the snapshot.
theorem reported_latestRow {old : Option PropertyLatest}
    (hsnapshot : ∀ row, old = some row → ∃ properties : JsonMap, row.properties = properties.toJson)
    (productId deviceId : String) (report : JsonMap) (time : String) (timestamp : OffsetDateTime) :
    Reported time report (reportedMap old)
      (reportedMap (some (latestRow productId deviceId report time timestamp old))) := by
  intro key
  rw [← get_stampedMap]
  cases old with
  | none =>
      have hnew : objectOrDefault (.object (report.fields.map (stamped time))) =
          stampedMap time report := by
        rw [objectOrDefault, show Json.object (report.fields.map (stamped time)) =
          (stampedMap time report).toJson from rfl,
          JsonMap.ofJson_toJson, Option.getD_some]
      simp [latestRow, reportedMap, hnew]
  | some row =>
      obtain ⟨properties, hproperties⟩ := hsnapshot row rfl
      have hnew : objectOrDefault
          (concat properties.toJson (.object (report.fields.map (stamped time)))) =
          applyCommand properties (stampedMap time report) := by
        rw [objectOrDefault,
          show concat properties.toJson (.object (report.fields.map (stamped time))) =
          (applyCommand properties (stampedMap time report)).toJson from rfl, JsonMap.ofJson_toJson,
            Option.getD_some]
      have hold : objectOrDefault properties.toJson = properties := by simp [objectOrDefault]
      simp [latestRow, reportedMap, hproperties, hnew, hold, get_applyCommand]

theorem reported_upsert {t : Tables} {productId deviceId : String}
    (hsnapshot : ∀ row, t.propertyLatest (productId, deviceId) = some row →
      ∃ properties : JsonMap, row.properties = properties.toJson) (report : JsonMap) (time : String)
    (timestamp now : OffsetDateTime) :
    Reported time report (t.reportedOf productId deviceId)
      (((Sql.upsertPropertyLatest productId deviceId report time timestamp).exec now t).2.reportedOf
        productId deviceId) := by
  have hreported := reported_latestRow hsnapshot productId deviceId report time timestamp
  simpa [Sql.exec, Tables.reportedOf] using hreported

-- The device comes back, applies what is waiting for it in queue order, and reports it.
def afterReport (productId deviceId time : String) (w : World) : Tables :=
  ((Sql.upsertPropertyLatest productId deviceId (applied (w.desiredDeltas productId deviceId)) time
    w.clock).exec w.clock w.tables).2

-- For every state in which a device goes offline, and every sequence of patches.
theorem offline_shadow_converges_iff (config : MqttConfig) (productId deviceId time : String)
    (patches : List JsonMap) (w : World) (h : WentOffline productId deviceId w) :
    let desired := w.tables.desiredOf productId deviceId
    let reported := w.tables.reportedOf productId deviceId
    let accepted := acceptedPatches productId deviceId patches
    let after := afterReport productId deviceId time
        ((setDesiredInTurn config productId deviceId patches).final sem w)
    (computeDelta (after.desiredOf productId deviceId)
      (after.reportedOf productId deviceId)).isEmpty = true ↔
      (accepted = [] → (computeDelta desired reported).isEmpty = true) ∧
        NeverReturns reported desired accepted := by
  intro desired reported accepted after
  obtain ⟨hlatest, hdesired, hdeltas⟩ :=
    (Prog.wp_iff _ [] _).mp (wp_setDesiredInTurn config patches h.offline)
  have hsnapshot : ∀ row,
      ((setDesiredInTurn config productId deviceId patches).final sem w).tables.propertyLatest
      (productId, deviceId) = some row → ∃ properties :
        JsonMap, row.properties = properties.toJson := by
    rw [hlatest]
    exact h.snapshot
  have hreport : Reported time
      (applied ((documents desired accepted).map (computeDelta · reported))) reported
      (after.reportedOf productId deviceId) := by
    have hafter := reported_upsert hsnapshot
      (applied (((setDesiredInTurn config productId deviceId patches).final sem w).desiredDeltas
        productId deviceId)) time
      ((setDesiredInTurn config productId deviceId patches).final sem w).clock
      ((setDesiredInTurn config productId deviceId patches).final sem w).clock
    rw [Tables.reportedOf, hlatest] at hafter
    rw [← applied_filter, ← List.nil_append (List.filter _ _), ← h.drained, ← hdeltas]
    exact hafter
  have hdoc : after.desiredOf productId deviceId = accepted.foldl mergeDesired desired := hdesired
  rw [hdoc]
  exact converged_iff hreport

section Example

def xIs (value : UInt64) : JsonMap := ⟨[("x", .number (.posInt value))], rfl⟩

-- The device has reported x = 0 and gone offline.
def zeroReported : World :=
  World.started { Tables.empty with
    propertyLatest := fun _ => some ⟨"p", "d", (stampedMap "2026-07-09T00:00:00Z" (xIs 0)).toJson,
      0⟩ }

theorem zeroReported_offline : WentOffline "p" "d" zeroReported := by
  refine ⟨fun _ => rfl, ?_, rfl, ?_⟩
  · rintro n ⟨subscriptions, hread, hmatch⟩
    obtain rfl : [] = subscriptions := Option.some.inj hread
    cases hmatch
  · rintro row hrow
    obtain rfl := Option.some.inj hrow
    exact ⟨_, rfl⟩

theorem one_patch_converges :
    let after := afterReport "p" "d" "2026-07-10T00:00:00Z"
      ((setDesiredInTurn testConfig "p" "d" [xIs 1]).final sem zeroReported)
    (computeDelta (after.desiredOf "p" "d") (after.reportedOf "p" "d")).isEmpty = true := by
  have haccepted : acceptedPatches "p" "d" [xIs 1] = [xIs 1] := by
    have hvalid : (validateDevice "p" "d").isOk = true := by decide +kernel
    have hpatch : (xIs 1).isEmpty = false := rfl
    simp [acceptedPatches, hvalid, hpatch]
  apply (offline_shadow_converges_iff testConfig "p" "d" "2026-07-10T00:00:00Z" [xIs 1] zeroReported
    zeroReported_offline).mpr
  rw [haccepted]
  exact ⟨fun h => absurd h (by simp), neverReturns_single _⟩

-- x = 1 is queued; x = 0 has an empty delta and is not. The device comes back to x = 1.
theorem returning_patch_diverges :
    WentOffline "p" "d" zeroReported ∧
      let after := afterReport "p" "d" "2026-07-10T00:00:00Z"
        ((setDesiredInTurn testConfig "p" "d" [xIs 1, xIs 0]).final sem zeroReported)
      (computeDelta (after.desiredOf "p" "d") (after.reportedOf "p" "d")).isEmpty ≠ true :=
  ⟨zeroReported_offline, by decide +kernel⟩

end Example

end RmqttThings.Commands
