import RmqttThings.Shadow.Desired

namespace RmqttThings.Shadow

-- A device sets every key of a command that it receives.
def applyCommand (state command : JsonMap) : JsonMap where
  fields := command.fields.foldl (fun fields member => insertField member.1 member.2 fields)
    state.fields
  wellFormed := wellFormed_foldl (fun _ _ h hmember => wellFormed_insertField hmember h) _
    (fun _ hmem => command.wellFormed_value hmem) state.wellFormed

-- What it has set after the commands, oldest first.
def applied (commands : List JsonMap) : JsonMap := commands.foldl applyCommand .empty

-- The desired documents that the patches lead through.
def documents (desired : JsonMap) : List JsonMap → List JsonMap
  | [] => []
  | patch :: patches => mergeDesired desired patch :: documents (mergeDesired desired patch) patches

theorem lookup_foldl_insertField (key : String) (members : List (String × Json))
    (hsorted : members.Pairwise (·.1 < ·.1)) (fields : List (String × Json)) :
    (members.foldl (fun fields member => insertField member.1 member.2 fields) fields).lookup key =
      (members.lookup key).or (fields.lookup key) := by
  rw [lookup_foldl _ key (fun value _ => some value)
    (fun fields value => by simp [lookup_insertField])
    (fun fields member hne => by simp [lookup_insertField, Ne.symm hne]) members hsorted fields]
  cases members.lookup key <;> rfl

theorem get_applyCommand (state command : JsonMap) (key : String) :
    (applyCommand state command).get key = (command.get key).or (state.get key) :=
  lookup_foldl_insertField key command.fields command.sorted state.fields

theorem applied_concat (commands : List JsonMap) (command : JsonMap) :
    applied (commands ++ [command]) = applyCommand (applied commands) command := by
  simp [applied]

-- Commands without the key do not matter for it.
theorem get_applied_append {rest : List JsonMap} {key : String}
    (h : ∀ command ∈ rest, command.get key = none) (commands : List JsonMap) :
    (applied (commands ++ rest)).get key = (applied commands).get key := by
  induction rest using List.reverseRecOn with
  | nil => rw [List.append_nil]
  | append_singleton rest command ih =>
      rw [← List.append_assoc, applied_concat, get_applyCommand, h command (by simp),
        Option.none_or]
      exact ih fun other hother => h other (List.mem_append_left _ hother)

theorem documents_concat (desired : JsonMap) (patches : List JsonMap) (patch : JsonMap) :
    documents desired (patches ++ [patch]) =
      documents desired patches ++ [(patches ++ [patch]).foldl mergeDesired desired] := by
  induction patches generalizing desired with
  | nil => rfl
  | cons first patches ih =>
      simp only [List.cons_append, documents, List.foldl_cons]
      rw [ih]

theorem applyCommand_empty (state : JsonMap) {command : JsonMap} (h : command.isEmpty = true) :
    applyCommand state command = state := by
  have hfields : command.fields = [] := List.isEmpty_iff.mp h
  simp [applyCommand, hfields]

-- Empty commands need not be sent.
theorem applied_filter (commands : List JsonMap) :
    applied (commands.filter (!·.isEmpty)) = applied commands := by
  induction commands using List.reverseRecOn with
  | nil => rfl
  | append_singleton commands command ih =>
      rw [List.filter_append, applied_concat]
      cases hempty : command.isEmpty with
      | false => simp [hempty, applied_concat, ih]
      | true => simp [hempty, applyCommand_empty _ hempty, ih]

-- The members of a report as the table stores them.
def stampedMap (time : String) (report : JsonMap) : JsonMap where
  fields := report.fields.map (stamped time)
  wellFormed := by
    rw [Json.wellFormed_object]
    refine ⟨List.pairwise_map.mpr report.sorted, ?_⟩
    intro field hfield
    obtain ⟨member, hmember, rfl⟩ := List.mem_map.mp hfield
    have hvalue := report.wellFormed_value hmember
    rw [stamped, Json.wellFormed_object]
    refine ⟨List.pairwise_pair.mpr (show "time" < "value" by decide), ?_⟩
    simpa [Json.wellFormed] using hvalue

theorem get_stampedMap (time : String) (report : JsonMap) (key : String) :
    (stampedMap time report).get key = (report.get key).map fun value =>
      (stamped time (key, value)).2 := by
  simp only [JsonMap.get, stampedMap]
  induction report.fields with
  | nil => rfl
  | cons member members ih =>
      obtain ⟨first, value⟩ := member
      rw [List.map_cons, stamped, lookup_cons_eq, lookup_cons_eq, ih]
      split_ifs with he
      · rfl
      · rfl

section Report

variable {desired reported reported' : JsonMap} {commands : List JsonMap} {time : String}

-- The reported snapshot after a report: the reported keys are replaced, with the new time.
def Reported (time : String) (report reported reported' : JsonMap) : Prop :=
  ∀ key, reported'.get key = ((report.get key).map fun value => (stamped time (key, value)).2).or
    (reported.get key)

theorem diverged_report {report : JsonMap} (h : Reported time report reported reported')
    (key : String) (value : Json) :
    diverged reported' key value = (report.get key).elim (diverged reported key value) fun new =>
      !(new == value) := by
  unfold diverged
  rw [h key]
  cases report.get key with
  | none => rfl
  | some new => rfl

-- A key that the device has been told to set.
theorem get_applied_map {key : String} {value : Json} {docs : List JsonMap}
    (h : (applied (docs.map (computeDelta · reported))).get key = some value) :
    ∃ doc ∈ docs, (computeDelta doc reported).get key = some value := by
  induction docs using List.reverseRecOn with
  | nil => cases h
  | append_singleton docs doc ih =>
      rw [List.map_append, List.map_singleton, applied_concat, get_applyCommand,
        Option.or_eq_some_iff] at h
      rcases h with h | ⟨-, h⟩
      · exact ⟨doc, by simp, h⟩
      · obtain ⟨found, hmem, hfound⟩ := ih h
        exact ⟨found, by simp [hmem], hfound⟩

theorem get_applied_none {key : String} {docs : List JsonMap}
    (h : (applied (docs.map (computeDelta · reported))).get key = none) :
    ∀ doc ∈ docs, (computeDelta doc reported).get key = none := by
  induction docs using List.reverseRecOn with
  | nil => simp
  | append_singleton docs doc ih =>
      rw [List.map_append, List.map_singleton, applied_concat, get_applyCommand,
        Option.or_eq_none_iff] at h
      intro found hmem
      rcases List.mem_append.mp hmem with hmem | hmem
      · exact ih h.2 found hmem
      · rw [List.mem_singleton.mp hmem]
        exact h.1

-- The key is desired, with the value that is reported.
def Agrees (reported desired : JsonMap) (key : String) : Prop :=
  ∃ value, desired.get key = some value ∧ value.isNull = false ∧ diverged reported key value = false

-- The key is desired, with another value than the reported one.
def Differs (reported desired : JsonMap) (key : String) : Prop :=
  ∃ value, desired.get key = some value ∧ value.isNull = false ∧ diverged reported key value = true

-- No key differs from the report after one of the patches and agrees with it at the end.
def NeverReturns (reported desired : JsonMap) (patches : List JsonMap) : Prop :=
  ∀ key, Agrees reported (patches.foldl mergeDesired desired) key →
    ∀ doc ∈ documents desired patches, ¬Differs reported doc key

theorem get_computeDelta_some {doc : JsonMap} {key : String} {value : Json} :
    (computeDelta doc reported).get key = some value ↔
      doc.get key = some value ∧ value.isNull = false ∧ diverged reported key value = true := by
  rw [get_computeDelta, Option.filter_eq_some_iff]
  simp

theorem differs_iff {doc : JsonMap} {key : String} :
    Differs reported doc key ↔ (computeDelta doc reported).get key ≠ none := by
  simp only [Differs, ← get_computeDelta_some, Option.ne_none_iff_exists']

-- Whether a value diverges depends on it up to equality of JSON values.
theorem diverged_congr (key : String) {value other : Json} (h : (value == other) = true) :
    diverged reported key value = diverged reported key other := by
  unfold diverged
  cases reported.get key with
  | none => rfl
  | some obj =>
      cases hobj : obj.get "value" with
      | none => simp only [hobj]
      | some found =>
          simp only [hobj, Bool.not_inj_iff]
          rw [Bool.eq_iff_iff]
          exact ⟨fun hf => Json.beq_trans hf h, fun hf => Json.beq_trans hf (Json.beq_comm h)⟩

-- One patch cannot return.
theorem neverReturns_single (patch : JsonMap) : NeverReturns reported desired [patch] := by
  rintro key ⟨value, hvalue, -, hagrees⟩ doc hdoc ⟨other, hother, -, hdiffers⟩
  obtain rfl : doc = mergeDesired desired patch := List.mem_singleton.mp hdoc
  obtain rfl : other = value := Option.some.inj (hother.symm.trans hvalue)
  rw [hagrees] at hdiffers
  cases hdiffers

section Sent

variable {patches : List JsonMap}
  (h : Reported time (applied ((documents desired patches).map (computeDelta · reported))) reported
    reported')

-- A value that was sent and does not diverge in the end was not the reported one before.
include h in
theorem neverReturns_of_converged
    (hempty : (computeDelta (patches.foldl mergeDesired desired) reported').isEmpty = true) :
    NeverReturns reported desired patches := by
  rw [JsonMap.isEmpty_iff] at hempty
  rintro key ⟨value, hvalue, hnull, hagrees⟩ doc hdoc hdiffers
  cases hset : (applied ((documents desired patches).map (computeDelta · reported))).get key with
  | none => exact differs_iff.mp hdiffers (get_applied_none hset doc hdoc)
  | some new =>
      obtain ⟨stale, -, hstale⟩ := get_applied_map hset
      have hnew := (get_computeDelta_some.mp hstale).2.2
      have hsame : (new == value) = true := by
        by_contra hne
        have hsome : (computeDelta (patches.foldl mergeDesired desired) reported').get key =
            some value := by
          rw [get_computeDelta_some, diverged_report h, hset]
          exact ⟨hvalue, hnull, by simpa using hne⟩
        rw [hempty key] at hsome
        cases hsome
      rw [diverged_congr key hsame, hagrees] at hnew
      cases hnew

-- What the last document has and the report has not is sent last.
include h in
theorem not_diverged_of_delta (hstart : patches = [] → (computeDelta desired reported).isEmpty =
    true) {key : String}
    {value : Json} (hdelta : (computeDelta (patches.foldl mergeDesired desired) reported).get key =
      some value) :
    diverged reported' key value = false := by
  cases patches using List.reverseRecOn with
  | nil =>
      rw [List.foldl_nil, (JsonMap.isEmpty_iff _).mp (hstart rfl) key] at hdelta
      cases hdelta
  | append_singleton patches patch =>
      have hvalue := (get_computeDelta_some.mp hdelta).1
      have hself : (value == value) = true :=
        Json.beq_self (JsonMap.wellFormed_value _ ((JsonMap.get_eq_some_iff _ _ _).mp hvalue))
      rw [diverged_report h, documents_concat, List.map_append, List.map_singleton, applied_concat,
        get_applyCommand, hdelta]
      simp [hself]

-- What agrees with the report and never returns has never been sent.
include h in
theorem not_diverged_of_agrees (hreturns : NeverReturns reported desired patches) {key : String}
    {value : Json} (hvalue : (patches.foldl mergeDesired desired).get key = some value)
    (hnull : value.isNull = false)
    (hreported : diverged reported key value = false) : diverged reported' key value = false := by
  rw [diverged_report h]
  cases hset : (applied ((documents desired patches).map (computeDelta · reported))).get key with
  | none => exact hreported
  | some new =>
      obtain ⟨stale, hmem, hstale⟩ := get_applied_map hset
      refine absurd ?_ (hreturns key ⟨value, hvalue, hnull, hreported⟩ stale hmem)
      rw [differs_iff, hstale]
      simp

-- A device that is sent the delta of every document, applies all of them in order and
-- reports what it has set. The last document is converged exactly when no key of it has
-- returned to its reported value; a stale delta for such a key is applied after all.
include h in
theorem converged_iff :
    (computeDelta (patches.foldl mergeDesired desired) reported').isEmpty = true ↔
      (patches = [] → (computeDelta desired reported).isEmpty = true) ∧
        NeverReturns reported desired patches := by
  constructor
  · intro hempty
    refine ⟨?_, neverReturns_of_converged h hempty⟩
    rintro rfl
    rw [JsonMap.isEmpty_iff] at hempty ⊢
    intro key
    have hkey := hempty key
    simp only [get_computeDelta, diverged_report h] at hkey ⊢
    exact hkey
  · rintro ⟨hstart, hreturns⟩
    rw [JsonMap.isEmpty_iff]
    intro key
    by_contra hne
    obtain ⟨value, hvalue⟩ := Option.ne_none_iff_exists'.mp hne
    obtain ⟨hvalue, hnull, hnot⟩ := get_computeDelta_some.mp hvalue
    cases hreported : diverged reported key value with
    | true =>
        simp [not_diverged_of_delta h hstart (get_computeDelta_some.mpr ⟨hvalue, hnull,
          hreported⟩)] at hnot
    | false => simp [not_diverged_of_agrees h hreturns hvalue hnull hreported] at hnot

end Sent

end Report

end RmqttThings.Shadow
