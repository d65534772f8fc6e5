import RmqttThings.Access.Acl

namespace RmqttThings.Access

open Commands (segments matchParts)

section Segments

theorem segments_ofList (chars : List Char) :
    segments (String.ofList chars) = (chars.splitOn '/').map String.ofList := by
  rw [segments, String.toList_ofList]

theorem segments_slash {text : String} {rest : List Char} (h : text.toList = '/' :: rest) :
    segments text = "" :: segments (String.ofList rest) := by
  rw [segments, h, segments_ofList, List.splitOn_eq_splitOnP, List.splitOnP_cons_eq_if_modifyHead]
  rfl

-- An empty first segment that is followed by another one comes from a leading slash.
theorem slash_of_segments {text second : String} {more : List String}
    (h : segments text = "" :: second :: more) :
    ∃ rest, text.toList = '/' :: rest := by
  unfold segments at h
  cases hchars : text.toList with
  | nil => simp [hchars] at h
  | cons char rest =>
      by_cases hslash : char = '/'
      · exact ⟨rest, by rw [hslash]⟩
      · rw [hchars, List.splitOn_eq_splitOnP, List.splitOnP_cons_eq_if_modifyHead] at h
        cases hrest : List.splitOnP (· == '/') rest with
        | nil => exact absurd hrest (List.splitOnP_ne_nil _ _)
        | cons first others => simp [hrest, hslash] at h

theorem stripSlash_of_slash {text : String} {rest : List Char} (h : text.toList = '/' :: rest) :
    stripSlash text = String.ofList rest := by
  simp only [stripSlash, h]

theorem stripSlash_of_ne {text : String} (h : ∀ rest, text.toList ≠ '/' :: rest) :
    stripSlash text = text := by
  unfold stripSlash
  split
  · next rest hrest => exact absurd hrest (h rest)
  · rfl

-- The segments that `acl` looks at, within the segments of the topic itself.
theorem segments_stripSlash (topic : String) :
    (∃ rest, topic.toList = '/' :: rest) ∧ segments topic = "" :: segments (stripSlash topic) ∨
      (∀ rest, topic.toList ≠ '/' :: rest) ∧ segments topic = segments (stripSlash topic) := by
  by_cases h : ∃ rest, topic.toList = '/' :: rest
  · obtain ⟨rest, hrest⟩ := h
    exact .inl ⟨⟨rest, hrest⟩, by rw [stripSlash_of_slash hrest, segments_slash hrest]⟩
  · rw [not_exists] at h
    exact .inr ⟨h, by rw [stripSlash_of_ne h]⟩

theorem notMem_of_mem_splitOn {separator : Char} {chars piece : List Char}
    (h : piece ∈ chars.splitOn separator) :
    separator ∉ piece := by
  induction chars generalizing piece with
  | nil =>
      rw [List.splitOn_nil, List.mem_singleton] at h
      simp [h]
  | cons char chars ih =>
      rw [List.splitOn_cons_eq_if_modifyHead] at h
      split_ifs at h with hslash
      · rcases List.mem_cons.mp h with rfl | h
        · simp
        · exact ih h
      · cases hrest : chars.splitOn separator with
        | nil => exact absurd hrest (List.splitOn_ne_nil _ _)
        | cons first others =>
            rw [hrest, List.modifyHead_cons, List.mem_cons] at h
            rcases h with rfl | h
            · have hne : separator ≠ char := fun he => hslash (beq_iff_eq.mpr he.symm)
              simpa [hne] using ih (by simp [hrest])
            · exact ih (by simp [hrest, h])

theorem slash_notMem_segment {text segment : String} (h : segment ∈ segments text) :
    '/' ∉ segment.toList := by
  obtain ⟨piece, hpiece, rfl⟩ := List.mem_map.mp h
  rw [String.toList_ofList]
  exact notMem_of_mem_splitOn hpiece

-- The topic with these segments.
def joinSegments (levels : List String) : String :=
  String.ofList (['/'].intercalate (levels.map String.toList))

theorem segments_joinSegments {levels : List String} (h : ∀ level ∈ levels, '/' ∉ level.toList)
    (hne : levels ≠ []) :
    segments (joinSegments levels) = levels := by
  rw [joinSegments, segments_ofList, List.splitOn_intercalate '/' _ (by simpa using hne)]
  · simp [Function.comp_def]
  · intro piece hpiece
    obtain ⟨level, hlevel, rfl⟩ := List.mem_map.mp hpiece
    exact h level hlevel

end Segments

theorem acl_allow_iff {username clientId topic : String} :
    acl (some username) clientId topic = .allow ↔ ∃ p2 p3 rest,
      segments (stripSlash topic) = username :: clientId :: p2 :: p3 :: rest ∧
        (p2 = "thing" ∧ thingSegment p3 = true ∨ p2 = "ota" ∧ otaSegment p3 = true) := by
  unfold acl
  split
  · next p0 p1 p2 p3 rest hsegments =>
    rw [hsegments]
    constructor
    · intro h
      dsimp only at h
      split_ifs at h with h1 h0 ht ho
      · exact ⟨p2, p3, rest, by simp_all, .inl (by simpa using ht)⟩
      · exact ⟨p2, p3, rest, by simp_all, .inr (by simpa using ho)⟩
    · rintro ⟨q2, q3, others, heq, hkind⟩
      simp only [List.cons.injEq] at heq
      obtain ⟨rfl, rfl, rfl, rfl, -⟩ := heq
      rcases hkind with ⟨rfl, hthing⟩ | ⟨rfl, hota⟩
      · simp [hthing]
      · simp [hota]
  · next hshort =>
    simp only [reduceCtorEq, false_iff, not_exists, not_and]
    intro p2 p3 rest heq
    exact absurd heq (hshort _ _ _ _ _)

section Filters

-- A level of a topic filter that is not `#`: a wildcard stands alone in its level.
def plainLevel (level : String) : Bool :=
  !level.toList.contains '#' && (level == "+" || !level.toList.contains '+')

-- Where the MQTT rules let wildcards stand in a filter: `#` in the last level only.
def validLevels : List String → Bool
  | [] => true
  | [level] => level == "#" || plainLevel level
  | level :: levels => plainLevel level && validLevels levels

-- A topic name, which has no wildcards.
def concreteTopic (topic : String) : Bool :=
  !topic.isEmpty && !topic.toList.contains '+' && !topic.toList.contains '#'

-- A wildcard at the start of a filter does not match the topics that start with `$`.
def hiddenFrom (topicFilter topic : String) : Bool :=
  topic.toList.head? == some '$' && ((segments topicFilter).head? == some "+" ||
    (segments topicFilter).head? == some "#")

-- The MQTT rules for a topic filter and a topic name.
def filterMatches (topicFilter topic : String) : Bool :=
  validLevels (segments topicFilter) && concreteTopic topic && !hiddenFrom topicFilter topic &&
    matchParts (segments topicFilter) (segments topic)

example : filterMatches "p/+/thing/#" "p/d/thing" = true := by decide +kernel
example : filterMatches "p/#/thing" "p/d/thing" = false := by decide +kernel

-- A literal level matches itself only.
theorem matchParts_literal {level : String} {levels topic : List String}
    (hplain : plainLevel level = true)
    (hplus : level ≠ "+") (h : matchParts (level :: levels) topic = true) :
    ∃ rest, topic = level :: rest ∧ matchParts levels rest = true := by
  have hhash : level ≠ "#" := by
    rintro rfl
    simp [plainLevel] at hplain
  cases topic with
  | nil => simp [matchParts, hhash] at h
  | cons segment rest =>
      simp only [matchParts, beq_iff_eq, hhash, hplus, if_false, Bool.and_eq_true, Bool.or_eq_true,
        false_or] at h
      exact ⟨rest, by rw [h.1], h.2⟩

theorem matchParts_literals {level next : String} {levels topic : List String}
    (hplain : plainLevel level = true) (hplus : level ≠ "+") (hnext : plainLevel next = true)
    (hnextPlus : next ≠ "+") (h : matchParts (level :: next :: levels) topic = true) :
    ∃ rest, topic = level :: next :: rest := by
  obtain ⟨topic₁, rfl, h₁⟩ := matchParts_literal hplain hplus h
  obtain ⟨topic₂, rfl, -⟩ := matchParts_literal hnext hnextPlus h₁
  exact ⟨topic₂, rfl⟩

theorem validLevels_cons {level next : String} {levels : List String}
    (h : validLevels (level :: next :: levels) = true) :
    plainLevel level = true ∧ validLevels (next :: levels) = true := by
  simpa [validLevels] using h

end Filters

-- The topic belongs to the device, after one optional slash.
def OwnTopic (username clientId topic : String) : Prop :=
  ∃ rest, segments (stripSlash topic) = username :: clientId :: rest

-- What the client is allowed to use matches topics of its own only.
def Isolated (username clientId : String) : Prop :=
  ∀ topicFilter topic, acl (some username) clientId topicFilter = .allow →
    filterMatches topicFilter topic = true → OwnTopic username clientId topic

-- The name can be a level of a valid filter.
def isLevel (name : String) : Bool := plainLevel name && !name.toList.contains '/'

-- One of the names is a wildcard, and the other one does not keep it from being used.
def Wild (username clientId : String) : Prop :=
  isLevel username = true ∧ isLevel clientId = true ∧ (username = "+" ∨ clientId = "+")

-- The levels that `acl` compares are literal, so a matching topic has them too.
theorem isolated_of_not_wild {username clientId : String} (h : ¬Wild username clientId) :
    Isolated username clientId := by
  intro topicFilter topic hallow hmatches
  obtain ⟨p2, p3, rest, hsegments, -⟩ := acl_allow_iff.mp hallow
  simp only [filterMatches, Bool.and_eq_true] at hmatches
  obtain ⟨⟨⟨hvalid, -⟩, -⟩, hmatch⟩ := hmatches
  have hnames : ∀ levels, validLevels (username :: clientId :: p2 :: levels) = true →
      plainLevel username = true ∧ plainLevel clientId = true ∧ username ≠ "+" ∧
        clientId ≠ "+" := by
    intro levels hlevels
    obtain ⟨husername, hlevels⟩ := validLevels_cons hlevels
    have hclientId := (validLevels_cons hlevels).1
    have hslash : ∀ name ∈ segments (stripSlash topicFilter), '/' ∉ name.toList :=
      fun name => slash_notMem_segment
    simp only [hsegments, List.mem_cons, forall_eq_or_imp] at hslash
    have hplus : ¬(username = "+" ∨ clientId = "+") := fun hplus =>
      h ⟨by simp [isLevel, husername, hslash.1], by simp [isLevel, hclientId, hslash.2.1], hplus⟩
    rw [not_or] at hplus
    exact ⟨husername, hclientId, hplus⟩
  rcases segments_stripSlash topicFilter with ⟨-, hfilter⟩ | ⟨hnoslash, hfilter⟩
  · rw [hfilter, hsegments] at hvalid hmatch
    obtain ⟨hempty, hvalid⟩ := validLevels_cons hvalid
    obtain ⟨husername, hclientId, hne, hne'⟩ := hnames _ hvalid
    obtain ⟨topic₁, htopic, hmatch₁⟩ := matchParts_literal hempty (by decide) hmatch
    obtain ⟨others, rfl⟩ := matchParts_literals husername hne hclientId hne' hmatch₁
    obtain ⟨chars, hchars⟩ := slash_of_segments htopic
    refine ⟨others, ?_⟩
    rw [segments_slash hchars, List.cons.injEq] at htopic
    rw [stripSlash_of_slash hchars]
    exact htopic.2
  · rw [hfilter, hsegments] at hvalid hmatch
    obtain ⟨husername, hclientId, hne, hne'⟩ := hnames _ hvalid
    obtain ⟨others, htopic⟩ := matchParts_literals husername hne hclientId hne' hmatch
    have hnotslash : ∀ chars, topic.toList ≠ '/' :: chars := by
      intro chars hchars
      rw [segments_slash hchars, List.cons.injEq] at htopic
      rw [hsegments, ← htopic.1] at hfilter
      obtain ⟨rest, hrest⟩ := slash_of_segments hfilter
      exact hnoslash rest hrest
    exact ⟨others, by rw [stripSlash_of_ne hnotslash, htopic]⟩

section Wildcard

-- A name that `+` stands for too.
def another (name : String) : String := if name = "+" then "other" else name

theorem another_level {name : String} (h : isLevel name = true) :
    '/' ∉ (another name).toList ∧ '+' ∉ (another name).toList ∧ '#' ∉ (another name).toList := by
  unfold another
  split_ifs with hplus
  · decide
  · simp only [isLevel, plainLevel, Bool.and_eq_true, Bool.or_eq_true, beq_iff_eq, hplus, false_or,
      Bool.not_eq_true', List.contains_eq_mem, decide_eq_false_iff_not] at h
    exact ⟨h.2, h.1.2, h.1.1⟩

theorem matchParts_another {name : String} {levels topic : List String} (hhash : name ≠ "#")
    (h : matchParts levels topic = true) :
    matchParts (name :: levels) (another name :: topic) = true := by
  by_cases hplus : name = "+"
  · subst hplus
    simpa [matchParts] using h
  · simpa [matchParts, hhash, hplus, another] using h

-- The topics of the event that a filter and a matching topic are for.
def eventTopic (username clientId : String) : String :=
  joinSegments ["", username, clientId, "thing", "event"]

theorem segments_eventTopic {username clientId : String} (husername : '/' ∉ username.toList)
    (hclientId : '/' ∉ clientId.toList) :
    segments (eventTopic username clientId) = ["", username, clientId, "thing", "event"] ∧
      segments (stripSlash (eventTopic username clientId)) = [username, clientId, "thing",
        "event"] := by
  have hsegments : segments (eventTopic username clientId) = ["", username, clientId, "thing",
      "event"] := by
    apply segments_joinSegments
    · simp [husername, hclientId]
    · simp
  obtain ⟨chars, hchars⟩ := slash_of_segments hsegments
  refine ⟨hsegments, ?_⟩
  rw [segments_slash hchars, List.cons.injEq] at hsegments
  rw [stripSlash_of_slash hchars]
  exact hsegments.2

theorem concreteTopic_eventTopic {username clientId : String}
    (husername : '+' ∉ username.toList ∧ '#' ∉ username.toList)
    (hclientId : '+' ∉ clientId.toList ∧ '#' ∉ clientId.toList) :
    concreteTopic (eventTopic username clientId) = true := by
  simp [concreteTopic, eventTopic, joinSegments, List.intercalate, husername, hclientId]

theorem not_isolated_of_wild {username clientId : String} (h : Wild username clientId) :
    ¬Isolated username clientId := by
  intro hisolated
  obtain ⟨husername, hclientId, hplus⟩ := h
  have husername' := another_level husername
  have hclientId' := another_level hclientId
  simp only [isLevel, Bool.and_eq_true, Bool.not_eq_true', List.contains_eq_mem,
    decide_eq_false_iff_not]
    at husername hclientId
  obtain ⟨hfilter, hstripped⟩ := segments_eventTopic husername.2 hclientId.2
  obtain ⟨htopic, hstripped'⟩ := segments_eventTopic husername'.1 hclientId'.1
  have hallow : acl (some username) clientId (eventTopic username clientId) = .allow :=
    acl_allow_iff.mpr ⟨"thing", "event", [], hstripped, .inl ⟨rfl, rfl⟩⟩
  have hhash : username ≠ "#" ∧ clientId ≠ "#" := by
    constructor <;> rintro rfl
    · simp [plainLevel] at husername
    · simp [plainLevel] at hclientId
  have hmatches : filterMatches (eventTopic username clientId)
      (eventTopic (another username) (another clientId)) =
      true := by
    simp only [filterMatches, Bool.and_eq_true]
    refine ⟨⟨⟨?_, concreteTopic_eventTopic husername'.2 hclientId'.2⟩, ?_⟩, ?_⟩
    · have hfixed : plainLevel "" = true ∧ plainLevel "thing" = true ∧
          plainLevel "event" = true := by decide
      rw [hfilter]
      simp [validLevels, husername.1, hclientId.1, hfixed]
    · simp [hiddenFrom, eventTopic, joinSegments, List.intercalate]
    · rw [hfilter, htopic]
      have hrest : matchParts ["thing", "event"] ["thing", "event"] = true := by decide
      have hempty : matchParts (username :: clientId :: ["thing", "event"])
          (another username :: another clientId :: ["thing", "event"]) = true :=
        matchParts_another hhash.1 (matchParts_another hhash.2 hrest)
      simpa [matchParts] using hempty
  obtain ⟨rest, hown⟩ := hisolated _ _ hallow hmatches
  rw [hstripped', List.cons.injEq, List.cons.injEq] at hown
  rcases hplus with rfl | rfl
  · exact absurd hown.1 (by decide)
  · exact absurd hown.2.1 (by decide)

end Wildcard

theorem isolated_iff (username clientId : String) :
    Isolated username clientId ↔ ¬Wild username clientId := by
  constructor
  · exact fun h hwild => not_isolated_of_wild hwild h
  · exact isolated_of_not_wild

-- Whoever is admitted has told its product.
theorem username_of_admitted {hmacSha1 : String → String → String} {config : AuthConfig}
    {env : AuthEnv} {payload : AuthPayload} {tables : AccessTables}
    (h : (auth hmacSha1 config env payload tables).1 = .allow) :
    ∃ username, payload.username = some username := by
  cases husername : payload.username with
  | some username => exact ⟨username, rfl⟩
  | none =>
      -- every branch of `auth` denies then
      unfold auth at h
      simp only [husername, ite_self] at h
      split at h
      · cases h
      · split at h
        · split at h
          · cases h
          · split at h
            · cases h
            · cases h
        · cases h

-- A client that `auth` admits is kept to its own topics exactly when no name of it is a
-- wildcard that a valid filter can hold.
theorem admitted_client_isolated_iff (hmacSha1 : String → String → String) (config : AuthConfig)
    (env : AuthEnv) (payload : AuthPayload) (tables : AccessTables)
    (hadmitted : (auth hmacSha1 config env payload tables).1 = .allow) :
    ∃ username, payload.username = some username ∧
      (Isolated username payload.clientId ↔ ¬Wild username payload.clientId) := by
  obtain ⟨username, husername⟩ := username_of_admitted hadmitted
  exact ⟨username, husername, isolated_iff username payload.clientId⟩

section Example

-- The signatures of two clients under the key `demo-suffix`.
def demoHmac (key message : String) : String :=
  if key = "demo-suffix" ∧
    message = "+.a1b2c3.1760000000.demo-suffix" then "b8e6acfa8c8262a871e7fb9c9644b473ddd1f84e"
  else if key = "demo-suffix" ∧ message = "sensor-001.a1b2c3.1760000000.demo-suffix" then
    "2574976f3d7128dd1b51226d7473d722341b718e"
  else ""

def demoConfig : AuthConfig := ⟨"demo-suffix", 300⟩

def demoEnv : AuthEnv := ⟨1760000010, none, none⟩

-- A product with automatic registration.
def demoTables : AccessTables := ⟨[], [("product-a", true)]⟩

def sensor : AuthPayload :=
  ⟨"sensor-001", some "product-a", "a1b2c3.1760000000.2574976f3d7128dd1b51226d7473d722341b718e"⟩

def plusClient : AuthPayload :=
  ⟨"+", some "product-a", "a1b2c3.1760000000.b8e6acfa8c8262a871e7fb9c9644b473ddd1f84e"⟩

theorem sensor_admitted_isolated :
    (auth demoHmac demoConfig demoEnv sensor demoTables).1 = .allow ∧
      Isolated "product-a" "sensor-001" := by
  have hadmitted : (auth demoHmac demoConfig demoEnv sensor demoTables).1 = .allow := by
    decide +kernel
  refine ⟨hadmitted, ?_⟩
  obtain ⟨username, husername, hiff⟩ :=
    admitted_client_isolated_iff demoHmac demoConfig demoEnv sensor demoTables hadmitted
  obtain rfl : "product-a" = username := Option.some.inj husername
  apply hiff.mpr
  rintro ⟨-, -, h⟩
  exact absurd h (by decide)

-- The client `+` is registered on the fly, and may subscribe to the events of every device.
theorem plus_client_reads_others :
    (auth demoHmac demoConfig demoEnv plusClient demoTables).1 = .allow ∧
      acl (some "product-a") "+" "product-a/+/thing/event/property/post" = .allow ∧
      filterMatches "product-a/+/thing/event/property/post"
        "product-a/sensor-001/thing/event/property/post" = true ∧
      ¬OwnTopic "product-a" "+" "product-a/sensor-001/thing/event/property/post" := by
  refine ⟨by decide +kernel, by decide +kernel, by decide +kernel, ?_⟩
  rintro ⟨rest, h⟩
  have hsegments : segments (stripSlash "product-a/sensor-001/thing/event/property/post") =
      ["product-a", "sensor-001", "thing", "event", "property", "post"] := by decide +kernel
  rw [hsegments, List.cons.injEq, List.cons.injEq] at h
  exact absurd h.2.1 (by decide)

end Example

end RmqttThings.Access
