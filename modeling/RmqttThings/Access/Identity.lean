import RmqttThings.Access.Isolation

namespace RmqttThings.Access

open Commands (segments trimmedSegments extractProductIdFromTopic extractAndValidateProductId
  validateIdentifier extractServiceTypeFromTopic)

-- The fifth segment of a thing topic of the kind, if it is not empty.
def extractKind (kind topic : String) : Option String :=
  match trimmedSegments topic with
  | _ :: _ :: third :: fourth :: fifth :: _ =>
      if third == "thing" && fourth == kind && !fifth.isEmpty then some fifth else none
  | _ => none

def extractEventIdentifierFromTopic (topic : String) : Option String := extractKind "event" topic

theorem extractServiceTypeFromTopic_eq (topic : String) :
    extractServiceTypeFromTopic topic = extractKind "service" topic := rfl

-- A valid name is not empty, so what is left after one slash has no more of them.
theorem trimmedSegments_eq {username topic : String} {rest : List String} (hne : username ≠ "")
    (h : segments (stripSlash topic) = username :: rest) :
    trimmedSegments topic = segments (stripSlash topic) := by
  have hhead : ∀ chars, (stripSlash topic).toList ≠ '/' :: chars := by
    intro chars hchars
    rw [segments_slash hchars, List.cons.injEq] at h
    exact hne h.1.symm
  have hdrop : (stripSlash topic).toList.dropWhile (· == '/') = (stripSlash topic).toList := by
    cases hchars : (stripSlash topic).toList with
    | nil => rfl
    | cons char chars =>
        have hchar : char ≠ '/' := fun he => hhead chars (he ▸ hchars)
        simp [hchar]
  rw [trimmedSegments]
  by_cases hslash : ∃ chars, topic.toList = '/' :: chars
  · obtain ⟨chars, hchars⟩ := hslash
    rw [stripSlash_of_slash hchars, String.toList_ofList] at hdrop
    rw [stripSlash_of_slash hchars, hchars, List.dropWhile_cons_of_pos (by decide), hdrop]
  · rw [not_exists] at hslash
    rw [stripSlash_of_ne hslash] at hdrop ⊢
    rw [hdrop, String.ofList_toList]

theorem contains_slash {topic first second : String} {rest : List String}
    (h : segments (stripSlash topic) = first :: second :: rest) :
    topic.toList.contains '/' = true := by
  by_contra hnot
  have hmem : '/' ∉ topic.toList := by simpa using hnot
  have hstrip : stripSlash topic = topic := by
    apply stripSlash_of_ne
    intro chars hchars
    exact hmem (by simp [hchars])
  rw [hstrip, segments, List.splitOn_eq_singleton hmem] at h
  simp at h

theorem extractKind_isSome {kind p0 p1 p3 topic : String} {rest : List String}
    (h : trimmedSegments topic = p0 :: p1 :: "thing" :: p3 :: rest) :
    (extractKind kind topic).isSome = true ↔ p3 = kind ∧ ∃ fifth, rest[0]? = some fifth ∧
      fifth ≠ "" := by
  unfold extractKind
  rw [h]
  cases rest with
  | nil => simp
  | cons fifth rest =>
      by_cases hkind : p3 = kind
      · by_cases hempty : fifth = ""
        · simp [hempty]
        · simp [hkind, hempty]
      · simp [hkind]

-- The check of a name does not depend on what the field is called.
theorem validateIdentifier_isOk (name field field' : String) :
    (validateIdentifier name field).isOk = (validateIdentifier name field').isOk := by
  unfold validateIdentifier
  split_ifs
  · rfl
  · rfl
  · split <;> rfl

theorem validateIdentifier_nonempty {name field : String}
    (h : (validateIdentifier name field).isOk = true) :
    name ≠ "" := by
  rintro rfl
  simp [validateIdentifier, Except.isOk, Except.toBool] at h

-- The fourth segment names the kind of the topic, and the fifth one is there.
def IsKind (kind topic : String) : Prop :=
  (segments (stripSlash topic))[3]? = some kind ∧ ∃ fifth, (segments (stripSlash topic))[4]? =
    some fifth ∧ fifth ≠ ""

-- An allowed topic is a topic of the kind for the extractor exactly when it is for `acl`.
theorem extractKind_of_allowed {username clientId topic kind : String} (hne : username ≠ "")
    (hkind : thingSegment kind = true) (hallow : acl (some username) clientId topic = .allow) :
    (extractKind kind topic).isSome = true ↔ IsKind kind topic := by
  obtain ⟨p2, p3, rest, hsegments, hp2⟩ := acl_allow_iff.mp hallow
  have htrimmed := trimmedSegments_eq hne hsegments
  rw [hsegments] at htrimmed
  unfold IsKind
  rw [hsegments]
  rcases hp2 with ⟨rfl, -⟩ | ⟨rfl, hota⟩
  · rw [extractKind_isSome htrimmed]
    simp
  · -- no kind of thing topic is one of the two OTA topics
    have hother : p3 ≠ kind := by
      rintro rfl
      simp only [thingSegment, otaSegment, Bool.or_eq_true, beq_iff_eq] at hkind hota
      rcases hota with rfl | rfl <;> simp at hkind
    have hnone : extractKind kind topic = none := by
      unfold extractKind
      rw [htrimmed]
      cases rest <;> simp
    simp [hnone, hother]

-- The handlers read an allowed topic as `acl` does.
theorem handlers_agree_with_acl (username clientId topic : String)
    (hvalid : (validateIdentifier username "username").isOk = true)
    (hallow : acl (some username) clientId topic = .allow) :
    extractAndValidateProductId topic = .ok username ∧ (trimmedSegments topic)[1]? = some clientId ∧
    ((extractEventIdentifierFromTopic topic).isSome = true ↔ IsKind "event" topic) ∧
    ((extractServiceTypeFromTopic topic).isSome = true ↔ IsKind "service" topic) ∧
    ¬((extractEventIdentifierFromTopic topic).isSome = true ∧
      (extractServiceTypeFromTopic topic).isSome = true) := by
  have hne := validateIdentifier_nonempty hvalid
  obtain ⟨p2, p3, rest, hsegments, -⟩ := acl_allow_iff.mp hallow
  have htrimmed := trimmedSegments_eq hne hsegments
  have hevent : (extractKind "event" topic).isSome = true ↔ IsKind "event" topic :=
    extractKind_of_allowed hne rfl hallow
  have hservice : (extractKind "service" topic).isSome = true ↔ IsKind "service" topic :=
    extractKind_of_allowed hne rfl hallow
  rw [extractServiceTypeFromTopic_eq]
  refine ⟨?_, ?_, hevent, hservice, ?_⟩
  · have hproduct : extractProductIdFromTopic topic = some username := by
      rw [extractProductIdFromTopic, if_pos (contains_slash hsegments), htrimmed, hsegments]
      simp [hne]
    have hok : (validateIdentifier username "product_id").isOk = true := by
      rw [validateIdentifier_isOk username "product_id" "username"]
      exact hvalid
    rw [extractAndValidateProductId, hproduct]
    cases hcheck : validateIdentifier username "product_id" with
    | error error => simp [hcheck, Except.isOk, Except.toBool] at hok
    | ok _ => simp only [hcheck, bind, Except.bind, pure, Except.pure]
  · rw [htrimmed, hsegments]
    rfl
  · rintro ⟨hevent', hservice'⟩
    have hfourth := (hevent.mp hevent').1
    rw [(hservice.mp hservice').1] at hfourth
    exact absurd hfourth (by decide)

theorem sensor_post_agreed :
    (validateIdentifier "product-a" "username").isOk = true ∧
      acl (some "product-a") "sensor-001" "/product-a/sensor-001/thing/event/alarm/post" = .allow ∧
      extractAndValidateProductId "/product-a/sensor-001/thing/event/alarm/post" =
        .ok "product-a" := by
  have hvalid : (validateIdentifier "product-a" "username").isOk = true := by decide +kernel
  have hallow : acl (some "product-a") "sensor-001" "/product-a/sensor-001/thing/event/alarm/post" =
      .allow := by
    decide +kernel
  exact ⟨hvalid, hallow, (handlers_agree_with_acl _ _ _ hvalid hallow).1⟩

end RmqttThings.Access
