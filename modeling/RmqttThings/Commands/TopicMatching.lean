import RmqttThings.Access.Isolation
import RmqttThings.Commands.Drain
import RmqttThings.Effects.Loops
import RmqttThings.Mqtt.TopicFilters

namespace RmqttThings.Commands

open Access (plainLevel validLevels hiddenFrom concreteTopic filterMatches)
open Effects (LoopEnds)
open Mqtt (Level TopicFilter)

section Reading

def readLevel (level : String) : Option (Level String) :=
  if plainLevel level then some (if level == "+" then .single else .name level) else none

-- The filter that the levels of a text spell, if the wildcards stand where MQTT lets them.
def readFilter : List String → Option (TopicFilter String)
  | [] => some ⟨[], false⟩
  | level :: levels =>
      if level = "#" ∧ levels = [] then some ⟨[], true⟩
      else do
        let first ← readLevel level
        let topicFilter ← readFilter levels
        return .cons first topicFilter

-- The topics of the broker itself.
def Reserved (level : String) : Prop := level.toList.head? = some '$'

-- Section 4.7 of MQTT, for a filter and a topic as texts.
def StandardMatch (topicFilter topic : String) : Prop :=
  ∃ reading, readFilter (segments topicFilter) = some reading ∧
    reading.Admits Reserved (segments topic)

theorem readFilter_cons {level : String} {levels : List String} {reading : TopicFilter String}
    (h : readFilter (level :: levels) = some reading) :
    (level = "#" ∧ levels = [] ∧ reading = ⟨[], true⟩) ∨
      ∃ first further, level ≠ "#" ∧ readLevel level = some first ∧
        readFilter levels = some further ∧ reading = .cons first further := by
  rw [readFilter] at h
  split_ifs at h with hhash
  · exact .inl ⟨hhash.1, hhash.2, (Option.some.inj h).symm⟩
  · simp only [bind, pure, Option.bind_eq_some_iff, Option.some.injEq] at h
    obtain ⟨first, hfirst, further, hfurther, rfl⟩ := h
    have hne : level ≠ "#" := by
      rintro rfl
      simp [readLevel, plainLevel] at hfirst
    exact .inr ⟨first, further, hne, hfirst, hfurther, rfl⟩

theorem level_matches_iff {level : String} {first : Level String} (h : readLevel level = some first)
    (segment : String) : first.Matches segment ↔ level = "+" ∨ level = segment := by
  unfold readLevel at h
  split_ifs at h with hplain hplus
  · obtain rfl := Option.some.inj h
    simp [Level.Matches, beq_iff_eq.mp hplus]
  · obtain rfl := Option.some.inj h
    have hne : level ≠ "+" := fun he => hplus (beq_iff_eq.mpr he)
    simp [Level.Matches, hne, eq_comm]

theorem isSome_readFilter (levels : List String) :
    (readFilter levels).isSome = validLevels levels := by
  have hlevel : ∀ level, (readLevel level).isSome = plainLevel level := by
    intro level
    unfold readLevel
    split_ifs with hplain <;> simp [hplain]
  induction levels with
  | nil => rfl
  | cons level levels ih =>
      have hhash : plainLevel "#" = false := by decide
      rw [readFilter]
      cases levels with
      | nil =>
          by_cases h : level = "#"
          · simp [h, validLevels]
          · simp [h, validLevels, ← hlevel, readFilter, Option.isSome_bind]
      | cons next levels =>
          have hvalid : validLevels (level :: next :: levels) =
              (plainLevel level && validLevels (next :: levels)) :=
            rfl
          rw [if_neg (by simp), hvalid, ← ih, ← hlevel]
          cases readLevel level <;> cases readFilter (next :: levels) <;> rfl

end Reading

section Loop

-- One round of the loop over the two iterators, which are what is left of each.
def matchRound : List String × List String → Bool ⊕ (List String × List String)
  | (topicFilter, topic) =>
      match topicFilter.head?, topic.head? with
      | some part, segment =>
          if part = "#" then .inl true
          else
            match segment with
            | some segment =>
                if part = "+" ∨ part = segment then .inr (topicFilter.tail, topic.tail)
                else .inl false
            | none => .inl false
      | none, none => .inl true
      | none, some _ => .inl false

-- By induction on the filter: each round takes one part off it.
theorem matchRound_ends (parts topic : List String) :
    LoopEnds matchRound (parts, topic) (matchParts parts topic) := by
  induction parts generalizing topic with
  | nil => cases topic <;> exact .returns rfl
  | cons part parts ih =>
      by_cases hhash : part = "#"
      · exact .returns (by simp [matchRound, matchParts, hhash])
      · cases topic with
        | nil => exact .returns (by simp [matchRound, matchParts, hhash])
        | cons segment topic =>
            by_cases hpart : part = "+" ∨ part = segment
            · have hrest : matchParts (part :: parts) (segment :: topic) =
                  matchParts parts topic := by
                simp [matchParts, hhash, hpart]
              rw [hrest]
              exact .repeats (by simp [matchRound, hhash, hpart]) (ih topic)
            · exact .returns (by simp [matchRound, matchParts, hhash, hpart])

end Loop

theorem matchParts_self (levels : List String) : matchParts levels levels = true := by
  induction levels with
  | nil => rfl
  | cons level levels ih =>
      rw [matchParts]
      split_ifs
      · rfl
      · simp [ih]

-- The shortcut for equal texts changes no answer.
theorem mqttTopicMatches_eq (topicFilter topic : String) :
    mqttTopicMatches topicFilter topic = matchParts (segments topicFilter) (segments topic) := by
  unfold mqttTopicMatches
  by_cases h : topicFilter = topic
  · simp [h, matchParts_self]
  · simp [h]

theorem matchParts_iff {levels : List String} {reading : TopicFilter String}
    (h : readFilter levels = some reading) (topic : List String) :
    matchParts levels topic = true ↔ reading.Matches topic := by
  induction levels generalizing reading topic with
  | nil =>
      obtain rfl := Option.some.inj h
      rw [TopicFilter.matches_nil]
      cases topic <;> simp [matchParts]
  | cons level levels ih =>
      rcases readFilter_cons h with ⟨rfl, rfl, rfl⟩ | ⟨first, further, hhash, hfirst, hfurther, rfl⟩
      · simp [matchParts, TopicFilter.matches_nil]
      · cases topic with
        | nil => simp [matchParts, hhash, TopicFilter.not_cons_matches_nil]
        | cons segment topic =>
            rw [TopicFilter.cons_matches_cons, level_matches_iff hfirst, ← ih hfurther]
            simp [matchParts, hhash]

-- The first level begins as the topic does.
theorem reserved_head (topic : String) :
    (∃ level ∈ (segments topic).head?, Reserved level) ↔ topic.toList.head? = some '$' := by
  simp only [segments, List.head?_map, Option.mem_map, exists_exists_and_eq_and, Reserved,
    String.toList_ofList]
  cases topic.toList with
  | nil => simp
  | cons char chars =>
      rw [List.splitOn_cons_eq_if_modifyHead]
      split_ifs with hslash
      · have hne : char ≠ '$' := by
          rintro rfl
          exact absurd hslash (by decide)
        simp [hne]
      · cases hrest : chars.splitOn '/' with
        | nil => exact absurd hrest (List.splitOn_ne_nil _ _)
        | cons first others => simp

theorem mqttTopicMatches_iff {topicFilter topic : String}
    (hvalid : validLevels (segments topicFilter) = true) (hdollar : topic.toList.head? ≠ some '$') :
    mqttTopicMatches topicFilter topic = true ↔ StandardMatch topicFilter topic := by
  obtain ⟨reading, hreading⟩ := Option.isSome_iff_exists.mp ((isSome_readFilter _).trans hvalid)
  have hhead : ∀ level ∈ (segments topic).head?, ¬Reserved level := fun level hlevel hreserved =>
    hdollar ((reserved_head topic).mp ⟨level, hlevel, hreserved⟩)
  rw [mqttTopicMatches_eq, matchParts_iff hreading, StandardMatch]
  constructor
  · exact fun h => ⟨reading, hreading, (TopicFilter.admits_iff_matches hhead).mpr h⟩
  · rintro ⟨other, hother, h⟩
    obtain rfl := Option.some.inj (hreading.symm.trans hother)
    exact h.1

theorem mqttTopicMatches_standard (topicFilter topic : String) :
    (validLevels (segments topicFilter) = true → topic.toList.head? ≠ some '$' →
      (mqttTopicMatches topicFilter topic = true ↔ StandardMatch topicFilter topic)) ∧
    ∀ result, LoopEnds matchRound (segments topicFilter, segments topic) result ↔
      result = mqttTopicMatches topicFilter topic := by
  constructor
  · exact mqttTopicMatches_iff
  · intro result
    rw [mqttTopicMatches_eq]
    constructor
    · exact fun h => h.unique (matchRound_ends _ _)
    · rintro rfl
      exact matchRound_ends _ _

theorem mqttTopicMatches_standard_plus :
    mqttTopicMatches "+/d/#" "p/d" = true ↔ StandardMatch "+/d/#" "p/d" :=
  (mqttTopicMatches_standard "+/d/#" "p/d").1 (by decide +kernel) (by decide +kernel)

-- The gate in front of a command opens exactly for the devices with a subscription that matches.
theorem subscribedTo_iff {subscriptions : List Subscription}
    {productId clientId serviceType : String}
    (hvalid : ∀ subscription ∈ subscriptions, validLevels (segments subscription.topic) = true)
    (hproduct : productId.toList.head? ≠ some '$') :
    subscribedTo subscriptions productId clientId serviceType = true ↔
      ∃ subscription ∈ subscriptions,
        StandardMatch subscription.topic (serviceActionTopic productId clientId serviceType) := by
  have hdollar : (serviceActionTopic productId clientId serviceType).toList.head? ≠ some '$' := by
    cases h : productId.toList with
    | nil => simp [serviceActionTopic, h]
    | cons char chars => simpa [serviceActionTopic, h] using hproduct
  rw [subscribedTo, List.any_eq_true]
  constructor
  · rintro ⟨subscription, hmem, hmatch⟩
    exact ⟨subscription, hmem, (mqttTopicMatches_iff (hvalid _ hmem) hdollar).mp hmatch⟩
  · rintro ⟨subscription, hmem, hmatch⟩
    exact ⟨subscription, hmem, (mqttTopicMatches_iff (hvalid _ hmem) hdollar).mpr hmatch⟩

section Broker

theorem startsWild_iff {levels : List String} {reading : TopicFilter String}
    (h : readFilter levels = some reading) :
    reading.startsWild = true ↔ levels.head? = some "+" ∨ levels.head? = some "#" := by
  cases levels with
  | nil =>
      obtain rfl := Option.some.inj h
      simp [TopicFilter.startsWild]
  | cons level levels =>
      rcases readFilter_cons h with ⟨rfl, rfl, rfl⟩ | ⟨first, further, hhash, hfirst, -, rfl⟩
      · simp [TopicFilter.startsWild]
      · unfold readLevel at hfirst
        split_ifs at hfirst with _ hplus
        all_goals
          obtain rfl := Option.some.inj hfirst
          simpa [TopicFilter.cons, TopicFilter.startsWild, hhash] using hplus

-- What the broker delivers is what the rules of MQTT say, the topics of the broker included.
theorem filterMatches_iff (topicFilter topic : String) :
    filterMatches topicFilter topic = true ↔ concreteTopic topic = true ∧
      StandardMatch topicFilter topic := by
  cases hreading : readFilter (segments topicFilter) with
  | none =>
      have hvalid : validLevels (segments topicFilter) = false := by
        rw [← isSome_readFilter, hreading]; rfl
      simp [filterMatches, StandardMatch, hvalid, hreading]
  | some reading =>
      have hvalid : validLevels (segments topicFilter) = true := by
        rw [← isSome_readFilter, hreading]; rfl
      have hhidden : hiddenFrom topicFilter topic = true ↔
          reading.startsWild = true ∧ ∃ level ∈ (segments topic).head?, Reserved level := by
        rw [startsWild_iff hreading, reserved_head]
        simp [hiddenFrom, and_comm]
      have hmatches : matchParts (segments topicFilter) (segments topic) = true ↔
          reading.Matches (segments topic) := matchParts_iff hreading _
      simp only [filterMatches, hvalid, Bool.true_and, Bool.and_eq_true, Bool.not_eq_true',
        hmatches, StandardMatch,
        hreading, Option.some.injEq, exists_eq_left', TopicFilter.Admits, ← hhidden,
          Bool.not_eq_true]
      tauto

end Broker

end RmqttThings.Commands
