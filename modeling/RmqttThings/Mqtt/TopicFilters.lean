import Mathlib.Data.List.Forall2
import Mathlib.Data.List.TakeDrop

namespace Mqtt

variable {α : Type*}

-- One level of a topic filter: a name, or the wildcard for exactly one level.
inductive Level (α : Type*) where
  | name (word : α)
  | single

def Level.Matches : Level α → α → Prop
  | .name word, other => other = word
  | .single, _ => True

-- A topic filter: its levels, and whether the wildcard for all further levels ends it.
structure TopicFilter (α : Type*) where
  levels : List (Level α)
  multi : Bool

namespace TopicFilter

-- Level by level. Only the multi-level wildcard lets the topic go on, by any
-- number of levels, so the parent level matches too.
def Matches (topicFilter : TopicFilter α) (topic : List α) : Prop :=
  ∃ first further, topic = first ++ further ∧
    List.Forall₂ Level.Matches topicFilter.levels first ∧ (topicFilter.multi = false → further = [])

def startsWild : TopicFilter α → Bool
  | ⟨.single :: _, _⟩ => true
  | ⟨.name _ :: _, _⟩ => false
  | ⟨[], multi⟩ => multi

-- A wildcard in the first level does not reach the reserved topics.
def Admits (reserved : α → Prop) (topicFilter : TopicFilter α) (topic : List α) : Prop :=
  topicFilter.Matches topic ∧ ¬(topicFilter.startsWild = true ∧ ∃ word ∈ topic.head?, reserved word)

def cons (level : Level α) (topicFilter : TopicFilter α) : TopicFilter α :=
  { topicFilter with levels := level :: topicFilter.levels }

theorem matches_nil {multi : Bool} {topic : List α} :
    Matches ⟨[], multi⟩ topic ↔ multi = true ∨ topic = [] := by
  constructor
  · rintro ⟨first, further, rfl, hfirst, hfurther⟩
    obtain rfl := List.forall₂_nil_left_iff.mp hfirst
    cases multi with
    | true => exact .inl rfl
    | false => exact .inr (hfurther rfl)
  · rintro (rfl | rfl)
    · exact ⟨[], topic, rfl, .nil, by simp⟩
    · exact ⟨[], [], rfl, .nil, fun _ => rfl⟩

theorem not_cons_matches_nil {level : Level α} {topicFilter : TopicFilter α} :
    ¬(cons level topicFilter).Matches [] := by
  rintro ⟨first, further, htopic, hfirst, -⟩
  obtain ⟨word, others, -, -, rfl⟩ := List.forall₂_cons_left_iff.mp hfirst
  simp at htopic

theorem cons_matches_cons {level : Level α} {topicFilter : TopicFilter α} {word : α}
    {topic : List α} :
    (cons level topicFilter).Matches (word :: topic) ↔ level.Matches word ∧
      topicFilter.Matches topic := by
  constructor
  · rintro ⟨first, further, htopic, hfirst, hfurther⟩
    obtain ⟨other, others, hword, hothers, rfl⟩ := List.forall₂_cons_left_iff.mp hfirst
    obtain ⟨rfl, rfl⟩ := List.cons.inj htopic
    exact ⟨hword, others, further, rfl, hothers, hfurther⟩
  · rintro ⟨hword, first, further, rfl, hfirst, hfurther⟩
    exact ⟨word :: first, further, rfl, .cons hword hfirst, hfurther⟩

-- Where no first level is reserved, the rule about reserved topics says nothing.
theorem admits_iff_matches {reserved : α → Prop} {topicFilter : TopicFilter α} {topic : List α}
    (h : ∀ word ∈ topic.head?, ¬reserved word) :
    topicFilter.Admits reserved topic ↔ topicFilter.Matches topic := by
  constructor
  · exact And.left
  · intro hmatches
    refine ⟨hmatches, ?_⟩
    rintro ⟨-, word, hword, hreserved⟩
    exact h word hword hreserved

end TopicFilter

end Mqtt
