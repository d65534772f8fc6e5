import RmqttThings.JsonMap

namespace RmqttThings.Shadow

-- One member of a patch: null removes the key, any other value sets it.
def mergeField (fields : List (String × Json)) (member : String × Json) : List (String × Json) :=
  if member.2.isNull then removeField member.1 fields else insertField member.1 member.2 fields

theorem wellFormed_mergeField {fields : List (String × Json)}
    (h : (Json.object fields).wellFormed = true)
    {member : String × Json} (hmember : member.2.wellFormed = true) :
    (Json.object (mergeField fields member)).wellFormed = true := by
  unfold mergeField
  split_ifs
  · exact wellFormed_removeField h
  · exact wellFormed_insertField hmember h

-- What every step of a loop over well-formed members keeps well formed, the loop does.
theorem wellFormed_foldl {step : List (String × Json) → String × Json → List (String × Json)}
    (hstep : ∀ fields member, (Json.object fields).wellFormed = true → member.2.wellFormed = true →
      (Json.object (step fields member)).wellFormed = true)
    (members : List (String × Json)) (hmembers : ∀ member ∈ members, member.2.wellFormed = true)
    {fields : List (String × Json)} (h : (Json.object fields).wellFormed = true) :
    (Json.object (members.foldl step fields)).wellFormed = true := by
  induction members generalizing fields with
  | nil => exact h
  | cons member members ih =>
      exact ih (fun other hother => hmembers other (List.mem_cons_of_mem _ hother))
        (hstep fields member h (hmembers member (by simp)))

def mergeDesired (current patch : JsonMap) : JsonMap where
  fields := patch.fields.foldl mergeField current.fields
  wellFormed := wellFormed_foldl (fun _ _ h hmember => wellFormed_mergeField h hmember) _
    (fun _ hmem => patch.wellFormed_value hmem) current.wellFormed

-- Whether the reported snapshot, with its members wrapped as `value` and `time`,
-- lacks the desired value.
def diverged (reported : JsonMap) (key : String) (dval : Json) : Bool :=
  match reported.get key with
  | none => true
  | some obj =>
      match obj.get "value" with
      | none => true
      | some value => !(value == dval)

def deltaField (reported : JsonMap) (delta : List (String × Json)) (member : String × Json) :
    List (String × Json) :=
  if member.2.isNull then delta
  else if diverged reported member.1 member.2 then insertField member.1 member.2 delta
  else delta

theorem wellFormed_deltaField (reported : JsonMap) {delta : List (String × Json)}
    (h : (Json.object delta).wellFormed = true) {member : String × Json}
    (hmember : member.2.wellFormed = true) :
    (Json.object (deltaField reported delta member)).wellFormed = true := by
  unfold deltaField
  split_ifs
  · exact h
  · exact wellFormed_insertField hmember h
  · exact h

def computeDelta (desired reported : JsonMap) : JsonMap where
  fields := desired.fields.foldl (deltaField reported) []
  wellFormed := wellFormed_foldl (fun _ _ h hmember => wellFormed_deltaField reported h hmember) _
    (fun _ hmem => desired.wellFormed_value hmem) rfl

-- The `||` of JSONB: two objects are united, the second one wins; anything that is
-- not an array counts as an array of one element otherwise.
def concat : Json → Json → Json
  | .object old, .object new =>
      .object (new.foldl (fun fields member => insertField member.1 member.2 fields) old)
  | .array old, .array new => .array (old ++ new)
  | .array old, new => .array (old ++ [new])
  | old, .array new => .array (old :: new)
  | old, new => .array [old, new]

-- A reported property as `property_latest` stores it.
def stamped (time : String) (member : String × Json) : String × Json :=
  (member.1, .object [("time", .string time), ("value", member.2)])

-- What one loop over the members of a map does to a key: only the member of that
-- key matters.
theorem lookup_foldl (step : List (String × Json) → String × Json → List (String × Json))
    (key : String) (set : Json → Option Json → Option Json)
    (hkey : ∀ fields value, (step fields (key, value)).lookup key = set value (fields.lookup key))
    (hother : ∀ fields member, member.1 ≠ key → (step fields member).lookup key = fields.lookup key)
    (members : List (String × Json)) (hsorted : members.Pairwise (·.1 < ·.1))
    (fields : List (String × Json)) :
    (members.foldl step fields).lookup key =
      (members.lookup key).elim (fields.lookup key) fun value => set value (fields.lookup key) := by
  induction members generalizing fields with
  | nil => rfl
  | cons member members ih =>
      obtain ⟨first, value⟩ := member
      rw [List.pairwise_cons] at hsorted
      rw [List.foldl_cons, lookup_cons_eq, ih hsorted.2]
      by_cases he : key = first
      · subst he
        have hnone : members.lookup key = none := by
          cases hlookup : members.lookup key with
          | none => rfl
          | some value =>
              have hmem := (JsonMap.lookup_eq_some_iff hsorted.2 key value).mp hlookup
              exact absurd (hsorted.1 _ hmem) (lt_irrefl key)
        rw [hnone, if_pos rfl, Option.elim_none, Option.elim_some, hkey]
      · rw [if_neg he, hother fields (first, value) (Ne.symm he)]

theorem get_mergeDesired (current patch : JsonMap) (key : String) :
    (mergeDesired current patch).get key =
      (patch.get key).elim (current.get key) fun value => if value.isNull then none else some
        value := by
  apply lookup_foldl mergeField key fun value _ => if value.isNull then none else some value
  · intro fields value
    simp only [mergeField]
    split_ifs
    · simp [lookup_removeField]
    · simp [lookup_insertField]
  · intro fields member hne
    simp only [mergeField]
    split_ifs
    · simp [lookup_removeField, Ne.symm hne]
    · simp [lookup_insertField, Ne.symm hne]
  · exact patch.sorted

theorem get_computeDelta (desired reported : JsonMap) (key : String) :
    (computeDelta desired reported).get key =
      (desired.get key).filter fun value => !value.isNull && diverged reported key value := by
  have h := lookup_foldl (deltaField reported) key
    (fun value old => if value.isNull then old else if diverged reported key value then some value
      else old)
    (fun fields value => by
      simp only [deltaField]
      split_ifs <;> simp [lookup_insertField])
    (fun fields member hne => by
      simp only [deltaField]
      split_ifs <;> simp [lookup_insertField, Ne.symm hne])
    desired.fields desired.sorted []
  rw [JsonMap.get, computeDelta, h, JsonMap.get]
  cases desired.fields.lookup key with
  | none => rfl
  | some value => cases hn : value.isNull <;> cases hd : diverged reported key value <;>
      simp [Option.filter, hn, hd]

end RmqttThings.Shadow
