import RmqttThings.Schema.Editor

namespace RmqttThings.Schema

open Js

-- As a parser, a literal and a spread make the properties.
def JSONSchema.Ordinary (schema : JSONSchema) : Prop := schema.ownProperties.inherited = some []

structure RequiredValid (schema : JSONSchema) : Prop where
  nodup : schema.requiredFields.Nodup
  subset : schema.requiredFields ⊆ schema.propertyKeys

-- What each operation may do to the fields.
def KeepsFields (schema : JSONSchema) : ChildOperation → Prop
  | .add =>
      (addChild schema).entries.length = schema.entries.length + 1 ∧
        schema.entries ⊆ (addChild schema).entries
  | .rename key newKey =>
      (renameChild schema key newKey).entries.length = schema.entries.length ∧
        (∀ entry ∈ schema.entries, entry.1 ≠ key →
          entry ∈ (renameChild schema key newKey).entries) ∧
        ∀ entry ∈ schema.entries, ∃ name, (name, entry.2) ∈ (renameChild schema key newKey).entries
  | .remove key =>
      ∀ entry ∈ schema.entries, entry.1 ≠ key → entry ∈ (removeChild schema key).entries
  | .move key direction => (moveChild schema key direction).entries.Perm schema.entries
  | .setRequired key required => (updateRequired schema key required).properties = schema.properties
  | .selectRequired chosen => (selectRequired schema chosen).properties = schema.properties

-- Every step of the run keeps the fields and leaves valid required fields.
def KeepsAll : JSONSchema → List ChildOperation → Prop
  | _, [] => True
  | schema, operation :: rest =>
      KeepsFields schema operation ∧ RequiredValid (operation.apply schema) ∧
        KeepsAll (operation.apply schema) rest

def OfferedAll : JSONSchema → List ChildOperation → Prop
  | _, [] => True
  | schema, operation :: rest => operation.Offered schema ∧ OfferedAll (operation.apply schema) rest

-- The name that an operation gives is that of no other field, and is not the accessor's.
def Clear (schema : JSONSchema) : ChildOperation → Prop
  | .add => newName schema ∉ schema.propertyKeys
  | .rename key newKey =>
      trim newKey = "" ∨ trim newKey = key ∨ trim newKey ∉ schema.propertyKeys ∧
        trim newKey ≠ protoName ∧ ∀ other ∈ schema.propertyKeys, other ≠ key → other ≠ protoName
  | _ => True

def ClearAll : JSONSchema → List ChildOperation → Prop
  | _, [] => True
  | schema, operation :: rest => Clear schema operation ∧ ClearAll (operation.apply schema) rest

section Names

variable {schema : JSONSchema} {key nextKey : String} {fields : List String}

theorem nodup_eraseDups (fields : List String) : fields.eraseDups.Nodup := by
  induction h : fields.length using Nat.strongRecOn generalizing fields with
  | ind length ih =>
      cases fields with
      | nil => exact .nil
      | cons field fields =>
          rw [List.eraseDups_cons, List.nodup_cons]
          constructor
          · intro hmem
            have hother := (List.mem_filter.mp (List.mem_eraseDups.mp hmem)).2
            simp at hother
          · have hle := List.length_filter_le (fun other => !other == field) fields
            rw [List.length_cons] at h
            exact ih _ (by omega) _ rfl

theorem requiredFields_nonEmpty (schema : JSONSchema) (fields : List String) :
    ({ schema with required := nonEmpty fields } : JSONSchema).requiredFields = fields := by
  cases fields <;> rfl

theorem nodup_renamed (h : nextKey ∉ fields) (hnodup : fields.Nodup) :
    (fields.map (renamed key nextKey)).Nodup := by
  apply hnodup.map_on
  intro field hfield other hother heq
  unfold renamed at heq
  split_ifs at heq with hkey hkey'
  · exact hkey.trans hkey'.symm
  · exact absurd (heq ▸ hother) h
  · exact absurd (heq ▸ hfield) h
  · exact heq

theorem nodup_renamed_iff (hkey : key ∈ fields) (hne : nextKey ≠ key) (hnodup : fields.Nodup) :
    (fields.map (renamed key nextKey)).Nodup ↔ nextKey ∉ fields := by
  refine ⟨?_, fun h => nodup_renamed h hnodup⟩
  intro h hmem
  apply hne
  apply List.inj_on_of_nodup_map h hmem hkey
  rw [renamed, renamed, if_neg hne, if_pos rfl]

theorem not_mem_renamed_iff (hkey : key ∈ fields) (name : String) :
    name ∉ fields.map (renamed key nextKey) ↔ nextKey ≠ name ∧ ∀ other ∈ fields, other ≠ key →
      other ≠ name := by
  rw [List.mem_map, not_exists]
  constructor
  · intro h
    constructor
    · intro hname
      exact h key ⟨hkey, (if_pos rfl).trans hname⟩
    · intro other hother hne hname
      exact h other ⟨hother, (if_neg hne).trans hname⟩
  · rintro ⟨hnext, hothers⟩ other ⟨hother, heq⟩
    by_cases hne : other = key
    · exact hnext ((if_pos hne).symm.trans heq)
    · exact hothers other hother hne ((if_neg hne).symm.trans heq)

end Names

section Steps

variable {schema : JSONSchema}

theorem propertyKeys_eq (schema : JSONSchema) : schema.propertyKeys = names schema.entries := rfl

theorem nodup_propertyKeys (schema : JSONSchema) : schema.propertyKeys.Nodup :=
  schema.ownProperties.distinct

theorem keys_perm {next : JSONSchema} (h : next.entries.Perm schema.entries) :
    next.propertyKeys.Perm schema.propertyKeys :=
  h.map Prod.fst

theorem add_perm (h : newName schema ∉ schema.propertyKeys) :
    ∃ value, (addChild schema).entries.Perm (schema.entries ++ [(newName schema, value)]) := by
  have hspread := Object.spread_perm schema.ownProperties
  refine ⟨_, (place_perm ?_).trans (hspread.append_right _)⟩
  exact fun hmem => h ((hspread.map Prod.fst).mem_iff.mp hmem)

theorem add_length_iff (schema : JSONSchema) :
    (addChild schema).entries.length = schema.entries.length + 1 ↔
      newName schema ∉ schema.propertyKeys := by
  have hspread := Object.spread_perm schema.ownProperties
  constructor
  · intro h hmem
    have hmem' : newName schema ∈ schema.ownProperties.spread.keys :=
      (hspread.map Prod.fst).mem_iff.mpr hmem
    have hlength : (addChild schema).entries.length = schema.ownProperties.spread.own.length :=
      Object.length_define_of_mem hmem'
    have hsame : schema.ownProperties.spread.own.length = schema.entries.length := hspread.length_eq
    omega
  · intro h
    obtain ⟨value, hperm⟩ := add_perm h
    rw [hperm.length_eq, List.length_append, List.length_singleton]

-- The names that are assigned one after the other.
def renamedEntries (schema : JSONSchema) (key nextKey : String) : List Entry :=
  schema.entries.map fun entry => (renamed key nextKey entry.1, entry.2)

theorem names_renamedEntries (schema : JSONSchema) (key nextKey : String) :
    names (renamedEntries schema key nextKey) = schema.propertyKeys.map (renamed key nextKey) := by
  rw [names, renamedEntries, List.map_map, propertyKeys_eq, names, List.map_map]
  rfl

theorem rename_same {key newKey : String} (h : trim newKey = "" ∨ trim newKey = key) :
    renameChild schema key newKey = schema :=
  if_pos h

theorem rename_properties (hordinary : schema.Ordinary) {key newKey : String}
    (h : ¬(trim newKey = "" ∨ trim newKey = key)) :
    (renameChild schema key newKey).ownProperties = Object.empty.assignAll
      (renamedEntries schema key (trim newKey)) := by
  have hforIn : schema.ownProperties.forIn = schema.entries := by
    rw [Object.forIn, hordinary]
    exact List.append_nil _
  simp only [renameChild, if_neg h, hforIn]
  rfl

theorem rename_length_iff (hordinary : schema.Ordinary) {key newKey : String}
    (hkey : key ∈ schema.propertyKeys) (h : ¬(trim newKey = "" ∨ trim newKey = key)) :
    (renameChild schema key newKey).entries.length = schema.entries.length ↔
      trim newKey ∉ schema.propertyKeys ∧ trim newKey ≠ protoName ∧
        ∀ other ∈ schema.propertyKeys, other ≠ key → other ≠ protoName := by
  have hlength : schema.entries.length = Object.empty.own.length +
      (renamedEntries schema key (trim newKey)).length := by
    rw [renamedEntries, List.length_map]
    exact (Nat.zero_add _).symm
  have hentries : (renameChild schema key newKey).entries =
      (Object.empty.assignAll (renamedEntries schema key (trim newKey))).own :=
    congrArg Object.own (rename_properties hordinary h)
  rw [hentries, hlength, Object.length_assignAll_eq_iff rfl, names_renamedEntries,
    not_mem_renamed_iff hkey]
  exact and_congr_left fun _ => nodup_renamed_iff hkey (not_or.mp h).2 (nodup_propertyKeys schema)

theorem rename_perm (hordinary : schema.Ordinary) {key newKey : String}
    (hkey : key ∈ schema.propertyKeys)
    (h : ¬(trim newKey = "" ∨ trim newKey = key)) (hclear : Clear schema (.rename key newKey)) :
    (renameChild schema key newKey).entries.Perm (renamedEntries schema key (trim newKey)) ∧
      (renameChild schema key newKey).Ordinary := by
  obtain ⟨hfresh, hproto⟩ := (or_assoc.mpr hclear).resolve_left h
  have hnames : protoName ∉ names (renamedEntries schema key (trim newKey)) := by
    rw [names_renamedEntries]
    exact (not_mem_renamed_iff hkey protoName).mpr hproto
  have hnodup : (names (renamedEntries schema key (trim newKey))).Nodup := by
    rw [names_renamedEntries]
    exact nodup_renamed hfresh (nodup_propertyKeys schema)
  have hproperties := (rename_properties hordinary h).trans (Object.assignAll_eq_defineAll hnames)
  constructor
  · rw [JSONSchema.entries, hproperties]
    exact Object.fromEntries_perm hnodup
  · rw [JSONSchema.Ordinary, hproperties, Object.inherited_defineAll]
    rfl

-- Nothing moves at either end.
theorem move_cases (schema : JSONSchema) (key : String) (direction : Direction) :
    moveChild schema key direction = schema ∨
      ∃ swapped : List Entry, swapped.Perm schema.entries ∧
        moveChild schema key direction = { schema with
          properties := some (.fromEntries swapped) } := by
  unfold moveChild
  split
  · exact .inl rfl
  next index _ =>
    split
    · exact .inl rfl
    next target _ =>
      split_ifs
      · exact .inl rfl
      · exact .inr ⟨_, List.swap_perm schema.entries index target, rfl⟩

theorem move_perm (schema : JSONSchema) (key : String) (direction : Direction) :
    (moveChild schema key direction).entries.Perm schema.entries := by
  rcases move_cases schema key direction with hsame | ⟨swapped, hperm, hmoved⟩
  · rw [hsame]
  · rw [hmoved]
    refine (Object.fromEntries_perm ?_).trans hperm
    exact (hperm.map Prod.fst).nodup_iff.mpr (nodup_propertyKeys schema)

theorem move_ordinary (hordinary : schema.Ordinary) (key : String) (direction : Direction) :
    (moveChild schema key direction).Ordinary := by
  rcases move_cases schema key direction with hsame | ⟨swapped, -, hmoved⟩
  · rwa [hsame]
  · rw [hmoved]
    exact Object.inherited_defineAll _ _

theorem requiredFields_moveChild (schema : JSONSchema) (key : String) (direction : Direction) :
    (moveChild schema key direction).requiredFields = schema.requiredFields := by
  rcases move_cases schema key direction with hsame | ⟨swapped, -, hmoved⟩
  · rw [hsame]
  · rw [hmoved]
    rfl

theorem mem_removeChild {key : String} {entry : Entry} :
    entry ∈ (removeChild schema key).entries ↔ entry ∈ schema.entries ∧ entry.1 ≠ key := by
  have hspread := Object.spread_perm schema.ownProperties
  have hfilter : (removeChild schema key).entries = schema.ownProperties.spread.own.filter
      (·.1 ≠ key) := rfl
  rw [hfilter, List.mem_filter, hspread.mem_iff, decide_eq_true_eq]
  rfl

end Steps

section Required

variable {schema : JSONSchema}

theorem required_of_subset {next : JSONSchema} (hrequired : RequiredValid schema)
    (hfields : next.requiredFields = schema.requiredFields)
    (hkeys : schema.propertyKeys ⊆ next.propertyKeys) :
    RequiredValid next := by
  refine ⟨hfields ▸ hrequired.nodup, ?_⟩
  rw [hfields]
  exact List.Subset.trans hrequired.subset hkeys

theorem required_add (hrequired : RequiredValid schema)
    (hclear : newName schema ∉ schema.propertyKeys) :
    RequiredValid (addChild schema) := by
  obtain ⟨value, hperm⟩ := add_perm hclear
  have hkeys : schema.propertyKeys ⊆ (addChild schema).propertyKeys :=
    List.map_subset _ (fun entry hentry => hperm.mem_iff.mpr (List.mem_append_left _ hentry))
  exact required_of_subset hrequired rfl hkeys

theorem required_rename (hordinary : schema.Ordinary) (hrequired : RequiredValid schema)
    {key newKey : String}
    (hkey : key ∈ schema.propertyKeys) (hclear : Clear schema (.rename key newKey)) :
    RequiredValid (renameChild schema key newKey) := by
  by_cases h : trim newKey = "" ∨ trim newKey = key
  · rwa [rename_same h]
  · have hfresh := ((or_assoc.mpr hclear).resolve_left h).1
    have hfields : (renameChild schema key newKey).requiredFields = schema.requiredFields.map
        (renamed key (trim newKey)) := by
      simp only [renameChild, if_neg h, JSONSchema.requiredFields]
      cases schema.required <;> rfl
    have hkeys := ((rename_perm hordinary hkey h hclear).1.map Prod.fst)
    change (renameChild schema key newKey).propertyKeys.Perm
      (names (renamedEntries schema key (trim newKey))) at hkeys
    rw [names_renamedEntries] at hkeys
    constructor
    · rw [hfields]
      exact nodup_renamed (fun hmem => hfresh (hrequired.subset hmem)) hrequired.nodup
    · rw [hfields]
      exact List.Subset.trans (List.map_subset _ hrequired.subset) hkeys.symm.subset

theorem required_remove (hrequired : RequiredValid schema) (key : String) :
    RequiredValid (removeChild schema key) := by
  have hfields : (removeChild schema key).requiredFields = schema.requiredFields.filter
      (· ≠ key) := by
    unfold removeChild JSONSchema.requiredFields
    cases schema.required with
    | none => rfl
    | some fields => exact requiredFields_nonEmpty schema (fields.filter (· ≠ key))
  constructor
  · rw [hfields]
    exact hrequired.nodup.filter _
  · intro field hfield
    rw [hfields, List.mem_filter, decide_eq_true_eq] at hfield
    obtain ⟨entry, hentry, rfl⟩ := List.mem_map.mp (hrequired.subset hfield.1)
    exact List.mem_map_of_mem (mem_removeChild.mpr ⟨hentry, hfield.2⟩)

theorem required_update (hrequired : RequiredValid schema) {key : String}
    (hkey : key ∈ schema.propertyKeys) (required : Bool) :
    RequiredValid (updateRequired schema key required) := by
  have hfields := requiredFields_nonEmpty schema
    (if required then (schema.requiredFields ++ [key]).eraseDups else schema.requiredFields.filter
      (· ≠ key))
  change (updateRequired schema key required).requiredFields = _ at hfields
  have hkeys : (updateRequired schema key required).propertyKeys = schema.propertyKeys := rfl
  constructor
  · rw [hfields]
    split_ifs
    · exact nodup_eraseDups _
    · exact hrequired.nodup.filter _
  · rw [hfields, hkeys]
    intro field hfield
    split_ifs at hfield
    · rcases List.mem_append.mp (List.mem_eraseDups.mp hfield) with hold | hnew
      · exact hrequired.subset hold
      · rwa [List.mem_singleton.mp hnew]
    · exact hrequired.subset (List.mem_filter.mp hfield).1

theorem required_select (schema : JSONSchema) (chosen : List String) :
    RequiredValid (selectRequired schema chosen) := by
  have hfields := requiredFields_nonEmpty schema (schema.propertyKeys.filter (chosen.contains ·))
  change (selectRequired schema chosen).requiredFields = _ at hfields
  constructor
  · rw [hfields]
    exact (nodup_propertyKeys schema).filter _
  · rw [hfields]
    exact List.filter_subset_self _

end Required

section Runs

variable {schema : JSONSchema}

theorem keepsFields_rename (hordinary : schema.Ordinary) {key newKey : String}
    (hkey : key ∈ schema.propertyKeys)
    (hclear : Clear schema (.rename key newKey)) : KeepsFields schema (.rename key newKey) := by
  by_cases h : trim newKey = "" ∨ trim newKey = key
  · rw [KeepsFields, rename_same h]
    exact ⟨rfl, fun entry hentry _ => hentry, fun entry hentry => ⟨entry.1, hentry⟩⟩
  · have hperm := (rename_perm hordinary hkey h hclear).1
    have hmem {entry : Entry} (hentry : entry ∈ schema.entries) :
        (renamed key (trim newKey) entry.1, entry.2) ∈ (renameChild schema key newKey).entries :=
      hperm.mem_iff.mpr (List.mem_map_of_mem hentry)
    refine ⟨?_, ?_, fun entry hentry => ⟨_, hmem hentry⟩⟩
    · rw [hperm.length_eq, renamedEntries, List.length_map]
    · intro entry hentry hne
      have hkept := hmem hentry
      rwa [renamed, if_neg hne] at hkept

-- A step whose name is clear keeps the fields, and the next state is like this one.
theorem step_keeps (hordinary : schema.Ordinary) (hrequired : RequiredValid schema)
    {operation : ChildOperation}
    (hoffered : operation.Offered schema) (hclear : Clear schema operation) :
    KeepsFields schema operation ∧ RequiredValid (operation.apply schema) ∧
      (operation.apply schema).Ordinary := by
  cases operation with
  | add =>
      obtain ⟨value, hperm⟩ := add_perm hclear
      refine ⟨⟨(add_length_iff schema).mpr hclear, ?_⟩, required_add hrequired hclear,
        Object.inherited_defineAll _ _⟩
      exact fun entry hentry => hperm.mem_iff.mpr (List.mem_append_left _ hentry)
  | rename key newKey =>
      refine ⟨keepsFields_rename hordinary hoffered hclear,
        required_rename hordinary hrequired hoffered hclear, ?_⟩
      by_cases h : trim newKey = "" ∨ trim newKey = key
      · rwa [ChildOperation.apply, rename_same h]
      · exact (rename_perm hordinary hoffered h hclear).2
  | remove key =>
      refine ⟨?_, required_remove hrequired key, Object.inherited_defineAll _ _⟩
      exact fun entry hentry hne => mem_removeChild.mpr ⟨hentry, hne⟩
  | move key direction =>
      have hperm := move_perm schema key direction
      refine ⟨hperm, ?_, move_ordinary hordinary key direction⟩
      exact required_of_subset hrequired (requiredFields_moveChild schema key direction)
        (keys_perm hperm).symm.subset
  | setRequired key required => exact ⟨rfl, required_update hrequired hoffered required, hordinary⟩
  | selectRequired chosen => exact ⟨rfl, required_select schema chosen, hordinary⟩

theorem clear_of_keepsFields (hordinary : schema.Ordinary) {operation : ChildOperation}
    (hoffered : operation.Offered schema) (h : KeepsFields schema operation) :
    Clear schema operation := by
  cases operation with
  | add => exact (add_length_iff schema).mp h.1
  | rename key newKey =>
      by_cases hsame : trim newKey = "" ∨ trim newKey = key
      · exact or_assoc.mp (.inl hsame)
      · exact or_assoc.mp (.inr ((rename_length_iff hordinary hoffered hsame).mp h.1))
  | remove key => trivial
  | move key direction => trivial
  | setRequired key required => trivial
  | selectRequired chosen => trivial

-- A run keeps every field and valid required fields exactly if each of its names is clear.
theorem keepsAll_iff_clearAll (hordinary : schema.Ordinary) (hrequired : RequiredValid schema)
    {operations : List ChildOperation} (hoffered : OfferedAll schema operations) :
    KeepsAll schema operations ↔ ClearAll schema operations := by
  induction operations generalizing schema with
  | nil => exact Iff.rfl
  | cons operation rest ih =>
      constructor
      · rintro ⟨hkeeps, hvalid, hrest⟩
        have hclear := clear_of_keepsFields hordinary hoffered.1 hkeeps
        have hnext := (step_keeps hordinary hrequired hoffered.1 hclear).2.2
        exact ⟨hclear, (ih hnext hvalid hoffered.2).mp hrest⟩
      · rintro ⟨hclear, hrest⟩
        obtain ⟨hkeeps, hvalid, hnext⟩ := step_keeps hordinary hrequired hoffered.1 hclear
        exact ⟨hkeeps, hvalid, (ih hnext hvalid hoffered.2).mpr hrest⟩

end Runs

section Demo

def schemaOf (fields : List String) (required : List String) : JSONSchema where
  properties := some
    (.fromEntries (fields.map fun field => (field, .object [("type", .string "string")])))
  required := some required

theorem schemaOf_ordinary (fields required : List String) : (schemaOf fields required).Ordinary :=
  Object.inherited_defineAll _ _

instance (schema : JSONSchema) (operation : ChildOperation) :
    Decidable (operation.Offered schema) :=
  match operation with
  | .add | .selectRequired _ => inferInstanceAs (Decidable True)
  | .rename .. | .remove _ | .move .. | .setRequired .. => inferInstanceAs (Decidable (_ ∈ _))

instance (schema : JSONSchema) (operation : ChildOperation) : Decidable (Clear schema operation) :=
  match operation with
  | .add => inferInstanceAs (Decidable (¬_))
  | .rename .. => inferInstanceAs (Decidable (_ ∨ _ ∨ _ ∧ _ ∧ _))
  | .remove _ | .move .. | .setRequired .. | .selectRequired _ => inferInstanceAs (Decidable True)

instance decidableOfferedAll (schema : JSONSchema) :
    (operations : List ChildOperation) → Decidable (OfferedAll schema operations)
  | [] => inferInstanceAs (Decidable True)
  | operation :: rest =>
      have := decidableOfferedAll (operation.apply schema) rest
      inferInstanceAs (Decidable (operation.Offered schema ∧ _))

instance decidableClearAll (schema : JSONSchema) :
    (operations : List ChildOperation) → Decidable (ClearAll schema operations)
  | [] => inferInstanceAs (Decidable True)
  | operation :: rest =>
      have := decidableClearAll (operation.apply schema) rest
      inferInstanceAs (Decidable (Clear schema operation ∧ _))

-- A numeral is moved to the front by its name, and nowhere by the button.
def demoEdits : List ChildOperation :=
  [.add, .rename "field2" " 10 ", .setRequired "10" true, .move "10" .down, .rename "a" "10x",
    .remove "10"]

theorem demo_edits_kept : KeepsAll (schemaOf ["a"] ["a"]) demoEdits :=
  (keepsAll_iff_clearAll (schemaOf_ordinary _ _) ⟨by decide, by decide +kernel⟩
    (by decide +kernel)).mpr (by decide +kernel)

-- One operation that the editor offers, on a schema that is in order, loses a field.
def LosesField (schema : JSONSchema) (operation : ChildOperation) : Prop :=
  schema.Ordinary ∧ RequiredValid schema ∧ OfferedAll schema [operation] ∧
    ¬KeepsAll schema [operation]

theorem losesField {fields required : List String} {operation : ChildOperation}
    (hrequired : RequiredValid (schemaOf fields required))
    (hoffered : OfferedAll (schemaOf fields required) [operation])
    (hclear : ¬Clear (schemaOf fields required) operation) :
    LosesField (schemaOf fields required) operation := by
  refine ⟨schemaOf_ordinary fields required, hrequired, hoffered, ?_⟩
  rintro ⟨hkeeps, -⟩
  exact hclear (clear_of_keepsFields (schemaOf_ordinary fields required) hoffered.1 hkeeps)

-- The name of a new field is taken, a new name is taken, and a new name is the accessor's.
theorem fields_lost :
    LosesField (schemaOf ["field2"] []) .add ∧ LosesField (schemaOf ["a", "b"] ["a", "b"])
      (.rename "a" "b") ∧ LosesField (schemaOf ["a", "b"] []) (.rename "a" "__proto__") := by
  refine ⟨losesField ⟨?_, ?_⟩ ?_ ?_, losesField ⟨?_, ?_⟩ ?_ ?_, losesField ⟨?_, ?_⟩ ?_ ?_⟩ <;>
    decide +kernel

end Demo

end RmqttThings.Schema
