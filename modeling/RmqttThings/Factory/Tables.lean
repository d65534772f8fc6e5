import RmqttThings.Json
import RmqttThings.Time
import Mathlib.Data.List.AList

namespace RmqttThings.Factory

-- A row of `factory_component_metadata`.
structure ComponentRow where
  componentType : String
  metadata : Json
  fileAttachments : Json
  updatedAt : OffsetDateTime
  createdAt : OffsetDateTime

-- A row of `factory_device_metadata`.
structure DeviceRow where
  metadata : Json
  fileAttachments : Json
  updatedAt : OffsetDateTime
  createdAt : OffsetDateTime

-- A row of `factory_component_association`.
structure AssociationRow where
  componentType : Option String
  updatedAt : OffsetDateTime

-- A row of `factory_metadata_change_log`.
structure ChangeLogRow where
  sn : String
  before : Json
  after : Json
  actor : String
  createdAt : OffsetDateTime

-- The associations have the device and the component as their primary key.
structure Tables where
  components : String → Option ComponentRow
  devices : String → Option DeviceRow
  associations : AList fun _ : String × String => AssociationRow
  changeLog : List ChangeLogRow

structure ComponentReport where
  componentSn : String
  componentType : String
  metadata : Json
  fileAttachments : Json

structure DeviceReport where
  deviceSn : String
  metadata : Json
  fileAttachments : Json

structure ComponentAssociationInput where
  componentSn : String
  componentType : Option String

namespace Tables

def empty : Tables := ⟨fun _ => none, fun _ => none, ∅, []⟩

variable (t : Tables)

-- `CURRENT_TIMESTAMP` is the time at which the transaction has started.
section Statements

variable (now : OffsetDateTime)

def insertComponent (report : ComponentReport) : Tables :=
  let created := ((t.components report.componentSn).map (·.createdAt)).getD now
  let row : ComponentRow :=
    ⟨report.componentType, report.metadata, report.fileAttachments, now, created⟩
  { t with components := Function.update t.components report.componentSn (some row) }

def insertDevice (report : DeviceReport) : Tables :=
  let created := ((t.devices report.deviceSn).map (·.createdAt)).getD now
  let row : DeviceRow := ⟨report.metadata, report.fileAttachments, now, created⟩
  { t with devices := Function.update t.devices report.deviceSn (some row) }

def appendChangeLog (sn : String) (before after : Json) : Tables :=
  { t with changeLog := t.changeLog ++ [⟨sn, before, after, "factory", now⟩] }

def insertAssociation (deviceSn : String) (item : ComponentAssociationInput) : Tables :=
  { t with associations := t.associations.insert (deviceSn, item.componentSn) ⟨item.componentType,
    now⟩ }

end Statements

-- The rows that the `DELETE` of a full replace finds.
def replacedKeys (deviceSn : String) (components : List ComponentAssociationInput) :
    List (String × String) :=
  t.associations.keys.filter fun key => key.1 == deviceSn &&
    !(components.map (·.componentSn)).contains key.2

def deleteAssociation (key : String × String) : Tables :=
  { t with associations := t.associations.erase key }

end Tables

section Snapshots

-- How `serde` writes an instant.
variable (encode : OffsetDateTime → Json)

def ComponentRow.snapshot (row : ComponentRow) : Json :=
  .object [("component_type", .string row.componentType), ("file_attachments", row.fileAttachments),
    ("metadata", row.metadata), ("updated_at", encode row.updatedAt)]

-- A device has no component type.
def DeviceRow.snapshot (row : DeviceRow) : Json :=
  .object [("file_attachments", row.fileAttachments), ("metadata", row.metadata),
    ("updated_at", encode row.updatedAt)]

-- The calls as a whole. An overwrite appends one row to the change log.
def upsertComponent (report : ComponentReport) (now : OffsetDateTime) (t : Tables) : Tables :=
  let written := t.insertComponent now report
  match t.components report.componentSn, written.components report.componentSn with
  | some before, some after =>
      written.appendChangeLog now report.componentSn (before.snapshot encode)
        (after.snapshot encode)
  | _, _ => written

def upsertDeviceMetadata (report : DeviceReport) (now : OffsetDateTime) (t : Tables) : Tables :=
  let written := t.insertDevice now report
  match t.devices report.deviceSn, written.devices report.deviceSn with
  | some before, some after =>
      written.appendChangeLog now report.deviceSn (before.snapshot encode) (after.snapshot encode)
  | _, _ => written

end Snapshots

-- An empty list deletes every row of the device.
def replaceAssociations (deviceSn : String) (components : List ComponentAssociationInput)
    (now : OffsetDateTime) (t : Tables) : Tables :=
  let cleared := (t.replacedKeys deviceSn components).foldl Tables.deleteAssociation t
  components.foldl (fun t item => t.insertAssociation now deviceSn item) cleared

structure FactoryDeviceViewRow where
  componentSn : String
  assocType : Option String
  metaType : Option String
  metadata : Option Json
  fileAttachments : Option Json
  updatedAt : Option OffsetDateTime

-- The left join of the associations of a device with the component metadata. The order of
-- the rows is the database's.
def joinedRows (t : Tables) (deviceSn : String) : List FactoryDeviceViewRow :=
  (t.associations.entries.filter fun entry => entry.1.1 == deviceSn).map fun entry =>
    let found := t.components entry.1.2
    ⟨entry.1.2, entry.2.componentType, found.map (·.componentType), found.map (·.metadata),
      found.map (·.fileAttachments), found.map (·.updatedAt)⟩

def getDeviceView (t : Tables) (deviceSn : String) : Option (List FactoryDeviceViewRow) :=
  let rows := joinedRows t deviceSn
  if !rows.isEmpty then some rows
  else if (t.devices deviceSn).isSome then some []
  else none

structure FactoryComponentView where
  componentSn : String
  componentType : Option String
  metadata : Option Json
  fileAttachments : List Json
  updatedAt : Option OffsetDateTime

def normaliseFileAttachments : Option Json → List Json
  | some (.array items) => items
  | some .null => []
  | some value => [value]
  | none => []

def mapRowToComponentView (row : FactoryDeviceViewRow) : FactoryComponentView :=
  ⟨row.componentSn, row.metaType.or row.assocType, row.metadata,
    normaliseFileAttachments row.fileAttachments, row.updatedAt⟩

structure FactoryDeviceMetadataView where
  metadata : Option Json
  fileAttachments : List Json
  updatedAt : Option OffsetDateTime

def mapRowToDeviceMetadataView (row : DeviceRow) : FactoryDeviceMetadataView :=
  ⟨some row.metadata, normaliseFileAttachments (some row.fileAttachments), some row.updatedAt⟩

structure FactoryDeviceView where
  deviceSn : String
  deviceMetadata : Option FactoryDeviceMetadataView
  components : List FactoryComponentView

-- `none` is answered with 404.
def getFactoryDeviceView (t : Tables) (deviceSn : String) : Option FactoryDeviceView :=
  (getDeviceView t deviceSn).map fun rows =>
    ⟨deviceSn, (t.devices deviceSn).map mapRowToDeviceMetadataView, rows.map mapRowToComponentView⟩

-- The entry that wins for a component: a later one overwrites an earlier one.
def lastEntry (components : List ComponentAssociationInput) (componentSn : String) :
    Option ComponentAssociationInput :=
  components.reverse.find? fun item => item.componentSn == componentSn

theorem lastEntry_eq_none {components : List ComponentAssociationInput} {componentSn : String} :
    lastEntry components componentSn = none ↔ componentSn ∉ components.map (·.componentSn) := by
  simp [lastEntry]

theorem lastEntry_cons (item : ComponentAssociationInput) (items : List ComponentAssociationInput)
    (componentSn : String) : lastEntry (item :: items) componentSn =
      (lastEntry items componentSn).or (if item.componentSn == componentSn then some item
        else none) := by
  rw [lastEntry, List.reverse_cons, List.find?_append, List.find?_singleton, lastEntry]

theorem lastEntry_append (front back : List ComponentAssociationInput) (componentSn : String) :
    lastEntry (front ++ back) componentSn = (lastEntry back componentSn).or
      (lastEntry front componentSn) := by
  rw [lastEntry, List.reverse_append, List.find?_append, lastEntry, lastEntry]

section Lookups

variable (t : Tables) (deviceSn componentSn : String)

theorem lookup_deleteAssociations (keys : List (String × String)) (key : String × String) :
    (keys.foldl Tables.deleteAssociation t).associations.lookup key =
      if key ∈ keys then none else t.associations.lookup key := by
  induction keys generalizing t with
  | nil => simp
  | cons first keys ih =>
      rw [List.foldl_cons, ih]
      by_cases he : key = first
      · subst he
        simp [Tables.deleteAssociation]
      · simp [he, Tables.deleteAssociation, AList.lookup_erase_ne he]

theorem lookup_insertAssociations (now : OffsetDateTime)
    (components : List ComponentAssociationInput) (key : String × String) :
    (components.foldl (fun t item => t.insertAssociation now deviceSn item) t).associations.lookup
      key =
      if key.1 = deviceSn then
        ((lastEntry components key.2).map fun item => ⟨item.componentType, now⟩).or
          (t.associations.lookup key)
      else t.associations.lookup key := by
  induction components generalizing t with
  | nil => simp [lastEntry]
  | cons item components ih =>
      rw [List.foldl_cons, ih]
      by_cases hdevice : key.1 = deviceSn
      · rw [if_pos hdevice, if_pos hdevice, lastEntry_cons]
        by_cases hsn : item.componentSn = key.2
        · have hkey : key = (deviceSn, item.componentSn) := by
            rw [hsn, ← hdevice]
          subst hkey
          cases lastEntry components item.componentSn <;> simp [Tables.insertAssociation]
        · have hkey : key ≠ (deviceSn, item.componentSn) := by
            rintro rfl
            exact hsn rfl
          cases lastEntry components key.2 <;>
            simp [Tables.insertAssociation, AList.lookup_insert_ne hkey, hsn]
      · have hkey : key ≠ (deviceSn, item.componentSn) := by
          rintro rfl
          exact hdevice rfl
        rw [if_neg hdevice, if_neg hdevice, Tables.insertAssociation, AList.lookup_insert_ne hkey]

theorem mem_replacedKeys {components : List ComponentAssociationInput} {key : String × String} :
    key ∈ t.replacedKeys deviceSn components ↔
      (t.associations.lookup key).isSome ∧ key.1 = deviceSn ∧ lastEntry components key.2 =
        none := by
  rw [lastEntry_eq_none, AList.lookup_isSome, Tables.replacedKeys, List.mem_filter, AList.mem_keys]
  simp

-- The device has the entries of the list and nothing else.
theorem lookup_replaceAssociations (components : List ComponentAssociationInput)
    (now : OffsetDateTime) (key : String × String) :
    (replaceAssociations deviceSn components now t).associations.lookup key =
      if key.1 = deviceSn then (lastEntry components key.2).map fun item =>
        ⟨item.componentType, now⟩
      else t.associations.lookup key := by
  rw [replaceAssociations, lookup_insertAssociations, lookup_deleteAssociations]
  by_cases hdevice : key.1 = deviceSn
  · rw [if_pos hdevice, if_pos hdevice]
    cases hlast : lastEntry components key.2 with
    | some item => rfl
    | none =>
        cases hfound : t.associations.lookup key with
        | none => simp
        | some row =>
            have hmem : key ∈ t.replacedKeys deviceSn components := by
              rw [mem_replacedKeys, hfound]
              exact ⟨rfl, hdevice, hlast⟩
            simp [hmem]
  · have hmem : key ∉ t.replacedKeys deviceSn components := fun h =>
      hdevice ((mem_replacedKeys t deviceSn).mp h).2.1
    rw [if_neg hdevice, if_neg hdevice, if_neg hmem]

end Lookups

end RmqttThings.Factory
