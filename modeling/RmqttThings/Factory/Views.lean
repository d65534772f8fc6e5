import RmqttThings.Factory.Tables

namespace RmqttThings.Factory

inductive Call where
  | component (report : ComponentReport)
  | device (report : DeviceReport)
  | associations (deviceSn : String) (components : List ComponentAssociationInput)

-- What a call writes: a row of one of the metadata tables, or the associations of a device.
inductive CallKey where
  | component (componentSn : String)
  | device (deviceSn : String)
  | associations (deviceSn : String)
deriving DecidableEq

-- What the tables hold under a key, without the instants.
inductive Content where
  | component (found : Option (String × Json × Json))
  | device (found : Option (Json × Json))
  | associations (types : String → Option (Option String))

def Tables.content (t : Tables) : CallKey → Content
  | .component componentSn =>
      .component ((t.components componentSn).map fun row => (row.componentType, row.metadata,
        row.fileAttachments))
  | .device deviceSn =>
      .device ((t.devices deviceSn).map fun row => (row.metadata, row.fileAttachments))
  | .associations deviceSn =>
      .associations fun componentSn => (t.associations.lookup (deviceSn, componentSn)).map
        (·.componentType)

namespace Call

def key : Call → CallKey
  | component report => .component report.componentSn
  | device report => .device report.deviceSn
  | associations deviceSn _ => .associations deviceSn

-- What is under the key of a call once it has been processed.
def content : Call → Content
  | component report =>
      .component (some (report.componentType, report.metadata, report.fileAttachments))
  | device report => .device (some (report.metadata, report.fileAttachments))
  | associations _ components =>
      .associations fun componentSn => (lastEntry components componentSn).map (·.componentType)

end Call

-- No two reports of one component, no two of one device, no two replaces of one device.
def Independent (calls : List Call) : Prop := (calls.map Call.key).Nodup

section Processing

variable (encode : OffsetDateTime → Json)

def Call.process (now : OffsetDateTime) : Call → Tables → Tables
  | component report => upsertComponent encode report now
  | device report => upsertDeviceMetadata encode report now
  | associations deviceSn components => replaceAssociations deviceSn components now

-- Each call has its own transaction time.
def processAll (calls : List (Call × OffsetDateTime)) (t : Tables) : Tables :=
  calls.foldl (fun t call => call.1.process encode call.2 t) t

end Processing

section Reports

variable (encode : OffsetDateTime → Json) (now : OffsetDateTime) (t : Tables)

theorem upsertComponent_components (report : ComponentReport) :
    (upsertComponent encode report now t).components =
      (t.insertComponent now report).components := by
  unfold upsertComponent
  simp only
  split <;> rfl

theorem upsertComponent_others (report : ComponentReport) :
    (upsertComponent encode report now t).devices = t.devices ∧
      (upsertComponent encode report now t).associations = t.associations := by
  unfold upsertComponent
  simp only
  split <;> exact ⟨rfl, rfl⟩

theorem upsertDeviceMetadata_devices (report : DeviceReport) :
    (upsertDeviceMetadata encode report now t).devices = (t.insertDevice now report).devices := by
  unfold upsertDeviceMetadata
  simp only
  split <;> rfl

theorem upsertDeviceMetadata_others (report : DeviceReport) :
    (upsertDeviceMetadata encode report now t).components = t.components ∧
      (upsertDeviceMetadata encode report now t).associations = t.associations := by
  unfold upsertDeviceMetadata
  simp only
  split <;> exact ⟨rfl, rfl⟩

theorem insertAssociations_others (deviceSn : String)
    (components : List ComponentAssociationInput) :
    (components.foldl (fun t item => t.insertAssociation now deviceSn item) t).components =
      t.components ∧
      (components.foldl (fun t item => t.insertAssociation now deviceSn item) t).devices =
        t.devices := by
  induction components generalizing t with
  | nil => exact ⟨rfl, rfl⟩
  | cons item components ih => exact ih (t.insertAssociation now deviceSn item)

theorem deleteAssociations_others (keys : List (String × String)) :
    (keys.foldl Tables.deleteAssociation t).components = t.components ∧
      (keys.foldl Tables.deleteAssociation t).devices = t.devices := by
  induction keys generalizing t with
  | nil => exact ⟨rfl, rfl⟩
  | cons key keys ih => exact ih (t.deleteAssociation key)

theorem replaceAssociations_others (deviceSn : String)
    (components : List ComponentAssociationInput) :
    (replaceAssociations deviceSn components now t).components = t.components ∧
      (replaceAssociations deviceSn components now t).devices = t.devices := by
  obtain ⟨hcomponents, hdevices⟩ := deleteAssociations_others t (t.replacedKeys deviceSn components)
  obtain ⟨hcomponents', hdevices'⟩ := insertAssociations_others now
    ((t.replacedKeys deviceSn components).foldl Tables.deleteAssociation t) deviceSn components
  exact ⟨hcomponents'.trans hcomponents, hdevices'.trans hdevices⟩

-- A call decides what is under its own key, whatever was there before.
theorem content_process_self (call : Call) :
    (call.process encode now t).content call.key = call.content := by
  cases call with
  | component report =>
      simp [Call.process, Call.key, Call.content, Tables.content, upsertComponent_components,
        Tables.insertComponent]
  | device report =>
      simp [Call.process, Call.key, Call.content, Tables.content, upsertDeviceMetadata_devices,
        Tables.insertDevice]
  | associations deviceSn components =>
      simp [Call.process, Call.key, Call.content, Tables.content, lookup_replaceAssociations,
        Function.comp_def]

theorem content_process_ne (call : Call) {key : CallKey} (h : call.key ≠ key) :
    (call.process encode now t).content key = t.content key := by
  cases call with
  | component report =>
      obtain ⟨hdevices, hassociations⟩ := upsertComponent_others encode now t report
      cases key with
      | component componentSn =>
          have hne : componentSn ≠ report.componentSn := fun he => h (by rw [he]; rfl)
          simp [Call.process, Tables.content, upsertComponent_components, Tables.insertComponent,
            Function.update_of_ne hne]
      | device deviceSn => simp [Call.process, Tables.content, hdevices]
      | associations deviceSn => simp [Call.process, Tables.content, hassociations]
  | device report =>
      obtain ⟨hcomponents, hassociations⟩ := upsertDeviceMetadata_others encode now t report
      cases key with
      | component componentSn => simp [Call.process, Tables.content, hcomponents]
      | device deviceSn =>
          have hne : deviceSn ≠ report.deviceSn := fun he => h (by rw [he]; rfl)
          simp [Call.process, Tables.content, upsertDeviceMetadata_devices, Tables.insertDevice,
            Function.update_of_ne hne]
      | associations deviceSn => simp [Call.process, Tables.content, hassociations]
  | associations deviceSn components =>
      obtain ⟨hcomponents, hdevices⟩ := replaceAssociations_others now t deviceSn components
      cases key with
      | component componentSn => simp [Call.process, Tables.content, hcomponents]
      | device deviceSn => simp [Call.process, Tables.content, hdevices]
      | associations other =>
          have hne : other ≠ deviceSn := fun he => h (by rw [he]; rfl)
          simp [Call.process, Tables.content, lookup_replaceAssociations, hne]

end Reports

section Orders

variable {encode : OffsetDateTime → Json}

theorem content_processAll_of_notMem {calls : List (Call × OffsetDateTime)} {key : CallKey}
    (h : key ∉ (calls.map (·.1)).map Call.key) (t : Tables) :
    (processAll encode calls t).content key = t.content key := by
  induction calls generalizing t with
  | nil => rfl
  | cons call calls ih =>
      simp only [List.map_cons, List.mem_cons, not_or] at h
      calc (processAll encode (call :: calls) t).content key
          = (call.1.process encode call.2 t).content key := ih h.2 _
        _ = t.content key := content_process_ne encode call.2 t call.1 (Ne.symm h.1)

theorem content_processAll_of_mem {calls : List (Call × OffsetDateTime)} {call : Call}
    (hindependent : Independent (calls.map (·.1))) (h : call ∈ calls.map (·.1)) (t : Tables) :
    (processAll encode calls t).content call.key = call.content := by
  induction calls generalizing t with
  | nil => simp at h
  | cons first calls ih =>
      simp only [Independent, List.map_cons, List.nodup_cons] at hindependent
      rw [List.map_cons, List.mem_cons] at h
      rcases h with rfl | h
      · -- the calls after it have other keys
        calc (processAll encode (first :: calls) t).content first.1.key
            = (first.1.process encode first.2 t).content first.1.key :=
              content_processAll_of_notMem hindependent.1 _
          _ = first.1.content := content_process_self encode first.2 t first.1
      · exact ih hindependent.2 h _

theorem content_processAll_find {calls : List (Call × OffsetDateTime)}
    (hindependent : Independent (calls.map (·.1)))
    (t : Tables) (key : CallKey) : (processAll encode calls t).content key =
      ((calls.map (·.1)).find? fun call => call.key == key).elim (t.content key) Call.content := by
  cases hfind : (calls.map (·.1)).find? fun call => call.key == key with
  | none =>
      refine content_processAll_of_notMem (fun hmem => ?_) t
      obtain ⟨call, hcall, rfl⟩ := List.mem_map.mp hmem
      simpa using List.find?_eq_none.mp hfind call hcall
  | some call =>
      obtain rfl : call.key = key := by simpa using List.find?_some hfind
      exact content_processAll_of_mem hindependent (List.mem_of_find?_eq_some hfind) t

-- The order and the times of the calls leave no trace in the content.
theorem content_processAll_perm {calls calls' : List (Call × OffsetDateTime)}
    (hindependent : Independent (calls.map (·.1)))
    (hperm : (calls.map (·.1)).Perm (calls'.map (·.1))) (t : Tables)
    (key : CallKey) : (processAll encode calls t).content key = (processAll encode calls' t).content
    key := by
  have hindependent' : Independent (calls'.map (·.1)) :=
    (hperm.map Call.key).nodup_iff.mp hindependent
  by_cases hmem : key ∈ (calls.map (·.1)).map Call.key
  · obtain ⟨call, hcall, rfl⟩ := List.mem_map.mp hmem
    rw [content_processAll_of_mem hindependent hcall,
      content_processAll_of_mem hindependent' (hperm.mem_iff.mp hcall)]
  · have hmem' : key ∉ (calls'.map (·.1)).map Call.key :=
      fun h => hmem ((hperm.map Call.key).mem_iff.mpr h)
    rw [content_processAll_of_notMem hmem, content_processAll_of_notMem hmem']

end Orders

-- The views without the instants.
def FactoryComponentView.untimed (view : FactoryComponentView) : FactoryComponentView :=
  { view with updatedAt := none }

def FactoryDeviceMetadataView.untimed (view : FactoryDeviceMetadataView) :
    FactoryDeviceMetadataView :=
  { view with updatedAt := none }

-- The component views have no order.
structure SameView (view view' : FactoryDeviceView) : Prop where
  deviceSn : view.deviceSn = view'.deviceSn
  deviceMetadata : view.deviceMetadata.map (·.untimed) = view'.deviceMetadata.map (·.untimed)
  components : (view.components.map (·.untimed)).Perm (view'.components.map (·.untimed))

-- The component views of a device.
def componentViews (t : Tables) (deviceSn : String) : List FactoryComponentView :=
  (joinedRows t deviceSn).map mapRowToComponentView

section Expected

variable (calls : List Call) (t : Tables)

-- What is known of a component once these calls have been processed: what they report, or
-- else what the tables had. Its type, its metadata and its files.
def componentAfter (componentSn : String) : Option (String × Json × Json) :=
  match calls.find? fun call => call.key == .component componentSn with
  | some (.component report) => some (report.componentType, report.metadata, report.fileAttachments)
  | _ =>
      (t.components componentSn).map fun row => (row.componentType, row.metadata,
        row.fileAttachments)

def deviceAfter (deviceSn : String) : Option (Json × Json) :=
  match calls.find? fun call => call.key == .device deviceSn with
  | some (.device report) => some (report.metadata, report.fileAttachments)
  | _ => (t.devices deviceSn).map fun row => (row.metadata, row.fileAttachments)

-- The associated type, of a component that the device has then.
def associationAfter (deviceSn componentSn : String) : Option (Option String) :=
  match calls.find? fun call => call.key == .associations deviceSn with
  | some (.associations _ components) => (lastEntry components componentSn).map (·.componentType)
  | _ => (t.associations.lookup (deviceSn, componentSn)).map (·.componentType)

-- The type of the metadata, or else of the association.
def typeAfter (deviceSn componentSn : String) : Option String :=
  match componentAfter calls t componentSn with
  | some (componentType, _) => some componentType
  | none => (associationAfter calls t deviceSn componentSn).getD none

-- The view of a device in the tables that these calls have left.
structure MergedView (after : Tables) (deviceSn : String) : Prop where
  nodup : ((componentViews after deviceSn).map (·.componentSn)).Nodup
  associated : ∀ componentSn, componentSn ∈ (componentViews after deviceSn).map (·.componentSn) ↔
    (associationAfter calls t deviceSn componentSn).isSome
  typed : ∀ view ∈ componentViews after deviceSn, view.componentType = typeAfter calls t deviceSn
    view.componentSn
  described : ∀ view ∈ componentViews after deviceSn,
    view.metadata = (componentAfter calls t view.componentSn).map (·.2.1) ∧
    view.fileAttachments = normaliseFileAttachments
      ((componentAfter calls t view.componentSn).map (·.2.2))
  absent : getDeviceView after deviceSn = none ↔
    (∀ componentSn, associationAfter calls t deviceSn componentSn = none) ∧
      deviceAfter calls t deviceSn = none

end Expected

section Joins

variable (t : Tables) (deviceSn : String)

-- The view of one association.
def viewOf (componentSn : String) (row : AssociationRow) : FactoryComponentView :=
  let found := t.components componentSn
  ⟨componentSn, (found.map (·.componentType)).or row.componentType, found.map (·.metadata),
    normaliseFileAttachments (found.map (·.fileAttachments)), found.map (·.updatedAt)⟩

theorem componentViews_eq : componentViews t deviceSn =
    (t.associations.entries.filter fun entry => entry.1.1 == deviceSn).map fun entry =>
      viewOf t entry.1.2 entry.2 := by
  rw [componentViews, joinedRows, List.map_map]
  rfl

theorem mem_componentViews {view : FactoryComponentView} : view ∈ componentViews t deviceSn ↔
    ∃ componentSn row, t.associations.lookup (deviceSn, componentSn) = some row ∧
      view = viewOf t componentSn row := by
  rw [componentViews_eq]
  simp only [List.mem_map, List.mem_filter, beq_iff_eq]
  constructor
  · rintro ⟨⟨⟨device, componentSn⟩, row⟩, ⟨hmem, rfl⟩, rfl⟩
    exact ⟨componentSn, row, AList.mem_lookup_iff.mpr hmem, rfl⟩
  · rintro ⟨componentSn, row, hlookup, rfl⟩
    exact ⟨⟨(deviceSn, componentSn), row⟩, ⟨AList.mem_lookup_iff.mp hlookup, rfl⟩, rfl⟩

-- The primary key of the associations.
theorem componentViews_nodup : ((componentViews t deviceSn).map (·.componentSn)).Nodup := by
  rw [componentViews_eq, List.map_map]
  have hkeys : ((t.associations.entries.filter fun entry => entry.1.1 == deviceSn).map
      Sigma.fst).Nodup :=
    t.associations.nodupKeys.sublist List.filter_sublist
  rw [List.Nodup, List.pairwise_map] at hkeys ⊢
  refine hkeys.imp_of_mem ?_
  intro entry other hentry hother hne he
  simp only [List.mem_filter, beq_iff_eq] at hentry hother
  exact hne (Prod.ext (hentry.2.trans hother.2.symm) he)

theorem getDeviceView_eq_none_iff : getDeviceView t deviceSn = none ↔
    (∀ componentSn, t.associations.lookup (deviceSn, componentSn) = none) ∧
      t.devices deviceSn = none := by
  have hrows : joinedRows t deviceSn = [] ↔ ∀ componentSn, t.associations.lookup (deviceSn,
      componentSn) = none := by
    constructor
    · intro hrows componentSn
      rw [Option.eq_none_iff_forall_ne_some]
      intro row hrow
      have hmem : viewOf t componentSn row ∈ componentViews t deviceSn :=
        (mem_componentViews t deviceSn).mpr ⟨componentSn, row, hrow, rfl⟩
      simp [componentViews, hrows] at hmem
    · intro hnone
      have hviews : componentViews t deviceSn = [] := by
        rw [List.eq_nil_iff_forall_not_mem]
        intro view hview
        obtain ⟨componentSn, row, hrow, -⟩ := (mem_componentViews t deviceSn).mp hview
        simp [hnone componentSn] at hrow
      exact List.map_eq_nil_iff.mp hviews
  rw [← hrows, getDeviceView]
  cases joinedRows t deviceSn with
  | nil => cases t.devices deviceSn <;> simp
  | cons row rows => simp

end Joins

section Merged

variable {encode : OffsetDateTime → Json} {calls : List (Call × OffsetDateTime)}
  (hindependent : Independent (calls.map (·.1))) (t : Tables)
include hindependent

theorem components_processAll (componentSn : String) :
    ((processAll encode calls t).components componentSn).map
        (fun row => (row.componentType, row.metadata, row.fileAttachments)) =
      componentAfter (calls.map (·.1)) t componentSn := by
  have hcontent := @content_processAll_find encode calls hindependent t (.component componentSn)
  unfold componentAfter
  cases hfind : (calls.map (·.1)).find? fun call => call.key == .component componentSn with
  | none => simpa [hfind, Tables.content] using hcontent
  | some call =>
      have hkey : call.key = .component componentSn := by simpa using List.find?_some hfind
      cases call with
      | component report => simpa [hfind, Tables.content, Call.content] using hcontent
      | _ => cases hkey

theorem devices_processAll (deviceSn : String) :
    ((processAll encode calls t).devices deviceSn).map
      (fun row => (row.metadata, row.fileAttachments)) =
      deviceAfter (calls.map (·.1)) t deviceSn := by
  have hcontent := @content_processAll_find encode calls hindependent t (.device deviceSn)
  unfold deviceAfter
  cases hfind : (calls.map (·.1)).find? fun call => call.key == .device deviceSn with
  | none => simpa [hfind, Tables.content] using hcontent
  | some call =>
      have hkey : call.key = .device deviceSn := by simpa using List.find?_some hfind
      cases call with
      | device report => simpa [hfind, Tables.content, Call.content] using hcontent
      | _ => cases hkey

theorem associations_processAll (deviceSn componentSn : String) :
    ((processAll encode calls t).associations.lookup (deviceSn, componentSn)).map
      (·.componentType) =
      associationAfter (calls.map (·.1)) t deviceSn componentSn := by
  have hcontent := @content_processAll_find encode calls hindependent t (.associations deviceSn)
  unfold associationAfter
  cases hfind : (calls.map (·.1)).find? fun call => call.key == .associations deviceSn with
  | none =>
      simp only [hfind, Tables.content, Option.elim, Content.associations.injEq] at hcontent
      exact congrFun hcontent componentSn
  | some call =>
      have hkey : call.key = .associations deviceSn := by simpa using List.find?_some hfind
      cases call with
      | associations _ components =>
          simp only [hfind, Tables.content, Option.elim, Call.content,
            Content.associations.injEq] at hcontent
          exact congrFun hcontent componentSn
      | _ => cases hkey

-- The join shows what the calls have left under the keys of the device and its components.
theorem mergedView_processAll (deviceSn : String) :
    MergedView (calls.map (·.1)) t (processAll encode calls t) deviceSn := by
  have hcomponents := @components_processAll encode calls hindependent t
  have hassociations := @associations_processAll encode calls hindependent t deviceSn
  constructor
  · exact componentViews_nodup _ deviceSn
  · intro componentSn
    rw [← hassociations, Option.isSome_map]
    simp only [List.mem_map, mem_componentViews, Option.isSome_iff_exists]
    constructor
    · rintro ⟨-, ⟨componentSn, row, hrow, rfl⟩, rfl⟩
      exact ⟨row, hrow⟩
    · rintro ⟨row, hrow⟩
      exact ⟨_, ⟨componentSn, row, hrow, rfl⟩, rfl⟩
  · intro view hview
    obtain ⟨componentSn, row, hrow, rfl⟩ := (mem_componentViews _ deviceSn).mp hview
    simp only [viewOf, typeAfter, ← hcomponents, ← hassociations, hrow]
    cases (processAll encode calls t).components componentSn <;> simp
  · intro view hview
    obtain ⟨componentSn, row, hrow, rfl⟩ := (mem_componentViews _ deviceSn).mp hview
    simp only [viewOf, ← hcomponents, Option.map_map, Function.comp_def, true_and]
  · rw [getDeviceView_eq_none_iff, ← @devices_processAll encode calls hindependent t,
      Option.map_eq_none_iff]
    simp only [← hassociations, Option.map_eq_none_iff]

end Merged

section Views

variable {t t' : Tables} (h : ∀ key, t.content key = t'.content key)
include h

theorem viewOf_untimed (componentSn : String) {row row' : AssociationRow}
    (hrow : row.componentType = row'.componentType) :
    (viewOf t componentSn row).untimed = (viewOf t' componentSn row').untimed := by
  have hcontent := h (.component componentSn)
  simp only [Tables.content, Content.component.injEq] at hcontent
  cases hfound : t.components componentSn with
  | none =>
      cases hfound' : t'.components componentSn with
      | none => simp [FactoryComponentView.untimed, viewOf, hfound, hfound', hrow]
      | some found' => simp [hfound, hfound'] at hcontent
  | some found =>
      cases hfound' : t'.components componentSn with
      | none => simp [hfound, hfound'] at hcontent
      | some found' =>
          simp only [hfound, hfound', Option.map_some, Option.some.injEq, Prod.mk.injEq] at hcontent
          simp [FactoryComponentView.untimed, viewOf, hfound, hfound', hcontent]

theorem mem_untimed_of_content {deviceSn : String} {view : FactoryComponentView}
    (hview : view ∈ (componentViews t deviceSn).map (·.untimed)) :
    view ∈ (componentViews t' deviceSn).map (·.untimed) := by
  obtain ⟨timed, htimed, rfl⟩ := List.mem_map.mp hview
  obtain ⟨componentSn, row, hrow, rfl⟩ := (mem_componentViews t deviceSn).mp htimed
  have hcontent := h (.associations deviceSn)
  simp only [Tables.content, Content.associations.injEq] at hcontent
  have htype := congrFun hcontent componentSn
  simp only [hrow, Option.map_some] at htype
  obtain ⟨row', hrow', he⟩ := Option.map_eq_some_iff.mp htype.symm
  exact List.mem_map.mpr ⟨viewOf t' componentSn row', (mem_componentViews t' deviceSn).mpr ⟨_, _,
    hrow', rfl⟩, (viewOf_untimed h componentSn he.symm).symm⟩

end Views

theorem untimed_nodup (t : Tables) (deviceSn : String) :
    ((componentViews t deviceSn).map (·.untimed)).Nodup := by
  have hnodup := componentViews_nodup t deviceSn
  rw [List.Nodup, List.pairwise_map] at hnodup ⊢
  refine hnodup.imp ?_
  intro view other hne he
  simp only [FactoryComponentView.untimed, FactoryComponentView.mk.injEq] at he
  exact hne he.1

theorem componentViews_perm {t t' : Tables} (h : ∀ key, t.content key = t'.content key)
    (deviceSn : String) :
    ((componentViews t deviceSn).map (·.untimed)).Perm
      ((componentViews t' deviceSn).map (·.untimed)) := by
  rw [List.perm_ext_iff_of_nodup (untimed_nodup t deviceSn) (untimed_nodup t' deviceSn)]
  intro view
  exact ⟨mem_untimed_of_content h, mem_untimed_of_content fun key => (h key).symm⟩

theorem deviceMetadata_of_content {t t' : Tables} (h : ∀ key, t.content key = t'.content key)
    (deviceSn : String) :
    ((t.devices deviceSn).map mapRowToDeviceMetadataView).map (·.untimed) =
      ((t'.devices deviceSn).map mapRowToDeviceMetadataView).map (·.untimed) := by
  have hcontent := h (.device deviceSn)
  simp only [Tables.content, Content.device.injEq] at hcontent
  cases hfound : t.devices deviceSn with
  | none =>
      cases hfound' : t'.devices deviceSn with
      | none => rfl
      | some found' => simp [hfound, hfound'] at hcontent
  | some found =>
      cases hfound' : t'.devices deviceSn with
      | none => simp [hfound, hfound'] at hcontent
      | some found' =>
          simp only [hfound, hfound', Option.map_some, Option.some.injEq, Prod.mk.injEq] at hcontent
          simp [FactoryDeviceMetadataView.untimed, mapRowToDeviceMetadataView, hcontent]

theorem getDeviceView_of_isSome {t : Tables} {deviceSn : String}
    (h : getDeviceView t deviceSn ≠ none) :
    getDeviceView t deviceSn = some (joinedRows t deviceSn) := by
  unfold getDeviceView at h ⊢
  cases hrows : joinedRows t deviceSn with
  | nil => cases hfound : t.devices deviceSn <;> simp_all
  | cons row rows => simp

theorem absent_of_content {t t' : Tables} (h : ∀ key, t.content key = t'.content key)
    {deviceSn : String}
    (habsent : getDeviceView t deviceSn = none) : getDeviceView t' deviceSn = none := by
  rw [getDeviceView_eq_none_iff] at habsent ⊢
  have hassociations := h (.associations deviceSn)
  have hdevice := h (.device deviceSn)
  simp only [Tables.content, Content.associations.injEq] at hassociations
  simp only [Tables.content, Content.device.injEq, habsent.2, Option.map_none] at hdevice
  refine ⟨?_, Option.map_eq_none_iff.mp hdevice.symm⟩
  intro componentSn
  have hnone := congrFun hassociations componentSn
  rw [habsent.1 componentSn] at hnone
  exact Option.map_eq_none_iff.mp hnone.symm

-- What is shown of a device is decided by the content of the tables.
theorem getFactoryDeviceView_of_content {t t' : Tables} (h : ∀ key, t.content key = t'.content key)
    (deviceSn : String) :
    Option.Rel SameView (getFactoryDeviceView t deviceSn) (getFactoryDeviceView t' deviceSn) := by
  by_cases habsent : getDeviceView t deviceSn = none
  · rw [getFactoryDeviceView, getFactoryDeviceView, habsent, absent_of_content h habsent]
    exact .none
  · have habsent' : getDeviceView t' deviceSn ≠ none := fun h' =>
      habsent (absent_of_content (fun key => (h key).symm) h')
    rw [getFactoryDeviceView, getFactoryDeviceView, getDeviceView_of_isSome habsent,
      getDeviceView_of_isSome habsent']
    exact .some ⟨rfl, deviceMetadata_of_content h deviceSn, componentViews_perm h deviceSn⟩

-- The association of a component and its metadata, which says otherwise about the type.
def cameraCalls : List (Call × OffsetDateTime) :=
  [(.associations "gateway" [⟨"cam-1", some "camera"⟩], 1),
    (.component ⟨"cam-1", "radar", .null, .null⟩, 2)]

example : typeAfter (cameraCalls.map (·.1)) Tables.empty "gateway" "cam-1" = some "radar" := rfl

end RmqttThings.Factory
