import RmqttThings.Templates.Table

namespace RmqttThings.Templates

open Effects.Transactions

-- At most one Active template for a product and an event.
def OneActive (table : TemplateTable) : Prop :=
  ∀ id other key, table.ActiveAt id key → table.ActiveAt other key → id = other

-- The changes of a transaction that has inserted nothing: row by row, and only rows that it holds.
structure RowWise (held : Nat → Prop) (change : TemplateTable → TemplateTable)
    (rowChange : Nat → Option EventValidTemplate → Option EventValidTemplate) : Prop where
  rows : ∀ table id, (change table).rows id = rowChange id (table.rows id)
  nextId : ∀ table, (change table).nextId = table.nextId
  absent : ∀ id, rowChange id none = none
  unheld : ∀ id, ¬ held id → rowChange id = fun row => row

-- The other rows, while a template is activated: as they are, or no more Active.
def Others (held : Nat → Prop) (committed view : TemplateTable) (id : Nat) (key : String × String)
    (status : EventValidTemplateStatus) : Prop :=
  ∀ other, other ≠ id → view.rows other = committed.rows other ∨
    (status = .active ∧ held other ∧ committed.ActiveAt other key ∧
      view.rows other = (committed.rows other).map (·.withStatus .inactive))

-- How far a transaction is: what is committed, and its own version of it.
inductive Progress (held : Nat → Prop) (committed view : TemplateTable) :
    Request → Phase → Prop where
  | begun (request : Request) (id : Nat) : request.target = some id →
      (∀ other, view.rows other = committed.rows other) →
      Progress held committed view request .begun
  | locked (request : Request) (id : Nat) (template : EventValidTemplate) :
      request.target = some id → held id →
      committed.rows id = some template → (∀ other, view.rows other = committed.rows other) →
      Progress held committed view request (.locked template)
  | deactivating (id : Nat) (template : EventValidTemplate) (ids : List Nat) : held id →
      committed.rows id = some template → view.rows id = some template → id ∉ ids →
      Others held committed view id template.key .active →
      Progress held committed view (.updateStatus id .active) (.deactivating template ids)
  | statusSet (id : Nat) (status : EventValidTemplateStatus) (template : EventValidTemplate) :
      held id →
      committed.rows id = some template → view.rows id = some (template.withStatus status) →
      Others held committed view id template.key status →
      Progress held committed view (.updateStatus id status) .written
  | contentSet (id : Nat) (schema : Option Json) (description : Option String)
      (template : EventValidTemplate) :
      held id → committed.rows id = some template → (schema.isSome → template.status ≠ .active) →
      view.rows id = some (template.withContent schema description) →
      (∀ other, other ≠ id → view.rows other = committed.rows other) →
      Progress held committed view (.update id schema description) .written
  | deleted (id : Nat) : held id → view.rows id = none →
      (∀ other, other ≠ id → view.rows other = committed.rows other) →
      Progress held committed view (.delete id) .written
  | notFound (id : Nat) : (∀ other, view.rows other = committed.rows other) →
      Progress held committed view (.delete id) .written

section Transfer

variable {held held' : Nat → Prop} {committed view committed' view' : TemplateTable}
  {request : Request} {phase : Phase}

-- More locks do no harm.
theorem Progress.mono (h : Progress held committed view request phase)
    (hheld : ∀ id, held id → held' id) :
    Progress held' committed view request phase := by
  have hothers : ∀ {id key status}, Others held committed view id key status →
      Others held' committed view id key status := by
    intro id key status h other hne
    rcases h other hne with hsame | ⟨hstatus, hother, hactive⟩
    · exact .inl hsame
    · exact .inr ⟨hstatus, hheld other hother, hactive⟩
  cases h with
  | begun _ id htarget hsame => exact .begun request id htarget hsame
  | locked _ id template htarget hid hrow hsame =>
      exact .locked request id template htarget (hheld id hid) hrow hsame
  | deactivating id template ids hid hrow hview hmem h =>
      exact .deactivating id template ids (hheld id hid) hrow hview hmem (hothers h)
  | statusSet id status template hid hrow hview h =>
      exact .statusSet id status template (hheld id hid) hrow hview (hothers h)
  | contentSet id schema description template hid hrow hschema hview hsame =>
      exact .contentSet id schema description template (hheld id hid) hrow hschema hview hsame
  | deleted id hid hview hsame => exact .deleted id (hheld id hid) hview hsame
  | notFound id hsame => exact .notFound id hsame

-- The commit of another transaction: rows that are held stay, the others are seen as they are.
theorem Progress.transfer (h : Progress held committed view request phase)
    (hheld : ∀ id, held id → committed'.rows id = committed.rows id ∧ view'.rows id = view.rows id)
    (hfree : ∀ id, ¬ held id → view'.rows id = committed'.rows id) :
    Progress held committed' view' request phase := by
  have hsame : ∀ {id}, view.rows id = committed.rows id → view'.rows id = committed'.rows id := by
    intro id h
    by_cases hid : held id
    · rw [(hheld id hid).1, (hheld id hid).2, h]
    · exact hfree id hid
  have hothers : ∀ {id key status}, Others held committed view id key status →
      Others held committed' view' id key status := by
    intro id key status h other hne
    by_cases hother : held other
    · obtain ⟨hcommitted, hview⟩ := hheld other hother
      rcases h other hne with heq | ⟨hstatus, -, hactive, heq⟩
      · exact .inl (hsame heq)
      · refine .inr ⟨hstatus, hother, (TemplateTable.activeAt_congr hcommitted key).mpr hactive, ?_⟩
        rw [hview, heq, hcommitted]
    · exact .inl (hfree other hother)
  cases h with
  | begun _ id htarget h => exact .begun request id htarget fun other => hsame (h other)
  | locked _ id template htarget hid hrow h =>
      exact .locked request id template htarget hid ((hheld id hid).1.trans hrow) fun other =>
        hsame (h other)
  | deactivating id template ids hid hrow hview hmem h =>
      exact .deactivating id template ids hid ((hheld id hid).1.trans hrow)
        ((hheld id hid).2.trans hview) hmem (hothers h)
  | statusSet id status template hid hrow hview h =>
      exact .statusSet id status template hid ((hheld id hid).1.trans hrow)
        ((hheld id hid).2.trans hview) (hothers h)
  | contentSet id schema description template hid hrow hschema hview h =>
      exact .contentSet id schema description template hid ((hheld id hid).1.trans hrow) hschema
        ((hheld id hid).2.trans hview) fun other hne => hsame (h other hne)
  | deleted id hid hview h =>
      exact .deleted id hid ((hheld id hid).2.trans hview) fun other hne => hsame (h other hne)
  | notFound id h => exact .notFound id fun other => hsame (h other)

end Transfer

section RowWise

variable {held held' : Nat → Prop} {change : TemplateTable → TemplateTable}
  {rowChange : Nat → Option EventValidTemplate → Option EventValidTemplate}

theorem rowWise_id : RowWise held id fun _ row => row :=
  ⟨fun _ _ => rfl, fun _ => rfl, fun _ => rfl, fun _ _ => rfl⟩

theorem RowWise.mono (h : RowWise held change rowChange) (hheld : ∀ id, held id → held' id) :
    RowWise held' change rowChange :=
  ⟨h.rows, h.nextId, h.absent, fun id hid => h.unheld id (mt (hheld id) hid)⟩

theorem RowWise.modify (h : RowWise held change rowChange) {id : Nat} (hid : held id)
    (rowUpdate : EventValidTemplate → EventValidTemplate) :
    RowWise held ((·.modify id rowUpdate) ∘ change)
      fun other row => if other = id then (rowChange other row).map rowUpdate else rowChange other
        row := by
  refine ⟨?_, h.nextId, ?_, ?_⟩
  · intro table other
    rw [Function.comp, TemplateTable.modify_rows, h.rows]
  · intro other
    simp [h.absent]
  · intro other hother
    have hne : other ≠ id := fun he => hother (he ▸ hid)
    simp [hne, h.unheld other hother]

theorem RowWise.erase (h : RowWise held change rowChange) {id : Nat} (hid : held id) :
    RowWise held ((·.erase id) ∘ change) fun other row => if other = id then none else rowChange
      other row := by
  refine ⟨?_, h.nextId, ?_, ?_⟩
  · intro table other
    rw [Function.comp, TemplateTable.erase_rows, h.rows]
  · intro other
    simp [h.absent]
  · intro other hother
    have hne : other ≠ id := fun he => hother (he ▸ hid)
    simp [hne, h.unheld other hother]

-- A row that the transaction sees is a committed one.
theorem RowWise.committed_isSome (h : RowWise held change rowChange) {table : TemplateTable}
    {id : Nat} {row : EventValidTemplate} (hrow : (change table).rows id = some row) :
    (table.rows id).isSome := by
  rw [h.rows] at hrow
  cases hcommitted : table.rows id with
  | none => simp [hcommitted, h.absent] at hrow
  | some committed => rfl

theorem RowWise.rows_of_unheld (h : RowWise held change rowChange) {id : Nat} (hid : ¬ held id)
    (table : TemplateTable) :
    (change table).rows id = table.rows id := by
  rw [h.rows, h.unheld id hid]

-- What a transaction makes of a row is a matter of the row.
theorem RowWise.rows_congr (h : RowWise held change rowChange) {table table' : TemplateTable}
    {id : Nat}
    (hrow : table'.rows id = table.rows id) : (change table').rows id = (change table).rows id := by
  rw [h.rows, h.rows, hrow]

end RowWise

-- A state of the database, and a transaction on templates.
abbrev Store := Db TemplateTable LockKey Request Phase
abbrev Change := Tx TemplateTable Request Phase

def Holds (db : Store) (tx : Nat) (id : Nat) : Prop := db.holder (.row id) = some tx

-- What a transaction sees as Active was so before, or has the only entry of its key in the
-- index, and no other transaction can enter this key.
def Activates (db : Store) (tx : Nat) (t : Change) : Prop :=
  ∀ id key, (db.view t).ActiveAt id key → db.committed.ActiveAt id key ∨
    (db.holder (.active key) = some tx ∧ ∀ other, other ≠ id → ¬ (db.view t).ActiveAt other key)

-- An active transaction.
inductive Sound (db : Store) (tx : Nat) (t : Change) : Prop where
  | insertBegun (productId event : String) (description : Option String) (schema : Json) :
      t.request = .insert productId event description schema → t.phase = .begun → t.change = id →
        Sound db tx t
  | inserted (productId event : String) (description : Option String) (schema : Json) :
      t.request = .insert productId event description schema → t.phase = .written →
      t.change = (·.insert ⟨productId, event, description, schema, .draft⟩) → Sound db tx t
  | working (rowChange : Nat → Option EventValidTemplate → Option EventValidTemplate) :
      RowWise (Holds db tx) t.change rowChange → Activates db tx t →
      Progress (Holds db tx) db.committed (db.view t) t.request t.phase → Sound db tx t

section Others

variable {db db' : Store} {tx : Nat} {t : Change}

theorem insert_activeAt {table : TemplateTable} {template : EventValidTemplate}
    (hstatus : template.status ≠ .active)
    {id : Nat} {key : String × String} (h : (table.insert template).ActiveAt id key) :
    table.ActiveAt id key := by
  obtain ⟨row, hrow, hactive, hkey⟩ := h
  rw [TemplateTable.insert_rows] at hrow
  split_ifs at hrow with he
  · rw [Option.some.injEq] at hrow
    exact absurd (hrow ▸ hactive) hstatus
  · exact ⟨row, hrow, hactive, hkey⟩

theorem Sound.activates (h : Sound db tx t) : Activates db tx t := by
  cases h with
  | insertBegun productId event description schema hrequest hphase hchange =>
      intro id key hactive
      rw [Db.view, hchange] at hactive
      exact .inl hactive
  | inserted productId event description schema hrequest hphase hchange =>
      intro id key hactive
      rw [Db.view, hchange] at hactive
      exact .inl (insert_activeAt (by simp) hactive)
  | working rowChange hrowWise hactivates hprogress => exact hactivates

-- There is one Active row also in what a transaction sees.
theorem Activates.oneActive (h : Activates db tx t) (hone : OneActive db.committed) :
    OneActive (db.view t) := by
  intro id other key hid hother
  by_contra hne
  rcases h id key hid with hid' | ⟨-, halone⟩
  · rcases h other key hother with hother' | ⟨-, halone⟩
    · exact hne (hone id other key hid' hother')
    · exact halone id hne hid
  · exact halone other (Ne.symm hne) hother

-- A transaction leaves alone what another one holds.
theorem Sound.rows_of_held (h : Sound db tx t) {other id : Nat} (hheld : Holds db other id)
    (hne : other ≠ tx)
    (hsome : (db.committed.rows id).isSome) : (db.view t).rows id = db.committed.rows id := by
  cases h with
  | insertBegun productId event description schema hrequest hphase hchange =>
      rw [Db.view, hchange]; rfl
  | inserted productId event description schema hrequest hphase hchange =>
      rw [Db.view, hchange, TemplateTable.insert_rows]
      split_ifs with he
      · rw [db.committed.fresh id (by omega)] at hsome
        simp at hsome
      · rfl
  | working rowChange hrowWise =>
      refine hrowWise.rows_of_unheld ?_ db.committed
      intro hown
      rw [Holds, hheld, Option.some.injEq] at hown
      exact hne hown

-- The data are as before, and so are the locks of this transaction.
theorem Sound.congr (h : Sound db tx t) (hcommitted : db'.committed = db.committed)
    (hholder : ∀ key, db'.holder key = some tx ↔ db.holder key = some tx) : Sound db' tx t := by
  have hview : db'.view t = db.view t := by rw [Db.view, hcommitted, Db.view]
  have hholds : Holds db' tx = Holds db tx := funext fun id => propext (hholder (.row id))
  cases h with
  | insertBegun productId event description schema hrequest hphase hchange =>
      exact .insertBegun productId event description schema hrequest hphase hchange
  | inserted productId event description schema hrequest hphase hchange =>
      exact .inserted productId event description schema hrequest hphase hchange
  | working rowChange hrowWise hactivates hprogress =>
      refine .working rowChange (hholds ▸ hrowWise) ?_ ?_
      · intro id key hactive
        rw [hview] at hactive ⊢
        rw [hcommitted, hholder]
        exact hactivates id key hactive
      · rw [hview, hcommitted, hholds]
        exact hprogress

end Others

-- The statements of the code, and when it does them.
inductive Statement (view : TemplateTable) :
    Request → Phase → List LockKey → (TemplateTable → TemplateTable) → Phase → Prop where
  | insert (productId event : String) (description : Option String) (schema : Json) :
      Statement view (.insert productId event description schema) .begun []
        (·.insert ⟨productId, event, description, schema, .draft⟩) .written
  | lock (request : Request) (id : Nat) (template : EventValidTemplate) : request.target = some id →
      view.rows id = some template →
      Statement view request .begun [.row id] (fun table => table) (.locked template)
  | find (id : Nat) (template : EventValidTemplate) :
      Statement view (.updateStatus id .active) (.locked template) [] (fun table => table)
        (.deactivating template (view.otherActive id template.key))
  | deactivate (id : Nat) (status : EventValidTemplateStatus) (template : EventValidTemplate)
      (other : Nat) (others : List Nat) : view.ActiveAt other template.key →
      Statement view (.updateStatus id status) (.deactivating template (other :: others))
        [.row other, .active template.key] (·.modify other (·.withStatus .inactive))
          (.deactivating template others)
  | skip (id : Nat) (status : EventValidTemplateStatus) (template : EventValidTemplate)
      (other : Nat) (others : List Nat) :
      Statement view (.updateStatus id status) (.deactivating template (other :: others)) []
        (fun table => table) (.deactivating template others)
  | setStatus (id : Nat) (status : EventValidTemplateStatus) (phase : Phase)
      (row : EventValidTemplate) :
      phase ≠ .begun → phase ≠ .written → view.rows id = some row →
      ¬ (status = .active ∧ row.status ≠ .active ∧ view.otherActive id row.key ≠ []) →
      Statement view (.updateStatus id status) phase (.row id :: entryLock row status)
        (·.modify id (·.withStatus status)) .written
  | statusOfNone (id : Nat) (status : EventValidTemplateStatus) (phase : Phase) : phase ≠ .begun →
      phase ≠ .written → view.rows id = none →
      Statement view (.updateStatus id status) phase [] (fun table => table) .written
  | setContent (id : Nat) (schema : Option Json) (description : Option String)
      (template : EventValidTemplate) :
      (schema.isSome → template.status ≠ .active) →
      Statement view (.update id schema description) (.locked template) [.row id]
        (·.modify id (·.withContent schema description)) .written
  | delete (id : Nat) (row : EventValidTemplate) : view.rows id = some row →
      Statement view (.delete id) .begun (.row id :: entryLock row .draft) (·.erase id) .written
  | deleteOfNone (id : Nat) : Statement view (.delete id) .begun [] (fun table => table) .written

section Inversion

variable {view : TemplateTable} {request : Request} {phase phase' : Phase} {locks : List LockKey}
  {change : TemplateTable → TemplateTable} {id : Nat}

theorem selectForUpdate_statement (h : selectForUpdate id view = .statement locks change phase')
    (htarget : request.target = some id) : Statement view request .begun locks change phase' := by
  unfold selectForUpdate at h
  split at h
  · cases h
  · next template hrow =>
    cases h
    exact .lock request id template htarget hrow

theorem setStatus_statement {status : EventValidTemplateStatus} (hbegun : phase ≠ .begun)
    (hwritten : phase ≠ .written) (h : setStatus id status view = .statement locks change phase') :
    Statement view (.updateStatus id status) phase locks change phase' := by
  unfold setStatus at h
  split at h
  · next hrow =>
    cases h
    exact .statusOfNone id status phase hbegun hwritten hrow
  · next row hrow =>
    split_ifs at h with hunique
    cases h
    exact .setStatus id status phase row hbegun hwritten hrow hunique

theorem nextUpdateStatus_statement {status : EventValidTemplateStatus}
    (h : nextUpdateStatus id status phase view = .statement locks change phase') :
    Statement view (.updateStatus id status) phase locks change phase' := by
  unfold nextUpdateStatus at h
  split at h
  · exact selectForUpdate_statement h rfl
  · next template =>
    split_ifs at h with hstatus
    · cases h
      exact hstatus ▸ .find id template
    · exact setStatus_statement (by simp) (by simp) h
  · next template other others =>
    split_ifs at h with hactive
    · cases h
      exact .deactivate id status template other others hactive
    · cases h
      exact .skip id status template other others
  · exact setStatus_statement (by simp) (by simp) h
  · cases h

theorem nextUpdate_statement {schema : Option Json} {description : Option String}
    (h : nextUpdate id schema description phase view = .statement locks change phase') :
    Statement view (.update id schema description) phase locks change phase' := by
  unfold nextUpdate at h
  split at h
  · exact selectForUpdate_statement h rfl
  · next template =>
    split_ifs at h with hnothing hactive
    cases h
    exact .setContent id schema description template fun hschema hstatus =>
      hactive ⟨hschema, hstatus⟩
  · cases h
  · cases h

theorem nextDelete_statement (h : nextDelete id phase view = .statement locks change phase') :
    Statement view (.delete id) phase locks change phase' := by
  unfold nextDelete at h
  split at h
  · split at h
    · cases h
      exact .deleteOfNone id
    · next row hrow =>
      cases h
      exact .delete id row hrow
  · cases h
  · cases h

theorem statement_of_next (h : code.next request phase view = .statement locks change phase') :
    Statement view request phase locks change phase' := by
  cases request with
  | insert productId event description schema =>
      cases phase with
      | begun =>
          cases h
          exact .insert productId event description schema
      | locked template => cases h
      | deactivating template ids => cases h
      | written => cases h
  | updateStatus id status => exact nextUpdateStatus_statement h
  | update id schema description => exact nextUpdate_statement h
  | delete id => exact nextDelete_statement h

end Inversion

section Own

variable {db db' : Store} {tx : Nat} {t t' : Change} {table : TemplateTable} {id other : Nat}
  {key : String × String}

theorem modify_activeAt_of_ne {rowUpdate : EventValidTemplate → EventValidTemplate}
    (hne : other ≠ id) :
    (table.modify id rowUpdate).ActiveAt other key ↔ table.ActiveAt other key :=
  TemplateTable.activeAt_congr (by rw [TemplateTable.modify_rows, if_neg hne]) key

theorem modify_activeAt_self {rowUpdate : EventValidTemplate → EventValidTemplate} :
    (table.modify id rowUpdate).ActiveAt id key ↔
      ∃ row, table.rows id = some row ∧ (rowUpdate row).status = .active ∧
        (rowUpdate row).key = key := by
  rw [TemplateTable.ActiveAt, TemplateTable.modify_rows, if_pos rfl]
  simp only [Option.map_eq_some_iff]
  constructor
  · rintro ⟨_, ⟨row, hrow, rfl⟩, hstatus, hkey⟩
    exact ⟨row, hrow, hstatus, hkey⟩
  · rintro ⟨row, hrow, hstatus, hkey⟩
    exact ⟨rowUpdate row, ⟨row, hrow, rfl⟩, hstatus, hkey⟩

-- A change that makes no row Active.
theorem activeAt_of_modify {rowUpdate : EventValidTemplate → EventValidTemplate}
    (h : (table.modify id rowUpdate).ActiveAt other key)
    (hstatus : ∀ row, table.rows id = some row → (rowUpdate row).status = .active →
      row.status = .active)
    (hkey : ∀ row, (rowUpdate row).key = row.key) : table.ActiveAt other key := by
  by_cases he : other = id
  · subst he
    obtain ⟨row, hrow, hactive, hrowKey⟩ := modify_activeAt_self.mp h
    exact ⟨row, hrow, hstatus row hrow hactive, (hkey row).symm.trans hrowKey⟩
  · exact (modify_activeAt_of_ne he).mp h

theorem activeAt_of_erase (h : (table.erase id).ActiveAt other key) : table.ActiveAt other key := by
  obtain ⟨row, hrow, hactive, hkey⟩ := h
  rw [TemplateTable.erase_rows] at hrow
  split_ifs at hrow with he
  exact ⟨row, hrow, hactive, hkey⟩

-- A statement that makes no row Active.
theorem Activates.shrink (h : Activates db tx t) (hcommitted : db'.committed = db.committed)
    (hholder : ∀ key, db.holder key = some tx → db'.holder key = some tx)
    (hview : ∀ id key, (db'.view t').ActiveAt id key → (db.view t).ActiveAt id key) :
    Activates db' tx t' := by
  intro id key hactive
  rcases h id key (hview id key hactive) with hbefore | ⟨hheld, halone⟩
  · exact .inl (hcommitted ▸ hbefore)
  · exact .inr ⟨hholder _ hheld, fun other hne hother => halone other hne (hview other key hother)⟩

-- The unique index lets in a row where it sees no other, and its key is locked.
theorem Activates.activate (h : Activates db tx t) (hcommitted : db'.committed = db.committed)
    (hholder : ∀ key, db.holder key = some tx → db'.holder key = some tx) {row : EventValidTemplate}
    (hrow : (db.view t).rows id = some row) (hentry : db'.holder (.active row.key) = some tx)
    (hunique : (db.view t).otherActive id row.key = [])
    (hview : db'.view t' = (db.view t).modify id (·.withStatus .active)) : Activates db' tx t' := by
  have hnoOther : ∀ other, other ≠ id → ¬ (db.view t).ActiveAt other row.key := by
    intro other hne hactive
    have hmem := TemplateTable.mem_otherActive.mpr ⟨hne, hactive⟩
    simp [hunique] at hmem
  have hown : ∀ key, ((db.view t).modify id (·.withStatus .active)).ActiveAt id key →
      key = row.key := by
    intro key hactive
    obtain ⟨found, hfound, -, hkey⟩ := modify_activeAt_self.mp hactive
    rw [hrow, Option.some.injEq] at hfound
    subst hfound
    exact hkey.symm
  intro other key hactive
  rw [hview] at hactive ⊢
  by_cases he : other = id
  · subst he
    obtain rfl := hown key hactive
    refine .inr ⟨hentry, fun third hne hthird => ?_⟩
    exact hnoOther third hne ((modify_activeAt_of_ne hne).mp hthird)
  · have hbefore := (modify_activeAt_of_ne he).mp hactive
    rcases h other key hbefore with hcom | ⟨hheld, halone⟩
    · exact .inl (hcommitted ▸ hcom)
    · refine .inr ⟨hholder _ hheld, fun third hne hthird => ?_⟩
      by_cases hthirdId : third = id
      · subst hthirdId
        obtain rfl := hown key hthird
        exact hnoOther other he hbefore
      · exact halone third hne ((modify_activeAt_of_ne hthirdId).mp hthird)

end Own

section Statements

variable {held held' : Nat → Prop} {committed view : TemplateTable} {request : Request}
  {phase phase' : Phase} {locks : List LockKey} {change own : TemplateTable → TemplateTable}
  {rowChange : Nat → Option EventValidTemplate → Option EventValidTemplate}

-- A statement changes only rows that it has locked.
theorem Statement.rowWise (h : Statement view request phase locks change phase')
    (htarget : request.target.isSome)
    (hlocks : ∀ id, .row id ∈ locks → held id) (hown : RowWise held own rowChange) :
    ∃ rowChange', RowWise held (change ∘ own) rowChange' := by
  cases h with
  | insert => simp [Request.target] at htarget
  | lock | find | skip | statusOfNone | deleteOfNone => exact ⟨rowChange, hown⟩
  | deactivate id status template other => exact ⟨_, hown.modify (hlocks other (by simp)) _⟩
  | setStatus id => exact ⟨_, hown.modify (hlocks id (by simp)) _⟩
  | setContent id => exact ⟨_, hown.modify (hlocks id (by simp)) _⟩
  | delete id => exact ⟨_, hown.erase (hlocks id (by simp))⟩

theorem Progress.target_isSome (h : Progress held committed view request phase) :
    request.target.isSome := by
  cases h with
  | begun _ id htarget => simp [htarget]
  | locked _ id _ htarget => simp [htarget]
  | deactivating | statusSet | contentSet | deleted | notFound => rfl

theorem Others.deactivate {id other : Nat} {key : String × String}
    {status : EventValidTemplateStatus} (h : Others held committed view id key status)
    (hstatus : status = .active)
    (hother : held other) (hne : other ≠ id) (hactive : view.ActiveAt other key) :
    Others held committed (view.modify other (·.withStatus .inactive)) id key status := by
  intro third hthird
  rw [TemplateTable.modify_rows]
  split_ifs with he
  · subst he
    rcases h third hne with hsame | ⟨-, -, -, hsame⟩
    · rw [hsame]
      exact .inr ⟨hstatus, hother, (TemplateTable.activeAt_congr hsame key).mp hactive, rfl⟩
    · obtain ⟨row, hrow, hrowActive, -⟩ := hactive
      obtain ⟨before, -, rfl⟩ := Option.map_eq_some_iff.mp (hsame.symm.trans hrow)
      simp [EventValidTemplate.withStatus] at hrowActive
  · exact h third hthird

-- The row of the request, and what the other rows have become by now.
theorem Progress.before_set (h : Progress held committed view request phase) {id : Nat}
    {status : EventValidTemplateStatus} (hrequest : request = .updateStatus id status)
    (hbegun : phase ≠ .begun)
    (hwritten : phase ≠ .written) : ∃ template, held id ∧ committed.rows id = some template ∧
      view.rows id = some template ∧ Others held committed view id template.key status := by
  cases h with
  | begun => exact absurd rfl hbegun
  | locked _ target template htarget hid hrow hsame =>
      rw [hrequest, Request.target, Option.some.injEq] at htarget
      subst htarget
      exact ⟨template, hid, hrow, (hsame id).trans hrow, fun other _ => .inl (hsame other)⟩
  | deactivating target template ids hid hrow hview hmem hothers =>
      cases hrequest
      exact ⟨template, hid, hrow, hview, hothers⟩
  | statusSet | contentSet | deleted | notFound => exact absurd rfl hwritten

theorem Progress.statement (h : Progress held committed view request phase)
    (hstatement : Statement view request phase locks change phase')
    (hlocks : ∀ id, .row id ∈ locks → held id) :
    Progress held committed (change view) request phase' := by
  cases hstatement with
  | insert => simpa [Request.target] using h.target_isSome
  | lock _ id template htarget hrow =>
      cases h with
      | begun _ _ _ hsame =>
          exact .locked request id template htarget (hlocks id (by simp))
            ((hsame id).symm.trans hrow) hsame
  | find id template =>
      obtain ⟨found, hid, hrow, hview, hothers⟩ := h.before_set rfl (by simp) (by simp)
      cases h with
      | locked _ target template htarget _ htemplate =>
          simp only [Request.target, Option.some.injEq] at htarget
          subst htarget
          rw [hrow, Option.some.injEq] at htemplate
          subst htemplate
          refine .deactivating id found _ hid hrow hview ?_ hothers
          simp [TemplateTable.mem_otherActive]
  | deactivate id status template other others hactive =>
      cases h with
      | deactivating _ _ _ hid hrow hview hmem hothers =>
          have hne : other ≠ id := fun he => hmem (by simp [he])
          refine .deactivating id template others hid hrow ?_
            (fun h => hmem (List.mem_cons_of_mem _ h)) ?_
          · rw [TemplateTable.modify_rows, if_neg (Ne.symm hne), hview]
          · exact hothers.deactivate rfl (hlocks other (by simp)) hne hactive
  | skip id status template other others =>
      cases h with
      | deactivating _ _ _ hid hrow hview hmem hothers =>
          exact .deactivating id template others hid hrow hview
            (fun h => hmem (List.mem_cons_of_mem _ h)) hothers
  | setStatus id status _ row hbegun hwritten =>
      obtain ⟨template, hid, hrow, hview, hothers⟩ := h.before_set rfl hbegun hwritten
      refine .statusSet id status template hid hrow ?_ ?_
      · rw [TemplateTable.modify_rows, if_pos rfl, hview, Option.map_some]
      · intro other hne
        rw [TemplateTable.modify_rows, if_neg hne]
        exact hothers other hne
  | statusOfNone id status _ hbegun hwritten hnone =>
      obtain ⟨template, -, -, hview, -⟩ := h.before_set rfl hbegun hwritten
      simp [hnone] at hview
  | setContent id schema description template hactive =>
      cases h with
      | locked _ target _ htarget hid hrow hsame =>
          simp only [Request.target, Option.some.injEq] at htarget
          subst htarget
          refine .contentSet id schema description template hid hrow hactive ?_ ?_
          · rw [TemplateTable.modify_rows, if_pos rfl, hsame, hrow, Option.map_some]
          · intro other hne
            rw [TemplateTable.modify_rows, if_neg hne, hsame]
  | delete id row hrow =>
      cases h with
      | begun _ _ _ hsame =>
          refine .deleted id (hlocks id (by simp)) ?_ ?_
          · rw [TemplateTable.erase_rows, if_pos rfl]
          · intro other hne
            rw [TemplateTable.erase_rows, if_neg hne, hsame]
  | deleteOfNone id =>
      cases h with
      | begun _ _ _ hsame => exact .notFound id hsame

end Statements

section Moves

variable {db db' : Store} {tx : Nat} {t : Change} {locks : List LockKey}
  {change : TemplateTable → TemplateTable} {phase : Phase}

theorem holder_statement {key : LockKey} (h : db.holder key = some tx ∨ key ∈ locks) :
    (db.statement tx t locks change phase).holder key = some tx := by
  rw [Db.statement_holder]
  split_ifs with hmem
  · rfl
  · exact h.resolve_right hmem

theorem Activates.statement (h : Activates db tx t)
    (hstatement : Statement (db.view t) t.request t.phase locks change phase)
    (htarget : t.request.target.isSome) :
    Activates (db.statement tx t locks change phase) tx { t with phase := phase, change :=
      change ∘ t.change } := by
  have hholder : ∀ key, db.holder key = some tx →
      (db.statement tx t locks change phase).holder key = some tx :=
    fun key hheld => holder_statement (.inl hheld)
  have hview : (db.statement tx t locks change phase).view { t with phase := phase, change :=
    change ∘ t.change } =
      change (db.view t) := rfl
  obtain ⟨request, before, own, status⟩ := t
  cases hstatement with
  | insert => simp [Request.target] at htarget
  | lock | find | skip | statusOfNone | deleteOfNone =>
      exact h.shrink rfl hholder fun _ _ hactive => hactive
  | deactivate =>
      refine h.shrink rfl hholder fun other key hactive => ?_
      exact activeAt_of_modify hactive (by simp [EventValidTemplate.withStatus]) fun _ => rfl
  | setStatus id status _ row _ _ hrow hunique =>
      by_cases hactivates : status = .active ∧ row.status ≠ .active
      · obtain ⟨rfl, hinactive⟩ := hactivates
        simp only [hinactive, ne_eq, not_false_eq_true, true_and, not_not] at hunique
        refine h.activate rfl hholder hrow (holder_statement (.inr ?_)) hunique hview
        simp [entryLock, hinactive]
      · refine h.shrink rfl hholder fun other key hactive => ?_
        refine activeAt_of_modify hactive ?_ fun _ => rfl
        intro found hfound hstatus
        rw [hrow, Option.some.injEq] at hfound
        subst hfound
        by_contra hinactive
        exact hactivates ⟨hstatus, hinactive⟩
  | setContent =>
      refine h.shrink rfl hholder fun other key hactive => ?_
      exact activeAt_of_modify hactive (fun _ _ hstatus => hstatus) fun _ => rfl
  | delete => exact h.shrink rfl hholder fun other key hactive => activeAt_of_erase hactive

-- The transaction that does a statement.
theorem Sound.statement (h : Sound db tx t)
    (hstatement : Statement (db.view t) t.request t.phase locks change phase) :
    Sound (db.statement tx t locks change phase) tx { t with phase := phase, change :=
      change ∘ t.change } := by
  cases h with
  | insertBegun productId event description schema hrequest hphase hchange =>
      rw [hrequest, hphase] at hstatement
      cases hstatement with
      | insert =>
          refine .inserted productId event description schema hrequest rfl ?_
          rw [hchange]
          rfl
      | lock _ id _ htarget => simp [Request.target] at htarget
  | inserted productId event description schema hrequest hphase hchange =>
      rw [hrequest, hphase] at hstatement
      cases hstatement
  | working rowChange hrowWise hactivates hprogress =>
      have hheld : ∀ id, Holds db tx id → Holds (db.statement tx t locks change phase) tx id :=
        fun id hid => holder_statement (.inl hid)
      have hlocks : ∀ id, .row id ∈ locks → Holds (db.statement tx t locks change phase) tx id :=
        fun id hid => holder_statement (.inr hid)
      have htarget := hprogress.target_isSome
      obtain ⟨rowChange', hrowWise'⟩ := hstatement.rowWise htarget hlocks (hrowWise.mono hheld)
      exact .working rowChange' hrowWise' (hactivates.statement hstatement htarget)
        ((hprogress.mono hheld).statement hstatement hlocks)

theorem mem_entryLock {row : EventValidTemplate} {status : EventValidTemplateStatus} {id : Nat} :
    .row id ∉ entryLock row status := by
  unfold entryLock
  split_ifs <;> simp

-- Only rows that are there are locked.
theorem Statement.view_isSome {view : TemplateTable} {request : Request} {before : Phase}
    {held : Nat → Prop} {committed : TemplateTable}
    (h : Statement view request before locks change phase)
    (hprogress : Progress held committed view request before) {id : Nat} (hid : .row id ∈ locks) :
    (view.rows id).isSome := by
  cases h with
  | insert | find | skip | statusOfNone | deleteOfNone => simp at hid
  | lock _ target template _ hrow =>
      simp only [List.mem_singleton, LockKey.row.injEq] at hid
      simp [hid, hrow]
  | deactivate target status template other others hactive =>
      simp only [List.mem_cons, LockKey.row.injEq, reduceCtorEq, List.not_mem_nil, or_false] at hid
      obtain ⟨row, hrow, -⟩ := hactive
      simp [hid, hrow]
  | setStatus target status _ row _ _ hrow =>
      simp only [List.mem_cons, LockKey.row.injEq, mem_entryLock, or_false] at hid
      simp [hid, hrow]
  | setContent target schema description template =>
      simp only [List.mem_singleton, LockKey.row.injEq] at hid
      cases hprogress with
      | locked _ found _ htarget _ hrow hsame =>
          simp only [Request.target, Option.some.injEq] at htarget
          subst htarget
          simp [hid, hsame, hrow]
  | delete target row hrow =>
      simp only [List.mem_cons, LockKey.row.injEq, mem_entryLock, or_false] at hid
      simp [hid, hrow]

theorem Sound.locked_isSome (h : Sound db tx t)
    (hstatement : Statement (db.view t) t.request t.phase locks change phase) {id : Nat}
    (hid : .row id ∈ locks) :
    (db.committed.rows id).isSome := by
  cases h with
  | insertBegun productId event description schema hrequest hphase =>
      rw [hrequest, hphase] at hstatement
      cases hstatement with
      | insert => simp at hid
      | lock _ id _ htarget => simp [Request.target] at htarget
  | inserted productId event description schema hrequest hphase =>
      rw [hrequest, hphase] at hstatement
      cases hstatement
  | working rowChange hrowWise _ hprogress =>
      obtain ⟨row, hrow⟩ := Option.isSome_iff_exists.mp (hstatement.view_isSome hprogress hid)
      exact hrowWise.committed_isSome hrow

variable {ended : Nat} {c : Change}

-- The end of a transaction takes no lock from another one.
theorem holder_ended (hne : tx ≠ ended) (key : LockKey) :
    (if db.holder key = some ended then none else db.holder key) = some tx ↔
      db.holder key = some tx := by
  split_ifs with h
  · simp [h, Ne.symm hne]
  · rfl

-- The commit of another transaction.
theorem Sound.commit_other (h : Sound db tx t) (hended : Sound db ended c) (hne : tx ≠ ended)
    (hisSome : ∀ id, Holds db tx id → (db.committed.rows id).isSome) :
    Sound (db.commit ended c) tx t := by
  have hholder : ∀ key, (db.commit ended c).holder key = some tx ↔ db.holder key = some tx :=
    holder_ended hne
  have hholds : Holds (db.commit ended c) tx = Holds db tx :=
    funext fun id => propext (hholder (.row id))
  have hkept : ∀ id, Holds db tx id → (db.commit ended c).committed.rows id =
      db.committed.rows id :=
    fun id hid => hended.rows_of_held hid hne (hisSome id hid)
  cases h with
  | insertBegun productId event description schema hrequest hphase hchange =>
      exact .insertBegun productId event description schema hrequest hphase hchange
  | inserted productId event description schema hrequest hphase hchange =>
      exact .inserted productId event description schema hrequest hphase hchange
  | working rowChange hrowWise hactivates hprogress =>
      have hview : ∀ id, Holds db tx id → ((db.commit ended c).view t).rows id =
          (db.view t).rows id :=
        fun id hid => hrowWise.rows_congr (hkept id hid)
      have hfree : ∀ id, ¬ Holds db tx id → ((db.commit ended c).view t).rows id =
        (db.commit ended c).committed.rows id :=
        fun id hid => hrowWise.rows_of_unheld hid _
      refine .working rowChange (hholds ▸ hrowWise) ?_ ?_
      · intro id key hactive
        by_cases hid : Holds db tx id
        · rw [TemplateTable.activeAt_congr (hview id hid)] at hactive
          rcases hactivates id key hactive with hcommitted | ⟨hentry, halone⟩
          · exact .inl ((TemplateTable.activeAt_congr (hkept id hid) key).mpr hcommitted)
          · refine .inr ⟨(hholder _).mpr hentry, fun other hother hotherActive =>
              halone other hother ?_⟩
            by_cases hheld : Holds db tx other
            · exact (TemplateTable.activeAt_congr (hview other hheld) key).mp hotherActive
            · -- the other transaction has no entry of this key: the row was Active already
              rw [TemplateTable.activeAt_congr (hfree other hheld)] at hotherActive
              rcases hended.activates other key hotherActive with hbefore | ⟨hother, -⟩
              · exact (TemplateTable.activeAt_congr (hrowWise.rows_of_unheld hheld _) key).mpr
                  hbefore
              · rw [hentry, Option.some.injEq] at hother
                exact absurd hother hne
        · exact .inl ((TemplateTable.activeAt_congr (hfree id hid) key).mp hactive)
      · rw [hholds]
        exact hprogress.transfer (fun id hid => ⟨hkept id hid, hview id hid⟩) hfree

end Moves

end RmqttThings.Templates
