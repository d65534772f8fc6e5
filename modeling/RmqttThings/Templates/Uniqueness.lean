import RmqttThings.Templates.Progress

namespace RmqttThings.Templates

open Effects.Transactions
open Effects.RowLock (Move txs_update_cases)

structure Valid (db : Store) : Prop where
  one : OneActive db.committed
  heldIsSome : ∀ tx id, Holds db tx id → (db.committed.rows id).isSome
  sound : ∀ tx t, db.txs tx = some t → t.status = .active → Sound db tx t

section Valid

variable {db db' : Store} {tx : Nat} {t t' : Change}

theorem valid_start {table : TemplateTable} (h : OneActive table) : Valid (Db.start table) :=
  ⟨h, by simp [Holds, Db.start], by simp [Db.start]⟩

-- The other transactions, by what a move leaves them; the one that moves is given.
theorem sound_update (hothers : ∀ other found, other ≠ tx → db.txs other = some found →
    found.status = .active →
      Sound db' other found) (htxs : db'.txs = Function.update db.txs tx (some t'))
    (hmover : t'.status = .active → Sound db' tx t') :
    ∀ other found, db'.txs other = some found → found.status = .active → Sound db' other found := by
  intro other found hfound hactive
  rcases txs_update_cases htxs hfound with ⟨rfl, rfl⟩ | ⟨he, hfound⟩
  · exact hmover hactive
  · exact hothers other found he hfound hactive

theorem sound_first (request : Request) : Sound db tx ⟨request, .begun, id, .active⟩ := by
  have hactivates : Activates db tx ⟨request, .begun, id, .active⟩ :=
    fun _ _ hactive => .inl hactive
  cases request with
  | insert productId event description schema =>
      exact .insertBegun productId event description schema rfl rfl rfl
  | updateStatus id status => exact .working _ rowWise_id hactivates (.begun _ id rfl fun _ => rfl)
  | update id schema description =>
      exact .working _ rowWise_id hactivates (.begun _ id rfl fun _ => rfl)
  | delete id => exact .working _ rowWise_id hactivates (.begun _ id rfl fun _ => rfl)

theorem Valid.begun (h : Valid db) (request : Request) :
    Valid (db.put tx ⟨request, .begun, id, .active⟩) := by
  refine ⟨h.one, h.heldIsSome, sound_update ?_ (Db.put_txs ..) fun _ => sound_first request⟩
  intro other found _ hfound hactive
  exact (h.sound other found hfound hactive).congr rfl fun _ => Iff.rfl

theorem Valid.statement (h : Valid db) (htx : db.txs tx = some t) (hactive : t.status = .active)
    {locks : List LockKey} {change : TemplateTable → TemplateTable} {phase : Phase}
    (hnext : code.next t.request t.phase (db.view t) = .statement locks change phase)
    (hfree : db.Free tx locks) :
    Valid (db.statement tx t locks change phase) := by
  have hsound := h.sound tx t htx hactive
  have hstatement := statement_of_next hnext
  refine ⟨h.one, ?_, sound_update ?_ (Db.statement_txs ..) fun _ => hsound.statement hstatement⟩
  · intro other id hheld
    rw [Holds, Db.statement_holder] at hheld
    split_ifs at hheld with hmem
    · exact hsound.locked_isSome hstatement hmem
    · exact h.heldIsSome other id hheld
  · intro other found hne hfound hactive
    refine (h.sound other found hfound hactive).congr rfl fun key => ?_
    rw [Db.statement_holder]
    split_ifs with hmem
    · rcases hfree key hmem with hnone | hown
      · simp [hnone, Ne.symm hne]
      · simp [hown, Ne.symm hne]
    · rfl

theorem Valid.commit (h : Valid db) (htx : db.txs tx = some t) (hactive : t.status = .active) :
    Valid (db.commit tx t) := by
  have hsound := h.sound tx t htx hactive
  refine ⟨hsound.activates.oneActive h.one, ?_, sound_update ?_ (Db.commit_txs ..) (by simp)⟩
  · intro other id hheld
    rw [Holds, Db.commit_holder] at hheld
    split_ifs at hheld with hown
    have hne : other ≠ tx := fun he => hown (he ▸ hheld)
    rw [Db.commit_committed, hsound.rows_of_held hheld hne (h.heldIsSome other id hheld)]
    exact h.heldIsSome other id hheld
  · intro other found hne hfound hstatus
    exact (h.sound other found hfound hstatus).commit_other hsound hne (h.heldIsSome other)

theorem Valid.rollback (h : Valid db) : Valid (db.rollback tx t) := by
  refine ⟨h.one, ?_, sound_update ?_ (Db.rollback_txs ..) (by simp)⟩
  · intro other id hheld
    rw [Holds, Db.rollback_holder] at hheld
    split_ifs at hheld with hown
    exact h.heldIsSome other id hheld
  · intro other found hne hfound hstatus
    exact (h.sound other found hfound hstatus).congr rfl (holder_ended hne)

theorem Valid.moved {move : Move Request} (h : Valid db) (hmoved : Moved code db move db') :
    Valid db' := by
  cases hmoved with
  | same => exact h
  | begun tx request => exact h.begun request
  | statement tx t locks change phase htx hactive hnext hfree =>
      exact h.statement htx hactive hnext hfree
  | committed tx t htx hactive => exact h.commit htx hactive
  | rolledBack => exact h.rollback

theorem valid_run {table : TemplateTable} (h : OneActive table) (moves : List (Move Request)) :
    Valid (run code moves (Db.start table)) :=
  run_induction (valid_start h) (fun _ _ _ h hmoved => Valid.moved h hmoved) moves

end Valid

section Commits

variable {db db' : Store} {tx : Nat} {t : Change}

theorem phase_of_commit {request : Request} {phase : Phase} {view : TemplateTable}
    (h : code.next request phase view = .commit) : phase = .written := by
  cases phase with
  | written => rfl
  | begun =>
      cases request with
      | insert => cases h
      | updateStatus id status | update id schema description =>
          simp only [code, nextUpdateStatus, nextUpdate, selectForUpdate] at h
          split at h <;> cases h
      | delete id =>
          simp only [code, nextDelete] at h
          split at h <;> cases h
  | locked template =>
      cases request with
      | insert | delete => cases h
      | updateStatus id status =>
          simp only [code, nextUpdateStatus, setStatus] at h
          split_ifs at h
          split at h
          · cases h
          · split_ifs at h
      | update id schema description =>
          simp only [code, nextUpdate] at h
          split_ifs at h
  | deactivating template ids =>
      cases request with
      | insert | delete | update => cases h
      | updateStatus id status =>
          cases ids with
          | nil =>
              simp only [code, nextUpdateStatus, setStatus] at h
              split at h
              · cases h
              · split_ifs at h
          | cons other others =>
              simp only [code, nextUpdateStatus] at h
              split_ifs at h

-- A status change that is through, in what is committed by then.
theorem statusSet_eq {held : Nat → Prop} {committed view : TemplateTable} {id : Nat}
    {status : EventValidTemplateStatus} {template : EventValidTemplate} (hone : OneActive view)
    (hrow : committed.rows id = some template)
    (hview : view.rows id = some (template.withStatus status))
    (hothers : Others held committed view id template.key status)
    (hnext : view.nextId = committed.nextId) :
    view = committed.updateStatus id status := by
  refine TemplateTable.ext ?_ (hnext.trans (TemplateTable.updateStatus_nextId ..).symm)
  intro other
  rw [TemplateTable.updateStatus_rows hrow]
  by_cases he : other = id
  · rw [if_pos he, he, hview]
  · rw [if_neg he]
    rcases hothers other he with hsame | ⟨hstatus, -, hactive, hinactive⟩
    · rw [if_neg, hsame]
      rintro ⟨rfl, hactive⟩
      refine he (hone other id template.key ?_ ⟨_, hview, rfl, rfl⟩)
      exact (TemplateTable.activeAt_congr hsame template.key).mpr hactive
    · rw [if_pos ⟨hstatus, hactive⟩, hinactive]

-- A commit is the call as a whole, or has found nothing to do.
theorem Valid.commit_eq (h : Valid db) (htx : db.txs tx = some t) (hactive : t.status = .active)
    (hnext : code.next t.request t.phase (db.view t) = .commit) :
    db.view t = db.committed ∨ db.view t = t.request.apply db.committed := by
  have hsound := h.sound tx t htx hactive
  have hone := hsound.activates.oneActive h.one
  have hphase := phase_of_commit hnext
  cases hsound with
  | insertBegun productId event description schema hrequest hbegun =>
      rw [hbegun] at hphase
      cases hphase
  | inserted productId event description schema hrequest _ hchange =>
      refine .inr ?_
      rw [Db.view, hchange, hrequest]
      rfl
  | working rowChange hrowWise _ hprogress =>
      have hnextId : (db.view t).nextId = db.committed.nextId := hrowWise.nextId db.committed
      obtain ⟨request, phase, change, status⟩ := t
      obtain rfl : phase = .written := hphase
      cases hprogress with
      | statusSet id status template _ hrow hview hothers =>
          exact .inr (statusSet_eq hone hrow hview hothers hnextId)
      | contentSet id schema description template _ hrow hschema hview hsame =>
          refine .inr ?_
          have hpermitted : ¬ (schema.isSome ∧ template.status = .active) :=
            fun h => hschema h.1 h.2
          rw [Request.apply, TemplateTable.update, hrow]
          refine TemplateTable.ext ?_ ?_
          · intro other
            simp only [if_neg hpermitted, TemplateTable.modify_rows]
            split_ifs with he
            · rw [he, hview, hrow, Option.map_some]
            · exact hsame other he
          · simp only [if_neg hpermitted, TemplateTable.modify_nextId]
            exact hnextId
      | deleted id _ hview hsame =>
          refine .inr (TemplateTable.ext ?_ hnextId)
          intro other
          rw [Request.apply, TemplateTable.erase_rows]
          split_ifs with he
          · rw [he, hview]
          · exact hsame other he
      | notFound id hsame => exact .inl (TemplateTable.ext hsame hnextId)

-- The table after a move, for the transaction that moves.
theorem Valid.committed_moved (h : Valid db) {move : Move Request}
    (hmoved : Moved code db move db') :
    db'.committed = db.committed ∨
      ∃ t, db.txs (mover move) = some t ∧ db'.committed = t.request.apply db.committed := by
  cases hmoved with
  | same => exact .inl rfl
  | begun tx request => exact .inl rfl
  | statement tx t => exact .inl rfl
  | committed tx t htx hactive hnext =>
      rcases h.commit_eq htx hactive hnext with hsame | happly
      · exact .inl hsame
      · exact .inr ⟨t, htx, happly⟩
  | rolledBack => exact .inl rfl

end Commits

-- The templates of other products and other events than those of the template of this id.
def KeepsOthers (id : Nat) (before after : TemplateTable) : Prop :=
  ∀ other row, before.rows other = some row → (∀ template, before.rows id = some template →
    row.key ≠ template.key) → after.rows other = some row

-- What is Active keeps its schema, whatever else becomes of it.
def KeepsActiveSchemas (before after : TemplateTable) : Prop :=
  ∀ id row row', before.rows id = some row → row.status = .active → after.rows id = some row' →
    row'.schema = row.schema

section Calls

variable {table : TemplateTable}

theorem keepsActiveSchemas_refl : KeepsActiveSchemas table table := by
  intro id row row' hrow _ hrow'
  rw [hrow, Option.some.injEq] at hrow'
  rw [hrow']

theorem Request.apply_keepsOthers {request : Request} {id : Nat}
    (htarget : request.target = some id)
    (table : TemplateTable) : KeepsOthers id table (request.apply table) := by
  intro other row hrow hkey
  rcases request.apply_rows table other with hsame | ⟨he, -⟩ |
    ⟨found, template, row', hfound, htemplate, hrow', hrowKey, -⟩
  · exact hsame.trans hrow
  · rw [table.fresh other he.ge] at hrow
    cases hrow
  · rw [htarget, Option.some.injEq] at hfound
    rw [hrow, Option.some.injEq] at hrow'
    subst hfound hrow'
    exact absurd hrowKey (hkey template htemplate)

theorem keepsActiveSchemas_updateStatus (id : Nat) (status : EventValidTemplateStatus) :
    KeepsActiveSchemas table (table.updateStatus id status) := by
  intro other row row' hrow _ hrow'
  cases htarget : table.rows id with
  | none =>
      rw [TemplateTable.updateStatus, htarget] at hrow'
      exact keepsActiveSchemas_refl other row row' hrow ‹_› hrow'
  | some template =>
      rw [TemplateTable.updateStatus_rows htarget] at hrow'
      split_ifs at hrow' with he hdeactivated
      · subst he
        rw [htarget, Option.some.injEq] at hrow
        rw [Option.some.injEq] at hrow'
        rw [← hrow', ← hrow]
        rfl
      · rw [hrow, Option.map_some, Option.some.injEq] at hrow'
        rw [← hrow']
        rfl
      · rw [hrow, Option.some.injEq] at hrow'
        rw [hrow']

theorem keepsActiveSchemas_update (id : Nat) (schema : Option Json) (description : Option String) :
    KeepsActiveSchemas table (table.update id schema description) := by
  intro other row row' hrow hactive hrow'
  unfold TemplateTable.update at hrow'
  cases htarget : table.rows id with
  | none =>
      simp only [htarget] at hrow'
      exact keepsActiveSchemas_refl other row row' hrow hactive hrow'
  | some template =>
      simp only [htarget] at hrow'
      split_ifs at hrow' with hrefused
      · exact keepsActiveSchemas_refl other row row' hrow hactive hrow'
      · rw [TemplateTable.modify_rows, hrow] at hrow'
        split_ifs at hrow' with he
        · subst he
          rw [htarget, Option.some.injEq] at hrow
          subst hrow
          cases schema with
          | none =>
              rw [Option.map_some, Option.some.injEq] at hrow'
              rw [← hrow']
              rfl
          | some schema => exact absurd ⟨rfl, hactive⟩ hrefused
        · rw [Option.some.injEq] at hrow'
          rw [hrow']

theorem Request.apply_keepsActiveSchemas (request : Request) (table : TemplateTable) :
    KeepsActiveSchemas table (request.apply table) := by
  cases request with
  | insert productId event description schema =>
      intro id row row' hrow hactive hrow'
      rw [Request.apply, TemplateTable.insert_rows] at hrow'
      split_ifs at hrow' with he
      · rw [table.fresh id he.ge] at hrow
        cases hrow
      · exact keepsActiveSchemas_refl id row row' hrow hactive hrow'
  | updateStatus id status => exact keepsActiveSchemas_updateStatus id status
  | update id schema description => exact keepsActiveSchemas_update id schema description
  | delete id =>
      intro other row row' hrow hactive hrow'
      rw [Request.apply, TemplateTable.erase_rows] at hrow'
      split_ifs at hrow'
      exact keepsActiveSchemas_refl other row row' hrow hactive hrow'

end Calls

-- In every run, for the state before a move and the state after it: one Active template at
-- most, an activation keeps to its product and event, no schema changes while it is Active,
-- and a transaction that does not commit in the end has changed nothing.
theorem templates_run {table : TemplateTable} (hone : OneActive table)
    (front back : List (Move Request))
    (move : Move Request) : let before := run code front (Db.start table)
    let after := run code (front ++ [move]) (Db.start table)
    OneActive before.committed ∧ OneActive after.committed ∧
    (∀ t id, before.txs (mover move) = some t → t.request = .updateStatus id .active →
      KeepsOthers id before.committed after.committed) ∧
    KeepsActiveSchemas before.committed after.committed ∧
    (¬ (run code (front ++ move :: back) (Db.start table)).HasCommitted (mover move) →
      after.committed = before.committed) := by
  intro before after
  have hvalid : Valid before := valid_run hone front
  have hafter : after = before.move code move := run_append code front [move] _
  have hmoved := hvalid.committed_moved (moved_move before move)
  rw [← hafter] at hmoved
  refine ⟨hvalid.one, (valid_run hone _).one, ?_, ?_, unchanged_of_not_committed⟩
  · intro t id htx hrequest
    rcases hmoved with hsame | ⟨found, hfound, happly⟩
    · rw [hsame]
      exact fun other row hrow _ => hrow
    · rw [htx, Option.some.injEq] at hfound
      rw [happly, ← hfound]
      exact t.request.apply_keepsOthers (by rw [hrequest]; rfl) before.committed
  · rcases hmoved with hsame | ⟨t, -, happly⟩
    · rw [hsame]
      exact keepsActiveSchemas_refl
    · rw [happly]
      exact t.request.apply_keepsActiveSchemas before.committed

section Race

def climate : EventValidTemplate := ⟨"sensor", "property", none, .null, .draft⟩

def twoDrafts : TemplateTable := (TemplateTable.empty.insert climate).insert climate

-- Two activations at once. The second one waits for the index entry of the first, and then
-- breaks the index.
def race : List (Move Request) :=
  [.begin 0 (.updateStatus 1 .active), .begin 1 (.updateStatus 2 .active), .step 0, .step 1,
    .step 0, .step 1, .step 0, .step 1, .step 0]

theorem oneActive_twoDrafts : OneActive twoDrafts := by
  have hempty : ∀ id key, ¬ TemplateTable.empty.ActiveAt id key := by
    rintro id key ⟨row, hrow, -⟩
    cases hrow
  have hdraft : climate.status ≠ .active := by decide
  intro id other key hid
  exact absurd (insert_activeAt hdraft (insert_activeAt hdraft hid)) (hempty id key)

theorem second_activation_refused :
    let before := run code race (Db.start twoDrafts)
    let after := run code (race ++ [.step 1]) (Db.start twoDrafts)
    before.committed.isActiveAt 1 ("sensor", "property") = true ∧ OneActive after.committed ∧
      (after.txs 1).map (·.status) = some .rolledBack ∧ after.committed = before.committed := by
  intro before after
  obtain ⟨-, hone, -, -, hunchanged⟩ := templates_run oneActive_twoDrafts race [] (.step 1)
  have hrolledBack : (after.txs 1).map (·.status) = some .rolledBack := by decide
  refine ⟨by decide, hone, hrolledBack, hunchanged ?_⟩
  rintro ⟨t, htx, hstatus⟩
  simp only [after, mover] at hrolledBack htx
  rw [htx, Option.map_some, hstatus] at hrolledBack
  cases hrolledBack

end Race

end RmqttThings.Templates
