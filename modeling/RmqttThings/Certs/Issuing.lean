import RmqttThings.Certs.Handlers
import RmqttThings.Effects.Hoare

namespace RmqttThings.Certs

open Effects
open Api (ApiError)
open CertTable (ofDevice retire)

-- Normal, and not yet at its end.
def Valid (now : OffsetDateTime) (row : CertIssue) : Prop := row.status = .normal ∧ now < row.endAt

instance (now : OffsetDateTime) (row : CertIssue) : Decidable (Valid now row) :=
  inferInstanceAs (Decidable (_ ∧ _))

theorem Valid.earlier {now later : OffsetDateTime} {row : CertIssue} (h : Valid later row)
    (hle : now ≤ later) :
    Valid now row := ⟨h.1, lt_of_le_of_lt hle h.2⟩

section Steps

variable {α : Type} {post : α → Past → World → Prop} {past : Past} {w : World}

-- A statement fails without an effect, or it is executed; time passes either way.
theorem wp_query {stmt : Sql} {next : Except String stmt.Ans → M α}
    (herror : ∀ error w', w.clock ≤ w'.clock → w'.certs = w.certs →
      (next (.error error)).wp sem post (⟨.sql stmt, .error error⟩ :: past) w')
    (hok : ∀ w', w.clock ≤ w'.clock → w'.certs = (stmt.exec w'.clock w.certs).2 →
      (next (.ok (stmt.exec w'.clock w.certs).1)).wp sem post
        (⟨.sql stmt, .ok (stmt.exec w'.clock w.certs).1⟩ :: past) w') :
    ((query stmt).bind next).wp sem post past w := by
  rw [query, Prog.perform_bind, Prog.wp_call]
  have hle := le_sem_clock (.sql stmt) w
  rcases sem_sql_cases w stmt with ⟨error, hanswer, hcerts⟩ | ⟨hanswer, hcerts⟩
  · rw [hanswer]
    exact herror error _ hle hcerts
  · rw [hanswer]
    exact hok _ hle hcerts

-- The other operations leave the table alone.
theorem wp_perform {op : Op} {next : op.Ans → M α} (hcerts : ∀ w, (sem op w).2.certs = w.certs)
    (hnext : ∀ w', w.clock ≤ w'.clock → w'.certs = w.certs → w' = (sem op w).2 →
      (next (sem op w).1).wp sem post (⟨op, (sem op w).1⟩ :: past) w') :
    ((Prog.perform op).bind next).wp sem post past w := by
  rw [Prog.perform_bind, Prog.wp_call]
  exact hnext _ (le_sem_clock op w) (hcerts w) rfl

end Steps

section Handlers

variable {req : IssueCertRequest} {past : Past} {w : World}

-- What the check has made sure of, if it lets the request pass.
def Clear (req : IssueCertRequest) (certs : CertTable) (now : OffsetDateTime) : Prop :=
  req.force = true ∨ ∀ cert, certs.findByDeviceId req.productId req.deviceId = some cert →
    ¬Valid now cert

theorem wp_checkExisting (req : IssueCertRequest) (past : Past) (w : World) :
    (checkExisting req).wp sem (fun answer _ w' => w'.certs = w.certs ∧ w.clock ≤ w'.clock ∧
      (answer = .ok () → Clear req w.certs w'.clock)) past w := by
  unfold checkExisting
  split_ifs with hforce
  · exact ⟨rfl, Int.le_refl _, fun _ => .inl hforce⟩
  · apply wp_query
    · intro error w' hle hcerts
      exact ⟨hcerts, hle, fun h => by cases h⟩
    · intro w' hle hcerts
      simp only [Sql.exec] at hcerts ⊢
      cases hfound : w.certs.findByDeviceId req.productId req.deviceId with
      | none => exact ⟨hcerts, hle, fun _ => .inr (by simp [hfound])⟩
      | some cert =>
          have hdead (now : OffsetDateTime) (h : ¬Valid now cert) : Clear req w.certs now := by
            right
            intro other hother
            rw [hfound, Option.some.injEq] at hother
            exact hother ▸ h
          dsimp only
          split_ifs with hnormal
          · apply wp_perform sem_nowUtc_certs
            intro w'' hle' hcerts' hw
            split_ifs with hlive
            · exact ⟨hcerts'.trans hcerts, hle.trans hle', fun h => by cases h⟩
            · refine ⟨hcerts'.trans hcerts, hle.trans hle', fun _ => hdead _ fun hvalid => hlive ?_⟩
              rw [sem_nowUtc, ← hw]
              exact hvalid.2
          · exact ⟨hcerts, hle, fun _ => hdead _ fun hvalid => hnormal hvalid.1⟩

-- The rest stores one row for the device, if anything.
theorem wp_issueChecked (req : IssueCertRequest) (past : Past) (w : World) :
    (issueChecked req).wp sem (fun _ _ w' => w.clock ≤ w'.clock ∧
      (w'.certs = w.certs ∨
        ∃ pubCert now, w'.certs = w.certs.create ⟨req.productId, req.deviceId, pubCert, req.startAt,
          req.endAt⟩ now)) past w := by
  unfold issueChecked
  apply wp_perform (sem_readToString_certs · _)
  intro w1 hle1 hcerts1 _
  rcases (sem (.readToString "ca.pem") w).1 with error | caCertPem
  · exact ⟨hle1, .inl hcerts1⟩
  · apply wp_perform (sem_readToString_certs · _)
    intro w2 hle2 hcerts2 _
    rcases (sem (.readToString "ca.key") w1).1 with error | caKeyPem
    · exact ⟨hle1.trans hle2, .inl (hcerts2.trans hcerts1)⟩
    · apply wp_perform (sem_issueCert_certs · _ _ _ _ _ _)
      intro w3 hle3 hcerts3 _
      have hle := hle1.trans (hle2.trans hle3)
      have hcerts := hcerts3.trans (hcerts2.trans hcerts1)
      rcases (sem (.issueCert caCertPem caKeyPem req.productId req.deviceId req.startAt req.endAt)
        w2).1 with error | issued
      · exact ⟨hle, .inl hcerts⟩
      · apply wp_query
        · intro error w4 hle4 hcerts4
          exact ⟨hle.trans hle4, .inl (hcerts4.trans hcerts)⟩
        · intro w4 hle4 hcerts4
          rw [hcerts] at hcerts4
          apply wp_query
          · intro error w5 hle5 hcerts5
            exact ⟨hle.trans (hle4.trans hle5), .inr ⟨_, _, hcerts5.trans hcerts4⟩⟩
          · intro w5 hle5 hcerts5
            exact ⟨hle.trans (hle4.trans hle5), .inr ⟨_, _, hcerts5.trans hcerts4⟩⟩

-- What a request can do to the table: nothing, a new row after a check that was passed, or a
-- change of status.
inductive Effect (w : World) : Request → World → Prop where
  | none {request : Request} {w' : World} (h : w'.certs = w.certs) : Effect w request w'
  | created {req : IssueCertRequest} {w' : World} (pubCert : String) (now checked : OffsetDateTime)
      (hclear : Clear req w.certs checked) (hchecked : checked ≤ w'.clock)
      (h : w'.certs = w.certs.create ⟨req.productId, req.deviceId, pubCert, req.startAt,
        req.endAt⟩ now) :
      Effect w (.issue req) w'
  | retired {req : UpdateCertStatusRequest} {w' : World} (status : CertStatus)
      (htarget : targetStatus req.status = .ok status) (hid : req.id = Option.none)
      (h : w'.certs = w.certs.updateStatus req.productId req.deviceId status) :
      Effect w (.update req) w'
  | retiredById {req : UpdateCertStatusRequest} {w' : World} (id : Int) (status : CertStatus)
      (htarget : targetStatus req.status = .ok status) (hid : req.id = some id)
      (h : w'.certs = w.certs.updateStatusById id status) :
      Effect w (.update req) w'

theorem wp_issueCertHandler (req : IssueCertRequest) (past : Past) (w : World) :
    (issueCertHandler req).wp sem (fun _ _ w' => w.clock ≤ w'.clock ∧ Effect w (.issue req) w')
      past w := by
  unfold issueCertHandler
  split
  · exact ⟨Int.le_refl _, .none rfl⟩
  · split
    · exact ⟨Int.le_refl _, .none rfl⟩
    · apply Prog.wp_seq (wp_checkExisting req past w)
      rintro answer past' checked ⟨hcerts, hle, hclear⟩
      rcases answer with error | _
      · exact ⟨hle, .none hcerts⟩
      · apply Prog.wp_mono (wp_issueChecked req past' checked)
        rintro _ _ w' ⟨hle', hsame | ⟨pubCert, now, hcreated⟩⟩
        · exact ⟨hle.trans hle', .none (hsame.trans hcerts)⟩
        · rw [hcerts] at hcreated
          exact ⟨hle.trans hle', .created pubCert now checked.clock (hclear rfl) hle' hcreated⟩

theorem wp_statement (stmt : Sql) (effect : CertTable → CertTable)
    (heffect : ∀ now certs, (stmt.exec now certs).2 = effect certs) (past : Past) (w : World) :
    (query stmt).wp sem (fun _ _ w' => w.clock ≤ w'.clock ∧
      (w'.certs = w.certs ∨ w'.certs = effect w.certs)) past w := by
  rw [query, Prog.perform, Prog.wp_call, Prog.wp_ret]
  refine ⟨le_sem_clock (.sql stmt) w, ?_⟩
  rcases sem_sql_cases w stmt with ⟨error, -, hcerts⟩ | ⟨-, hcerts⟩
  · exact .inl hcerts
  · exact .inr (hcerts.trans (heffect _ _))

-- One update, if anything.
theorem wp_updateFound {lookup : M (Except String (Option CertIssue))}
    {update : M (Except String Unit)} (retired : CertTable → CertTable)
    (hlookup : ∀ past w, lookup.wp sem (fun _ _ w' => w.clock ≤ w'.clock ∧ w'.certs = w.certs) past
      w)
    (hupdate : ∀ past w, update.wp sem (fun _ _ w' => w.clock ≤ w'.clock ∧
      (w'.certs = w.certs ∨ w'.certs = retired w.certs)) past w) (past : Past) (w : World) :
    (updateFound lookup update).wp sem (fun _ _ w' => w.clock ≤ w'.clock ∧
      (w'.certs = w.certs ∨ w'.certs = retired w.certs)) past w := by
  unfold updateFound
  apply Prog.wp_seq (hlookup past w)
  rintro answer past' found ⟨hle, hcerts⟩
  rcases answer with error | _ | cert
  · exact ⟨hle, .inl hcerts⟩
  · exact ⟨hle, .inl hcerts⟩
  · dsimp only
    split_ifs with hnormal
    · exact ⟨hle, .inl hcerts⟩
    · apply Prog.wp_seq (hupdate past' found)
      rintro answer' past'' w' ⟨hle', heffect⟩
      rw [hcerts] at heffect
      rcases answer' with error | _
      · exact ⟨hle.trans hle', heffect⟩
      · exact ⟨hle.trans hle', heffect⟩

theorem wp_updateCertStatusHandler (req : UpdateCertStatusRequest) (past : Past) (w : World) :
    (updateCertStatusHandler req).wp sem (fun _ _ w' => w.clock ≤ w'.clock ∧
      Effect w (.update req) w') past w := by
  have hfind (stmt : Sql) (hkeep : ∀ now certs, (stmt.exec now certs).2 = certs) (past : Past)
      (w : World) :
      (query stmt).wp sem (fun _ _ w' => w.clock ≤ w'.clock ∧ w'.certs = w.certs) past w := by
    apply Prog.wp_mono (wp_statement stmt id hkeep past w)
    rintro _ _ w' ⟨hle, hsame | hsame⟩
    · exact ⟨hle, hsame⟩
    · exact ⟨hle, hsame⟩
  unfold updateCertStatusHandler
  cases htarget : targetStatus req.status with
  | error error => exact ⟨Int.le_refl _, .none rfl⟩
  | ok target =>
      cases hid : req.id with
      | some certId =>
          let retired (certs : CertTable) := certs.updateStatusById certId target
          apply Prog.wp_mono (wp_updateFound retired (hfind (.findById certId) fun _ _ => rfl)
            (wp_statement (.updateStatusById certId target) retired fun _ _ => rfl) past w)
          rintro _ _ w' ⟨hle, hsame | hretired⟩
          · exact ⟨hle, .none hsame⟩
          · exact ⟨hle, .retiredById certId target htarget hid hretired⟩
      | none =>
          dsimp only
          split
          · exact ⟨Int.le_refl _, .none rfl⟩
          · split
            · exact ⟨Int.le_refl _, .none rfl⟩
            · let retired (certs : CertTable) :=
                certs.updateStatus req.productId req.deviceId target
              apply Prog.wp_mono
                (wp_updateFound retired (hfind (.findByDeviceId req.productId req.deviceId)
                fun _ _ => rfl)
                (wp_statement (.updateStatus req.productId req.deviceId target) retired fun _ _ =>
                  rfl) past w)
              rintro _ _ w' ⟨hle, hsame | hretired⟩
              · exact ⟨hle, .none hsame⟩
              · exact ⟨hle, .retired target htarget hid hretired⟩

theorem serve_effect (w : World) (request : Request) :
    w.clock ≤ ((serve request).final sem w).clock ∧
      Effect w request ((serve request).final sem w) := by
  have hwp : (serve request).wp sem (fun _ _ w' => w.clock ≤ w'.clock ∧ Effect w request w')
      [] w := by
    cases request with
    | issue req =>
        apply Prog.wp_seq (wp_issueCertHandler req [] w)
        exact fun _ _ _ h => h
    | update req =>
        apply Prog.wp_seq (wp_updateCertStatusHandler req [] w)
        exact fun _ _ _ h => h
  rw [Prog.wp_iff] at hwp
  exact hwp

end Handlers

section Tables

variable {table : CertTable} {now : OffsetDateTime} {productId deviceId : String}

-- Whenever a certificate of a device is valid, its newest one is Normal and ends no earlier.
def Covered (now : OffsetDateTime) (table : CertTable) : Prop :=
  ∀ row ∈ table.rows, Valid now row → ∃ newest, table.findByDeviceId row.productId row.deviceId =
    some newest ∧ newest.status = .normal ∧ row.endAt ≤ newest.endAt

theorem Covered.later {later : OffsetDateTime} (h : Covered now table) (hle : now ≤ later) :
    Covered later table :=
  fun row hrow hvalid => h row hrow (hvalid.earlier hle)

theorem ofDevice_iff {row : CertIssue} :
    ofDevice productId deviceId row = true ↔ row.productId = productId ∧
      row.deviceId = deviceId := by
  simp [ofDevice]

theorem mem_of_findByDeviceId {cert : CertIssue}
    (h : table.findByDeviceId productId deviceId = some cert) :
    cert ∈ table.rows ∧ cert.productId = productId ∧ cert.deviceId = deviceId := by
  have hmem := List.mem_of_getLast? h
  rw [List.mem_filter, ofDevice_iff] at hmem
  exact hmem

theorem findByDeviceId_create (new : NewCert) (now : OffsetDateTime) :
    (table.create new now).findByDeviceId productId deviceId =
      if new.productId = productId ∧ new.deviceId = deviceId then some (table.newRow new now)
      else table.findByDeviceId productId deviceId := by
  have hrow : ofDevice productId deviceId (table.newRow new now) = true ↔
      new.productId = productId ∧ new.deviceId = deviceId := ofDevice_iff
  unfold CertTable.findByDeviceId CertTable.create
  rw [List.filter_append, List.filter_singleton]
  by_cases hdevice : new.productId = productId ∧ new.deviceId = deviceId
  · rw [if_pos hdevice, hrow.mpr hdevice, cond_true, List.getLast?_concat]
  · rw [if_neg hdevice, Bool.not_eq_true _ |>.mp (hrow.not.mpr hdevice), cond_false,
      List.append_nil]

theorem findByDeviceId_updateWhere (cond : CertIssue → Bool) (status : CertStatus) :
    (table.updateWhere cond status).findByDeviceId productId deviceId =
      (table.findByDeviceId productId deviceId).map (retire cond status) := by
  have hrow : ofDevice productId deviceId ∘ retire cond status = ofDevice productId deviceId := by
    funext row
    simp [ofDevice]
  unfold CertTable.findByDeviceId CertTable.updateWhere
  rw [List.filter_map, hrow, List.getLast?_map]

-- A row that is Normal after an update was not selected by it.
theorem mem_updateWhere {cond : CertIssue → Bool} {status : CertStatus} (hstatus : status ≠ .normal)
    {row : CertIssue}
    (hrow : row ∈ (table.updateWhere cond status).rows) (hnormal : row.status = .normal) :
    row ∈ table.rows ∧ cond row = false := by
  obtain ⟨old, hold, rfl⟩ := List.mem_map.mp hrow
  by_cases hsel : (cond old && old.status == .normal) = true
  · rw [retire, if_pos hsel] at hnormal
    exact absurd hnormal hstatus
  · rw [retire, if_neg hsel] at hnormal ⊢
    refine ⟨hold, ?_⟩
    rw [hnormal] at hsel
    simpa using hsel

theorem retire_of_not {cond : CertIssue → Bool} {status : CertStatus} {row : CertIssue}
    (h : cond row = false) :
    retire cond status row = row := by
  simp [retire, h]

-- The new row is the newest one of its device; no valid row of the device may outlive it.
theorem Covered.create (h : Covered now table) {new : NewCert} (created : OffsetDateTime)
    (hlast : ∀ row ∈ table.rows, ofDevice new.productId new.deviceId row = true → Valid now row →
      row.endAt ≤ new.endAt) : Covered now (table.create new created) := by
  intro row hrow hvalid
  rw [findByDeviceId_create]
  rcases List.mem_append.mp hrow with hold | hnew
  · split_ifs with hdevice
    · exact ⟨_, rfl, rfl, hlast row hold (ofDevice_iff.mpr ⟨hdevice.1.symm, hdevice.2.symm⟩) hvalid⟩
    · exact h row hold hvalid
  · have hrow := List.mem_singleton.mp hnew
    subst hrow
    rw [if_pos ⟨rfl, rfl⟩]
    exact ⟨_, rfl, rfl, Int.le_refl _⟩

-- If the newest row of a device is retired, no valid one may stay.
theorem Covered.updateWhere (h : Covered now table) {cond : CertIssue → Bool} {status : CertStatus}
    (hstatus : status ≠ .normal)
    (hlast : ∀ newest, table.findByDeviceId newest.productId newest.deviceId = some newest →
      cond newest = true →
      ∀ row ∈ table.rows, ofDevice newest.productId newest.deviceId row = true → cond row = false →
        ¬Valid now row) :
    Covered now (table.updateWhere cond status) := by
  intro row hrow hvalid
  obtain ⟨hold, hother⟩ := mem_updateWhere hstatus hrow hvalid.1
  obtain ⟨newest, hnewest, hrest⟩ := h row hold hvalid
  obtain ⟨-, hproduct, hdevice⟩ := mem_of_findByDeviceId hnewest
  refine ⟨newest, ?_, hrest⟩
  rw [findByDeviceId_updateWhere, hnewest, Option.map_some, retire_of_not]
  by_contra hsel
  rw [Bool.not_eq_false] at hsel
  rw [← hproduct, ← hdevice] at hnewest
  exact hlast newest hnewest hsel row hold (ofDevice_iff.mpr ⟨hproduct.symm, hdevice.symm⟩)
    hother hvalid

end Tables

section Runs

-- A forced certificate does not end before a valid one of the device, and the newest
-- certificate of a device is not retired by its id while another one is valid.
def Orderly (w : World) : Request → Prop
  | .issue req =>
      req.force = true → ∀ row ∈ w.certs.rows, ofDevice req.productId req.deviceId row = true →
      Valid w.clock row → row.endAt ≤ req.endAt
  | .update req =>
      ∀ id ∈ req.id, (targetStatus req.status).isOk = true → ∀ newest ∈ w.certs.rows,
        newest.id = id →
      w.certs.findByDeviceId newest.productId newest.deviceId = some newest →
      ∀ row ∈ w.certs.rows, ofDevice newest.productId newest.deviceId row = true → row.id ≠ id →
        ¬Valid w.clock row

instance (w : World) : (request : Request) → Decidable (Orderly w request)
  | .issue _ => inferInstanceAs (Decidable (_ → _))
  | .update _ => inferInstanceAs (Decidable (∀ id ∈ _, _))

def served (w : World) (request : Request) : World := (serve request).final sem w

theorem Covered.served {w : World} {request : Request} (h : Covered w.clock w.certs)
    (horderly : Orderly w request) :
    Covered (served w request).clock (served w request).certs := by
  obtain ⟨hle, heffect⟩ := serve_effect w request
  unfold Certs.served
  generalize (serve request).final sem w = w' at hle heffect
  cases heffect with
  | none hsame => exact hsame ▸ h.later hle
  | @created req _ pubCert created checked hclear hchecked hcreated =>
      rw [hcreated]
      apply (h.later hle).create
      intro row hrow hdevice hvalid
      rcases hclear with hforce | hclear
      · exact horderly hforce row hrow hdevice (hvalid.earlier hle)
      · obtain ⟨newest, hnewest, hnormal, hend⟩ := h row hrow (hvalid.earlier hle)
        obtain ⟨hproduct, hid⟩ := ofDevice_iff.mp hdevice
        rw [hproduct, hid] at hnewest
        have hlive : Valid checked newest :=
          ⟨hnormal, lt_of_le_of_lt hchecked (lt_of_lt_of_le hvalid.2 hend)⟩
        exact absurd hlive (hclear newest hnewest)
  | retired status htarget hid hretired =>
      rw [hretired]
      apply (h.later hle).updateWhere (ne_normal_of_targetStatus htarget)
      intro newest _ hnewest row _ hdevice hother
      rw [ofDevice_iff] at hnewest hdevice
      rw [hnewest.1, hnewest.2, ← ofDevice_iff, hother] at hdevice
      cases hdevice
  | @retiredById req _ id status htarget hid hretired =>
      rw [hretired]
      apply (h.later hle).updateWhere (ne_normal_of_targetStatus htarget)
      intro newest hnewest hsel row hrow hdevice hother hvalid
      have hok : (targetStatus req.status).isOk = true := by rw [htarget]; rfl
      have hdead := horderly id hid hok newest (mem_of_findByDeviceId hnewest).1
          (by simpa using hsel) hnewest row hrow
        hdevice (by simpa using hother)
      exact hdead (hvalid.earlier hle)

def OrderlyRun (w : World) : List Request → Prop
  | [] => True
  | request :: requests => Orderly w request ∧ OrderlyRun (served w request) requests

instance decidableOrderlyRun (w : World) :
    (requests : List Request) → Decidable (OrderlyRun w requests)
  | [] => .isTrue trivial
  | request :: requests =>
      have := decidableOrderlyRun (served w request) requests
      inferInstanceAs (Decidable (_ ∧ _))

theorem Covered.foldl_served {w : World} {requests : List Request} (h : Covered w.clock w.certs)
    (horderly : OrderlyRun w requests) :
    Covered (requests.foldl Certs.served w).clock (requests.foldl Certs.served w).certs := by
  induction requests generalizing w with
  | nil => exact h
  | cons request requests ih => exact ih (h.served horderly.1) horderly.2

-- A request without `force` succeeds only if, when it is checked, no certificate of the device is
-- valid.
def Lawful (w : World) (req : IssueCertRequest) : Prop :=
  req.force = false → ((issueCertHandler req).run sem w).1.isOk = true →
    ∀ row ∈ w.certs.rows, ofDevice req.productId req.deviceId row = true →
      ¬Valid ((checkExisting req).final sem w).clock row

instance (w : World) (req : IssueCertRequest) : Decidable (Lawful w req) :=
  inferInstanceAs (Decidable (_ → _))

-- A request that succeeds has passed the check.
theorem run_checkExisting {req : IssueCertRequest} {w : World}
    (h : ((issueCertHandler req).run sem w).1.isOk = true) :
    ((checkExisting req).run sem w).1 = .ok () := by
  unfold issueCertHandler at h
  split at h
  · cases h
  · split at h
    · cases h
    · rw [Prog.bind_eq, Prog.run_bind] at h
      rcases hcheck : ((checkExisting req).run sem w).1 with error | _
      · rw [hcheck] at h
        cases h
      · rfl

theorem Covered.lawful {w : World} (h : Covered w.clock w.certs) (req : IssueCertRequest) :
    Lawful w req := by
  intro hforce hissued row hrow hdevice hvalid
  have hcheck := wp_checkExisting req [] w
  rw [Prog.wp_iff] at hcheck
  obtain ⟨-, hle, hclear⟩ := hcheck
  obtain ⟨newest, hnewest, hnormal, hend⟩ := h row hrow (hvalid.earlier hle)
  obtain ⟨hproduct, hid⟩ := ofDevice_iff.mp hdevice
  rw [hproduct, hid] at hnewest
  rcases hclear (run_checkExisting hissued) with hforced | hclear
  · rw [hforce] at hforced
    cases hforced
  · exact hclear newest hnewest ⟨hnormal, lt_of_lt_of_le hvalid.2 hend⟩

theorem no_duplicate_valid {start : World} (hempty : start.certs = .empty) {requests : List Request}
    (h : OrderlyRun start requests) (req : IssueCertRequest) :
    Lawful (requests.foldl served start) req := by
  have hstart : Covered start.clock start.certs := by
    rw [hempty]
    intro row hrow
    simp [CertTable.empty] at hrow
  exact (hstart.foldl_served h).lawful req

-- A forced renewal, and then the replaced certificate is revoked.
def renewal : List Request :=
  [.issue ⟨"p", "d", false, 0, 100⟩, .issue ⟨"p", "d", true, 0, 200⟩, .update ⟨some 1, "", "", 2⟩]

theorem renewal_no_duplicate :
    Lawful (renewal.foldl served (.started .empty)) ⟨"p", "d", false, 0, 300⟩ :=
  no_duplicate_valid rfl (by decide +kernel) _

-- The renewal is revoked instead, and the certificate beneath it is still valid.
def revokedRenewal : List Request :=
  [.issue ⟨"p", "d", false, 0, 100⟩, .issue ⟨"p", "d", true, 0, 200⟩, .update ⟨some 2, "", "", 2⟩]

theorem duplicate_after_revocation :
    ¬∀ (start : World), start.certs = .empty → ∀ (requests : List Request) (req : IssueCertRequest),
      Lawful (requests.foldl served start) req := by
  intro h
  have hlawful := h (.started .empty) rfl revokedRenewal ⟨"p", "d", false, 0, 300⟩
  revert hlawful
  decide +kernel

end Runs

end RmqttThings.Certs
