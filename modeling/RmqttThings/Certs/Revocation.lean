import RmqttThings.Certs.Handlers
import RmqttThings.Effects.Pool

namespace RmqttThings.Certs

open Effects
open Api (ApiError)
open CertTable (ofDevice retire)

abbrev Log := List (Nat × Event Op.Ans)

-- Requests are served at the same time, each on a thread of its own.
abbrev run (moves : List (Move Request)) (start : World) : Pool World Request Op.Ans Reply :=
  Pool.play sem serve moves start

def stateAt (start : World) (log : Log) : World := Pool.replay sem start log

def certAt (w : World) (id : Int) : Option CertIssue := w.certs.findById id

section Rows

variable {row : CertIssue} {event : Event Op.Ans}

-- The rows that an update selects, if it succeeds, and the status that it sets.
def updates : Event Op.Ans → Option ((CertIssue → Bool) × CertStatus)
  | ⟨.sql (.updateStatus productId deviceId status), .ok ()⟩ =>
      some (ofDevice productId deviceId, status)
  | ⟨.sql (.updateStatusById id status), .ok ()⟩ => some ((·.id == id), status)
  | _ => none

def rowAfter (event : Event Op.Ans) (row : CertIssue) : CertIssue :=
  match updates event with
  | some (cond, status) => retire cond status row
  | none => row

-- An update that succeeds and whose condition, the status apart, is met by the row.
def Covers (row : CertIssue) (event : Event Op.Ans) : Prop :=
  ∃ cond status, updates event = some (cond, status) ∧ cond row = true

-- No update sets a certificate to `Normal`.
def Proper (event : Event Op.Ans) : Prop :=
  ∀ cond status, updates event = some (cond, status) → status ≠ .normal

@[simp] theorem rowAfter_id (event : Event Op.Ans) (row : CertIssue) :
    (rowAfter event row).id = row.id := by
  unfold rowAfter
  split
  · exact CertTable.retire_id _ _ row
  · rfl

@[simp] theorem rowAfter_toNewCert (event : Event Op.Ans) (row : CertIssue) :
    (rowAfter event row).toNewCert = row.toNewCert := by
  unfold rowAfter
  split
  · exact CertTable.retire_toNewCert _ _ row
  · rfl

theorem rowAfter_of_settled (event : Event Op.Ans) (h : row.status ≠ .normal) :
    rowAfter event row = row := by
  unfold rowAfter
  split
  · simp [retire, h]
  · rfl

theorem rowAfter_of_not_covers (h : ¬Covers row event) : rowAfter event row = row := by
  unfold rowAfter
  split
  · rename_i cond status hupdates
    have hsel : cond row ≠ true := fun hsel => h ⟨cond, status, hupdates, hsel⟩
    simp [retire, hsel]
  · rfl

theorem status_rowAfter_of_covers (h : Covers row event) (hproper : Proper event) :
    (rowAfter event row).status ≠ .normal := by
  obtain ⟨cond, status, hupdates, hsel⟩ := h
  have hstatus := hproper cond status hupdates
  by_cases hnormal : row.status = .normal
  · simpa [rowAfter, hupdates, retire, hsel, hnormal] using hstatus
  · rwa [rowAfter_of_settled event hnormal]

-- What an update selects by does not change.
theorem Covers.congr {other : CertIssue} (h : Covers row event) (hid : other.id = row.id)
    (hcert : other.toNewCert = row.toNewCert) : Covers other event := by
  obtain ⟨cond, status, hupdates, hsel⟩ := h
  refine ⟨cond, status, hupdates, ?_⟩
  unfold updates at hupdates
  split at hupdates
  · simp only [Option.some.injEq, Prod.mk.injEq] at hupdates
    obtain ⟨rfl, rfl⟩ := hupdates
    simpa [ofDevice, hcert] using hsel
  · simp only [Option.some.injEq, Prod.mk.injEq] at hupdates
    obtain ⟨rfl, rfl⟩ := hupdates
    simpa [hid] using hsel
  · cases hupdates

theorem findById_updateWhere (table : CertTable) (cond : CertIssue → Bool) (status : CertStatus)
    (id : Int) :
    (table.updateWhere cond status).findById id = (table.findById id).map (retire cond status) := by
  have hid : (fun row : CertIssue => row.id == id) ∘ retire cond status = fun row =>
      row.id == id := by
    funext row
    simp
  simp only [CertTable.findById, CertTable.updateWhere, List.find?_map, hid]

-- Everything an operation can do to a row.
theorem certAt_step (op : Op) {w : World} {id : Int} (h : certAt w id = some row) :
    certAt (sem op w).2 id = some (rowAfter ⟨op, (sem op w).1⟩ row) := by
  cases op with
  | sql stmt =>
      rcases sem_sql_cases w stmt with ⟨error, hanswer, hcerts⟩ | ⟨hanswer, hcerts⟩
      · rw [certAt, hcerts, hanswer]
        cases stmt <;> exact h
      · rw [certAt, hcerts, hanswer]
        cases stmt with
        | create cert =>
            simp only [certAt, CertTable.findById] at h
            simp only [Sql.exec, CertTable.findById, CertTable.create, List.find?_append, h]
            rfl
        | updateStatus productId deviceId status =>
            simp only [certAt] at h
            simp only [Sql.exec, CertTable.updateStatus, findById_updateWhere, h]
            rfl
        | updateStatusById certId status =>
            simp only [certAt] at h
            simp only [Sql.exec, CertTable.updateStatusById, findById_updateWhere, h]
            rfl
        | _ => exact h
  | _ => exact h

end Rows

section Logs

variable {start : World} {id : Int} {row : CertIssue} {later earlier : Log}

theorem certAt_cons {entry : Nat × Event Op.Ans}
    (hanswered : Pool.Answered sem start (entry :: earlier))
    (h : certAt (stateAt start earlier) id = some row) :
    certAt (stateAt start (entry :: earlier)) id = some (rowAfter entry.2 row) := by
  have hstep := certAt_step entry.2.1 h
  have hanswer : entry.2.2 = (sem entry.2.1 (stateAt start earlier)).1 :=
    hanswered [] entry earlier rfl
  rw [← hanswer] at hstep
  exact hstep

theorem certAt_kept (hanswered : Pool.Answered sem start (later ++ earlier))
    (h : certAt (stateAt start earlier) id = some row)
    (hkeep : ∀ entry ∈ later, rowAfter entry.2 row = row) :
    certAt (stateAt start (later ++ earlier)) id = some row := by
  induction later with
  | nil => exact h
  | cons entry later ih =>
      have htail := ih (Pool.Answered.tail hanswered)
        fun other hother => hkeep other (List.mem_cons_of_mem _ hother)
      have hnow := certAt_cons hanswered htail
      rwa [hkeep entry List.mem_cons_self] at hnow

theorem certAt_settled (hanswered : Pool.Answered sem start (later ++ earlier))
    (h : certAt (stateAt start earlier) id = some row) (hsettled : row.status ≠ .normal) :
    certAt (stateAt start (later ++ earlier)) id = some row :=
  certAt_kept hanswered h fun entry _ => rowAfter_of_settled entry.2 hsettled

-- The row stays, with the data of its certificate.
theorem certAt_later (hanswered : Pool.Answered sem start (later ++ earlier))
    (h : certAt (stateAt start earlier) id = some row) :
    ∃ row', certAt (stateAt start (later ++ earlier)) id = some row' ∧ row'.id = row.id ∧
      row'.toNewCert = row.toNewCert := by
  induction later with
  | nil => exact ⟨row, h, rfl, rfl⟩
  | cons entry later ih =>
      obtain ⟨row', hrow', hid, hcert⟩ := ih (Pool.Answered.tail hanswered)
      exact ⟨rowAfter entry.2 row',
        certAt_cons hanswered hrow', by simpa using hid, by simpa using hcert⟩

-- After an update that covers the row it is not `Normal`.
theorem certAt_covered (hanswered : Pool.Answered sem start (later ++ earlier))
    (h : certAt (stateAt start earlier) id = some row) {entry : Nat × Event Op.Ans}
    (hentry : entry ∈ later) (hproper : Proper entry.2) (hcovers : Covers row entry.2) :
    ∃ row', certAt (stateAt start (later ++ earlier)) id = some row' ∧ row'.status ≠ .normal := by
  obtain ⟨last, first, rfl⟩ := List.append_of_mem hentry
  rw [List.append_assoc, List.cons_append] at hanswered ⊢
  have hbefore := Pool.Answered.of_append hanswered
  obtain ⟨row', hrow', hid, hcert⟩ := certAt_later (Pool.Answered.tail hbefore) h
  have hsettled := status_rowAfter_of_covers (hcovers.congr hid hcert) hproper
  exact ⟨_, certAt_settled hanswered (certAt_cons hbefore hrow') hsettled, hsettled⟩

-- This entry takes the certificate out of `Normal`.
def Retires (start : World) (id : Int) (entry : Nat × Event Op.Ans) (earlier : Log) : Prop :=
  ∃ row row', certAt (stateAt start earlier) id = some row ∧ row.status = .normal ∧
    certAt (stateAt start (entry :: earlier)) id = some row' ∧ row'.status ≠ .normal

theorem Retires.updates {entry : Nat × Event Op.Ans} (h : Retires start id entry earlier)
    (hanswered : Pool.Answered sem start (entry :: earlier)) :
    ∃ cond status, Certs.updates entry.2 = some (cond, status) := by
  obtain ⟨row, row', hrow, hnormal, hrow', hsettled⟩ := h
  rw [certAt_cons hanswered hrow, Option.some.injEq] at hrow'
  cases hupdates : Certs.updates entry.2 with
  | none =>
      rw [rowAfter, hupdates] at hrow'
      exact absurd (hrow' ▸ hnormal) hsettled
  | some update => exact ⟨update.1, update.2, rfl⟩

-- At most one entry does it.
theorem Retires.once {log later' earlier' : Log} {entry entry' : Nat × Event Op.Ans}
    (hanswered : Pool.Answered sem start log) (hlog : log = later ++ entry :: earlier)
    (hlog' : log = later' ++ entry' :: earlier') (h : Retires start id entry earlier)
    (h' : Retires start id entry' earlier') :
    later = later' ∧ entry = entry' ∧ earlier = earlier' := by
  have hover : ∀ {later entry earlier entry' earlier'}, log = later ++ entry :: earlier →
      Retires start id entry' earlier' → Retires start id entry earlier →
        ¬(entry' :: earlier') <:+ earlier := by
    rintro later entry earlier entry' earlier' hlog ⟨-, row', -, -, hrow', hsettled⟩ ⟨row, -, hrow,
      hnormal, -⟩ ⟨between, rfl⟩
    rw [hlog] at hanswered
    have hbefore := Pool.Answered.tail (Pool.Answered.of_append hanswered)
    rw [certAt_settled hbefore hrow' hsettled, Option.some.injEq] at hrow
    exact hsettled (hrow ▸ hnormal)
  rcases Pool.same_or_suffix_of_append_eq (hlog.symm.trans hlog') with hsame | hsuffix | hsuffix
  · exact hsame
  · exact absurd hsuffix (hover hlog' h h')
  · exact absurd hsuffix (hover hlog h' h)

end Logs

section Requests

abbrev found (id : Int) (cert : CertIssue) : Event Op.Ans := ⟨.sql (.findById id), .ok (some cert)⟩

abbrev updated (id : Int) (target : CertStatus) : Event Op.Ans :=
  ⟨.sql (.updateStatusById id target), .ok ()⟩

def Op.Quiet : Op → Prop
  | .sql (.updateStatus _ _ _) => False
  | .sql (.updateStatusById _ _) => False
  | _ => True

-- What a request may do: one lookup, and an update after a row was found that is `Normal`.
def UpdateRule : Request → Past → Op → Prop
  | .update req, past, .sql (.findById id) => req.id = some id ∧ past = []
  | .update req, past, .sql (.updateStatusById id target) => req.id = some id ∧ target ≠ .normal ∧
      ∃ cert, past = [found id cert] ∧ cert.status = .normal
  | .update req, _, .sql (.findByDeviceId _ _) => req.id = none
  | .update req, _, .sql (.updateStatus _ _ target) => req.id = none ∧ target ≠ .normal
  | .update _, _, _ => False
  | .issue _, _, op => op.Quiet

-- A request by id is answered with `204` exactly after an update that succeeded.
def Reports : Request → Reply → Past → Prop
  | .update req, reply, past => ∀ id, req.id = some id →
      (reply = .updated (.ok ()) → ∃ target cert, past = [updated id target, found id cert] ∧
        cert.status = .normal) ∧ ∀ target, updated id target ∈ past → reply = .updated (.ok ())
  | .issue _, _, _ => True

-- A request by id looks its certificate up, and then it may update it.
theorem UpdateRule.byId {req : UpdateCertStatusRequest} {id : Int} {past : Past} {op : Op}
    (h : UpdateRule (.update req) past op) (hid : req.id = some id) :
    (op = .sql (.findById id) ∧ past = []) ∨
      ∃ target cert, op = .sql (.updateStatusById id target) ∧ past = [found id cert] := by
  have hnone (hreq : req.id = none) : False := by
    rw [hid] at hreq
    cases hreq
  cases op with
  | sql stmt =>
      cases stmt with
      | findById certId =>
          have hsame : some id = some certId := hid.symm.trans h.1
          cases hsame
          exact .inl ⟨rfl, h.2⟩
      | updateStatusById certId target =>
          have hsame : some id = some certId := hid.symm.trans h.1
          cases hsame
          obtain ⟨-, -, cert, hpast, -⟩ := h
          exact .inr ⟨target, cert, rfl, hpast⟩
      | findByDeviceId productId deviceId => exact (hnone h).elim
      | updateStatus productId deviceId target => exact (hnone h.1).elim
      | create cert => exact h.elim
      | upsertDevice productId deviceId source => exact h.elim
  | nowUtc => exact h.elim
  | readToString fileName => exact h.elim
  | issueCert caCertPem caKeyPem productId deviceId startAt endAt => exact h.elim

theorem reports_refused {req : UpdateCertStatusRequest} (error : ApiError) {past : Past}
    (hpast : ∀ id target, updated id target ∉ past) :
    Reports (.update req) (.updated (.error error)) past := by
  intro id _
  constructor
  · intro h
    cases h
  · exact fun target hmem => absurd hmem (hpast id target)

-- An answer to a request without an id reports nothing of any id.
theorem reports_of_no_id {req : UpdateCertStatusRequest} (hid : req.id = none) (reply : Reply)
    (past : Past) :
    Reports (.update req) reply past := by
  intro id hreq
  rw [hid] at hreq
  cases hreq

theorem spec_update (req : UpdateCertStatusRequest) :
    Prog.Spec (UpdateRule (.update req)) (Reports (.update req)) (serve (.update req)) [] := by
  simp only [serve, Prog.bind_eq, updateCertStatusHandler]
  cases htarget : targetStatus req.status with
  | error error => exact reports_refused error (by simp)
  | ok target =>
      have hstatus := ne_normal_of_targetStatus htarget
      cases hid : req.id with
      | some certId =>
          refine ⟨⟨hid, rfl⟩, fun answer => ?_⟩
          rcases answer with error | _ | cert
          · exact reports_refused _ (by simp)
          · exact reports_refused _ (by simp)
          · simp only [Prog.pure_eq, Prog.ret_bind]
            split_ifs with hnormal
            · exact reports_refused _ (by simp)
            · refine ⟨⟨hid, hstatus, cert, rfl, by simpa using hnormal⟩, fun answer => ?_⟩
              rcases answer with error | _
              · exact reports_refused _ (by simp)
              · intro id hreq
                rw [hid, Option.some.injEq] at hreq
                subst hreq
                exact ⟨fun _ => ⟨target, cert, rfl, by simpa using hnormal⟩, fun _ _ => rfl⟩
      | none =>
          dsimp only
          split
          · exact reports_of_no_id hid _ _
          · split
            · exact reports_of_no_id hid _ _
            · refine ⟨hid, fun answer => ?_⟩
              rcases answer with error | _ | cert
              · exact reports_of_no_id hid _ _
              · exact reports_of_no_id hid _ _
              · simp only [Prog.pure_eq, Prog.ret_bind]
                split_ifs
                · exact reports_of_no_id hid _ _
                · refine ⟨⟨hid, hstatus⟩, fun answer => ?_⟩
                  rcases answer with error | _
                  · exact reports_of_no_id hid _ _
                  · exact reports_of_no_id hid _ _

theorem uses_checkExisting (req : IssueCertRequest) : (checkExisting req).Uses Op.Quiet := by
  unfold checkExisting
  split_ifs
  · trivial
  · refine ⟨trivial, fun answer => ?_⟩
    rcases answer with error | _ | cert
    · trivial
    · trivial
    · simp only [Prog.pure_eq, Prog.ret_bind]
      split_ifs
      · refine ⟨trivial, fun now => ?_⟩
        simp only [Prog.ret_bind]
        split_ifs
        · trivial
        · trivial
      · trivial

theorem uses_issue (req : IssueCertRequest) : (issueCertHandler req).Uses Op.Quiet := by
  unfold issueCertHandler
  split
  · trivial
  · split
    · trivial
    · apply Prog.Uses.bind (uses_checkExisting req)
      intro answer
      rcases answer with error | _
      · trivial
      · refine ⟨trivial, fun caCertPem => ?_⟩
        cases caCertPem with
        | error _ => trivial
        | ok _ =>
            refine ⟨trivial, fun caKeyPem => ?_⟩
            cases caKeyPem with
            | error _ => trivial
            | ok _ =>
                refine ⟨trivial, fun issued => ?_⟩
                cases issued with
                | error _ => trivial
                | ok _ =>
                    refine ⟨trivial, fun created => ?_⟩
                    rcases created with _ | _
                    · trivial
                    · refine ⟨trivial, fun upserted => ?_⟩
                      rcases upserted with _ | _
                      · trivial
                      · trivial

theorem spec_serve (request : Request) :
    Prog.Spec (UpdateRule request) (Reports request) (serve request) [] := by
  cases request with
  | update req => exact spec_update req
  | issue req =>
      have huses : (serve (.issue req)).Uses Op.Quiet := (uses_issue req).bind fun _ => trivial
      exact huses.spec (fun _ => True) (fun _ _ hop _ => hop) (fun _ _ _ _ _ => trivial) trivial

end Requests

section Truth

variable {start : World} {moves : List (Move Request)}

-- The certificate was retired by this thread.
def RetiredBy (start : World) (log : Log) (thread : Nat) (id : Int) : Prop :=
  ∃ later event earlier, log = later ++ (thread, event) :: earlier ∧
    Retires start id (thread, event) earlier

-- A request by this id has returned.
def ReturnedById (pool : Pool World Request Op.Ans Reply) (thread : Nat) (id : Int)
    (reply : Reply) : Prop :=
  ∃ req, pool.threads[thread]? = some ⟨.update req, .ret reply⟩ ∧ req.id = some id

-- A certificate leaves `Normal` at most once and does not change after that. A request by id
-- is answered with `204` exactly if its own update was the one, so at most one request is.
structure Truthful (start : World) (pool : Pool World Request Op.Ans Reply) : Prop where
  settled : ∀ later earlier, pool.log = later ++ earlier → ∀ id row,
    certAt (stateAt start earlier) id = some row →
    row.status ≠ .normal → certAt pool.state id = some row
  once : ∀ id later entry earlier later' entry' earlier', pool.log = later ++ entry :: earlier →
    pool.log = later' ++ entry' :: earlier' → Retires start id entry earlier →
      Retires start id entry' earlier' →
    later = later'
  answers : ∀ thread id reply, ReturnedById pool thread id reply →
    (reply = .updated (.ok ()) ↔ RetiredBy start pool.log thread id)
  exclusive : ∀ first second id, ReturnedById pool first id (.updated (.ok ())) →
    ReturnedById pool second id (.updated (.ok ())) → first = second

-- Between the lookup of a request by id and its update, no other update covers the row that it
-- found.
def Unraced (log : Log) : Prop := ∀ later thread id target middle cert earlier,
  log = later ++ (thread, updated id target) :: (middle ++ (thread, found id cert) :: earlier) →
    ∀ entry ∈ middle, ¬Covers cert entry.2

theorem answered_run (moves : List (Move Request)) (start : World) :
    Pool.Answered sem start (run moves start).log :=
  Pool.answered_play sem serve moves start

theorem proper_of_log {entry : Nat × Event Op.Ans} (h : entry ∈ (run moves start).log) :
    Proper entry.2 := by
  obtain ⟨later, earlier, hlog⟩ := List.append_of_mem h
  obtain ⟨⟨request, program⟩, -, hrule⟩ :=
    Pool.allowed_of_log sem serve spec_serve moves start later earlier entry.1 entry.2 hlog
  intro cond status hupdates
  unfold updates at hupdates
  split at hupdates
  · rename_i he
    rw [he] at hrule
    simp only [Option.some.injEq, Prod.mk.injEq] at hupdates
    cases request with
    | update req => exact hupdates.2 ▸ hrule.2
    | issue req => exact hrule.elim
  · rename_i he
    rw [he] at hrule
    simp only [Option.some.injEq, Prod.mk.injEq] at hupdates
    cases request with
    | update req => exact hupdates.2 ▸ hrule.2.1
    | issue req => exact hrule.elim
  · cases hupdates

-- What a lookup has found is there.
theorem certAt_of_found {thread : Nat} {id : Int} {cert : CertIssue} {earlier : Log}
    (hanswered : Pool.Answered sem start ((thread, found id cert) :: earlier)) :
    certAt (stateAt start ((thread, found id cert) :: earlier)) id = some cert := by
  have hanswer : (found id cert).2 = (sem (found id cert).1 (stateAt start earlier)).1 :=
    hanswered [] _ earlier rfl
  have hcert : certAt (stateAt start earlier) id = some cert := by
    rcases sem_sql_cases (stateAt start earlier) (.findById id) with ⟨error, hfault, -⟩ | ⟨hok, -⟩
    · rw [hfault] at hanswer
      cases hanswer
    · rw [hok] at hanswer
      exact (Except.ok.inj hanswer).symm
  exact certAt_cons hanswered hcert

-- A request whose update has succeeded has been answered with `204`.
theorem returned_of_updated {later earlier : Log} {thread : Nat} {id : Int} {target : CertStatus}
    (hlog : (run moves start).log = later ++ (thread, updated id target) :: earlier) :
    ReturnedById (run moves start) thread id (.updated (.ok ())) ∧
      ∃ cert, Pool.history thread earlier = [found id cert] := by
  obtain ⟨⟨request, program⟩, hserved, hrule⟩ :=
    Pool.allowed_of_log sem serve spec_serve moves start later earlier thread _ hlog
  have hspec := Pool.spec_play sem serve spec_serve moves start thread _ hserved
  have hmem : updated id target ∈ Pool.history thread (run moves start).log :=
    Pool.mem_history.mpr (by rw [hlog]; simp)
  cases request with
  | issue req => exact hrule.elim
  | update req =>
      obtain ⟨hid, -, cert, hhistory, -⟩ := hrule
      refine ⟨⟨req, ?_, hid⟩, cert, hhistory⟩
      cases program with
      | ret reply =>
          have hreply := (hspec id hid).2 target hmem
          rw [hserved, hreply]
      | call op next =>
          rcases UpdateRule.byId hspec.1 hid with ⟨-, hpast⟩ | ⟨_, _, -, hpast⟩
          · rw [hpast] at hmem
            cases hmem
          · rw [hpast] at hmem
            simp at hmem

theorem history_of_returned {thread : Nat} {id : Int}
    (h : ReturnedById (run moves start) thread id (.updated (.ok ()))) :
    ∃ target cert, Pool.history thread (run moves start).log = [updated id target, found id cert] ∧
      cert.status = .normal := by
  obtain ⟨req, hserved, hid⟩ := h
  have hspec := Pool.spec_play sem serve spec_serve moves start thread _ hserved
  exact (hspec id hid).1 rfl

-- The only update of a request by id is the one by its id.
theorem updated_of_retiredBy {thread : Nat} {id : Int} {reply : Reply}
    (hreturned : ReturnedById (run moves start) thread id reply)
    (h : RetiredBy start (run moves start).log thread id) :
    ∃ later target earlier, (run moves start).log = later ++ (thread, updated id target) ::
      earlier ∧ Retires start id (thread, updated id target) earlier := by
  obtain ⟨req, hserved, hid⟩ := hreturned
  obtain ⟨later, event, earlier, hlog, hretires⟩ := h
  obtain ⟨served, hserved', hrule⟩ :=
    Pool.allowed_of_log sem serve spec_serve moves start later earlier thread event hlog
  rw [hserved, Option.some.injEq] at hserved'
  subst hserved'
  have hanswered := answered_run moves start
  rw [hlog] at hanswered
  obtain ⟨cond, status, hupdates⟩ := hretires.updates (Pool.Answered.of_append hanswered)
  obtain ⟨op, answer⟩ := event
  rcases UpdateRule.byId hrule hid with ⟨rfl, -⟩ | ⟨target, cert, rfl, -⟩
  · cases hupdates
  · cases answer with
    | error text => cases hupdates
    | ok answer => exact ⟨later, target, earlier, hlog, hretires⟩

-- Without a race the certificate is as the lookup has found it when it is updated.
theorem retires_of_unraced {later middle earlier : Log} {thread : Nat} {id : Int}
    {target : CertStatus} {cert : CertIssue}
    (hlog : (run moves start).log = later ++ (thread, updated id target) ::
      (middle ++ (thread, found id cert) :: earlier))
    (hnormal : cert.status = .normal) (huncovered : ∀ entry ∈ middle, ¬Covers cert entry.2) :
    Retires start id (thread, updated id target) (middle ++ (thread, found id cert) ::
      earlier) := by
  have hanswered := answered_run moves start
  have hproper : Proper (updated id target) := by
    have hmem : (thread, updated id target) ∈ (run moves start).log := by
      rw [hlog]
      simp
    exact proper_of_log hmem
  rw [hlog] at hanswered
  have hupdate := Pool.Answered.of_append hanswered
  have hmiddle := Pool.Answered.tail hupdate
  have hfound := certAt_of_found (Pool.Answered.of_append hmiddle)
  have hrow := certAt_kept hmiddle hfound fun entry hentry => rowAfter_of_not_covers
      (huncovered entry hentry)
  have hid := List.find?_some (show List.find? (fun row : CertIssue => row.id == id) _ =
      some cert from hfound)
  refine ⟨cert, _, hrow, hnormal, certAt_cons hupdate hrow, ?_⟩
  exact status_rowAfter_of_covers ⟨_, target, rfl, hid⟩ hproper

-- After a race it is not, whatever the answer says.
theorem not_retires_of_covers {later middle earlier : Log} {thread : Nat} {id : Int}
    {target : CertStatus} {cert : CertIssue}
    (hlog : (run moves start).log = later ++ (thread, updated id target) ::
      (middle ++ (thread, found id cert) :: earlier))
    {entry : Nat × Event Op.Ans} (hentry : entry ∈ middle) (hcovers : Covers cert entry.2) :
    ¬Retires start id (thread, updated id target) (middle ++ (thread, found id cert) ::
      earlier) := by
  rintro ⟨row, -, hrow, hnormal, -⟩
  have hproper : Proper entry.2 := by
    have hmem : entry ∈ (run moves start).log := by
      rw [hlog]
      simp [hentry]
    exact proper_of_log hmem
  have hanswered := answered_run moves start
  rw [hlog] at hanswered
  have hmiddle := Pool.Answered.tail (Pool.Answered.of_append hanswered)
  have hfound := certAt_of_found (Pool.Answered.of_append hmiddle)
  obtain ⟨row', hrow', hsettled⟩ := certAt_covered hmiddle hfound hentry hproper hcovers
  rw [hrow', Option.some.injEq] at hrow
  exact hsettled (hrow ▸ hnormal)

-- A thread updates once.
theorem updated_unique {later earlier later' earlier' : Log} {thread : Nat} {id : Int}
    {target target' : CertStatus}
    (hlog : (run moves start).log = later ++ (thread, updated id target) :: earlier)
    (hlog' : (run moves start).log = later' ++ (thread, updated id target') :: earlier') :
    earlier = earlier' ∧ target = target' := by
  obtain ⟨-, cert, hhistory⟩ := returned_of_updated hlog
  obtain ⟨-, cert', hhistory'⟩ := returned_of_updated hlog'
  rcases Pool.same_or_mem_of_append_eq (hlog.symm.trans hlog') with
    ⟨-, hentry, hsame⟩ | ⟨-, hmem⟩ | ⟨-, hmem⟩
  · simp only [Prod.mk.injEq, Sigma.mk.injEq] at hentry
    simp_all
  · rw [← Pool.mem_history, hhistory] at hmem
    simp at hmem
  · rw [← Pool.mem_history, hhistory'] at hmem
    simp at hmem

theorem answers_of_unraced (h : Unraced (run moves start).log) {thread : Nat} {id : Int}
    {reply : Reply} (hreturned : ReturnedById (run moves start) thread id reply) :
    reply = .updated (.ok ()) ↔ RetiredBy start (run moves start).log thread id := by
  constructor
  · rintro rfl
    obtain ⟨target, cert, hhistory, hnormal⟩ := history_of_returned hreturned
    obtain ⟨later, before, hlog, -, hbefore⟩ := Pool.history_eq_cons hhistory
    obtain ⟨middle, earlier, rfl, -, -⟩ := Pool.history_eq_cons hbefore
    exact ⟨later, _, _, hlog, retires_of_unraced hlog hnormal (h _ _ _ _ _ _ _ hlog)⟩
  · intro hretired
    obtain ⟨later, target, earlier, hlog, -⟩ := updated_of_retiredBy hreturned hretired
    obtain ⟨⟨req, hserved, -⟩, -⟩ := returned_of_updated hlog
    obtain ⟨req', hserved', -⟩ := hreturned
    rw [hserved', Option.some.injEq, Thread.mk.injEq, Prog.ret.injEq] at hserved
    exact hserved.2

theorem unraced_of_truthful (h : Truthful start (run moves start)) :
    Unraced (run moves start).log := by
  intro later thread id target middle cert earlier hlog entry hentry hcovers
  obtain ⟨hreturned, -⟩ := returned_of_updated hlog
  have hretired := (h.answers thread id _ hreturned).mp rfl
  obtain ⟨later', target', earlier', hlog', hretires⟩ := updated_of_retiredBy hreturned hretired
  obtain ⟨rfl, rfl⟩ := updated_unique hlog hlog'
  exact not_retires_of_covers hlog hentry hcovers hretires

theorem truthful_iff_unraced (start : World) (moves : List (Move Request)) :
    Truthful start (run moves start) ↔ Unraced (run moves start).log := by
  have hanswered := answered_run moves start
  refine ⟨unraced_of_truthful, fun h => ⟨?_, ?_, fun _ _ _ => answers_of_unraced h, ?_⟩⟩
  · intro later earlier hlog id row hrow hsettled
    have hstate : (run moves start).state = stateAt start (run moves start).log :=
      Pool.state_eq_replay sem serve moves start
    rw [hstate, hlog]
    exact certAt_settled (hlog ▸ hanswered) hrow hsettled
  · intro id later entry earlier later' entry' earlier' hlog hlog' hretires hretires'
    exact (Retires.once hanswered hlog hlog' hretires hretires').1
  · intro first second id hfirst hsecond
    obtain ⟨later, event, earlier, hlog, hretires⟩ := (answers_of_unraced h hfirst).mp rfl
    obtain ⟨later', event', earlier', hlog', hretires'⟩ := (answers_of_unraced h hsecond).mp rfl
    have hsame := (Retires.once hanswered hlog hlog' hretires hretires').2.1
    exact congrArg Prod.fst hsame

-- Two requests with different targets find the certificate before either of them updates it.
def crossed : List (Move Request) :=
  [.spawn (.update ⟨some 1, "", "", 1⟩), .spawn (.update ⟨some 1, "", "", 2⟩), .step 0, .step 1,
    .step 0, .step 1]

theorem crossed_untruthful :
    ¬∀ (start : World) (moves : List (Move Request)), Truthful start (run moves start) := by
  intro h
  have hcrossed := h (.started (CertTable.empty.create ⟨"p", "d", "cert", 0, 100⟩ 0)) crossed
  have hsame := hcrossed.exclusive 0 1 1 ⟨_, rfl, rfl⟩ ⟨_, rfl, rfl⟩
  cases hsame

end Truth

end RmqttThings.Certs
