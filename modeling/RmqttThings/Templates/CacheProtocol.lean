import RmqttThings.Templates.SchemaCache
import RmqttThings.Templates.Progress

namespace RmqttThings.Templates

open Effects
open Commands (validateIdentifier extractAndValidateProductId)
open Access (extractEventIdentifierFromTopic)

section Table

variable {table table' : TemplateTable} {key : String × String} {id : Nat}
  {row : EventValidTemplate}

theorem activeRow_eq_some : table.activeRow key id = some row ↔
    table.rows id = some row ∧ row.status = .active ∧ row.key = key := by
  rw [TemplateTable.activeRow, Option.filter_eq_some_iff, Bool.and_eq_true, beq_iff_eq, beq_iff_eq]

theorem activeRow_eq_none (h : ∀ row, table.rows id = some row → row.status = .active →
    row.key ≠ key) :
    table.activeRow key id = none := by
  rw [Option.eq_none_iff_forall_not_mem]
  intro row hrow
  obtain ⟨hfound, hactive, hkey⟩ := activeRow_eq_some.mp hrow
  exact h row hfound hactive hkey

theorem activeRow_congr (h : table'.rows id = table.rows id) :
    table'.activeRow key id = table.activeRow key id := by
  rw [TemplateTable.activeRow, h, TemplateTable.activeRow]

-- One may look as far as one likes.
theorem activeTemplate_eq_findSome {bound : Nat} (h : table.nextId ≤ bound) :
    table.activeTemplate key = (List.range bound).findSome? (table.activeRow key) := by
  induction bound, h using Nat.le_induction with
  | base => rfl
  | succ bound hle ih =>
      have hnone : table.activeRow key bound = none :=
        activeRow_eq_none fun row hrow => by simp [table.fresh bound hle] at hrow
      rw [ih, List.range_succ, List.findSome?_append]
      simp [hnone]

theorem activeTemplate_congr (h : ∀ id, table'.activeRow key id = table.activeRow key id) :
    table'.activeTemplate key = table.activeTemplate key := by
  rw [activeTemplate_eq_findSome (Nat.le_max_left table'.nextId table.nextId),
    activeTemplate_eq_findSome (Nat.le_max_right table'.nextId table.nextId), funext h]

-- The call of the handlers is the call of the transactions.
theorem exec_eq_apply (request : Request) (table : TemplateTable) :
    (request.exec table).2 = request.apply table := by
  cases request with
  | insert productId event description schema => rfl
  | updateStatus id status =>
      rw [Request.exec, Request.apply, TemplateTable.updateStatus]
      cases table.rows id with
      | none => rfl
      | some row => rfl
  | update id schema description =>
      rw [Request.exec, Request.apply, TemplateTable.update]
      cases hrow : table.rows id with
      | none => rfl
      | some row =>
          by_cases hnothing : (schema.isNone && description.isNone) = true
          · simp only [Bool.and_eq_true, Option.isNone_iff_eq_none] at hnothing
            obtain ⟨rfl, rfl⟩ := hnothing
            refine TemplateTable.ext (fun other => ?_) rfl
            simp only [Option.isNone_none, Bool.and_self, if_true, Option.isSome_none,
              Bool.false_eq_true, false_and, if_false, TemplateTable.modify_rows]
            split_ifs with he
            · rw [he, hrow]
              rfl
            · rfl
          · simp only [hnothing, Bool.false_eq_true, if_false]
            split_ifs <;> rfl
  | delete id =>
      rw [Request.exec, Request.apply]
      cases hrow : table.rows id with
      | none =>
          refine TemplateTable.ext (fun other => ?_) rfl
          rw [TemplateTable.erase_rows]
          split_ifs with he
          · rw [he, hrow]
          · rfl
      | some row => rfl

-- A call touches what is Active for one product and event only: those of its template.
theorem apply_activeRow {request : Request}
    (hkey : ∀ id row, request.target = some id → table.rows id = some row → row.key ≠ key)
    (other : Nat) :
    (request.apply table).activeRow key other = table.activeRow key other := by
  rcases request.apply_rows table other with
    hsame | ⟨he, hdraft⟩ | ⟨id, template, row, htarget, htemplate, hrow, hrowKey, hkept⟩
  · exact activeRow_congr hsame
  · rw [activeRow_eq_none fun row hrow hactive => absurd hactive (hdraft row hrow),
      activeRow_eq_none]
    simp [table.fresh other he.ge]
  · have hne : row.key ≠ key := hrowKey ▸ hkey id template htarget htemplate
    rw [activeRow_eq_none fun row' hrow' _ => hkept row' hrow' ▸ hne, activeRow_eq_none]
    intro found hfound _
    rw [hrow, Option.some.injEq] at hfound
    exact hfound ▸ hne

-- The id is given out, and its row is of this product and event, as long as there is one.
def Keyed (id : Nat) (key : String × String) (table : TemplateTable) : Prop :=
  id < table.nextId ∧ ∀ row, table.rows id = some row → row.key = key

theorem keyed_of_row (h : table.rows id = some row) : Keyed id row.key table := by
  refine ⟨?_, fun found hfound => ?_⟩
  · by_contra hge
    simp [table.fresh id (by omega)] at h
  · rw [h, Option.some.injEq] at hfound
    rw [hfound]

theorem Keyed.apply (h : Keyed id key table) (request : Request) :
    Keyed id key (request.apply table) := by
  refine ⟨lt_of_lt_of_le h.1 (request.nextId_le_apply table), fun row' hrow' => ?_⟩
  rcases request.apply_rows table id with hsame | ⟨he, -⟩ | ⟨_, _, row, -, -, hrow, -, hkept⟩
  · exact h.2 row' (hsame.symm.trans hrow')
  · exact absurd he h.1.ne
  · exact (hkept row' hrow').trans (h.2 row hrow)

-- A call on a template that answers otherwise has done nothing.
theorem exec_effective {request : Request} (htarget : request.target = some id)
    (h : request.apply table ≠ table) :
    ∃ n, (request.exec table).1 = .ok (n + 1) := by
  rw [← exec_eq_apply] at h
  cases request with
  | insert => cases htarget
  | updateStatus target status =>
      rw [Request.exec] at h ⊢
      cases hfound : table.rows target with
      | none => simp [hfound] at h
      | some found => exact ⟨0, rfl⟩
  | update target schema description =>
      rw [Request.exec] at h ⊢
      cases hfound : table.rows target with
      | none => simp [hfound] at h
      | some found =>
          simp only [hfound] at h ⊢
          split_ifs at h ⊢
          · exact absurd rfl h
          · exact absurd rfl h
          · exact ⟨0, rfl⟩
  | delete target =>
      rw [Request.exec] at h ⊢
      cases hfound : table.rows target with
      | none => simp [hfound] at h
      | some found => exact ⟨0, rfl⟩

end Table

section Keys

variable {productId productId' event event' : String}

def ValidProduct (productId : String) : Prop :=
  (validateIdentifier productId "product_id").isOk = true

theorem ValidProduct.notMem (h : ValidProduct productId) : ':' ∉ productId.toList := by
  intro hmem
  have hnone : Commands.firstInvalidIdentifierChar productId = none := by
    unfold ValidProduct validateIdentifier at h
    split_ifs at h
    · cases h
    · cases h
    · cases hchar : Commands.firstInvalidIdentifierChar productId with
      | none => rfl
      | some char =>
          simp only [hchar] at h
          cases h
  have hcolon := List.find?_eq_none.mp hnone ':' hmem
  exact hcolon (by decide)

theorem validProduct_of_topic {topic : String}
    (h : extractAndValidateProductId topic = .ok productId) :
    ValidProduct productId := by
  unfold extractAndValidateProductId at h
  split at h
  · cases h
  · next found _ =>
    cases hcheck : validateIdentifier found "product_id" with
    | error error =>
        simp only [hcheck, bind, Except.bind] at h
        cases h
    | ok value =>
        simp only [hcheck, bind, Except.bind, pure, Except.pure, Except.ok.injEq] at h
        rw [ValidProduct, ← h, hcheck]
        rfl

theorem toList_eventCacheKey (productId event : String) : (eventCacheKey productId event).toList =
    "event".toList ++ ':' :: (productId.toList ++ ':' :: event.toList) := by
  simp [eventCacheKey, String.toList_append]

-- No product is called like the key of an event, whatever the event is.
theorem ne_eventCacheKey (h : ValidProduct productId) :
    productId ≠ eventCacheKey productId' event' := by
  intro he
  exact h.notMem (by simp [he, toList_eventCacheKey])

-- The event may have colons: the one behind the product is the first after the prefix.
theorem eventCacheKey_inj (h : ValidProduct productId) (h' : ValidProduct productId') :
    eventCacheKey productId event = eventCacheKey productId' event' ↔ productId = productId' ∧
      event = event' := by
  constructor
  · intro he
    have hlists := congrArg String.toList he
    rw [toList_eventCacheKey, toList_eventCacheKey, List.append_cancel_left_eq,
      List.cons.injEq] at hlists
    rcases Pool.same_or_mem_of_append_eq hlists.2 with ⟨hlist, -, hlist'⟩ | ⟨hmem, -⟩ | ⟨hmem, -⟩
    · exact ⟨String.toList_injective hlist, String.toList_injective hlist'⟩
    · exact absurd hmem h'.notMem
    · exact absurd hmem h.notMem
  · rintro ⟨rfl, rfl⟩
    rfl

-- A product and its events have keys of their own in the cache.
theorem cacheKey_injective (hproduct : ValidProduct productId) (hproduct' : ValidProduct productId')
    (h : cacheKey (productId, event) = cacheKey (productId', event')) :
    (productId, event) = (productId', event') := by
  unfold cacheKey at h
  by_cases hproperty : event = "property"
  · by_cases hproperty' : event' = "property"
    · simp only [hproperty, hproperty', BEq.rfl, if_true] at h
      rw [h, hproperty, hproperty']
    · simp only [hproperty, BEq.rfl, if_true, beq_iff_eq, hproperty', if_false] at h
      exact absurd h (ne_eventCacheKey hproduct)
  · by_cases hproperty' : event' = "property"
    · simp only [hproperty', BEq.rfl, if_true, beq_iff_eq, hproperty, if_false] at h
      exact absurd h.symm (ne_eventCacheKey hproduct')
    · simp only [beq_iff_eq, hproperty, hproperty', if_false] at h
      obtain ⟨rfl, rfl⟩ := (eventCacheKey_inj hproduct hproduct').mp h
      rfl

end Keys

section Programs

variable (compiles : Json → Bool) (metaValidate : Json → Except String Unit)

-- What comes before each operation in its thread, newest first.
def Rule (past : List (Event Op.Ans)) : Op → Prop
  | .cacheGet _ => past = []
  | .getActive productId event =>
      past = [⟨.cacheGet (cacheKey (productId, event)), .ok none⟩] ∧ ValidProduct productId
  | .cacheSet key schema =>
      ∃ productId event template, key = cacheKey (productId, event) ∧ ValidProduct productId ∧
      schema = template.schema ∧
      past = [⟨.getActive productId event, .ok (some template)⟩, ⟨.cacheGet key, .ok none⟩]
  | .getById _ => past = []
  | .write request => match request.target with
      | none => past = []
      | some id => ∃ template, past = [⟨.getById id, .ok template⟩]
  | .cacheRemove key =>
      ∃ id request n template, request.target = some id ∧ key = cacheKey template.key ∧
      past = [⟨.write request, .ok n⟩, ⟨.getById id, .ok (some template)⟩]

-- What a handler that changes a template has done in the end.
structure Invalidates (id : Nat) (request : Request) (reply : Reply) (past : List (Event Op.Ans)) :
    Prop where
  changed : reply = .ok → ∃ template n, ⟨.getById id, .ok template⟩ ∈ past ∧
    ⟨.write request, .ok (n + 1)⟩ ∈ past
  removed : ∀ template n, ⟨.getById id, .ok (some template)⟩ ∈ past →
    ⟨.write request, .ok (n + 1)⟩ ∈ past →
    ∃ answer, ⟨.cacheRemove (cacheKey template.key), answer⟩ ∈ past

-- What a post has done in the end: the schema is the one of the cache, or the one of the
-- database, which is in the cache from then on.
structure LoadsSchema (key : String × String) (reply : Reply) (past : List (Event Op.Ans)) :
    Prop where
  looked : ∀ schema, reply = .checked schema →
    (∃ found, schema = some found ∧ ⟨.cacheGet (cacheKey key), .ok schema⟩ ∈ past) ∨
    ∃ template : Option EventValidTemplate, schema = template.map (·.schema) ∧
      ⟨.cacheGet (cacheKey key), .ok none⟩ ∈ past ∧ ⟨.getActive key.1 key.2, .ok template⟩ ∈ past
  filled : ∀ template, ⟨.cacheGet (cacheKey key), .ok none⟩ ∈ past →
    ⟨.getActive key.1 key.2, .ok (some template)⟩ ∈ past → compiles template.schema = true →
      ∃ answer, ⟨.cacheSet (cacheKey key) template.schema, answer⟩ ∈ past

-- The row that a call changes, and how.
def Call.change : Call → Option (Nat × Request)
  | .updateStatus id status => some (id, .updateStatus id status)
  | .update id schema description => some (id, .update id schema description)
  | .delete id => some (id, .delete id)
  | .propertyPost _ | .eventPost _ | .create _ _ _ _ => none

-- The product and the event whose schema a post is checked against.
def Call.looksUp : Call → Option (String × String)
  | .propertyPost topic => (extractAndValidateProductId topic).toOption.map (·, "property")
  | .eventPost topic => (extractEventIdentifierFromTopic topic).bind fun event =>
      (extractAndValidateProductId topic).toOption.map (·, event)
  | .create _ _ _ _ | .updateStatus _ _ | .update _ _ _ | .delete _ => none

def Completes (call : Call) (reply : Reply) (past : List (Event Op.Ans)) : Prop :=
  (∀ id request, call.change = some (id, request) → Invalidates id request reply past) ∧
  ∀ key, call.looksUp = some key → LoadsSchema compiles key reply past

section Binds

variable {post : Reply → List (Event Op.Ans) → Prop} {past : List (Event Op.Ans)}

theorem spec_cacheGet {key : String} {next : Except String (Option Json) → M Reply} :
    Prog.Spec Rule post (cacheGet key >>= next) past ↔ Rule past (.cacheGet key) ∧
      ∀ answer, Prog.Spec Rule post (next answer) (⟨.cacheGet key, answer⟩ :: past) := Iff.rfl

theorem spec_cacheSet {key : String} {schema : Json} {next : Except String Unit → M Reply} :
    Prog.Spec Rule post (cacheSet key schema >>= next) past ↔ Rule past (.cacheSet key schema) ∧
      ∀ answer, Prog.Spec Rule post (next answer) (⟨.cacheSet key schema, answer⟩ :: past) :=
        Iff.rfl

theorem spec_getActive {productId event : String}
    {next : Except String (Option EventValidTemplate) → M Reply} :
    Prog.Spec Rule post (getEventValidTemplate productId event >>= next) past ↔
      Rule past (.getActive productId event) ∧
      ∀ answer, Prog.Spec Rule post (next answer) (⟨.getActive productId event, answer⟩ :: past) :=
        Iff.rfl

theorem spec_getById {id : Nat} {next : Except String (Option EventValidTemplate) → M Reply} :
    Prog.Spec Rule post (getEventValidTemplateById id >>= next) past ↔ Rule past (.getById id) ∧
      ∀ answer, Prog.Spec Rule post (next answer) (⟨.getById id, answer⟩ :: past) := Iff.rfl

theorem spec_write {request : Request} {next : Except String Nat → M Reply} :
    Prog.Spec Rule post (write request >>= next) past ↔ Rule past (.write request) ∧
      ∀ answer, Prog.Spec Rule post (next answer) (⟨.write request, answer⟩ :: past) := Iff.rfl

theorem spec_invalidate {template : EventValidTemplate} {reply : Reply} :
    Prog.Spec Rule post (invalidate (some template) >>= fun _ => pure reply) past ↔
      Rule past (.cacheRemove (cacheKey template.key)) ∧
        ∀ answer, post reply (⟨.cacheRemove (cacheKey template.key), answer⟩ :: past) := Iff.rfl

end Binds

-- An answer of the cache other than a miss leaves nothing to be filled in.
theorem LoadsSchema.of_answer {key : String × String} {reply : Reply}
    {answer : Except String (Option Json)} (hmiss : answer ≠ .ok none)
    (hlooked : ∀ schema, reply = .checked schema → ∃ found, schema = some found ∧
      answer = .ok schema) :
    LoadsSchema compiles key reply [⟨.cacheGet (cacheKey key), answer⟩] where
  looked := by
    intro schema hreply
    obtain ⟨found, hfound, rfl⟩ := hlooked schema hreply
    exact .inl ⟨found, hfound, List.mem_cons_self⟩
  filled := by
    intro template hnone
    cases List.mem_singleton.mp hnone
    exact absurd rfl hmiss

-- Nor does an answer of the database without a schema that compiles.
theorem LoadsSchema.of_missed {productId event : String} {reply : Reply}
    {answer : Except String (Option EventValidTemplate)}
    (hfound : ∀ template, answer = .ok (some template) → compiles template.schema = false)
    (hlooked : ∀ schema, reply = .checked schema → schema = none ∧ answer = .ok none) :
    LoadsSchema compiles (productId, event) reply
      [⟨.getActive productId event, answer⟩, ⟨.cacheGet (cacheKey (productId, event)),
        .ok none⟩] where
  looked := by
    intro schema hreply
    obtain ⟨rfl, rfl⟩ := hlooked schema hreply
    exact .inr ⟨none, rfl, List.mem_cons_of_mem _ List.mem_cons_self, List.mem_cons_self⟩
  filled := by
    intro template _ hmem hcompiles
    rcases List.mem_pair.mp hmem with he | he
    · cases he
      exact absurd (hfound template rfl) (by simp [hcompiles])
    · cases he

theorem spec_loadSchema {key productId event : String} (hkey : key = cacheKey (productId, event))
    (hvalid : ValidProduct productId) :
    Prog.Spec Rule (LoadsSchema compiles (productId, event))
      (loadSchema compiles key productId event) [] := by
  subst hkey
  rw [loadSchema, spec_cacheGet]
  refine ⟨rfl, ?_⟩
  rintro (message | (_ | schema))
  · exact .of_answer compiles (by simp) (by simp)
  · dsimp only
    rw [spec_getActive]
    refine ⟨⟨rfl, hvalid⟩, ?_⟩
    rintro (message | (_ | template))
    · exact .of_missed compiles (by simp) (by simp)
    · exact .of_missed compiles (by simp) (by simp)
    · dsimp only
      split_ifs with hcompiles
      · rw [spec_cacheSet]
        refine ⟨⟨productId, event, template, rfl, hvalid, rfl, rfl⟩, fun answer => ⟨?_, ?_⟩⟩
        · intro schema hreply
          cases hreply
          exact .inr ⟨some template, rfl, by simp, by simp⟩
        · intro found _ hmem _
          rcases List.mem_cons.mp hmem with he | hmem
          · cases he
          · rcases List.mem_pair.mp hmem with he | he
            · cases he
              exact ⟨answer, List.mem_cons_self⟩
            · cases he
      · exact .of_missed compiles (by simpa using hcompiles) (by simp)
  · dsimp only
    split_ifs
    · exact .of_answer compiles (by simp) (by simp)
    · exact .of_answer compiles (by simp) (by simp)

section Completes

variable {call : Call} {reply : Reply} {past : List (Event Op.Ans)}

theorem Completes.of_neither (hchange : call.change = none) (hlooks : call.looksUp = none) :
    Completes compiles call reply past :=
  ⟨by simp [hchange], by simp [hlooks]⟩

theorem Completes.of_change {id : Nat} {request : Request}
    (hchange : call.change = some (id, request)) (hlooks : call.looksUp = none)
    (h : Invalidates id request reply past) :
    Completes compiles call reply past := by
  refine ⟨fun other otherRequest hother => ?_, by simp [hlooks]⟩
  rw [hchange] at hother
  cases hother
  exact h

theorem Completes.of_post {key : String × String} (hchange : call.change = none)
    (hlooks : call.looksUp = some key) (h : LoadsSchema compiles key reply past) :
    Completes compiles call reply past := by
  refine ⟨by simp [hchange], fun other hother => ?_⟩
  rw [hlooks] at hother
  cases hother
  exact h

end Completes

theorem spec_propertyPost (topic : String) :
    Prog.Spec Rule (Completes compiles (.propertyPost topic)) (propertyPost compiles topic) [] := by
  unfold propertyPost
  split
  · next htopic => exact .of_neither compiles rfl (by simp [Call.looksUp, htopic, Except.toOption])
  · next productId htopic =>
    have hkey : productId = cacheKey (productId, "property") := by simp [cacheKey]
    have hlooks : (Call.propertyPost topic).looksUp = some (productId, "property") := by
      simp [Call.looksUp, htopic, Except.toOption]
    exact (spec_loadSchema compiles hkey (validProduct_of_topic htopic)).mono
      fun _ _ hloads => .of_post compiles rfl hlooks hloads

theorem spec_eventPost (topic : String) :
    Prog.Spec Rule (Completes compiles (.eventPost topic)) (eventPost compiles topic) [] := by
  unfold eventPost
  split
  · next hevent =>
    have hlooks : (Call.eventPost topic).looksUp = none := by simp [Call.looksUp, hevent]
    split
    · exact .of_neither compiles rfl hlooks
    · exact .of_neither compiles rfl hlooks
  · next event hevent =>
    split_ifs with hproperty
    · -- the event called property is a post of properties
      have hlooks : (Call.eventPost topic).looksUp = (Call.propertyPost topic).looksUp := by
        simp [Call.looksUp, hevent, hproperty]
      exact (spec_propertyPost compiles topic).mono
        fun _ _ hdone => ⟨by simp [Call.change], hlooks ▸ hdone.2⟩
    · split
      · next htopic =>
        exact .of_neither compiles rfl (by simp [Call.looksUp, hevent, htopic, Except.toOption])
      · next productId htopic =>
        have hkey : eventCacheKey productId event = cacheKey (productId, event) := by
          simp [cacheKey, hproperty]
        have hlooks : (Call.eventPost topic).looksUp = some (productId, event) := by
          simp [Call.looksUp, hevent, htopic, Except.toOption]
        exact (spec_loadSchema compiles hkey (validProduct_of_topic htopic)).mono
          fun _ _ hloads => .of_post compiles rfl hlooks hloads

-- A handler that finds the row gone, or is refused, has changed nothing.
theorem Invalidates.of_unchanged {id : Nat} {request : Request} {reply : Reply}
    {past : List (Event Op.Ans)}
    (hreply : reply ≠ .ok) (hpast : ∀ n, (⟨.write request, .ok (n + 1)⟩ : Event Op.Ans) ∉ past) :
    Invalidates id request reply past where
  changed h := absurd h hreply
  removed _ n _ hwrite := absurd hwrite (hpast n)

section Writes

variable {id : Nat} {request : Request} {answer : Except String Nat}

theorem notMem_getById {found : Except String (Option EventValidTemplate)} (n : Nat) :
    (⟨.write request, .ok (n + 1)⟩ : Event Op.Ans) ∉ [⟨.getById id, found⟩] := by
  intro hmem
  cases List.mem_singleton.mp hmem

theorem notMem_write {found : Except String (Option EventValidTemplate)}
    (h : ∀ n, answer ≠ .ok (n + 1)) (n : Nat) :
    (⟨.write request, .ok (n + 1)⟩ : Event Op.Ans) ∉ [⟨.write request, answer⟩,
      ⟨.getById id, found⟩] := by
  intro hmem
  rcases List.mem_pair.mp hmem with he | he
  · cases he
    exact h n rfl
  · cases he

end Writes

theorem spec_writeTemplate {id : Nat} {request : Request} (htarget : request.target = some id)
    (template : Option EventValidTemplate) (failure : String → Api.ApiError)
    (missing : Api.ApiError) :
    Prog.Spec Rule (Invalidates id request) (writeTemplate template request failure missing)
      [⟨.getById id, .ok template⟩] := by
  rw [writeTemplate, spec_write]
  refine ⟨by simp only [Rule, htarget]; exact ⟨template, rfl⟩, ?_⟩
  rintro (message | rowsAffected)
  · exact .of_unchanged (by simp) (notMem_write (by simp))
  · dsimp only
    split_ifs with hpos
    · obtain ⟨n, rfl⟩ := Nat.exists_eq_succ_of_ne_zero hpos.ne'
      cases template with
      | none =>
          refine ⟨fun _ => ⟨none, n, by simp, by simp⟩, fun found m hmem => ?_⟩
          rcases List.mem_pair.mp hmem with he | he
          · cases he
          · cases he
      | some template =>
          rw [spec_invalidate]
          refine ⟨⟨id, request, n + 1, template, htarget, rfl, rfl⟩, fun answer => ⟨?_, ?_⟩⟩
          · exact fun _ => ⟨some template, n, by simp, by simp⟩
          · intro found m hmem _
            rcases List.mem_cons.mp hmem with he | hmem
            · cases he
            · rcases List.mem_pair.mp hmem with he | he
              · cases he
              · cases he
                exact ⟨answer, List.mem_cons_self⟩
    · obtain rfl : rowsAffected = 0 := by omega
      exact .of_unchanged (by simp) (notMem_write (by simp))

-- What the three handlers of a change share: the template is looked for first.
theorem spec_change {call : Call} {id : Nat} {request : Request} {error : Api.ApiError}
    {next : Except String (Option EventValidTemplate) → M Reply}
    (hchange : call.change = some (id, request)) (hlooks : call.looksUp = none)
    (hfailed : ∀ message, next (.error message) = pure (.error error))
    (hfound : ∀ template, Prog.Spec Rule (Invalidates id request) (next (.ok template))
      [⟨.getById id, .ok template⟩]) :
    Prog.Spec Rule (Completes compiles call) (getEventValidTemplateById id >>= next) [] := by
  rw [spec_getById]
  refine ⟨rfl, ?_⟩
  rintro (message | template)
  · rw [hfailed]
    exact .of_change compiles hchange hlooks (.of_unchanged (by simp) notMem_getById)
  · exact (hfound template).mono fun _ _ hdone => .of_change compiles hchange hlooks hdone

theorem spec_serve (call : Call) :
    Prog.Spec Rule (Completes compiles call) (serve compiles metaValidate call) [] := by
  cases call with
  | propertyPost topic => exact spec_propertyPost compiles topic
  | eventPost topic => exact spec_eventPost compiles topic
  | create productId event description schema =>
      rw [serve, createEventValidTemplate]
      split
      · exact .of_neither compiles rfl rfl
      · split
        · exact .of_neither compiles rfl rfl
        · rw [spec_write]
          refine ⟨rfl, ?_⟩
          rintro (message | id)
          · exact .of_neither compiles rfl rfl
          · exact .of_neither compiles rfl rfl
  | updateStatus id status =>
      rw [serve, updateEventValidTemplateStatus]
      apply spec_change compiles rfl rfl fun _ => rfl
      exact fun template => spec_writeTemplate rfl template _ _
  | update id schema description =>
      rw [serve, updateEventValidTemplate]
      apply spec_change compiles rfl rfl fun _ => rfl
      intro template
      dsimp only
      split
      · exact .of_unchanged (by simp) notMem_getById
      · exact spec_writeTemplate rfl template _ _
  | delete id =>
      rw [serve, deleteEventValidTemplate]
      apply spec_change compiles rfl rfl fun _ => rfl
      exact fun template => spec_writeTemplate rfl template _ _

-- The product of a new template has been validated.
def Request.Valid : Request → Prop
  | .insert productId _ _ _ => ValidProduct productId
  | _ => True

-- What a handler writes into the table is its own change, or a new template of a valid product.
def Call.Writes (call : Call) : Op → Prop
  | .write request =>
      request.Valid ∧ ∀ id, request.target = some id → call.change = some (id, request)
  | _ => True

theorem Call.writes_change {call : Call} {id : Nat} {request : Request}
    (htarget : request.target = some id) (hchange : call.change = some (id, request)) :
    call.Writes (.write request) := by
  refine ⟨?_, fun other hother => ?_⟩
  · cases request with
    | insert => cases htarget
    | updateStatus | update | delete => trivial
  · rwa [← Option.some.inj (htarget.symm.trans hother)]

theorem writes_loadSchema (call : Call) (key productId event : String) :
    (loadSchema compiles key productId event).Uses call.Writes := by
  refine Prog.Uses.perform trivial ?_
  rintro (message | (_ | schema))
  · trivial
  · refine Prog.Uses.perform trivial ?_
    rintro (message | (_ | template))
    · trivial
    · trivial
    · dsimp only
      split_ifs
      · exact ⟨trivial, fun _ => trivial⟩
      · trivial
  · dsimp only
    split_ifs <;> trivial

theorem writes_propertyPost (call : Call) (topic : String) :
    (propertyPost compiles topic).Uses call.Writes := by
  rw [propertyPost]
  split
  · trivial
  · exact writes_loadSchema ..

theorem writes_writeTemplate {call : Call} {request : Request} (h : call.Writes (.write request))
    (template : Option EventValidTemplate) (failure : String → Api.ApiError)
    (missing : Api.ApiError) :
    (writeTemplate template request failure missing).Uses call.Writes := by
  refine Prog.Uses.perform h ?_
  rintro (message | rowsAffected)
  · trivial
  · dsimp only
    split_ifs
    · cases template with
      | none => trivial
      | some template => exact ⟨trivial, fun _ => trivial⟩
    · trivial

theorem writes_serve (call : Call) : (serve compiles metaValidate call).Uses call.Writes := by
  cases call with
  | propertyPost topic => exact writes_propertyPost compiles _ topic
  | eventPost topic =>
      rw [serve, eventPost]
      split
      · split <;> trivial
      · split_ifs
        · exact writes_propertyPost compiles _ topic
        · split
          · trivial
          · exact writes_loadSchema ..
  | create productId event description schema =>
      rw [serve, createEventValidTemplate]
      split
      · trivial
      · next hproduct =>
        split
        · trivial
        · have hvalid : ValidProduct productId := by
            rw [ValidProduct, hproduct]
            rfl
          refine Prog.Uses.perform ⟨hvalid, by simp [Request.target]⟩ ?_
          rintro (message | id) <;> trivial
  | updateStatus id status =>
      refine Prog.Uses.perform trivial ?_
      rintro (message | template)
      · trivial
      · exact writes_writeTemplate (Call.writes_change rfl rfl) ..
  | update id schema description =>
      refine Prog.Uses.perform trivial ?_
      rintro (message | template)
      · trivial
      · dsimp only
        split
        · trivial
        · exact writes_writeTemplate (Call.writes_change rfl rfl) ..
  | delete id =>
      refine Prog.Uses.perform trivial ?_
      rintro (message | template)
      · trivial
      · exact writes_writeTemplate (Call.writes_change rfl rfl) ..

end Programs

end RmqttThings.Templates
