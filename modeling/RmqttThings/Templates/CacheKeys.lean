import RmqttThings.Templates.CacheCoherence

namespace RmqttThings.Templates

open Effects
open Commands (validateIdentifier)

section Table

variable {table : TemplateTable} {key : String × String} {template : EventValidTemplate}

theorem key_of_activeTemplate (h : table.activeTemplate key = some template) :
    template.key = key := by
  obtain ⟨id, -, hrow⟩ := List.exists_of_findSome?_eq_some h
  exact (activeRow_eq_some.mp hrow).2.2

theorem Request.apply_nextId {request : Request} {id : Nat} (h : request.target = some id) :
    (request.apply table).nextId = table.nextId := by
  cases request with
  | insert => cases h
  | updateStatus target status => exact TemplateTable.updateStatus_nextId ..
  | update target schema description =>
      rw [apply, TemplateTable.update]
      cases table.rows target with
      | none => rfl
      | some row =>
          dsimp only
          split_ifs <;> rfl
  | delete target => rfl

-- The products of the templates have been validated.
def ValidRows (table : TemplateTable) : Prop :=
  ∀ id row, table.rows id = some row → ValidProduct row.productId

theorem ValidRows.apply (h : ValidRows table) {request : Request} (hrequest : request.Valid) :
    ValidRows (request.apply table) := by
  intro other row hrow
  cases htarget : request.target with
  | none =>
      cases request with
      | insert productId event description schema =>
          rw [Request.apply, TemplateTable.insert_rows] at hrow
          split_ifs at hrow with he
          · rw [Option.some.injEq] at hrow
            exact hrow ▸ hrequest
          · exact h other row hrow
      | updateStatus | update | delete => cases htarget
  | some id =>
      rcases request.apply_rows table other with
        hsame | ⟨he, -⟩ | ⟨_, _, found, -, -, hfound, -, hkept⟩
      · exact h other row (hsame ▸ hrow)
      · have hnone := (request.apply table).fresh other (by rw [Request.apply_nextId htarget, he])
        rw [hnone] at hrow
        cases hrow
      · have hkey : row.productId = found.productId := congrArg Prod.fst (hkept row hrow)
        exact hkey ▸ h other found hfound

end Table

section Runs

variable {compiles : Json → Bool} {metaValidate : Json → Except String Unit}
  {moves : List (Move Call)} {start : SchemaWorld} {log : Log}
  {template template' : EventValidTemplate} {key key' : String}

theorem validRows_replay (hstart : ValidRows start.templates)
    (hlog : Pool.Justified sem (fun _ _ op => ∃ call : Call, call.Writes op) start log) :
    ValidRows (Pool.replay sem start log).templates := by
  induction log with
  | nil => exact hstart
  | cons entry log ih =>
      obtain ⟨thread, op, answer⟩ := entry
      obtain ⟨⟨call, hop⟩, -, hrest⟩ := hlog
      rcases sem_templates op (Pool.replay sem start log) with hsame | ⟨request, rfl, -, happly⟩
      · rw [Pool.replay, hsame]
        exact ih hrest
      · rw [Pool.replay, happly]
        exact (ih hrest).apply hop.1

theorem validRows_served (hstart : ValidRows start.templates) {earlier : Log}
    (h : earlier <:+ (served compiles metaValidate moves start).log) :
    ValidRows (Pool.replay sem start earlier).templates := by
  have hlog := Pool.justified_play sem (serve compiles metaValidate)
      (spec_writes compiles metaValidate) moves start
  exact validRows_replay hstart
    ((hlog.mono fun _ _ _ ⟨served, _, hop⟩ => ⟨served.request, hop⟩).suffix h)

-- A handler has found and changed the template, and has removed the key.
def Removed (log : Log) (template : EventValidTemplate) (key : String) : Prop :=
  ∃ later thread answer earlier id request n, log = later ++ (thread, ⟨.cacheRemove key, answer⟩) ::
    earlier ∧ request.target = some id ∧
    Pool.history thread earlier = [⟨.write request, .ok n⟩, ⟨.getById id, .ok (some template)⟩]

-- A post has found the template, which was not in the cache, and has put its schema there.
def Cached (log : Log) (template : EventValidTemplate) (key : String) : Prop :=
  ∃ later thread answer earlier, log = later ++ (thread, ⟨.cacheSet key template.schema, answer⟩) ::
    earlier ∧ Pool.history thread earlier =
      [⟨.getActive template.productId template.event, .ok (some template)⟩,
        ⟨.cacheGet key, .ok none⟩]

theorem key_of_removed (hstart : ValidRows start.templates)
    (h : Removed (served compiles metaValidate moves start).log template key) :
    key = cacheKey template.key ∧ ValidProduct template.productId := by
  obtain ⟨later, thread, answer, earlier, id, request, n, hlog, -, hpast⟩ := h
  obtain ⟨_, _, _, found, -, rfl, hrule⟩ := rule_of_log hlog
  cases hpast.symm.trans hrule
  refine ⟨rfl, ?_⟩
  -- the row was there when the handler looked for it
  obtain ⟨between, before, rfl, -, -⟩ := Pool.history_eq_append [_] hpast
  have hread : (served compiles metaValidate moves start).log =
      (later ++ (thread, ⟨.cacheRemove (cacheKey template.key), answer⟩) :: between) ++
        (thread, ⟨.getById id, .ok (some template)⟩) :: before := by
    simp [hlog]
  have hrow := row_of_answer (answer_of_log hread)
  exact validRows_served hstart (Pool.suffix_of_eq_append hread) id template hrow

theorem key_of_cached (h : Cached (served compiles metaValidate moves start).log template key) :
    key = cacheKey template.key ∧ ValidProduct template.productId := by
  obtain ⟨later, thread, answer, earlier, hlog, hpast⟩ := h
  obtain ⟨productId, event, found, rfl, hvalid, -, hrule⟩ := rule_of_log hlog
  cases hpast.symm.trans hrule
  exact ⟨rfl, hvalid⟩

-- The thread has performed the operation, with this answer.
def Performed (pool : Served) (thread : Nat) (op : Op) (answer : op.Ans) : Prop :=
  (thread, ⟨op, answer⟩) ∈ pool.log

-- Every key that is removed is removed for a template, every key that is filled is filled for
-- one, and the two keys are the same exactly if product and event are. A handler that has found
-- its template and has changed the row removes the key of the template before it ends, and a
-- post that has missed and has found a template that compiles fills it.
structure KeysExact (compiles : Json → Bool) (pool : Served) : Prop where
  removal : ∀ thread key answer, Performed pool thread (.cacheRemove key) answer →
    ∃ template, Removed pool.log template key
  fill : ∀ thread key schema answer, Performed pool thread (.cacheSet key schema) answer →
    ∃ template, template.schema = schema ∧ Cached pool.log template key
  same : ∀ template template' key key', Removed pool.log template key →
    Cached pool.log template' key' → (key = key' ↔ template.key = template'.key)
  changed : ∀ thread call id request, pool.threads[thread]? = some ⟨call, .ret .ok⟩ →
    call.change = some (id, request) →
      ∃ template n, Performed pool thread (.getById id) (.ok template) ∧
        Performed pool thread (.write request) (.ok (n + 1))
  removed : ∀ thread call reply id request template n,
    pool.threads[thread]? = some ⟨call, .ret reply⟩ → call.change = some (id, request) →
    Performed pool thread (.getById id) (.ok (some template)) →
    Performed pool thread (.write request) (.ok (n + 1)) →
      ∃ answer, Performed pool thread (.cacheRemove (cacheKey template.key)) answer
  looked : ∀ thread call schema key,
    pool.threads[thread]? = some ⟨call, .ret (.checked schema)⟩ → call.looksUp = some key →
      (∃ found, schema = some found ∧
        Performed pool thread (.cacheGet (cacheKey key)) (.ok schema)) ∨
      ∃ template : Option EventValidTemplate, schema = template.map (·.schema) ∧
        Performed pool thread (.cacheGet (cacheKey key)) (.ok none) ∧
        Performed pool thread (.getActive key.1 key.2) (.ok template)
  filled : ∀ thread call reply key template, pool.threads[thread]? = some ⟨call, .ret reply⟩ →
    call.looksUp = some key → Performed pool thread (.cacheGet (cacheKey key)) (.ok none) →
    Performed pool thread (.getActive key.1 key.2) (.ok (some template)) →
    compiles template.schema = true →
      template.key = key ∧
      ∃ answer, Performed pool thread (.cacheSet (cacheKey template.key) template.schema) answer

theorem keysExact_served (compiles : Json → Bool) (metaValidate : Json → Except String Unit)
    (moves : List (Move Call)) (hstart : ValidRows start.templates) :
    KeysExact compiles (served compiles metaValidate moves start) where
  removal := by
    intro thread key answer hmem
    obtain ⟨later, earlier, hlog⟩ := List.append_of_mem hmem
    obtain ⟨id, request, n, template, htarget, -, hpast⟩ := rule_of_log hlog
    exact ⟨template, later, thread, answer, earlier, id, request, n, hlog, htarget, hpast⟩
  fill := by
    intro thread key schema answer hmem
    obtain ⟨later, earlier, hlog⟩ := List.append_of_mem hmem
    obtain ⟨productId, event, template, rfl, -, rfl, hpast⟩ := rule_of_log hlog
    -- the template is one of the product and the event that were asked for
    obtain ⟨between, before, rfl, -, -⟩ := Pool.history_eq_cons hpast
    have hread : (served compiles metaValidate moves start).log =
        (later ++ (thread, ⟨.cacheSet (cacheKey (productId, event)) template.schema, answer⟩) ::
          between) ++
          (thread, ⟨.getActive productId event, .ok (some template)⟩) :: before := by
      simp [hlog]
    have hkey := key_of_activeTemplate (template_of_answer (answer_of_log hread))
    obtain ⟨rfl, rfl⟩ := Prod.mk.inj hkey
    exact ⟨template, rfl, later, thread, answer, _, hlog, hpast⟩
  same := by
    intro template template' key key' hremoved hcached
    obtain ⟨rfl, hvalid⟩ := key_of_removed hstart hremoved
    obtain ⟨rfl, hvalid'⟩ := key_of_cached hcached
    constructor
    · exact fun he => cacheKey_injective hvalid hvalid' he
    · intro he
      rw [he]
  changed := by
    intro thread call id request hthread hchange
    obtain ⟨template, n, hfound, hwrite⟩ :=
      ((completes_served hthread).1 id request hchange).changed rfl
    exact ⟨template, n, Pool.mem_history.mp hfound, Pool.mem_history.mp hwrite⟩
  removed := by
    intro thread call reply id request template n hthread hchange hfound hwrite
    obtain ⟨answer, hremoval⟩ :=
      ((completes_served hthread).1 id request hchange).removed template n
      (Pool.mem_history.mpr hfound) (Pool.mem_history.mpr hwrite)
    exact ⟨answer, Pool.mem_history.mp hremoval⟩
  looked := by
    intro thread call schema key hthread hlooks
    simpa only [Pool.mem_history, Performed] using
      ((completes_served hthread).2 key hlooks).looked schema rfl
  filled := by
    intro thread call reply key template hthread hlooks hmiss hfound hcompiles
    obtain ⟨later, earlier, hread⟩ := List.append_of_mem hfound
    have hkey : template.key = key :=
      key_of_activeTemplate (template_of_answer (answer_of_log hread))
    obtain ⟨answer, hfill⟩ := ((completes_served hthread).2 key hlooks).filled template
      (Pool.mem_history.mpr hmiss) (Pool.mem_history.mpr hfound) hcompiles
    exact ⟨hkey, answer, hkey ▸ Pool.mem_history.mp hfill⟩

-- The key of property_post is the product itself. For all valid products and for events of any
-- text the keys are apart, so a handler drops the cached schema of its template and of no other.
theorem schema_keys_exact (compiles : Json → Bool) (metaValidate : Json → Except String Unit)
    (moves : List (Move Call)) {start : SchemaWorld} (hstart : ValidRows start.templates) :
    (∀ productId productId' event event', ValidProduct productId → ValidProduct productId' →
      productId ≠ eventCacheKey productId' event' ∧
      (eventCacheKey productId event = eventCacheKey productId' event' ↔
        productId = productId' ∧ event = event')) ∧
    KeysExact compiles (served compiles metaValidate moves start) := by
  constructor
  · intro productId productId' event event' hvalid hvalid'
    exact ⟨ne_eventCacheKey hvalid, eventCacheKey_inj hvalid hvalid'⟩
  · exact keysExact_served compiles metaValidate moves hstart

-- A post fills the cache, and the deactivation of the template empties it.
theorem sensor_keys_exact :
    let pool := served (fun _ => true) (fun _ => .ok ()) timelyMoves sensorWorld
    "sensor" ≠ eventCacheKey "sensor" "property" ∧ KeysExact (fun _ => true) pool ∧
      (∃ template, template.schema = .object [] ∧ Cached pool.log template "sensor") ∧
      ∃ answer, Performed pool 1 (.cacheRemove (cacheKey ("sensor", "property"))) answer := by
  intro pool
  have hvalid : ValidProduct "sensor" := by unfold ValidProduct; decide +kernel
  have hstart : ValidRows sensorWorld.templates := by
    intro id row hrow
    rw [sensorWorld, TemplateTable.insert_rows] at hrow
    split_ifs at hrow with he
    · rw [Option.some.injEq] at hrow
      exact hrow ▸ hvalid
    · cases hrow
  obtain ⟨hkeys, hexact⟩ := schema_keys_exact (fun _ => true) (fun _ => .ok ()) timelyMoves hstart
  refine ⟨(hkeys "sensor" "sensor" "property" "property" hvalid hvalid).1, hexact, ?_, ?_⟩
  · exact hexact.fill 0 "sensor" (.object []) (.ok ()) (List.mem_of_getElem? (i := 1) rfl)
  · exact hexact.removed 1 (.updateStatus 1 .inactive) .ok 1 _ sensorTemplate 0 rfl rfl
      (List.mem_of_getElem? (i := 3) rfl) (List.mem_of_getElem? (i := 2) rfl)

end Runs

end RmqttThings.Templates
