import RmqttThings.Templates.CacheProtocol

namespace RmqttThings.Templates

open Effects

abbrev Log := List (Nat × Event Op.Ans)

section Order

-- The schema that the database has for the key.
def activeSchema (key : String × String) (world : SchemaWorld) : Option Json :=
  (world.templates.activeTemplate key).map (·.schema)

-- Whatever is in the cache for a product and an event is the schema of its Active template.
def Coherent (world : SchemaWorld) : Prop :=
  ∀ productId event schema, ValidProduct productId → world.cache (cacheKey (productId, event)) =
    some schema → activeSchema (productId, event) world = some schema

-- The event is a change of a template that has been made.
def changed : Event Op.Ans → Bool
  | ⟨.write _, .ok (_ + 1)⟩ => true
  | _ => false

def removed (key : String) : Event Op.Ans → Bool
  | ⟨.cacheRemove other, .ok _⟩ => other == key
  | _ => false

def notFound : Event Op.Ans → Bool
  | ⟨.getById _, .ok none⟩ => true
  | _ => false

def removeFailed : Event Op.Ans → Bool
  | ⟨.cacheRemove _, .error _⟩ => true
  | _ => false

-- One handler has made a change and has removed the key.
def invalidated (key : String) (log : Log) : Bool :=
  log.any fun entry => removed key entry.2 && log.any fun other => other.1 == entry.1 &&
    changed other.2

-- What has happened since the last operation of the thread.
def since (thread : Nat) (earlier : Log) : Log := earlier.takeWhile fun entry => entry.1 != thread

-- A schema goes into the cache, and since it was read a handler has been through.
def late (entry : Nat × Event Op.Ans) (earlier : Log) : Bool :=
  match entry with
  | (thread, ⟨.cacheSet key _, _⟩) => invalidated key (since thread earlier)
  | _ => false

theorem late_set {thread : Nat} {key : String} {schema : Json} {filled : Except String Unit}
    {earlier : Log} :
    late (thread, ⟨.cacheSet key schema, filled⟩) earlier = invalidated key
      (since thread earlier) := rfl

def lateFill : Log → Bool
  | [] => false
  | entry :: earlier => late entry earlier || lateFill earlier

-- A change by a handler that had not found the template when it looked for it.
def blindWrite (log : Log) : Bool :=
  log.any fun entry => changed entry.2 && log.any fun other => other.1 == entry.1 &&
    notFound other.2

-- No schema goes into the cache behind the back of a handler, every handler that changes a
-- template has found it before, and the cache does as it is told.
structure Orderly (log : Log) : Prop where
  inTime : lateFill log = false
  found : blindWrite log = false
  removed : (log.any fun entry => removeFailed entry.2) = false

theorem since_eq {thread : Nat} {between before : Log} {event : Event Op.Ans}
    (h : Pool.history thread between = []) :
    since thread (between ++ (thread, event) :: before) = between := by
  have hother : ∀ entry ∈ between, (entry.1 != thread) = true := by
    rintro ⟨other, found⟩ hmem
    rw [bne_iff_ne]
    rintro rfl
    simpa [h] using Pool.mem_history.mpr hmem
  rw [since, List.takeWhile_append_of_pos hother]
  simp

theorem late_of_lateFill {later earlier : Log} {entry : Nat × Event Op.Ans}
    (h : lateFill (later ++ entry :: earlier) = false) : late entry earlier = false := by
  induction later with
  | nil =>
      rw [List.nil_append, lateFill, Bool.or_eq_false_iff] at h
      exact h.1
  | cons first later ih =>
      rw [List.cons_append, lateFill, Bool.or_eq_false_iff] at h
      exact ih h.2

end Order

section Semantics

variable {world start : SchemaWorld} {op : Op} {key : String × String}

theorem sem_of_fault {message : String} (h : world.faults 0 = some message) :
    sem op world = (op.failed message, { world with faults := fun n => world.faults (n + 1) }) := by
  simp only [sem, h]

theorem sem_of_none (h : world.faults 0 = none) :
    sem op world = op.exec { world with faults := fun n => world.faults (n + 1) } := by
  simp only [sem, h]

theorem sem_templates (op : Op) (world : SchemaWorld) :
    (sem op world).2.templates = world.templates ∨
    ∃ request, op = .write request ∧ world.faults 0 = none ∧
      (sem op world).2.templates = request.apply world.templates := by
  cases hfault : world.faults 0 with
  | some message => exact .inl (by rw [sem_of_fault hfault])
  | none =>
      rw [sem_of_none hfault]
      cases op with
      | write request => exact .inr ⟨request, rfl, rfl, exec_eq_apply request _⟩
      | cacheGet | cacheSet | cacheRemove | getActive | getById => exact .inl rfl

-- The schema for a key changes by a change of one of its templates.
theorem schema_changed (h : activeSchema key (sem op world).2 ≠ activeSchema key world) :
    changed ⟨op, (sem op world).1⟩ = true ∧ ∃ request id row, op = .write request ∧
      request.target = some id ∧ world.templates.rows id = some row ∧ row.key = key := by
  rcases sem_templates op world with hsame | ⟨request, rfl, hfault, happly⟩
  · exact absurd (by rw [activeSchema, hsame, activeSchema]) h
  · have hrow : ∃ id row, request.target = some id ∧ world.templates.rows id = some row ∧
        row.key = key := by
      by_contra hnone
      push Not at hnone
      refine h ?_
      rw [activeSchema, happly, activeTemplate_congr (apply_activeRow hnone), activeSchema]
    obtain ⟨id, row, htarget, hrow, hkey⟩ := hrow
    refine ⟨?_, request, id, row, rfl, htarget, hrow, hkey⟩
    have hchange : request.apply world.templates ≠ world.templates := by
      intro hsame
      rw [hsame] at happly
      exact h (by rw [activeSchema, happly, activeSchema])
    obtain ⟨n, hanswer⟩ := exec_effective htarget hchange
    rw [sem_of_none hfault, Op.exec, hanswer]
    rfl

theorem keyed_sem {id : Nat} (h : Keyed id key world.templates) (op : Op) :
    Keyed id key (sem op world).2.templates := by
  rcases sem_templates op world with hsame | ⟨request, -, -, happly⟩
  · rw [hsame]
    exact h
  · rw [happly]
    exact h.apply request

theorem keyed_replay {id : Nat} {earlier log : Log} (hlog : earlier <:+ log)
    (h : Keyed id key (Pool.replay sem start earlier).templates) :
    Keyed id key (Pool.replay sem start log).templates := by
  have hmono := Pool.replay_mono sem (fun world => Keyed id key world.templates)
    (fun op world h => keyed_sem h op) start hlog
  exact hmono h

-- The cache takes what it is told to take.
def touches (key : String) (entry : Nat × Event Op.Ans) : Prop :=
  removed key entry.2 = true ∨ ∃ schema, entry.2 = ⟨.cacheSet key schema, .ok ()⟩

theorem cache_frame {thread : Nat} {key : String}
    (h : ¬ touches key (thread, ⟨op, (sem op world).1⟩)) :
    (sem op world).2.cache key = world.cache key := by
  cases hfault : world.faults 0 with
  | some message => rw [sem_of_fault hfault]
  | none =>
      rw [sem_of_none hfault] at h ⊢
      cases op with
      | cacheGet | getActive | getById | write => rfl
      | cacheSet other schema =>
          have hne : key ≠ other := by
            rintro rfl
            exact h (.inr ⟨schema, rfl⟩)
          exact Function.update_of_ne hne ..
      | cacheRemove other =>
          have hne : key ≠ other := by
            rintro rfl
            exact h (.inl (beq_self_eq_true key))
          exact Function.update_of_ne hne ..

theorem row_of_answer {id : Nat} {template : EventValidTemplate}
    (h : (.ok (some template) : Except String _) = (sem (.getById id) world).1) :
    world.templates.rows id = some template := by
  cases hfault : world.faults 0 with
  | some message =>
      rw [sem_of_fault hfault] at h
      cases h
  | none =>
      rw [sem_of_none hfault] at h
      exact (Except.ok.inj h).symm

theorem template_of_answer {productId event : String} {template : EventValidTemplate}
    (h : (.ok (some template) : Except String _) = (sem (.getActive productId event) world).1) :
    world.templates.activeTemplate (productId, event) = some template := by
  cases hfault : world.faults 0 with
  | some message =>
      rw [sem_of_fault hfault] at h
      cases h
  | none =>
      rw [sem_of_none hfault] at h
      exact (Except.ok.inj h).symm

theorem active_of_answer {productId event : String} {template : EventValidTemplate}
    (h : (.ok (some template) : Except String _) = (sem (.getActive productId event) world).1) :
    activeSchema (productId, event) world = some template.schema := by
  rw [activeSchema, template_of_answer h]
  rfl

-- What is read is not what is changed.
theorem schema_of_read {productId event : String} {key : String × String} :
    activeSchema key (sem (.getActive productId event) world).2 = activeSchema key world := by
  by_contra h
  obtain ⟨-, request, _, _, hop, -⟩ := schema_changed h
  cases hop

theorem cached_of_set {key : String} {schema : Json} (h : (.ok () : Except String Unit) =
    (sem (.cacheSet key schema) world).1) :
    (sem (.cacheSet key schema) world).2.cache key = some schema := by
  cases hfault : world.faults 0 with
  | some message =>
      rw [sem_of_fault hfault] at h
      cases h
  | none =>
      rw [sem_of_none hfault]
      exact Function.update_self ..

theorem cached_of_removed {key : String} (h : removed key ⟨op, (sem op world).1⟩ = true) :
    (sem op world).2.cache key = none := by
  cases hfault : world.faults 0 with
  | some message =>
      rw [sem_of_fault hfault] at h
      cases op <;> cases h
  | none =>
      rw [sem_of_none hfault] at h ⊢
      cases op with
      | cacheGet | cacheSet | getActive | getById | write => cases h
      | cacheRemove other =>
          obtain rfl : other = key := by simpa [removed, Op.exec] using h
          exact Function.update_self ..

end Semantics

section Runs

variable {compiles : Json → Bool} {metaValidate : Json → Except String Unit}
  {moves : List (Move Call)} {start : SchemaWorld} {later earlier : Log} {thread id : Nat}
  {request : Request} {template : EventValidTemplate}

theorem rule_of_log {event : Event Op.Ans}
    (h : (served compiles metaValidate moves start).log = later ++ (thread, event) :: earlier) :
    Rule (Pool.history thread earlier) event.1 := by
  obtain ⟨_, -, hrule⟩ :=
    Pool.allowed_of_log sem (serve compiles metaValidate) (spec_serve compiles metaValidate)
    moves start later earlier thread event h
  exact hrule

theorem answer_of_log {event : Event Op.Ans}
    (h : (served compiles metaValidate moves start).log = later ++ (thread, event) :: earlier) :
    event.2 = (sem event.1 (Pool.replay sem start earlier)).1 :=
  Pool.answered_play sem (serve compiles metaValidate) moves start later (thread, event) earlier h

theorem changed_write {answer : Except String Nat} (h : changed ⟨.write request, answer⟩ = true) :
    ∃ n, answer = .ok (n + 1) := by
  rcases answer with message | (_ | n)
  · cases h
  · cases h
  · exact ⟨n, rfl⟩

-- The handler has looked for the template, and has found it.
theorem template_of_write {answer : Except String Nat}
    (h : (served compiles metaValidate moves start).log =
      later ++ (thread, ⟨.write request, answer⟩) :: earlier)
    (htarget : request.target = some id) (hchanged : changed ⟨.write request, answer⟩ = true)
    (hfound : blindWrite (served compiles metaValidate moves start).log = false) :
    ∃ template, Pool.history thread earlier = [⟨.getById id, .ok (some template)⟩] := by
  have hrule : Rule (Pool.history thread earlier) (.write request) := rule_of_log h
  simp only [Rule, htarget] at hrule
  obtain ⟨template, hpast⟩ := hrule
  cases template with
  | some template => exact ⟨template, hpast⟩
  | none =>
      have hlooked : (thread, (⟨.getById id, .ok none⟩ : Event Op.Ans)) ∈ earlier :=
        Pool.mem_history.mp (by rw [hpast]; exact List.mem_singleton_self _)
      have hblind : blindWrite (served compiles metaValidate moves start).log = true := by
        rw [blindWrite, List.any_eq_true]
        refine ⟨(thread, ⟨.write request, answer⟩), by simp [h], ?_⟩
        rw [Bool.and_eq_true, List.any_eq_true]
        refine ⟨hchanged, (thread, ⟨.getById id, .ok none⟩), ?_, by simp [notFound]⟩
        rw [h]
        exact List.mem_append_right _ (List.mem_cons_of_mem _ hlooked)
      rw [hfound] at hblind
      cases hblind

theorem spec_writes (compiles : Json → Bool) (metaValidate : Json → Except String Unit)
    (call : Call) :
    Prog.Spec (fun _ op => call.Writes op) (fun _ _ => True) (serve compiles metaValidate call)
      [] :=
  (writes_serve compiles metaValidate call).spec (fun _ => True) (fun _ _ hop _ => hop)
    (fun _ _ _ _ _ => trivial) trivial

-- A thread that has ended has done what its call asks for.
theorem completes_served {call : Call} {reply : Reply}
    (h : (served compiles metaValidate moves start).threads[thread]? = some ⟨call, .ret reply⟩) :
    Completes compiles call reply
      (Pool.history thread (served compiles metaValidate moves start).log) :=
  Pool.spec_play sem (serve compiles metaValidate) (spec_serve compiles metaValidate) moves start
    thread _ h

theorem change_of_write {answer : Except String Nat}
    (h : (served compiles metaValidate moves start).log =
      later ++ (thread, ⟨.write request, answer⟩) :: earlier)
    (htarget : request.target = some id) :
    ∃ call program, (served compiles metaValidate moves start).threads[thread]? = some ⟨call,
      program⟩ ∧ call.change = some (id, request) := by
  obtain ⟨⟨call, program⟩, hthread, hwrites⟩ :=
    Pool.allowed_of_log sem (serve compiles metaValidate) (spec_writes compiles metaValidate) moves
      start later earlier thread _ h
  exact ⟨call, program, hthread, hwrites.2 id htarget⟩

-- In the end the handler has removed the key of the template from the cache.
theorem removed_after (hidle : (served compiles metaValidate moves start).Idle)
    {answer : Except String Nat} (h : (served compiles metaValidate moves start).log =
      later ++ (thread, ⟨.write request, answer⟩) :: earlier)
    (hchanged : changed ⟨.write request, answer⟩ = true) (htarget : request.target = some id)
    (hpast : Pool.history thread earlier = [⟨.getById id, .ok (some template)⟩]) :
    ∃ removal : Except String Unit, (thread, ⟨.cacheRemove (cacheKey template.key), removal⟩) ∈
      later := by
  obtain ⟨n, rfl⟩ := changed_write hchanged
  obtain ⟨call, program, hthread, hchange⟩ := change_of_write h htarget
  obtain ⟨reply, rfl⟩ := Prog.eq_ret_of_isDone (hidle _ (List.mem_of_getElem? hthread))
  have hhistory : Pool.history thread (served compiles metaValidate moves start).log =
      Pool.history thread later ++ [⟨.write request, .ok (n + 1)⟩,
        ⟨.getById id, .ok (some template)⟩] := by
    rw [h, Pool.history_append, Pool.history_cons_self, hpast]
  have hinvalidates := (completes_served hthread).1 id request hchange
  obtain ⟨removal, hremoval⟩ :=
    hinvalidates.removed template n (by simp [hhistory]) (by simp [hhistory])
  -- the removal is neither the change itself nor what came before it
  rw [hhistory, List.mem_append] at hremoval
  rcases hremoval with hlater | hmem
  · exact ⟨removal, Pool.mem_history.mp hlater⟩
  · rcases List.mem_pair.mp hmem with he | he
    · cases he
    · cases he

-- Whoever changes the schema for a key removes it from the cache afterwards.
theorem change_removed (hidle : (served compiles metaValidate moves start).Idle)
    (horderly : Orderly (served compiles metaValidate moves start).log) {key : String × String}
    {event : Event Op.Ans}
    (h : (served compiles metaValidate moves start).log = later ++ (thread, event) :: earlier)
    (hchange : activeSchema key (Pool.replay sem start ((thread, event) :: earlier)) ≠
      activeSchema key (Pool.replay sem start earlier)) :
    changed event = true ∧ ∃ removal, (thread, removal) ∈ later ∧ removed (cacheKey key) removal =
      true := by
  obtain ⟨op, answer⟩ := event
  have hanswer : answer = (sem op (Pool.replay sem start earlier)).1 := answer_of_log h
  obtain ⟨hchanged, request, id, row, rfl, htarget, hrow, hkey⟩ := schema_changed hchange
  rw [← hanswer] at hchanged
  refine ⟨hchanged, ?_⟩
  obtain ⟨template, hpast⟩ := template_of_write h htarget hchanged horderly.found
  -- the template that was found has the key of the row that is changed
  obtain ⟨between, before, rfl, -, -⟩ := Pool.history_eq_cons hpast
  have hread : (served compiles metaValidate moves start).log =
      (later ++ (thread, ⟨.write request, answer⟩) :: between) ++
        (thread, ⟨.getById id, .ok (some template)⟩) :: before := by
    simp [h]
  have hbefore : before <:+ between ++ (thread, ⟨.getById id, .ok (some template)⟩) :: before :=
    List.suffix_append_of_suffix (List.suffix_cons _ _)
  have hkeyed := keyed_replay hbefore (keyed_of_row (row_of_answer (answer_of_log hread)))
  obtain rfl : key = template.key := hkey.symm.trans (hkeyed.2 row hrow)
  obtain ⟨removal, hremoval⟩ := removed_after hidle h hchanged htarget hpast
  refine ⟨_, hremoval, ?_⟩
  cases removal with
  | ok value => simp [removed]
  | error message =>
      have hfailed := horderly.removed
      rw [List.any_eq_false] at hfailed
      exact absurd rfl (hfailed (thread, ⟨.cacheRemove (cacheKey template.key), .error message⟩)
        (by simp [h, hremoval]))

-- The schema that was put into the cache is still the one of the database: a change since it
-- was read would have been removed before it was put there, or after.
theorem filled_current (hidle : (served compiles metaValidate moves start).Idle)
    (horderly : Orderly (served compiles metaValidate moves start).log) {productId event : String}
    {schema : Json} {filled : Except String Unit}
    (h : (served compiles metaValidate moves start).log =
      later ++ (thread, ⟨.cacheSet (cacheKey (productId, event)) schema, filled⟩) :: earlier)
    (hvalid : ValidProduct productId)
    (hlast : ∀ entry ∈ later, ¬ touches (cacheKey (productId, event)) entry) :
    activeSchema (productId, event) (served compiles metaValidate moves start).state =
      some schema := by
  obtain ⟨product, name, template, hkey, hproduct, rfl, hpast⟩ := rule_of_log h
  have hsame := cacheKey_injective hvalid hproduct hkey
  rw [Prod.mk.injEq] at hsame
  obtain ⟨rfl, rfl⟩ := hsame
  obtain ⟨between, before, rfl, hbetween, -⟩ := Pool.history_eq_cons hpast
  have hread : (served compiles metaValidate moves start).log =
      (later ++ (thread, ⟨.cacheSet (cacheKey (productId, event)) template.schema, filled⟩) ::
        between) ++
        (thread, ⟨.getActive productId event, .ok (some template)⟩) :: before := by
    simp [h]
  have hschema : activeSchema (productId, event) (Pool.replay sem start
      ((thread, ⟨.getActive productId event, .ok (some template)⟩) :: before)) =
        some template.schema :=
    schema_of_read.trans (active_of_answer (answer_of_log hread))
  rw [served, Pool.state_eq_replay, ← served]
  by_contra hchange
  rw [← hschema, hread, Pool.replay_append] at hchange
  obtain ⟨front, ⟨writer, event'⟩, back, hplace, hchanges⟩ :=
    Pool.exists_change sem (activeSchema (productId, event)) hchange
  rw [← Pool.replay_append, ← Pool.replay_append] at hchanges
  have hwrite : (served compiles metaValidate moves start).log = front ++ (writer, event') ::
      (back ++
      (thread, ⟨.getActive productId event, .ok (some template)⟩) :: before) := by
    rw [hread, hplace]
    simp
  obtain ⟨hchanged, removal, hremoval, hremoved⟩ := change_removed hidle horderly hwrite hchanges
  have hnotLater : (writer, removal) ∉ later := fun hmem => hlast _ hmem (.inl hremoved)
  rcases Pool.places_of_append_eq hplace with ⟨-, hentry, -⟩ | ⟨middle, rfl, rfl⟩ | ⟨middle, rfl, -⟩
  · rw [Prod.mk.injEq] at hentry
    rw [← hentry.2] at hchanged
    cases hchanged
  · -- the change and the removal are both between the read and the fill
    have hmiddle : (writer, removal) ∈ middle := by
      rcases List.mem_append.mp hremoval with hmem | hmem
      · exact absurd hmem hnotLater
      · rcases List.mem_cons.mp hmem with hentry | hmem
        · rw [Prod.mk.injEq] at hentry
          rw [hentry.2] at hremoved
          cases hremoved
        · exact hmem
    have hinvalidated :
        invalidated (cacheKey (productId, event)) (middle ++ (writer, event') :: back) = true := by
      rw [invalidated, List.any_eq_true]
      refine ⟨(writer, removal), List.mem_append_left _ hmiddle, ?_⟩
      rw [Bool.and_eq_true, List.any_eq_true]
      exact ⟨hremoved, (writer, event'), by simp, by simp [hchanged]⟩
    have hlate := late_of_lateFill (h ▸ horderly.inTime)
    rw [late_set, since_eq hbetween, hinvalidated] at hlate
    cases hlate
  · exact hnotLater (List.mem_append_left _ hremoval)

-- Every run in which no fill is late ends with a cache that agrees with the database.
theorem cache_coherent (compiles : Json → Bool) (metaValidate : Json → Except String Unit)
    (moves : List (Move Call)) {start : SchemaWorld} (hstart : Coherent start)
    (hidle : (served compiles metaValidate moves start).Idle)
    (horderly : Orderly (served compiles metaValidate moves start).log) :
    Coherent (served compiles metaValidate moves start).state := by
  intro productId event schema hvalid hcached
  have hstate : (served compiles metaValidate moves start).state =
      Pool.replay sem start (served compiles metaValidate moves start).log :=
        Pool.state_eq_replay ..
  have hframe : ∀ later entry earlier, (served compiles metaValidate moves start).log = later ++
      entry :: earlier → ¬ touches (cacheKey (productId, event)) entry →
      (Pool.replay sem start (entry :: earlier)).cache (cacheKey (productId, event)) =
        (Pool.replay sem start earlier).cache (cacheKey (productId, event)) := by
    rintro later ⟨thread, op, answer⟩ earlier hlog htouch
    obtain rfl : answer = (sem op (Pool.replay sem start earlier)).1 := answer_of_log hlog
    exact cache_frame htouch
  rcases Pool.replay_last sem start _ (touches (cacheKey (productId, event)))
    (fun world => world.cache (cacheKey (productId, event))) hframe with
    ⟨hnone, hcache⟩ | ⟨later, ⟨thread, op, answer⟩, earlier, hlog, htouch, hlast, hcache⟩
  · -- nothing was put into the cache or removed from it, so no schema has changed either
    have hfirst := hstart productId event schema hvalid (by rw [← hcache, ← hstate, hcached])
    by_contra hchange
    rw [hstate, ← hfirst] at hchange
    obtain ⟨front, ⟨writer, found⟩, back, hplace, hchanges⟩ :=
      Pool.exists_change sem (activeSchema (productId, event)) hchange
    obtain ⟨-, removal, hremoval, hremoved⟩ := change_removed hidle horderly hplace hchanges
    exact hnone (writer, removal) (by simp [hplace, hremoval]) (.inl hremoved)
  · rw [hstate, hcache] at hcached
    rcases htouch with hremoved | ⟨filled, hfill⟩
    · obtain rfl : answer = (sem op (Pool.replay sem start earlier)).1 := answer_of_log hlog
      rw [Pool.replay, cached_of_removed hremoved] at hcached
      cases hcached
    · cases hfill
      rw [Pool.replay, cached_of_set (answer_of_log hlog), Option.some.injEq] at hcached
      subst hcached
      exact filled_current hidle horderly hlog hvalid hlast

end Runs

section Sensor

def sensorTemplate : EventValidTemplate := ⟨"sensor", "property", none, .object [], .active⟩

def sensorWorld : SchemaWorld :=
  ⟨TemplateTable.empty.insert sensorTemplate, fun _ => none, fun _ => none⟩

def sensorPost : Call := .propertyPost "/sensor/meter/thing/event/property/post"

-- The post has read the schema when the template is deactivated, and stores it afterwards.
def lateMoves : List (Move Call) :=
  [.spawn sensorPost, .spawn (.updateStatus 1 .inactive), .step 0, .step 0, .step 1, .step 1,
    .step 1, .step 0]

-- The post stores the schema before the handler removes it.
def timelyMoves : List (Move Call) :=
  [.spawn sensorPost, .spawn (.updateStatus 1 .inactive), .step 0, .step 0, .step 1, .step 1,
    .step 0, .step 1]

theorem sensorWorld_coherent : Coherent sensorWorld := by
  intro productId event schema _ hcached
  cases hcached

theorem timely_fill_coherent :
    let pool := served (fun _ => true) (fun _ => .ok ()) timelyMoves sensorWorld
    pool.Idle ∧ (pool.state.cache "sensor").isNone = true ∧ Coherent pool.state := by
  intro pool
  have hidle : pool.Idle := by decide +kernel
  have horderly : Orderly pool.log := ⟨by decide +kernel, by decide +kernel, by decide +kernel⟩
  exact ⟨hidle, by decide +kernel, cache_coherent _ _ timelyMoves sensorWorld_coherent hidle
    horderly⟩

theorem late_fill_stale : ¬ ∀ compiles metaValidate moves start, Coherent start →
    (served compiles metaValidate moves start).Idle →
      Coherent (served compiles metaValidate moves start).state := by
  intro h
  have hcoherent := h (fun _ => true) (fun _ => .ok ()) lateMoves sensorWorld sensorWorld_coherent
      (by decide +kernel)
  have hcached : ((served (fun _ => true) (fun _ => .ok ()) lateMoves sensorWorld).state.cache
      (cacheKey ("sensor", "property"))).isSome = true := by decide +kernel
  have hinactive : (activeSchema ("sensor", "property")
      (served (fun _ => true) (fun _ => .ok ()) lateMoves sensorWorld).state).isNone = true := by
        decide +kernel
  obtain ⟨schema, hschema⟩ := Option.isSome_iff_exists.mp hcached
  rw [hcoherent "sensor" "property" schema (by unfold ValidProduct; decide +kernel)
    hschema] at hinactive
  cases hinactive

end Sensor

end RmqttThings.Templates
