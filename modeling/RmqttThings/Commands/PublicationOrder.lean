import RmqttThings.Commands.StatusMachine

namespace RmqttThings.Commands

open Effects

-- The broker accepts a message of the row, after `time` operations of the run.
def AcceptedAt (queue : Queue) (id : Int) (log : List (Nat × Event Op.Ans)) (time : Nat) : Prop :=
  ∃ later thread event earlier, log = later ++ (thread, event) :: earlier ∧ earlier.length = time ∧
    published event = some (correlationId (queue, id)) ∧ accepted event = true

-- Two rows of a device that are Pending at one moment, and are both accepted later, are
-- accepted in the order of their submission.
def InSubmissionOrder (start : World) (queue : Queue) (log : List (Nat × Event Op.Ans)) : Prop :=
  ∀ later earlier a b, log = later ++ earlier → rowAfter start queue a.id earlier = some a →
    rowAfter start queue b.id earlier = some b → a.status = .pending → b.status = .pending →
    a.productId = b.productId → a.deviceId = b.deviceId → a.Before b →
    ∀ first second, AcceptedAt queue a.id log first → AcceptedAt queue b.id log second →
      first < second

-- The thread holds an invocation of the device that it has claimed, and is not done
-- with its publication: it is not accepted yet, and there are attempts left.
def InFlight (config : MqttConfig) (productId deviceId : String) (past : List (Event Op.Ans)) :
    Prop :=
  ∃ newer row older, past = newer ++ ⟨.sql (.claimNextPendingAction productId deviceId),
    .ok (some row)⟩ :: older ∧ (∀ event ∈ newer, handedOut event = [] ∧ accepted event = false) ∧
    newer.countP (fun event => (published event).isSome) ≤
      config.propertyCommand.publish.retries.toNat

-- No invocation is claimed while another drain of the device holds one.
def SerialClaims (config : MqttConfig) (log : List (Nat × Event Op.Ans)) : Prop :=
  ∀ later thread productId deviceId row earlier,
    log = later ++ (thread, ⟨.sql (.claimNextPendingAction productId deviceId), .ok (some row)⟩) ::
      earlier →
    ∀ other, other ≠ thread → ¬InFlight config productId deviceId (Pool.history other earlier)

section Run

variable {config : MqttConfig} {fuel : Nat} {moves : List (Move Request)} {start : World}
  {queue : Queue}

theorem rank_le_of_suffix (queue : Queue) (id : Int) {earlier middle : List (Nat × Event Op.Ans)}
    (hmiddle : middle <:+ (commandRun config fuel moves start).log) (h : earlier <:+ middle) :
    rowRank (rowAfter start queue id earlier) ≤ rowRank (rowAfter start queue id middle) := by
  obtain ⟨later, hlater⟩ := hmiddle
  obtain ⟨between, rfl⟩ := h
  exact along_log start queue id (fun row => rowRank (rowAfter start queue id earlier) ≤
    rowRank row)
    (fun _ _ htransition hle => hle.trans htransition.rank_le) later between hlater.symm le_rfl

-- While a row keeps its rank it does not change at all.
theorem row_eq_of_rank {id : Int} {earlier middle : List (Nat × Event Op.Ans)}
    (hmiddle : middle <:+ (commandRun config fuel moves start).log) (h : earlier <:+ middle)
    (hrank : rowRank (rowAfter start queue id middle) ≤ rowRank (rowAfter start queue id earlier)) :
    rowAfter start queue id middle = rowAfter start queue id earlier := by
  obtain ⟨later, hlater⟩ := hmiddle
  obtain ⟨between, rfl⟩ := h
  revert hrank
  apply along_log start queue id (fun row => rowRank row ≤
    rowRank (rowAfter start queue id earlier) →
    row = rowAfter start queue id earlier) _ later between hlater.symm
  · exact fun _ => rfl
  · intro before after htransition hinv hle
    have hbefore := hinv (htransition.rank_le.trans hle)
    rw [htransition.eq_of_rank (hbefore ▸ hle), hbefore]

-- A row that is Pending now and Pending later was the same row in between.
theorem pending_between {row : CommandRow queue.Body}
    {earlier middle late : List (Nat × Event Op.Ans)}
    (hlate : late <:+ (commandRun config fuel moves start).log) (hmiddle : middle <:+ late)
      (hearlier : earlier <:+ middle)
    (hrow : rowAfter start queue row.id earlier = some row) (hpending : row.status = .pending)
    (hstill : (rowAfter start queue row.id late).map (·.status) = some .pending) :
    rowAfter start queue row.id middle = some row := by
  rw [← hrow]
  apply row_eq_of_rank (hmiddle.trans hlate) hearlier
  have hle := rank_le_of_suffix queue row.id hlate hmiddle
  have hrank : rowRank (rowAfter start queue row.id late) =
      rowRank (rowAfter start queue row.id earlier) := by
    cases hfound : rowAfter start queue row.id late with
    | none => simp [hfound] at hstill
    | some found =>
        rw [hfound, Option.map_some, Option.some.injEq] at hstill
        simp [rowRank, hrow, hpending, hstill]
  omega

-- The claim of a row that is Pending at some moment comes after that moment.
theorem claim_after_pending {row : CommandRow queue.Body}
    {later before earlier : List (Nat × Event Op.Ans)} {thread : Nat} {claim : Event Op.Ans}
    (h : (commandRun config fuel moves start).log = later ++ (thread, claim) :: before)
    (hmem : (queue, row.id) ∈ handedOut claim)
    (hearlier : earlier <:+ (commandRun config fuel moves start).log)
    (hrow : rowAfter start queue row.id earlier = some row) (hpending : row.status = .pending) :
        earlier <:+ before := by
  obtain ⟨hleaves, hsent⟩ := claim_leaves start queue row.id h hmem
  have hclaim : ((thread, claim) :: before) <:+ (commandRun config fuel moves start).log :=
    ⟨later, h.symm⟩
  rcases List.suffix_or_suffix_of_suffix hearlier hclaim with hs | hs
  · rcases List.suffix_cons_iff.mp hs with rfl | hs
    · simp [hrow, hpending] at hsent
    · exact hs
  · have hle := rank_le_of_suffix queue row.id hearlier hs
    rw [hrow] at hle
    cases hfound : rowAfter start queue row.id ((thread, claim) :: before) with
    | none => simp [hfound] at hsent
    | some found =>
        rw [hfound, Option.map_some, Option.some.injEq] at hsent
        simp [hfound, rowRank, hsent, hpending, CommandStatus.rank] at hle

-- One statement claims all Pending commands of the device, in submission order.
theorem property_claim {w : World} {claim : Event Op.Ans} (hanswer : claim.2 = (sem claim.1 w).1)
    {a b : CommandRow PropertyCommand} (hmem : (.property, a.id) ∈ handedOut claim)
    (ha : w.row .property a.id = some a) (hb : w.row .property b.id = some b)
    (hpending : b.status = .pending)
    (hproduct : a.productId = b.productId) (hdevice : a.deviceId = b.deviceId) :
    (.property, b.id) ∈ handedOut claim ∧
      ∀ done rest, handedOut claim = done ++ (.property, a.id) :: rest → (.property, b.id) ∈ done →
        b.LE a := by
  cases claim_of_handedOut hanswer (List.ne_nil_of_mem hmem) with
  | action productId deviceId row rest hqueue htables => simp [handedOut] at hmem
  | properties productId deviceId htables =>
      have hids : ∀ found : CommandRow PropertyCommand, (claimed w.tick.clock found).id =
          found.id := fun _ => rfl
      simp only [handedOut, List.map_map, Function.comp_def, hids] at hmem ⊢
      obtain ⟨found, hfound, hkey⟩ := List.mem_map.mp hmem
      obtain rfl := CommandTable.eq_of_mem_queue hfound (congrArg Prod.snd hkey) ha
      obtain ⟨-, hp, hd, -⟩ := (CommandTable.mem_queue _ _ _ _).mp hfound
      have hin : b ∈ w.tables.propertyCommands.queue productId deviceId :=
        (CommandTable.mem_queue _ _ _ _).mpr
          ⟨((CommandTable.find_eq_some_iff _ _ _).mp hb).1, hproduct ▸ hp, hdevice ▸ hd, hpending⟩
      refine ⟨List.mem_map.mpr ⟨b, hin, rfl⟩, ?_⟩
      intro done rest hsplit hdone
      obtain ⟨front, back, hqueue, rfl, hback⟩ := List.map_eq_append_iff.mp hsplit
      obtain ⟨middle, back, rfl, hmiddle, -⟩ := List.map_eq_cons_iff.mp hback
      obtain ⟨other, hother, hkey⟩ := List.mem_map.mp hdone
      have hsorted := w.tables.propertyCommands.queue_sorted productId deviceId
      rw [hqueue, List.pairwise_append] at hsorted
      have hin_other : other ∈ w.tables.propertyCommands.queue productId deviceId := by
        rw [hqueue]
        exact List.mem_append_left _ hother
      have hin_middle : middle ∈ w.tables.propertyCommands.queue productId deviceId := by
        simp [hqueue]
      obtain rfl := CommandTable.eq_of_mem_queue hin_other (congrArg Prod.snd hkey) hb
      obtain rfl := CommandTable.eq_of_mem_queue hin_middle (congrArg Prod.snd hmiddle) ha
      exact hsorted.2.2 other hother middle (by simp)

-- The claim of an invocation takes no other row.
theorem action_claim_event {w : World} {claim : Event Op.Ans}
    (hanswer : claim.2 = (sem claim.1 w).1) {a : CommandRow ActionInvocation}
    (hmem : (.action, a.id) ∈ handedOut claim) (ha : w.row .action a.id = some a) :
    handedOut claim = [(.action, a.id)] ∧
      ∃ row, claim = ⟨.sql (.claimNextPendingAction a.productId a.deviceId), .ok (some row)⟩ := by
  cases claim_of_handedOut hanswer (List.ne_nil_of_mem hmem) with
  | properties productId deviceId htables => simp [handedOut] at hmem
  | action productId deviceId row rest hqueue htables =>
      simp only [handedOut, List.mem_singleton, Prod.mk.injEq, true_and] at hmem
      have hin : row ∈ w.tables.actionInvocations.queue productId deviceId := by simp [hqueue]
      obtain rfl := CommandTable.eq_of_mem_queue hin hmem.symm ha
      obtain ⟨-, rfl, rfl, -⟩ := (CommandTable.mem_queue _ _ _ _).mp hin
      exact ⟨rfl, _, rfl⟩

-- One statement claims the first Pending invocation of the device.
theorem action_claim {w : World} {claim : Event Op.Ans} (hanswer : claim.2 = (sem claim.1 w).1)
    {a b : CommandRow ActionInvocation} (hmem : (.action, b.id) ∈ handedOut claim)
    (ha : w.row .action a.id = some a) (hb : w.row .action b.id = some b)
    (hpending : a.status = .pending)
    (hproduct : a.productId = b.productId) (hdevice : a.deviceId = b.deviceId) : b.LE a := by
  cases claim_of_handedOut hanswer (List.ne_nil_of_mem hmem) with
  | properties productId deviceId htables => simp [handedOut] at hmem
  | action productId deviceId row rest hqueue htables =>
      simp only [handedOut, List.mem_singleton, Prod.mk.injEq, true_and] at hmem
      have hin : row ∈ w.tables.actionInvocations.queue productId deviceId := by simp [hqueue]
      obtain rfl := CommandTable.eq_of_mem_queue hin hmem.symm hb
      obtain ⟨-, rfl, rfl, -⟩ := (CommandTable.mem_queue _ _ _ _).mp hin
      have hin_a : a ∈ w.tables.actionInvocations.queue row.productId row.deviceId :=
        (CommandTable.mem_queue _ _ _ _).mpr
          ⟨((CommandTable.find_eq_some_iff _ _ _).mp ha).1, hproduct, hdevice, hpending⟩
      have hsorted := w.tables.actionInvocations.queue_sorted row.productId row.deviceId
      rw [hqueue] at hin_a hsorted
      rcases List.mem_cons.mp hin_a with rfl | hrest
      · exact .inr ⟨rfl, le_rfl⟩
      · exact (List.pairwise_cons.mp hsorted).1 a hrest

section Order

variable {a b : CommandRow queue.Body} {earlier : List (Nat × Event Op.Ans)}

theorem id_ne_of_before (ha : rowAfter start queue a.id earlier = some a)
    (hb : rowAfter start queue b.id earlier = some b)
    (hbefore : a.Before b) : a.id ≠ b.id := by
  intro he
  rw [he, hb, Option.some.injEq] at ha
  subst ha
  simp [CommandRow.Before] at hbefore

-- A row of its own claim, as it is right before the claim.
theorem row_before_claim {row : CommandRow queue.Body} {later before : List (Nat × Event Op.Ans)}
    {thread : Nat} {claim : Event Op.Ans} (h : (commandRun config fuel moves start).log =
      later ++ (thread, claim) :: before)
    (hmem : (queue, row.id) ∈ handedOut claim) {middle : List (Nat × Event Op.Ans)}
    (hmiddle : middle <:+ before) (hearlier : earlier <:+ middle)
    (hrow : rowAfter start queue row.id earlier = some row)
    (hpending : row.status = .pending) : rowAfter start queue row.id middle = some row := by
  exact pending_between (Pool.suffix_of_eq_append h) hmiddle hearlier hrow hpending
    (claim_leaves start queue row.id h hmem).1.1

-- The claim behind an accepted message of a row that is Pending at some moment.
theorem claim_place {row : CommandRow queue.Body} {later before : List (Nat × Event Op.Ans)}
    {thread : Nat} {event : Event Op.Ans} (h : (commandRun config fuel moves start).log =
      later ++ (thread, event) :: before)
    (hpublished : published event = some (correlationId (queue, row.id)))
    (hearlier : earlier <:+ (commandRun config fuel moves start).log)
    (hrow : rowAfter start queue row.id earlier = some row) (hpending : row.status = .pending) :
    ∃ tries middle claim done rest between start', before = between ++ (thread, claim) :: start' ∧
      (commandRun config fuel moves start).log = (later ++ (thread, event) :: between) ++ (thread,
        claim) :: start' ∧
      earlier <:+ start' ∧ claim.2 = (sem claim.1 (Pool.replay sem start start')).1 ∧
      rowAfter start queue row.id start' = some row ∧ (queue, row.id) ∈ handedOut claim ∧
      Pool.history thread between = tries ++ middle ∧ handedOut claim = done ++ (queue, row.id) ::
        rest ∧
      (∀ event ∈ tries, published event = some (correlationId (queue, row.id)) ∧
        accepted event = false) ∧
      tries.length ≤ config.propertyCommand.publish.retries.toNat ∧ Within done middle := by
  obtain ⟨tries, middle, claim, done, rest, between, start', rfl, hbetween, hclaim, htries, hlength,
      hmiddle⟩ :=
    claim_of_published start queue row.id h hpublished
  have hplace : (commandRun config fuel moves start).log =
      (later ++ (thread, event) :: between) ++ (thread, claim) :: start' := by simp [h]
  have hmem : (queue, row.id) ∈ handedOut claim := by simp [hclaim]
  have hs := claim_after_pending hplace hmem hearlier hrow hpending
  exact ⟨tries, middle, claim, done, rest, between, start', rfl, hplace, hs,
    Pool.answered_play sem (serve config fuel) moves start _ _ _ hplace,
    row_before_claim hplace hmem List.suffix_rfl hs hrow hpending, hmem, hbetween, hclaim, htries,
      hlength, hmiddle⟩

end Order

theorem property_in_order :
    InSubmissionOrder start .property (commandRun config fuel moves start).log := by
  rintro later earlier a b hlog ha hb hpa hpb hproduct hdevice hbefore first second
    ⟨la, ta, ea, sa, hla, rfl, hpuba, -⟩ ⟨lb, tb, eb, sb, hlb, rfl, hpubb, -⟩
  have hcorrelation : correlationId (.property, a.id) ≠ correlationId (.property, b.id) :=
    fun he => id_ne_of_before ha hb hbefore (congrArg Prod.snd (correlationId_inj he))
  have hearlier : earlier <:+ (commandRun config fuel moves start).log := ⟨later, hlog.symm⟩
  obtain ⟨triesA, middleA, claimA, doneA, restA, betweenA, beforeA, rfl, hplaceA, hsA, hanswerA,
      haA, hmemA, hbetweenA,
    hclaimA, htriesA, -, hmiddleA⟩ := claim_place hla hpuba hearlier ha hpa
  obtain ⟨-, -, claimB, -, -, betweenB, beforeB, rfl, hplaceB, hsB, hanswerB, hbB, hmemB, -⟩ :=
    claim_place hlb hpubb hearlier hb hpb
  -- whichever of the two claims comes first takes both rows, so they are one claim
  have hsame : (ta, claimA) = (tb, claimB) ∧ beforeA = beforeB := by
    rcases List.suffix_or_suffix_of_suffix (Pool.suffix_of_eq_append hplaceA)
      (Pool.suffix_of_eq_append hplaceB) with hs | hs
    · have hbA := row_before_claim hplaceB hmemB hs hsA hb hpb
      have hboth := (property_claim hanswerA hmemA haA hbA hpb hproduct hdevice).1
      exact (leaves_once start .property b.id hplaceA hplaceB
        (claim_leaves start .property b.id hplaceA hboth).1
        (claim_leaves start .property b.id hplaceB hmemB).1).2
    · have haB := row_before_claim hplaceA hmemA hs hsB ha hpa
      have hboth := (property_claim hanswerB hmemB hbB haB hpa hproduct.symm hdevice.symm).1
      exact (leaves_once start .property a.id hplaceA hplaceB
        (claim_leaves start .property a.id hplaceA hmemA).1
        (claim_leaves start .property a.id hplaceB hboth).1).2
  obtain ⟨hentry, rfl⟩ := hsame
  obtain ⟨rfl, rfl⟩ := Prod.mk.inj hentry
  rcases Pool.same_or_suffix_of_append_eq (hla.symm.trans hlb) with ⟨-, he, -⟩ | hs | hs
  · rw [(Prod.mk.inj he).2, hpubb, Option.some.injEq] at hpuba
    exact absurd hpuba.symm hcorrelation
  · exact hs.length_le
  · -- `b` before `a`: then `b` is one of the rows that the loop has done before `a`
    exfalso
    obtain ⟨front, hfront⟩ := hs
    have hbetween : front ++ (ta, eb) :: betweenB = betweenA :=
      List.append_cancel_right (by simpa using hfront)
    have hin : eb ∈ triesA ++ middleA := by
      rw [← hbetweenA, Pool.mem_history, ← hbetween]
      simp
    rcases List.mem_append.mp hin with ht | hm
    · have hsame := (htriesA eb ht).1
      rw [hpubb, Option.some.injEq] at hsame
      exact hcorrelation hsame.symm
    · obtain ⟨key, hdone, hkey⟩ := List.mem_map.mp ((hmiddleA eb hm).2 _ hpubb)
      rw [correlationId_inj hkey] at hdone
      have hle := (property_claim hanswerA hmemA haA hbB hpb hproduct hdevice).2 doneA restA
          hclaimA hdone
      exact CommandRow.not_le_of_before hbefore hle

theorem published_of_accepted {event : Event Op.Ans} (h : accepted event = true) :
    (published event).isSome = true := by
  unfold accepted at h
  split at h
  · rfl
  · cases h

-- What a thread has done since a claim of one row, up to some attempt of its publication.
theorem inFlight_of_suffix {productId deviceId : String} {row : CommandRow ActionInvocation}
    {id : Int} {tries middle newer older : List (Event Op.Ans)}
    (htries : ∀ event ∈ tries, published event = some (correlationId (.action, id)) ∧
      accepted event = false)
    (hlength : tries.length ≤ config.propertyCommand.publish.retries.toNat)
    (hmiddle : Within [] middle) (hnewer : newer <:+ tries ++ middle) :
    InFlight config productId deviceId
      (newer ++ ⟨.sql (.claimNextPendingAction productId deviceId), .ok (some row)⟩ :: older) := by
  have hquiet : ∀ event ∈ middle, published event = none := by
    intro event hevent
    cases hp : published event with
    | none => rfl
    | some other => simpa using (hmiddle event hevent).2 other hp
  refine ⟨newer, row, older, rfl, ?_, ?_⟩
  · intro event hevent
    rcases List.mem_append.mp (hnewer.subset hevent) with ht | hm
    · exact ⟨handedOut_of_published (htries event ht).1, (htries event ht).2⟩
    · refine ⟨(hmiddle event hm).1, ?_⟩
      cases ha : accepted event with
      | false => rfl
      | true => simpa [hquiet event hm] using published_of_accepted ha
  · have hcount : middle.countP (fun event => (published event).isSome) = 0 := by
      rw [List.countP_eq_zero]
      intro event hevent
      simp [hquiet event hevent]
    calc newer.countP (fun event => (published event).isSome)
        ≤ (tries ++ middle).countP (fun event => (published event).isSome) :=
          hnewer.sublist.countP_le
      _ = tries.countP (fun event => (published event).isSome) := by
        rw [List.countP_append, hcount, Nat.add_zero]
      _ ≤ tries.length := List.countP_le_length
      _ ≤ config.propertyCommand.publish.retries.toNat := hlength

-- When claims of a device are serial, the thread that claims the earlier row is done with
-- it before the later row is claimed.
theorem action_in_order (hserial : SerialClaims config (commandRun config fuel moves start).log) :
    InSubmissionOrder start .action (commandRun config fuel moves start).log := by
  rintro later earlier a b hlog ha hb hpa hpb hproduct hdevice hbefore first second
    ⟨la, ta, ea, sa, hla, rfl, hpuba, -⟩ ⟨lb, tb, eb, sb, hlb, rfl, hpubb, -⟩
  have hearlier : earlier <:+ (commandRun config fuel moves start).log := ⟨later, hlog.symm⟩
  have hne := id_ne_of_before ha hb hbefore
  obtain ⟨tries, middle, claimA, done, rest, betweenA, beforeA, rfl, hplaceA, hsA, hanswerA, haA,
      hmemA, hbetweenA,
    hclaimA, htries, hlength, hmiddle⟩ := claim_place hla hpuba hearlier ha hpa
  obtain ⟨-, -, claimB, -, -, betweenB, beforeB, rfl, hplaceB, hsB, hanswerB, hbB, hmemB, -⟩ :=
    claim_place hlb hpubb hearlier hb hpb
  obtain ⟨honlyA, rowA, rfl⟩ := action_claim_event hanswerA hmemA haA
  obtain ⟨honlyB, rowB, rfl⟩ := action_claim_event hanswerB hmemB hbB
  obtain rfl : done = [] := by
    have hlen := congrArg List.length (hclaimA.symm.trans honlyA)
    simp only [List.length_append, List.length_cons, List.length_nil] at hlen
    exact List.length_eq_zero_iff.mp (by omega)
  rcases Pool.same_or_suffix_of_append_eq (hplaceA.symm.trans hplaceB) with ⟨-, he, -⟩ | hs | hs
  · rw [(Prod.mk.inj he).2, honlyB] at honlyA
    simp only [List.cons.injEq, Prod.mk.injEq, true_and, and_true] at honlyA
    exact absurd honlyA.symm hne
  · -- the claim of `b` comes after the claim of `a`
    rcases Pool.same_or_suffix_of_append_eq (hla.symm.trans hplaceB) with
      ⟨-, he, -⟩ | hafter | hafter
    · rw [(Prod.mk.inj he).2] at hpuba
      cases hpuba
    · have hlen := hafter.length_le
      simp only [List.length_cons, List.length_append] at hlen ⊢
      omega
    · -- and before `a` is accepted: the thread of `a` still holds it
      exfalso
      obtain ⟨front, hfront⟩ := hafter
      obtain ⟨between, rfl⟩ := hs
      have hsplit : front ++ (tb, _) :: between = betweenA :=
        List.append_cancel_right (by simpa using hfront)
      have hhistory : Pool.history ta between <:+ tries ++ middle := by
        rw [← hbetweenA]
        exact Pool.history_suffix ta (Pool.suffix_of_eq_append hsplit.symm)
      by_cases hthread : ta = tb
      · subst hthread
        have hin : (⟨.sql (.claimNextPendingAction b.productId b.deviceId), .ok (some rowB)⟩ :
            Event Op.Ans) ∈
            tries ++ middle := by
          rw [← hbetweenA, Pool.mem_history, ← hsplit]
          simp
        rcases List.mem_append.mp hin with ht | hm
        · cases (htries _ ht).1
        · rw [(hmiddle _ hm).1] at honlyB
          cases honlyB
      · apply hserial _ _ _ _ _ _ hplaceB ta hthread
        rw [Pool.history_append, Pool.history_cons_self, hproduct, hdevice]
        exact inFlight_of_suffix htries hlength hmiddle hhistory
  · -- the claim of `b` came first, with `a` still Pending
    exfalso
    have hsuffix : beforeB <:+ beforeA := (List.suffix_cons _ _).trans hs
    have haB := row_before_claim hplaceA hmemA hsuffix hsB ha hpa
    exact CommandRow.not_le_of_before hbefore
      (action_claim hanswerB hmemB haB hbB hpa hproduct hdevice)

end Run

-- For every interleaving of any number of requests. The property queue needs nothing:
-- one statement claims it as a whole. An invocation is claimed on its own, so its queue
-- keeps the order as long as no two drains of the device hold one at the same time.
theorem publication_in_submission_order (config : MqttConfig) (fuel : Nat)
    (moves : List (Move Request)) (start : World) (queue : Queue)
    (hserial : queue = .action → SerialClaims config (commandRun config fuel moves start).log) :
    InSubmissionOrder start queue (commandRun config fuel moves start).log := by
  cases queue with
  | property => exact property_in_order
  | action => exact action_in_order (hserial rfl)

theorem serialClaims_of_one_thread {config : MqttConfig} {thread : Nat}
    {log : List (Nat × Event Op.Ans)}
    (h : ∀ entry ∈ log, entry.1 = thread) : SerialClaims config log := by
  rintro later claimer productId deviceId row earlier rfl other hne ⟨newer, held, older, hpast, -⟩
  have hin : (other, ⟨.sql (.claimNextPendingAction productId deviceId), .ok (some held)⟩) ∈
      earlier := by
    rw [← Pool.mem_history, hpast]
    simp
  have hclaimer := h _ (List.mem_append_right later List.mem_cons_self)
  have hother := h _ (List.mem_append_right later (List.mem_cons_of_mem _ hin))
  exact hne (hother.trans hclaimer.symm)

theorem acceptedAt_of_get {queue : Queue} {id : Int} {log : List (Nat × Event Op.Ans)} (place : Nat)
    (h : log[place]?.map (fun entry => (published entry.2, accepted entry.2)) =
      some (some (correlationId (queue, id)), true)) :
        AcceptedAt queue id log (log.drop (place + 1)).length := by
  obtain ⟨⟨thread, event⟩, hentry, he⟩ := Option.map_eq_some_iff.mp h
  obtain ⟨hplace, hget⟩ := List.getElem?_eq_some_iff.mp hentry
  refine ⟨log.take place, thread, event, log.drop (place + 1), ?_, rfl, congrArg Prod.fst he,
    congrArg Prod.snd he⟩
  rw [← hget, ← List.drop_eq_getElem_cons hplace, List.take_append_drop]

section Example

def waiting (id : Int) (serviceType : String) : CommandRow ActionInvocation where
  id := id
  productId := "p"
  deviceId := "d"
  status := .pending
  createdTime := 0
  updatedTime := 0
  body := ⟨serviceType, .null⟩

-- Two invocations wait for a device that is subscribed to all services.
def twoWaiting : World :=
  { World.started { Tables.empty with
      actionInvocations := (CommandTable.empty.insert "p" "d" ⟨"reboot", .null⟩ 0).insert "p" "d"
        ⟨"locate", .null⟩ 0 } with
    subscriptions := fun _ => .response 200 (some [⟨"p/d/thing/service/+/set"⟩]) }

def connected : Request := .deviceConnect ⟨some "d", "p", "d", none⟩

def subscribed : Request := .serviceSetSubscribe ⟨"d", some "p/d/thing/service/+/set", some "p"⟩

def oneDrain : List (Move Request) := .spawn connected :: List.replicate 8 (.step 0)

theorem one_drain_in_order :
    InSubmissionOrder twoWaiting .action (commandRun testConfig 3 oneDrain twoWaiting).log ∧
      AcceptedAt .action 1 (commandRun testConfig 3 oneDrain twoWaiting).log 4 ∧
      AcceptedAt .action 2 (commandRun testConfig 3 oneDrain twoWaiting).log 6 := by
  have hthread : ∀ entry ∈ (commandRun testConfig 3 oneDrain twoWaiting).log, entry.1 = 0 := by
    decide +kernel
  refine ⟨?_, ?_, ?_⟩
  · exact publication_in_submission_order testConfig 3 oneDrain twoWaiting .action
      fun _ => serialClaims_of_one_thread hthread
  · exact acceptedAt_of_get 3 (by decide +kernel)
  · exact acceptedAt_of_get 1 (by decide +kernel)

-- The drain of the connection claims the first invocation. Before it publishes, the
-- drain of the subscription claims the second one and publishes it.
def twoDrains : List (Move Request) :=
  [.spawn connected, .spawn subscribed] ++ List.replicate 4 (.step 0) ++ List.replicate 4
    (.step 1) ++ [.step 0]

theorem two_drains_out_of_order :
    ¬InSubmissionOrder twoWaiting .action (commandRun testConfig 3 twoDrains twoWaiting).log := by
  intro h
  have hlt := h _ [] (waiting 1 "reboot") (waiting 2 "locate") (List.append_nil _).symm rfl rfl rfl
      rfl rfl rfl
    (.inr ⟨rfl, by decide⟩) _ _ (acceptedAt_of_get 0 (by decide +kernel))
      (acceptedAt_of_get 1 (by decide +kernel))
  exact absurd hlt (by decide +kernel)

end Example

end RmqttThings.Commands
