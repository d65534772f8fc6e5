import RmqttThings.RuleEngine.Cache

namespace RmqttThings.RuleEngine

-- The decimal form of an id determines it and contains no colon, so the first colon
-- of a key separates the rule from the device.

theorem toList_toString_int (id : Int) :
    (toString id).toList =
      if 0 ≤ id then Nat.toDigits 10 id.toNat else '-' :: Nat.toDigits 10 (-id).toNat := by
  rw [Int.toString_eq_repr, Int.repr_eq_if]
  split_ifs
  · exact Nat.toList_repr
  · rw [String.toList_append, Nat.toList_repr]
    rfl

theorem toDigits_injective {m n : Nat} (h : Nat.toDigits 10 m = Nat.toDigits 10 n) : m = n := by
  rw [← Nat.ofDigitChars_ten_toDigits (n := m), h, Nat.ofDigitChars_ten_toDigits]

theorem notMem_toDigits {char : Char} (hchar : char.isDigit = false) (n : Nat) :
    char ∉ Nat.toDigits 10 n := by
  intro hmem
  have hdigit := Nat.isDigit_of_mem_toDigits (by decide) (by decide) hmem
  simp [hchar] at hdigit

theorem toString_int_injective {a b : Int} (h : toString a = toString b) : a = b := by
  have hlist := congrArg String.toList h
  rw [toList_toString_int, toList_toString_int] at hlist
  have hminus (n : Nat) : '-' ∉ Nat.toDigits 10 n := notMem_toDigits (by decide) n
  split_ifs at hlist with ha hb hb
  · have := toDigits_injective hlist
    omega
  · exact absurd (hlist ▸ List.mem_cons_self) (hminus a.toNat)
  · exact absurd (hlist ▸ List.mem_cons_self) (hminus b.toNat)
  · have := toDigits_injective (List.cons.inj hlist).2
    omega

theorem notMem_toString {char : Char} (hchar : char.isDigit = false) (hminus : char ≠ '-')
    (id : Int) :
    char ∉ (toString id).toList := by
  rw [toList_toString_int]
  split_ifs
  · exact notMem_toDigits hchar _
  · simp only [List.mem_cons, not_or]
    exact ⟨hminus, notMem_toDigits hchar _⟩

theorem colon_notMem_toString (id : Int) : ':' ∉ (toString id).toList :=
  notMem_toString (by decide) (by decide) id

theorem append_separator_inj {sep : Char} {first second rest rest' : List Char}
    (hfirst : sep ∉ first) (hsecond : sep ∉ second)
    (h : first ++ sep :: rest = second ++ sep :: rest') : first = second ∧ rest = rest' := by
  induction first generalizing second with
  | nil =>
      cases second with
      | nil => simpa using h
      | cons char second =>
          simp only [List.nil_append, List.cons_append, List.cons.injEq] at h
          exact absurd (h.1 ▸ List.mem_cons_self) hsecond
  | cons char first ih =>
      cases second with
      | nil =>
          simp only [List.nil_append, List.cons_append, List.cons.injEq] at h
          exact absurd (h.1 ▸ List.mem_cons_self) hfirst
      | cons other second =>
          simp only [List.cons_append, List.cons.injEq] at h
          simp only [List.mem_cons, not_or] at hfirst hsecond
          obtain ⟨he, hr⟩ := ih hfirst.2 hsecond.2 h.2
          exact ⟨by rw [h.1, he], hr⟩

theorem stateKey_inj {ruleId otherId : Int} {deviceId otherDevice : String} :
    InMemoryRuleStateStore.stateKey ruleId deviceId =
      InMemoryRuleStateStore.stateKey otherId otherDevice ↔
      ruleId = otherId ∧ deviceId = otherDevice := by
  constructor
  · intro h
    have hlist := congrArg String.toList h
    simp only [InMemoryRuleStateStore.stateKey, String.toList_append, List.append_assoc] at hlist
    obtain ⟨hid, hdevice⟩ :=
      append_separator_inj (colon_notMem_toString _) (colon_notMem_toString _) hlist
    exact ⟨toString_int_injective (String.toList_inj.mp hid), String.toList_inj.mp hdevice⟩
  · rintro ⟨rfl, rfl⟩
    rfl

-- Both Redis keys are the in-memory key behind a fixed prefix. The equation of a definition
-- that appends strings takes seconds to make, hence `delta`.
theorem dedupKey_eq (ruleId : Int) (deviceId : String) :
    RedisRuleStateStore.dedupKey ruleId deviceId =
      "alarm:dedup:" ++ InMemoryRuleStateStore.stateKey ruleId deviceId := by
  delta RedisRuleStateStore.dedupKey InMemoryRuleStateStore.stateKey
  rw [String.append_assoc, String.append_assoc, String.append_assoc]

theorem durationKey_eq (ruleId : Int) (deviceId : String) :
    RedisRuleStateStore.durationKey ruleId deviceId =
      "alarm:duration:" ++ InMemoryRuleStateStore.stateKey ruleId deviceId := by
  delta RedisRuleStateStore.durationKey InMemoryRuleStateStore.stateKey
  rw [String.append_assoc, String.append_assoc, String.append_assoc]

theorem dedupKey_inj {ruleId otherId : Int} {deviceId otherDevice : String} :
    RedisRuleStateStore.dedupKey ruleId deviceId = RedisRuleStateStore.dedupKey otherId
      otherDevice ↔ ruleId = otherId ∧ deviceId = otherDevice := by
  rw [dedupKey_eq, dedupKey_eq, String.append_right_inj, stateKey_inj]

theorem durationKey_inj {ruleId otherId : Int} {deviceId otherDevice : String} :
    RedisRuleStateStore.durationKey ruleId deviceId =
      RedisRuleStateStore.durationKey otherId otherDevice ↔
      ruleId = otherId ∧ deviceId = otherDevice := by
  rw [durationKey_eq, durationKey_eq, String.append_right_inj, stateKey_inj]

theorem dedupKey_ne_durationKey (ruleId otherId : Int) (deviceId otherDevice : String) :
    RedisRuleStateStore.dedupKey ruleId deviceId ≠
      RedisRuleStateStore.durationKey otherId otherDevice := by
  intro h
  have hlist := congrArg String.toList h
  rw [dedupKey_eq, durationKey_eq, String.toList_append, String.toList_append] at hlist
  -- the prefixes part at their eighth character
  have hdedup : "alarm:dedup:".toList = "alarm:d".toList ++ 'e' :: "dup:".toList := by decide
  have hduration : "alarm:duration:".toList = "alarm:d".toList ++ 'u' :: "ration:".toList := by
    decide
  rw [hdedup, hduration, List.append_assoc, List.append_assoc, List.append_cancel_left_eq,
    List.cons_append, List.cons_append, List.cons.injEq] at hlist
  exact absurd hlist.1 (by decide)

end RmqttThings.RuleEngine
