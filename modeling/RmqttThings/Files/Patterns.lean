import RmqttThings.Files.Directories
import Mathlib.Data.Set.Basic

namespace RmqttThings.Files

open Commands (firstInvalidIdentifierChar replace replaceChars segments startsWith_iff
  validateIdentifier)

-- What a rule without variables stands for: a directory with everything below it, all the
-- directories that begin with a text, or one directory.
inductive Pattern where
  | below (base : String)
  | starting (start : String)
  | only (directory : String)

def Pattern.directories : Pattern → Set String
  | below base => {directory | directory = base ∨ ∃ sub, directory = base ++ "/" ++ sub}
  | starting start => {directory | ∃ rest, directory = start ++ rest}
  | only directory => {directory}

inductive Denotes : String → Pattern → Prop where
  | below (base : String) : Denotes (base ++ "/*") (.below base)
  | starting (start : String) (h : ∀ base, start ≠ base ++ "/") :
      Denotes (start ++ "*") (.starting start)
  | only (rule : String) (h : ∀ start, rule ≠ start ++ "*") : Denotes rule (.only rule)

-- The directories that a rule without variables names.
def named (rule : String) : Set String :=
  {directory | ∃ pattern, Denotes rule pattern ∧ directory ∈ pattern.directories}

theorem Pattern.directories_nonempty (pattern : Pattern) : pattern.directories.Nonempty := by
  cases pattern with
  | below base => exact ⟨base, .inl rfl⟩
  | starting start => exact ⟨start, "", String.append_empty.symm⟩
  | only directory => exact ⟨directory, rfl⟩

section Suffixes

theorem stripSuffix_append (base ending : String) :
    stripSuffix (base ++ ending) ending = some base := by
  have hsuffix : ending.toList.isSuffixOf (base ++ ending).toList = true := by
    rw [List.isSuffixOf_iff_suffix, String.toList_append]
    exact List.suffix_append _ _
  rw [stripSuffix, if_pos hsuffix]
  simp [String.toList_append]

theorem stripSuffix_eq_some {text ending base : String} (h : stripSuffix text ending = some base) :
    text = base ++ ending := by
  unfold stripSuffix at h
  split_ifs at h with hsuffix
  obtain ⟨front, hfront⟩ := List.isSuffixOf_iff_suffix.mp hsuffix
  rw [Option.some.injEq] at h
  subst h
  rw [← String.toList_inj, String.toList_append, ← hfront]
  simp

theorem ne_of_stripSuffix_eq_none {text ending : String} (h : stripSuffix text ending = none)
    (base : String) :
    text ≠ base ++ ending := by
  rintro rfl
  rw [stripSuffix_append] at h
  cases h

theorem stripSuffix_eq_none {text ending : String} (h : ∀ base, text ≠ base ++ ending) :
    stripSuffix text ending = none := by
  cases hbase : stripSuffix text ending with
  | none => rfl
  | some base => exact absurd (stripSuffix_eq_some hbase) (h base)

theorem startsWith_iff_append {text start : String} :
    Commands.startsWith text start = true ↔ ∃ rest, text = start ++ rest := by
  rw [startsWith_iff]
  constructor
  · rintro ⟨rest, hrest⟩
    refine ⟨String.ofList rest, ?_⟩
    rw [← String.toList_inj, String.toList_append, String.toList_ofList, hrest]
  · rintro ⟨rest, rfl⟩
    rw [String.toList_append]
    exact List.prefix_append _ _

end Suffixes

section Denotation

variable {rule directory : String}

theorem exists_denotes (rule : String) : ∃ pattern, Denotes rule pattern := by
  cases hbase : stripSuffix rule "/*" with
  | some base =>
      rw [stripSuffix_eq_some hbase]
      exact ⟨_, .below base⟩
  | none =>
      cases hstart : stripSuffix rule "*" with
      | some start =>
          obtain rfl := stripSuffix_eq_some hstart
          refine ⟨_, .starting start ?_⟩
          rintro base rfl
          exact ne_of_stripSuffix_eq_none hbase base (by rw [String.append_assoc]; rfl)
      | none => exact ⟨_, .only rule (ne_of_stripSuffix_eq_none hstart)⟩

theorem ruleAllows_of_denotes {pattern : Pattern} (h : Denotes rule pattern) :
    ruleAllows rule directory = true ↔ directory ∈ pattern.directories := by
  cases h with
  | below base =>
      rw [ruleAllows, stripSuffix_append]
      simp only [Bool.or_eq_true, beq_iff_eq, startsWith_iff_append]
      rfl
  | starting start hslash =>
      have hnone : stripSuffix (start ++ "*") "/*" = none := by
        refine stripSuffix_eq_none fun base heq => hslash base ?_
        have hsplit : base ++ "/*" = base ++ "/" ++ "*" := by rw [String.append_assoc]; rfl
        rw [hsplit] at heq
        exact String.append_left_inj _ |>.mp heq
      rw [ruleAllows, hnone, stripSuffix_append]
      exact startsWith_iff_append
  | only rule hstar =>
      have hslash : ∀ base, rule ≠ base ++ "/*" := by
        rintro base rfl
        exact hstar (base ++ "/") (by rw [String.append_assoc]; rfl)
      rw [ruleAllows, stripSuffix_eq_none hslash, stripSuffix_eq_none hstar]
      exact beq_iff_eq

-- The code allows what the rule names.
theorem ruleAllows_iff : ruleAllows rule directory = true ↔ directory ∈ named rule := by
  constructor
  · intro h
    obtain ⟨pattern, hpattern⟩ := exists_denotes rule
    exact ⟨pattern, hpattern, (ruleAllows_of_denotes hpattern).mp h⟩
  · rintro ⟨pattern, hpattern, hdirectory⟩
    exact (ruleAllows_of_denotes hpattern).mpr hdirectory

theorem allowed_iff {rules : List String} {productId deviceId : String} :
    isFileUploadDirectoryAllowed rules productId deviceId directory = true ↔
      ∃ rule ∈ rules, directory ∈ named (instantiate rule productId deviceId) := by
  simp only [isFileUploadDirectoryAllowed, List.any_eq_true, ruleAllows_iff]

theorem named_nonempty (rule : String) : (named rule).Nonempty := by
  obtain ⟨pattern, hpattern⟩ := exists_denotes rule
  obtain ⟨directory, hdirectory⟩ := pattern.directories_nonempty
  exact ⟨directory, pattern, hpattern, hdirectory⟩

end Denotation

-- The text has a variable in it.
def HasVariable (text : String) : Prop :=
  "$\x7bproductId\x7d".toList <:+: text.toList ∨ "$\x7bdeviceId\x7d".toList <:+: text.toList

instance (text : String) : Decidable (HasVariable text) := inferInstanceAs (Decidable (_ ∨ _))

-- Without a device a directory is refused exactly when the rule, its variables erased, does not
-- name it; what is left of a rule always names one.
theorem erased_rule_inert_iff (rule : String) :
    (∀ directory, isFileUploadDirectoryAllowed [rule] "" "" directory = false ↔
        directory ∉ named (instantiate rule "" "")) ∧
      ∃ directory, isFileUploadDirectoryAllowed [rule] "" "" directory = true := by
  have hallowed : ∀ directory, isFileUploadDirectoryAllowed [rule] "" "" directory = true ↔
      directory ∈ named (instantiate rule "" "") := by
    intro directory
    rw [allowed_iff]
    simp
  constructor
  · intro directory
    rw [← Bool.not_eq_true, hallowed]
  · obtain ⟨directory, hdirectory⟩ := named_nonempty (instantiate rule "" "")
    exact ⟨directory, (hallowed directory).mpr hdirectory⟩

-- The rule of the demo configuration, and a rule that begins with a variable.
theorem erased_rules_allow :
    (HasVariable "$\x7bproductId\x7d/$\x7bdeviceId\x7d/*" ∧
        isFileUploadDirectoryAllowed ["$\x7bproductId\x7d/$\x7bdeviceId\x7d/*"] "" "" "/" = true) ∧
      HasVariable "$\x7bdeviceId\x7d*" ∧
        isFileUploadDirectoryAllowed ["$\x7bdeviceId\x7d*"] "" "" "demo_product/device-a" =
          true := by
  decide +kernel

section Replacement

variable {pattern replacement : List Char}

theorem replaceChars_skip (skipped rest : List Char) :
    replaceChars pattern replacement skipped.length (skipped ++ rest) = replaceChars pattern
      replacement 0 rest := by
  induction skipped with
  | nil => rfl
  | cons char skipped ih => exact ih

theorem replaceChars_pattern (hpattern : pattern ≠ []) (rest : List Char) :
    replaceChars pattern replacement 0 (pattern ++ rest) = replacement ++ replaceChars pattern
      replacement 0 rest := by
  cases pattern with
  | nil => exact absurd rfl hpattern
  | cons char pattern =>
      have hprefix : (char :: pattern).isPrefixOf (char :: (pattern ++ rest)) = true :=
        List.isPrefixOf_iff_prefix.mpr (List.prefix_append _ _)
      have hskip := @replaceChars_skip (char :: pattern) replacement pattern rest
      rw [List.cons_append, replaceChars, if_pos hprefix, List.length_cons, Nat.add_sub_cancel,
        hskip]

-- Characters that do not begin the pattern stay.
theorem replaceChars_append {front : List Char} (h : ∀ char ∈ front, pattern.head? ≠ some char)
    (hpattern : pattern ≠ []) (rest : List Char) :
    replaceChars pattern replacement 0 (front ++ rest) = front ++ replaceChars pattern replacement 0
      rest := by
  induction front with
  | nil => rfl
  | cons char front ih =>
      have hprefix : ¬pattern.isPrefixOf (char :: (front ++ rest)) = true := by
        intro hprefix
        obtain ⟨more, hmore⟩ := List.isPrefixOf_iff_prefix.mp hprefix
        cases pattern with
        | nil => exact hpattern rfl
        | cons first pattern =>
            rw [List.cons_append, List.cons.injEq] at hmore
            exact h char List.mem_cons_self (by rw [List.head?_cons, hmore.1])
      have hrest := ih fun other hother => h other (List.mem_cons_of_mem _ hother)
      rw [List.cons_append, replaceChars, if_neg hprefix, hrest, List.cons_append]

theorem replaceChars_free {text : List Char} (h : ¬pattern <:+: text) :
    replaceChars pattern replacement 0 text = text := by
  induction text with
  | nil => rfl
  | cons char text ih =>
      rw [List.infix_cons_iff, not_or] at h
      have hprefix : ¬pattern.isPrefixOf (char :: text) = true := fun hprefix =>
        h.1 (List.isPrefixOf_iff_prefix.mp hprefix)
      rw [replaceChars, if_neg hprefix, ih h.2]

end Replacement

section Identifiers

variable {name field : String}

theorem identifier_char (h : validateIdentifier name field = .ok ()) {char : Char}
    (hchar : char ∈ name.toList) :
    Api.isAsciiAlphanumeric char = true ∨ char = '-' ∨ char = '_' := by
  unfold validateIdentifier at h
  split_ifs at h
  cases hfind : firstInvalidIdentifierChar name with
  | some invalid => simp [hfind] at h
  | none =>
      have hvalid := List.find?_eq_none.mp hfind char hchar
      simpa [or_assoc, imp_iff_not_or] using hvalid

theorem notMem_identifier (h : validateIdentifier name field = .ok ()) (char : Char)
    (hchar : ¬(Api.isAsciiAlphanumeric char = true ∨ char = '-' ∨ char = '_')) :
    char ∉ name.toList :=
  fun hmem => hchar (identifier_char h hmem)

end Identifiers

section Devices

variable {productId deviceId : String}

-- The own directory of a device.
def deviceDirectory (productId deviceId : String) : String := productId ++ "/" ++ deviceId

theorem instantiate_device (hproduct : '$' ∉ productId.toList) {tail : String}
    (htail : ¬HasVariable tail) :
    instantiate ("$\x7bproductId\x7d/$\x7bdeviceId\x7d" ++ tail) productId deviceId =
      deviceDirectory productId deviceId ++ tail := by
  have htemplate : ("$\x7bproductId\x7d/$\x7bdeviceId\x7d" ++ tail).toList =
      "$\x7bproductId\x7d".toList ++ (['/'] ++ '$' :: ("\x7bdeviceId\x7d".toList ++ tail.toList)) :=
    String.toList_append
  have hproductFree : replaceChars "$\x7bproductId\x7d".toList productId.toList 0
      (['/'] ++ '$' :: ("\x7bdeviceId\x7d".toList ++ tail.toList)) =
      ['/'] ++ '$' :: ("\x7bdeviceId\x7d".toList ++ tail.toList) := by
    have hother : ¬("$\x7bproductId\x7d".toList.isPrefixOf
        ('$' :: ("\x7bdeviceId\x7d".toList ++ tail.toList)) = true) := by
      simp
    rw [replaceChars_append (by simp) (by simp), replaceChars, if_neg hother,
      replaceChars_append (by simp) (by simp), replaceChars_free fun hinfix => htail (.inl hinfix)]
  have hdevice : (productId.toList ++
      (['/'] ++ '$' :: ("\x7bdeviceId\x7d".toList ++ tail.toList))) =
      (productId.toList ++ ['/']) ++ ("$\x7bdeviceId\x7d".toList ++ tail.toList) := by
    simp
  have hfront : ∀ char ∈ productId.toList ++ ['/'], "$\x7bdeviceId\x7d".toList.head? ≠
      some char := by
    intro char hchar hhead
    obtain rfl : '$' = char := Option.some.inj hhead
    rcases List.mem_append.mp hchar with hmem | hslash
    · exact hproduct hmem
    · simp at hslash
  have hinner : (replace ("$\x7bproductId\x7d/$\x7bdeviceId\x7d" ++ tail) "$\x7bproductId\x7d"
      productId).toList =
      (productId.toList ++ ['/']) ++ ("$\x7bdeviceId\x7d".toList ++ tail.toList) := by
    refine String.toList_ofList.trans ?_
    rw [htemplate, replaceChars_pattern (by simp), hproductFree, hdevice]
  rw [instantiate, replace, hinner, replaceChars_append hfront (by simp),
    replaceChars_pattern (by simp),
    replaceChars_free fun hinfix => htail (.inr hinfix), ← String.toList_inj, deviceDirectory]
  simp

-- A rule for the own directory of a device, for everything below it, or for a text below it.
inductive DeviceRule : String → Prop where
  | own : DeviceRule "$\x7bproductId\x7d/$\x7bdeviceId\x7d"
  | below : DeviceRule "$\x7bproductId\x7d/$\x7bdeviceId\x7d/*"
  | text (text : String) (h : ¬HasVariable text) :
      DeviceRule ("$\x7bproductId\x7d/$\x7bdeviceId\x7d/" ++ text)

-- The directory, or one below it.
def Within (root directory : String) : Prop :=
  directory = root ∨ ∃ sub, directory = root ++ "/" ++ sub

theorem instantiate_deviceRule (hproduct : '$' ∉ productId.toList) {rule : String}
    (h : DeviceRule rule) :
    instantiate rule productId deviceId = deviceDirectory productId deviceId ∨
      ∃ text, instantiate rule productId deviceId = deviceDirectory productId deviceId ++ "/" ++
        text := by
  cases h with
  | own =>
      left
      have hfree : ¬HasVariable "" := by decide
      have hown : instantiate ("$\x7bproductId\x7d/$\x7bdeviceId\x7d" ++ "") productId deviceId =
          deviceDirectory productId deviceId ++ "" := instantiate_device hproduct hfree
      simpa using hown
  | below =>
      right
      have hfree : ¬HasVariable "/*" := by decide
      have htemplate : "$\x7bproductId\x7d/$\x7bdeviceId\x7d/*" =
          "$\x7bproductId\x7d/$\x7bdeviceId\x7d" ++ "/*" := by
        decide +kernel
      refine ⟨"*", ?_⟩
      rw [htemplate, instantiate_device hproduct hfree, String.append_assoc]
      rfl
  | text text hfree =>
      right
      have hslash : ¬HasVariable ("/" ++ text) := by
        simpa [HasVariable, String.toList_append, List.infix_cons_iff] using hfree
      refine ⟨text, ?_⟩
      have htemplate : "$\x7bproductId\x7d/$\x7bdeviceId\x7d/" ++ text =
          "$\x7bproductId\x7d/$\x7bdeviceId\x7d" ++ ("/" ++ text) := by
        have hslash : "$\x7bproductId\x7d/$\x7bdeviceId\x7d/" =
            "$\x7bproductId\x7d/$\x7bdeviceId\x7d" ++ "/" := by
          decide +kernel
        rw [← String.append_assoc, hslash]
      rw [htemplate, instantiate_device hproduct hslash, String.append_assoc]

-- Where an ending has been cut off: within the root, or below it.
theorem cut_below {root base ending text : String} (h : base ++ ending = root ++ "/" ++ text) :
    (∃ cut, root.toList = base.toList ++ cut ∧ ending.toList = cut ++ '/' :: text.toList) ∨
      ∃ sub, base = root ++ "/" ++ sub := by
  have hlist : base.toList ++ ending.toList = root.toList ++ '/' :: text.toList := by
    rw [← String.toList_append, h]
    exact toList_join root text
  rcases List.append_eq_append_iff.mp hlist with ⟨cut, hroot, hending⟩ | ⟨cut, hbase, htext⟩
  · exact .inl ⟨cut, hroot, hending⟩
  · cases cut with
    | nil => exact .inl ⟨[], by simpa using hbase.symm, htext.symm⟩
    | cons char sub =>
        rw [List.cons_append, List.cons.injEq] at htext
        refine .inr ⟨String.ofList sub, ?_⟩
        rw [← String.toList_inj, toList_join, String.toList_ofList, hbase, htext.1]

theorem Within.append {root directory : String} (h : ∃ sub, directory = root ++ "/" ++ sub)
    (rest : String) :
    Within root (directory ++ rest) := by
  obtain ⟨sub, rfl⟩ := h
  exact .inr ⟨sub ++ rest, String.append_assoc⟩

-- What such a rule names lies within the directory: its star comes after a slash.
theorem within_of_named {root rule directory : String} (hroot : '*' ∉ root.toList)
    (hrule : rule = root ∨ ∃ text, rule = root ++ "/" ++ text) (h : directory ∈ named rule) :
    Within root directory := by
  obtain ⟨pattern, hpattern, hdirectory⟩ := h
  cases hpattern with
  | below base =>
      rcases hrule with rfl | ⟨text, htext⟩
      · simp [String.toList_append] at hroot
      · rcases cut_below htext with ⟨cut, hcut, hending⟩ | hbelow
        · have hnil : cut = [] := by
            cases cut with
            | nil => rfl
            | cons char cut => cases cut <;> simp at hending
          rw [hnil, List.append_nil, String.toList_inj] at hcut
          rw [hcut]
          exact hdirectory
        · rcases hdirectory with rfl | ⟨sub, rfl⟩
          · exact .inr hbelow
          · rw [String.append_assoc]
            exact Within.append hbelow _
  | starting start hslash =>
      rcases hrule with rfl | ⟨text, htext⟩
      · simp [String.toList_append] at hroot
      · obtain ⟨rest, rfl⟩ := hdirectory
        rcases cut_below htext with ⟨cut, -, hending⟩ | hbelow
        · cases cut <;> simp at hending
        · exact Within.append hbelow rest
  | only rule hstar =>
      obtain rfl : directory = rule := hdirectory
      exact hrule

theorem within_of_allowed (hproduct : validateIdentifier productId "product_id" = .ok ())
    (hdevice : validateIdentifier deviceId "device_id" = .ok ()) {rules : List String}
    (hrules : ∀ rule ∈ rules, DeviceRule rule) {directory : String}
    (h : isFileUploadDirectoryAllowed rules productId deviceId directory = true) :
    Within (deviceDirectory productId deviceId) directory := by
  obtain ⟨rule, hmem, hnamed⟩ := allowed_iff.mp h
  have hstar : '*' ∉ (deviceDirectory productId deviceId).toList := by
    have hproductStar := notMem_identifier hproduct '*' (by decide)
    have hdeviceStar := notMem_identifier hdevice '*' (by decide)
    simp [deviceDirectory, String.toList_append, hproductStar, hdeviceStar]
  have hdollar := notMem_identifier hproduct '$' (by decide)
  exact within_of_named hstar (instantiate_deviceRule hdollar (hrules rule hmem)) hnamed

theorem segments_plain {text : String} (h : '/' ∉ text.toList) : segments text = [text] := by
  have happend := segments_append h ""
  rw [String.append_empty] at happend
  rw [happend]
  simp [segments]

-- The first two segments tell whose directory it is.
theorem take_segments (hproduct : '/' ∉ productId.toList) (hdevice : '/' ∉ deviceId.toList)
    {directory : String} (h : Within (deviceDirectory productId deviceId) directory) :
    (segments directory).take 2 = [productId, deviceId] := by
  rcases h with rfl | ⟨sub, rfl⟩
  · rw [deviceDirectory, segments_join, segments_plain hproduct, segments_plain hdevice]
    rfl
  · rw [segments_join, deviceDirectory, segments_join, segments_plain hproduct,
      segments_plain hdevice]
    rfl

-- Nothing lies within the directories of two devices.
theorem device_of_within {productId' deviceId' directory : String}
    (hproduct : '/' ∉ productId.toList) (hdevice : '/' ∉ deviceId.toList)
    (hproduct' : '/' ∉ productId'.toList) (hdevice' : '/' ∉ deviceId'.toList)
    (h : Within (deviceDirectory productId deviceId) directory)
    (h' : Within (deviceDirectory productId' deviceId') directory) :
    (productId, deviceId) = (productId', deviceId') := by
  have hsegments := take_segments hproduct hdevice h
  rw [take_segments hproduct' hdevice' h'] at hsegments
  simp only [List.cons.injEq, and_true] at hsegments
  rw [hsegments.1, hsegments.2]

-- A directory is never allowed to two devices.
theorem directories_isolated (productId deviceId productId' deviceId' : String)
    (hproduct : validateIdentifier productId "product_id" = .ok ())
    (hdevice : validateIdentifier deviceId "device_id" = .ok ())
    (hproduct' : validateIdentifier productId' "product_id" = .ok ())
    (hdevice' : validateIdentifier deviceId' "device_id" = .ok ())
    (hne : (productId, deviceId) ≠ (productId', deviceId')) (rules : List String)
    (hrules : ∀ rule ∈ rules, DeviceRule rule) (directory : String) :
    ¬(isFileUploadDirectoryAllowed rules productId deviceId directory = true ∧
      isFileUploadDirectoryAllowed rules productId' deviceId' directory = true) := by
  rintro ⟨hallowed, hallowed'⟩
  have hwithin := within_of_allowed hproduct hdevice hrules hallowed
  have hwithin' := within_of_allowed hproduct' hdevice' hrules hallowed'
  have hslash : ¬(Api.isAsciiAlphanumeric '/' = true ∨ '/' = '-' ∨ '/' = '_') := by decide
  exact hne (device_of_within (notMem_identifier hproduct '/' hslash)
    (notMem_identifier hdevice '/' hslash)
    (notMem_identifier hproduct' '/' hslash) (notMem_identifier hdevice' '/' hslash) hwithin
      hwithin')

theorem device_a_isolated :
    ¬(isFileUploadDirectoryAllowed ["$\x7bproductId\x7d/$\x7bdeviceId\x7d/*"] "demo_product"
      "device-a"
          "demo_product/device-ab" = true ∧
        isFileUploadDirectoryAllowed ["$\x7bproductId\x7d/$\x7bdeviceId\x7d/*"] "demo_product"
          "device-ab" "demo_product/device-ab" = true) := by
  refine directories_isolated "demo_product" "device-a" "demo_product" "device-ab"
    (by decide +kernel) (by decide +kernel)
    (by decide +kernel) (by decide +kernel) (by decide) _ ?_ _
  intro rule hrule
  rw [List.mem_singleton.mp hrule]
  exact .below

end Devices

end RmqttThings.Files
