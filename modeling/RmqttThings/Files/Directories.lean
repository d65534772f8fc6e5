import RmqttThings.Devices.Webhooks

namespace RmqttThings.Files

open Api (ApiError)
open Commands (replace segments startsWith startsWith_iff)
open Devices (rsplitOnce)

-- `str::strip_suffix`.
def stripSuffix (text ending : String) : Option String :=
  if ending.toList.isSuffixOf text.toList then
    some (String.ofList (text.toList.take (text.toList.length - ending.toList.length)))
  else none

-- A rule for one device.
def instantiate (rule productId deviceId : String) : String :=
  replace (replace rule "$\x7bproductId\x7d" productId) "$\x7bdeviceId\x7d" deviceId

def ruleAllows (rule directory : String) : Bool :=
  match stripSuffix rule "/*" with
  | some base => directory == base || startsWith directory (base ++ "/")
  | none =>
      match stripSuffix rule "*" with
      | some start => startsWith directory start
      | none => directory == rule

def isFileUploadDirectoryAllowed (rules : List String) (productId deviceId directory : String) :
    Bool :=
  rules.any fun rule => ruleAllows (instantiate rule productId deviceId) directory

example : isFileUploadDirectoryAllowed ["$\x7bproductId\x7d/$\x7bdeviceId\x7d/*", "public*"] "p" "d"
    "p/d/logs" = true := by
  decide +kernel
example : isFileUploadDirectoryAllowed ["$\x7bproductId\x7d/$\x7bdeviceId\x7d/*", "public*"] "p" "d"
    "p/d2" = false := by
  decide +kernel

-- The check of a key that the download handler makes. The length is counted in bytes.
def validateFileKey (fileKey : String) : Except ApiError Unit :=
  if fileKey.isEmpty ∨ fileKey.utf8ByteSize > 1024 ∨ startsWith fileKey "/" ∨
    (segments fileKey).any (· == "..") then
    .error (.badRequest "Invalid fileKey")
  else .ok ()

-- The directory of a key, as the download handler takes it.
def directoryOf (key : String) : String := ((rsplitOnce '/' key).map Prod.fst).getD ""

section Rules

-- A rule that ends in a star.
def wildcard (rule : String) : Bool :=
  (stripSuffix rule "/*").isSome || (stripSuffix rule "*").isSome

theorem startsWith_append {text start : String} (h : startsWith text start = true) (rest : String) :
    startsWith (text ++ rest) start = true := by
  rw [startsWith_iff] at h ⊢
  rw [String.toList_append]
  exact h.trans (List.prefix_append _ _)

-- Where a rule with a star lets a directory be, everything below it is allowed as well.
theorem ruleAllows_below {rule directory : String} (hwild : wildcard rule = true)
    (h : ruleAllows rule directory = true)
    (sub : String) : ruleAllows rule (directory ++ "/" ++ sub) = true := by
  unfold ruleAllows at h ⊢
  cases hbase : stripSuffix rule "/*" with
  | some base =>
      simp only [hbase, Bool.or_eq_true, beq_iff_eq] at h ⊢
      right
      rcases h with rfl | h
      · simp [startsWith, String.toList_append]
      · rw [String.append_assoc]
        exact startsWith_append h _
  | none =>
      cases hstart : stripSuffix rule "*" with
      | some start =>
          simp only [hbase, hstart] at h ⊢
          rw [String.append_assoc]
          exact startsWith_append h _
      | none => simp [wildcard, hbase, hstart] at hwild

theorem allowed_below {rules : List String} {productId deviceId directory : String}
    (h : ∃ rule ∈ rules, wildcard (instantiate rule productId deviceId) = true ∧
      ruleAllows (instantiate rule productId deviceId) directory = true) (sub : String) :
    isFileUploadDirectoryAllowed rules productId deviceId (directory ++ "/" ++ sub) = true := by
  obtain ⟨rule, hmem, hwild, hallows⟩ := h
  exact List.any_eq_true.mpr ⟨rule, hmem, ruleAllows_below hwild hallows sub⟩

end Rules

section Keys

theorem toList_join (directory name : String) :
    (directory ++ "/" ++ name).toList = directory.toList ++ '/' :: name.toList := by
  simp [String.toList_append]

theorem segments_join (directory name : String) :
    segments (directory ++ "/" ++ name) = segments directory ++ segments name := by
  rw [segments, toList_join, List.splitOn_append_cons_of_beq _ _ BEq.rfl, List.map_append, segments,
    segments]

-- The last separator of a text.
theorem rsplitOnce_append {separator : Char} {before after : List Char} (h : separator ∉ after) :
    rsplitOnce separator (String.ofList (before ++ separator :: after)) =
      some (String.ofList before, String.ofList after) := by
  have hspan : (after.reverse ++ separator :: before.reverse).span (· != separator) =
      (after.reverse, separator :: before.reverse) := by
    have hkeep : ∀ char ∈ after.reverse, (char != separator) = true := by
      intro char hchar
      rw [bne_iff_ne]
      rintro rfl
      exact h (List.mem_reverse.mp hchar)
    rw [List.span_eq_takeWhile_dropWhile, List.takeWhile_append_of_pos hkeep,
      List.dropWhile_append_of_pos hkeep]
    simp
  have hreverse : (before ++ separator :: after).reverse = after.reverse ++ separator ::
      before.reverse := by simp
  rw [rsplitOnce, String.toList_ofList, hreverse, hspan]
  simp

theorem rsplitOnce_eq_some {separator : Char} {text front back : String}
    (h : rsplitOnce separator text = some (front, back)) :
    text.toList = front.toList ++ separator :: back.toList ∧ separator ∉ back.toList := by
  have hsplit := List.takeWhile_append_dropWhile (p := (· != separator)) (l := text.toList.reverse)
  rw [rsplitOnce, List.span_eq_takeWhile_dropWhile] at h
  cases hdrop : text.toList.reverse.dropWhile (· != separator) with
  | nil => simp [hdrop] at h
  | cons char rest =>
      have hchar : char = separator := by
        have hhead := List.head?_dropWhile_not (· != separator) text.toList.reverse
        simpa [hdrop] using hhead
      subst hchar
      simp only [hdrop, Option.some.injEq, Prod.mk.injEq] at h
      obtain ⟨rfl, rfl⟩ := h
      rw [hdrop] at hsplit
      constructor
      · simpa using (congrArg List.reverse hsplit).symm
      · rw [String.toList_ofList, List.mem_reverse]
        intro hmem
        simpa using List.mem_takeWhile_imp hmem

theorem rsplitOnce_eq_none {separator : Char} {text : String} :
    rsplitOnce separator text = none ↔ separator ∉ text.toList := by
  rw [← Devices.rsplitOnce_isSome, Option.not_isSome_iff_eq_none]

-- The directory of a key goes on into the file name, if that has a slash.
theorem directoryOf_join (directory name : String) :
    directoryOf (directory ++ "/" ++ name) =
      ((rsplitOnce '/' name).map Prod.fst).elim directory fun sub => directory ++ "/" ++ sub := by
  have hkey : directory ++ "/" ++ name = String.ofList (directory.toList ++ '/' ::
      name.toList) := by
    rw [← toList_join, String.ofList_toList]
  cases hname : rsplitOnce '/' name with
  | none =>
      rw [directoryOf, hkey, rsplitOnce_append (rsplitOnce_eq_none.mp hname)]
      simp
  | some parts =>
      obtain ⟨hlist, hback⟩ := rsplitOnce_eq_some hname
      have hsplit : directory.toList ++ '/' :: name.toList =
          (directory.toList ++ '/' :: parts.1.toList) ++ '/' :: parts.2.toList := by
        rw [hlist]
        simp
      rw [directoryOf, hkey, hsplit, rsplitOnce_append hback, ← toList_join, String.ofList_toList]
      rfl

-- A text in front changes the first segment only.
theorem segments_append {front : String} (h : '/' ∉ front.toList) (name : String) :
    segments (front ++ name) = (segments name).modifyHead (front ++ ·) := by
  have hchars : ∀ chars : List Char, '/' ∉ chars → (chars ++ name.toList).splitOn '/' =
      (name.toList.splitOn '/').modifyHead (chars ++ ·) := by
    intro chars
    induction chars with
    | nil =>
        intro _
        rw [List.nil_append]
        cases name.toList.splitOn '/' <;> rfl
    | cons char chars ih =>
        intro hchar
        have hne : (char == '/') = false := by
          rw [beq_eq_false_iff_ne]
          rintro rfl
          exact hchar List.mem_cons_self
        rw [List.cons_append, List.splitOn_cons_eq_if_modifyHead, hne,
          ih fun hmem => hchar (List.mem_cons_of_mem _ hmem)]
        cases name.toList.splitOn '/' <;> rfl
  rw [segments, String.toList_append, hchars _ h, segments]
  cases name.toList.splitOn '/' with
  | nil => rfl
  | cons first rest => simp [String.ofList_append]

theorem rsplitOnce_append_front (front name : String) (h : '/' ∉ front.toList) :
    (rsplitOnce '/' (front ++ name)).map Prod.fst = ((rsplitOnce '/' name).map Prod.fst).map
      (front ++ ·) := by
  cases hname : rsplitOnce '/' name with
  | none =>
      have hnone : rsplitOnce '/' (front ++ name) = none := by
        rw [rsplitOnce_eq_none, String.toList_append, List.mem_append, not_or]
        exact ⟨h, rsplitOnce_eq_none.mp hname⟩
      rw [hnone]
      rfl
  | some parts =>
      obtain ⟨hlist, hback⟩ := rsplitOnce_eq_some hname
      have hkey : front ++ name = String.ofList ((front.toList ++ parts.1.toList) ++ '/' ::
          parts.2.toList) := by
        rw [← String.toList_inj, String.toList_append, hlist]
        simp
      rw [hkey, rsplitOnce_append hback]
      simp

end Keys

end RmqttThings.Files
