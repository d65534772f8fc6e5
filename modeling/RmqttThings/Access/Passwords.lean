import RmqttThings.Access.Isolation
import RmqttThings.RuleEngine.Keys
import Mathlib.Algebra.Order.Group.Unbundled.Int
import Mathlib.Data.Set.Function

namespace RmqttThings.Access

open Commands (parseI64)

-- A password that has been taken apart.
structure Password where
  nonce : String
  timestampStr : String
  hash : String
  timestamp : Int
  deriving DecidableEq

-- What `auth` does with a password before it looks at the clock.
def parsePassword (password : String) : Option Password :=
  match (password.toList.splitOn '.').map String.ofList with
  | [nonce, timestampStr, hash] =>
      if nonce.utf8ByteSize ≠ 6 then none
      else (parseI64 timestampStr).map fun timestamp => ⟨nonce, timestampStr, hash, timestamp⟩
  | _ => none

def parseAuth (payload : AuthPayload) : Option Password :=
  if payload.clientId.utf8ByteSize > 64 ∨ payload.password.utf8ByteSize > 256 ∨
    payload.password.isEmpty then none
  else parsePassword payload.password

-- What a build does with `i64` arithmetic that overflows: a debug build panics, a
-- release build wraps.
inductive Profile where
  | debug
  | release

instance (value : Int) : Decidable (FitsI64 value) := inferInstanceAs (Decidable (_ ∧ _))

-- The result of an operation with this exact result, or `none` for a panic.
def Profile.arith (profile : Profile) (exact : Int) : Option Int :=
  match profile with
  | debug => if FitsI64 exact then some exact else none
  | release => some (wrapI64 exact)

-- `(now - timestamp).abs()`.
def timeDiff (profile : Profile) (now timestamp : Int) : Option Int := do
  let difference ← profile.arith (now - timestamp)
  profile.arith difference.natAbs

-- The password is let past the timestamp check.
def passesCheck (profile : Profile) (config : AuthConfig) (now : Int) (password : Password) :
    Bool :=
  (timeDiff profile now password.timestamp).any (· ≤ config.timestampToleranceSecs)

def toSign (config : AuthConfig) (clientId : String) (password : Password) : String :=
  clientId ++ "." ++ password.nonce ++ "." ++ password.timestampStr ++ "." ++ config.suffix

section Auth

variable (hmacSha1 : String → String → String)

-- `auth` behind the timestamp check.
def verifySignature (config : AuthConfig) (env : AuthEnv) (payload : AuthPayload)
    (password : Password) (tables : AccessTables) : Decision × AccessTables :=
  if hmacSha1 config.suffix (toSign config payload.clientId password) ≠ password.hash then (.deny,
    tables)
  else
    match payload.username with
    | none => (.deny, tables)
    | some productId => checkDeviceAdmission env productId payload.clientId tables

theorem auth_eq (config : AuthConfig) (env : AuthEnv) (payload : AuthPayload)
    (tables : AccessTables) :
    auth hmacSha1 config env payload tables =
      match parseAuth payload with
      | none => (.deny, tables)
      | some password =>
          if passesCheck .release config env.now password then
            verifySignature hmacSha1 config env payload password tables
          else (.deny, tables) := by
  unfold auth parseAuth parsePassword
  generalize (payload.password.toList.splitOn '.').map String.ofList = parts
  by_cases hlength : payload.clientId.utf8ByteSize > 64 ∨ payload.password.utf8ByteSize > 256 ∨
      payload.password.isEmpty
  · rw [if_pos hlength, if_pos hlength]
  · rw [if_neg hlength, if_neg hlength]
    match parts with
    | [] | [_] | [_, _] | _ :: _ :: _ :: _ :: _ => rfl
    | [nonce, timestampStr, hash] =>
        by_cases hnonce : nonce.utf8ByteSize ≠ 6
        · simp only [if_pos hnonce]
        · simp only [if_neg hnonce]
          cases hparse : parseI64 timestampStr with
          | none => rfl
          | some timestamp =>
              have hpasses : passesCheck .release config env.now ⟨nonce, timestampStr, hash,
                  timestamp⟩ =
                  decide (wrapI64 (wrapI64 (env.now - timestamp)).natAbs ≤
                    config.timestampToleranceSecs) := rfl
              simp only [Option.map_some, hpasses, decide_eq_true_eq]
              by_cases hle : wrapI64 (wrapI64 (env.now - timestamp)).natAbs ≤
                config.timestampToleranceSecs
              · rw [if_pos hle, if_neg (not_lt.mpr hle)]
                rfl
              · rw [if_neg hle, if_pos (not_le.mp hle)]

-- Only a password that is let past the check, with the signature of the client, is allowed.
theorem signed_of_allow {config : AuthConfig} {env : AuthEnv} {payload : AuthPayload}
    {tables : AccessTables} (h : (auth hmacSha1 config env payload tables).1 = .allow) :
    ∃ password, parseAuth payload = some password ∧ passesCheck .release config env.now password =
      true ∧ hmacSha1 config.suffix (toSign config payload.clientId password) = password.hash := by
  rw [auth_eq] at h
  cases hparse : parseAuth payload with
  | none => simp [hparse] at h
  | some password =>
      simp only [hparse, verifySignature] at h
      split_ifs at h with hpasses hhash
      exact ⟨password, rfl, hpasses, not_not.mp hhash⟩

end Auth

section Freshness

theorem arith_of_fits {exact : Int} (h : FitsI64 exact) (profile : Profile) :
    profile.arith exact = some exact := by
  cases profile with
  | debug => exact if_pos h
  | release => exact congrArg some (wrapI64_eq h)

theorem timeDiff_of_lt {now timestamp : Int} (h : |now - timestamp| < 2 ^ 63) (profile : Profile) :
    timeDiff profile now timestamp = some |now - timestamp| := by
  have hdifference : FitsI64 (now - timestamp) := by
    rw [abs_lt] at h
    exact ⟨h.1.le, h.2⟩
  have habs : FitsI64 |now - timestamp| := by
    have hnonneg := abs_nonneg (now - timestamp)
    exact ⟨by omega, h⟩
  simp only [timeDiff, arith_of_fits hdifference, Option.bind_eq_bind, Option.bind_some,
    Int.natCast_natAbs, arith_of_fits habs]

theorem timeDiff_debug_of_le {now timestamp : Int} (h : 2 ^ 63 ≤ |now - timestamp|) :
    timeDiff .debug now timestamp = none := by
  have habs : ¬FitsI64 |now - timestamp| := fun hfits => absurd hfits.2 (not_lt.mpr h)
  simp only [timeDiff, Profile.arith]
  by_cases hdifference : FitsI64 (now - timestamp)
  · rw [if_pos hdifference, Option.bind_eq_bind, Option.bind_some, Int.natCast_natAbs, if_neg habs]
  · rw [if_neg hdifference]
    rfl

-- The timestamp check as it is meant: it lets only timestamps of the window past, and
-- computes the distance without a panic or a wrap.
structure FreshnessChecked (config : AuthConfig) (now : Int) (password : Password) : Prop where
  window : ∀ profile, passesCheck profile config now password = true →
    |now - password.timestamp| ≤ config.timestampToleranceSecs
  exact : ∀ profile, timeDiff profile now password.timestamp = some |now - password.timestamp|

theorem freshness_checked_iff (config : AuthConfig) (now : Int) (payload : AuthPayload) :
    (∀ password, parseAuth payload = some password → FreshnessChecked config now password) ↔
      ∀ password, parseAuth payload = some password → |now - password.timestamp| < 2 ^ 63 := by
  constructor
  · intro h password hparse
    by_contra hle
    have hnone := timeDiff_debug_of_le (not_lt.mp hle)
    rw [(h password hparse).exact .debug] at hnone
    cases hnone
  · intro h password hparse
    have hexact := timeDiff_of_lt (h password hparse)
    refine ⟨?_, hexact⟩
    intro profile hpasses
    simpa [passesCheck, hexact profile] using hpasses

-- A password of 292 billion years ago, with the signature that the key gives it.
def ancientPassword : Password :=
  ⟨"a1b2c3", "-9223372035094775798", "ce7541b39ca805db41ca81025a40fc6f375264f5",
    -9223372035094775798⟩

def ancientSensor : AuthPayload :=
  ⟨"sensor-001", some "product-a",
    "a1b2c3.-9223372035094775798.ce7541b39ca805db41ca81025a40fc6f375264f5"⟩

def ancientHmac (key message : String) : String :=
  if key = "demo-suffix" ∧ message = "sensor-001.a1b2c3.-9223372035094775798.demo-suffix" then
    "ce7541b39ca805db41ca81025a40fc6f375264f5"
  else ""

-- The difference is the least number of the type, and so is its absolute value.
theorem ancient_password_passes :
    parseAuth ancientSensor = some ancientPassword ∧
      passesCheck .release demoConfig demoEnv.now ancientPassword = true ∧
      demoConfig.timestampToleranceSecs < |demoEnv.now - ancientPassword.timestamp| ∧
      timeDiff .debug demoEnv.now ancientPassword.timestamp = none ∧
      (auth ancientHmac demoConfig demoEnv ancientSensor demoTables).1 = .allow ∧
      ¬FreshnessChecked demoConfig demoEnv.now ancientPassword := by
  have hpasses : passesCheck .release demoConfig demoEnv.now ancientPassword = true := by
    decide +kernel
  have hfar : demoConfig.timestampToleranceSecs < |demoEnv.now - ancientPassword.timestamp| := by
    decide +kernel
  refine ⟨by decide +kernel, hpasses, hfar, by decide +kernel, by decide +kernel, ?_⟩
  intro h
  exact absurd (h.window .release hpasses) (not_le.mpr hfar)

end Freshness

section Signature

variable {config : AuthConfig}

theorem parsePassword_eq {text : String} {password : Password}
    (h : parsePassword text = some password) :
    (text.toList.splitOn '.').map String.ofList = [password.nonce, password.timestampStr,
      password.hash] ∧ password.nonce.utf8ByteSize = 6 ∧ parseI64 password.timestampStr =
        some password.timestamp := by
  unfold parsePassword at h
  split at h
  · next nonce timestampStr hash hsplit =>
    split_ifs at h with hnonce
    obtain ⟨timestamp, hparse, rfl⟩ := Option.map_eq_some_iff.mp h
    exact ⟨hsplit, not_not.mp hnonce, hparse⟩
  · cases h

-- The parts of a password have no dots.
theorem dot_notMem_password {text : String} {password : Password}
    (h : parsePassword text = some password) :
    '.' ∉ password.nonce.toList ∧ '.' ∉ password.timestampStr.toList := by
  have hpart : ∀ part ∈ (text.toList.splitOn '.').map String.ofList, '.' ∉ part.toList := by
    intro part hpart
    obtain ⟨piece, hpiece, rfl⟩ := List.mem_map.mp hpart
    rw [String.toList_ofList]
    exact notMem_of_mem_splitOn hpiece
  rw [(parsePassword_eq h).1] at hpart
  exact ⟨hpart _ (by simp), hpart _ (by simp)⟩

-- Read from the right: what follows the last separator has none.
theorem append_separator_inj_right {sep : Char} {first second rest rest' : List Char}
    (hrest : sep ∉ rest)
    (hrest' : sep ∉ rest') (h : first ++ sep :: rest = second ++ sep :: rest') :
    first = second ∧ rest = rest' := by
  have hreverse : rest.reverse ++ sep :: first.reverse = rest'.reverse ++ sep ::
      second.reverse := by
    simpa using congrArg List.reverse h
  obtain ⟨hsame, hsame'⟩ :=
    RuleEngine.append_separator_inj (by simpa using hrest) (by simpa using hrest') hreverse
  exact ⟨List.reverse_inj.mp hsame', List.reverse_inj.mp hsame⟩

theorem toList_toSign (clientId : String) (password : Password) :
    (toSign config clientId password).toList =
      (((clientId.toList ++ '.' :: password.nonce.toList) ++ '.' :: password.timestampStr.toList) ++
        '.' :: config.suffix.toList) := by
  simp [toSign, String.toList_append]

-- Dots in the client id are no harm, since the other parts have none.
theorem toSign_inj {client other text text' : String} {password password' : Password}
    (hparse : parsePassword text = some password) (hparse' : parsePassword text' = some password')
    (h : toSign config client password = toSign config other password') :
    client = other ∧ password.nonce = password'.nonce ∧ password.timestampStr =
      password'.timestampStr := by
  obtain ⟨hnonce, htimestamp⟩ := dot_notMem_password hparse
  obtain ⟨hnonce', htimestamp'⟩ := dot_notMem_password hparse'
  have hlist := congrArg String.toList h
  rw [toList_toSign, toList_toSign] at hlist
  obtain ⟨hfront, hstamp⟩ :=
    append_separator_inj_right htimestamp htimestamp' (List.append_cancel_right hlist)
  obtain ⟨hclient, hsame⟩ := append_separator_inj_right hnonce hnonce' hfront
  exact ⟨String.toList_inj.mp hclient, String.toList_inj.mp hsame, String.toList_inj.mp hstamp⟩

theorem parsePassword_of_parseAuth {payload : AuthPayload} {password : Password}
    (h : parseAuth payload = some password) : parsePassword payload.password = some password := by
  unfold parseAuth at h
  split_ifs at h
  exact h

-- The signed string determines what is signed, so a password serves one client only, as
-- far as the HMAC tells the strings apart.
theorem signed_string_unambiguous :
    (∀ (config : AuthConfig) (client other text text' : String) (password password' : Password),
      parsePassword text = some password → parsePassword text' = some password' →
      toSign config client password = toSign config other password' →
      client = other ∧ password.nonce = password'.nonce ∧ password.timestampStr =
        password'.timestampStr) ∧
    ∀ (hmacSha1 : String → String → String) (config : AuthConfig) (considered : Set String),
      Set.InjOn (hmacSha1 config.suffix) considered →
      ∀ (env env' : AuthEnv) (payload payload' : AuthPayload) (tables tables' : AccessTables),
        payload.password = payload'.password →
        (∀ password, parsePassword payload.password = some password →
          toSign config payload.clientId password ∈ considered ∧
            toSign config payload'.clientId password ∈ considered) →
        (auth hmacSha1 config env payload tables).1 = .allow →
        (auth hmacSha1 config env' payload' tables').1 = .allow →
          payload.clientId = payload'.clientId := by
  refine ⟨fun _ _ _ _ _ _ _ => toSign_inj, ?_⟩
  intro hmacSha1 config considered hinj env env' payload payload' tables tables' hsame hconsidered
    hallow hallow'
  obtain ⟨password, hparse, -, hsigned⟩ := signed_of_allow hmacSha1 hallow
  obtain ⟨password', hparse', -, hsigned'⟩ := signed_of_allow hmacSha1 hallow'
  have hpassword := parsePassword_of_parseAuth hparse
  have hpassword' := parsePassword_of_parseAuth hparse'
  rw [← hsame] at hpassword'
  obtain rfl := Option.some.inj (hpassword.symm.trans hpassword')
  obtain ⟨hmem, hmem'⟩ := hconsidered password hpassword
  exact (toSign_inj hpassword hpassword (hinj hmem hmem' (hsigned.trans hsigned'.symm))).1

-- The password of the sensor, offered by the sensor a second time and by another client.
theorem sensor_password_unambiguous :
    (∃ password, parsePassword sensor.password = some password ∧
      toSign demoConfig "sensor-001" password ≠ toSign demoConfig "+" password) ∧
    (auth demoHmac demoConfig demoEnv sensor demoTables).1 = .allow ∧
      sensor.clientId = "sensor-001" := by
  obtain ⟨hstring, hclients⟩ := signed_string_unambiguous
  have hallow : (auth demoHmac demoConfig demoEnv sensor demoTables).1 = .allow := by decide +kernel
  obtain ⟨password, hparse, -, -⟩ := signed_of_allow demoHmac hallow
  have hpassword := parsePassword_of_parseAuth hparse
  refine ⟨⟨password, hpassword, ?_⟩, hallow, ?_⟩
  · intro h
    exact absurd (hstring demoConfig _ _ _ _ _ _ hpassword hpassword h).1 (by decide)
  · exact hclients demoHmac demoConfig {toSign demoConfig "sensor-001" password}
      (Set.injOn_singleton _ _) demoEnv demoEnv sensor sensor demoTables demoTables rfl (by
        intro other hother
        obtain rfl := Option.some.inj (hpassword.symm.trans hother)
        exact ⟨rfl, rfl⟩)
      hallow hallow

end Signature

end RmqttThings.Access
