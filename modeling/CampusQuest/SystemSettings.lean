import CampusQuest.Guards
import CampusQuest.IdentityRows
import CampusQuest.Json
import Mathlib.Data.List.Basic

/-!
The typed registry of the system settings and the policy of the management network. Each key
has a normalizer that turns the caller's value into the one stored spelling. The policy is
loaded from two keys, each with the deployment's value while it has no row.
-/

namespace CampusQuest.Settings

open Guards
open Identity (AuditContext)

inductive SettingKey
  | currentAcademicTerm
  | emojiWhitelist
  | abandonDailyLimit
  | managementNetworkEnabled
  | managementNetworkCidrs
  deriving DecidableEq, Repr

namespace SettingKey

def text : SettingKey → Text
  | currentAcademicTerm => "CURRENT_ACADEMIC_TERM".toList
  | emojiWhitelist => "EMOJI_WHITELIST".toList
  | abandonDailyLimit => "ABANDON_DAILY_LIMIT".toList
  | managementNetworkEnabled => "MANAGEMENT_NETWORK_ENABLED".toList
  | managementNetworkCidrs => "MANAGEMENT_NETWORK_CIDRS".toList

def registered : List SettingKey :=
  [currentAcademicTerm, emojiWhitelist, abandonDailyLimit, managementNetworkEnabled,
    managementNetworkCidrs]

def policy : SettingKey → Bool
  | managementNetworkEnabled | managementNetworkCidrs => true
  | _ => false

end SettingKey

inductive ValueFault
  | unregistered
  | notString
  | blank
  | tooLong (limit : ℕ)
  | notStringList
  | badEmoji
  | notInt
  | negative
  | notBool
  | badCidr (item error : Text)

/-- The typed refusals, all of them 422. `value` is `SystemSettingValueError`. -/
inductive SettingRefusal
  | value (key : Text) (raw : Json) (fault : ValueFault)
  | blankReason
  | policyKey (key : SettingKey)
  | policyKeysRequired
  | policyUnloadable (key : SettingKey) (reason : Text)

/-- The two functions of `ipaddress` that the policy uses: strict parsing of a network, with
the text of its `ValueError`, and `str` of one. -/
structure IpLibrary (ν : Type) where
  ipNetwork : Text → Except Text ν
  str : ν → Text

section Normalizers

def termMaxLength : ℕ := 64

def validated (field : Text) (maxLength : ℕ) (raw : Json) : Except SettingRefusal Text :=
  match raw with
  | .str s => do
    ensure (strip s ≠ []) (.value field raw .blank)
    ensure ((strip s).length ≤ maxLength) (.value field raw (.tooLong maxLength))
    return strip s
  | _ => .error (.value field raw .notString)

def normalizeCurrentAcademicTerm (raw : Json) : Except SettingRefusal Text :=
  validated SettingKey.currentAcademicTerm.text termMaxLength raw

def normalizeEmojiWhitelist (raw : Json) : Except SettingRefusal Text := do
  let items ← orRefuse (.value SettingKey.emojiWhitelist.text raw .notStringList) raw.asStrList
  ensure (∀ item ∈ items, 1 ≤ item.length ∧ item.length ≤ 8)
    (.value SettingKey.emojiWhitelist.text raw .badEmoji)
  return Json.dumpStrs items

def normalizeAbandonDailyLimit (raw : Json) : Except SettingRefusal Text :=
  match raw with
  | .int n => do
    ensure (0 ≤ n) (.value SettingKey.abandonDailyLimit.text raw .negative)
    return (toString n).toList
  | _ => .error (.value SettingKey.abandonDailyLimit.text raw .notInt)

def flagText (b : Bool) : Text := if b then "true".toList else "false".toList

def normalizeManagementNetworkEnabled (raw : Json) : Except SettingRefusal Text :=
  match raw with
  | .bool b => .ok (flagText b)
  | _ => .error (.value SettingKey.managementNetworkEnabled.text raw .notBool)

variable {ν : Type} (ip : IpLibrary ν)

def normalizeCidr (raw : Json) (item : Text) : Except SettingRefusal Text :=
  match ip.ipNetwork item with
  | .ok n => .ok (ip.str n)
  | .error e => .error (.value SettingKey.managementNetworkCidrs.text raw (.badCidr item e))

def normalizeManagementNetworkCidrs (raw : Json) : Except SettingRefusal Text := do
  let items ← orRefuse (.value SettingKey.managementNetworkCidrs.text raw .notStringList)
    raw.asStrList
  let canonical ← items.mapM (normalizeCidr ip raw)
  return [','].intercalate canonical

def normalizer : SettingKey → Json → Except SettingRefusal Text
  | .currentAcademicTerm => normalizeCurrentAcademicTerm
  | .emojiWhitelist => normalizeEmojiWhitelist
  | .abandonDailyLimit => normalizeAbandonDailyLimit
  | .managementNetworkEnabled => normalizeManagementNetworkEnabled
  | .managementNetworkCidrs => normalizeManagementNetworkCidrs ip

def normalizeSystemSettingValue (key : Text) (value : Json) :
    Except SettingRefusal (SettingKey × Text) := do
  let stored ← orRefuse (.value key value .unregistered)
    (SettingKey.registered.find? fun k => k.text = key)
  let canonical ← normalizer ip stored value
  return (stored, canonical)

/-- `_normalized_reason`: no reason is legal, a blank one is not. -/
def normalizedReason : Option Text → Except SettingRefusal (Option Text)
  | none => .ok none
  | some reason => do
    ensure (strip reason ≠ []) .blankReason
    return some (strip reason)

end Normalizers

section Policy

variable {ν : Type}

structure ManagementNetworkPolicy (ν : Type) where
  enabled : Bool
  networks : List ν
  /-- A restriction that is on lists a network. -/
  listed : enabled = true → networks ≠ []

structure NetworkEnv where
  managementNetworkEnabled : Bool
  managementNetworkCidrs : Text

def maxNetworks : ℕ := 64

def tooManyNetworks : Text := "management_network_cidrs must list at most 64 networks".toList

def emptyAllowlist : Text :=
  ("management_network_cidrs must list at least one network when " ++
    "management_network_enabled is true (an allowlist that allows " ++
    "nothing is a half-entered configuration; set enabled=false to " ++
    "leave the restriction off)").toList

def badFlag : Text := "stored MANAGEMENT_NETWORK_ENABLED must be 'true' or 'false', got ".toList

/-- The entries of a list of networks: stripped, without the empty ones. -/
def cidrEntries (cidrs : Text) : List Text :=
  ((cidrs.splitOn ',').map strip).filter fun entry => entry ≠ []

def parseManagementNetworks (ip : IpLibrary ν) (cidrs : Text) : Except Text (List ν) := do
  let networks ← (cidrEntries cidrs).mapM ip.ipNetwork
  ensure (networks.length ≤ maxNetworks) tooManyNetworks
  return networks

/-- `_stored_enabled_flag`. No letter outside ASCII has a lower case in the two words. -/
def storedEnabledFlag (raw : Text) : Except Text Bool :=
  let candidate := (strip raw).map Char.toLower
  if candidate = "true".toList then .ok true
  else if candidate = "false".toList then .ok false
  else .error (badFlag ++ raw)

def makePolicy (enabled : Bool) (networks : List ν) : Except Text (ManagementNetworkPolicy ν) :=
  if h : enabled = true → networks ≠ [] then .ok ⟨enabled, networks, h⟩
  else .error emptyAllowlist

def effectiveEnabled (env : NetworkEnv) (stored : Option Text) : Except Text Bool :=
  match stored with
  | some raw => storedEnabledFlag raw
  | none => .ok env.managementNetworkEnabled

def loadManagementNetworkPolicy (ip : IpLibrary ν) (env : NetworkEnv)
    (storedEnabled storedCidrs : Option Text) : Except Text (ManagementNetworkPolicy ν) := do
  let enabled ← effectiveEnabled env storedEnabled
  let networks ← parseManagementNetworks ip (storedCidrs.getD env.managementNetworkCidrs)
  makePolicy enabled networks

/-- The guard of every managed surface can load its policy. -/
def Loads (ip : IpLibrary ν) (env : NetworkEnv) (storedEnabled storedCidrs : Option Text) : Prop :=
  ∃ p, loadManagementNetworkPolicy ip env storedEnabled storedCidrs = .ok p

variable {ip : IpLibrary ν} {env : NetworkEnv} {storedEnabled storedCidrs : Option Text}

/-- A policy loads from a readable flag and a readable list that is not empty under the flag. -/
theorem loads_iff : Loads ip env storedEnabled storedCidrs ↔
    ∃ enabled networks, effectiveEnabled env storedEnabled = .ok enabled ∧
      parseManagementNetworks ip (storedCidrs.getD env.managementNetworkCidrs) = .ok networks ∧
      (enabled = true → networks ≠ []) := by
  unfold Loads loadManagementNetworkPolicy makePolicy
  simp only [bind_ok]
  constructor
  · rintro ⟨p, enabled, henabled, networks, hnetworks, hmake⟩
    refine ⟨enabled, networks, henabled, hnetworks, ?_⟩
    split at hmake
    next h => exact h
    next => cases hmake
  · rintro ⟨enabled, networks, henabled, hnetworks, hlisted⟩
    exact ⟨⟨enabled, networks, hlisted⟩, enabled, henabled, networks, hnetworks, dif_pos hlisted⟩

/-- A readable flag loads beside a list that was loaded before, unless it is switched on over
a list without networks. -/
theorem loads_flag_iff (hloads : Loads ip env storedEnabled storedCidrs) {raw : Text} {b : Bool}
    (hraw : storedEnabledFlag raw = .ok b) :
    Loads ip env (some raw) storedCidrs ↔
      (b = true →
        parseManagementNetworks ip (storedCidrs.getD env.managementNetworkCidrs) ≠ .ok []) := by
  obtain ⟨_, networks, _, hnetworks, _⟩ := loads_iff.mp hloads
  rw [loads_iff, hnetworks]
  constructor
  · rintro ⟨enabled, networks', henabled, hnetworks', hlisted⟩ hb hempty
    have hflag : b = enabled := by
      have hok : storedEnabledFlag raw = .ok enabled := henabled
      rw [hraw, Except.ok.injEq] at hok
      exact hok
    rw [hempty, Except.ok.injEq] at hnetworks'
    exact hlisted (hflag.symm.trans hb) hnetworks'.symm
  · intro hlisted
    refine ⟨b, networks, hraw, rfl, fun hb hempty => hlisted hb ?_⟩
    rw [hempty]

end Policy

end CampusQuest.Settings
