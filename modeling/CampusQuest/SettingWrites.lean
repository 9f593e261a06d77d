import CampusQuest.ChangeLogs
import CampusQuest.SystemSettings
import CampusQuest.Tables
import CampusQuest.TwoProcesses

/-!
Writes of the system settings. A write inserts the row of its key or, when another
transaction has committed it, locks that row and reads it; value and audit row are one
commit. The pair of the management network is written under one advisory lock, after the pair
that the write would leave has been loaded. In every interleaving the audit rows of a key
are a connected log that leads to the stored value.
-/

namespace CampusQuest.Settings

open ChangeLogs Guards Locking Runs Tables
open Identity (AuditContext)

structure SystemSetting where
  value : Text
  updatedByUserId : UserId
  version : ℕ

/-- A `SYSTEM_SETTING_UPDATED` row: both snapshots and the version are its change. -/
structure SettingAudit where
  actor : Actor
  targetId : SettingKey
  reason : Option Text
  change : Change Text
  context : Option AuditContext

structure SettingsDb where
  settings : Table SettingKey SystemSetting
  audit : List SettingAudit

/-- One key's write: the arguments of `_store_and_audit`. -/
structure SettingWrite where
  actor : Actor
  key : SettingKey
  value : Text
  reason : Option Text
  context : Option AuditContext

/-- The keys that a policy call provides, in the order of its dictionary. -/
inductive PolicyValues
  | flag (enabled : Text) (cidrs : Option Text)
  | list (cidrs : Text)

structure PolicyCall where
  actor : Actor
  values : PolicyValues
  reason : Option Text
  context : Option AuditContext

namespace PolicyValues

def enabled : PolicyValues → Option Text
  | flag enabled _ => some enabled
  | list _ => none

def cidrs : PolicyValues → Option Text
  | flag _ cidrs => cidrs
  | list cidrs => some cidrs

/-- `next(iter(canonical.items()))`: the first provided key, with its value. -/
def changed : PolicyValues → SettingKey × Text
  | flag enabled _ => (.managementNetworkEnabled, enabled)
  | list cidrs => (.managementNetworkCidrs, cidrs)

end PolicyValues

def PolicyCall.write (call : PolicyCall) : SettingWrite :=
  ⟨call.actor, call.values.changed.1, call.values.changed.2, call.reason, call.context⟩

section Preparation

variable {ν : Type} (ip : IpLibrary ν)

def prepareSet (actor : Actor) (key : Text) (value : Json) (reason : Option Text)
    (context : Option AuditContext) : Except SettingRefusal SettingWrite := do
  let stored ← normalizeSystemSettingValue ip key value
  ensure (stored.1.policy = false) (.policyKey stored.1)
  let reasonText ← normalizedReason reason
  return ⟨actor, stored.1, stored.2, reasonText, context⟩

/-- `set_management_network_policy` before its first statement. -/
def preparePolicy (actor : Actor) (enabled : Option Json) (cidrs : Option (List Json))
    (reason : Option Text) (context : Option AuditContext) : Except SettingRefusal PolicyCall :=
  match enabled, cidrs with
  | none, none => .error .policyKeysRequired
  | some e, none => do
    let reasonText ← normalizedReason reason
    let flag ← normalizeManagementNetworkEnabled e
    return ⟨actor, .flag flag none, reasonText, context⟩
  | some e, some c => do
    let reasonText ← normalizedReason reason
    let flag ← normalizeManagementNetworkEnabled e
    let list ← normalizeManagementNetworkCidrs ip (.arr c)
    return ⟨actor, .flag flag (some list), reasonText, context⟩
  | none, some c => do
    let reasonText ← normalizedReason reason
    let list ← normalizeManagementNetworkCidrs ip (.arr c)
    return ⟨actor, .list list, reasonText, context⟩

end Preparation

namespace SettingsDb

variable (db : SettingsDb)

def stored (key : SettingKey) : Option Text := (db.settings.get key).map (·.value)

def current (key : SettingKey) : Option (Text × ℕ) :=
  (db.settings.get key).map fun s => (s.value, s.version)

/-- The changes that the audit rows of a key record, in the order of their commits. -/
def changes (key : SettingKey) : List (Change Text) :=
  (db.audit.filter fun a => a.targetId = key).map (·.change)

def insertSetting (w : SettingWrite) : SettingsDb where
  settings := db.settings.put w.key ⟨w.value, w.actor.userId, 1⟩
  audit := db.audit ++ [⟨w.actor, w.key, w.reason, ⟨none, w.value, 1⟩, w.context⟩]

def updateSetting (w : SettingWrite) (row : SystemSetting) : SettingsDb where
  settings := db.settings.put w.key ⟨w.value, w.actor.userId, row.version + 1⟩
  audit := db.audit ++
    [⟨w.actor, w.key, w.reason, ⟨some row.value, w.value, row.version + 1⟩, w.context⟩]

/-- Both commits at once: the next change of the key's current value. -/
def apply (w : SettingWrite) : SettingsDb where
  settings := db.settings.put w.key
    ⟨w.value, w.actor.userId, (next (db.current w.key) w.value).version⟩
  audit := db.audit ++ [⟨w.actor, w.key, w.reason, next (db.current w.key) w.value, w.context⟩]

/-- Every key's audit rows are a connected log of its value. -/
def ChainConnected : Prop := ∀ key, Connected (db.changes key) (db.current key)

end SettingsDb

/-- `ManagementNetworkPolicyWriteResult`; `set` answers with its value alone. -/
structure WriteResult where
  key : SettingKey
  value : Text
  version : ℕ

/-- A call between its statements. `policy` is the policy call that the write belongs to. -/
inductive Writer
  | idle
  | refused (e : SettingRefusal)
  | guarded (call : PolicyCall)
  | flagRead (call : PolicyCall) (enabled : Option Text)
  | storing (policy : Option PolicyCall) (w : SettingWrite)
  | inserted (policy : Option PolicyCall) (w : SettingWrite)
  | conflicted (policy : Option PolicyCall) (w : SettingWrite)
  | locked (policy : Option PolicyCall) (w : SettingWrite) (row : SystemSetting)
  | written (r : WriteResult)

/-- The advisory lock of the policy, and the row of a key: an uncommitted insert makes
another insert of the key wait as a row lock does. -/
inductive SettingLock
  | policy
  | row (key : SettingKey)

open Writer

namespace Writer

def policyCall : Writer → Option PolicyCall
  | guarded call | flagRead call _ => some call
  | storing policy _ | inserted policy _ | conflicted policy _ | locked policy _ _ => policy
  | _ => none

def heldRow : Writer → Option SettingKey
  | inserted _ w | locked _ w _ => some w.key
  | _ => none

def locks (m : Writer) : SettingLock → Prop
  | .policy => m.policyCall ≠ none
  | .row key => m.heldRow = some key

theorem unlocked {m : Writer} (hcall : m.policyCall = none) (hrow : m.heldRow = none)
    (k : SettingLock) : ¬ m.locks k := by
  cases k with
  | policy => exact fun hk => hk hcall
  | row key =>
    intro hk
    have hheld : m.heldRow = some key := hk
    rw [hrow] at hheld
    cases hheld

end Writer

section Protocol

variable {ν : Type} (ip : IpLibrary ν) (env : NetworkEnv)

/-- The pair that a policy call would leave, as the guard would resolve it. -/
def PolicyCall.load (call : PolicyCall) (enabled cidrs : Option Text) :
    Except Text (ManagementNetworkPolicy ν) :=
  loadManagementNetworkPolicy ip env (call.values.enabled.or enabled) (call.values.cidrs.or cidrs)

/-- One statement of a call: it reads the committed rows and changes none. -/
inductive WriterRead : Writer → SettingsDb → Writer → Prop
  | refuseSet {db : SettingsDb} (actor : Actor) (key : Text) (value : Json) (reason : Option Text)
      (context : Option AuditContext) (e : SettingRefusal)
      (h : prepareSet ip actor key value reason context = .error e) :
      WriterRead idle db (refused e)
  | beginSet {db : SettingsDb} (actor : Actor) (key : Text) (value : Json) (reason : Option Text)
      (context : Option AuditContext) (w : SettingWrite)
      (h : prepareSet ip actor key value reason context = .ok w) :
      WriterRead idle db (storing none w)
  | refusePolicy {db : SettingsDb} (actor : Actor) (enabled : Option Json)
      (cidrs : Option (List Json)) (reason : Option Text) (context : Option AuditContext)
      (e : SettingRefusal) (h : preparePolicy ip actor enabled cidrs reason context = .error e) :
      WriterRead idle db (refused e)
  | lockPolicy {db : SettingsDb} (actor : Actor) (enabled : Option Json)
      (cidrs : Option (List Json)) (reason : Option Text) (context : Option AuditContext)
      (call : PolicyCall) (h : preparePolicy ip actor enabled cidrs reason context = .ok call) :
      WriterRead idle db (guarded call)
  | readFlag {db : SettingsDb} (call : PolicyCall) :
      WriterRead (guarded call) db (flagRead call (db.stored .managementNetworkEnabled))
  | refuseLoad {db : SettingsDb} (call : PolicyCall) (enabled : Option Text) (error : Text)
      (h : call.load ip env enabled (db.stored .managementNetworkCidrs) = .error error) :
      WriterRead (flagRead call enabled) db (refused (.policyUnloadable call.values.changed.1 error))
  | passLoad {db : SettingsDb} (call : PolicyCall) (enabled : Option Text)
      (p : ManagementNetworkPolicy ν)
      (h : call.load ip env enabled (db.stored .managementNetworkCidrs) = .ok p) :
      WriterRead (flagRead call enabled) db (storing (some call) call.write)
  | insert {db : SettingsDb} (policy : Option PolicyCall) (w : SettingWrite)
      (h : db.settings.get w.key = none) :
      WriterRead (storing policy w) db (inserted policy w)
  | conflict {db : SettingsDb} (policy : Option PolicyCall) (w : SettingWrite)
      (h : db.settings.get w.key ≠ none) :
      WriterRead (storing policy w) db (conflicted policy w)
  | lockRow {db : SettingsDb} (policy : Option PolicyCall) (w : SettingWrite)
      (row : SystemSetting) (h : db.settings.get w.key = some row) :
      WriterRead (conflicted policy w) db (locked policy w row)
  /-- The end of a call, and the rollback of one at any point. -/
  | leave {db : SettingsDb} (m : Writer) : WriterRead m db idle

inductive WriterCommit :
    Writer → SettingsDb → Option PolicyCall × SettingWrite → Writer → SettingsDb → Prop
  | create {db : SettingsDb} (policy : Option PolicyCall) (w : SettingWrite) :
      WriterCommit (inserted policy w) db (policy, w) (written ⟨w.key, w.value, 1⟩)
        (db.insertSetting w)
  | update {db : SettingsDb} (policy : Option PolicyCall) (w : SettingWrite)
      (row : SystemSetting) :
      WriterCommit (locked policy w row) db (policy, w)
        (written ⟨w.key, w.value, row.version + 1⟩) (db.updateSetting w row)

/-- A plain write is not one of the pair; a write of the pair is its call's own, and the pair
that it would leave has been loaded. -/
def Backed (policy : Option PolicyCall) (w : SettingWrite) (db : SettingsDb) : Prop :=
  match policy with
  | none => w.key.policy = false
  | some call => w = call.write ∧
    ∃ p, call.load ip env (db.stored .managementNetworkEnabled)
      (db.stored .managementNetworkCidrs) = .ok p

def Writer.Knows : Writer → SettingsDb → Prop
  | flagRead _ enabled, db => db.stored .managementNetworkEnabled = enabled
  | storing policy w, db | conflicted policy w, db => Backed ip env policy w db
  | inserted policy w, db => Backed ip env policy w db ∧ db.settings.get w.key = none
  | locked policy w row, db => Backed ip env policy w db ∧ db.settings.get w.key = some row
  | _, _ => True

def settingsProtocol : Protocol SettingsDb SettingLock Writer (Option PolicyCall × SettingWrite) where
  locks := Writer.locks
  known := Writer.Knows ip env
  start m := m = idle
  read := WriterRead ip env
  commit := WriterCommit

def settingsSystem (ι : Type*) [DecidableEq ι] (initial : SettingsDb → Prop) :
    System (Config ι SettingsDb Writer) (Move ι (Option PolicyCall × SettingWrite)) :=
  (settingsProtocol ip env).system ι initial

end Protocol

section Apply

variable {db : SettingsDb} {w : SettingWrite} {key : SettingKey}

theorem insertSetting_eq (h : db.settings.get w.key = none) : db.insertSetting w = db.apply w := by
  have hcurrent : db.current w.key = none := by
    unfold SettingsDb.current
    rw [h]
    rfl
  unfold SettingsDb.insertSetting SettingsDb.apply
  rw [hcurrent]
  rfl

theorem updateSetting_eq {row : SystemSetting} (h : db.settings.get w.key = some row) :
    db.updateSetting w row = db.apply w := by
  have hcurrent : db.current w.key = some (row.value, row.version) := by
    unfold SettingsDb.current
    rw [h]
    rfl
  unfold SettingsDb.updateSetting SettingsDb.apply
  rw [hcurrent]
  rfl

theorem apply_get_of_ne (h : key ≠ w.key) :
    (db.apply w).settings.get key = db.settings.get key :=
  Table.get_put_of_ne _ _ h

theorem apply_stored_of_ne (h : key ≠ w.key) : (db.apply w).stored key = db.stored key := by
  unfold SettingsDb.stored
  rw [apply_get_of_ne h]

theorem apply_stored_self : (db.apply w).stored w.key = some w.value := by
  unfold SettingsDb.stored SettingsDb.apply
  simp

/-- A write appends one change to the log of its key and none to the others. -/
theorem SettingsDb.ChainConnected.apply (h : db.ChainConnected) (w : SettingWrite) :
    (db.apply w).ChainConnected := by
  intro key
  by_cases hkey : key = w.key
  · subst hkey
    have hchanges : (db.apply w).changes w.key =
        db.changes w.key ++ [next (db.current w.key) w.value] := by
      simp [SettingsDb.changes, SettingsDb.apply]
    have hcurrent : (db.apply w).current w.key =
        some (w.value, (next (db.current w.key) w.value).version) := by
      simp [SettingsDb.current, SettingsDb.apply]
    rw [hchanges, hcurrent]
    exact (h w.key).append w.value
  · have hchanges : (db.apply w).changes key = db.changes key := by
      simp [SettingsDb.changes, SettingsDb.apply, Ne.symm hkey]
    have hcurrent : (db.apply w).current key = db.current key := by
      unfold SettingsDb.current
      rw [apply_get_of_ne hkey]
    rw [hchanges, hcurrent]
    exact h key

end Apply

section Soundness

variable {ν : Type} {ip : IpLibrary ν} {env : NetworkEnv} {db db' : SettingsDb} {m m' : Writer}
  {a : Option PolicyCall × SettingWrite}

/-- A commit is the write that its call has prepared, under the row's lock. -/
theorem commit_apply (hknown : m.Knows ip env db) (hcommit : WriterCommit m db a m' db') :
    db' = db.apply a.2 ∧ Backed ip env a.1 a.2 db ∧ m.policyCall = a.1 ∧
      m.heldRow = some a.2.key := by
  cases hcommit with
  | create policy w =>
    obtain ⟨hbacked, hget⟩ := hknown
    exact ⟨insertSetting_eq hget, hbacked, rfl, rfl⟩
  | update policy w row =>
    obtain ⟨hbacked, hget⟩ := hknown
    exact ⟨updateSetting_eq hget, hbacked, rfl, rfl⟩

/-- Whoever holds the advisory lock sees the pair unchanged by the writes of others. -/
theorem stored_pair (hbacked : Backed ip env a.1 a.2 db) (hnone : a.1 = none) {key : SettingKey}
    (hkey : key.policy = true) : (db.apply a.2).stored key = db.stored key := by
  refine apply_stored_of_ne ?_
  rintro rfl
  unfold Backed at hbacked
  rw [hnone] at hbacked
  rw [hbacked] at hkey
  cases hkey

theorem backed_stable {policy : Option PolicyCall} {w : SettingWrite}
    (hown : Backed ip env policy w db) (hbacked : Backed ip env a.1 a.2 db)
    (hfree : policy ≠ none → a.1 = none) : Backed ip env policy w (db.apply a.2) := by
  cases policy with
  | none => exact hown
  | some call =>
    have hnone := hfree (by simp)
    unfold Backed at hown ⊢
    dsimp only at hown ⊢
    rw [stored_pair hbacked hnone rfl, stored_pair hbacked hnone rfl]
    exact hown

theorem settings_sound (I : SettingsDb → Prop)
    (hinv : ∀ db (a : Option PolicyCall × SettingWrite), I db → Backed ip env a.1 a.2 db →
      I (db.apply a.2)) :
    (settingsProtocol ip env).Sound I where
  start_locks := by
    rintro _ k rfl
    exact Writer.unlocked rfl rfl k
  start_known := by
    rintro _ db rfl
    exact trivial
  read_known := by
    intro m db m' hknown hread
    cases hread with
    | beginSet actor key value reason context w h =>
      obtain ⟨stored, _, h⟩ := bind_ok.mp h
      obtain ⟨hpolicy, h⟩ := ensure_bind_ok.mp h
      obtain ⟨text, _, h⟩ := bind_ok.mp h
      cases h
      exact hpolicy
    | passLoad call enabled p h =>
      have henabled : db.stored .managementNetworkEnabled = enabled := hknown
      exact ⟨rfl, p, by rw [henabled]; exact h⟩
    | insert policy w h => exact ⟨hknown, h⟩
    | lockRow policy w row h => exact ⟨hknown, h⟩
    | conflict => exact hknown
    | readFlag => exact rfl
    | refuseSet | refusePolicy | lockPolicy | refuseLoad | leave => exact trivial
  commit_inv := by
    intro m db a m' db' hI hknown hcommit
    obtain ⟨rfl, hbacked, _⟩ := commit_apply hknown hcommit
    exact hinv db a hI hbacked
  commit_known := by
    intro m db a m' db' _ _ hcommit
    cases hcommit <;> exact trivial
  commit_stable := by
    intro m db a m' db' o _ hknown hcommit ho hfree
    obtain ⟨rfl, hbacked, hcall, hheld⟩ := commit_apply hknown hcommit
    have hpolicy : o.policyCall ≠ none → a.1 = none := by
      intro ho
      by_contra hne
      rw [← hcall] at hne
      exact hfree .policy hne ho
    have hrow : ∀ key, o.heldRow = some key → key ≠ a.2.key := by
      rintro key hkey rfl
      exact hfree (.row a.2.key) hheld hkey
    cases o with
    | idle | refused | guarded | written => exact trivial
    | flagRead call enabled =>
      have hnone := hpolicy (by simp [Writer.policyCall])
      exact (stored_pair hbacked hnone rfl).trans ho
    | storing policy w => exact backed_stable ho hbacked hpolicy
    | conflicted policy w => exact backed_stable ho hbacked hpolicy
    | inserted policy w =>
      exact ⟨backed_stable ho.1 hbacked hpolicy, (apply_get_of_ne (hrow w.key rfl)).trans ho.2⟩
    | locked policy w row =>
      exact ⟨backed_stable ho.1 hbacked hpolicy, (apply_get_of_ne (hrow w.key rfl)).trans ho.2⟩

theorem chain_sound : (settingsProtocol ip env).Sound SettingsDb.ChainConnected :=
  settings_sound _ fun _ a hI _ => hI.apply a.2

end Soundness

def noSettings : SettingsDb := ⟨.empty, []⟩

theorem noSettings_connected : noSettings.ChainConnected := by
  intro key
  have hcurrent : noSettings.current key = none := by simp [SettingsDb.current, noSettings]
  rw [hcurrent]
  exact connected_nil

/-- For every key and in every interleaving, rollbacks and lost first writes among them: the
committed audit rows have the versions 1 to n in the order of their commits, the first row has
no value before it, each later one starts from the value after its predecessor, and the stored
value and version are those of the last row. -/
theorem settings_audit_connected {ν ι : Type} [DecidableEq ι] (ip : IpLibrary ν) (env : NetworkEnv)
    (c : Config ι SettingsDb Writer)
    (hc : (settingsSystem ip env ι fun db => db = noSettings).Reach c) (key : SettingKey) :
    let log := c.store.changes key
    log.map (·.version) = List.range' 1 log.length ∧
      (∀ first, log.head? = some first → first.before = none) ∧
      (log.IsChain fun a b => b.before = some a.after) ∧
      c.store.current key = log.getLast?.map fun last => (last.after, last.version) := by
  have hinit : ∀ db, db = noSettings → db.ChainConnected := by
    rintro _ rfl
    exact noSettings_connected
  have hcurrent := chain_sound.current hinit hc
  have hlog := hcurrent.inv key
  exact ⟨hlog.versions, hlog.first, hlog.linked, hlog.last⟩

section Race

def oneNetwork : IpLibrary Unit where
  ipNetwork t := if t = "10.0.0.0/8".toList then .ok () else .error []
  str _ := "10.0.0.0/8".toList

def openEnv : NetworkEnv := ⟨false, []⟩

def limitWrite (n : ℕ) : SettingWrite :=
  ⟨⟨1, .admin⟩, .abandonDailyLimit, (toString (n : ℤ)).toList, none, none⟩

theorem prepare_limit (n : ℕ) :
    prepareSet oneNetwork ⟨1, .admin⟩ SettingKey.abandonDailyLimit.text (.int n) none none =
      .ok (limitWrite n) := by
  have hkey : SettingKey.registered.find? (fun k => k.text = SettingKey.abandonDailyLimit.text) =
      some .abandonDailyLimit := by decide
  have hsign : (0 : ℤ) ≤ n := Int.natCast_nonneg n
  simp [prepareSet, normalizeSystemSettingValue, hkey, orRefuse, normalizer,
    normalizeAbandonDailyLimit, ensure, hsign, normalizedReason, SettingKey.policy, bind,
    Except.bind, pure, Except.pure, limitWrite]

def racedLimits : SettingsDb :=
  (noSettings.insertSetting (limitWrite 3)).updateSetting (limitWrite 5) ⟨['3'], 1, 1⟩

/-- The loser of a race of two first writes starts its audit row from the winner's value. -/
theorem raced_audit_connected :
    let log := racedLimits.changes .abandonDailyLimit
    log.map (·.version) = List.range' 1 log.length ∧
      (∀ first, log.head? = some first → first.before = none) ∧
      (log.IsChain fun a b => b.before = some a.after) ∧
      racedLimits.current .abandonDailyLimit =
        log.getLast?.map fun last => (last.after, last.version) := by
  have hstart : (settingsProtocol oneNetwork openEnv).Reaches (fun db => db = noSettings)
      (fun _ _ => True) noSettings idle idle := Protocol.reaches_start rfl rfl rfl
  have hbegun := (hstart.read_left (.beginSet _ _ _ none none _ (prepare_limit 3))
    (fun k _ => Writer.unlocked rfl rfl k) trivial).read_right
    (.beginSet _ _ _ none none _ (prepare_limit 5)) (fun k _ => Writer.unlocked rfl rfl k) trivial
  have hwinner := (hbegun.read_left (.insert _ _ (Table.get_empty _))
    (fun k _ => Writer.unlocked rfl rfl k) trivial).commit_left (.create _ _)
    (fun k _ => Writer.unlocked rfl rfl k) trivial
  have hrow : (noSettings.insertSetting (limitWrite 3)).settings.get (limitWrite 5).key =
      some ⟨['3'], 1, 1⟩ := Table.get_put_self ..
  have hloser := (((hwinner.read_right (.conflict _ _ (by rw [hrow]; simp))
    (fun k _ => Writer.unlocked rfl rfl k) trivial).read_right (.lockRow _ _ _ hrow)
    (fun k _ => Writer.unlocked rfl rfl k) trivial)).commit_right (.update _ _ _)
    (fun k _ => Writer.unlocked rfl rfl k) trivial
  exact settings_audit_connected oneNetwork openEnv _ hloser.of_guarded .abandonDailyLimit

end Race

end CampusQuest.Settings
