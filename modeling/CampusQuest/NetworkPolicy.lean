import CampusQuest.SettingWrites

/-!
The pair of the management network. A policy call loads the pair that it was asked for and
stores its first key only. With one key given the two pairs are the same, so the stored pair
stays loadable; with both given the list that was loaded is not the one that is stored.
-/

namespace CampusQuest.Settings

open Guards Locking Runs Tables

variable {ν ι : Type} (ip : IpLibrary ν) (env : NetworkEnv)

/-- The stored-or-fallback pair is accepted by `load_management_network_policy`. -/
def PairLoads (db : SettingsDb) : Prop :=
  Loads ip env (db.stored .managementNetworkEnabled) (db.stored .managementNetworkCidrs)

/-- The condition on a step: a call that gives both keys and switches the restriction on
commits over a list that already has a network. -/
def ListedBefore (c : Config ι SettingsDb Writer) (m : Move ι (Option PolicyCall × SettingWrite)) :
    Prop :=
  match m.2 with
  | some (some ⟨_, .flag enabled (some _), _, _⟩, _) => storedEnabledFlag enabled = .ok true →
    parseManagementNetworks ip
      ((c.store.stored .managementNetworkCidrs).getD env.managementNetworkCidrs) ≠ .ok []
  | _ => True

section Commits

variable {ip env} {db : SettingsDb} {call : PolicyCall} {w : SettingWrite}

/-- A plain write leaves the pair as it is. -/
theorem plain_pairLoads (hbacked : Backed ip env none w db) :
    PairLoads ip env (db.apply w) ↔ PairLoads ip env db := by
  have hkey : ∀ key : SettingKey, key.policy = true →
      (db.apply w).stored key = db.stored key := fun key hpolicy =>
    stored_pair (a := (none, w)) hbacked rfl hpolicy
  unfold PairLoads
  rw [hkey _ rfl, hkey _ rfl]

/-- What a policy call leaves under the two keys. -/
theorem policy_stored (db : SettingsDb) (hw : w = call.write) :
    (db.apply w).stored .managementNetworkEnabled =
      call.values.enabled.or (db.stored .managementNetworkEnabled) ∧
    (db.apply w).stored .managementNetworkCidrs =
      if call.values.enabled = none then call.values.cidrs
      else db.stored .managementNetworkCidrs := by
  subst hw
  obtain ⟨actor, values, reason, context⟩ := call
  cases values with
  | flag enabled cidrs =>
    exact ⟨apply_stored_self (w := ⟨actor, .managementNetworkEnabled, enabled, reason, context⟩),
      apply_stored_of_ne (fun h => nomatch h)⟩
  | list cidrs =>
    exact ⟨apply_stored_of_ne (fun h => nomatch h),
      apply_stored_self (w := ⟨actor, .managementNetworkCidrs, cidrs, reason, context⟩)⟩

/-- A call that gives one key stores the pair that it has loaded. -/
theorem single_pairLoads (hbacked : Backed ip env (some call) w db)
    (hone : call.values.enabled = none ∨ call.values.cidrs = none) :
    PairLoads ip env (db.apply w) := by
  obtain ⟨hw, p, hload⟩ := hbacked
  obtain ⟨henabled, hcidrs⟩ := policy_stored db hw
  refine ⟨p, ?_⟩
  rw [henabled, hcidrs]
  unfold PolicyCall.load at hload
  obtain ⟨actor, values, reason, context⟩ := call
  cases values with
  | flag enabled cidrs =>
    rcases hone with hnone | hnone
    · cases hnone
    · have hnone : cidrs = none := hnone
      subst hnone
      exact hload
  | list cidrs => exact hload

/-- A call that gives both keys keeps the pair loadable exactly when it does not switch the
restriction on over an empty list. -/
theorem both_pairLoads (hdb : PairLoads ip env db) (hbacked : Backed ip env (some call) w db)
    {enabled cidrs : Text} (hvalues : call.values = .flag enabled (some cidrs)) :
    PairLoads ip env (db.apply w) ↔ (storedEnabledFlag enabled = .ok true →
      parseManagementNetworks ip
        ((db.stored .managementNetworkCidrs).getD env.managementNetworkCidrs) ≠ .ok []) := by
  obtain ⟨hw, p, hload⟩ := hbacked
  obtain ⟨henabled, hcidrs⟩ := policy_stored db hw
  rw [hvalues] at henabled hcidrs
  obtain ⟨b, _, hflag, _⟩ := loads_iff.mp ⟨p, hload⟩
  rw [hvalues] at hflag
  have hflag : storedEnabledFlag enabled = .ok b := hflag
  have hpair : PairLoads ip env (db.apply w) ↔
      Loads ip env (some enabled) (db.stored .managementNetworkCidrs) := by
    unfold PairLoads
    rw [henabled, hcidrs]
    exact Iff.rfl
  rw [hpair, loads_flag_iff hdb hflag, hflag, Except.ok.injEq]

/-- A commit keeps the pair loadable exactly under the condition on it. -/
theorem commit_pairLoads_iff {c : Config ι SettingsDb Writer} {i : ι}
    {a : Option PolicyCall × SettingWrite} (hdb : PairLoads ip env c.store)
    (hbacked : Backed ip env a.1 a.2 c.store) :
    PairLoads ip env (c.store.apply a.2) ↔ ListedBefore ip env c (i, some a) := by
  obtain ⟨policy, w⟩ := a
  cases policy with
  | none => exact iff_of_true ((plain_pairLoads hbacked).mpr hdb) trivial
  | some call =>
    obtain ⟨actor, values, reason, context⟩ := call
    cases values with
    | list cidrs => exact iff_of_true (single_pairLoads hbacked (.inl rfl)) trivial
    | flag enabled cidrs =>
      cases cidrs with
      | none => exact iff_of_true (single_pairLoads hbacked (.inr rfl)) trivial
      | some cidrs => exact both_pairLoads hdb hbacked rfl

end Commits

variable [DecidableEq ι]

/-- Only a call that returns its result has changed the store, so a refused or abandoned call
has left both keys, their versions and the audit rows as they were. -/
theorem settings_step_store {c c' : Config ι SettingsDb Writer}
    {m : Move ι (Option PolicyCall × SettingWrite)}
    (hstep : (settingsProtocol ip env).Step c m c') (h : ∀ r, c'.proc m.1 ≠ .written r) :
    c'.store = c.store := by
  cases hstep with
  | read => rfl
  | commit i a m' db' hcommit hfree =>
    dsimp only at h
    rw [Function.update_self] at h
    have hcommit : WriterCommit (c.proc i) c.store a m' db' := hcommit
    generalize c.proc i = x at hcommit
    cases hcommit with
    | create policy w => exact absurd rfl (h _)
    | update policy w row => exact absurd rfl (h _)

/-- From a loadable pair every visited pair is loadable exactly when no call of the run that
gives both keys switches the restriction on over a list without networks; and only a call that
returns its result changes the settings or their audit rows. -/
theorem management_pair_loadable :
    (∀ c l c', (settingsSystem ip env ι (PairLoads ip env)).init c →
      (settingsSystem ip env ι (PairLoads ip env)).Run c l c' →
        ((∀ e ∈ l, PairLoads ip env e.2.2.store) ↔ ∀ e ∈ l, ListedBefore ip env e.1 e.2.1)) ∧
    ∀ c m c', (settingsSystem ip env ι (PairLoads ip env)).step c m c' →
      (∀ r, c'.proc m.1 ≠ .written r) → c'.store = c.store := by
  refine ⟨fun c l c' hc hrun => ?_, fun c m c' hstep h => settings_step_store ip env hstep h⟩
  have hsound : (settingsProtocol ip env).Sound fun _ => True :=
    settings_sound (fun _ => True) fun _ _ _ _ => trivial
  refine hrun.keeps_iff (P := fun c => PairLoads ip env c.store) (fun s a s' hs hP hstep => ?_)
    (.init hc) hc.1
  have hcurrent := hsound.current (fun _ _ => trivial) hs
  cases hstep with
  | read => exact iff_of_true hP trivial
  | commit i a m' db' hcommit hfree =>
    obtain ⟨rfl, hbacked, _⟩ := commit_apply (hcurrent.known i) hcommit
    exact commit_pairLoads_iff hP hbacked

section BothKeys

def bothKeys : PolicyCall :=
  ⟨⟨1, .admin⟩, .flag "true".toList (some "10.0.0.0/8".toList), none, none⟩

theorem prepare_bothKeys : preparePolicy oneNetwork ⟨1, .admin⟩ (some (.bool true))
    (some [.str "10.0.0.0/8".toList]) none none = .ok bothKeys := rfl

/-- A call that gives both keys over an open deployment is accepted, and the guard can load
no policy afterwards. -/
theorem both_keys_unloadable : ¬ ∀ c : Config Bool SettingsDb Writer,
    (settingsSystem oneNetwork openEnv Bool (PairLoads oneNetwork openEnv)).Reach c →
      PairLoads oneNetwork openEnv c.store := by
  intro hall
  have hopen : PairLoads oneNetwork openEnv noSettings :=
    ⟨⟨false, [], fun h => nomatch h⟩, rfl⟩
  have hstart : (settingsProtocol oneNetwork openEnv).Reaches (PairLoads oneNetwork openEnv)
      (fun _ _ => True) noSettings .idle .idle := Protocol.reaches_start hopen rfl rfl
  have hlocked := hstart.read_left (.lockPolicy _ _ _ none none _ prepare_bothKeys)
    (fun k _ => Writer.unlocked rfl rfl k) trivial
  have hread := hlocked.read_left (.readFlag bothKeys) (fun k _ => Writer.unlocked rfl rfl k) trivial
  have hloaded := hread.read_left (.passLoad bothKeys _ ⟨true, [()], by simp⟩ rfl)
    (fun k _ => Writer.unlocked rfl rfl k) trivial
  have hinserted := hloaded.read_left (.insert _ _ (Table.get_empty _))
    (fun k _ => Writer.unlocked rfl rfl k) trivial
  have hstored := hinserted.commit_left (.create _ _) (fun k _ => Writer.unlocked rfl rfl k) trivial
  obtain ⟨p, hp⟩ := hall _ hstored.of_guarded
  cases hp

end BothKeys

end CampusQuest.Settings
