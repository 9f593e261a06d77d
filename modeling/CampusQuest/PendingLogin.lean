import CampusQuest.Passages
import CampusQuest.SecondFactorLockout

/-!
The second leg of an e-mail login. The pending credential of the first leg is taken by `GETDEL`
before the factor is judged, so it serves one submission, whatever its outcome. The facade tries
the same token in the domain of the staff afterwards.
-/

namespace CampusQuest.Identity

open Locking Runs Tables

inductive TotpError
  | authenticationRequired
  | permissionDenied
  | accountNotActive
  | accountLocked
  | totpSetupRequired
  | challengeCodeInvalid
  deriving DecidableEq, Repr

abbrev TotpAnswer := Except TotpError (PendingDomain × UserId)

structure Submission where
  code : Text
  now : Instant

namespace FactorStore

variable (s : FactorStore) (svc : FactorService)

def dropPending (key : PendingKey) : FactorStore := { s with pending := s.pending.remove key }

/-- The checks of the account between the credential and the code. -/
def emailGate (user : UserId) : Except TotpError Text :=
  match s.codes.users.get user with
  | none => .error .permissionDenied
  | some row =>
    if row.role ≠ .admin then .error .permissionDenied
    else if row.status ≠ .active then .error .accountNotActive
    else if lockThreshold ≤ s.codes.failures user then .error .accountLocked
    else match s.confirmedSecret svc user with
      | none => .error .totpSetupRequired
      | some secret => .ok secret

def verifyTotp (token : Text) (submitted : Submission) : FactorStore × TotpAnswer :=
  match s.pending.get (.email, svc.hashPending token) with
  | none => (s, .error .authenticationRequired)
  | some user =>
    let s' := s.dropPending (.email, svc.hashPending token)
    match s'.emailGate svc user with
    | .error e => (s', .error e)
    | .ok secret =>
      if svc.verifyTotpCode secret submitted.code submitted.now = true then
        ((s'.resetFailures user).complete user, .ok (.email, user))
      else (s'.recordFailure user, .error .authenticationRequired)

def completeStaffTotp (token : Text) (submitted : Submission) : FactorStore × TotpAnswer :=
  match s.pending.get (.staffMobile, svc.hashPending token) with
  | none => (s, .error .challengeCodeInvalid)
  | some user =>
    let s' := s.dropPending (.staffMobile, svc.hashPending token)
    match s'.codes.users.get user, s'.confirmedSecret svc user with
    | some row, some secret =>
      if row.status = .active ∧
          svc.verifyTotpCode secret submitted.code submitted.now = true then
        (s'.complete user, .ok (.staffMobile, user))
      else (s', .error .challengeCodeInvalid)
    | _, _ => (s', .error .challengeCodeInvalid)

def verifyTotpUnified (token : Text) (submitted : Submission) : FactorStore × TotpAnswer :=
  match s.verifyTotp svc token submitted with
  | (s', .error .authenticationRequired) => s'.completeStaffTotp svc token submitted
  | answer => answer

end FactorStore

inductive TotpDoor
  | emailLogin
  | unified
  deriving DecidableEq, Repr

def TotpDoor.verify (svc : FactorService) (s : FactorStore) (token : Text)
    (submitted : Submission) : TotpDoor → FactorStore × TotpAnswer
  | .emailLogin => s.verifyTotp svc token submitted
  | .unified => s.verifyTotpUnified svc token submitted

def afterSubmissions (svc : FactorService) (door : TotpDoor) (token : Text) :
    FactorStore → List Submission → FactorStore
  | s, [] => s
  | s, submitted :: rest =>
    afterSubmissions svc door token (door.verify svc s token submitted).1 rest

section Survival

variable {svc : FactorService} {s : FactorStore} {token : Text} {submitted : Submission}
  {user : UserId} {key : PendingKey}

theorem dropPending_get (key' : PendingKey) (h : s.pending.get key = none) :
    (s.dropPending key').pending.get key = none := by
  change (s.pending.remove key').get key = none
  rw [Table.get_remove]
  split
  · rfl
  · exact h

theorem dropPending_self : (s.dropPending key).pending.get key = none := by
  change (s.pending.remove key).get key = none
  rw [Table.get_remove, if_pos rfl]

/-- The credential is gone after a submission, whatever the answer. -/
theorem verifyTotp_spends :
    (s.verifyTotp svc token submitted).1.pending.get (.email, svc.hashPending token) = none := by
  unfold FactorStore.verifyTotp
  split
  next hnone => exact hnone
  next =>
    have hgone : (s.dropPending (.email, svc.hashPending token)).pending.get
        (.email, svc.hashPending token) = none := dropPending_self
    dsimp only
    split
    · exact hgone
    · split
      · exact hgone
      · exact hgone

theorem completeStaffTotp_keeps (h : s.pending.get key = none) :
    (s.completeStaffTotp svc token submitted).1.pending.get key = none := by
  unfold FactorStore.completeStaffTotp
  split
  · exact h
  · have hgone := dropPending_get (.staffMobile, svc.hashPending token) h
    dsimp only
    split
    · split
      · exact hgone
      · exact hgone
    · exact hgone

theorem verifyTotpUnified_spends :
    (s.verifyTotpUnified svc token submitted).1.pending.get (.email, svc.hashPending token) =
      none := by
  have hspent : (s.verifyTotp svc token submitted).1.pending.get
      (.email, svc.hashPending token) = none := verifyTotp_spends
  unfold FactorStore.verifyTotpUnified
  split
  next s' heq =>
    rw [heq] at hspent
    exact completeStaffTotp_keeps hspent
  next => exact hspent

theorem verify_spends (door : TotpDoor) :
    (door.verify svc s token submitted).1.pending.get (.email, svc.hashPending token) = none := by
  cases door with
  | emailLogin => exact verifyTotp_spends
  | unified => exact verifyTotpUnified_spends

/-- Without the credential the e-mail domain lets nobody in. -/
theorem verify_spent (door : TotpDoor)
    (h : s.pending.get (.email, svc.hashPending token) = none) :
    (door.verify svc s token submitted).2 ≠ .ok (.email, user) := by
  have hmiss : s.verifyTotp svc token submitted = (s, .error .authenticationRequired) := by
    unfold FactorStore.verifyTotp
    rw [h]
  cases door with
  | emailLogin =>
    change (s.verifyTotp svc token submitted).2 ≠ _
    rw [hmiss]
    exact fun heq => (by cases heq)
  | unified =>
    change (s.verifyTotpUnified svc token submitted).2 ≠ _
    unfold FactorStore.verifyTotpUnified
    rw [hmiss]
    dsimp only
    unfold FactorStore.completeStaffTotp
    split
    · exact fun heq => (by cases heq)
    · dsimp only
      split
      · split
        · exact fun heq => (by cases heq)
        · exact fun heq => (by cases heq)
      · exact fun heq => (by cases heq)

theorem afterSubmissions_spent (door : TotpDoor) (rest : List Submission)
    (h : s.pending.get (.email, svc.hashPending token) = none) :
    (afterSubmissions svc door token s rest).pending.get (.email, svc.hashPending token) =
      none := by
  induction rest generalizing s with
  | nil => exact h
  | cons submitted rest ih => exact ih (verify_spends door)

structure FactorStore.LivePending (s : FactorStore) (svc : FactorService) (token : Text)
    (user : UserId) (secret : Text) : Prop where
  pending : s.pending.get (.email, svc.hashPending token) = some user
  gate : s.emailGate svc user = .ok secret

theorem verify_live (door : TotpDoor) {secret : Text} (h : s.LivePending svc token user secret)
    (hcode : svc.verifyTotpCode secret submitted.code submitted.now = true) :
    (door.verify svc s token submitted).2 = .ok (.email, user) := by
  have hgate : (s.dropPending (.email, svc.hashPending token)).emailGate svc user = .ok secret :=
    h.gate
  have hok : s.verifyTotp svc token submitted =
      (((s.dropPending (.email, svc.hashPending token)).resetFailures user).complete user,
        .ok (.email, user)) := by
    unfold FactorStore.verifyTotp
    rw [h.pending]
    dsimp only
    rw [hgate]
    dsimp only
    rw [if_pos hcode]
  cases door with
  | emailLogin =>
    change (s.verifyTotp svc token submitted).2 = _
    rw [hok]
  | unified =>
    change (s.verifyTotpUnified svc token submitted).2 = _
    unfold FactorStore.verifyTotpUnified
    rw [hok]

/-- A correct code completes the login exactly when nothing was submitted before it. -/
theorem verify_after_iff (door : TotpDoor) {secret : Text} (earlier : List Submission)
    (h : s.LivePending svc token user secret)
    (hcode : svc.verifyTotpCode secret submitted.code submitted.now = true) :
    (door.verify svc (afterSubmissions svc door token s earlier) token submitted).2 =
      .ok (.email, user) ↔ earlier = [] := by
  constructor
  · intro hok
    cases earlier with
    | nil => rfl
    | cons first rest =>
      exact absurd hok (verify_spent door (afterSubmissions_spent door rest (verify_spends door)))
  · rintro rfl
    exact verify_live door h hcode

end Survival

/-- The store beside the digests that were ever minted in the e-mail domain. -/
structure PendingStore where
  factors : FactorStore
  minted : Finset Text

namespace PendingStore

variable (s : PendingStore)

def live (digest : Text) : Option UserId := s.factors.pending.get (.email, digest)

def mint (digest : Text) (user : UserId) : PendingStore :=
  ⟨s.factors.mint .email digest user, insert digest s.minted⟩

def drop (digest : Text) : PendingStore := ⟨s.factors.dropPending (.email, digest), s.minted⟩

end PendingStore

/-- A `verify_totp` at work, behind its `GETDEL`. -/
inductive PendingRequest
  | idle
  | taken (digest : Text) (user : UserId)
  | gated (digest : Text) (user : UserId) (secret : Text)
  | verified (digest : Text) (user : UserId)

namespace PendingRequest

def Holds (digest : Text) : PendingRequest → Prop
  | idle => False
  | taken d _ | gated d _ _ | verified d _ => d = digest

end PendingRequest

inductive PendingEvent
  | minted (digest : Text)
  | taken (digest : Text)
  | refused
  | wrong (digest : Text)
  | completed (digest : Text) (user : UserId)
  | lapsed
  | elsewhere

open PendingRequest

inductive PendingRead (svc : FactorService) : PendingRequest → PendingStore → PendingRequest → Prop
  | gate {s : PendingStore} {digest : Text} {user : UserId} {secret : Text}
      (hgate : s.factors.emailGate svc user = .ok secret) :
      PendingRead svc (taken digest user) s (gated digest user secret)
  | right {s : PendingStore} {digest : Text} {user : UserId} {secret : Text}
      (submitted : Submission)
      (hcode : svc.verifyTotpCode secret submitted.code submitted.now = true) :
      PendingRead svc (gated digest user secret) s (verified digest user)

/-- The commits and the commands on Redis. A digest is minted for a fresh token, and a credential
may lapse at any time. -/
inductive PendingCommit (svc : FactorService) :
    PendingRequest → PendingStore → PendingEvent → PendingRequest → PendingStore → Prop
  | mint {s : PendingStore} {digest : Text} {user : UserId} (hfresh : digest ∉ s.minted) :
      PendingCommit svc idle s (.minted digest) idle (s.mint digest user)
  | take {s : PendingStore} {digest : Text} {user : UserId} (hget : s.live digest = some user) :
      PendingCommit svc idle s (.taken digest) (taken digest user) (s.drop digest)
  | refuse {s : PendingStore} (m : PendingRequest) : PendingCommit svc m s .refused idle s
  | wrong {s : PendingStore} {digest : Text} {user : UserId} {secret : Text}
      (submitted : Submission)
      (hcode : svc.verifyTotpCode secret submitted.code submitted.now = false) :
      PendingCommit svc (gated digest user secret) s (.wrong digest) idle
        ⟨s.factors.recordFailure user, s.minted⟩
  | complete {s : PendingStore} {digest : Text} {user : UserId} :
      PendingCommit svc (verified digest user) s (.completed digest user) idle
        ⟨(s.factors.resetFailures user).complete user, s.minted⟩
  | lapse {s : PendingStore} (digest : Text) :
      PendingCommit svc idle s .lapsed idle (s.drop digest)
  | elsewhere {s : PendingStore} (factors : FactorStore)
      (hpending : ∀ digest user, factors.pending.get (.email, digest) = some user →
        s.live digest = some user) :
      PendingCommit svc idle s .elsewhere idle ⟨factors, s.minted⟩

def pendingProtocol (svc : FactorService) :
    Protocol PendingStore Empty PendingRequest PendingEvent where
  locks _ _ := False
  known _ _ := True
  start m := m = idle
  read := PendingRead svc
  commit := PendingCommit svc

def PendingStore.Minted (s : PendingStore) : Prop := ∀ digest, s.live digest ≠ none →
  digest ∈ s.minted

def pendingSystem (svc : FactorService) (ι : Type*) [DecidableEq ι] :
    System (Config ι PendingStore PendingRequest) (Move ι PendingEvent) :=
  (pendingProtocol svc).system ι PendingStore.Minted

section SingleUse

variable {svc : FactorService} {s s' : PendingStore} {m m' : PendingRequest} {ev : PendingEvent}
  {digest digest' : Text}

def PendingStore.Spent (s : PendingStore) (digest : Text) : Prop :=
  digest ∈ s.minted ∧ s.live digest = none

theorem drop_live (digest' : Text) (h : s.live digest = none) : (s.drop digest').live digest = none :=
  dropPending_get _ h

theorem mint_live {user : UserId} (h : digest ≠ digest') :
    (s.mint digest' user).live digest = s.live digest :=
  Table.get_put_of_ne _ _ fun heq => h (Prod.mk.inj heq).2

theorem minted_commit (hs : s.Minted) (hcommit : PendingCommit svc m s ev m' s') : s'.Minted := by
  intro digest hlive
  cases hcommit with
  | @mint _ d user hfresh =>
    by_cases heq : digest = d
    · subst heq
      exact Finset.mem_insert_self _ _
    · rw [mint_live heq] at hlive
      exact Finset.mem_insert_of_mem (hs digest hlive)
  | take => exact hs digest fun hnone => hlive (drop_live _ hnone)
  | refuse => exact hs digest hlive
  | wrong => exact hs digest hlive
  | complete => exact hs digest hlive
  | lapse => exact hs digest fun hnone => hlive (drop_live _ hnone)
  | elsewhere factors hpending =>
    obtain ⟨user, huser⟩ := Option.ne_none_iff_exists'.mp hlive
    refine hs digest ?_
    rw [hpending digest user huser]
    exact fun h => (by cases h)

theorem pending_sound : (pendingProtocol svc).Sound PendingStore.Minted where
  start_locks _ _ _ h := h
  start_known _ _ _ := trivial
  read_known _ _ _ _ _ := trivial
  commit_inv _ _ _ _ _ hs _ hcommit := minted_commit hs hcommit
  commit_known _ _ _ _ _ _ _ _ := trivial
  commit_stable _ _ _ _ _ _ _ _ _ _ _ := trivial

theorem spent_commit (hspent : s.Spent digest) (hcommit : PendingCommit svc m s ev m' s') :
    s'.Spent digest := by
  cases hcommit with
  | @mint _ d user hfresh =>
    have hne : digest ≠ d := by
      rintro rfl
      exact hfresh hspent.1
    exact ⟨Finset.mem_insert_of_mem hspent.1, (mint_live hne).trans hspent.2⟩
  | take => exact ⟨hspent.1, drop_live _ hspent.2⟩
  | refuse => exact hspent
  | wrong => exact hspent
  | complete => exact hspent
  | lapse => exact ⟨hspent.1, drop_live _ hspent.2⟩
  | elsewhere factors hpending =>
    refine ⟨hspent.1, ?_⟩
    change factors.pending.get (.email, digest) = none
    cases hget : factors.pending.get (.email, digest) with
    | none => rfl
    | some user =>
      have hold := hpending digest user hget
      rw [hspent.2] at hold
      cases hold

/-- `GETDEL` gives a credential to one request, and it never comes back. -/
theorem pending_takenOnce (digest : Text) :
    (pendingProtocol svc).TakenOnce PendingStore.Minted (Holds digest) (·.Spent digest) where
  start m hm := by
    obtain rfl := hm
    exact fun h => h
  read m s m' hread hholds := by
    cases hread with
    | gate => exact hholds
    | right => exact hholds
  take m s ev m' s' hs _ hcommit hholds := by
    cases hcommit with
    | mint => exact hholds.elim
    | @take _ d user hget =>
      obtain rfl : d = digest := hholds
      have hne : s.live d ≠ none := by
        rw [hget]
        exact fun h => (by cases h)
      exact .inr ⟨fun hspent => hne hspent.2, hs d hne, dropPending_self⟩
    | refuse => exact hholds.elim
    | wrong => exact hholds.elim
    | complete => exact hholds.elim
    | lapse => exact hholds.elim
    | elsewhere => exact hholds.elim
  gone _ _ _ _ _ _ _ hcommit hspent := spent_commit hspent hcommit

theorem completed_holds {user : UserId}
    (hcommit : PendingCommit svc m s (.completed digest user) m' s') :
    m.Holds digest ∧ ¬ m'.Holds digest := by
  cases hcommit with
  | complete => exact ⟨rfl, fun h => h⟩

end SingleUse

/-- A pending credential completes one login at most in every run of the submissions, and it
completes it with a correct code exactly when no code was submitted before. -/
theorem pending_totp (svc : FactorService) {ι : Type*} [DecidableEq ι]
    {c c' : Config ι PendingStore PendingRequest}
    {l : List (Config ι PendingStore PendingRequest × Move ι PendingEvent ×
      Config ι PendingStore PendingRequest)}
    (hc : (pendingSystem svc ι).Reach c) (hrun : (pendingSystem svc ι).Run c l c')
    (digest : Text) (door : TotpDoor) {s : FactorStore} {token secret : Text} {user : UserId}
    {correct : Submission} (earlier : List Submission)
    (hlive : s.LivePending svc token user secret)
    (hcorrect : svc.verifyTotpCode secret correct.code correct.now = true) :
    (l.Pairwise fun e e' =>
      ¬ ((∃ a, e.2.1.2 = some a ∧ ∃ user, a = .completed digest user) ∧
        ∃ a, e'.2.1.2 = some a ∧ ∃ user, a = .completed digest user)) ∧
    ((door.verify svc (afterSubmissions svc door token s earlier) token correct).2 =
      .ok (.email, user) ↔ earlier = []) := by
  refine ⟨?_, verify_after_iff door earlier hlive hcorrect⟩
  refine (pending_takenOnce digest).used_once pending_sound (fun _ h => h) ?_ hc hrun
  rintro m s a m' s' hcommit ⟨user, rfl⟩
  exact completed_holds hcommit

section Example

def awaiting : FactorStore := (mistaken 0).mint .email ['t'] 1

theorem awaiting_live : awaiting.LivePending plainFactors ['t'] 1 ['s'] := ⟨rfl, rfl⟩

end Example

/-- One wrong code, and the correct one finds nothing. -/
theorem wrong_code_burns :
    ¬ ∀ (svc : FactorService) (door : TotpDoor) (s : FactorStore) (token secret : Text)
      (user : UserId) (correct : Submission) (wrong : List Submission),
      s.LivePending svc token user secret →
      svc.verifyTotpCode secret correct.code correct.now = true →
      (∀ submitted ∈ wrong, svc.verifyTotpCode secret submitted.code submitted.now = false) →
      s.codes.failures user + wrong.length < lockThreshold →
      (door.verify svc (afterSubmissions svc door token s wrong) token correct).2 =
        .ok (.email, user) := by
  intro hall
  have hok := hall plainFactors .emailLogin awaiting ['t'] ['s'] 1 ⟨['s'], 0⟩ [⟨['x'], 0⟩]
    awaiting_live (by decide) (fun submitted hmem => by
      obtain rfl := List.mem_singleton.mp hmem
      decide) (by decide)
  exact verify_spent .emailLogin (afterSubmissions_spent .emailLogin [] verifyTotp_spends) hok

theorem first_code_completes :
    (TotpDoor.emailLogin.verify plainFactors awaiting ['t'] ⟨['s'], 0⟩).2 = .ok (.email, 1) := by
  have hinit : (pendingSystem plainFactors Bool).Reach
      ⟨⟨mistaken 0, ∅⟩, fun _ => idle⟩ := .init ⟨fun digest h => absurd rfl h, fun _ => rfl⟩
  exact (pending_totp plainFactors hinit (.nil _) ['t'] .emailLogin [] awaiting_live
    (by decide)).2.mpr rfl

end CampusQuest.Identity
