import CampusQuest.CrashPoints
import CampusQuest.IdentityRows
import Mathlib.Tactic.IntervalCases

/-!
The stolen-account emergency stop. `kick` counts the live sessions, revokes them through
the session service, which commits on its own, deletes the remembered devices, appends the
audit row and commits. A crash between the two commits leaves the sessions revoked with
the devices alive and no audit row, unless the first commit had nothing to revoke.
-/

namespace CampusQuest.Identity

open CrashPoints Tables

/-- A refresh session that can still be presented at this time. -/
def UserSession.LiveAt (s : UserSession) (now : Instant) : Prop :=
  s.revokedAt = none ∧ now < s.expiresAt

instance (s : UserSession) (now : Instant) : Decidable (s.LiveAt now) := by
  unfold UserSession.LiveAt
  infer_instance

namespace Db

variable (db : Db) (user : UserId) (now : Instant)

/-- `select count(*) ... where user_id = ? and revoked_at is null and expires_at > now`. -/
def liveSessionCount : ℕ := db.sessions.count fun _ s => s.userId = user ∧ s.LiveAt now

def deviceCount : ℕ := db.devices.count fun _ d => d.userId = user

/-- The UPDATE of `_revoke` without a session to keep: expired rows are revoked as well. -/
def revokeSessions : Db :=
  { db with
    sessions := db.sessions.updateWhere (fun _ s => s.userId = user ∧ s.revokedAt = none)
      fun s => { s with revokedAt := some now } }

def deleteDevices : Db :=
  { db with devices := db.devices.deleteWhere fun _ d => d.userId = user }

def appendAudit (row : AuditLog) : Db := { db with audits := db.audits ++ [row] }

end Db

section Kick

/-- `SessionService.revoke_all`: one UPDATE and its own commit. -/
def revokeAll {α : Type} (user : UserId) (now : Instant) (next : Program Db IdentityError α) :
    Program Db IdentityError α :=
  .write (fun db => db.revokeSessions user now) fun _ => .commit next

def kickAudit (actor : Actor) (user : UserId) (context : Option AuditContext)
    (sessions devices : ℕ) : AuditLog where
  actor := actor
  action := .adminSessionsRevoked
  targetId := user
  reason := none
  before := none
  after := some (.revoked sessions devices)
  context := context

def kick (actor : Actor) (user : UserId) (now : Instant) (context : Option AuditContext) :
    Program Db IdentityError (ℕ × ℕ) :=
  .read fun db =>
    match db.users.get user with
    | none => .raise .notFound
    | some _ => .read fun db =>
      let revokedSessions := db.liveSessionCount user now
      revokeAll user now <| .write (fun db => db.deleteDevices user) fun db =>
        let revokedDevices := db.deviceCount user
        .write (fun db => db.appendAudit
          (kickAudit actor user context revokedSessions revokedDevices)) fun _ =>
        .commit (.done (revokedSessions, revokedDevices))

variable (actor : Actor) (user : UserId) (now : Instant) (context : Option AuditContext)

/-- Everything that `kick` promises about the state it leaves. -/
structure Kicked (db db' : Db) : Prop where
  sessions : ∀ id s, db'.sessions.get id = some s → s.userId = user → ¬ s.LiveAt now
  devices : ∀ id d, db'.devices.get id = some d → d.userId ≠ user
  audit : db'.audits = db.audits ++
    [kickAudit actor user context (db.liveSessionCount user now) (db.deviceCount user)]

def KickAtomic (db db' : Db) : Prop := db' = db ∨ Kicked actor user now context db db'

def kickHalfway (db : Db) : Db := db.revokeSessions user now

def kickFinal (db : Db) : Db :=
  ((kickHalfway user now db).deleteDevices user).appendAudit
    (kickAudit actor user context (db.liveSessionCount user now) (db.deviceCount user))

variable {actor user now context} {db : Db}

theorem kick_unknown (n : ℕ) (h : db.users.get user = none) :
    (kick actor user now context).crash n db = db := by
  apply Program.crash_of_unpublished
  match n with
  | 0 => rfl
  | 1 => rfl
  | n + 2 => simp [kick, h, Program.published]

/-- Statement 4 is the session service's commit and statement 7 is `kick`'s own. -/
theorem kick_crash (n : ℕ) (h : db.users.get user ≠ none) :
    (kick actor user now context).crash n db =
      if n < 4 then db else if n < 7 then kickHalfway user now db
        else kickFinal actor user now context db := by
  obtain ⟨u, hu⟩ := Option.ne_none_iff_exists'.mp h
  have hbefore : n < 4 → (kick actor user now context).published n db = [] := by
    intro hn
    interval_cases n <;> simp [kick, revokeAll, hu, Program.published]
  have hbetween : 4 ≤ n → n < 7 →
      (kick actor user now context).published n db = [] ++ [kickHalfway user now db] := by
    intro hlow hn
    interval_cases n <;> simp [kick, revokeAll, kickHalfway, hu, Program.published]
  have hafter : 7 ≤ n → (kick actor user now context).published n db =
      [kickHalfway user now db] ++ [kickFinal actor user now context db] := by
    intro hn
    obtain ⟨m, rfl⟩ := Nat.exists_eq_add_of_le hn
    rw [Nat.add_comm]
    cases m <;> simp [kick, revokeAll, kickHalfway, kickFinal, hu, Program.published,
      Db.deviceCount, Db.revokeSessions]
  by_cases hlow : n < 4
  · rw [if_pos hlow, Program.crash_of_unpublished (hbefore hlow)]
  · rw [if_neg hlow]
    by_cases hhigh : n < 7
    · rw [if_pos hhigh, Program.crash_of_published (hbetween (by omega) hhigh)]
    · rw [if_neg hhigh, Program.crash_of_published (hafter (by omega))]

/-- The revocation leaves the database as it was exactly when it finds no row. -/
theorem kickHalfway_eq_iff : kickHalfway user now db = db ↔
    ∀ id s, db.sessions.get id = some s → s.userId = user → s.revokedAt ≠ none := by
  constructor
  · intro hsame id s hs huser hopen
    have hsessions : (kickHalfway user now db).sessions = db.sessions := by rw [hsame]
    have hchange : ∀ (_ : SessionId) (s : UserSession),
        (s.userId = user ∧ s.revokedAt = none) → { s with revokedAt := some now } ≠ s := by
      rintro _ s ⟨_, hnone⟩ heq
      have hrevoked := congrArg UserSession.revokedAt heq
      simp [hnone] at hrevoked
    exact Table.of_updateWhere_eq_self hchange hsessions hs ⟨huser, hopen⟩
  · intro hrevoked
    have hsessions := Table.updateWhere_eq_self (t := db.sessions)
      (p := fun _ s => s.userId = user ∧ s.revokedAt = none)
      (fun s => { s with revokedAt := some now }) fun id s hs hp => hrevoked id s hs hp.1 hp.2
    unfold kickHalfway Db.revokeSessions
    rw [hsessions]

/-- A session of the account that is left has been revoked. -/
theorem not_live_revokeSessions {id : SessionId} {s : UserSession}
    (hs : (db.revokeSessions user now).sessions.get id = some s) (huser : s.userId = user) :
    ¬ s.LiveAt now := by
  unfold Db.revokeSessions at hs
  rw [Table.get_updateWhere] at hs
  obtain ⟨old, _, rfl⟩ := Option.map_eq_some_iff.mp hs
  rintro ⟨hopen, _⟩
  by_cases hp : old.userId = user ∧ old.revokedAt = none
  · rw [if_pos hp] at hopen
    cases hopen
  · rw [if_neg hp] at huser hopen
    exact hp ⟨huser, hopen⟩

theorem kickFinal_kicked :
    Kicked actor user now context db (kickFinal actor user now context db) := by
  refine ⟨?_, ?_, rfl⟩
  · intro id s hs huser
    exact not_live_revokeSessions hs huser
  · intro id d hd
    exact (Table.get_deleteWhere_eq_some.mp hd).2

/-- A kick that ends returns the counts of its audit row. -/
theorem kick_run (h : db.users.get user ≠ none) :
    (kick actor user now context).run db =
      .ok ((db.liveSessionCount user now, db.deviceCount user),
        kickFinal actor user now context db) := by
  obtain ⟨u, hu⟩ := Option.ne_none_iff_exists'.mp h
  simp [kick, revokeAll, kickFinal, kickHalfway, hu, Program.run, Db.deviceCount,
    Db.revokeSessions]

/-- Halfway the devices may be alive and the audit row is missing. -/
theorem kickHalfway_atomic_iff : KickAtomic actor user now context db (kickHalfway user now db) ↔
    ∀ id s, db.sessions.get id = some s → s.userId = user → s.revokedAt ≠ none := by
  have hiff : kickHalfway user now db = db ↔
      ∀ id s, db.sessions.get id = some s → s.userId = user → s.revokedAt ≠ none :=
    kickHalfway_eq_iff
  rw [← hiff]
  constructor
  · rintro (hsame | hkicked)
    · exact hsame
    · have haudit := congrArg List.length hkicked.audit
      simp [kickHalfway, Db.revokeSessions] at haudit
  · exact Or.inl

/-- A crash inside `kick` is atomic exactly when the account is unknown, when it has no
unrevoked session, or when the crash is not between the two commits. -/
theorem kick_atomic_iff (actor : Actor) (user : UserId) (now : Instant)
    (context : Option AuditContext) (db : Db) (n : ℕ) :
    KickAtomic actor user now context db ((kick actor user now context).crash n db) ↔
      db.users.get user = none ∨
        (∀ id s, db.sessions.get id = some s → s.userId = user → s.revokedAt ≠ none) ∨
        n < 4 ∨ 7 ≤ n := by
  by_cases hunknown : db.users.get user = none
  · simp [KickAtomic, kick_unknown n hunknown, hunknown]
  rw [kick_crash n hunknown]
  by_cases hlow : n < 4
  · simp [KickAtomic, hlow]
  by_cases hhigh : n < 7
  · have hlast : ¬ 7 ≤ n := by omega
    simp [hlow, hhigh, hunknown, hlast, kickHalfway_atomic_iff]
  · have hlast : 7 ≤ n := by omega
    simp only [hlow, hhigh, hlast, if_false, or_true, iff_true]
    exact Or.inr kickFinal_kicked

def kickExample : Db where
  users := Table.empty.put 1 ⟨['a'], none, ['a'], none, none, none, .teacher, .active⟩
  sessions := Table.empty.put 1 ⟨1, ['h'], 100, none, none, none, none⟩
  devices := Table.empty.put 1 ⟨1, ['d'], 100, none, 0⟩
  audits := []

/-- A crash right behind the session service's commit. -/
theorem kick_not_atomic :
    ¬ KickAtomic ⟨2, .admin⟩ 1 10 none kickExample
      ((kick ⟨2, .admin⟩ 1 10 none).crash 4 kickExample) := by
  have hknown : kickExample.users.get 1 ≠ none := by simp [kickExample]
  have hopen : kickExample.sessions.get 1 = some ⟨1, ['h'], 100, none, none, none, none⟩ := by
    simp [kickExample]
  rw [kick_crash 4 hknown, if_neg (by omega), if_pos (by omega), kickHalfway_atomic_iff]
  intro hrevoked
  exact hrevoked 1 _ hopen rfl rfl

end Kick

end CampusQuest.Identity
