import CampusQuest.SessionLogout
import CampusQuest.TwoProcesses

/-!
Revoking all sessions of an account beside rotations. The UPDATE of `revoke_all` goes
through the unrevoked rows that were committed when it started; at each it waits for the row
lock and looks at the row again. A rotation that commits while the UPDATE has not reached its
row leaves a revoked row behind, which the UPDATE skips, and a successor that it never saw.
-/

namespace CampusQuest.Identity

open Generations Guards Locking Runs Tables

/-- `dead` is a ghost: the sessions that committed revocations were called for. -/
structure RevocationStore where
  db : Db
  dead : Set SessionId

namespace Db

variable (db : Db)

def sessionsOf (user : UserId) : Finset SessionId :=
  db.sessions.keys.filter fun id => (db.sessions.get id).any fun s => s.userId = user

/-- The rows of the condition `user_id = ... AND revoked_at IS NULL AND id != ...`. -/
def unrevokedOf (user : UserId) (keep : Option SessionId) : Finset SessionId :=
  db.sessions.keys.filter fun id =>
    (db.sessions.get id).any fun s => s.userId = user ∧ s.revokedAt = none ∧ keep ≠ some id

/-- The sessions that a revocation is called for: those of the account but for the generations
of the kept one. -/
def calledFor (user : UserId) (keep : Option SessionId) : Set SessionId :=
  {id | id ∈ db.sessionsOf user ∧ ∀ k, keep = some k → ¬ Relation.ReflTransGen db.ReplacedBy id k}

def revokeRows (held : Finset SessionId) (now : Instant) : Db :=
  { db with
    sessions := db.sessions.updateWhere (fun id _ => id ∈ held) fun s =>
      { s with revokedAt := some now } }

variable {db}

theorem mem_sessionsOf {user : UserId} {id : SessionId} :
    id ∈ db.sessionsOf user ↔ ∃ s, db.sessions.get id = some s ∧ s.userId = user := by
  unfold sessionsOf
  rw [Finset.mem_filter, Table.mem_keys_iff]
  cases db.sessions.get id with
  | none => simp
  | some s => simp

theorem mem_unrevokedOf {user : UserId} {keep : Option SessionId} {id : SessionId}
    {s : UserSession} (hget : db.sessions.get id = some s) :
    id ∈ db.unrevokedOf user keep ↔ s.userId = user ∧ s.revokedAt = none ∧ keep ≠ some id := by
  unfold unrevokedOf
  rw [Finset.mem_filter, Table.mem_keys_iff, hget]
  simp

theorem get_revokeRows {held : Finset SessionId} {now : Instant} (id : SessionId) :
    (db.revokeRows held now).sessions.get id = (db.sessions.get id).map fun s =>
      if id ∈ held then { s with revokedAt := some now } else s :=
  Table.get_updateWhere _ id

end Db

/-- A request at work: a call that locks the rows of a chain, with the accounts it has read,
or a revocation with the rows it is called for, those it has still to reach and those it
holds. -/
inductive SessionRequest
  | idle
  | walking (held : Finset SessionId) (accounts : Table UserId User)
  | revoking (user : UserId) (seen : Set SessionId) (remaining held : Finset SessionId)

inductive RevocationEvent
  | served (call : SessionCall) (answer : Option SessionTokens)
  | elsewhere
  | revoked (user : UserId)

open SessionRequest

def SessionRequest.locks : SessionRequest → SessionId → Prop
  | idle, _ => False
  | walking held _, id => id ∈ held
  | revoking _ _ _ held, id => id ∈ held

/-- The statements before a commit. `revoke_all` keeps no session, `revoke_all_except` one. -/
inductive SessionRead : SessionRequest → RevocationStore → SessionRequest → Prop
  | begin {s : RevocationStore} : SessionRead idle s (walking ∅ s.db.users)
  | lock {s : RevocationStore} (held : Finset SessionId) (accounts : Table UserId User)
      (id : SessionId) :
      SessionRead (walking held accounts) s (walking (insert id held) accounts)
  | account {s : RevocationStore} (held : Finset SessionId) (accounts : Table UserId User) :
      SessionRead (walking held accounts) s (walking held s.db.users)
  | snapshot {s : RevocationStore} (user : UserId) (keep : Option SessionId) :
      SessionRead idle s
        (revoking user (s.db.calledFor user keep) (s.db.unrevokedOf user keep) ∅)
  | update {s : RevocationStore} (user : UserId) (seen : Set SessionId)
      (remaining held : Finset SessionId)
      (id : SessionId) (row : UserSession) (hmem : id ∈ remaining)
      (hget : s.db.sessions.get id = some row) (hopen : row.revokedAt = none) :
      SessionRead (revoking user seen remaining held) s
        (revoking user seen (remaining.erase id) (insert id held))
  | skip {s : RevocationStore} (user : UserId) (seen : Set SessionId)
      (remaining held : Finset SessionId)
      (id : SessionId) (row : UserSession) (hmem : id ∈ remaining)
      (hget : s.db.sessions.get id = some row) (hrevoked : row.revokedAt ≠ none) :
      SessionRead (revoking user seen remaining held) s
        (revoking user seen (remaining.erase id) held)
  | rollback {s : RevocationStore} (m : SessionRequest) : SessionRead m s idle

/-- The commits. A call rewrites only rows that it has locked, and judges the account by the
row that it has read. A revocation commits what its caller has flushed besides; `elsewhere`
stands for transactions that leave the sessions alone. -/
inductive SessionCommit (svc : SessionService) :
    SessionRequest → RevocationStore → RevocationEvent → SessionRequest → RevocationStore → Prop
  | served {s : RevocationStore} (held : Finset SessionId) (accounts : Table UserId User)
      (call : SessionCall) (answer : Option SessionTokens) (db' : Db)
      (hserve : svc.serve { s.db with users := accounts } call = some (answer, db'))
      (hlocked : ∀ id row, s.db.sessions.get id = some row →
        db'.sessions.get id ≠ some row → id ∈ held) :
      SessionCommit svc (walking held accounts) s (.served call answer) idle
        { s with db := { db' with users := s.db.users } }
  | elsewhere {s : RevocationStore} (db' : Db) (hsessions : db'.sessions = s.db.sessions) :
      SessionCommit svc idle s .elsewhere idle { s with db := db' }
  | revoked {s : RevocationStore} (user : UserId) (seen : Set SessionId)
      (held : Finset SessionId) (now : Instant) (db' : Db)
      (hsessions : db'.sessions = (s.db.revokeRows held now).sessions) :
      SessionCommit svc (revoking user seen ∅ held) s (.revoked user) idle ⟨db', s.dead ∪ seen⟩

def revocationProtocol (svc : SessionService) :
    Protocol RevocationStore SessionId SessionRequest RevocationEvent where
  locks := SessionRequest.locks
  known _ _ := True
  start m := m = idle
  read := SessionRead
  commit := SessionCommit svc

def RevocationStore.Initial (s : RevocationStore) : Prop := s.db.sessions = .empty ∧ s.dead = ∅

def revocationSystem (svc : SessionService) (ι : Type*) [DecidableEq ι] :
    System (Config ι RevocationStore SessionRequest) (Move ι RevocationEvent) :=
  (revocationProtocol svc).system ι RevocationStore.Initial

/-- The condition on a step: a rotation does not commit while a revocation has seen its row
and has not reached it yet. -/
def RotatesReached (svc : SessionService) {ι : Type*}
    (c : Config ι RevocationStore SessionRequest) (m : Move ι RevocationEvent) : Prop :=
  match m.2 with
  | some (.served (.rotate token _ _) (some _)) =>
    ∀ id row, c.store.db.findSession (svc.hashRefreshToken token) = some (id, row) → row.Open →
      ∀ j user seen remaining held, c.proc j = revoking user seen remaining held → id ∉ remaining
  | _ => True

/-- Every session that a committed revocation was called for is revoked, and so is whatever
descends from it. -/
def RevocationStore.Reached (s : RevocationStore) : Prop :=
  ∀ a ∈ s.dead, ∀ b, Relation.ReflTransGen s.db.ReplacedBy a b →
    ∃ row, s.db.sessions.get b = some row ∧ row.revokedAt ≠ none

section Rows

variable {svc : SessionService} {db db' : Db}

theorem SessionChange.get_row (hchange : SessionChange svc db db') {a : SessionId}
    {s : UserSession} (ha : db.sessions.get a = some s) :
    ∃ s', db'.sessions.get a = some s' ∧ s'.userId = s.userId ∧
      (s.revokedAt ≠ none → s'.revokedAt ≠ none) ∧
      (s'.replacedBy = s.replacedBy ∨ s.Open) := by
  cases hchange with
  | accounts users => exact ⟨s, ha, rfl, id, Or.inl rfl⟩
  | opened userId fresh now hid hdigest =>
    have hne : a ≠ fresh.sessionId := by
      rintro rfl
      simp [hid] at ha
    exact ⟨s, by rw [putSession_get, if_neg hne, ha], rfl, id, Or.inl rfl⟩
  | rotated id current fresh now hget hopen hid hdigest =>
    have hfresh : a ≠ fresh.sessionId := by
      rintro rfl
      simp [hid] at ha
    by_cases hne : a = id
    · subst hne
      rw [hget, Option.some.injEq] at ha
      subst ha
      refine ⟨svc.retire current fresh now, by rw [putSession_get, if_pos rfl], rfl, ?_,
        Or.inr hopen⟩
      intro hrevoked
      exact absurd hopen.1 hrevoked
    · exact ⟨s, by rw [putSession_get, if_neg hne, putSession_get, if_neg hfresh, ha], rfl,
        fun h => h, Or.inl rfl⟩
  | closed tip row now hget hrevoked htip =>
    by_cases hne : a = tip
    · subst hne
      rw [hget, Option.some.injEq] at ha
      subst ha
      exact ⟨{ row with revokedAt := some now }, by rw [putSession_get, if_pos rfl], rfl,
        fun _ => by simp, Or.inl rfl⟩
    · exact ⟨s, by rw [putSession_get, if_neg hne, ha], rfl, fun h => h, Or.inl rfl⟩

def Db.SameUser (db : Db) : Prop :=
  ∀ a s b t, db.sessions.get a = some s → s.replacedBy = some b → db.sessions.get b = some t →
    t.userId = s.userId

theorem Db.SameUser.change (h : db.SameUser) (hinv : LineageInv svc db)
    (hchange : SessionChange svc db db') : db'.SameUser := by
  intro a s b t ha hnext hb
  cases hchange with
  | accounts users => exact h a s b t ha hnext hb
  | opened userId fresh now hid hdigest =>
    rcases Table.get_put_eq_some ha with ⟨_, rfl⟩ | ⟨_, ha⟩
    · cases hnext
    · rcases Table.get_put_eq_some hb with ⟨rfl, _⟩ | ⟨_, hb⟩
      · obtain ⟨rank, hrank⟩ := hinv.ranked
        have hrow := (hrank.grows a s _ ha hnext).1
        simp [hid] at hrow
      · exact h a s b t ha hnext hb
  | rotated id current fresh now hget hopen hid hdigest =>
    obtain ⟨rank, hrank⟩ := hinv.ranked
    have hne : fresh.sessionId ≠ id := by
      intro heq
      rw [← heq, hid] at hget
      cases hget
    rcases Table.get_put_eq_some ha with ⟨rfl, rfl⟩ | ⟨hane, ha⟩
    · -- The rotated row leads to the fresh one.
      obtain rfl := Option.some.inj hnext
      rw [putSession_get, if_neg hne, putSession_get, if_pos rfl, Option.some.injEq] at hb
      rw [← hb]
      rfl
    · rcases Table.get_put_eq_some ha with ⟨_, rfl⟩ | ⟨_, ha⟩
      · cases hnext
      · have hbrow := (hrank.grows a s b ha hnext).1
        have hbne : b ≠ fresh.sessionId := by
          rintro rfl
          simp [hid] at hbrow
        rw [putSession_get] at hb
        by_cases hbid : b = id
        · rw [if_pos hbid, Option.some.injEq] at hb
          rw [← hb]
          exact h a s b current ha hnext (hbid ▸ hget)
        · rw [if_neg hbid, putSession_get, if_neg hbne] at hb
          exact h a s b t ha hnext hb
  | closed tip row now hget hrevoked htip =>
    obtain ⟨s₀, hs₀, hsuser, hsnext⟩ :
        ∃ s₀, db.sessions.get a = some s₀ ∧ s.userId = s₀.userId ∧ s₀.replacedBy = some b := by
      rcases Table.get_put_eq_some ha with ⟨rfl, rfl⟩ | ⟨_, ha⟩
      · exact ⟨row, hget, rfl, hnext⟩
      · exact ⟨s, ha, rfl, hnext⟩
    rw [hsuser]
    rcases Table.get_put_eq_some hb with ⟨rfl, rfl⟩ | ⟨_, hb⟩
    · exact h a s₀ b row hs₀ hsnext hget
    · exact h a s₀ b t hs₀ hsnext hb

/-- Only a rotation replaces a row, and it replaces the open row of its token. -/
theorem serve_replaces {call : SessionCall} {answer : Option SessionTokens} {a : SessionId}
    {s s' : UserSession} (h : svc.serve db call = some (answer, db'))
    (ha : db.sessions.get a = some s) (ha' : db'.sessions.get a = some s')
    (hne : s'.replacedBy ≠ s.replacedBy) :
    ∃ token fresh now tokens, call = .rotate token fresh now ∧ answer = some tokens ∧
      db.findSession (svc.hashRefreshToken token) = some (a, s) := by
  have hsame (hkept : db'.sessions.get a = db.sessions.get a) : False := by
    rw [ha, ha', Option.some.injEq] at hkept
    exact hne (by rw [hkept])
  have hissued {userId : UserId} {user : User} {fresh : Fresh} {now : Instant}
      {tokens : SessionTokens} {db₁ : Db}
      (hissue : svc.issueSession db userId user fresh now = .ok (tokens, db₁)) :
      db₁.sessions.get a = db.sessions.get a := by
    obtain ⟨hid, _, _, rfl⟩ := SessionService.issueSession_ok hissue
    rw [putSession_get, if_neg]
    rintro rfl
    simp [hid] at ha
  have hanswered {r : Except IdentityError (SessionTokens × Db)}
      (hr : some (answered db r) = some (answer, db'))
      (hok : ∀ tokens db₁, r = .ok (tokens, db₁) → db₁.sessions.get a = db.sessions.get a) :
      False := by
    cases hres : r with
    | error e =>
      rw [hres, Option.some.injEq] at hr
      obtain rfl : db = db' := congrArg Prod.snd hr
      exact hsame rfl
    | ok result =>
      obtain ⟨tokens, db₁⟩ := result
      rw [hres, Option.some.injEq] at hr
      obtain rfl : db₁ = db' := congrArg Prod.snd hr
      exact hsame (hok tokens db₁ hres)
  cases call with
  | login username password locked fresh now =>
    refine (hanswered h fun tokens db₁ hok => ?_).elim
    obtain ⟨userId, user, hissue⟩ := SessionService.loginStudent_ok hok
    exact hissued hissue
  | issue userId user fresh now => exact (hanswered h fun tokens db₁ hok => hissued hok).elim
  | rotate token fresh now =>
    cases hresult : svc.rotateRefresh db token fresh now with
    | error e =>
      refine (hanswered h fun tokens db₁ hok => ?_).elim
      rw [hresult] at hok
      cases hok
    | ok result =>
      obtain ⟨tokens, db₁⟩ := result
      have hpair : (some tokens, db₁) = (answer, db') := by
        have h := Option.some.inj h
        rw [hresult] at h
        exact h
      rw [Prod.mk.injEq] at hpair
      obtain ⟨rfl, rfl⟩ := hpair
      obtain ⟨id, current, hfind, ⟨_, _, rfl⟩ | ⟨_, hid, _, rfl⟩⟩ :=
        SessionService.rotateRefresh_ok hresult
      · exact (hsame rfl).elim
      · have hfresh : a ≠ fresh.sessionId := by
          rintro rfl
          simp [hid] at ha
        by_cases haid : a = id
        · subst haid
          have hget := (Table.find_some hfind).1
          rw [ha, Option.some.injEq] at hget
          exact ⟨token, fresh, now, tokens, rfl, rfl, hget ▸ hfind⟩
        · refine (hsame ?_).elim
          rw [putSession_get, if_neg haid, putSession_get, if_neg hfresh]
  | logout token now =>
    obtain ⟨db₁, hrevoke, heq⟩ := Option.map_eq_some_iff.mp h
    rw [Prod.mk.injEq] at heq
    obtain ⟨_, rfl⟩ := heq
    rcases SessionService.revokeSession_some hrevoke with
      rfl | ⟨_, _, tip, row, _, _, hrow, _, rfl⟩
    · exact (hsame rfl).elim
    · by_cases hatip : a = tip
      · subst hatip
        rw [hrow, Option.some.injEq] at ha
        rw [putSession_get, if_pos rfl, Option.some.injEq] at ha'
        exact absurd (by rw [← ha', ← ha]) hne
      · exact (hsame (by rw [putSession_get, if_neg hatip])).elim
  | accounts users =>
    obtain rfl : { db with users := users } = db' := congrArg Prod.snd (Option.some.inj h)
    exact (hsame rfl).elim

end Rows

section Invariant

variable {svc : SessionService} {s : RevocationStore}

structure RevocationInv (svc : SessionService) (s : RevocationStore) : Prop where
  lineage : LineageInv svc s.db
  sameUser : s.db.SameUser
  dead : ∀ a ∈ s.dead, ∃ row, s.db.sessions.get a = some row ∧ row.revokedAt ≠ none ∧
    ∀ b, row.replacedBy = some b → b ∈ s.dead

theorem RevocationInv.of_sessions {s' : RevocationStore} (h : RevocationInv svc s)
    (hsessions : s'.db.sessions = s.db.sessions) (hdead : s'.dead = s.dead) :
    RevocationInv svc s' := by
  obtain ⟨⟨users, sessions, devices, audits⟩, dead⟩ := s
  obtain ⟨⟨users', sessions', devices', audits'⟩, dead'⟩ := s'
  obtain rfl : sessions' = sessions := hsessions
  obtain rfl : dead' = dead := hdead
  obtain ⟨rank, hrank⟩ := h.lineage.ranked
  exact ⟨⟨h.lineage.digest, ⟨rank, hrank.below, hrank.grows⟩, h.lineage.retired, h.lineage.envelope,
    h.lineage.bare⟩, h.sameUser, h.dead⟩

/-- The inventory of a revocation: its rows lead to its rows, and those that are unrevoked it
has still to reach or holds. -/
def SessionRequest.Covers (m : SessionRequest) (db : Db) : Prop :=
  ∀ user seen remaining held, m = revoking user seen remaining held → ∀ a ∈ seen,
    ∃ row, db.sessions.get a = some row ∧ (∀ b, row.replacedBy = some b → b ∈ seen) ∧
      (row.revokedAt = none → a ∈ remaining ∨ a ∈ held)

theorem RevocationInv.dead_descends (h : RevocationInv svc s) {a b : SessionId} (ha : a ∈ s.dead)
    (hab : Relation.ReflTransGen s.db.ReplacedBy a b) : b ∈ s.dead := by
  induction hab with
  | refl => exact ha
  | tail _ hstep ih =>
    obtain ⟨row, hget, _, hnext⟩ := h.dead _ ih
    obtain ⟨row', hget', hrow⟩ := hstep
    rw [hget, Option.some.injEq] at hget'
    exact hnext _ (hget' ▸ hrow)

theorem RevocationInv.reached (h : RevocationInv svc s) : s.Reached := by
  intro a ha b hab
  obtain ⟨row, hget, hrevoked, _⟩ := h.dead b (h.dead_descends ha hab)
  exact ⟨row, hget, hrevoked⟩

theorem SessionRequest.Covers.of_sessions {m : SessionRequest} {db db' : Db} (h : m.Covers db)
    (hsessions : db'.sessions = db.sessions) : m.Covers db' := by
  intro user seen remaining held hm a ha
  rw [hsessions]
  exact h user seen remaining held hm a ha

/-- A revocation starts with an inventory of its rows. -/
theorem covers_snapshot (h : RevocationInv svc s) (user : UserId) (keep : Option SessionId) :
    (revoking user (s.db.calledFor user keep) (s.db.unrevokedOf user keep) ∅).Covers s.db := by
  intro u seen remaining held hm a ha
  obtain ⟨rfl, rfl, rfl, rfl⟩ := revoking.inj hm
  obtain ⟨hof, hkeep⟩ := ha
  obtain ⟨row, hget, huser⟩ := Db.mem_sessionsOf.mp hof
  refine ⟨row, hget, fun b hb => ?_, fun hopen => Or.inl ?_⟩
  · obtain ⟨rank, hrank⟩ := h.lineage.ranked
    obtain ⟨t, ht⟩ := Option.isSome_iff_exists.mp (hrank.grows a row b hget hb).1
    refine ⟨Db.mem_sessionsOf.mpr ⟨t, ht, (h.sameUser a row b t hget hb ht).trans huser⟩,
      fun k hk hbk => hkeep k hk (.head ⟨row, hget, hb⟩ hbk)⟩
  · exact (Db.mem_unrevokedOf hget).mpr ⟨huser, hopen, fun hk => hkeep a hk .refl⟩

/-- A read keeps an inventory, or takes one. -/
theorem covers_read {m m' : SessionRequest} (h : RevocationInv svc s) (hm : m.Covers s.db)
    (hread : SessionRead m s m') : m'.Covers s.db := by
  cases hread with
  | snapshot user keep => exact covers_snapshot h user keep
  | update user seen remaining held id row hmem hget hopen =>
    intro u seen' remaining' held' heq a ha
    obtain ⟨rfl, rfl, rfl, rfl⟩ := revoking.inj heq
    obtain ⟨row', hget', hnext, hleft⟩ := hm _ _ _ _ rfl a ha
    refine ⟨row', hget', hnext, fun hnone => ?_⟩
    by_cases hid : a = id
    · exact Or.inr (Finset.mem_insert.mpr (Or.inl hid))
    · rcases hleft hnone with hremaining | hheld
      · exact Or.inl (Finset.mem_erase.mpr ⟨hid, hremaining⟩)
      · exact Or.inr (Finset.mem_insert_of_mem hheld)
  | skip user seen remaining held id row hmem hget hrevoked =>
    intro u seen' remaining' held' heq a ha
    obtain ⟨rfl, rfl, rfl, rfl⟩ := revoking.inj heq
    obtain ⟨row', hget', hnext, hleft⟩ := hm _ _ _ _ rfl a ha
    refine ⟨row', hget', hnext, fun hnone => ?_⟩
    have hid : a ≠ id := by
      rintro rfl
      rw [hget, Option.some.injEq] at hget'
      exact hrevoked (hget' ▸ hnone)
    rcases hleft hnone with hremaining | hheld
    · exact Or.inl (Finset.mem_erase.mpr ⟨hid, hremaining⟩)
    · exact Or.inr hheld
  | _ => exact fun _ _ _ _ heq => (by cases heq)

/-- An inventory survives a step that replaces none of its unrevoked rows. -/
theorem SessionRequest.Covers.change {m : SessionRequest} {db db' : Db} (hm : m.Covers db)
    (hrows : ∀ a row, db.sessions.get a = some row →
      ∃ row', db'.sessions.get a = some row' ∧ (row.revokedAt ≠ none → row'.revokedAt ≠ none) ∧
        (row'.replacedBy = row.replacedBy ∨ row.Open))
    (hkept : ∀ user seen remaining held a row row', m = revoking user seen remaining held →
      a ∈ remaining ∨ a ∈ held → db.sessions.get a = some row →
      db'.sessions.get a = some row' → row'.replacedBy = row.replacedBy) : m.Covers db' := by
  intro user seen remaining held heq a ha
  obtain ⟨row, hget, hnext, hleft⟩ := hm user seen remaining held heq a ha
  obtain ⟨row', hget', hrevoked, hsame⟩ := hrows a row hget
  have hreplaced : row'.replacedBy = row.replacedBy := by
    rcases hsame with hsame | hopen
    · exact hsame
    · exact hkept _ _ _ _ a row row' heq (hleft hopen.1) hget hget'
  refine ⟨row', hget', fun b hb => hnext b (hreplaced ▸ hb), fun hnone => hleft ?_⟩
  by_contra hne
  exact hrevoked hne hnone

theorem LineageInv.revokeRows {db : Db} (h : LineageInv svc db) (held : Finset SessionId)
    (now : Instant) : LineageInv svc (db.revokeRows held now) := by
  have hback : ∀ a row, (db.revokeRows held now).sessions.get a = some row →
      ∃ old, db.sessions.get a = some old ∧ (row = old ∨ row = { old with revokedAt := some now }) := by
    intro a row hget
    rw [Db.get_revokeRows] at hget
    obtain ⟨old, hold, heq⟩ := Option.map_eq_some_iff.mp hget
    refine ⟨old, hold, ?_⟩
    by_cases ha : a ∈ held
    · rw [if_pos ha] at heq
      exact Or.inr heq.symm
    · rw [if_neg ha] at heq
      exact Or.inl heq.symm
  have hforth : ∀ b, ((db.revokeRows held now).sessions.get b).isSome =
      (db.sessions.get b).isSome := by
    intro b
    rw [Db.get_revokeRows, Option.isSome_map]
  have hkeys : (db.revokeRows held now).sessions.keys = db.sessions.keys := by
    ext b
    rw [Table.mem_keys_iff, Table.mem_keys_iff, hforth]
  constructor
  · intro a b s t ha hb heq
    obtain ⟨s₀, hs₀, hs⟩ := hback a s ha
    obtain ⟨t₀, ht₀, ht⟩ := hback b t hb
    refine h.digest a b s₀ t₀ hs₀ ht₀ ?_
    rcases hs with rfl | rfl
    · rcases ht with rfl | rfl
      · exact heq
      · exact heq
    · rcases ht with rfl | rfl
      · exact heq
      · exact heq
  · obtain ⟨rank, hrank⟩ := h.ranked
    refine ⟨rank, fun a s ha => ?_, fun a s b ha hnext => ?_⟩
    · obtain ⟨s₀, hs₀, _⟩ := hback a s ha
      rw [hkeys]
      exact hrank.below a s₀ hs₀
    · obtain ⟨s₀, hs₀, hs⟩ := hback a s ha
      rw [hforth]
      refine hrank.grows a s₀ b hs₀ ?_
      rcases hs with rfl | rfl
      · exact hnext
      · exact hnext
  · intro a s ha hreplaced
    obtain ⟨s₀, hs₀, hs⟩ := hback a s ha
    rcases hs with rfl | rfl
    · exact h.retired a s hs₀ hreplaced
    · simp
  · intro a s b secret ha hnext hsecret
    obtain ⟨s₀, hs₀, hs⟩ := hback a s ha
    have hold : ∃ t, db.sessions.get b = some t ∧
        t.refreshTokenHash = svc.hashRefreshToken secret := by
      rcases hs with rfl | rfl
      · exact h.envelope a s b secret hs₀ hnext hsecret
      · exact h.envelope a s₀ b secret hs₀ hnext hsecret
    obtain ⟨t, ht, hhash⟩ := hold
    refine ⟨_, by rw [Db.get_revokeRows, ht, Option.map_some], ?_⟩
    split
    · exact hhash
    · exact hhash
  · intro a s ha hnone
    obtain ⟨s₀, hs₀, hs⟩ := hback a s ha
    rcases hs with rfl | rfl
    · exact h.bare a s hs₀ hnone
    · exact h.bare a s₀ hs₀ hnone

/-- Rows that keep their replacement and their revocation keep the dead sessions closed. -/
theorem dead_kept {db db' : Db} {dead : Set SessionId}
    (hdead : ∀ a ∈ dead, ∃ row, db.sessions.get a = some row ∧ row.revokedAt ≠ none ∧
      ∀ b, row.replacedBy = some b → b ∈ dead)
    (hrows : ∀ a row, db.sessions.get a = some row →
      ∃ row', db'.sessions.get a = some row' ∧ (row.revokedAt ≠ none → row'.revokedAt ≠ none) ∧
        (row'.replacedBy = row.replacedBy ∨ row.Open)) :
    ∀ a ∈ dead, ∃ row, db'.sessions.get a = some row ∧ row.revokedAt ≠ none ∧
      ∀ b, row.replacedBy = some b → b ∈ dead := by
  intro a ha
  obtain ⟨row, hget, hrevoked, hnext⟩ := hdead a ha
  obtain ⟨row', hget', hkept, hsame⟩ := hrows a row hget
  refine ⟨row', hget', hkept hrevoked, fun b hb => ?_⟩
  rcases hsame with hsame | hopen
  · exact hnext b (hsame ▸ hb)
  · exact absurd hopen.1 hrevoked

theorem revokeRows_row {db : Db} (held : Finset SessionId) (now : Instant) {a : SessionId}
    {row : UserSession} (hget : db.sessions.get a = some row) :
    ∃ row', (db.revokeRows held now).sessions.get a = some row' ∧ row'.userId = row.userId ∧
      (row.revokedAt ≠ none → row'.revokedAt ≠ none) ∧ row'.replacedBy = row.replacedBy ∧
      (a ∈ held → row'.revokedAt ≠ none) := by
  refine ⟨_, by rw [Db.get_revokeRows, hget, Option.map_some], ?_⟩
  by_cases ha : a ∈ held
  · simp [ha]
  · simp [ha]

/-- A revocation that has reached every row of its inventory leaves none of them open. -/
theorem RevocationInv.revoked (h : RevocationInv svc s) {user : UserId} {seen : Set SessionId}
    {held : Finset SessionId} (hcovers : (revoking user seen ∅ held).Covers s.db)
    (now : Instant) : RevocationInv svc ⟨s.db.revokeRows held now, s.dead ∪ seen⟩ := by
  refine ⟨h.lineage.revokeRows held now, ?_, ?_⟩
  · intro a row b t ha hnext hb
    rw [Db.get_revokeRows] at ha hb
    obtain ⟨row₀, hrow₀, heq⟩ := Option.map_eq_some_iff.mp ha
    obtain ⟨t₀, ht₀, heqt⟩ := Option.map_eq_some_iff.mp hb
    have hrow : row.userId = row₀.userId ∧ row.replacedBy = row₀.replacedBy := by
      rw [← heq]
      split <;> exact ⟨rfl, rfl⟩
    have ht : t.userId = t₀.userId := by
      rw [← heqt]
      split <;> rfl
    rw [ht, hrow.1]
    exact h.sameUser a row₀ b t₀ hrow₀ (hrow.2 ▸ hnext) ht₀
  · intro a ha
    rcases ha with hdead | hseen
    · obtain ⟨row, hget, hrevoked, hnext⟩ := h.dead a hdead
      obtain ⟨row', hget', _, hkept, hsame, _⟩ := revokeRows_row held now hget
      exact ⟨row', hget', hkept hrevoked,
        fun b hb => Or.inl (hnext b (hsame ▸ hb))⟩
    · obtain ⟨row, hget, hnext, hleft⟩ := hcovers _ _ _ _ rfl a hseen
      obtain ⟨row', hget', _, hkept, hsame, hheld⟩ := revokeRows_row held now hget
      refine ⟨row', hget', ?_, fun b hb => Or.inr (hnext b (hsame ▸ hb))⟩
      by_cases hopen : row.revokedAt = none
      · rcases hleft hopen with hremaining | hmem
        · cases hremaining
        · exact hheld hmem
      · exact hkept hopen

theorem RevocationInv.served (h : RevocationInv svc s) {accounts : Table UserId User}
    {call : SessionCall} {answer : Option SessionTokens} {db' : Db}
    (hserve : svc.serve { s.db with users := accounts } call = some (answer, db')) :
    RevocationInv svc { s with db := { db' with users := s.db.users } } := by
  have hchange := serve_change hserve
  have hloaded : LineageInv svc { s.db with users := accounts } := h.lineage.change (.accounts _)
  refine ⟨(hloaded.change hchange).change (.accounts _), ?_, ?_⟩
  · have hsame : Db.SameUser { s.db with users := accounts } := h.sameUser
    have hchanged := hsame.change hloaded hchange
    exact hchanged
  · refine dead_kept h.dead fun a row hget => ?_
    obtain ⟨row', hget', _, hkept, hsame⟩ := hchange.get_row hget
    exact ⟨row', hget', hkept, hsame⟩

/-- No rotation and no replay answers to the token of a dead session. -/
theorem RevocationInv.rotateRefresh_notMem_dead (h : RevocationInv svc s)
    {accounts : Table UserId User} {token : Text} {fresh : Fresh} {now : Instant}
    {tokens : SessionTokens} {db' : Db}
    (hrotate : svc.rotateRefresh { s.db with users := accounts } token fresh now = .ok (tokens, db'))
    {b : SessionId} {row : UserSession}
    (hfind : s.db.findSession (svc.hashRefreshToken token) = some (b, row)) : b ∉ s.dead := by
  intro hb
  obtain ⟨row', hget, hrevoked, _⟩ := h.dead b hb
  have hrow := (Table.find_some hfind).1
  rw [hget, Option.some.injEq] at hrow
  subst hrow
  have hloaded : LineageInv svc { s.db with users := accounts } := h.lineage.change (.accounts accounts)
  obtain ⟨id, current, hfound, hcase⟩ := SessionService.rotateRefresh_ok hrotate
  have hsame : some (b, row') = some (id, current) := hfind.symm.trans hfound
  rw [Option.some.injEq, Prod.mk.injEq] at hsame
  obtain ⟨rfl, rfl⟩ := hsame
  rcases hcase with ⟨_, hreplay, _⟩ | ⟨hopen, _⟩
  · obtain ⟨_, _, tip, last, hreplayed⟩ := hloaded.stableReplay_some hget hreplay
    have hbelow : Relation.ReflTransGen s.db.ReplacedBy b tip := by
      rw [h.lineage.replacedBy_eq]
      exact hreplayed.below
    obtain ⟨last', hlast, hclosed⟩ := h.reached b hb tip hbelow
    have htip : s.db.sessions.get tip = some last := hreplayed.get
    rw [hlast, Option.some.injEq] at htip
    exact hclosed (htip ▸ hreplayed.isOpen.1)
  · exact hrevoked hopen.1

theorem RevocationInv.commit_notMem_dead (h : RevocationInv svc s) {m m' : SessionRequest}
    {s' : RevocationStore} {token : Text} {fresh : Fresh} {now : Instant} {tokens : SessionTokens}
    (hcommit : SessionCommit svc m s (.served (.rotate token fresh now) (some tokens)) m' s')
    {b : SessionId} {row : UserSession}
    (hfind : s.db.findSession (svc.hashRefreshToken token) = some (b, row)) : b ∉ s.dead := by
  cases hcommit with
  | served held accounts _ _ db' hserve hlocked =>
    cases hresult : svc.rotateRefresh { s.db with users := accounts } token fresh now with
    | error e =>
      have hserve := Option.some.inj hserve
      rw [hresult] at hserve
      cases hserve
    | ok result =>
      obtain ⟨tokens', db₁⟩ := result
      exact h.rotateRefresh_notMem_dead hresult hfind

end Invariant

section System

variable {svc : SessionService} {ι : Type*} {c : Config ι RevocationStore SessionRequest}

structure RevocationKept (svc : SessionService) (c : Config ι RevocationStore SessionRequest) :
    Prop where
  inv : RevocationInv svc c.store
  covers : ∀ i, (c.proc i).Covers c.store.db
  exclusive : ∀ i j, i ≠ j → ∀ id, (c.proc i).locks id → ¬ (c.proc j).locks id

/-- A call leaves the inventories of the revocations: a row that a revocation holds is not
locked by the call, and one that it has to reach is not rotated. -/
theorem covers_served (h : RevocationKept svc c) {i j : ι} {held : Finset SessionId}
    {accounts : Table UserId User} {call : SessionCall} {answer : Option SessionTokens} {db' : Db}
    (hproc : c.proc i = walking held accounts)
    (hserve : svc.serve { c.store.db with users := accounts } call = some (answer, db'))
    (hlocked : ∀ id row, c.store.db.sessions.get id = some row →
      db'.sessions.get id ≠ some row → id ∈ held)
    (hreached : RotatesReached svc c (i, some (.served call answer))) :
    (c.proc j).Covers db' := by
  have hchange := serve_change hserve
  refine (h.covers j).change (fun a row hget => ?_) fun user seen remaining heldByRevocation a row row'
    heq hleft hget hget' => ?_
  · obtain ⟨row', hget', _, hkept, hsame⟩ := hchange.get_row hget
    exact ⟨row', hget', hkept, hsame⟩
  · by_contra hne
    obtain ⟨token, fresh, now, tokens, rfl, rfl, hfind⟩ := serve_replaces hserve hget hget' hne
    rcases hleft with hremaining | hheld
    · have hopen : row.Open := by
        obtain ⟨row'', hget'', _, _, hsame⟩ := hchange.get_row hget
        rw [hget', Option.some.injEq] at hget''
        rcases hsame with hsame | hopen
        · exact absurd (hget'' ▸ hsame) hne
        · exact hopen
      exact hreached a row hfind hopen j user seen remaining heldByRevocation heq hremaining
    · have hrewritten : a ∈ held := by
        refine hlocked a row hget fun hsame => ?_
        rw [hsame, Option.some.injEq] at hget'
        exact hne (by rw [hget'])
      have hji : j ≠ i := by
        rintro rfl
        rw [hproc] at heq
        cases heq
      refine h.exclusive j i hji a ?_ ?_
      · rw [heq]
        exact hheld
      · rw [hproc]
        exact hrewritten

variable [DecidableEq ι]

theorem revocationKept_step {m : Move ι RevocationEvent}
    {c' : Config ι RevocationStore SessionRequest} (h : RevocationKept svc c)
    (hstep : (revocationSystem svc ι).step c m c') (hreached : RotatesReached svc c m) :
    RevocationKept svc c' := by
  have hidle (db : Db) : SessionRequest.idle.Covers db := fun _ _ _ _ heq => (by cases heq)
  cases hstep with
  | read i m hread hfree =>
    refine ⟨h.inv, fun j => ?_, Protocol.exclusive_update (P := revocationProtocol svc)
      h.exclusive hfree⟩
    by_cases hj : j = i
    · subst hj
      dsimp only
      rw [Function.update_self]
      exact covers_read h.inv (h.covers j) hread
    · dsimp only
      rw [Function.update_of_ne hj]
      exact h.covers j
  | commit i ev m s' hcommit hfree =>
    have hexclusive := Protocol.exclusive_update (P := revocationProtocol svc) h.exclusive hfree
    have hcommit : SessionCommit svc (c.proc i) c.store ev m s' := hcommit
    generalize hproc : c.proc i = before at hcommit
    cases hcommit with
    | served held accounts call answer db' hserve hlocked =>
      refine ⟨h.inv.served hserve, fun j => ?_, hexclusive⟩
      by_cases hj : j = i
      · subst hj
        dsimp only
        rw [Function.update_self]
        exact hidle _
      · dsimp only
        rw [Function.update_of_ne hj]
        have hcovers := covers_served (j := j) h hproc hserve hlocked hreached
        exact hcovers
    | elsewhere db' hsessions =>
      refine ⟨h.inv.of_sessions hsessions rfl, fun j => ?_, hexclusive⟩
      by_cases hj : j = i
      · subst hj
        dsimp only
        rw [Function.update_self]
        exact hidle _
      · dsimp only
        rw [Function.update_of_ne hj]
        exact (h.covers j).of_sessions hsessions
    | revoked user seen held now db' hsessions =>
      have hcovers := h.covers i
      rw [hproc] at hcovers
      have hinv : RevocationInv svc ⟨db', c.store.dead ∪ seen⟩ :=
        (h.inv.revoked hcovers now).of_sessions hsessions rfl
      refine ⟨hinv, fun j => ?_, hexclusive⟩
      by_cases hj : j = i
      · subst hj
        dsimp only
        rw [Function.update_self]
        exact hidle _
      · dsimp only
        rw [Function.update_of_ne hj]
        suffices hcovers : (c.proc j).Covers (c.store.db.revokeRows held now) from
          hcovers.of_sessions hsessions
        refine (h.covers j).change (fun a row hget => ?_) fun _ _ _ _ a row row' _ _ hget hget' => ?_
        · obtain ⟨row', hget', _, hkept, hsame, _⟩ := revokeRows_row held now hget
          exact ⟨row', hget', hkept, Or.inl hsame⟩
        · obtain ⟨row'', hget'', _, _, hsame, _⟩ := revokeRows_row held now hget
          rw [hget', Option.some.injEq] at hget''
          rw [hget'', hsame]

theorem revocationKept_reach
    (hc : ((revocationSystem svc ι).guarded (RotatesReached svc)).Reach c) :
    RevocationKept svc c := by
  induction hc with
  | @init c hinit =>
    obtain ⟨⟨hempty, hdead⟩, hstart⟩ := hinit
    have hidle : ∀ i, c.proc i = idle := hstart
    have hnone : ∀ a, c.store.db.sessions.get a = none := by
      intro a
      rw [hempty, Table.get_empty]
    refine ⟨⟨(lineageInv_inductive svc).init _ hempty, ?_, ?_⟩, fun i => ?_, fun i j _ id hlock => ?_⟩
    · intro a s b t ha
      rw [hnone] at ha
      cases ha
    · intro a ha
      rw [hdead] at ha
      cases ha
    · rw [hidle i]
      exact fun _ _ _ _ heq => (by cases heq)
    · rw [hidle i] at hlock
      exact hlock.elim
  | step _ hstep ih => exact revocationKept_step ih hstep.1 hstep.2

/-- In every run whose rotations commit after the revocations under way have reached their
rows, a committed revocation has reached every descendant of the sessions that were there
when it started, and no rotation and no replay answers to one of their tokens. -/
theorem revocation_reaches_descendants
    (hc : ((revocationSystem svc ι).guarded (RotatesReached svc)).Reach c) :
    c.store.Reached ∧ ∀ i token fresh now tokens c',
      (revocationSystem svc ι).step c
        (i, some (.served (.rotate token fresh now) (some tokens))) c' →
      ∀ a ∈ c.store.dead, ∀ b row,
        c.store.db.findSession (svc.hashRefreshToken token) = some (b, row) →
        ¬ Relation.ReflTransGen c.store.db.ReplacedBy a b := by
  have hkept := revocationKept_reach hc
  refine ⟨hkept.inv.reached, ?_⟩
  intro i token fresh now tokens c' hstep a ha b row hfind hab
  cases hstep with
  | commit _ _ m s' hcommit hfree =>
    have hcommit : SessionCommit svc (c.proc i) c.store
      (.served (.rotate token fresh now) (some tokens)) m s' := hcommit
    exact hkept.inv.commit_notMem_dead hcommit hfind (hkept.inv.dead_descends ha hab)

end System

section Example

/-- Tokens and passwords stand for their own digests, and there is no grace window. -/
def plainSessions : SessionService where
  hashRefreshToken := id
  verifyPassword p h := p = h
  refreshTtl := 1000
  grace := 0
  replayCrypt := none
  crypt_of_grace h := absurd h (lt_irrefl 0)

def holder : User := ⟨['s'], some ['p'], ['s'], none, none, none, .student, .active⟩

def held : Db := { Db.empty with users := Table.empty.put 1 holder }

def signedIn : Db := held.putSession 1 (plainSessions.freshRow 1 ⟨1, ['r'], 0⟩ 0)

def rotatedOnce : Db :=
  (signedIn.putSession 2 (plainSessions.freshRow 1 ⟨2, ['t'], 0⟩ 5)).putSession 1
    (plainSessions.retire (plainSessions.freshRow 1 ⟨1, ['r'], 0⟩ 0) ⟨2, ['t'], 0⟩ 5)

theorem signedIn_row {id : SessionId} {row : UserSession} (h : signedIn.sessions.get id = some row) :
    id = 1 ∧ row = plainSessions.freshRow 1 ⟨1, ['r'], 0⟩ 0 := by
  rcases Table.get_put_eq_some h with hnew | ⟨_, hold⟩
  · exact hnew
  · change Table.empty.get id = some row at hold
    rw [Table.get_empty] at hold
    cases hold

theorem signedIn_calledFor : 1 ∈ signedIn.calledFor 1 none :=
  ⟨by decide, fun _ hk => (by cases hk)⟩

/-- The first login of all. -/
theorem serve_issue_empty {db : Db} (hempty : db.sessions = .empty) (userId : UserId) (user : User)
    (fresh : Fresh) (now : Instant) : plainSessions.serve db (.issue userId user fresh now) =
      some (some ⟨⟨userId, fresh.sessionId, user.role, now⟩, fresh.secret, user.role⟩,
        db.putSession fresh.sessionId (plainSessions.freshRow userId fresh now)) := by
  have hid : db.sessions.get fresh.sessionId = none := by rw [hempty, Table.get_empty]
  have hdigest : db.findSession (plainSessions.hashRefreshToken fresh.secret) = none := by
    refine Table.find_eq_none fun id row h => ?_
    rw [hempty, Table.get_empty] at h
    cases h
  have hissue : plainSessions.issueSession db userId user fresh now =
      .ok (⟨⟨userId, fresh.sessionId, user.role, now⟩, fresh.secret, user.role⟩,
        db.putSession fresh.sessionId (plainSessions.freshRow userId fresh now)) := by
    unfold SessionService.issueSession
    exact ensure_true_bind ⟨hid, hdigest⟩ _ _
  change some (answered db _) = _
  rw [hissue]
  rfl

theorem serve_rotate : plainSessions.serve signedIn (.rotate ['r'] ⟨2, ['t'], 0⟩ 5) =
    some (some ⟨⟨1, 2, .student, 5⟩, ['t'], .student⟩, rotatedOnce) := by
  have hfind : signedIn.findSession ['r'] =
      some (1, plainSessions.freshRow 1 ⟨1, ['r'], 0⟩ 0) :=
    Table.find_eq rfl rfl fun id row h _ => (signedIn_row h).1
  have hdigest : signedIn.findSession ['t'] = none := by
    refine Table.find_eq_none fun id row h => ?_
    rw [(signedIn_row h).2]
    decide
  have hissue : plainSessions.issueSession signedIn 1 holder ⟨2, ['t'], 0⟩ 5 =
      .ok (⟨⟨1, 2, .student, 5⟩, ['t'], .student⟩,
        signedIn.putSession 2 (plainSessions.freshRow 1 ⟨2, ['t'], 0⟩ 5)) := by
    unfold SessionService.issueSession
    exact ensure_true_bind ⟨rfl, hdigest⟩ _ _
  have hrotate : plainSessions.rotateRefresh signedIn ['r'] ⟨2, ['t'], 0⟩ 5 =
      .ok (⟨⟨1, 2, .student, 5⟩, ['t'], .student⟩, rotatedOnce) := by
    unfold SessionService.rotateRefresh
    change (orRefuse _ (signedIn.findSession ['r']) >>= _) = _
    rw [hfind, orRefuse_some_bind]
    dsimp only
    rw [ensure_true_bind (by decide), if_neg (by decide)]
    change (orRefuse _ (some holder) >>= _) = _
    rw [orRefuse_some_bind, ensure_true_bind (by decide)]
    change (plainSessions.issueSession signedIn 1 holder ⟨2, ['t'], 0⟩ 5 >>= _) = _
    rw [hissue]
    rfl
  change some (answered signedIn _) = _
  rw [hrotate]
  rfl

variable {G : Config Bool RevocationStore SessionRequest → Move Bool RevocationEvent → Prop}

/-- The left request opens the session, and the right one starts to revoke all sessions. -/
theorem revoking_reaches (hread : ∀ c i, G c (i, none))
    (hissue : ∀ c tokens, G c (false, some (.served (.issue 1 holder ⟨1, ['r'], 0⟩ 0) tokens))) :
    (revocationProtocol plainSessions).Reaches RevocationStore.Initial G ⟨signedIn, ∅⟩ idle
      (revoking 1 (signedIn.calledFor 1 none) {1} ∅) := by
  have hinitial : RevocationStore.Initial ⟨held, ∅⟩ := ⟨rfl, rfl⟩
  have hstart := Protocol.reaches_start (P := revocationProtocol plainSessions) (G := G)
    hinitial (m := idle) (n := idle) rfl rfl
  have hbegun := hstart.read_left .begin (fun _ h => absurd h (Finset.notMem_empty _)) (hread _ _)
  have hopened := hbegun.commit_left
    (.served ∅ held.users (.issue 1 holder ⟨1, ['r'], 0⟩ 0) _ signedIn
      (serve_issue_empty rfl 1 holder ⟨1, ['r'], 0⟩ 0) fun id row h => (by cases h)) (fun _ h => h.elim) (hissue _ _)
  exact hopened.read_right (.snapshot 1 none) (fun _ h => absurd h (Finset.notMem_empty _)) (hread _ _)

/-- The rotation holds the row when the revocation starts: the revocation finds the row
revoked and never sees its successor, which stays open. -/
theorem successor_survives_revocation : ¬ ∀ c : Config Bool RevocationStore SessionRequest,
    (revocationSystem plainSessions Bool).Reach c → c.store.Reached := by
  intro hall
  have hseen := revoking_reaches (G := fun _ _ => True) (fun _ _ => trivial) fun _ _ => trivial
  have hbegun := hseen.read_left .begin (fun _ h => absurd h (Finset.notMem_empty _)) trivial
  have hlocked := hbegun.read_left (.lock ∅ _ 1) (fun _ _ h => absurd h (Finset.notMem_empty _))
    trivial
  have hrotated := hlocked.commit_left
    (.served _ _ (.rotate ['r'] ⟨2, ['t'], 0⟩ 5) _ rotatedOnce serve_rotate fun id row h _ => by
      rw [(signedIn_row h).1]
      exact Finset.mem_insert_self _ _) (fun _ h => h.elim) trivial
  have hskipped := hrotated.read_right (.skip 1 _ {1} ∅ 1 _ (Finset.mem_singleton_self _) rfl
    (by decide)) (fun _ h => absurd h (Finset.notMem_empty _)) trivial
  have hrevoked := hskipped.commit_right (.revoked 1 _ ∅ 6 _ rfl) (fun _ h => h.elim) trivial
  have hreached := hall _ (System.Reach.of_guarded hrevoked) 1 (Or.inr signedIn_calledFor) 2
    (.single ⟨_, rfl, rfl⟩)
  obtain ⟨row, hrow, hclosed⟩ := hreached
  have hopen : row = plainSessions.freshRow 1 ⟨2, ['t'], 0⟩ 5 := (Option.some.inj hrow).symm
  exact hclosed (by rw [hopen]; rfl)

/-- Without a rotation in between the revocation reaches the session of the login. -/
theorem login_session_reached :
    RevocationStore.Reached ⟨signedIn.revokeRows {1} 6, ∅ ∪ signedIn.calledFor 1 none⟩ := by
  have hseen := revoking_reaches (G := RotatesReached plainSessions) (fun _ _ => trivial)
    fun _ _ => trivial
  have hupdated := hseen.read_right (.update 1 _ {1} ∅ 1 _ (Finset.mem_singleton_self _) rfl rfl)
    (fun _ _ h => h.elim) trivial
  have hrevoked := hupdated.commit_right (.revoked 1 _ _ 6 _ rfl) (fun _ h => h.elim) trivial
  exact (revocation_reaches_descendants hrevoked).1

end Example

end CampusQuest.Identity
