import CampusQuest.Runs
import CampusQuest.SessionService

/-!
The lineages of refresh sessions. Every session has at most one successor, and a rank that
grows along replacements bounds the walk to the tip; a retired row is revoked, and its
envelope opens to its successor's secret. So a lineage has one live generation at most, a
replay finds it or refuses, and a logout with any generation's token ends the lineage.
-/

namespace CampusQuest.Identity

open Generations Guards Runs Tables

def UserSession.Open (s : UserSession) : Prop := s.revokedAt = none ∧ s.replacedBy = none

namespace SessionService

variable {svc : SessionService} {db db' : Db} {userId : UserId} {user : User} {fresh : Fresh}
  {now : Instant} {tokens : SessionTokens}

def freshRow (svc : SessionService) (userId : UserId) (fresh : Fresh) (now : Instant) :
    UserSession :=
  ⟨userId, svc.hashRefreshToken fresh.secret, now + svc.refreshTtl, none, none, none, none⟩

theorem issueSession_ok (h : svc.issueSession db userId user fresh now = .ok (tokens, db')) :
    db.sessions.get fresh.sessionId = none ∧
      db.findSession (svc.hashRefreshToken fresh.secret) = none ∧
      tokens = ⟨⟨userId, fresh.sessionId, user.role, now⟩, fresh.secret, user.role⟩ ∧
      db' = db.putSession fresh.sessionId (svc.freshRow userId fresh now) := by
  unfold issueSession at h
  obtain ⟨⟨hid, hdigest⟩, hrest⟩ := ensure_bind_ok.mp h
  rw [Except.ok.injEq, Prod.mk.injEq] at hrest
  exact ⟨hid, hdigest, hrest.1.symm, hrest.2.symm⟩

theorem loginStudent_ok {username password : Text} {locked : Bool}
    (h : svc.loginStudent db username password locked fresh now = .ok (tokens, db')) :
    ∃ userId user, svc.issueSession db userId user fresh now = .ok (tokens, db') := by
  unfold loginStudent at h
  obtain ⟨⟨userId, user⟩, _, h⟩ := orRefuse_bind_ok.mp h
  obtain ⟨_, h⟩ := ensure_bind_ok.mp h
  obtain ⟨_, h⟩ := ensure_bind_ok.mp h
  obtain ⟨_, h⟩ := ensure_bind_ok.mp h
  obtain ⟨_, h⟩ := ensure_bind_ok.mp h
  exact ⟨userId, user, h⟩

/-- A rotation that answers has replayed a retired row or retired a live one. -/
theorem rotateRefresh_ok {token : Text}
    (h : svc.rotateRefresh db token fresh now = .ok (tokens, db')) :
    ∃ id current, db.findSession (svc.hashRefreshToken token) = some (id, current) ∧
      ((¬ current.Open ∧ svc.stableReplay db current now = some tokens ∧ db' = db) ∨
        (current.Open ∧ db.sessions.get fresh.sessionId = none ∧
          db.findSession (svc.hashRefreshToken fresh.secret) = none ∧
          db' = (db.putSession fresh.sessionId
            (svc.freshRow current.userId fresh now)).putSession id
              (svc.retire current fresh now))) := by
  unfold rotateRefresh at h
  obtain ⟨⟨id, current⟩, hfind, h⟩ := orRefuse_bind_ok.mp h
  obtain ⟨_, h⟩ := ensure_bind_ok.mp h
  refine ⟨id, current, hfind, ?_⟩
  by_cases hretired : current.revokedAt ≠ none ∨ current.replacedBy ≠ none
  · left
    rw [if_pos hretired] at h
    obtain ⟨replayed, hreplay, h⟩ := orRefuse_bind_ok.mp h
    rw [Except.ok.injEq, Prod.mk.injEq] at h
    refine ⟨?_, h.1 ▸ hreplay, h.2.symm⟩
    rintro ⟨hrevoked, hreplaced⟩
    rcases hretired with hne | hne
    · exact hne hrevoked
    · exact hne hreplaced
  · right
    rw [if_neg hretired] at h
    obtain ⟨user, _, h⟩ := orRefuse_bind_ok.mp h
    obtain ⟨_, h⟩ := ensure_bind_ok.mp h
    obtain ⟨⟨issuedTokens, issued⟩, hissue, h⟩ := bind_ok.mp h
    obtain ⟨hid, hdigest, _, rfl⟩ := issueSession_ok hissue
    rw [Except.ok.injEq, Prod.mk.injEq] at h
    simp only [not_or, not_not] at hretired
    exact ⟨hretired, hid, hdigest, h.2.symm⟩

theorem revokeSession_some {token : Text} (h : svc.revokeSession db token now = some db') :
    db' = db ∨ ∃ id s tip row, db.findSession (svc.hashRefreshToken token) = some (id, s) ∧
      tipOf db id = some tip ∧ db.sessions.get tip = some row ∧ row.revokedAt = none ∧
      db' = db.putSession tip { row with revokedAt := some now } := by
  unfold revokeSession at h
  cases hfind : db.findSession (svc.hashRefreshToken token) with
  | none =>
    simp only [hfind, Option.some.injEq] at h
    exact Or.inl h.symm
  | some found =>
    obtain ⟨id, s⟩ := found
    simp only [hfind] at h
    obtain ⟨tip, htip, h⟩ := Option.bind_eq_some_iff.mp h
    obtain ⟨row, hrow, h⟩ := Option.bind_eq_some_iff.mp h
    by_cases hopen : row.revokedAt = none
    · rw [if_pos hopen, Option.some.injEq] at h
      exact Or.inr ⟨id, s, tip, row, rfl, htip, hrow, hopen, h.symm⟩
    · rw [if_neg hopen, Option.some.injEq] at h
      exact Or.inl h.symm

end SessionService

section System

/-- One call of the session service. `issue` stands for the login doors of the other
services, and `accounts` for whatever they write to the account rows. -/
inductive SessionCall
  | login (username password : Text) (locked : Bool) (fresh : Fresh) (now : Instant)
  | issue (userId : UserId) (user : User) (fresh : Fresh) (now : Instant)
  | rotate (token : Text) (fresh : Fresh) (now : Instant)
  | logout (token : Text) (now : Instant)
  | accounts (users : Table UserId User)

/-- A refused call answers nothing and its transaction is rolled back. -/
def answered (db : Db) : Except IdentityError (SessionTokens × Db) → Option SessionTokens × Db
  | .ok (tokens, db') => (some tokens, db')
  | .error _ => (none, db)

def SessionService.serve (svc : SessionService) (db : Db) :
    SessionCall → Option (Option SessionTokens × Db)
  | .login username password locked fresh now =>
    some (answered db (svc.loginStudent db username password locked fresh now))
  | .issue userId user fresh now => some (answered db (svc.issueSession db userId user fresh now))
  | .rotate token fresh now => some (answered db (svc.rotateRefresh db token fresh now))
  | .logout token now => (svc.revokeSession db token now).map fun db' => (none, db')
  | .accounts users => some (none, { db with users := users })

/-- Calls one after another: each is one transaction under the locks of its rows. -/
def sessionSystem (svc : SessionService) : System Db (SessionCall × Option SessionTokens) where
  init db := db.sessions = .empty
  step db label db' := svc.serve db label.1 = some (label.2, db')

inductive SessionChange (svc : SessionService) (db : Db) : Db → Prop
  | accounts (users : Table UserId User) : SessionChange svc db { db with users := users }
  | opened (userId : UserId) (fresh : Fresh) (now : Instant)
      (hid : db.sessions.get fresh.sessionId = none)
      (hdigest : db.findSession (svc.hashRefreshToken fresh.secret) = none) :
      SessionChange svc db (db.putSession fresh.sessionId (svc.freshRow userId fresh now))
  | rotated (id : SessionId) (current : UserSession) (fresh : Fresh) (now : Instant)
      (hget : db.sessions.get id = some current) (hopen : current.Open)
      (hid : db.sessions.get fresh.sessionId = none)
      (hdigest : db.findSession (svc.hashRefreshToken fresh.secret) = none) :
      SessionChange svc db ((db.putSession fresh.sessionId
        (svc.freshRow current.userId fresh now)).putSession id (svc.retire current fresh now))
  | closed (tip : SessionId) (row : UserSession) (now : Instant)
      (hget : db.sessions.get tip = some row) (hrevoked : row.revokedAt = none)
      (htip : Tip db.nextSession tip) :
      SessionChange svc db (db.putSession tip { row with revokedAt := some now })

variable {svc : SessionService} {db db' : Db}

theorem SessionChange.refl : SessionChange svc db db := .accounts db.users

theorem issueSession_change {userId : UserId} {user : User} {fresh : Fresh} {now : Instant}
    {tokens : SessionTokens} (h : svc.issueSession db userId user fresh now = .ok (tokens, db')) :
    SessionChange svc db db' := by
  obtain ⟨hid, hdigest, _, rfl⟩ := SessionService.issueSession_ok h
  exact .opened userId fresh now hid hdigest

theorem rotateRefresh_change {token : Text} {fresh : Fresh} {now : Instant}
    {tokens : SessionTokens} (h : svc.rotateRefresh db token fresh now = .ok (tokens, db')) :
    SessionChange svc db db' := by
  obtain ⟨id, current, hfind, ⟨_, _, rfl⟩ | ⟨hopen, hid, hdigest, rfl⟩⟩ :=
    SessionService.rotateRefresh_ok h
  · exact .refl
  · exact .rotated id current fresh now (Table.find_some hfind).1 hopen hid hdigest

theorem revokeSession_change {token : Text} {now : Instant}
    (h : svc.revokeSession db token now = some db') : SessionChange svc db db' := by
  rcases SessionService.revokeSession_some h with
    rfl | ⟨id, s, tip, row, _, htip, hrow, hrevoked, rfl⟩
  · exact .refl
  · exact .closed tip row now hrow hrevoked (follow_some htip).2

theorem answered_change {r : Except IdentityError (SessionTokens × Db)}
    (hr : ∀ tokens db', r = .ok (tokens, db') → SessionChange svc db db') :
    SessionChange svc db (answered db r).2 := by
  cases hres : r with
  | error e => exact .refl
  | ok result =>
    obtain ⟨tokens, db'⟩ := result
    exact hr tokens db' hres

theorem serve_change {call : SessionCall} {answer : Option SessionTokens}
    (h : svc.serve db call = some (answer, db')) : SessionChange svc db db' := by
  have hsnd {r : Option SessionTokens × Db} (hr : some r = some (answer, db')) : db' = r.2 := by
    rw [Option.some.inj hr]
  cases call with
  | login username password locked fresh now =>
    rw [hsnd h]
    refine answered_change fun tokens db' hok => ?_
    obtain ⟨userId, user, hissue⟩ := SessionService.loginStudent_ok hok
    exact issueSession_change hissue
  | issue userId user fresh now =>
    rw [hsnd h]
    exact answered_change fun tokens db' hok => issueSession_change hok
  | rotate token fresh now =>
    rw [hsnd h]
    exact answered_change fun tokens db' hok => rotateRefresh_change hok
  | logout token now =>
    obtain ⟨db₁, hrevoke, heq⟩ := Option.map_eq_some_iff.mp h
    rw [Prod.mk.injEq] at heq
    rw [← heq.2]
    exact revokeSession_change hrevoke
  | accounts users =>
    rw [hsnd h]
    exact .accounts users

end System

section Invariant

variable {svc : SessionService} {db db' : Db}

/-- A rank below the number of rows that grows along replacements, which lead to rows. -/
structure Ranked (db : Db) (rank : SessionId → ℕ) : Prop where
  below : ∀ a s, db.sessions.get a = some s → rank a < db.sessions.keys.card
  grows : ∀ a s b, db.sessions.get a = some s → s.replacedBy = some b →
    (db.sessions.get b).isSome ∧ rank a < rank b

structure LineageInv (svc : SessionService) (db : Db) : Prop where
  digest : ∀ a b s t, db.sessions.get a = some s → db.sessions.get b = some t →
    s.refreshTokenHash = t.refreshTokenHash → a = b
  ranked : ∃ rank, Ranked db rank
  retired : ∀ a s, db.sessions.get a = some s → s.replacedBy ≠ none → s.revokedAt ≠ none
  envelope : ∀ a s b secret, db.sessions.get a = some s → s.replacedBy = some b →
    svc.decryptEnvelope s = some secret →
    ∃ t, db.sessions.get b = some t ∧ t.refreshTokenHash = svc.hashRefreshToken secret
  bare : ∀ a s, db.sessions.get a = some s → s.replacedBy = none → s.replayEnvelope = none

theorem putSession_get (a b : SessionId) (s : UserSession) :
    (db.putSession a s).sessions.get b = if b = a then some s else db.sessions.get b :=
  Table.get_put _ a b s

theorem Ranked.insert {rank : SessionId → ℕ} (h : Ranked db rank) {id : SessionId}
    {row : UserSession} (hid : db.sessions.get id = none) (hrow : row.replacedBy = none) :
    Ranked (db.putSession id row) (Function.update rank id db.sessions.keys.card) := by
  have hcard : (db.putSession id row).sessions.keys.card = db.sessions.keys.card + 1 :=
    Table.card_put_fresh row hid
  constructor
  · intro a s hget
    rw [hcard]
    by_cases ha : a = id
    · subst ha
      simp
    · rw [putSession_get, if_neg ha] at hget
      rw [Function.update_of_ne ha]
      have hbelow := h.below a s hget
      omega
  · intro a s b hget hnext
    by_cases ha : a = id
    · subst ha
      rw [putSession_get, if_pos rfl, Option.some.injEq] at hget
      subst hget
      rw [hrow] at hnext
      cases hnext
    · rw [putSession_get, if_neg ha] at hget
      obtain ⟨hb, hlt⟩ := h.grows a s b hget hnext
      have hne : b ≠ id := by
        rintro rfl
        simp [hid] at hb
      rw [putSession_get, if_neg hne, Function.update_of_ne ha, Function.update_of_ne hne]
      exact ⟨hb, hlt⟩

/-- Rewriting a row keeps the ranks when its successor is an old one or ranks above it. -/
theorem Ranked.rewrite {rank : SessionId → ℕ} (h : Ranked db rank) {id : SessionId}
    {old row : UserSession} (hget : db.sessions.get id = some old)
    (hrow : ∀ b, row.replacedBy = some b →
      old.replacedBy = some b ∨ ((db.sessions.get b).isSome ∧ rank id < rank b)) :
    Ranked (db.putSession id row) rank := by
  have hcard : (db.putSession id row).sessions.keys.card = db.sessions.keys.card :=
    Table.card_put_replace row hget
  have hkeep : ∀ b, (db.sessions.get b).isSome →
      ((db.putSession id row).sessions.get b).isSome := by
    intro b hb
    rw [putSession_get]
    split
    · rfl
    · exact hb
  constructor
  · intro a s ha
    rw [hcard]
    by_cases hne : a = id
    · subst hne
      exact h.below a old hget
    · rw [putSession_get, if_neg hne] at ha
      exact h.below a s ha
  · intro a s b ha hnext
    have hgrows : (db.sessions.get b).isSome ∧ rank a < rank b := by
      by_cases hne : a = id
      · subst hne
        rw [putSession_get, if_pos rfl, Option.some.injEq] at ha
        subst ha
        rcases hrow b hnext with hold | hnew
        · exact h.grows a old b hget hold
        · exact hnew
      · rw [putSession_get, if_neg hne] at ha
        exact h.grows a s b ha hnext
    exact ⟨hkeep b hgrows.1, hgrows.2⟩

/-- A fresh row without a successor keeps the invariant. -/
theorem LineageInv.insert (h : LineageInv svc db) {id : SessionId} {row : UserSession}
    (hid : db.sessions.get id = none) (hrow : row.replacedBy = none)
    (hbare : row.replayEnvelope = none)
    (hdigest : db.findSession row.refreshTokenHash = none) :
    LineageInv svc (db.putSession id row) := by
  have hunused : ∀ a s, db.sessions.get a = some s → s.refreshTokenHash ≠ row.refreshTokenHash :=
    fun a s ha => Table.find_none hdigest ha
  constructor
  · intro a b s t ha hb heq
    rw [putSession_get] at ha hb
    by_cases hane : a = id
    · by_cases hbne : b = id
      · rw [hane, hbne]
      · rw [if_pos hane, Option.some.injEq] at ha
        rw [if_neg hbne] at hb
        exact absurd (heq ▸ ha ▸ rfl) (hunused b t hb)
    · rw [if_neg hane] at ha
      by_cases hbne : b = id
      · rw [if_pos hbne, Option.some.injEq] at hb
        exact absurd (heq.trans (hb ▸ rfl)) (hunused a s ha)
      · rw [if_neg hbne] at hb
        exact h.digest a b s t ha hb heq
  · obtain ⟨rank, hrank⟩ := h.ranked
    exact ⟨_, hrank.insert hid hrow⟩
  · intro a s ha hreplaced
    rw [putSession_get] at ha
    by_cases hne : a = id
    · rw [if_pos hne, Option.some.injEq] at ha
      subst ha
      exact absurd hrow hreplaced
    · rw [if_neg hne] at ha
      exact h.retired a s ha hreplaced
  · intro a s b secret ha hnext hsecret
    rw [putSession_get] at ha
    by_cases hne : a = id
    · rw [if_pos hne, Option.some.injEq] at ha
      subst ha
      rw [hrow] at hnext
      cases hnext
    · rw [if_neg hne] at ha
      obtain ⟨t, ht, hhash⟩ := h.envelope a s b secret ha hnext hsecret
      refine ⟨t, ?_, hhash⟩
      have hbne : b ≠ id := by
        rintro rfl
        simp [hid] at ht
      rw [putSession_get, if_neg hbne]
      exact ht
  · intro a s ha hopen
    rw [putSession_get] at ha
    by_cases hne : a = id
    · rw [if_pos hne, Option.some.injEq] at ha
      rw [← ha]
      exact hbare
    · rw [if_neg hne] at ha
      exact h.bare a s ha hopen

/-- Rewriting a row under its digest keeps the invariant when the new row is retired
properly. -/
theorem LineageInv.rewrite {rank : SessionId → ℕ} (h : LineageInv svc db)
    (hrank : Ranked db rank) {id : SessionId} {old row : UserSession}
    (hget : db.sessions.get id = some old) (hhash : row.refreshTokenHash = old.refreshTokenHash)
    (hrow : ∀ b, row.replacedBy = some b →
      old.replacedBy = some b ∨ ((db.sessions.get b).isSome ∧ rank id < rank b))
    (hrevoked : row.replacedBy ≠ none → row.revokedAt ≠ none)
    (henvelope : ∀ b secret, row.replacedBy = some b → svc.decryptEnvelope row = some secret →
      ∃ t, db.sessions.get b = some t ∧ t.refreshTokenHash = svc.hashRefreshToken secret)
    (hbare : row.replacedBy = none → row.replayEnvelope = none) :
    LineageInv svc (db.putSession id row) := by
  have hback : ∀ a s, (db.putSession id row).sessions.get a = some s →
      ∃ s₀, db.sessions.get a = some s₀ ∧ s.refreshTokenHash = s₀.refreshTokenHash := by
    intro a s ha
    rw [putSession_get] at ha
    by_cases hne : a = id
    · subst hne
      rw [if_pos rfl, Option.some.injEq] at ha
      subst ha
      exact ⟨old, hget, hhash⟩
    · rw [if_neg hne] at ha
      exact ⟨s, ha, rfl⟩
  have hforth : ∀ b t secret, db.sessions.get b = some t →
      t.refreshTokenHash = svc.hashRefreshToken secret →
      ∃ t, (db.putSession id row).sessions.get b = some t ∧
        t.refreshTokenHash = svc.hashRefreshToken secret := by
    intro b t secret hb ht
    by_cases hne : b = id
    · subst hne
      rw [hget, Option.some.injEq] at hb
      subst hb
      exact ⟨row, by rw [putSession_get, if_pos rfl], hhash.trans ht⟩
    · exact ⟨t, by rw [putSession_get, if_neg hne, hb], ht⟩
  constructor
  · intro a b s t ha hb heq
    obtain ⟨s₀, hs₀, hs⟩ := hback a s ha
    obtain ⟨t₀, ht₀, ht⟩ := hback b t hb
    exact h.digest a b s₀ t₀ hs₀ ht₀ (hs.symm.trans (heq.trans ht))
  · exact ⟨rank, hrank.rewrite hget hrow⟩
  · intro a s ha hreplaced
    rw [putSession_get] at ha
    by_cases hne : a = id
    · rw [if_pos hne, Option.some.injEq] at ha
      subst ha
      exact hrevoked hreplaced
    · rw [if_neg hne] at ha
      exact h.retired a s ha hreplaced
  · intro a s b secret ha hnext hsecret
    rw [putSession_get] at ha
    by_cases hne : a = id
    · rw [if_pos hne, Option.some.injEq] at ha
      subst ha
      obtain ⟨t, ht, hsecret⟩ := henvelope b secret hnext hsecret
      exact hforth b t secret ht hsecret
    · rw [if_neg hne] at ha
      obtain ⟨t, ht, hsecret⟩ := h.envelope a s b secret ha hnext hsecret
      exact hforth b t secret ht hsecret
  · intro a s ha hopen
    rw [putSession_get] at ha
    by_cases hne : a = id
    · rw [if_pos hne, Option.some.injEq] at ha
      subst ha
      exact hbare hopen
    · rw [if_neg hne] at ha
      exact h.bare a s ha hopen

/-- The envelope of a retired row opens to the secret of its successor. -/
theorem decryptEnvelope_retire {current : UserSession} {fresh : Fresh} {now : Instant}
    {secret : Text} (hempty : current.replayEnvelope = none)
    (h : svc.decryptEnvelope (svc.retire current fresh now) = some secret) :
    secret = fresh.secret := by
  unfold SessionService.decryptEnvelope at h
  obtain ⟨envelope, henvelope, h⟩ := Option.bind_eq_some_iff.mp h
  obtain ⟨crypt, hcrypt, h⟩ := Option.bind_eq_some_iff.mp h
  unfold SessionService.retire at henvelope
  simp only [hcrypt, hempty] at henvelope
  by_cases hgrace : 0 < svc.grace
  · rw [if_pos hgrace, Option.some.injEq] at henvelope
    subst henvelope
    by_cases hnil : crypt.encrypt fresh.nonce (replayEnvelopePrefix ++ fresh.secret) = []
    · rw [if_pos hnil] at h
      cases h
    · rw [if_neg hnil] at h
      simp only [crypt.decrypt_encrypt, Option.bind_eq_bind, Option.bind_some] at h
      by_cases hprefix : replayEnvelopePrefix.isPrefixOf (replayEnvelopePrefix ++ fresh.secret)
      · rw [if_pos hprefix, List.drop_left, Option.some.injEq] at h
        exact h.symm
      · rw [if_neg hprefix] at h
        cases h
  · rw [if_neg hgrace] at henvelope
    cases henvelope

/-- In a ranked database a session is replaced by the row it names. -/
theorem LineageInv.replaces_iff (h : LineageInv svc db) {a b : SessionId} :
    Replaces db.nextSession a b ↔ ∃ s, db.sessions.get a = some s ∧ s.replacedBy = some b := by
  constructor
  · intro hstep
    obtain ⟨s, hs, hrest⟩ := Option.bind_eq_some_iff.mp hstep
    obtain ⟨c, hc, hrest⟩ := Option.bind_eq_some_iff.mp hrest
    obtain ⟨_, _, hrest⟩ := Option.bind_eq_some_iff.mp hrest
    rw [Option.some.injEq] at hrest
    exact ⟨s, hs, hrest ▸ hc⟩
  · rintro ⟨s, hs, hnext⟩
    obtain ⟨rank, hrank⟩ := h.ranked
    obtain ⟨t, ht⟩ := Option.isSome_iff_exists.mp (hrank.grows a s b hs hnext).1
    unfold Replaces Db.nextSession
    simp [hs, hnext, ht]

theorem LineageInv.tip_iff (h : LineageInv svc db) {a : SessionId} {s : UserSession}
    (ha : db.sessions.get a = some s) : Tip db.nextSession a ↔ s.replacedBy = none := by
  constructor
  · intro htip
    cases hnext : s.replacedBy with
    | none => rfl
    | some b =>
      have hstep : Replaces db.nextSession a b := h.replaces_iff.mpr ⟨s, ha, hnext⟩
      unfold Replaces Tip at *
      rw [htip] at hstep
      cases hstep
  · intro hnone
    cases hnext : db.nextSession a with
    | none => exact hnext
    | some b =>
      obtain ⟨t, ht, hb⟩ := h.replaces_iff.mp hnext
      rw [ha, Option.some.injEq] at ht
      subst ht
      rw [hnone] at hb
      cases hb

/-- A row leads to rows. -/
theorem LineageInv.get_of_descends (h : LineageInv svc db) {a b : SessionId}
    (ha : (db.sessions.get a).isSome) (hab : Descends db.nextSession a b) :
    (db.sessions.get b).isSome := by
  induction hab with
  | refl => exact ha
  | tail _ hstep _ =>
    obtain ⟨s, hs, hnext⟩ := h.replaces_iff.mp hstep
    obtain ⟨rank, hrank⟩ := h.ranked
    exact (hrank.grows _ s _ hs hnext).1

theorem LineageInv.change (h : LineageInv svc db) (hchange : SessionChange svc db db') :
    LineageInv svc db' := by
  cases hchange with
  | accounts users =>
    obtain ⟨rank, hrank⟩ := h.ranked
    exact ⟨h.digest, ⟨rank, hrank.below, hrank.grows⟩, h.retired, h.envelope, h.bare⟩
  | opened userId fresh now hid hdigest => exact h.insert hid rfl rfl hdigest
  | rotated id current fresh now hget hopen hid hdigest =>
    obtain ⟨rank, hrank⟩ := h.ranked
    have hrow : (svc.freshRow current.userId fresh now).replacedBy = none := rfl
    have hinserted : LineageInv svc
        (db.putSession fresh.sessionId (svc.freshRow current.userId fresh now)) :=
      h.insert hid hrow rfl hdigest
    have hne : id ≠ fresh.sessionId := by
      intro heq
      rw [heq, hid] at hget
      cases hget
    have hcurrent : (db.putSession fresh.sessionId
        (svc.freshRow current.userId fresh now)).sessions.get id = some current := by
      rw [putSession_get, if_neg hne, hget]
    have hsuccessor : (db.putSession fresh.sessionId
        (svc.freshRow current.userId fresh now)).sessions.get fresh.sessionId =
          some (svc.freshRow current.userId fresh now) := by
      rw [putSession_get, if_pos rfl]
    have hlt := hrank.below id current hget
    refine hinserted.rewrite (hrank.insert hid hrow) hcurrent rfl ?_ ?_ ?_ ?_
    · intro b hb
      right
      obtain rfl := Option.some.inj hb
      refine ⟨by rw [hsuccessor]; rfl, ?_⟩
      rw [Function.update_of_ne hne, Function.update_self]
      exact hlt
    · simp [SessionService.retire]
    · intro b secret hb hsecret
      obtain rfl := Option.some.inj hb
      have hbare := h.bare id current hget hopen.2
      rw [decryptEnvelope_retire hbare hsecret]
      exact ⟨_, hsuccessor, rfl⟩
    · intro hnone
      cases hnone
  | closed tip row now hget hrevoked htip =>
    obtain ⟨rank, hrank⟩ := h.ranked
    have hnext : row.replacedBy = none := (h.tip_iff hget).mp htip
    have hbare := h.bare tip row hget hnext
    refine h.rewrite hrank hget rfl ?_ ?_ ?_ ?_
    · intro b hb
      exact Or.inl hb
    · intro hreplaced
      exact absurd hnext hreplaced
    · intro b secret hb
      change row.replacedBy = some b at hb
      rw [hnext] at hb
      cases hb
    · intro _
      exact hbare

theorem lineageInv_inductive (svc : SessionService) :
    (sessionSystem svc).Inductive (LineageInv svc) := by
  constructor
  · intro db hinit
    have hnone : ∀ a, db.sessions.get a = none := by
      intro a
      have hempty : db.sessions = .empty := hinit
      rw [hempty, Table.get_empty]
    refine ⟨?_, ⟨fun _ => 0, ?_, ?_⟩, ?_, ?_, ?_⟩ <;> simp [hnone]
  · intro db label db' h hstep
    exact h.change (serve_change hstep)

end Invariant

section Replay

variable {svc : SessionService} {db : Db}

/-- A hop from a replaced row goes to its successor. -/
theorem LineageInv.hop_some (h : LineageInv svc db) {a b id : SessionId}
    {s successor : UserSession} {secret : Text} (ha : db.sessions.get a = some s)
    (hnext : s.replacedBy = some b) (hhop : svc.hop db s = some (id, successor, secret)) :
    id = b ∧ db.sessions.get b = some successor ∧
      successor.refreshTokenHash = svc.hashRefreshToken secret := by
  unfold SessionService.hop at hhop
  obtain ⟨opened, hopened, hhop⟩ := Option.bind_eq_some_iff.mp hhop
  obtain ⟨⟨found, row⟩, hfind, hhop⟩ := Option.bind_eq_some_iff.mp hhop
  dsimp only at hhop
  by_cases hdead : row.revokedAt ≠ none ∧ row.replacedBy = none
  · rw [if_pos hdead] at hhop
    cases hhop
  · rw [if_neg hdead, Option.some.injEq, Prod.mk.injEq, Prod.mk.injEq] at hhop
    obtain ⟨rfl, rfl, rfl⟩ := hhop
    obtain ⟨hget, hhash⟩ := Table.find_some hfind
    obtain ⟨t, ht, hthash⟩ := h.envelope a s b opened ha hnext hopened
    obtain rfl : found = b := h.digest found b row t hget ht (hhash.trans hthash.symm)
    exact ⟨rfl, hget, hhash⟩

/-- The hops of a replay end in a row below the presented one that is not replaced. -/
theorem LineageInv.resolve_some (h : LineageInv svc db) {hops : ℕ} {a id : SessionId}
    {s row : UserSession} {secret : Text} (ha : db.sessions.get a = some s)
    (hreplaced : s.replacedBy ≠ none)
    (hresolve : svc.resolve db hops s = some (id, row, secret)) :
    Descends db.nextSession a id ∧ db.sessions.get id = some row ∧ row.replacedBy = none ∧
      row.refreshTokenHash = svc.hashRefreshToken secret := by
  induction hops generalizing a s with
  | zero => cases hresolve
  | succ hops ih =>
    obtain ⟨b, hnext⟩ := Option.ne_none_iff_exists'.mp hreplaced
    have hstep : Replaces db.nextSession a b := h.replaces_iff.mpr ⟨s, ha, hnext⟩
    unfold SessionService.resolve at hresolve
    cases hhop : svc.hop db s with
    | none => simp [hhop] at hresolve
    | some found =>
      obtain ⟨next, successor, opened⟩ := found
      obtain ⟨rfl, hget, hhash⟩ := h.hop_some ha hnext hhop
      simp only [hhop] at hresolve
      by_cases hlast : successor.replacedBy = none
      · rw [if_pos hlast, Option.some.injEq, Prod.mk.injEq, Prod.mk.injEq] at hresolve
        obtain ⟨rfl, rfl, rfl⟩ := hresolve
        exact ⟨.single hstep, hget, hlast, hhash⟩
      · rw [if_neg hlast] at hresolve
        obtain ⟨hdesc, hrest⟩ := ih hget hlast hresolve
        exact ⟨.head hstep hdesc, hrest⟩

/-- The tokens of a replay: those of an open, unexpired session below the presented one. -/
structure Replayed (svc : SessionService) (db : Db) (presented : SessionId) (now : Instant)
    (tokens : SessionTokens) (tip : SessionId) (row : UserSession) : Prop where
  below : Descends db.nextSession presented tip
  get : db.sessions.get tip = some row
  isOpen : row.Open
  unexpired : now < row.expiresAt
  refresh : svc.hashRefreshToken tokens.refreshToken = row.refreshTokenHash
  access : tokens.accessToken.sessionId = tip ∧ tokens.accessToken.userId = row.userId

theorem LineageInv.stableReplay_some (h : LineageInv svc db) {a : SessionId} {s : UserSession}
    {now : Instant} {tokens : SessionTokens} (ha : db.sessions.get a = some s)
    (hreplay : svc.stableReplay db s now = some tokens) :
    s.replacedBy ≠ none ∧ (∃ at', s.replacedAt = some at' ∧ now - at' ≤ svc.grace) ∧
      ∃ tip row, Replayed svc db a now tokens tip row := by
  unfold SessionService.stableReplay at hreplay
  by_cases hclosed : svc.grace ≤ 0 ∨ s.replacedBy = none
  · rw [if_pos hclosed] at hreplay
    cases hreplay
  rw [if_neg hclosed] at hreplay
  rw [not_or] at hclosed
  obtain ⟨replacedAt, hat, hreplay⟩ := Option.bind_eq_some_iff.mp hreplay
  by_cases hlate : svc.grace < now - replacedAt
  · rw [if_pos hlate] at hreplay
    cases hreplay
  rw [if_neg hlate] at hreplay
  obtain ⟨⟨tip, row, secret⟩, hresolve, hreplay⟩ := Option.bind_eq_some_iff.mp hreplay
  obtain ⟨hdesc, hget, hlast, hhash⟩ := h.resolve_some ha hclosed.2 hresolve
  dsimp only at hreplay
  by_cases hdead : row.revokedAt ≠ none ∨ row.replacedBy ≠ none ∨ row.expiresAt ≤ now
  · rw [if_pos hdead] at hreplay
    cases hreplay
  rw [if_neg hdead] at hreplay
  simp only [not_or, not_not, not_le] at hdead
  obtain ⟨user, _, hreplay⟩ := Option.bind_eq_some_iff.mp hreplay
  by_cases hadmitted : user.status.admitted
  · rw [if_pos hadmitted, Option.some.injEq] at hreplay
    subst hreplay
    exact ⟨hclosed.2, ⟨replacedAt, hat, not_lt.mp hlate⟩, tip, row, hdesc, hget,
      ⟨hdead.1, hlast⟩, hdead.2.2, hhash.symm, rfl, rfl⟩
  · rw [if_neg hadmitted] at hreplay
    cases hreplay

end Replay

end CampusQuest.Identity
