import CampusQuest.SessionLineage

/-!
Logout ends a lineage. The walk of a logout reaches the tip from any generation and leaves
it revoked without a successor. Such a tip is never rotated, so the lineage stays ended: a
live presentation finds no open row in it and a replay finds no open tip.
-/

namespace CampusQuest.Identity

open Generations Guards Runs Tables

def Db.ReplacedBy (db : Db) (a b : SessionId) : Prop :=
  ∃ s, db.sessions.get a = some s ∧ s.replacedBy = some b

def Db.SameLineage (db : Db) : SessionId → SessionId → Prop := Relation.EqvGen db.ReplacedBy

def Db.EndedAt (db : Db) (t : SessionId) : Prop :=
  ∃ s, db.sessions.get t = some s ∧ s.revokedAt ≠ none ∧ s.replacedBy = none

variable {svc : SessionService} {db db' : Db}

theorem LineageInv.replacedBy_eq (h : LineageInv svc db) :
    db.ReplacedBy = Replaces db.nextSession := by
  funext a b
  exact propext h.replaces_iff.symm

theorem LineageInv.sameLineage_iff (h : LineageInv svc db) {a b : SessionId} :
    db.SameLineage a b ↔ Lineage db.nextSession a b := by
  unfold Db.SameLineage Lineage
  rw [h.replacedBy_eq]

theorem Db.EndedAt.tip (h : LineageInv svc db) {t : SessionId} (ht : db.EndedAt t) :
    Tip db.nextSession t := by
  obtain ⟨s, hs, _, hnext⟩ := ht
  exact (h.tip_iff hs).mpr hnext

section Keeps

/-- A replacement is never undone. -/
theorem replacedBy_change (hchange : SessionChange svc db db') {a b : SessionId}
    (hab : db.ReplacedBy a b) : db'.ReplacedBy a b := by
  obtain ⟨s, hs, hnext⟩ := hab
  cases hchange with
  | accounts users => exact ⟨s, hs, hnext⟩
  | opened userId fresh now hid hdigest =>
    have hne : a ≠ fresh.sessionId := by
      rintro rfl
      simp [hid] at hs
    exact ⟨s, by rw [putSession_get, if_neg hne, hs], hnext⟩
  | rotated id current fresh now hget hopen hid hdigest =>
    have hfresh : a ≠ fresh.sessionId := by
      rintro rfl
      simp [hid] at hs
    have hne : a ≠ id := by
      rintro rfl
      rw [hget, Option.some.injEq] at hs
      rw [← hs, hopen.2] at hnext
      cases hnext
    exact ⟨s, by rw [putSession_get, if_neg hne, putSession_get, if_neg hfresh, hs], hnext⟩
  | closed tip row now hget hrevoked htip =>
    by_cases hne : a = tip
    · subst hne
      rw [hget, Option.some.injEq] at hs
      subst hs
      exact ⟨{ row with revokedAt := some now }, by rw [putSession_get, if_pos rfl], hnext⟩
    · exact ⟨s, by rw [putSession_get, if_neg hne, hs], hnext⟩

/-- A logged-out tip is never written again. -/
theorem endedAt_change (hchange : SessionChange svc db db') {t : SessionId}
    (ht : db.EndedAt t) : db'.EndedAt t := by
  obtain ⟨s, hs, hrevoked, hnext⟩ := ht
  cases hchange with
  | accounts users => exact ⟨s, hs, hrevoked, hnext⟩
  | opened userId fresh now hid hdigest =>
    have hne : t ≠ fresh.sessionId := by
      rintro rfl
      simp [hid] at hs
    exact ⟨s, by rw [putSession_get, if_neg hne, hs], hrevoked, hnext⟩
  | rotated id current fresh now hget hopen hid hdigest =>
    have hfresh : t ≠ fresh.sessionId := by
      rintro rfl
      simp [hid] at hs
    have hne : t ≠ id := by
      rintro rfl
      rw [hget, Option.some.injEq] at hs
      exact hrevoked (hs ▸ hopen.1)
    exact ⟨s, by rw [putSession_get, if_neg hne, putSession_get, if_neg hfresh, hs], hrevoked,
      hnext⟩
  | closed tip row now hget hopen htip =>
    have hne : t ≠ tip := by
      rintro rfl
      rw [hget, Option.some.injEq] at hs
      exact hrevoked (hs ▸ hopen)
    exact ⟨s, by rw [putSession_get, if_neg hne, hs], hrevoked, hnext⟩

def Ended (db : Db) (a : SessionId) : Prop :=
  ∃ t, Relation.ReflTransGen db.ReplacedBy a t ∧ db.EndedAt t

theorem ended_of_below (hchange : SessionChange svc db db') {a t : SessionId}
    (hat : Relation.ReflTransGen db.ReplacedBy a t) (ht : db'.EndedAt t) : Ended db' a := by
  have hle : db.ReplacedBy ≤ db'.ReplacedBy := fun _ _ hab => replacedBy_change hchange hab
  exact ⟨t, Relation.ReflTransGen.mono hle _ _ hat, ht⟩

theorem ended_change (hchange : SessionChange svc db db') {a : SessionId} (ha : Ended db a) :
    Ended db' a := by
  obtain ⟨t, hat, ht⟩ := ha
  exact ended_of_below hchange hat (endedAt_change hchange ht)

end Keeps

section Logout

/-- The walk of a logout ends, so the call returns. -/
theorem LineageInv.revokeSession_isSome (h : LineageInv svc db) (token : Text) (now : Instant) :
    (svc.revokeSession db token now).isSome := by
  unfold SessionService.revokeSession
  cases hfind : db.findSession (svc.hashRefreshToken token) with
  | none => rfl
  | some found =>
    obtain ⟨id, s⟩ := found
    have hid := (Table.find_some hfind).1
    obtain ⟨rank, hrank⟩ := h.ranked
    have hbound : ∀ a b, Replaces db.nextSession a b →
        rank a < rank b ∧ rank b < db.sessions.keys.card := by
      intro a b hab
      obtain ⟨r, hr, hnext⟩ := h.replaces_iff.mp hab
      obtain ⟨hb, hlt⟩ := hrank.grows a r b hr hnext
      obtain ⟨t, ht⟩ := Option.isSome_iff_exists.mp hb
      exact ⟨hlt, hrank.below b t ht⟩
    have hwalk := follow_isSome hbound db.sessions.keys.card id (by omega)
    obtain ⟨tip, htip⟩ := Option.isSome_iff_exists.mp hwalk
    have hrow := h.get_of_descends (by rw [hid]; rfl) (follow_some htip).1
    obtain ⟨row, hrow⟩ := Option.isSome_iff_exists.mp hrow
    have hof : SessionService.tipOf db id = some tip := htip
    by_cases hopen : row.revokedAt = none
    · simp [hof, hrow, hopen]
    · simp [hof, hrow, hopen]

theorem LineageInv.revokeSession_ends (h : LineageInv svc db) {token : Text} {now : Instant}
    {a : SessionId} {s : UserSession}
    (hfind : db.findSession (svc.hashRefreshToken token) = some (a, s))
    (hrevoke : svc.revokeSession db token now = some db') : Ended db' a := by
  unfold SessionService.revokeSession at hrevoke
  simp only [hfind] at hrevoke
  obtain ⟨tip, htip, hrevoke⟩ := Option.bind_eq_some_iff.mp hrevoke
  obtain ⟨row, hrow, hrevoke⟩ := Option.bind_eq_some_iff.mp hrevoke
  obtain ⟨hdesc, hlast⟩ := follow_some htip
  have hnext : row.replacedBy = none := (h.tip_iff hrow).mp hlast
  have hbelow : Relation.ReflTransGen db.ReplacedBy a tip := by
    rw [h.replacedBy_eq]
    exact hdesc
  by_cases hopen : row.revokedAt = none
  · rw [if_pos hopen, Option.some.injEq] at hrevoke
    subst hrevoke
    have hchange : SessionChange svc db (db.putSession tip { row with revokedAt := some now }) :=
      .closed tip row now hrow hopen hlast
    refine ended_of_below hchange hbelow ?_
    exact ⟨{ row with revokedAt := some now }, by rw [putSession_get, if_pos rfl], by simp, hnext⟩
  · rw [if_neg hopen, Option.some.injEq] at hrevoke
    subst hrevoke
    exact ⟨tip, hbelow, row, hrow, hopen, hnext⟩

theorem LineageInv.rotateRefresh_ended (h : LineageInv svc db) {a b : SessionId}
    {s : UserSession} {token : Text} (ha : Ended db a) (hab : db.SameLineage a b)
    (hfind : db.findSession (svc.hashRefreshToken token) = some (b, s)) (fresh : Fresh)
    (now : Instant) : ∃ e, svc.rotateRefresh db token fresh now = .error e := by
  obtain ⟨t, hat, ht⟩ := ha
  rw [h.replacedBy_eq] at hat
  have htip := ht.tip h
  have hbt : Descends db.nextSession b t := (h.sameLineage_iff.mp hab).descends_tip htip hat
  obtain ⟨last, hlast, hrevoked, _⟩ := ht
  cases hresult : svc.rotateRefresh db token fresh now with
  | error e => exact ⟨e, rfl⟩
  | ok result =>
    exfalso
    obtain ⟨tokens, db'⟩ := result
    obtain ⟨id, current, hfound, hcase⟩ := SessionService.rotateRefresh_ok hresult
    rw [hfind, Option.some.injEq, Prod.mk.injEq] at hfound
    obtain ⟨rfl, rfl⟩ := hfound
    have hb := (Table.find_some hfind).1
    rcases hcase with ⟨_, hreplay, _⟩ | ⟨hopen, _⟩
    · -- The replay would have found an open row below, but the row below is the ended tip.
      obtain ⟨_, _, tip, row, hreplayed⟩ := h.stableReplay_some hb hreplay
      have hrowTip := (h.tip_iff hreplayed.get).mpr hreplayed.isOpen.2
      obtain rfl : tip = t :=
        hrowTip.eq_of_descends (htip.descends_of_descends hbt hreplayed.below)
      have hget := hreplayed.get
      rw [hlast, Option.some.injEq] at hget
      exact hrevoked (hget ▸ hreplayed.isOpen.1)
    · have hbTip := (h.tip_iff hb).mpr hopen.2
      obtain rfl : b = t := hbTip.eq_of_descends hbt
      rw [hlast, Option.some.injEq] at hb
      exact hrevoked (hb ▸ hopen.1)

end Logout

/-- Refresh lineages are safe in every reachable state: at most one open generation, no
cycle, every replaced row revoked. A replay writes nothing and answers with the open tip;
a logout returns, and after it no token of the lineage yields tokens. -/
theorem refresh_lineage_safe (svc : SessionService) :
    (∀ db, (sessionSystem svc).Reach db →
      (∀ a b s t, db.sessions.get a = some s → db.sessions.get b = some t →
        db.SameLineage a b → s.Open → t.Open → a = b) ∧
      (∀ a, ¬ Relation.TransGen db.ReplacedBy a a) ∧
      (∀ a s, db.sessions.get a = some s → s.replacedBy ≠ none → s.revokedAt ≠ none)) ∧
    (∀ db, (sessionSystem svc).Reach db → ∀ token fresh now a s tokens db',
      db.findSession (svc.hashRefreshToken token) = some (a, s) → ¬ s.Open →
      svc.rotateRefresh db token fresh now = .ok (tokens, db') →
      db' = db ∧ ∃ tip row, Replayed svc db a now tokens tip row) ∧
    (∀ db, (sessionSystem svc).Reach db → ∀ token now,
      (svc.revokeSession db token now).isSome) ∧
    (∀ db, (sessionSystem svc).Reach db → ∀ token now a s db₁,
      db.findSession (svc.hashRefreshToken token) = some (a, s) →
      svc.revokeSession db token now = some db₁ →
      ∀ l db₂, (sessionSystem svc).Run db₁ l db₂ → ∀ later b t,
        db₂.findSession (svc.hashRefreshToken later) = some (b, t) → db₂.SameLineage a b →
        ∀ fresh now, ∃ e, svc.rotateRefresh db₂ later fresh now = .error e) := by
  have hinv := lineageInv_inductive svc
  refine ⟨?_, ?_, ?_, ?_⟩
  · intro db hreach
    have h := hinv.reach hreach
    refine ⟨?_, ?_, h.retired⟩
    · intro a b s t ha hb hab hs ht
      exact (h.sameLineage_iff.mp hab).tip_unique ((h.tip_iff ha).mpr hs.2)
        ((h.tip_iff hb).mpr ht.2)
    · intro a hcycle
      obtain ⟨rank, hrank⟩ := h.ranked
      rw [h.replacedBy_eq] at hcycle
      have hgrows : ∀ a b, Replaces db.nextSession a b → rank a < rank b := by
        intro a b hab
        obtain ⟨s, hs, hnext⟩ := h.replaces_iff.mp hab
        exact (hrank.grows a s b hs hnext).2
      exact acyclic hgrows a hcycle
  · intro db hreach token fresh now a s tokens db' hfind hclosed hok
    have h := hinv.reach hreach
    obtain ⟨id, current, hfound, hcase⟩ := SessionService.rotateRefresh_ok hok
    rw [hfind, Option.some.injEq, Prod.mk.injEq] at hfound
    obtain ⟨rfl, rfl⟩ := hfound
    rcases hcase with ⟨_, hreplay, hsame⟩ | ⟨hopen, _⟩
    · obtain ⟨_, _, hreplayed⟩ := h.stableReplay_some (Table.find_some hfind).1 hreplay
      exact ⟨hsame, hreplayed⟩
    · exact absurd hopen hclosed
  · intro db hreach token now
    exact (hinv.reach hreach).revokeSession_isSome token now
  · intro db hreach token now a s db₁ hfind hrevoke l db₂ hrun later b t hlater hab fresh now'
    have hreach₁ : (sessionSystem svc).Reach db₁ := by
      refine .step (a := (.logout token now, none)) hreach ?_
      change (svc.revokeSession db token now).map _ = _
      rw [hrevoke]
      rfl
    have hended : Ended db₂ a := by
      refine hrun.keeps (P := fun db => Ended db a) (fun u c u' _ hu hstep => ?_) hreach₁
        ((hinv.reach hreach).revokeSession_ends hfind hrevoke)
      exact ended_change (serve_change hstep) hu
    exact (hinv.reach (hrun.reach hreach₁)).rotateRefresh_ended hended hab hlater fresh now'

end CampusQuest.Identity
