import CampusQuest.RecruitmentVisibility
import CampusQuest.TalentSystem
import CampusQuest.Receipts

/-!
The receipts of the commands on recruitments and on talent profiles. Each recruitment and each
owner of a profile is a desk: a replay is answered from its receipt, a new command takes effect
against the version that is current, and nothing else that happens loses a receipt or lowers a
version.
-/

namespace CampusQuest.Innovation

open Guards Tables Runs Receipts
open Lifecycle (Account UserStatus)

section Recruitments

variable {digests : RecruitmentDigests} {db db' : RecruitmentDb} {w w' : RecruitmentWorld}
  {now : Instant} {actor : Actor} {projectId : ProjectId} {id : RecruitmentId}
  {payload : RecruitmentPayload} {revision : RevisionId} {cycle : CycleId}
  {receipt : RecruitmentReceipt} {replayed : Bool}

def recruitmentDesk (id : RecruitmentId) : Desk RecruitmentDb RequestId Text where
  version db := (db.recruitments.get id).elim 0 RecruitmentDraft.version
  receipt db requestId := (db.receipts.get (id, requestId)).map fun r =>
    (r.fingerprint, r.appliedVersion)

theorem recruitmentDesk_version {row : RecruitmentDraft}
    (hrow : db.recruitments.get id = some row) : (recruitmentDesk id).version db = row.version := by
  dsimp only [recruitmentDesk]
  rw [hrow]
  rfl

/-- What a command leaves at the desk of its recruitment. -/
theorem finish_applies {row row₁ : RecruitmentDraft} {db₁ : RecruitmentDb}
    (hrow : db.recruitments.get id = some row)
    (hnew : db.receipts.get (id, payload.requestId) = none)
    (hversion : payload.version = row.version)
    (heffect : Effect db now id row revision cycle payload.command db₁ row₁) :
    (recruitmentDesk id).Applies db payload.requestId (digests.payload payload) payload.version
      (db₁.finish digests now id row₁ payload) (row.version + 1) := by
  have hafter : (recruitmentDesk id).version (db₁.finish digests now id row₁ payload) =
      row.version + 1 := by
    have hrow₁ : (db₁.finish digests now id row₁ payload).recruitments.get id =
        some { row₁ with version := row₁.version + 1, updatedAt := now } :=
      Table.get_put_self _ _ _
    rw [← heffect.version]
    exact recruitmentDesk_version hrow₁
  constructor
  · dsimp only [recruitmentDesk]
    rw [hnew]
    rfl
  · rw [recruitmentDesk_version hrow]
    exact hversion
  · rw [hafter, recruitmentDesk_version hrow]
  · exact hafter.symm
  · rw [← heffect.version]
    exact congrArg (Option.map _) (Table.get_put_self _ _ _)

/-- A command that is not refused is a replay, or it takes effect. -/
theorem recruitment_answers (h : db.run digests now actor projectId id payload revision cycle =
      .ok (db', receipt, replayed)) :
    (recruitmentDesk id).Answers db payload.requestId (digests.payload payload) payload.version
      db' receipt.appliedVersion replayed := by
  obtain ⟨row, hrow, ⟨hknown, hsame, hdb, hreplayed⟩ |
    ⟨hnew, hversion, hreplayed, _, happlied, db₁, row₁, heffect, hdb⟩⟩ := run_ok h
  · refine .inl ⟨hreplayed, ?_, hdb⟩
    dsimp only [recruitmentDesk]
    rw [hknown, Option.map_some, hsame]
  · refine .inr ⟨hreplayed, ?_⟩
    rw [hdb, happlied]
    exact finish_applies hrow hnew hversion heffect

/-- A put at a key raises a version or leaves it. -/
theorem recruitmentDesk_putRow {id₀ : RecruitmentId} {row₀ : RecruitmentDraft}
    (hraised : (recruitmentDesk id₀).version db ≤ row₀.version) :
    (recruitmentDesk id).version db ≤ (recruitmentDesk id).version (db.putRow id₀ row₀) := by
  dsimp only [recruitmentDesk] at hraised ⊢
  change _ ≤ ((db.recruitments.put id₀ row₀).get id).elim 0 _
  rw [Table.get_put]
  split
  next heq =>
    subst heq
    exact hraised
  next => exact le_refl _

theorem recruitment_keeps {call : Option RecruitmentCall}
    (hstep : RecruitmentStep digests w call w') : (recruitmentDesk id).Keeps w.db w'.db := by
  cases hstep with
  | elsewhere h =>
    refine ⟨?_, fun k x hx => ?_⟩
    · obtain ⟨takenDown, heq⟩ := h.recruitments id
      dsimp only [recruitmentDesk]
      rw [heq]
      cases w.db.recruitments.get id <;> exact le_refl _
    · dsimp only [recruitmentDesk] at hx ⊢
      rw [h.receipts]
      exact hx
  | @call now call hnow hfresh =>
    have hchange : RecruitmentChange digests now w.db call (call.after digests now w.db) :=
      recruitment_change call
    dsimp only
    generalize call.after digests now w.db = db' at hchange
    cases hchange with
    | @created actor projectId requestId fields id₀ =>
      refine ⟨recruitmentDesk_putRow ?_, fun k x hx => hx⟩
      have hnone : w.db.recruitments.get id₀ = none := hfresh
      dsimp only [recruitmentDesk]
      rw [hnone]
      exact Nat.zero_le _
    | @ran actor projectId id₀ payload revision cycle row row₁ db₁ hrow hnew hversion heffect =>
      have hput : (db₁.finish digests now id₀ row₁ payload).recruitments =
          w.db.recruitments.put id₀ { row₁ with version := row₁.version + 1, updatedAt := now } := by
        change db₁.recruitments.put id₀ _ = _
        rw [heffect.tables.1]
      constructor
      · have hraised : (recruitmentDesk id₀).version w.db ≤ row₁.version + 1 := by
          rw [recruitmentDesk_version hrow, heffect.version]
          exact Nat.le_succ _
        have hle := @recruitmentDesk_putRow w.db id id₀
          { row₁ with version := row₁.version + 1, updatedAt := now } hraised
        dsimp only [recruitmentDesk] at hle ⊢
        rw [hput]
        exact hle
      · intro k x hx
        dsimp only [recruitmentDesk] at hx ⊢
        change ((db₁.receipts.put (id₀, payload.requestId) _).get (id, k)).map _ = some x
        rw [heffect.tables.2.1, Table.get_put_of_ne]
        · exact hx
        · rintro heq
          rw [heq, hnew] at hx
          cases hx
    | expired hrow =>
      refine ⟨recruitmentDesk_putRow ?_, fun k x hx => hx⟩
      rw [recruitmentDesk_version hrow]
      exact Nat.le_succ _
    | @reminded id₀ delivery row project cycle due hrow =>
      obtain ⟨hrecruitments, _, _, hreceipts⟩ := @recordReminder_tables w.db delivery
        ⟨id₀, cycle, due, project.ownerUserId, .pending, false⟩
      constructor
      · have hraised : (recruitmentDesk id₀).version w.db ≤ row.version + 1 := by
          rw [recruitmentDesk_version hrow]
          exact Nat.le_succ _
        have hle := @recruitmentDesk_putRow w.db id id₀
          { row with
            nextRemindAt := some (nextReminderDue due now)
            version := row.version + 1
            updatedAt := now } hraised
        refine hle.trans (le_of_eq ?_)
        exact congrArg (fun t => ((Table.put t id₀ _).get id).elim 0 _) hrecruitments.symm
      · intro k x hx
        dsimp only [recruitmentDesk] at hx ⊢
        change ((RecruitmentDb.recordReminder _ _ _).receipts.get (id, k)).map _ = some x
        rw [hreceipts]
        exact hx
    | _ => exact ⟨le_refl _, fun k x hx => hx⟩

theorem recruitment_keeps_run {l : List (RecruitmentWorld × Option RecruitmentCall × RecruitmentWorld)}
    (hrun : (recruitmentSystem digests).Run w l w') : (recruitmentDesk id).Keeps w.db w'.db := by
  induction hrun with
  | nil => exact Desk.Keeps.refl _
  | snoc _ hstep ih => exact ih.trans (recruitment_keeps hstep)

end Recruitments

section Talents

variable {digests : TalentDigests} {db db' : TalentDb} {w w' : TalentWorld} {now : Instant}
  {actor : Actor} {owner : UserId} {payload : TalentPayload} {revisionId : RevisionId}
  {id : ProfileId} {receipt : TalentActionReceipt} {replayed : Bool}

/-- The profile of an owner with the receipts of the owner. Before the first save the version is
zero. -/
def talentDesk (owner : UserId) : Desk TalentDb RequestId Text where
  version db := (db.profiles.get owner).elim 0 TalentProfile.version
  receipt db requestId := (db.receipts.get (owner, requestId)).map fun r =>
    (r.fingerprint, r.appliedVersion)

theorem talentDesk_version {row : TalentProfile} (hrow : db.profiles.get owner = some row) :
    (talentDesk owner).version db = row.version := by
  dsimp only [talentDesk]
  rw [hrow]
  rfl

/-- The profile that a command puts is one version ahead. -/
theorem talent_finish_applies {row : TalentProfile}
    (hnew : db.receipts.get (actor.userId, payload.requestId) = none)
    (hversion : payload.version = (talentDesk actor.userId).version db)
    (hnext : row.version = (talentDesk actor.userId).version db + 1) {db₁ : TalentDb} :
    (talentDesk actor.userId).Applies db payload.requestId (digests.payload payload)
      payload.version (db₁.finish digests now actor row payload) row.version := by
  have hput : (db₁.finish digests now actor row payload).profiles.get actor.userId = some row :=
    Table.get_put_self _ _ _
  constructor
  · dsimp only [talentDesk]
    rw [hnew]
    rfl
  · exact hversion
  · rw [talentDesk_version hput]
    exact hnext
  · exact (talentDesk_version hput).symm
  · exact congrArg (Option.map _) (Table.get_put_self _ _ _)

theorem talentRun_answers
    (h : TalentRun digests db now actor payload revisionId id db' receipt replayed) :
    (talentDesk actor.userId).Answers db payload.requestId (digests.payload payload)
      payload.version db' receipt.appliedVersion replayed := by
  cases h with
  | replayed hknown hsame =>
    refine .inl ⟨rfl, ?_, rfl⟩
    dsimp only [talentDesk]
    rw [hknown, Option.map_some, hsame]
  | first hcommand hrow hversion hnew =>
    have hzero : (talentDesk actor.userId).version db = 0 := by
      dsimp only [talentDesk]
      rw [hrow]
      rfl
    refine .inr ⟨rfl, talent_finish_applies hnew (hversion.trans hzero.symm) ?_⟩
    rw [hzero]
    rfl
  | effective hrow hversion hnew heffect =>
    have hrow := talentDesk_version hrow
    refine .inr ⟨rfl, talent_finish_applies hnew (hversion.trans hrow.symm) ?_⟩
    rw [hrow, ← heffect.version.1]
    rfl

/-- A profile that is put raises a version or leaves it. -/
theorem talent_finish_keeps {row : TalentProfile} {db₁ : TalentDb}
    (hnew : db.receipts.get (actor.userId, payload.requestId) = none)
    (hprofiles : db₁.profiles = db.profiles) (hreceipts : db₁.receipts = db.receipts)
    (hraised : (talentDesk actor.userId).version db ≤ row.version) :
    (talentDesk owner).Keeps db (db₁.finish digests now actor row payload) := by
  constructor
  · dsimp only [talentDesk] at hraised ⊢
    change _ ≤ ((db₁.profiles.put actor.userId row).get owner).elim 0 _
    rw [hprofiles, Table.get_put]
    split
    next heq =>
      subst heq
      exact hraised
    next => exact le_refl _
  · intro k x hx
    dsimp only [talentDesk] at hx ⊢
    change ((db₁.receipts.put (actor.userId, payload.requestId) _).get (owner, k)).map _ = some x
    rw [hreceipts, Table.get_put_of_ne]
    · exact hx
    · rintro heq
      rw [heq, hnew] at hx
      cases hx

theorem talent_keeps {call : Option TalentCall} (hstep : TalentStep digests w call w') :
    (talentDesk owner).Keeps w.db w'.db := by
  cases hstep with
  | elsewhere h =>
    constructor
    · obtain ⟨takenDown, heq⟩ := h.profiles owner
      dsimp only [talentDesk]
      rw [heq]
      cases w.db.profiles.get owner <;> exact le_refl _
    · intro k x hx
      obtain ⟨r, hr, rfl⟩ := Option.map_eq_some_iff.mp hx
      exact congrArg (Option.map _) (h.receipts (owner, k) r hr)
  | @call now call hnow hfresh =>
    have hchange : TalentChange digests now w.db call (call.after digests now w.db) :=
      talent_change call
    dsimp only
    generalize call.after digests now w.db = db' at hchange
    cases hchange with
    | nothing => exact Desk.Keeps.refl _
    | ran h =>
      cases h with
      | first hcommand hrow hversion hnew =>
        refine talent_finish_keeps hnew rfl rfl ?_
        dsimp only [talentDesk]
        rw [hrow]
        exact Nat.zero_le _
      | effective hrow hversion hnew heffect =>
        refine talent_finish_keeps hnew heffect.tables.1 heffect.tables.2 ?_
        rw [talentDesk_version hrow, ← heffect.version.1]
        exact Nat.le_succ _
    | @uploaded actor payload fileId objectKey file receipt hnew =>
      refine ⟨le_refl _, fun k x hx => ?_⟩
      dsimp only [talentDesk] at hx ⊢
      rw [Table.get_put_of_ne]
      · exact hx
      · rintro heq
        rw [heq, hnew] at hx
        cases hx
    | started => exact ⟨le_refl _, fun k x hx => hx⟩
    | checked => exact ⟨le_refl _, fun k x hx => hx⟩

theorem talent_keeps_run {l : List (TalentWorld × Option TalentCall × TalentWorld)}
    (hrun : (talentSystem digests).Run w l w') : (talentDesk owner).Keeps w.db w'.db := by
  induction hrun with
  | nil => exact Desk.Keeps.refl _
  | snoc _ hstep ih => exact ih.trans (talent_keeps hstep)

end Talents

section ExactlyOnce

theorem recruitment_again {digests : RecruitmentDigests} {w w₁ w' : RecruitmentWorld}
    {l : List (RecruitmentWorld × Option RecruitmentCall × RecruitmentWorld)}
    {now now' : Instant} {actor actor' : Actor} {projectId projectId' : ProjectId}
    {id : RecruitmentId} {payload payload' : RecruitmentPayload}
    {revision revision' : RevisionId} {cycle cycle' : CycleId} {db' : RecruitmentDb}
    {receipt receipt' : RecruitmentReceipt} {replayed replayed' : Bool}
    (h : w.db.run digests now actor projectId id payload revision cycle =
      .ok (w₁.db, receipt, replayed))
    (hrun : (recruitmentSystem digests).Run w₁ l w')
    (h' : w'.db.run digests now' actor' projectId' id payload' revision' cycle' =
      .ok (db', receipt', replayed')) :
    (payload'.requestId = payload.requestId →
      digests.payload payload' = digests.payload payload ∧ replayed' = true ∧ db' = w'.db ∧
        receipt'.appliedVersion = receipt.appliedVersion) ∧
      (replayed = false → replayed' = false → payload.version < payload'.version) := by
  have hkeeps : (recruitmentDesk id).Keeps w₁.db w'.db := recruitment_keeps_run hrun
  constructor
  · intro hsame
    have hsecond := recruitment_answers h'
    rw [hsame] at hsecond
    exact (recruitment_answers h).again hkeeps hsecond
  · rintro rfl rfl
    exact (recruitment_answers h).versions hkeeps (recruitment_answers h')

theorem talent_again {digests : TalentDigests} {w w₁ w' : TalentWorld}
    {l : List (TalentWorld × Option TalentCall × TalentWorld)} {now now' : Instant}
    {actor actor' : Actor} {payload payload' : TalentPayload} {revisionId revisionId' : RevisionId}
    {id id' : ProfileId} {db' : TalentDb} {receipt receipt' : TalentActionReceipt}
    {replayed replayed' : Bool} (howner : actor'.userId = actor.userId)
    (h : w.db.run digests now actor payload revisionId id = .ok (w₁.db, receipt, replayed))
    (hrun : (talentSystem digests).Run w₁ l w')
    (h' : w'.db.run digests now' actor' payload' revisionId' id' =
      .ok (db', receipt', replayed')) :
    (payload'.requestId = payload.requestId →
      digests.payload payload' = digests.payload payload ∧ replayed' = true ∧ db' = w'.db ∧
        receipt'.appliedVersion = receipt.appliedVersion) ∧
      (replayed = false → replayed' = false → payload.version < payload'.version) := by
  have hkeeps : (talentDesk actor.userId).Keeps w₁.db w'.db := talent_keeps_run hrun
  have hfirst := talentRun_answers (talent_run h)
  have hsecond := talentRun_answers (talent_run h')
  rw [howner] at hsecond
  constructor
  · intro hsame
    rw [hsame] at hsecond
    exact hfirst.again hkeeps hsecond
  · rintro rfl rfl
    exact hfirst.versions hkeeps hsecond

/-- The commands on a recruitment and of an owner of a profile. Under the request id of a command
that was accepted only the same command is accepted again, it changes nothing and finds the
version of the first time; a command that takes effect raises the version that it was issued
against, so a later one was issued against a later version; a refused one changes nothing. -/
theorem commands_exactly_once (digests : RecruitmentDigests) (talents : TalentDigests) :
    (∀ (w w₁ w' : RecruitmentWorld) l now now' actor actor' projectId projectId' id payload payload'
      revision revision' cycle cycle' db' receipt receipt' replayed replayed',
      w.db.run digests now actor projectId id payload revision cycle =
        .ok (w₁.db, receipt, replayed) →
      (recruitmentSystem digests).Run w₁ l w' →
      w'.db.run digests now' actor' projectId' id payload' revision' cycle' =
        .ok (db', receipt', replayed') →
      (payload'.requestId = payload.requestId →
        digests.payload payload' = digests.payload payload ∧ replayed' = true ∧ db' = w'.db ∧
          receipt'.appliedVersion = receipt.appliedVersion ∧
          ∀ answer, db'.actAnswer now' id receipt' payload' replayed' = some answer →
            answer.replayed = true ∧ answer.appliedVersion = receipt.appliedVersion) ∧
      (replayed = false → replayed' = false → payload.version < payload'.version)) ∧
    (∀ db now actor projectId id payload revision cycle db' receipt,
      RecruitmentDb.run db digests now actor projectId id payload revision cycle =
        .ok (db', receipt, false) →
      ∃ row row', db.recruitments.get id = some row ∧ db'.recruitments.get id = some row' ∧
        payload.version = row.version ∧ row'.version = row.version + 1 ∧
        receipt.appliedVersion = row'.version) ∧
    (∀ db now actor projectId id payload revision cycle error,
      RecruitmentDb.run db digests now actor projectId id payload revision cycle = .error error →
      (RecruitmentCall.run actor projectId id payload revision cycle).after digests now db = db) ∧
    (∀ (w w₁ w' : TalentWorld) l now now' actor actor' payload payload' revisionId revisionId'
      id id' db' receipt receipt' replayed replayed', Actor.userId actor' = Actor.userId actor →
      w.db.run talents now actor payload revisionId id = .ok (w₁.db, receipt, replayed) →
      (talentSystem talents).Run w₁ l w' →
      w'.db.run talents now' actor' payload' revisionId' id' = .ok (db', receipt', replayed') →
      (payload'.requestId = payload.requestId →
        talents.payload payload' = talents.payload payload ∧ replayed' = true ∧ db' = w'.db ∧
          receipt'.appliedVersion = receipt.appliedVersion) ∧
      (replayed = false → replayed' = false → payload.version < payload'.version)) ∧
    (∀ db now actor payload revisionId id db' receipt,
      TalentDb.run db talents now actor payload revisionId id = .ok (db', receipt, false) →
      ∃ row', db'.profiles.get actor.userId = some row' ∧
        payload.version = (db.profiles.get actor.userId).elim 0 TalentProfile.version ∧
        row'.version = payload.version + 1 ∧ receipt.appliedVersion = row'.version) ∧
    (∀ db now actor payload revisionId id error,
      TalentDb.run db talents now actor payload revisionId id = .error error →
      (TalentCall.run actor payload revisionId id).after talents now db = db) := by
  refine ⟨?_, ?_, ?_, ?_, ?_, ?_⟩
  · intro w w₁ w' l now now' actor actor' projectId projectId' id payload payload' revision
      revision' cycle cycle' db' receipt receipt' replayed replayed' h hrun h'
    obtain ⟨hagain, hversions⟩ := recruitment_again h hrun h'
    refine ⟨fun hsame => ?_, hversions⟩
    obtain ⟨hdigest, hreplayed, hdb, happlied⟩ := hagain hsame
    refine ⟨hdigest, hreplayed, hdb, happlied, fun answer hanswer => ?_⟩
    obtain ⟨row, _, rfl⟩ := Option.map_eq_some_iff.mp hanswer
    exact ⟨hreplayed, happlied⟩
  · intro db now actor projectId id payload revision cycle db' receipt h
    obtain ⟨row, hrow, ⟨_, _, _, hreplayed⟩ |
      ⟨_, hversion, _, _, happlied, db₁, row₁, heffect, rfl⟩⟩ := run_ok h
    · cases hreplayed
    · have hnext : row₁.version + 1 = row.version + 1 := congrArg (· + 1) heffect.version
      exact ⟨row, _, hrow, Table.get_put_self _ _ _, hversion, hnext, happlied.trans hnext.symm⟩
  · intro db now actor projectId id payload revision cycle error h
    simp only [RecruitmentCall.after, h]
  · intro w w₁ w' l now now' actor actor' payload payload' revisionId revisionId' id id' db' receipt
      receipt' replayed replayed' howner h hrun h'
    exact talent_again howner h hrun h'
  · intro db now actor payload revisionId id db' receipt h
    cases talent_run h with
    | first hcommand hrow hversion =>
      refine ⟨_, Table.get_put_self _ _ _, ?_, ?_, rfl⟩
      · rw [hrow]
        exact hversion
      · rw [hversion]
        rfl
    | effective hrow hversion hnew heffect =>
      refine ⟨_, Table.get_put_self _ _ _, ?_, ?_, rfl⟩
      · rw [hrow]
        exact hversion
      · rw [hversion, ← heffect.version.1]
        rfl
  · intro db now actor payload revisionId id error h
    have hperform : (TalentCall.run actor payload revisionId id).perform talents now db =
        .error error := by
      change (db.run talents now actor payload revisionId id).map Prod.fst = .error error
      rw [h]
      rfl
    unfold TalentCall.after
    rw [hperform]

def postUpdate (version requestId : ℕ) : RecruitmentPayload :=
  ⟨.update postFields, version, requestId⟩

def postUpdated : RecruitmentWorld :=
  postCall 0 (postDraft postFields) (.run postOwner 1 1 (postUpdate 1 5) 1 1)

def postUpdatedTwice : RecruitmentWorld :=
  postCall 0 postUpdated (.run postOwner 1 1 (postUpdate 2 6) 1 2)

theorem run_updated : ∃ l, (recruitmentSystem postDigests).Run postUpdated l postUpdatedTwice := by
  have hstep : (recruitmentSystem postDigests).step postUpdated
      (some (.run postOwner 1 1 (postUpdate 2 6) 1 2)) postUpdatedTwice :=
    .call _ (le_refl _) ⟨rfl, rfl⟩
  exact ⟨_, .snoc (.nil _) hstep⟩

/-- An update that is repeated after another one is answered with the version of the other one. -/
theorem update_answers_current :
    ¬ ∀ (digests : RecruitmentDigests) (w w₁ w' : RecruitmentWorld)
      (l : List (RecruitmentWorld × Option RecruitmentCall × RecruitmentWorld)) (now : Instant)
      (actor : Actor) (projectId : ProjectId) (id : RecruitmentId) (payload : RecruitmentPayload)
      (revision revision' : RevisionId) (cycle cycle' : CycleId) (db' : RecruitmentDb)
      (receipt receipt' : RecruitmentReceipt) (answer : RecruitmentDraftResponse),
      (recruitmentSystem digests).Reach w →
      w.db.run digests now actor projectId id payload revision cycle =
        .ok (w₁.db, receipt, false) →
      (recruitmentSystem digests).Run w₁ l w' →
      w'.db.run digests now actor projectId id payload revision' cycle' =
        .ok (db', receipt', true) →
      db'.updateAnswer now id = some answer → answer.version = receipt.appliedVersion := by
  intro h
  obtain ⟨l, hrun⟩ := run_updated
  have hversion := h postDigests _ postUpdated postUpdatedTwice l 0 postOwner 1 1 (postUpdate 1 5) 1 1
    1 3 _ _ _ _ (reach_draft postFields) rfl hrun rfl rfl
  cases hversion

/-- The first update of the post is found again after the second one, at the version it left. -/
theorem post_update_again : ∃ receipt,
    postUpdatedTwice.db.run postDigests 0 postOwner 1 1 (postUpdate 1 5) 1 3 =
      .ok (postUpdatedTwice.db, receipt, true) ∧ receipt.appliedVersion = 2 := by
  obtain ⟨l, hrun⟩ := run_updated
  obtain ⟨hagain, _⟩ := commands_exactly_once postDigests ⟨fun _ => [], fun _ => []⟩
  obtain ⟨hsame, _⟩ := hagain (postDraft postFields) postUpdated postUpdatedTwice l 0 0 postOwner
    postOwner 1 1 1 (postUpdate 1 5) (postUpdate 1 5) 1 1 1 3 _ _ _ _ _ rfl hrun rfl
  obtain ⟨_, _, _, happlied, _⟩ := hsame rfl
  exact ⟨_, rfl, happlied⟩

end ExactlyOnce

end CampusQuest.Innovation
