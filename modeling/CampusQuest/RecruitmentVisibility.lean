import CampusQuest.RecruitmentLifecycle

/-!
What the public sees of the recruitments over every run: the list is the recruitments that are
open by the clock under the conditions of the moderation and of the owner, and a contact that
comes back after its revocation was authorised by a publication in between.
-/

namespace Runs.System

variable {σ α : Type*} {S : System σ α}

/-- A property that a run brings about is brought about by one of its steps. -/
theorem Run.crosses {P : σ → Prop} {s s' : σ} {l : List (σ × α × σ)} (hrun : S.Run s l s')
    (hnot : ¬ P s) (h : P s') : ∃ t a t', (t, a, t') ∈ l ∧ S.step t a t' ∧ ¬ P t ∧ P t' := by
  induction hrun with
  | nil => exact absurd h hnot
  | @snoc t t' a l hrun hstep ih =>
    by_cases hmiddle : P t
    · obtain ⟨u, b, u', hmem, hcross⟩ := ih hmiddle
      exact ⟨u, b, u', List.mem_append_left _ hmem, hcross⟩
    · exact ⟨t, a, t', List.mem_append_right _ (List.mem_singleton_self _), hstep, hmiddle, h⟩

end Runs.System

namespace CampusQuest.Innovation

open Guards Tables Runs
open Lifecycle (Account UserStatus)

section Query

variable {db : RecruitmentDb} {now : Instant} {id : RecruitmentId} {row : RecruitmentDraft}

def RecruitmentDb.OwnerEffective (db : RecruitmentDb) (projectId : ProjectId) : Prop :=
  ∃ p u q, db.projects.get projectId = some p ∧ db.users.get p.ownerUserId = some u ∧
    u.role = .student ∧ u.status = .active ∧ db.qualifications.get p.ownerUserId = some q ∧
    q.approved = true

theorem visible_iff (hsound : RowSound db id row) :
    db.Visible now row ↔ row.logicalStatus now = .opened ∧ row.takenDown = false ∧
      db.OwnerEffective row.projectId ∧ db.publicContacts row ≠ [] := by
  have howner : ((db.projects.get row.projectId).any fun p =>
      ((db.users.get p.ownerUserId).any fun u => u.role = .student ∧ u.status = .active) &&
        (db.qualifications.get p.ownerUserId).any fun q => q.approved) = true ↔
      db.OwnerEffective row.projectId := by
    unfold RecruitmentDb.OwnerEffective
    simp only [Option.any_eq_true, Bool.and_eq_true, decide_eq_true_eq]
    constructor
    · rintro ⟨p, hp, ⟨u, hu, hrole, hstatus⟩, q, hq, happroved⟩
      exact ⟨p, u, q, hp, hu, hrole, hstatus, hq, happroved⟩
    · rintro ⟨p, u, q, hp, hu, hrole, hstatus, hq, happroved⟩
      exact ⟨p, hp, ⟨u, hu, hrole, hstatus⟩, q, hq, happroved⟩
  unfold RecruitmentDb.Visible
  rw [howner, logicalStatus_opened_iff]
  constructor
  · rintro ⟨hopen, hup, hahead, _, hvalid, hcontact⟩
    exact ⟨⟨hopen, hahead⟩, hup, hvalid, hcontact⟩
  · rintro ⟨⟨hopen, hahead⟩, hup, hvalid, hcontact⟩
    -- An open row has its revision, so the join of the query loses nothing.
    have hdraft : row.status ≠ .draft := fun heq => (by rw [heq] at hopen; cases hopen)
    obtain ⟨rid, hpublic⟩ := Option.ne_none_iff_exists'.mp (hsound.complete hdraft).1
    obtain ⟨r, hr, _⟩ := hsound.published rid hpublic
    refine ⟨hopen, hup, hahead, ?_, hvalid, hcontact⟩
    rw [hpublic, Option.bind_some, hr]
    rfl

end Query

section Contacts

variable {digests : RecruitmentDigests} {db db' : RecruitmentDb} {now : Instant}
  {w w' : RecruitmentWorld} {id id₀ : RecruitmentId} {row row₀ : RecruitmentDraft} {c : Contact}

def RecruitmentDb.publicRevision (db : RecruitmentDb) (id : RecruitmentId) : Option RevisionId :=
  (db.recruitments.get id).bind RecruitmentDraft.publicRevisionId

def RecruitmentDb.contactsOf (db : RecruitmentDb) (id : RecruitmentId) : List Contact :=
  (db.publicRevision id).elim [] db.liveContacts

theorem publicRevision_eq (hrow : db.recruitments.get id = some row) :
    db.publicRevision id = row.publicRevisionId := by
  unfold RecruitmentDb.publicRevision
  rw [hrow]
  rfl

theorem contactsOf_eq (hrow : db.recruitments.get id = some row) :
    db.contactsOf id = db.publicContacts row := by
  unfold RecruitmentDb.contactsOf
  rw [publicRevision_eq hrow]
  rfl

/-- What the public reads are the contacts of the public revision. -/
theorem getContacts_eq {viewer : Actor} {contacts : List Contact}
    (h : db.getContacts now viewer id = .ok contacts) : contacts = db.contactsOf id := by
  obtain ⟨_, h⟩ := ensure_bind_ok.mp h
  obtain ⟨row, hrow, h⟩ := orRefuse_bind_ok.mp h
  rw [contactsOf_eq (Option.filter_eq_some_iff.mp hrow).1]
  exact (Except.ok.inj h).symm

theorem contactsOf_congr (hpublic : db'.publicRevision id = db.publicRevision id)
    (hcontacts : ∀ rid, db.publicRevision id = some rid →
      ∀ channel, db'.contacts.get (rid, channel) = db.contacts.get (rid, channel)) :
    db'.contactsOf id = db.contactsOf id := by
  unfold RecruitmentDb.contactsOf
  rw [hpublic]
  cases h : db.publicRevision id with
  | none => rfl
  | some rid => exact liveContacts_congr (hcontacts rid h)

/-- A row that keeps its public revision changes no public revision. -/
theorem publicRevision_putRow (hrow : db.recruitments.get id₀ = some row)
    (hpublic : row₀.publicRevisionId = row.publicRevisionId) (id : RecruitmentId) :
    (db.putRow id₀ row₀).publicRevision id = db.publicRevision id := by
  change ((db.recruitments.put id₀ row₀).get id).bind _ = (db.recruitments.get id).bind _
  rw [Table.get_put]
  split
  next heq =>
    subst heq
    rw [hrow]
    exact hpublic
  next => rfl

structure TakesEffect (id : RecruitmentId) (payload : RecruitmentPayload)
    (db db' : RecruitmentDb) : Prop where
  new : db.receipts.get (id, payload.requestId) = none
  filed : db'.receipts.get (id, payload.requestId) ≠ none

/-- A publication or a reopening of a recruitment whose fields list a contact. -/
structure Authorises (id : RecruitmentId) (c : Contact) (db : RecruitmentDb)
    (call : Option RecruitmentCall) (db' : RecruitmentDb) : Prop where
  publication : ∃ actor projectId payload revision cycle,
    call = some (.run actor projectId id payload revision cycle) ∧
      (payload.command = .publish ∨ payload.command = .reopen) ∧ TakesEffect id payload db db'
  listed : ∃ row, db.recruitments.get id = some row ∧ c ∈ row.fields.contacts

/-- What a new command does to the contacts that are public. -/
theorem Effect.contactsOf {actor : Actor} {projectId : ProjectId} {payload : RecruitmentPayload}
    {revision : RevisionId} {cycle : CycleId} {row₁ : RecruitmentDraft} {db₁ : RecruitmentDb}
    (hw : RecruitmentsSound w) (hfresh : w.db.revisions.get revision = none)
    (hrow : w.db.recruitments.get id₀ = some row)
    (hnew : w.db.receipts.get (id₀, payload.requestId) = none)
    (heffect : Effect w.db now id₀ row revision cycle payload.command db₁ row₁)
    (hnot : c ∉ w.db.contactsOf id)
    (h : c ∈ (db₁.finish digests now id₀ row₁ payload).contactsOf id) :
    Authorises id c w.db (some (.run actor projectId id₀ payload revision cycle))
      (db₁.finish digests now id₀ row₁ payload) := by
  have hunfiled : ∀ channel, w.db.contacts.get (revision, channel) = none :=
    fun channel => hw.filed revision channel hfresh
  have hput : (db₁.finish digests now id₀ row₁ payload).recruitments =
      w.db.recruitments.put id₀ { row₁ with version := row₁.version + 1, updatedAt := now } := by
    change db₁.recruitments.put id₀ _ = _
    rw [heffect.tables.1]
  by_cases hid : id = id₀
  · subst hid
    have hafter : (db₁.finish digests now id row₁ payload).contactsOf id =
        db₁.publicContacts row₁ := by
      unfold RecruitmentDb.contactsOf RecruitmentDb.publicRevision
      rw [hput, Table.get_put_self]
      rfl
    rw [hafter] at h
    rw [contactsOf_eq hrow] at hnot
    have hfiled : TakesEffect id payload w.db (db₁.finish digests now id row₁ payload) := by
      refine ⟨hnew, ?_⟩
      change (db₁.receipts.put (id, payload.requestId) _).get (id, payload.requestId) ≠ none
      rw [Table.get_put_self]
      exact Option.some_ne_none _
    generalize hcommand : payload.command = command at heffect
    cases heffect with
    | published hpublication =>
      have hlisted : c ∈ row.fields.contacts := (mem_liveContacts_putPublication hunfiled).mp h
      rw [← hcommand] at hpublication
      exact ⟨⟨actor, projectId, payload, revision, cycle, rfl, hpublication, hfiled⟩,
        row, hrow, hlisted⟩
    | @revoked channel closeIfLast rid hpublic =>
      unfold RecruitmentDb.publicContacts at h hnot
      dsimp only at h
      rw [hpublic] at h hnot
      exact absurd (mem_liveContacts_putRevocation.mp h).1 hnot
    | _ => exact absurd h hnot
  · obtain ⟨_, hothers, _⟩ := heffect.frame hfresh hunfiled
    have hpublic : (db₁.finish digests now id₀ row₁ payload).publicRevision id =
        w.db.publicRevision id := by
      unfold RecruitmentDb.publicRevision
      rw [hput, Table.get_put_of_ne _ _ hid]
    rw [contactsOf_congr hpublic] at h
    · exact absurd h hnot
    · intro rid hrid
      change ∀ channel, db₁.contacts.get (rid, channel) = w.db.contacts.get (rid, channel)
      obtain ⟨row', hrow', hpublic'⟩ := Option.bind_eq_some_iff.mp hrid
      obtain ⟨r, hr, hof, _⟩ := (hw.rows id row' hrow').published rid hpublic'
      refine hothers rid ?_ ?_
      · rintro rfl
        rw [hfresh] at hr
        cases hr
      · intro hpublic₀
        obtain ⟨r₀, hr₀, hof₀, _⟩ := (hw.rows id₀ row hrow).published rid hpublic₀
        obtain rfl := Option.some.inj (hr.symm.trans hr₀)
        exact hid (hof.symm.trans hof₀)

/-- A contact becomes public by a publication that lists it only. -/
theorem contact_step {call : Option RecruitmentCall} (hw : RecruitmentsSound w)
    (hstep : RecruitmentStep digests w call w') (hnot : c ∉ w.db.contactsOf id)
    (h : c ∈ w'.db.contactsOf id) : Authorises id c w.db call w'.db := by
  have hsame : ∀ {db' : RecruitmentDb}, c ∈ db'.contactsOf id →
      db'.publicRevision id = w.db.publicRevision id → db'.contacts = w.db.contacts → False := by
    intro db' h hpublic hcontacts
    rw [contactsOf_congr hpublic fun rid _ channel => by rw [hcontacts]] at h
    exact hnot h
  cases hstep with
  | elsewhere helse =>
    refine (hsame h ?_ helse.contacts).elim
    obtain ⟨takenDown, heq⟩ := helse.recruitments id
    unfold RecruitmentDb.publicRevision
    rw [heq]
    cases w.db.recruitments.get id <;> rfl
  | @call now call hnow hfresh =>
    dsimp only at h ⊢
    have hchange : RecruitmentChange digests now w.db call (call.after digests now w.db) :=
      recruitment_change call
    generalize call.after digests now w.db = db' at h hchange
    cases hchange with
    | ran hrow hnew hversion heffect => exact heffect.contactsOf hw hfresh.1 hrow hnew hnot h
    | @created actor projectId requestId fields id₀ =>
      refine (hsame h ?_ rfl).elim
      unfold RecruitmentDb.publicRevision
      change ((w.db.recruitments.put id₀ _).get id).bind _ = _
      rw [Table.get_put]
      split
      next heq =>
        subst heq
        have hnone : w.db.recruitments.get id = none := hfresh
        rw [hnone]
        rfl
      next => rfl
    | expired hrow => exact (hsame h (publicRevision_putRow hrow (by rfl) id) rfl).elim
    | @reminded id₀ delivery row₀ project cycle due hrow =>
      obtain ⟨hrecruitments, _, hcontacts, _⟩ := @recordReminder_tables w.db delivery
        ⟨id₀, cycle, due, project.ownerUserId, .pending, false⟩
      refine (hsame h ?_ hcontacts).elim
      rw [publicRevision_putRow ((congrArg (·.get id₀) hrecruitments).trans hrow) (by rfl)]
      unfold RecruitmentDb.publicRevision
      rw [hrecruitments]
    | _ => exact (hsame h rfl rfl).elim

/-- After the revocation of a channel none of its contacts is public. -/
theorem revoked_contacts {actor : Actor} {projectId : ProjectId} {payload : RecruitmentPayload}
    {channel : ContactChannel} {closeIfLast : Bool} {revision : RevisionId} {cycle : CycleId}
    (hstep : RecruitmentStep digests w
      (some (.run actor projectId id payload revision cycle)) w')
    (hcommand : payload.command = .revokeContact channel closeIfLast)
    (heffect : TakesEffect id payload w.db w'.db) (hchannel : c.channel = channel) :
    c ∉ w'.db.contactsOf id := by
  cases hstep with
  | @call now call hnow hfresh =>
    dsimp only at heffect ⊢
    have hchange : RecruitmentChange digests now w.db
        (.run actor projectId id payload revision cycle)
        (RecruitmentCall.after digests now w.db
          (.run actor projectId id payload revision cycle)) := recruitment_change _
    generalize RecruitmentCall.after digests now w.db
      (.run actor projectId id payload revision cycle) = db' at heffect hchange ⊢
    cases hchange with
    | nothing => exact absurd heffect.new heffect.filed
    | @ran _ _ _ _ _ _ row row₁ db₁ hrow hnew hversion hdone =>
      rw [hcommand] at hdone
      cases hdone with
      | published hpublication =>
        rcases hpublication with heq | heq
        · cases heq
        · cases heq
      | @revoked _ _ rid hpublic hlive =>
        intro h
        unfold RecruitmentDb.contactsOf RecruitmentDb.publicRevision at h
        change c ∈ (((w.db.recruitments.put id _).get id).bind _).elim [] _ at h
        rw [Table.get_put_self, Option.bind_some] at h
        dsimp only at h
        rw [hpublic, Option.elim_some] at h
        exact (mem_liveContacts_putRevocation.mp h).2 hchannel

end Contacts

section Lifecycle

/-- The lifecycle of the recruitments in every run. An open recruitment has its public revision,
its cycle and a contact; the modes exclude each other; a switch of the mode and an opening start a
new cycle; the clock expires what is due; the list of the public is exact; and a revoked contact
comes back with a publication that lists it. -/
theorem recruitment_lifecycle (digests : RecruitmentDigests) {w : RecruitmentWorld}
    (hw : (recruitmentSystem digests).Reach w) :
    (∀ id row, w.db.recruitments.get id = some row →
      (row.status = .opened → row.cycleId ≠ none ∧ ∃ rid r c, row.publicRevisionId = some rid ∧
        w.db.revisions.get rid = some r ∧ r.recruitmentId = id ∧ c ∈ w.db.liveContacts rid) ∧
      (row.status ≠ .draft → (row.deadlineAt = none ↔ row.nextRemindAt ≠ none) ∧
        ∃ rid r, row.publicRevisionId = some rid ∧ w.db.revisions.get rid = some r ∧
          r.recruitmentId = id ∧ r.content.deadlineAt = row.deadlineAt)) ∧
    (∀ call w' id row row', (recruitmentSystem digests).step w call w' →
      w.db.recruitments.get id = some row → w'.db.recruitments.get id = some row' →
      (row'.deadlineAt.isNone ≠ row.deadlineAt.isNone ∨
        row.logicalStatus w'.now ≠ .opened ∧ row'.logicalStatus w'.now = .opened) →
      ∃ cycle, row'.cycleId = some cycle ∧ w.cycles.get cycle = none ∧
        row.cycleId ≠ some cycle) ∧
    (∀ now id row, w.db.recruitments.get id = some row →
      (∀ d, row.deadlineAt = some d → now < d) → w.db.expireIfDue now id = w.db) ∧
    (∀ now id row, (id, row) ∈ w.db.query now ↔ w.db.recruitments.get id = some row ∧
      row.logicalStatus now = .opened ∧ row.takenDown = false ∧
      w.db.OwnerEffective row.projectId ∧ w.db.publicContacts row ≠ []) ∧
    (∀ actor projectId id payload channel closeIfLast revision cycle w₁ l w₂ now viewer contacts c,
      (recruitmentSystem digests).step w
        (some (.run actor projectId id payload revision cycle)) w₁ →
      payload.command = .revokeContact channel closeIfLast →
      TakesEffect id payload w.db w₁.db → (recruitmentSystem digests).Run w₁ l w₂ →
      w₂.db.getContacts now viewer id = .ok contacts → c ∈ contacts → c.channel = channel →
      ∃ u call u', (u, call, u') ∈ l ∧ Authorises id c u.db call u'.db) := by
  have hsound : RecruitmentsSound w := recruitments_sound hw
  refine ⟨?_, ?_, ?_, ?_, ?_⟩
  · intro id row hrow
    have hrow := hsound.rows id row hrow
    constructor
    · intro hopen
      have hdraft : row.status ≠ .draft := fun heq => (by rw [heq] at hopen; cases hopen)
      obtain ⟨hpublic, hcycle⟩ := hrow.complete hdraft
      obtain ⟨rid, hpublic⟩ := Option.ne_none_iff_exists'.mp hpublic
      obtain ⟨r, hr, hof, _⟩ := hrow.published rid hpublic
      have hcontact := hrow.contact hopen
      unfold RecruitmentDb.publicContacts at hcontact
      rw [hpublic, Option.elim_some] at hcontact
      obtain ⟨c, hc⟩ := List.exists_mem_of_ne_nil _ hcontact
      exact ⟨hcycle, rid, r, c, hpublic, hr, hof, hc⟩
    · intro hdraft
      obtain ⟨rid, hpublic⟩ := Option.ne_none_iff_exists'.mp (hrow.complete hdraft).1
      obtain ⟨r, hr, hof, hdeadline⟩ := hrow.published rid hpublic
      exact ⟨hrow.one_mode hdraft, rid, r, hpublic, hr, hof, hdeadline⟩
  · intro call w' id row row' hstep hrow hrow' hturn
    exact recruitment_cycle hsound hstep hrow hrow' hturn
  · intro now id row hrow hahead
    have hnotdue : ¬ (row.status = .opened ∧ row.deadlineAt.any (fun d => d ≤ now) = true) := by
      rintro ⟨_, hdue⟩
      obtain ⟨d, hd, hle⟩ := (Option.any_eq_true _ _).mp hdue
      exact absurd (hahead d hd) (not_lt.mpr (of_decide_eq_true hle))
    unfold RecruitmentDb.expireIfDue
    rw [hrow]
    exact if_neg hnotdue
  · intro now id row
    unfold RecruitmentDb.query
    rw [Table.mem_scan]
    constructor
    · rintro ⟨hrow, hvisible⟩
      exact ⟨hrow, (visible_iff (hsound.rows id row hrow)).mp hvisible⟩
    · rintro ⟨hrow, hconditions⟩
      exact ⟨hrow, (visible_iff (hsound.rows id row hrow)).mpr hconditions⟩
  · intro actor projectId id payload channel closeIfLast revision cycle w₁ l w₂ now viewer contacts
      c hstep hcommand heffect hrun hread hc hchannel
    have hgone : c ∉ w₁.db.contactsOf id := revoked_contacts hstep hcommand heffect hchannel
    rw [getContacts_eq hread] at hc
    obtain ⟨u, call, u', hmem, hcross, hnot, hin⟩ :=
      hrun.crosses (P := fun u => c ∈ u.db.contactsOf id) hgone hc
    obtain ⟨_, l', hbefore⟩ := hrun.step_mem hmem
    have hu : RecruitmentsSound u := recruitments_sound (hbefore.reach (.step hw hstep))
    exact ⟨u, call, u', hmem, contact_step hu hcross hnot hin⟩

end Lifecycle

section Post

def postFields : RecruitmentFields where
  content :=
    { projectTitle := ['t']
      direction := ['d']
      stage := ['s']
      introduction := ['i']
      ideaStage := some false
      goal := []
      initialPlan := []
      roleName := ['r']
      headcount := some 1
      duties := ['w']
      requirements := ['q']
      timeCommitment := ['h']
      beginnerFriendly := some true
      deadlineAt := some 10 }
  contacts := [⟨.email, ['e']⟩]
  unique_channels := List.nodup_singleton _

def postDigests : RecruitmentDigests where
  creation _ := ['c']
  payload p := p.command.action.toList ++ List.replicate p.version 'v'

def postOwner : Actor := ⟨1, .student⟩

def postDb : RecruitmentDb where
  users := Table.empty.put 1 ⟨.student, .active⟩
  qualifications := Table.empty.put 1 ⟨true, 2, 1, ⟨['a'], ['b'], ['c'], ['d']⟩, 0⟩
  projects := Table.empty.put 1 ⟨1, ⟨['t'], ['s'], ['d'], ['g'], ['m']⟩, 1⟩
  recruitments := .empty
  revisions := .empty
  contacts := .empty
  receipts := .empty
  reminders := .empty

def postCall (now : Instant) (w : RecruitmentWorld) (c : RecruitmentCall) : RecruitmentWorld :=
  ⟨c.after postDigests now w.db, now, c.drawn w.cycles⟩

def postDraft (fields : RecruitmentFields) : RecruitmentWorld :=
  ⟨postDb.putRow 1 (RecruitmentDb.newDraft postDigests 0 1 1 fields), 0, .empty⟩

def postPublished : RecruitmentWorld :=
  postCall 1 (postDraft postFields) (.run postOwner 1 1 ⟨.publish, 1, 1⟩ 1 1)

def postExpired : RecruitmentWorld := postCall 20 postPublished (.expireIfDue 1)

def postRevoked : RecruitmentWorld :=
  postCall 21 postExpired (.run postOwner 1 1 ⟨.revokeContact .email true, 3, 2⟩ 2 2)

theorem reach_draft (fields : RecruitmentFields) :
    (recruitmentSystem postDigests).Reach (postDraft fields) := by
  have hinit : RecruitmentWorld.Initial ⟨postDb, 0, .empty⟩ := ⟨rfl, rfl, rfl, rfl, rfl, rfl⟩
  have hnone : (postDb.recruitments.find fun _ row =>
      row.projectId = 1 ∧ row.creationRequestId = 1) = none :=
    Table.find_eq_none fun k r h => (by cases h)
  have hcreate : postDb.create postDigests 0 postOwner 1 1 fields 1 = .ok (postDraft fields).db := by
    unfold RecruitmentDb.create
    rw [hnone]
    rfl
  have hafter : (RecruitmentCall.create postOwner 1 1 fields 1).after postDigests 0 postDb =
      (postDraft fields).db := by
    simp only [RecruitmentCall.after, hcreate]
  have hstep : RecruitmentStep postDigests ⟨postDb, 0, .empty⟩
      (some (.create postOwner 1 1 fields 1))
      ⟨(RecruitmentCall.create postOwner 1 1 fields 1).after postDigests 0 postDb, 0, .empty⟩ :=
    .call _ (le_refl 0) rfl
  rw [hafter] at hstep
  exact .step (.init hinit) hstep

theorem reach_published : (recruitmentSystem postDigests).Reach postPublished :=
  .step (reach_draft postFields) (.call _ (by decide) ⟨rfl, rfl⟩)

theorem reach_expired : (recruitmentSystem postDigests).Reach postExpired :=
  .step reach_published (.call _ (by decide) trivial)

theorem post_published : ∃ row, postPublished.db.recruitments.get 1 = some row ∧
    row.status = .opened ∧ row.publicRevisionId = some 1 := ⟨_, rfl, rfl, rfl⟩

/-- The revocation of the last contact closes the expired post in the cycle that it had. -/
theorem expired_closed_in_its_cycle :
    ¬ ∀ (digests : RecruitmentDigests) (w w' : RecruitmentWorld) (call : Option RecruitmentCall)
      (id : RecruitmentId) (row row' : RecruitmentDraft),
      (recruitmentSystem digests).Reach w → (recruitmentSystem digests).step w call w' →
      w.db.recruitments.get id = some row → w'.db.recruitments.get id = some row' →
      row.status ≠ .opened → row.logicalStatus w.now ≠ .opened →
      row'.logicalStatus w'.now ≠ row.logicalStatus w.now → row'.cycleId ≠ row.cycleId := by
  intro h
  have hstep : (recruitmentSystem postDigests).step postExpired
      (some (.run postOwner 1 1 ⟨.revokeContact .email true, 3, 2⟩ 2 2)) postRevoked :=
    .call _ (by decide) ⟨rfl, rfl⟩
  exact h postDigests _ _ _ 1 _ _ reach_expired hstep rfl rfl (by decide) (by decide) (by decide) rfl

/-- The published post has its contact and is listed until its deadline. -/
theorem post_lifecycle :
    (∃ c, c ∈ postPublished.db.liveContacts 1) ∧
      ∃ row, (1, row) ∈ postPublished.db.query 9 := by
  have hall := recruitment_lifecycle postDigests reach_published
  obtain ⟨row, hrow, hopen, hpublic⟩ := post_published
  constructor
  · obtain ⟨_, rid, r, c, hrid, _, _, hc⟩ := (hall.1 1 row hrow).1 hopen
    obtain rfl := Option.some.inj (hpublic.symm.trans hrid)
    exact ⟨c, hc⟩
  · exact ⟨_, (hall.2.2.2.1 9 1 _).mpr ⟨rfl, by decide, rfl,
      ⟨_, _, _, rfl, rfl, rfl, rfl, rfl, rfl⟩, by decide⟩⟩

end Post

end CampusQuest.Innovation
