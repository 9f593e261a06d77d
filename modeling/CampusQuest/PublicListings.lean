import CampusQuest.Groups
import CampusQuest.RecruitmentVisibility
import CampusQuest.ReviewWorkflow
import Mathlib.Data.Prod.Lex
import Mathlib.Order.WithBot

/-!
The public listings of achievements and of recruitments. Each selects the frozen content of what
is visible, counts all of it and answers with one page. An approved achievement has its times and
its project, and a published recruitment is filled in, so no item of a page is refused.
-/

namespace CampusQuest.Innovation

open Groups Guards Runs Tables
open Lifecycle (Account UserStatus)

section Approved

variable {digests : Fingerprints} {now : Instant} {db db' : ReviewDb} {w : ReviewWorld}
  {id : AchievementId} {workflow : AchievementWorkflow}

def ReviewDb.Belongs (db : ReviewDb) (id : AchievementId) : Prop :=
  ∃ a p, db.achievements.get id = some a ∧ db.projects.get a.projectId = some p

/-- A workflow that has left its draft belongs to a project, and an approved one has the time of
its latest approval. -/
structure ReviewDb.Rests (db : ReviewDb) (id : AchievementId) (workflow : AchievementWorkflow) :
    Prop where
  child : workflow.firstReviewState ≠ .draft → db.Belongs id
  updated : workflow.firstReviewState = .approved → workflow.latestUpdateAt ≠ none

def ReviewDb.AllRest (db : ReviewDb) : Prop :=
  ∀ id workflow, db.workflows.get id = some workflow → db.Rests id workflow

theorem ReviewDb.Belongs.elsewhere (h : db.Belongs id) (helse : Elsewhere db db') :
    db'.Belongs id := by
  obtain ⟨a, p, ha, hp⟩ := h
  obtain ⟨a', ha', hproject⟩ := helse.achievements id a ha
  obtain ⟨p', hp', _⟩ := helse.projects a.projectId p hp
  rw [← hproject] at hp'
  exact ⟨a', p', ha', hp'⟩

theorem Change.tables {call : ReviewCall} (h : Change digests now db call db') :
    db'.achievements = db.achievements ∧ db'.projects = db.projects := by
  cases h <;> exact ⟨rfl, rfl⟩

theorem ReviewDb.Belongs.change {call : ReviewCall} (h : db.Belongs id)
    (hchange : Change digests now db call db') : db'.Belongs id := by
  unfold ReviewDb.Belongs at h ⊢
  rw [hchange.tables.1, hchange.tables.2]
  exact h

theorem newWorkflow_rests : db.Rests id newWorkflow where
  child h := absurd rfl h
  updated h := (by cases h)

theorem ReviewDb.AllRest.getD (h : db.AllRest) :
    db.Rests id ((db.workflows.get id).getD newWorkflow) := by
  cases hget : db.workflows.get id with
  | none => exact newWorkflow_rests
  | some workflow => exact h id workflow hget

theorem ReviewDb.Freezes.rests {actor : Actor} {projectId : ProjectId}
    {payload : SavedRevisionCommand} {operation : ReviewOperation} {revision : AchievementRevision}
    (h : db.Freezes digests now actor projectId id payload operation revision workflow)
    (hdb : db.AllRest) :
    db.Rests id
      { workflow with
        firstReviewState :=
          if revision.operation = .submit then .submitted else workflow.firstReviewState
        version := workflow.version + 1 } := by
  have hbefore : db.Rests id workflow := by
    rw [h.before]
    exact hdb.getD
  constructor
  · intro _
    obtain ⟨p, hp, _⟩ := h.owner
    obtain ⟨a, ha, rfl⟩ := h.child
    exact ⟨a, p, ha, hp⟩
  · intro happroved
    dsimp only at happroved ⊢
    split at happroved
    · cases happroved
    · exact hbefore.updated happroved

theorem ReviewDb.Rests.withdrawn (h : db.Rests id workflow)
    (hstate : workflow.firstReviewState = .submitted ∨ workflow.firstReviewState = .approved) :
    db.Rests id
      { workflow with
        firstReviewState :=
          if workflow.firstReviewState = .submitted then .draft else workflow.firstReviewState
        version := workflow.version + 1 } := by
  constructor
  · intro _
    refine h.child fun hdraft => ?_
    rcases hstate with heq | heq <;> rw [hdraft] at heq <;> cases heq
  · intro happroved
    dsimp only at happroved ⊢
    split at happroved
    · cases happroved
    · exact h.updated happroved

theorem ReviewDb.Rests.decided {case : AchievementReviewCase} {operation : ReviewOperation}
    (h : db.Rests id workflow)
    (hstate : workflow.firstReviewState = ReviewDb.expectedState operation)
    (payload : ReviewDecisionCommand) :
    db.Rests id (decidedWorkflow now case operation workflow payload) := by
  constructor
  · intro _
    refine h.child fun hdraft => ?_
    rw [hdraft] at hstate
    cases operation <;> cases hstate
  · intro happroved
    dsimp only [decidedWorkflow] at happroved ⊢
    cases hdecision : payload.decision with
    | approved =>
      rw [if_pos rfl]
      exact Option.some_ne_none _
    | returned =>
      rw [if_neg (fun heq => (by cases heq))]
      split at happroved
      · rw [hdecision] at happroved
        cases happroved
      · exact h.updated happroved

theorem ReviewDb.AllRest.change {call : ReviewCall} (hdb : db.AllRest)
    (h : Change digests now db call db') : db'.AllRest := by
  have hkeep : ∀ {id workflow}, db.Rests id workflow → db'.Rests id workflow :=
    fun hrests => ⟨fun hdraft => (hrests.child hdraft).change h, hrests.updated⟩
  -- A command writes the workflow of one achievement at most.
  have hput : ∀ id₀ workflow₀, db.Rests id₀ workflow₀ →
      db'.workflows = db.workflows.put id₀ workflow₀ → db'.AllRest := by
    intro id₀ workflow₀ hrests heq id workflow hget
    rw [heq] at hget
    rcases Table.get_put_eq_some hget with ⟨rfl, rfl⟩ | ⟨_, hget⟩
    · exact hkeep hrests
    · exact hkeep (hdb id workflow hget)
  have hsame : db'.workflows = db.workflows → db'.AllRest := by
    intro heq id workflow hget
    rw [heq] at hget
    exact hkeep (hdb id workflow hget)
  cases h with
  | looked => exact hput _ _ hdb.getD rfl
  | submitted hfreezes => exact hput _ _ (hfreezes.rests hdb) rfl
  | withdrawn _ _ _ hbefore hstate =>
    refine hput _ _ (ReviewDb.Rests.withdrawn ?_ hstate) rfl
    rw [hbefore]
    exact hdb.getD
  | @decided _ _ payload _ _ _ _ _ hscope _ _ _ hstate =>
    exact hput _ _ ((hdb _ _ hscope.reviewed).decided hstate payload) rfl
  | _ => exact hsame rfl

theorem allRest_of_reach (h : (reviewSystem digests).Reach w) : w.db.AllRest := by
  induction h with
  | init hinit =>
    intro id workflow hget
    rw [hinit.workflows] at hget
    cases hget
  | step _ hstep ih =>
    cases hstep with
    | call c hnow hfresh => exact ih.change (change_after c)
    | elsewhere helse =>
      intro id workflow hget
      rw [helse.workflows] at hget
      exact ⟨fun hdraft => ((ih id workflow hget).child hdraft).elsewhere helse,
        (ih id workflow hget).updated⟩

end Approved

section Published

variable {digests : RecruitmentDigests} {now : Instant} {db db' : RecruitmentDb}
  {w : RecruitmentWorld}

def RecruitmentContent.Complete (c : RecruitmentContent) : Prop :=
  c.ideaStage ≠ none ∧ c.beginnerFriendly ≠ none ∧ c.headcount ≠ none

def RecruitmentDb.AllComplete (db : RecruitmentDb) : Prop :=
  ∀ rid r, db.revisions.get rid = some r → r.content.Complete

theorem validatePublication_complete {fields : RecruitmentFields}
    (h : fields.validatePublication now = .ok ()) : fields.content.Complete := by
  obtain ⟨_, h⟩ := ensure_bind_ok.mp h
  exact (ensure_bind_ok.mp h).1

theorem RecruitmentDb.AllComplete.change {call : RecruitmentCall} (hdb : db.AllComplete)
    (h : RecruitmentChange digests now db call db') : db'.AllComplete := by
  cases h with
  | @ran _ _ _ payload _ _ _ _ _ _ _ _ heffect =>
    generalize payload.command = command at heffect
    cases heffect with
    | published _ hvalid =>
      intro rid r hr
      rcases Table.get_put_eq_some hr with ⟨_, rfl⟩ | ⟨_, hr⟩
      · exact validatePublication_complete hvalid
      · exact hdb rid r hr
    | _ => exact hdb
  | @reminded _ delivery _ _ _ _ _ _ _ _ _ _ _ =>
    intro rid r hr
    refine hdb rid r (Eq.trans ?_ hr)
    exact congrArg (·.get rid) (@recordReminder_tables db delivery _).2.1.symm
  | _ => exact hdb

theorem allComplete_of_reach (h : (recruitmentSystem digests).Reach w) : w.db.AllComplete := by
  induction h with
  | init hinit =>
    intro rid r hr
    rw [hinit.revisions] at hr
    cases hr
  | step _ hstep ih =>
    cases hstep with
    | call c hnow hfresh => exact ih.change (recruitment_change c)
    | elsewhere helse =>
      intro rid r hr
      rw [helse.revisions] at hr
      exact ih rid r hr

end Published

section Rows

/-- The rows of the review and of the recruitments, over the same accounts and projects. -/
structure PublicSite where
  review : ReviewDb
  recruitment : RecruitmentDb
  /-- The achievements that the moderation has taken down. -/
  takenDown : Finset AchievementId
  users_eq : recruitment.users = review.users
  qualifications_eq : recruitment.qualifications = review.qualifications
  projects_eq : recruitment.projects = review.projects

/-- A run of the reviews has led to the one part and a run of the recruitments to the other. Each
of the two sees the commands of the other as changes made elsewhere. -/
structure PublicSite.Reachable (site : PublicSite) : Prop where
  review : ∃ digests w, (reviewSystem digests).Reach w ∧ w.db = site.review
  recruitment : ∃ digests w, (recruitmentSystem digests).Reach w ∧ w.db = site.recruitment

/-- A time in a descending order, where a missing one comes first. -/
def stampOf (time : Option Instant) : WithTop Instant := time.elim ⊤ fun t => (t : WithTop Instant)

def unhandled (name : String) : RecruitmentError := .account (.runtime name)

def oneOrNone {α : Type} : List α → Except RecruitmentError (Option α)
  | [] => .ok none
  | [row] => .ok (some row)
  | _ => .error (unhandled "MultipleResultsFound")

structure PublicAchievementProjection where
  id : AchievementId
  firstApprovedAt : Option Instant
  latestUpdateAt : Option Instant
  projectContent : ProjectContent
  achievementContent : AchievementContent
  operation : ReviewOperation
  latestReviewedAt : Option Instant
  deriving DecidableEq

structure PublicAchievementResponse where
  id : AchievementId
  project : ProjectContent
  achievement : AchievementContent
  firstApprovedAt : Instant
  updatedAt : Instant
  latestReviewedAt : Option Instant
  updatedAfterFirstReview : Bool
  deriving DecidableEq

structure PublicRecruitmentProjection where
  id : RecruitmentId
  projectId : ProjectId
  content : RecruitmentContent
  createdAt : Instant
  number : ℕ
  revisionId : RevisionId
  deriving DecidableEq

structure PublicRecruitmentContent where
  projectTitle : Text
  direction : Text
  stage : Text
  introduction : Text
  ideaStage : Bool
  goal : Text
  initialPlan : Text
  roleName : Text
  headcount : ℕ
  duties : Text
  requirements : Text
  timeCommitment : Text
  beginnerFriendly : Bool
  deadlineAt : Option Instant
  deriving DecidableEq

structure PublicRecruitmentResponse where
  id : RecruitmentId
  projectId : ProjectId
  revisionNumber : ℕ
  content : PublicRecruitmentContent
  contactChannels : List ContactChannel
  publishedAt : Instant
  deriving DecidableEq

structure Listing (α : Type) where
  items : List α
  total : ℕ
  limit : ℕ
  offset : ℕ
  deriving DecidableEq

structure PublicProjectFilters where
  q : Text := []
  direction : Text := []
  stage : Text := []
  recruitingOnly : Bool := false
  beginnerFriendly : Option Bool := none
  deriving DecidableEq

end Rows

section Search

/-- The text between wildcards, with its own wildcards escaped. -/
def pattern (value : Text) : Text :=
  '%' :: value.flatMap (fun c => if c = '\\' ∨ c = '%' ∨ c = '_' then ['\\', c] else [c]) ++ ['%']

/-- `LIKE` with the backslash as the escape. -/
def likeMatch : Text → Text → Bool
  | [], text => text.isEmpty
  | '\\' :: c :: rest, text => text.head? = some c && likeMatch rest text.tail
  | '%' :: rest, text => text.tails.any (likeMatch rest)
  | '_' :: rest, text => !text.isEmpty && likeMatch rest text.tail
  | c :: rest, text => text.head? = some c && likeMatch rest text.tail

theorem likeMatch_escaped (value text : Text) :
    likeMatch (value.flatMap (fun c => if c = '\\' ∨ c = '%' ∨ c = '_' then ['\\', c] else [c]) ++
      ['%']) text = true ↔ value <+: text := by
  induction value generalizing text with
  | nil =>
    have hmatch : likeMatch ['%'] text = true :=
      List.any_eq_true.mpr ⟨[], (List.mem_tails _ _).mpr List.nil_suffix, rfl⟩
    exact iff_of_true hmatch List.nil_prefix
  | cons c value ih =>
    rw [List.flatMap_cons]
    generalize value.flatMap (fun c => if c = '\\' ∨ c = '%' ∨ c = '_' then ['\\', c] else [c]) =
      rest at ih ⊢
    have hmatch : likeMatch ((if c = '\\' ∨ c = '%' ∨ c = '_' then ['\\', c] else [c]) ++ rest ++
        ['%']) text = (text.head? = some c && likeMatch (rest ++ ['%']) text.tail) := by
      split
      next => simp [likeMatch]
      next hplain =>
        push Not at hplain
        simp [likeMatch, hplain]
    rw [hmatch, Bool.and_eq_true, decide_eq_true_iff, ih]
    cases text with
    | nil => simp
    | cons x text => simp [List.cons_prefix_cons, eq_comm]

/-- A search finds the value as it is written, wherever it stands. -/
theorem likeMatch_pattern (value text : Text) :
    likeMatch (pattern value) text = true ↔ value <:+: text := by
  unfold pattern
  rw [List.cons_append, likeMatch, List.any_eq_true, List.infix_iff_prefix_suffix]
  constructor
  · rintro ⟨tail, htail, hmatch⟩
    exact ⟨tail, (likeMatch_escaped value tail).mp hmatch, (List.mem_tails _ _).mp htail⟩
  · rintro ⟨tail, hprefix, hsuffix⟩
    exact ⟨tail, (List.mem_tails _ _).mpr hsuffix, (likeMatch_escaped value tail).mpr hprefix⟩

/-- `ILIKE`, with the small letters of the locale. -/
def ilike (lower : Text → Text) (text value : Text) : Bool := likeMatch (lower value) (lower text)

def Searches (lower : Text → Text) (value : Text) (texts : List Text) : Prop :=
  value ≠ [] → texts.any (fun text => ilike lower text (pattern value)) = true

instance (lower : Text → Text) (value : Text) (texts : List Text) :
    Decidable (Searches lower value texts) := inferInstanceAs (Decidable (_ → _))

end Search

namespace PublicAchievementProjection

def response (row : PublicAchievementProjection) : Option PublicAchievementResponse :=
  row.firstApprovedAt.bind fun firstApprovedAt => row.latestUpdateAt.map fun updatedAt =>
    { id := row.id
      project := row.projectContent
      achievement := row.achievementContent
      firstApprovedAt := firstApprovedAt
      updatedAt := updatedAt
      latestReviewedAt := row.latestReviewedAt
      updatedAfterFirstReview := row.operation = .update }

/-- The order of the listings: the latest update first, and of equal ones the greater id. -/
def order (row : PublicAchievementProjection) : WithTop Instant ×ₗ AchievementId :=
  toLex (stampOf row.latestUpdateAt, row.id)

end PublicAchievementProjection

def achievementPage (rows : List PublicAchievementProjection) (total limit offset : ℕ) :
    Except RecruitmentError (Listing PublicAchievementResponse) := do
  let items ← orRefuse (unhandled "ValidationError")
    ((page limit offset (descending PublicAchievementProjection.order rows)).mapM
      PublicAchievementProjection.response)
  .ok ⟨items, total, limit, offset⟩

namespace PublicRecruitmentProjection

def publicContent (c : RecruitmentContent) : Option PublicRecruitmentContent :=
  c.ideaStage.bind fun ideaStage => c.headcount.bind fun headcount =>
    c.beginnerFriendly.map fun beginnerFriendly =>
      { projectTitle := c.projectTitle
        direction := c.direction
        stage := c.stage
        introduction := c.introduction
        ideaStage := ideaStage
        goal := c.goal
        initialPlan := c.initialPlan
        roleName := c.roleName
        headcount := headcount
        duties := c.duties
        requirements := c.requirements
        timeCommitment := c.timeCommitment
        beginnerFriendly := beginnerFriendly
        deadlineAt := c.deadlineAt }

def order (row : PublicRecruitmentProjection) : Instant ×ₗ RecruitmentId :=
  toLex (row.createdAt, row.id)

end PublicRecruitmentProjection

namespace PublicSite

variable (site : PublicSite)

section Achievements

/-- `_active`: an account that waits for its approval reads as well. -/
def requireReader (actor : Actor) : Except RecruitmentError Unit :=
  ensure ((site.review.users.get actor.userId).any fun u =>
      (u.status = .active ∨ u.status = .pendingApproval) ∧ u.role = actor.role)
    (.permissionDenied "账号当前不可用")

def latestReviewedAt (rid : RevisionId) : Option Instant :=
  (site.review.cases.find fun _ case => case.revisionId = rid ∧ case.status = .approved).bind
    fun found => found.2.decidedAt

def achievementProjection (id : AchievementId) (workflow : AchievementWorkflow) :
    Option PublicAchievementProjection :=
  workflow.publicRevisionId.bind fun rid => (site.review.revisions.get rid).map fun r =>
    { id := id
      firstApprovedAt := workflow.firstApprovedAt
      latestUpdateAt := workflow.latestUpdateAt
      projectContent := r.projectContent
      achievementContent := r.achievementContent
      operation := r.operation
      latestReviewedAt := site.latestReviewedAt rid }

def achievementQuery : List PublicAchievementProjection :=
  (site.review.workflows.scan (fun id workflow => workflow.firstReviewState = .approved ∧
      id ∉ site.takenDown) fun workflow => workflow.version).filterMap fun entry =>
    site.achievementProjection entry.1 entry.2

def achievementsOf (projectId : ProjectId) : List PublicAchievementProjection :=
  site.achievementQuery.filter fun row =>
    (site.review.achievements.get row.id).any fun draft => draft.projectId = projectId

def listAchievements (actor : Actor) (limit offset : ℕ) :
    Except RecruitmentError (Listing PublicAchievementResponse) := do
  site.requireReader actor
  achievementPage site.achievementQuery site.achievementQuery.length limit offset

end Achievements

section Recruitments

variable (lower : Text → Text) (now : Instant)

def recruitmentProjection (id : RecruitmentId) (row : RecruitmentDraft) :
    Option PublicRecruitmentProjection :=
  row.publicRevisionId.bind fun rid => (site.recruitment.revisions.get rid).map fun r =>
    { id := id
      projectId := row.projectId
      content := r.content
      createdAt := r.createdAt
      number := r.number
      revisionId := rid }

def recruitmentQuery : List PublicRecruitmentProjection :=
  (site.recruitment.query now).filterMap fun entry => site.recruitmentProjection entry.1 entry.2

def filtered (filters : PublicProjectFilters) (projectId : Option ProjectId) :
    List PublicRecruitmentProjection :=
  (site.recruitmentQuery now).filter fun row =>
    projectId.all (fun id => row.projectId = id) ∧
      Searches lower filters.q [row.content.projectTitle, row.content.introduction,
        row.content.roleName, row.content.duties, row.content.requirements] ∧
      Searches lower filters.direction [row.content.direction] ∧
      Searches lower filters.stage [row.content.stage] ∧
      filters.beginnerFriendly.all (fun b => row.content.beginnerFriendly = some b)

/-- `responses`: a content with the channels of its contacts that are not revoked. -/
def recruitmentResponse (row : PublicRecruitmentProjection) : Option PublicRecruitmentResponse :=
  (PublicRecruitmentProjection.publicContent row.content).map fun content =>
    { id := row.id
      projectId := row.projectId
      revisionNumber := row.number
      content := content
      contactChannels := (site.recruitment.liveContacts row.revisionId).map Contact.channel
      publishedAt := row.createdAt }

def recruitmentPage (filters : PublicProjectFilters) (limit offset : ℕ)
    (projectId : Option ProjectId) : Except RecruitmentError (Listing PublicRecruitmentResponse) :=
  let rows := site.filtered lower now filters projectId
  do
    let items ← orRefuse (unhandled "ValidationError")
      ((page limit offset (descending PublicRecruitmentProjection.order rows)).mapM
        site.recruitmentResponse)
    .ok ⟨items, rows.length, limit, offset⟩

def listRecruitments (actor : Actor) (filters : PublicProjectFilters) (limit offset : ℕ) :
    Except RecruitmentError (Listing PublicRecruitmentResponse) := do
  site.requireReader actor
  site.recruitmentPage lower now filters limit offset none

end Recruitments

end PublicSite

section Answers

variable {site : PublicSite} {now : Instant}

/-- A list of which every element has an answer is answered element by element. -/
theorem mapM_some {α β : Type} {f : α → Option β} {l : List α} (h : ∀ a ∈ l, f a ≠ none) :
    ∃ answers, l.mapM f = some answers ∧ List.Forall₂ (fun a b => f a = some b) l answers := by
  induction l with
  | nil => exact ⟨[], rfl, .nil⟩
  | cons a l ih =>
    obtain ⟨b, hb⟩ := Option.ne_none_iff_exists'.mp (h a List.mem_cons_self)
    obtain ⟨answers, hanswers, hall⟩ := ih fun x hx => h x (List.mem_cons_of_mem _ hx)
    refine ⟨b :: answers, ?_, .cons hb hall⟩
    rw [List.mapM_cons, hb, hanswers]
    rfl

theorem mem_achievementQuery {row : PublicAchievementProjection} :
    row ∈ site.achievementQuery ↔ ∃ workflow, site.review.workflows.get row.id = some workflow ∧
      (workflow.firstReviewState = .approved ∧ row.id ∉ site.takenDown) ∧
      site.achievementProjection row.id workflow = some row := by
  unfold PublicSite.achievementQuery
  rw [List.mem_filterMap]
  constructor
  · rintro ⟨⟨id, workflow⟩, hmem, hrow⟩
    obtain ⟨hget, hpublic⟩ := Table.mem_scan.mp hmem
    obtain ⟨rid, hrid, hrevision⟩ := Option.bind_eq_some_iff.mp hrow
    obtain ⟨r, hr, rfl⟩ := Option.map_eq_some_iff.mp hrevision
    exact ⟨workflow, hget, hpublic, hrow⟩
  · rintro ⟨workflow, hget, hpublic, hrow⟩
    exact ⟨(row.id, workflow), Table.mem_scan.mpr ⟨hget, hpublic⟩, hrow⟩

theorem mem_recruitmentQuery {row : PublicRecruitmentProjection} :
    row ∈ site.recruitmentQuery now ↔ ∃ draft,
      site.recruitment.recruitments.get row.id = some draft ∧ site.recruitment.Visible now draft ∧
      site.recruitmentProjection row.id draft = some row := by
  unfold PublicSite.recruitmentQuery RecruitmentDb.query
  rw [List.mem_filterMap]
  constructor
  · rintro ⟨⟨id, draft⟩, hmem, hrow⟩
    obtain ⟨hget, hvisible⟩ := Table.mem_scan.mp hmem
    obtain ⟨rid, hrid, hrevision⟩ := Option.bind_eq_some_iff.mp hrow
    obtain ⟨r, hr, rfl⟩ := Option.map_eq_some_iff.mp hrevision
    exact ⟨draft, hget, hvisible, hrow⟩
  · rintro ⟨draft, hget, hvisible, hrow⟩
    exact ⟨(row.id, draft), Table.mem_scan.mpr ⟨hget, hvisible⟩, hrow⟩

/-- A scan answers each key once. -/
theorem scan_keys {κ ρ β : Type} [LinearOrder κ] [LinearOrder β] {t : Table κ ρ}
    {p : κ → ρ → Prop} [∀ k r, Decidable (p k r)] {f : ρ → β} :
    (t.scan p f).Pairwise fun a b => a.1 ≠ b.1 := by
  refine Table.scan_pairwise.imp_of_mem fun {a b} ha hb h heq => ?_
  have ha := (Table.mem_scan.mp ha).1
  rw [heq, (Table.mem_scan.mp hb).1] at ha
  have hrow : b.2 = a.2 := Option.some.inj ha
  rcases h with hlt | ⟨_, hlt⟩
  · rw [hrow] at hlt
    exact lt_irrefl _ hlt
  · rw [heq] at hlt
    exact lt_irrefl _ hlt

theorem nodup_recruitmentQuery : (site.recruitmentQuery now).Nodup := by
  have hids : (site.recruitmentQuery now).Pairwise fun row row' => row.id ≠ row'.id := by
    have hkey : ∀ {id draft row}, site.recruitmentProjection id draft = some row → row.id = id := by
      intro id draft row hrow
      obtain ⟨rid, _, hrevision⟩ := Option.bind_eq_some_iff.mp hrow
      obtain ⟨r, _, rfl⟩ := Option.map_eq_some_iff.mp hrevision
      rfl
    refine List.Pairwise.filterMap _ (fun a a' hne row hrow row' hrow' => ?_) scan_keys
    rw [hkey hrow, hkey hrow']
    exact hne
  exact hids.imp fun hne heq => hne (congrArg _ heq)

/-- Later the clock shows no recruitment that it did not show before. -/
theorem recruitmentQuery_later {later : Instant} (hlater : now ≤ later) :
    ∀ row ∈ site.recruitmentQuery later, row ∈ site.recruitmentQuery now := by
  intro row hrow
  obtain ⟨draft, hget, ⟨hopen, hup, hahead, hrest⟩, hrow⟩ := mem_recruitmentQuery.mp hrow
  refine mem_recruitmentQuery.mpr ⟨draft, hget, ⟨hopen, hup, ?_, hrest⟩, hrow⟩
  cases hdeadline : draft.deadlineAt with
  | none => rfl
  | some d =>
    rw [hdeadline] at hahead
    exact decide_eq_true (lt_of_le_of_lt hlater (of_decide_eq_true hahead))

/-- A recruitment stays visible until the deadline that its content shows. -/
theorem recruitmentQuery_until (hsite : site.Reachable) {later : Instant}
    {row : PublicRecruitmentProjection} (h : row ∈ site.recruitmentQuery now)
    (hahead : ∀ d, row.content.deadlineAt = some d → later < d) :
    row ∈ site.recruitmentQuery later := by
  obtain ⟨draft, hget, ⟨hopen, hup, _, hrest⟩, hrow⟩ := mem_recruitmentQuery.mp h
  refine mem_recruitmentQuery.mpr ⟨draft, hget, ⟨hopen, hup, ?_, hrest⟩, hrow⟩
  obtain ⟨rid, hrid, hrevision⟩ := Option.bind_eq_some_iff.mp hrow
  obtain ⟨r, hr, heq⟩ := Option.map_eq_some_iff.mp hrevision
  obtain ⟨digests, w, hw, hdb⟩ := hsite.recruitment
  rw [← hdb] at hget hr
  obtain ⟨r', hr', _, hdeadline⟩ := ((recruitments_sound hw).rows _ _ hget).published rid hrid
  obtain rfl := Option.some.inj (hr.symm.trans hr')
  rw [← heq] at hahead
  rw [← hdeadline]
  refine (Option.all_eq_true _ _).mpr fun d hd => ?_
  exact decide_eq_true (hahead d hd)

/-- A visible achievement has both times and belongs to a project. -/
theorem achievement_of_query (hsite : site.Reachable) {row : PublicAchievementProjection}
    (h : row ∈ site.achievementQuery) : row.response ≠ none ∧ row.latestUpdateAt ≠ none ∧
      site.review.Belongs row.id := by
  obtain ⟨workflow, hget, ⟨happroved, _⟩, hrow⟩ := mem_achievementQuery.mp h
  obtain ⟨digests, w, hw, hdb⟩ := hsite.review
  rw [← hdb] at hget
  have hfirst : workflow.firstApprovedAt ≠ none :=
    ((consistent_of_reach hw).agrees _ _ hget).first_iff.mp happroved
  have hrests := allRest_of_reach hw _ _ hget
  have hlatest : workflow.latestUpdateAt ≠ none := hrests.updated happroved
  have hbelongs : w.db.Belongs row.id :=
    hrests.child fun hdraft => (by rw [hdraft] at happroved; cases happroved)
  obtain ⟨rid, hrid, hrevision⟩ := Option.bind_eq_some_iff.mp hrow
  obtain ⟨r, hr, heq⟩ := Option.map_eq_some_iff.mp hrevision
  obtain ⟨t, ht⟩ := Option.ne_none_iff_exists'.mp hfirst
  obtain ⟨t', ht'⟩ := Option.ne_none_iff_exists'.mp hlatest
  rw [hdb] at hbelongs
  refine ⟨?_, ?_, hbelongs⟩
  · rw [← heq, PublicAchievementProjection.response, ht, ht']
    exact Option.some_ne_none _
  · rw [← heq]
    exact hlatest

/-- A visible recruitment is filled in. -/
theorem recruitment_of_query (hsite : site.Reachable) {row : PublicRecruitmentProjection}
    (h : row ∈ site.recruitmentQuery now) : site.recruitmentResponse row ≠ none := by
  obtain ⟨draft, _, _, hrow⟩ := mem_recruitmentQuery.mp h
  obtain ⟨rid, _, hrevision⟩ := Option.bind_eq_some_iff.mp hrow
  obtain ⟨r, hr, heq⟩ := Option.map_eq_some_iff.mp hrevision
  obtain ⟨digests, w, hw, hdb⟩ := hsite.recruitment
  rw [← hdb] at hr
  obtain ⟨hidea, hbeginner, hheadcount⟩ := allComplete_of_reach hw rid r hr
  obtain ⟨idea, hidea⟩ := Option.ne_none_iff_exists'.mp hidea
  obtain ⟨beginner, hbeginner⟩ := Option.ne_none_iff_exists'.mp hbeginner
  obtain ⟨headcount, hheadcount⟩ := Option.ne_none_iff_exists'.mp hheadcount
  rw [← heq, PublicSite.recruitmentResponse, PublicRecruitmentProjection.publicContent, hidea,
    hbeginner, hheadcount]
  exact Option.some_ne_none _

/-- A page of visible achievements shows its rows. -/
theorem achievementPage_ok (hsite : site.Reachable) {rows : List PublicAchievementProjection}
    (hrows : ∀ row ∈ rows, row ∈ site.achievementQuery) (total limit offset : ℕ) :
    ∃ items, achievementPage rows total limit offset = .ok ⟨items, total, limit, offset⟩ ∧
      List.Forall₂ (fun row item => row.response = some item)
        (page limit offset (descending PublicAchievementProjection.order rows)) items := by
  have hsome : ∀ row ∈ page limit offset (descending PublicAchievementProjection.order rows),
      row.response ≠ none := fun row hrow =>
    (achievement_of_query hsite (hrows row (mem_descending.mp (mem_of_mem_page hrow)))).1
  obtain ⟨items, hitems, hall⟩ := mapM_some hsome
  refine ⟨items, ?_, hall⟩
  unfold achievementPage
  rw [hitems]
  rfl

theorem recruitmentPage_ok (hsite : site.Reachable) (lower : Text → Text)
    (filters : PublicProjectFilters) (limit offset : ℕ) (projectId : Option ProjectId) :
    ∃ items, site.recruitmentPage lower now filters limit offset projectId =
      .ok ⟨items, (site.filtered lower now filters projectId).length, limit, offset⟩ ∧
      List.Forall₂ (fun row item => site.recruitmentResponse row = some item)
        (page limit offset (descending PublicRecruitmentProjection.order
          (site.filtered lower now filters projectId))) items := by
  have hsome : ∀ row ∈ page limit offset (descending PublicRecruitmentProjection.order
      (site.filtered lower now filters projectId)), site.recruitmentResponse row ≠ none :=
    fun row hrow => recruitment_of_query hsite
      (List.mem_filter.mp (mem_descending.mp (mem_of_mem_page hrow))).1
  obtain ⟨items, hitems, hall⟩ := mapM_some hsome
  refine ⟨items, ?_, hall⟩
  unfold PublicSite.recruitmentPage
  dsimp only
  rw [hitems]
  rfl

end Answers

end CampusQuest.Innovation
