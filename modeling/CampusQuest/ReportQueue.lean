import CampusQuest.BulkStatements
import CampusQuest.CommunityRows
import CampusQuest.TwoProcesses

/-!
The moderation queue. Filing reads, inserts and, when the unique key of a report is taken,
rolls back and reads once more; a closure locks the row of the report and judges it there. An
insert that is not committed yet holds its key: whoever inserts the same waits.
-/

namespace CampusQuest.Community

open Guards Locking Runs Tables

inductive ReportAction
  | reportDismissed
  | reportHandled
  deriving DecidableEq, Repr

structure ReportAudit where
  actor : Actor
  action : ReportAction
  targetId : ReportId
  reason : Option Text
  before : ReportStatus
  after : ReportStatus
  taskId : TaskId
  commentId : CommentId
  reporterUserId : UserId
  note : Option Text
  deriving DecidableEq

structure QueueStore where
  site : Site
  reports : Table ReportId CommentReport
  audit : List ReportAudit

abbrev Triple := CommentId × UserId × ReportCategory

def CommentReport.triple (r : CommentReport) : Triple :=
  (r.commentId, r.reporterUserId, r.category)

structure Filing where
  triple : Triple
  note : Option Text
  deriving DecidableEq

/-- What a moderator decides: to dismiss for a reason, or to handle with a note. -/
inductive Verdict
  | dismiss (reason : Text)
  | handle (note : Option Text)
  deriving DecidableEq

namespace Verdict

def target : Verdict → ReportStatus
  | dismiss _ => .dismissed
  | handle _ => .handled

def action : Verdict → ReportAction
  | dismiss _ => .reportDismissed
  | handle _ => .reportHandled

def auditReason : Verdict → Option Text
  | dismiss reason => some reason
  | handle _ => none

def auditNote : Verdict → Option Text
  | dismiss _ => none
  | handle note => note

end Verdict

def reportCategoryMembers : List (Text × ReportCategory) :=
  [("SPAM".toList, .spam), ("HARASSMENT".toList, .harassment), ("PRIVACY".toList, .privacy),
    ("OTHER".toList, .other)]

def requireCategory (category : Text) : Answer ReportCategory :=
  orRefuse (.invalidCategory category) (reportCategoryMembers.lookup category)

def normalizeReportNote (note : Option Text) (maxLength : ℕ) : Answer (Option Text) :=
  match note with
  | none => .ok none
  | some text =>
    if strip text = [] then .ok none
    else do
      ensure ((strip text).length ≤ maxLength) (.noteTooLong maxLength)
      .ok (some (strip text))

def normalizeDismissReason (reason : Text) : Answer Text := do
  ensure (strip reason ≠ []) .dismissReasonRequired
  .ok (strip reason)

/-- The arguments of `report_comment` before any database touch. -/
def parseFiling (maxLength : ℕ) (comment : CommentId) (user : UserId) (category : Text)
    (note : Option Text) : Answer Filing := do
  let category ← requireCategory category
  let note ← normalizeReportNote note maxLength
  .ok ⟨(comment, user, category), note⟩

def parseVerdict (maxLength : ℕ) : Text ⊕ Option Text → Answer Verdict
  | .inl reason => do
    let reason ← normalizeDismissReason reason
    .ok (.dismiss reason)
  | .inr note => do
    let note ← normalizeReportNote note maxLength
    .ok (.handle note)

namespace QueueStore

variable (s : QueueStore)

def find (triple : Triple) : Option (ReportId × CommentReport) :=
  s.reports.find fun _ r => r.triple = triple

def closable (task : TaskId) (id : ReportId) : Option CommentReport :=
  (s.reports.get id).filter fun r => (s.site.comments.get r.commentId).any fun c => c.taskId = task

def file (id : ReportId) (filing : Filing) (now : Instant) : QueueStore :=
  { s with
    reports := s.reports.put id
      { commentId := filing.triple.1
        reporterUserId := filing.triple.2.1
        category := filing.triple.2.2
        note := filing.note
        status := .opened
        handledBy := none
        handledAt := none
        createdAt := now
        updatedAt := now } }

/-- `_close`: the closure of an open report with its row of the audit log. -/
def close (actor : Actor) (task : TaskId) (id : ReportId) (report : CommentReport)
    (verdict : Verdict) (now : Instant) : QueueStore :=
  { s with
    reports := s.reports.put id
      { report with
        status := verdict.target
        handledBy := some actor.userId
        handledAt := some now
        updatedAt := now }
    audit := s.audit ++ [⟨actor, verdict.action, id, verdict.auditReason, .opened, verdict.target,
      task, report.commentId, report.reporterUserId, verdict.auditNote⟩] }

def decisions (id : ReportId) : List ReportAudit := s.audit.filter fun a => a.targetId = id

end QueueStore

/-- A request at work. `inserted` holds the key of a row that is not committed, `holding` the
lock of a report and the row as it stands under it. -/
inductive ReportRequest
  | idle
  | writing (filing : Filing)
  | checked (filing : Filing)
  | absent (filing : Filing)
  | inserted (filing : Filing)
  | conflicted (filing : Filing)
  | standing (actor : Actor) (task : TaskId) (id : ReportId) (verdict : Verdict)
  | holding (actor : Actor) (task : TaskId) (id : ReportId) (verdict : Verdict)
      (report : CommentReport)

open ReportRequest

def ReportRequest.locks : ReportRequest → Triple ⊕ ReportId → Prop
  | inserted filing, .inl triple => filing.triple = triple
  | holding _ _ id _ _, .inr k => id = k
  | _, _ => False

inductive ReportEvent
  | abandoned
  | refused (e : CommunityError)
  | returned (triple : Triple) (id : ReportId) (report : CommentReport)
  | filed (triple : Triple) (id : ReportId)
  | raised (triple : Triple)
  | closed (actor : Actor) (id : ReportId)
  | replayed (id : ReportId) (report : CommentReport)
  | elsewhere

/-- The reads of a filing and of a closure, with the insert and the conflict that it meets. -/
inductive ReportRead (maxLength : ℕ) : ReportRequest → QueueStore → ReportRequest → Prop
  | write {s : QueueStore} (comment : CommentId) (user : UserId) (category : Text)
      (note : Option Text) (filing : Filing) (nickname : Text)
      (hparse : parseFiling maxLength comment user category note = .ok filing)
      (hwriter : s.site.requireCommunityWriter user = .ok nickname) :
      ReportRead maxLength idle s (writing filing)
  | see {s : QueueStore} (filing : Filing) (comment : Comment)
      (hvisible : s.site.requireVisibleComment filing.triple.1 = .ok comment) :
      ReportRead maxLength (writing filing) s (checked filing)
  | absent {s : QueueStore} (filing : Filing) (hnone : s.find filing.triple = none) :
      ReportRead maxLength (checked filing) s (absent filing)
  | insert {s : QueueStore} (filing : Filing) (hfree : s.find filing.triple = none) :
      ReportRead maxLength (ReportRequest.absent filing) s (inserted filing)
  | conflict {s : QueueStore} (filing : Filing) (htaken : s.find filing.triple ≠ none) :
      ReportRead maxLength (ReportRequest.absent filing) s (conflicted filing)
  | stand {s : QueueStore} (actor : Actor) (task : TaskId) (id : ReportId)
      (argument : Text ⊕ Option Text) (verdict : Verdict)
      (hparse : parseVerdict maxLength argument = .ok verdict)
      (hstand : s.site.requireTaskModerationSite actor task true .closureDenied = .ok ()) :
      ReportRead maxLength idle s (standing actor task id verdict)
  | lock {s : QueueStore} (actor : Actor) (task : TaskId) (id : ReportId) (verdict : Verdict)
      (report : CommentReport) (hget : s.closable task id = some report) :
      ReportRead maxLength (standing actor task id verdict) s
        (holding actor task id verdict report)

/-- The ends of the requests. `raised` is the violation of a key whose row is not found on the
second look; any request may end without a trace. Other services write what the gates read, and
nothing else writes reports. -/
inductive ReportCommit (maxLength : ℕ) :
    ReportRequest → QueueStore → ReportEvent → ReportRequest → QueueStore → Prop
  | abandoned {s : QueueStore} (m : ReportRequest) :
      ReportCommit maxLength m s .abandoned idle s
  | filingRefused {s : QueueStore} (comment : CommentId) (user : UserId) (category : Text)
      (note : Option Text) (e : CommunityError)
      (hrefuse : parseFiling maxLength comment user category note = .error e ∨
        s.site.requireCommunityWriter user = .error e) :
      ReportCommit maxLength idle s (.refused e) idle s
  | unseen {s : QueueStore} (filing : Filing) (e : CommunityError)
      (hrefuse : s.site.requireVisibleComment filing.triple.1 = .error e) :
      ReportCommit maxLength (writing filing) s (.refused e) idle s
  | existing {s : QueueStore} (filing : Filing) (id : ReportId) (report : CommentReport)
      (hfind : s.find filing.triple = some (id, report)) :
      ReportCommit maxLength (checked filing) s (.returned filing.triple id report) idle s
  | filed {s : QueueStore} (filing : Filing) (id : ReportId) (now : Instant)
      (hfresh : s.reports.get id = none) :
      ReportCommit maxLength (inserted filing) s (.filed filing.triple id) idle
        (s.file id filing now)
  | winner {s : QueueStore} (filing : Filing) (id : ReportId) (report : CommentReport)
      (hfind : s.find filing.triple = some (id, report)) :
      ReportCommit maxLength (conflicted filing) s (.returned filing.triple id report) idle s
  | raised {s : QueueStore} (filing : Filing) (hfind : s.find filing.triple = none) :
      ReportCommit maxLength (conflicted filing) s (.raised filing.triple) idle s
  | closureRefused {s : QueueStore} (actor : Actor) (task : TaskId)
      (argument : Text ⊕ Option Text) (e : CommunityError)
      (hrefuse : (∃ v, parseVerdict maxLength argument = .ok v ∧
        s.site.requireTaskModerationSite actor task true .closureDenied = .error e) ∨
        parseVerdict maxLength argument = .error e) :
      ReportCommit maxLength idle s (.refused e) idle s
  | unknown {s : QueueStore} (actor : Actor) (task : TaskId) (id : ReportId) (verdict : Verdict)
      (hnone : s.closable task id = none) :
      ReportCommit maxLength (standing actor task id verdict) s
        (.refused (.reportNotFound task id)) idle s
  | closed {s : QueueStore} (actor : Actor) (task : TaskId) (id : ReportId) (verdict : Verdict)
      (report : CommentReport) (now : Instant) (hopen : report.status = .opened) :
      ReportCommit maxLength (holding actor task id verdict report) s (.closed actor id) idle
        (s.close actor task id report verdict now)
  | replayed {s : QueueStore} (actor : Actor) (task : TaskId) (id : ReportId) (verdict : Verdict)
      (report : CommentReport) (hsame : report.status = verdict.target) :
      ReportCommit maxLength (holding actor task id verdict report) s (.replayed id report) idle s
  | otherwise {s : QueueStore} (actor : Actor) (task : TaskId) (id : ReportId)
      (verdict : Verdict) (report : CommentReport) (hother : report.status ≠ verdict.target)
      (hclosed : report.status ≠ .opened) :
      ReportCommit maxLength (holding actor task id verdict report) s
        (.refused (.alreadyClosed id report.status)) idle s
  | elsewhere {s : QueueStore} (site : Site) :
      ReportCommit maxLength idle s .elsewhere idle { s with site := site }

/-- What a request knows of the reports: its key is free, or its row is as it was read. -/
def QueueStore.Knows (s : QueueStore) : ReportRequest → Prop
  | inserted filing => s.find filing.triple = none
  | conflicted filing => s.find filing.triple ≠ none
  | holding _ _ id _ report => s.reports.get id = some report
  | _ => True

def reportProtocol (maxLength : ℕ) :
    Protocol QueueStore (Triple ⊕ ReportId) ReportRequest ReportEvent where
  locks := ReportRequest.locks
  known m s := s.Knows m
  start m := m = idle
  read := ReportRead maxLength
  commit := ReportCommit maxLength

/-- The unique constraint, and the decisions that the audit log has about each report. -/
structure QueueStore.Consistent (s : QueueStore) : Prop where
  unique : ∀ id id' r r', s.reports.get id = some r → s.reports.get id' = some r' →
    r.triple = r'.triple → id = id'
  unfiled : ∀ id, s.reports.get id = none → s.decisions id = []
  undecided : ∀ id r, s.reports.get id = some r → r.status = .opened →
    r.handledBy = none ∧ s.decisions id = []
  decided : ∀ id r, s.reports.get id = some r → r.status ≠ .opened →
    ∃ a, s.decisions id = [a] ∧ a.after = r.status ∧ r.handledBy = some a.actor.userId ∧
      (a.action = .reportDismissed ↔ r.status = .dismissed)

def reportSystem (maxLength : ℕ) (ι : Type*) [DecidableEq ι] :
    System (Config ι QueueStore ReportRequest) (Move ι ReportEvent) :=
  (reportProtocol maxLength).system ι QueueStore.Consistent

section Finds

variable {s s' : QueueStore} {triple : Triple} {id : ReportId} {r : CommentReport}

theorem found (h : s.find triple = some (id, r)) :
    s.reports.get id = some r ∧ r.triple = triple :=
  Table.find_some h

theorem find_eq_none_iff : s.find triple = none ↔
    ∀ id r, s.reports.get id = some r → r.triple ≠ triple :=
  ⟨fun h _ _ hget => Table.find_none h hget, fun h => Table.find_eq_none h⟩

/-- A key that is taken stays so while every report keeps its key. -/
theorem find_ne_none_mono
    (hkept : ∀ id r, s.reports.get id = some r →
      ∃ r', s'.reports.get id = some r' ∧ r'.triple = r.triple)
    (h : s.find triple ≠ none) : s'.find triple ≠ none := by
  intro hnone
  obtain ⟨⟨id, r⟩, hfind⟩ := Option.ne_none_iff_exists'.mp h
  obtain ⟨hget, rfl⟩ := found hfind
  obtain ⟨r', hget', hsame⟩ := hkept id r hget
  exact find_eq_none_iff.mp hnone id r' hget' hsame

theorem closable_get {task : TaskId} (h : s.closable task id = some r) :
    s.reports.get id = some r :=
  (Option.filter_eq_some_iff.mp h).1

def closureAudit (actor : Actor) (task : TaskId) (id : ReportId) (report : CommentReport)
    (verdict : Verdict) : ReportAudit :=
  ⟨actor, verdict.action, id, verdict.auditReason, .opened, verdict.target, task,
    report.commentId, report.reporterUserId, verdict.auditNote⟩

theorem decisions_close {actor : Actor} {task : TaskId} {k : ReportId} {verdict : Verdict}
    {now : Instant} :
    (s.close actor task k r verdict now).decisions id =
      s.decisions id ++ if k = id then [closureAudit actor task k r verdict] else [] := by
  unfold QueueStore.close QueueStore.decisions
  rw [List.filter_append]
  by_cases h : k = id
  · rw [if_pos h, List.filter_cons_of_pos (by simpa using h), List.filter_nil]
    rfl
  · rw [if_neg h, List.filter_cons_of_neg (by simpa using h), List.filter_nil]

end Finds

section Queue

variable {maxLength : ℕ} {s s' : QueueStore} {m m' o : ReportRequest} {ev : ReportEvent}

/-- What a commit does to the reports and their decisions: nothing, a new report of a free key,
or the closure of an open one. -/
inductive Files (m : ReportRequest) (s : QueueStore) : ReportEvent → QueueStore → Prop
  | nothing {ev : ReportEvent} {s' : QueueStore} (hreports : s'.reports = s.reports)
      (haudit : s'.audit = s.audit) (hev : ev = .elsewhere ∨ s' = s) : Files m s ev s'
  | filed (filing : Filing) (id : ReportId) (now : Instant) (hm : m = inserted filing)
      (hfresh : s.reports.get id = none) :
      Files m s (.filed filing.triple id) (s.file id filing now)
  | closed (actor : Actor) (task : TaskId) (id : ReportId) (verdict : Verdict)
      (report : CommentReport) (now : Instant) (hm : m = holding actor task id verdict report)
      (hopen : report.status = .opened) :
      Files m s (.closed actor id) (s.close actor task id report verdict now)

theorem commit_files (hcommit : ReportCommit maxLength m s ev m' s') : Files m s ev s' := by
  cases hcommit with
  | filed filing id now hfresh => exact .filed filing id now rfl hfresh
  | closed actor task id verdict report now hopen =>
    exact .closed actor task id verdict report now rfl hopen
  | elsewhere site => exact .nothing rfl rfl (Or.inl rfl)
  | _ => exact .nothing rfl rfl (Or.inr rfl)

theorem target_ne_opened (v : Verdict) : v.target ≠ .opened := by
  cases v <;> simp [Verdict.target]

theorem action_iff (v : Verdict) : v.action = .reportDismissed ↔ v.target = .dismissed := by
  cases v <;> simp [Verdict.action, Verdict.target]

def Succeeds (r r' : CommentReport) : Prop :=
  r' = r ∨ r.status = .opened ∧ ∃ status by' at', status ≠ .opened ∧
    r' = { r with status := status, handledBy := some by', handledAt := some at', updatedAt := at' }

theorem Succeeds.triple {r r' : CommentReport} (h : Succeeds r r') : r'.triple = r.triple := by
  rcases h with rfl | ⟨_, _, _, _, _, rfl⟩ <;> rfl

theorem Succeeds.trans {r r' r'' : CommentReport} (h : Succeeds r r') (h' : Succeeds r' r'') :
    Succeeds r r'' := by
  rcases h with rfl | ⟨hopen, status, by', at', hclosed, rfl⟩
  · exact h'
  · rcases h' with rfl | ⟨hopen', _⟩
    · exact Or.inr ⟨hopen, status, by', at', hclosed, rfl⟩
    · exact absurd hopen' hclosed

theorem Files.succeeds (h : Files m s ev s') (hknown : s.Knows m) {id : ReportId}
    {r : CommentReport} (hget : s.reports.get id = some r) :
    ∃ r', s'.reports.get id = some r' ∧ Succeeds r r' := by
  cases h with
  | nothing hreports _ _ => exact ⟨r, hreports ▸ hget, Or.inl rfl⟩
  | filed filing id' now hm hfresh =>
    have hne : id ≠ id' := by
      rintro rfl
      rw [hfresh] at hget
      cases hget
    exact ⟨r, (Table.get_put_of_ne _ _ hne).trans hget, Or.inl rfl⟩
  | closed actor task id' verdict report now hm hopen =>
    subst hm
    by_cases hid : id = id'
    · subst hid
      obtain rfl : r = report := Option.some.inj (hget.symm.trans hknown)
      exact ⟨_, Table.get_put_self _ _ _, Or.inr ⟨hopen, verdict.target, actor.userId, now,
        target_ne_opened verdict, rfl⟩⟩
    · exact ⟨r, (Table.get_put_of_ne _ _ hid).trans hget, Or.inl rfl⟩

/-- A new report is one of a key that was free. -/
theorem Files.consistent (h : Files m s ev s') (hs : s.Consistent) (hknown : s.Knows m) :
    s'.Consistent := by
  cases h with
  | nothing hreports haudit _ =>
    have hdecisions (id : ReportId) : s'.decisions id = s.decisions id := by
      unfold QueueStore.decisions
      rw [haudit]
    constructor
    · rw [hreports]
      exact hs.unique
    · intro id hnone
      rw [hdecisions]
      exact hs.unfiled id (hreports ▸ hnone)
    · intro id r hget
      rw [hdecisions]
      exact hs.undecided id r (hreports ▸ hget)
    · intro id r hget
      rw [hdecisions]
      exact hs.decided id r (hreports ▸ hget)
  | filed filing id now hm hfresh =>
    subst hm
    have hfree := find_eq_none_iff.mp hknown
    constructor
    · intro k k' r r' hget hget' hsame
      rcases Table.get_put_eq_some hget with ⟨rfl, rfl⟩ | ⟨_, hold⟩
      · rcases Table.get_put_eq_some hget' with ⟨rfl, _⟩ | ⟨_, hold'⟩
        · rfl
        · exact absurd hsame.symm (hfree k' r' hold')
      · rcases Table.get_put_eq_some hget' with ⟨rfl, rfl⟩ | ⟨_, hold'⟩
        · exact absurd hsame (hfree k r hold)
        · exact hs.unique k k' r r' hold hold' hsame
    · intro k hnone
      refine hs.unfiled k ?_
      by_cases hk : k = id
      · rw [hk]
        exact hfresh
      · exact (Table.get_put_of_ne _ _ hk).symm.trans hnone
    · intro k r hget hopen
      rcases Table.get_put_eq_some hget with ⟨rfl, rfl⟩ | ⟨_, hold⟩
      · exact ⟨rfl, hs.unfiled k hfresh⟩
      · exact hs.undecided k r hold hopen
    · intro k r hget hclosed
      rcases Table.get_put_eq_some hget with ⟨rfl, rfl⟩ | ⟨_, hold⟩
      · exact absurd rfl hclosed
      · exact hs.decided k r hold hclosed
  | closed actor task id verdict report now hm hopen =>
    subst hm
    have hknown : s.reports.get id = some report := hknown
    have hother {k : ReportId} (hk : k ≠ id) :
        (s.close actor task id report verdict now).decisions k = s.decisions k := by
      rw [decisions_close, if_neg (Ne.symm hk), List.append_nil]
    constructor
    · intro k k' r r' hget hget' hsame
      rcases Table.get_put_eq_some hget with ⟨rfl, rfl⟩ | ⟨_, hold⟩
      · rcases Table.get_put_eq_some hget' with ⟨rfl, _⟩ | ⟨_, hold'⟩
        · rfl
        · exact hs.unique k k' report r' hknown hold' hsame
      · rcases Table.get_put_eq_some hget' with ⟨rfl, rfl⟩ | ⟨_, hold'⟩
        · exact hs.unique k k' r report hold hknown hsame
        · exact hs.unique k k' r r' hold hold' hsame
    · intro k hnone
      have hk : k ≠ id := by
        rintro rfl
        rw [show (s.close actor task k report verdict now).reports.get k = _ from
          Table.get_put_self _ _ _] at hnone
        cases hnone
      rw [hother hk]
      exact hs.unfiled k ((Table.get_put_of_ne _ _ hk).symm.trans hnone)
    · intro k r hget hopen'
      rcases Table.get_put_eq_some hget with ⟨rfl, rfl⟩ | ⟨hk, hold⟩
      · exact absurd hopen' (target_ne_opened verdict)
      · rw [hother hk]
        exact hs.undecided k r hold hopen'
    · intro k r hget hclosed
      rcases Table.get_put_eq_some hget with ⟨rfl, rfl⟩ | ⟨hk, hold⟩
      · refine ⟨closureAudit actor task k report verdict, ?_, rfl, rfl, action_iff verdict⟩
        rw [decisions_close, if_pos rfl, (hs.undecided k report hknown hopen).2, List.nil_append]
      · rw [hother hk]
        exact hs.decided k r hold hclosed

/-- What another request knows stays so: its key is free or taken, its row is locked. -/
theorem Files.knows (h : Files m s ev s') (hknown : s.Knows m) (hother : s.Knows o)
    (hdisjoint : ∀ k, m.locks k → ¬ o.locks k) : s'.Knows o := by
  have hkept : ∀ id r, s.reports.get id = some r →
      ∃ r', s'.reports.get id = some r' ∧ r'.triple = r.triple := by
    intro id r hget
    obtain ⟨r', hget', hsucceeds⟩ := h.succeeds hknown hget
    exact ⟨r', hget', hsucceeds.triple⟩
  cases o with
  | conflicted filing => exact find_ne_none_mono hkept hother
  | inserted filing =>
    have hfree := find_eq_none_iff.mp hother
    refine find_eq_none_iff.mpr fun id r hget => ?_
    cases h with
    | nothing hreports _ _ => exact hfree id r (hreports ▸ hget)
    | filed filing' id' now hm hfresh =>
      subst hm
      rcases Table.get_put_eq_some hget with ⟨rfl, rfl⟩ | ⟨_, hold⟩
      · exact fun hsame => hdisjoint (.inl filing.triple) hsame rfl
      · exact hfree id r hold
    | closed actor task id' verdict report now hm hopen =>
      subst hm
      rcases Table.get_put_eq_some hget with ⟨rfl, rfl⟩ | ⟨_, hold⟩
      · exact hfree id report hknown
      · exact hfree id r hold
  | holding actor task id verdict report =>
    have hother : s.reports.get id = some report := hother
    cases h with
    | nothing hreports _ _ => exact (congrArg (Table.get · id) hreports).trans hother
    | filed filing' id' now hm hfresh =>
      have hne : id ≠ id' := by
        rintro rfl
        rw [hfresh] at hother
        cases hother
      exact (Table.get_put_of_ne _ _ hne).trans hother
    | closed actor' task' id' verdict' report' now hm hopen =>
      subst hm
      have hne : id ≠ id' := fun hid => hdisjoint (.inr id') rfl hid
      exact (Table.get_put_of_ne _ _ hne).trans hother
  | _ => trivial

theorem reportProtocol_sound (maxLength : ℕ) :
    (reportProtocol maxLength).Sound QueueStore.Consistent where
  start_locks m k hm := by
    subst hm
    cases k <;> exact id
  start_known m s hm := by
    subst hm
    trivial
  read_known m s m' hknown hread := by
    cases hread with
    | insert filing hfree => exact hfree
    | conflict filing htaken => exact htaken
    | lock actor task id verdict report hget => exact closable_get hget
    | _ => trivial
  commit_inv m s ev m' s' hs hknown hcommit := (commit_files hcommit).consistent hs hknown
  commit_known m s ev m' s' _ _ hcommit := by
    cases hcommit <;> trivial
  commit_stable m s ev m' s' o _ hknown hcommit hother hdisjoint :=
    (commit_files hcommit).knows hknown hother hdisjoint

end Queue

section Runs

variable {maxLength : ℕ} {ι : Type*} [DecidableEq ι] {c c' : Config ι QueueStore ReportRequest}

/-- A step leaves the store alone, or it is a commit of a request that knows its rows. -/
theorem report_step (hc : (reportSystem maxLength ι).Reach c) {a : Move ι ReportEvent}
    (hstep : (reportSystem maxLength ι).step c a c') :
    c.store.Consistent ∧ ((a.2 = none ∧ c'.store = c.store) ∨
      ∃ ev m', a.2 = some ev ∧ c.store.Knows (c.proc a.1) ∧
        ReportCommit maxLength (c.proc a.1) c.store ev m' c'.store) :=
  (reportProtocol_sound maxLength).step_store (fun _ h => h) hc hstep

theorem report_succeeds (hc : (reportSystem maxLength ι).Reach c) {a : Move ι ReportEvent}
    (hstep : (reportSystem maxLength ι).step c a c') {id : ReportId} {r : CommentReport}
    (hget : c.store.reports.get id = some r) :
    ∃ r', c'.store.reports.get id = some r' ∧ Succeeds r r' := by
  obtain ⟨_, ⟨_, hsame⟩ | ⟨ev, m', _, hknown, hcommit⟩⟩ := report_step hc hstep
  · exact ⟨r, hsame ▸ hget, Or.inl rfl⟩
  · exact (commit_files hcommit).succeeds hknown hget

end Runs

/-- In every run of filings and closures: a key has one report at most, and every closed report
one decision in the audit log, of its status and by the account that closed it; a report is left
as it is except that an open one is closed, once; a filing returns the report of its key as it
stands, files one only where there is none and never fails on the key; and a closure that is
refused or replayed changes nothing. -/
theorem report_queue_settles (maxLength : ℕ) {ι : Type*} [DecidableEq ι]
    {c c' : Config ι QueueStore ReportRequest}
    {l : List (Config ι QueueStore ReportRequest × Move ι ReportEvent ×
      Config ι QueueStore ReportRequest)}
    (hc : (reportSystem maxLength ι).Reach c) (hrun : (reportSystem maxLength ι).Run c l c') :
    c.store.Consistent ∧
    (∀ id r, c.store.reports.get id = some r →
      ∃ r', c'.store.reports.get id = some r' ∧ Succeeds r r') ∧
    (∀ e ∈ l, ∀ triple id r, e.2.1.2 = some (.returned triple id r) →
      e.1.store.reports.get id = some r ∧ r.triple = triple ∧ e.2.2.store = e.1.store) ∧
    (∀ e ∈ l, ∀ triple id, e.2.1.2 = some (.filed triple id) →
      e.1.store.find triple = none) ∧
    (∀ e ∈ l, ∀ triple, e.2.1.2 ≠ some (.raised triple)) ∧
    (∀ e ∈ l, ∀ id r error,
      (e.2.1.2 = some (.refused error) ∨ e.2.1.2 = some (.replayed id r)) →
      e.2.2.store = e.1.store) := by
  have hevent (e : Config ι QueueStore ReportRequest × Move ι ReportEvent ×
      Config ι QueueStore ReportRequest) (he : e ∈ l) (ev : ReportEvent)
      (hev : e.2.1.2 = some ev) : e.1.store.Consistent ∧ e.1.store.Knows (e.1.proc e.2.1.1) ∧
        ∃ m', ReportCommit maxLength (e.1.proc e.2.1.1) e.1.store ev m' e.2.2.store :=
    (reportProtocol_sound maxLength).event (fun _ h => h) hc hrun he hev
  refine ⟨((reportProtocol_sound maxLength).current (fun _ h => h) hc).inv, fun id r hget => ?_,
    ?_, ?_, ?_, ?_⟩
  · refine hrun.keeps
      (P := fun c => ∃ r', c.store.reports.get id = some r' ∧ Succeeds r r')
      (fun c₁ a c₂ hc₁ ⟨r₁, hget₁, hsucceeds⟩ hstep => ?_) hc ⟨r, hget, Or.inl rfl⟩
    obtain ⟨r₂, hget₂, hnext⟩ := report_succeeds hc₁ hstep hget₁
    exact ⟨r₂, hget₂, hsucceeds.trans hnext⟩
  · intro e he triple id r hlabel
    obtain ⟨_, _, m', hcommit⟩ := hevent e he _ hlabel
    generalize e.1.proc e.2.1.1 = m at hcommit
    generalize e.2.2.store = s₂ at hcommit ⊢
    cases hcommit with
    | existing filing _ _ hfind => exact ⟨(found hfind).1, (found hfind).2, rfl⟩
    | winner filing _ _ hfind => exact ⟨(found hfind).1, (found hfind).2, rfl⟩
  · intro e he triple id hlabel
    obtain ⟨_, hknown, m', hcommit⟩ := hevent e he _ hlabel
    generalize e.1.proc e.2.1.1 = m at hcommit hknown
    generalize e.2.2.store = s₂ at hcommit
    cases hcommit with
    | filed filing _ now hfresh => exact hknown
  · intro e he triple hlabel
    obtain ⟨_, hknown, m', hcommit⟩ := hevent e he _ hlabel
    generalize e.1.proc e.2.1.1 = m at hcommit hknown
    generalize e.2.2.store = s₂ at hcommit
    cases hcommit with
    | raised filing hfind => exact hknown hfind
  · rintro ⟨c₁, ⟨i, label⟩, c₂⟩ he id r error hlabel
    obtain ⟨hstep, l', hbefore⟩ := hrun.step_mem he
    obtain ⟨_, ⟨_, hsame⟩ | ⟨ev, m', hev, _, hcommit⟩⟩ := report_step (hbefore.reach hc) hstep
    · exact hsame
    · dsimp only at hev hlabel hcommit ⊢
      rw [hev] at hlabel
      generalize c₁.proc i = m at hcommit
      generalize c₂.store = s₂ at hcommit ⊢
      cases hcommit with
      | filed => rcases hlabel with h | h <;> cases h
      | closed => rcases hlabel with h | h <;> cases h
      | elsewhere => rcases hlabel with h | h <;> cases h
      | _ => rfl

section Example

/-- A student, a comment of another one on a published task, and no report. -/
def quietQueue : QueueStore where
  site :=
    { users := Table.empty.put 1 ⟨.student, .active, ['s']⟩
      tasks := Table.empty.put 5 ⟨2, .published⟩
      collaborators := .empty
      comments := Table.empty.put 3 ⟨5, 9, none, ['c'], false, 0, 0, none, none, none, false⟩ }
  reports := .empty
  audit := []

theorem quietQueue_consistent : quietQueue.Consistent := by
  constructor
  · intro id id' r r' hget
    cases hget
  · exact fun _ _ => rfl
  · intro id r hget
    cases hget
  · intro id r hget
    cases hget

def spamFiling : Filing := ⟨(3, 1, .spam), none⟩

/-- The report is filed, and filed again: the second filing returns it. -/
theorem duplicate_filing_returned :
    (quietQueue.file 0 spamFiling 7).reports.get 0 =
      some ⟨3, 1, .spam, none, .opened, none, none, 7, 7⟩ := by
  have hfree (k : Triple ⊕ ReportId) : ¬ ReportRequest.locks idle k :=
    (reportProtocol_sound 500).start_locks idle k rfl
  have hstart := Protocol.reaches_start (P := reportProtocol 500) (G := fun _ _ => True)
    quietQueue_consistent (m := idle) (n := idle) rfl rfl
  have hempty : quietQueue.find spamFiling.triple = none :=
    find_eq_none_iff.mpr fun id r hget => (by cases hget)
  have hfound : (quietQueue.file 0 spamFiling 7).find spamFiling.triple =
      some (0, ⟨3, 1, .spam, none, .opened, none, none, 7, 7⟩) := by
    refine Table.find_eq (by rfl) rfl fun k r hget _ => ?_
    rcases Table.get_put_eq_some hget with ⟨hk, _⟩ | ⟨_, hold⟩
    · exact hk
    · cases hold
  have hwriting := hstart.read_left (.write 3 1 "SPAM".toList none spamFiling ['s'] rfl rfl)
    (fun k _ => hfree k) trivial
  have hchecked := hwriting.read_left (.see spamFiling _ rfl) (fun k _ => hfree k) trivial
  have habsent := hchecked.read_left (.absent spamFiling hempty) (fun k _ => hfree k) trivial
  have hinserted := habsent.read_left (.insert spamFiling hempty) (fun k _ => hfree k) trivial
  have hfiled := hinserted.commit_left (.filed spamFiling 0 7 rfl) (fun k _ => hfree k) trivial
  have hagain := hfiled.read_left (.write 3 1 "SPAM".toList none spamFiling ['s'] rfl rfl)
    (fun k _ => hfree k) trivial
  have hrepeated := hagain.read_left (.see spamFiling _ rfl) (fun k _ => hfree k) trivial
  have hstep := Protocol.Step.commit (P := reportProtocol 500)
    ⟨quietQueue.file 0 spamFiling 7, pair (checked spamFiling) idle⟩ false _ _ _
    (.existing spamFiling 0 _ hfound) (Protocol.free_left fun k _ => hfree k)
  have hreturned := (report_queue_settles 500 (System.Reach.of_guarded hrepeated)
    (.snoc (.nil _) hstep)).2.2.1
  exact (hreturned _ (List.mem_singleton_self _) spamFiling.triple 0 _ rfl).1

end Example

end CampusQuest.Community
