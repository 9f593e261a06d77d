import CampusQuest.PublicListings

/-!
The public projects. A project is listed for its visible achievements and recruitments: the first
of them by rank gives it its face, and it counts both. The condition of visibility is written in
the query of the achievements, in that of the recruitments and in the sources of the projects; the
three select the same, so the projects agree with what the listings show of them.
-/

namespace CampusQuest.Innovation

open Groups Guards Runs Tables

section Rows

inductive SourceKind
  | achievement
  | recruitment
  deriving DecidableEq, Repr

structure ProjectSource where
  projectId : ProjectId
  title : Text
  summary : Text
  direction : Text
  stage : Text
  roleName : Text
  priority : ℕ
  sourceKind : SourceKind
  stamp : WithTop Instant
  sourceId : ℕ

/-- The order of the ranking: achievements first, then the latest, then the greatest id. -/
def ProjectSource.rankKey (s : ProjectSource) : ℕ ×ₗ (WithTop Instant)ᵒᵈ ×ₗ ℕᵒᵈ :=
  toLex (s.priority, toLex (OrderDual.toDual s.stamp, OrderDual.toDual s.sourceId))

structure PublicProjectSummary where
  id : ProjectId
  title : Text
  summary : Text
  direction : Text
  stage : Text
  sourceKind : SourceKind
  achievementCount : ℕ
  recruitmentCount : ℕ
  deriving DecidableEq

structure PublicProjectRow where
  project : PublicProjectSummary
  stamp : WithTop Instant

def PublicProjectRow.order (row : PublicProjectRow) : WithTop Instant ×ₗ ProjectId :=
  toLex (row.stamp, row.project.id)

structure PublicProjectDetail where
  project : PublicProjectSummary
  achievements : Listing PublicAchievementResponse
  recruitments : Listing PublicRecruitmentResponse
  deriving DecidableEq

end Rows

section Query

def ProjectSource.row (sources : List ProjectSource) (s : ProjectSource) : PublicProjectRow where
  project :=
    { id := s.projectId
      title := s.title
      summary := s.summary
      direction := s.direction
      stage := s.stage
      sourceKind := s.sourceKind
      achievementCount :=
        countWhere ProjectSource.projectId sources (fun source => source.priority = 0) s.projectId
      recruitmentCount :=
        countWhere ProjectSource.projectId sources (fun source => source.priority = 1) s.projectId }
  stamp := s.stamp

def MatchesSource (lower : Text → Text) (filters : PublicProjectFilters)
    (sources : List ProjectSource) (projectId : ProjectId) : Prop :=
  filters.q ≠ [] ∨ filters.direction ≠ [] ∨ filters.stage ≠ [] →
    sources.any (fun s => s.projectId = projectId ∧
      Searches lower filters.q [s.title, s.summary, s.roleName] ∧
      Searches lower filters.direction [s.direction] ∧
      Searches lower filters.stage [s.stage]) = true

instance (lower : Text → Text) (filters : PublicProjectFilters) (sources : List ProjectSource)
    (projectId : ProjectId) : Decidable (MatchesSource lower filters sources projectId) :=
  inferInstanceAs (Decidable (_ → _))

namespace PublicSite

variable (site : PublicSite) (lower : Text → Text) (now later : Instant)

def achievementSource (id : AchievementId) (workflow : AchievementWorkflow) :
    Option ProjectSource :=
  (site.review.achievements.get id).bind fun draft =>
    (workflow.publicRevisionId.bind site.review.revisions.get).map fun r =>
      { projectId := draft.projectId
        title := r.projectContent.title
        summary := r.projectContent.summary
        direction := r.projectContent.direction
        stage := r.projectContent.stage
        roleName := []
        priority := 0
        sourceKind := .achievement
        stamp := stampOf workflow.latestUpdateAt
        sourceId := id }

def achievementSources : List ProjectSource :=
  (site.review.workflows.scan (fun id workflow => workflow.firstReviewState = .approved ∧
      id ∉ site.takenDown) fun workflow => workflow.version).filterMap fun entry =>
    site.achievementSource entry.1 entry.2

def recruitmentSource (row : PublicRecruitmentProjection) : ProjectSource where
  projectId := row.projectId
  title := row.content.projectTitle
  summary := row.content.introduction
  direction := row.content.direction
  stage := row.content.stage
  roleName := row.content.roleName
  priority := 1
  sourceKind := .recruitment
  stamp := stampOf (some row.createdAt)
  sourceId := row.id

def sources : List ProjectSource :=
  site.achievementSources ++ (site.recruitmentQuery now).map recruitmentSource

/-- `query`. The recruitments among the sources and those that beginners may join are read at an
instant each. -/
def projectQuery (filters : PublicProjectFilters) : List PublicProjectRow :=
  ((firsts ProjectSource.projectId ProjectSource.rankKey (site.sources now)).map
      (ProjectSource.row (site.sources now))).filter fun row =>
    MatchesSource lower filters (site.sources now) row.project.id ∧
      (filters.recruitingOnly = true → 0 < row.project.recruitmentCount) ∧
      filters.beginnerFriendly.all (fun b =>
        (site.filtered lower later { beginnerFriendly := some b } none).any fun r =>
          r.projectId = row.project.id) = true

def listProjects (actor : Actor) (filters : PublicProjectFilters) (limit offset : ℕ) :
    Except RecruitmentError (Listing PublicProjectSummary) := do
  site.requireReader actor
  let rows := site.projectQuery lower now later filters
  .ok ⟨(page limit offset (descending PublicProjectRow.order rows)).map PublicProjectRow.project,
    rows.length, limit, offset⟩

/-- `get_visible`, whose section of recruitments reads the clock once more. -/
def getProject (actor : Actor) (projectId : ProjectId)
    (achievementLimit achievementOffset recruitmentLimit recruitmentOffset : ℕ) :
    Except RecruitmentError PublicProjectDetail := do
  site.requireReader actor
  let _ ← orRefuse .notFound (site.review.projects.get projectId)
  let found ← oneOrNone ((site.projectQuery lower now now {}).filter fun row =>
    row.project.id = projectId)
  let row ← orRefuse .notFound found
  let achievements ← achievementPage (site.achievementsOf projectId) row.project.achievementCount
    achievementLimit achievementOffset
  let recruitments ← site.recruitmentPage lower later {} recruitmentLimit recruitmentOffset
    (some projectId)
  .ok ⟨row.project, achievements, recruitments⟩

end PublicSite

end Query

section Sources

variable {site : PublicSite} {lower : Text → Text} {now later : Instant} {p : ProjectId}
  {s s' : ProjectSource}

def PublicAchievementProjection.source (p : ProjectId) (row : PublicAchievementProjection) :
    ProjectSource where
  projectId := p
  title := row.projectContent.title
  summary := row.projectContent.summary
  direction := row.projectContent.direction
  stage := row.projectContent.stage
  roleName := []
  priority := 0
  sourceKind := .achievement
  stamp := stampOf row.latestUpdateAt
  sourceId := row.id

def PublicSite.recruitmentsOf (site : PublicSite) (now : Instant) (p : ProjectId) :
    List PublicRecruitmentProjection :=
  (site.recruitmentQuery now).filter fun row => row.projectId = p

theorem searches_nil (texts : List Text) : Searches lower [] texts := fun h => absurd rfl h

theorem filtered_project : site.filtered lower now {} (some p) = site.recruitmentsOf now p := by
  refine List.filter_congr fun row _ => decide_eq_decide.mpr ?_
  constructor
  · exact fun h => of_decide_eq_true h.1
  · intro h
    exact ⟨decide_eq_true h, searches_nil _, searches_nil _, searches_nil _, rfl⟩

/-- The select of the sources joins and restricts as the query of the listing does. -/
theorem achievementSources_filter :
    site.achievementSources.filter (fun s => s.projectId = p) =
      (site.achievementsOf p).map (PublicAchievementProjection.source p) := by
  unfold PublicSite.achievementSources PublicSite.achievementsOf PublicSite.achievementQuery
  rw [List.filter_filterMap, List.filter_filterMap, List.map_filterMap]
  refine List.filterMap_congr fun entry _ => ?_
  obtain ⟨id, workflow⟩ := entry
  unfold PublicSite.achievementSource PublicSite.achievementProjection
  dsimp only
  cases hpublic : workflow.publicRevisionId with
  | none => cases site.review.achievements.get id <;> rfl
  | some rid =>
    cases hr : site.review.revisions.get rid with
    | none => cases site.review.achievements.get id <;> simp [hr]
    | some r =>
      cases hdraft : site.review.achievements.get id with
      | none => simp [hr, hdraft]
      | some draft =>
        by_cases hp : draft.projectId = p
        · subst hp
          simp [hr, hdraft, Option.filter_some, PublicAchievementProjection.source]
        · simp [hr, hdraft, hp, Option.filter_some]

theorem achievementSources_priority (h : s ∈ site.achievementSources) : s.priority = 0 := by
  obtain ⟨entry, _, hs⟩ := List.mem_filterMap.mp h
  obtain ⟨draft, _, hs⟩ := Option.bind_eq_some_iff.mp hs
  obtain ⟨r, _, rfl⟩ := Option.map_eq_some_iff.mp hs
  rfl

theorem sources_achievements :
    (site.sources now).filter (fun s => s.projectId = p ∧ s.priority = 0) =
      (site.achievementsOf p).map (PublicAchievementProjection.source p) := by
  have hnone : ((site.recruitmentQuery now).map PublicSite.recruitmentSource).filter
      (fun s => s.projectId = p ∧ s.priority = 0) = [] := by
    refine List.filter_eq_nil_iff.mpr fun s hs hpriority => ?_
    obtain ⟨row, _, rfl⟩ := List.mem_map.mp hs
    exact absurd (of_decide_eq_true hpriority).2 Nat.one_ne_zero
  unfold PublicSite.sources
  rw [List.filter_append, hnone, List.append_nil, ← achievementSources_filter]
  refine List.filter_congr fun s hs => decide_eq_decide.mpr ?_
  exact and_iff_left (achievementSources_priority hs)

theorem sources_recruitments :
    (site.sources now).filter (fun s => s.projectId = p ∧ s.priority = 1) =
      (site.recruitmentsOf now p).map PublicSite.recruitmentSource := by
  have hnone : site.achievementSources.filter (fun s => s.projectId = p ∧ s.priority = 1) = [] := by
    refine List.filter_eq_nil_iff.mpr fun s hs hpriority => ?_
    have hone : s.priority = 1 := (of_decide_eq_true hpriority).2
    rw [achievementSources_priority hs] at hone
    cases hone
  unfold PublicSite.sources PublicSite.recruitmentsOf
  rw [List.filter_append, hnone, List.nil_append, List.filter_map]
  refine congrArg _ (List.filter_congr fun row _ => decide_eq_decide.mpr ?_)
  exact and_iff_left rfl

theorem mem_sources : (s ∈ site.sources now ∧ s.projectId = p) ↔
    (∃ a ∈ site.achievementsOf p, a.source p = s) ∨
      ∃ r ∈ site.recruitmentsOf now p, PublicSite.recruitmentSource r = s := by
  rw [← List.mem_map, ← List.mem_map, ← @sources_achievements site now, ← sources_recruitments,
    List.mem_filter, List.mem_filter, decide_eq_true_iff, decide_eq_true_iff]
  constructor
  · rintro ⟨hs, hp⟩
    rcases List.mem_append.mp hs with ha | hr
    · exact .inl ⟨hs, hp, achievementSources_priority ha⟩
    · obtain ⟨row, _, rfl⟩ := List.mem_map.mp hr
      exact .inr ⟨hs, hp, rfl⟩
  · rintro (⟨hs, hp, _⟩ | ⟨hs, hp, _⟩) <;> exact ⟨hs, hp⟩

theorem achievement_count : countWhere ProjectSource.projectId (site.sources now)
    (fun source => source.priority = 0) p = (site.achievementsOf p).length := by
  rw [countWhere_eq, sources_achievements, List.length_map]

theorem recruitment_count : countWhere ProjectSource.projectId (site.sources now)
    (fun source => source.priority = 1) p = (site.recruitmentsOf now p).length := by
  rw [countWhere_eq, sources_recruitments, List.length_map]

/-- Before another source comes one of a smaller priority or of a later stamp. -/
theorem rankKey_le (h : s.rankKey ≤ s'.rankKey) :
    s.priority < s'.priority ∨ s.priority = s'.priority ∧ s'.stamp ≤ s.stamp := by
  rcases Prod.Lex.toLex_le_toLex.mp h with hlt | ⟨heq, hle⟩
  · exact .inl hlt
  · refine .inr ⟨heq, ?_⟩
    rcases Prod.Lex.toLex_le_toLex.mp hle with hlt | ⟨heq, _⟩
    · exact le_of_lt (OrderDual.toDual_lt_toDual.mp hlt)
    · exact ge_of_eq (OrderDual.toDual_inj.mp heq)

end Sources

section Rows

variable {site : PublicSite} {lower : Text → Text} {now later : Instant} {p : ProjectId}
  {filters : PublicProjectFilters} {row : PublicProjectRow}

def PublicSite.listedRows (site : PublicSite) (now : Instant) : List PublicProjectRow :=
  (firsts ProjectSource.projectId ProjectSource.rankKey (site.sources now)).map
    (ProjectSource.row (site.sources now))

theorem projectQuery_unfiltered : site.projectQuery lower now later {} = site.listedRows now := by
  refine List.filter_eq_self.mpr fun row _ => decide_eq_true ⟨?_, fun h => (by cases h), rfl⟩
  rintro (h | h | h) <;> exact absurd rfl h

theorem filtered_subset (h : row ∈ site.projectQuery lower now later filters) :
    row ∈ site.listedRows now := (List.mem_filter.mp h).1

theorem listed_ids :
    (site.listedRows now).map (fun row => row.project.id) =
      (firsts ProjectSource.projectId ProjectSource.rankKey (site.sources now)).map
        ProjectSource.projectId := by
  unfold PublicSite.listedRows
  rw [List.map_map]
  rfl

theorem listed_nodup : ((site.listedRows now).map fun row => row.project.id).Nodup := by
  rw [listed_ids]
  exact nodup_firsts

theorem filtered_nodup :
    ((site.projectQuery lower now later filters).map fun row => row.project.id).Nodup :=
  listed_nodup.sublist (List.filter_sublist.map _)

theorem listed_iff : (∃ row ∈ site.listedRows now, row.project.id = p) ↔
    site.achievementsOf p ≠ [] ∨ site.recruitmentsOf now p ≠ [] := by
  have hsource : (∃ row ∈ site.listedRows now, row.project.id = p) ↔
      ∃ s ∈ site.sources now, s.projectId = p := by
    rw [← List.mem_map, listed_ids, map_firsts, List.mem_dedup, List.mem_map]
  rw [hsource]
  constructor
  · rintro ⟨s, hs, hp⟩
    rcases mem_sources.mp ⟨hs, hp⟩ with ⟨a, ha, _⟩ | ⟨r, hr, _⟩
    · exact .inl (List.ne_nil_of_mem ha)
    · exact .inr (List.ne_nil_of_mem hr)
  · rintro (h | h)
    · obtain ⟨a, ha⟩ := List.exists_mem_of_ne_nil _ h
      exact ⟨_, mem_sources.mpr (.inl ⟨a, ha, rfl⟩)⟩
    · obtain ⟨r, hr⟩ := List.exists_mem_of_ne_nil _ h
      exact ⟨_, mem_sources.mpr (.inr ⟨r, hr, rfl⟩)⟩

/-- A listed row shows a source of its project that comes before every other one. -/
theorem row_source (h : row ∈ site.listedRows now) : ∃ s, s.row (site.sources now) = row ∧
    ((∃ a ∈ site.achievementsOf row.project.id, a.source row.project.id = s) ∨
      ∃ r ∈ site.recruitmentsOf now row.project.id, PublicSite.recruitmentSource r = s) ∧
    (∀ a ∈ site.achievementsOf row.project.id,
      s.rankKey ≤ (a.source row.project.id).rankKey) ∧
    ∀ r ∈ site.recruitmentsOf now row.project.id,
      s.rankKey ≤ (PublicSite.recruitmentSource r).rankKey := by
  obtain ⟨s, hs, rfl⟩ := List.mem_map.mp h
  refine ⟨s, rfl, mem_sources.mp ⟨mem_of_first hs, rfl⟩, fun a ha => ?_, fun r hr => ?_⟩
  · obtain ⟨hsource, hp⟩ := mem_sources.mpr (.inl ⟨a, ha, rfl⟩)
    exact first_le hs hsource hp
  · obtain ⟨hsource, hp⟩ := mem_sources.mpr (.inr ⟨r, hr, rfl⟩)
    exact first_le hs hsource hp

theorem row_counts (h : row ∈ site.listedRows now) :
    row.project.achievementCount = (site.achievementsOf row.project.id).length ∧
      row.project.recruitmentCount = (site.recruitmentsOf now row.project.id).length := by
  obtain ⟨s, _, rfl⟩ := List.mem_map.mp h
  exact ⟨achievement_count, recruitment_count⟩

/-- The item of the listing that was updated last gives the row its title and its summary. -/
theorem row_from_achievement (hsite : site.Reachable) (h : row ∈ site.listedRows now)
    (hsome : site.achievementsOf row.project.id ≠ []) :
    ∃ a ∈ site.achievementsOf row.project.id, ∃ t, a.latestUpdateAt = some t ∧
      row.project.title = a.projectContent.title ∧
      row.project.summary = a.projectContent.summary ∧
      ∀ b ∈ site.achievementsOf row.project.id, ∃ t', b.latestUpdateAt = some t' ∧ t' ≤ t := by
  have htime : ∀ a ∈ site.achievementsOf row.project.id, ∃ t, a.latestUpdateAt = some t :=
    fun a ha => Option.ne_none_iff_exists'.mp
      (achievement_of_query hsite (List.mem_filter.mp ha).1).2.1
  obtain ⟨s, hrow, hs, hfirst, _⟩ := row_source h
  obtain ⟨b₀, hb₀⟩ := List.exists_mem_of_ne_nil _ hsome
  rcases hs with ⟨a, ha, rfl⟩ | ⟨r, _, rfl⟩
  · obtain ⟨t, ht⟩ := htime a ha
    refine ⟨a, ha, t, ht, ?_, ?_, fun b hb => ?_⟩
    · rw [← hrow]
      rfl
    · rw [← hrow]
      rfl
    · obtain ⟨t', ht'⟩ := htime b hb
      refine ⟨t', ht', ?_⟩
      rcases rankKey_le (hfirst b hb) with hlt | ⟨_, hle⟩
      · exact absurd hlt (lt_irrefl 0)
      · change stampOf b.latestUpdateAt ≤ stampOf a.latestUpdateAt at hle
        rw [ht, ht'] at hle
        exact WithTop.coe_le_coe.mp hle
  · -- A recruitment does not come before an achievement.
    rcases rankKey_le (hfirst b₀ hb₀) with hlt | ⟨heq, _⟩
    · cases hlt
    · cases heq

theorem row_from_recruitment (h : row ∈ site.listedRows now)
    (hnone : site.achievementsOf row.project.id = []) :
    ∃ r ∈ site.recruitmentsOf now row.project.id,
      row.project.title = r.content.projectTitle ∧ row.project.summary = r.content.introduction ∧
      ∀ r' ∈ site.recruitmentsOf now row.project.id, r'.createdAt ≤ r.createdAt := by
  obtain ⟨s, hrow, hs, _, hfirst⟩ := row_source h
  rcases hs with ⟨a, ha, _⟩ | ⟨r, hr, rfl⟩
  · rw [hnone] at ha
    cases ha
  · refine ⟨r, hr, ?_, ?_, fun r' hr' => ?_⟩
    · rw [← hrow]
      rfl
    · rw [← hrow]
      rfl
    · rcases rankKey_le (hfirst r' hr') with hlt | ⟨_, hle⟩
      · exact absurd hlt (lt_irrefl 1)
      · exact WithTop.coe_le_coe.mp hle

end Rows

section Agreement

structure ProjectsAgree (site : PublicSite) (lower : Text → Text) (now : Instant) : Prop where
  once : ((site.projectQuery lower now now {}).map fun row => row.project.id).Nodup
  listed_iff : ∀ p, (∃ row ∈ site.projectQuery lower now now {}, row.project.id = p) ↔
    site.achievementsOf p ≠ [] ∨ site.filtered lower now {} (some p) ≠ []
  achievement_count : ∀ row ∈ site.projectQuery lower now now {},
    row.project.achievementCount = (site.achievementsOf row.project.id).length
  recruitment_count : ∀ row ∈ site.projectQuery lower now now {},
    row.project.recruitmentCount =
        (site.filtered lower now {} (some row.project.id)).length ∧
      row.project.recruitmentCount = ((site.filtered lower now {} none).filter fun r =>
        r.projectId = row.project.id).length
  from_achievement : ∀ row ∈ site.projectQuery lower now now {},
    site.achievementsOf row.project.id ≠ [] →
      ∃ a ∈ site.achievementsOf row.project.id, ∃ t, a.latestUpdateAt = some t ∧
        row.project.title = a.projectContent.title ∧
        row.project.summary = a.projectContent.summary ∧
        ∀ b ∈ site.achievementsOf row.project.id, ∃ t', b.latestUpdateAt = some t' ∧ t' ≤ t
  from_recruitment : ∀ row ∈ site.projectQuery lower now now {},
    site.achievementsOf row.project.id = [] →
      ∃ r ∈ site.filtered lower now {} (some row.project.id),
        row.project.title = r.content.projectTitle ∧
        row.project.summary = r.content.introduction ∧
        ∀ r' ∈ site.filtered lower now {} (some row.project.id), r'.createdAt ≤ r.createdAt
  filtered : ∀ later filters,
    ((site.projectQuery lower now later filters).map fun row => row.project.id).Nodup ∧
      ∀ row ∈ site.projectQuery lower now later filters, row ∈ site.projectQuery lower now now {}

structure ListingsAnswer (site : PublicSite) (lower : Text → Text) (now later : Instant)
    (actor : Actor) (filters : PublicProjectFilters) (limit offset : ℕ) : Prop where
  achievements : ∃ items, site.listAchievements actor limit offset =
      .ok ⟨items, site.achievementQuery.length, limit, offset⟩ ∧
    List.Forall₂ (fun row item => row.response = some item)
      (page limit offset (descending PublicAchievementProjection.order site.achievementQuery))
      items
  recruitments : ∃ items, site.listRecruitments lower now actor filters limit offset =
      .ok ⟨items, (site.filtered lower now filters none).length, limit, offset⟩ ∧
    List.Forall₂ (fun row item => site.recruitmentResponse row = some item)
      (page limit offset (descending PublicRecruitmentProjection.order
        (site.filtered lower now filters none))) items
  projects : site.listProjects lower now later actor filters limit offset =
    .ok ⟨(page limit offset (descending PublicProjectRow.order
        (site.projectQuery lower now later filters))).map PublicProjectRow.project,
      (site.projectQuery lower now later filters).length, limit, offset⟩

/-- The page of a project shows its row and its items. Its recruitments are read after the row,
so that of those that the row counts some may have passed their deadline. -/
structure DetailAgrees (site : PublicSite) (lower : Text → Text) (now later : Instant)
    (p : ProjectId) (achievementLimit achievementOffset recruitmentLimit recruitmentOffset : ℕ)
    (detail : PublicProjectDetail) : Prop where
  project : ∃ row ∈ site.projectQuery lower now now {}, row.project = detail.project ∧
    row.project.id = p
  achievements_total : detail.achievements.total = (site.achievementsOf p).length
  achievements_items : List.Forall₂ (fun row item => row.response = some item)
    (page achievementLimit achievementOffset
      (descending PublicAchievementProjection.order (site.achievementsOf p)))
    detail.achievements.items
  recruitments_total : detail.recruitments.total = (site.filtered lower later {} (some p)).length
  recruitments_items : List.Forall₂ (fun row item => site.recruitmentResponse row = some item)
    (page recruitmentLimit recruitmentOffset (descending PublicRecruitmentProjection.order
      (site.filtered lower later {} (some p)))) detail.recruitments.items
  recruitments_later : now ≤ later → detail.recruitments.total ≤ detail.project.recruitmentCount
  recruitments_same : now ≤ later → (∀ r ∈ site.filtered lower now {} (some p),
      ∀ d, r.content.deadlineAt = some d → later < d) →
    detail.recruitments.total = detail.project.recruitmentCount

variable {site : PublicSite} {lower : Text → Text} {now later : Instant} {actor : Actor}
  {p : ProjectId}

theorem projects_agree (hsite : site.Reachable) : ProjectsAgree site lower now := by
  have hall : site.filtered lower now {} none = site.recruitmentQuery now :=
    List.filter_eq_self.mpr fun row _ =>
      decide_eq_true ⟨rfl, searches_nil _, searches_nil _, searches_nil _, rfl⟩
  constructor
  · exact filtered_nodup
  · intro p
    rw [projectQuery_unfiltered, filtered_project]
    exact listed_iff
  · intro row hrow
    exact (row_counts (filtered_subset hrow)).1
  · intro row hrow
    rw [filtered_project, hall]
    have hcount := (row_counts (filtered_subset hrow)).2
    exact ⟨hcount, hcount⟩
  · intro row hrow hsome
    exact row_from_achievement hsite (filtered_subset hrow) hsome
  · intro row hrow hnone
    rw [filtered_project]
    exact row_from_recruitment (filtered_subset hrow) hnone
  · intro later filters
    refine ⟨filtered_nodup, fun row hrow => ?_⟩
    rw [projectQuery_unfiltered]
    exact filtered_subset hrow

theorem listings_answer (hsite : site.Reachable) (hreader : site.requireReader actor = .ok ())
    (filters : PublicProjectFilters) (limit offset : ℕ) :
    ListingsAnswer site lower now later actor filters limit offset := by
  constructor
  · obtain ⟨items, hitems, hall⟩ := achievementPage_ok hsite (fun _ h => h)
      site.achievementQuery.length limit offset
    refine ⟨items, ?_, hall⟩
    unfold PublicSite.listAchievements
    rw [hreader, hitems]
    rfl
  · obtain ⟨items, hitems, hall⟩ := recruitmentPage_ok hsite lower filters limit offset none
    refine ⟨items, ?_, hall⟩
    unfold PublicSite.listRecruitments
    rw [hreader, hitems]
    rfl
  · unfold PublicSite.listProjects
    rw [hreader]
    rfl

theorem listed_parent (hsite : site.Reachable)
    (h : site.achievementsOf p ≠ [] ∨ site.recruitmentsOf now p ≠ []) :
    ∃ project, site.review.projects.get p = some project := by
  rcases h with h | h
  · obtain ⟨a, ha⟩ := List.exists_mem_of_ne_nil _ h
    obtain ⟨hquery, hdraft⟩ := List.mem_filter.mp ha
    obtain ⟨draft, project, hget, hproject⟩ := (achievement_of_query hsite hquery).2.2
    rw [hget] at hdraft
    rw [of_decide_eq_true (show decide (draft.projectId = p) = true from hdraft)] at hproject
    exact ⟨project, hproject⟩
  · obtain ⟨r, hr⟩ := List.exists_mem_of_ne_nil _ h
    obtain ⟨hquery, hp⟩ := List.mem_filter.mp hr
    obtain ⟨draft, _, ⟨_, _, _, _, howner, _⟩, hrow⟩ := mem_recruitmentQuery.mp hquery
    obtain ⟨rid, _, hrevision⟩ := Option.bind_eq_some_iff.mp hrow
    obtain ⟨_, _, heq⟩ := Option.map_eq_some_iff.mp hrevision
    obtain ⟨project, hproject, _⟩ := (Option.any_eq_true _ _).mp howner
    have hdraft : draft.projectId = p :=
      (congrArg PublicRecruitmentProjection.projectId heq).trans (of_decide_eq_true hp)
    rw [site.projects_eq, hdraft] at hproject
    exact ⟨project, hproject⟩

/-- What the section of recruitments counts at a later instant. -/
theorem recruitments_later (hsite : site.Reachable) (hlater : now ≤ later) :
    (site.recruitmentsOf later p).length ≤ (site.recruitmentsOf now p).length ∧
      ((∀ r ∈ site.recruitmentsOf now p, ∀ d, r.content.deadlineAt = some d → later < d) →
        (site.recruitmentsOf later p).length = (site.recruitmentsOf now p).length) := by
  have hle : ∀ {t t' : Instant}, (∀ r ∈ site.recruitmentsOf t p, r ∈ site.recruitmentQuery t') →
      (site.recruitmentsOf t p).length ≤ (site.recruitmentsOf t' p).length := by
    intro t t' hsub
    refine (List.subperm_of_subset (nodup_recruitmentQuery.filter _) fun r hr => ?_).length_le
    exact List.mem_filter.mpr ⟨hsub r hr, (List.mem_filter.mp hr).2⟩
  have hless := hle fun r hr => recruitmentQuery_later hlater r (List.mem_filter.mp hr).1
  refine ⟨hless, fun hahead => le_antisymm hless (hle fun r hr => ?_)⟩
  exact recruitmentQuery_until hsite (List.mem_filter.mp hr).1 (hahead r hr)

theorem detail_agrees (hsite : site.Reachable) (hreader : site.requireReader actor = .ok ())
    (achievementLimit achievementOffset recruitmentLimit recruitmentOffset : ℕ)
    (hlisted : ∃ row ∈ site.projectQuery lower now now {}, row.project.id = p) :
    ∃ detail, site.getProject lower now later actor p achievementLimit achievementOffset
        recruitmentLimit recruitmentOffset = .ok detail ∧
      DetailAgrees site lower now later p achievementLimit achievementOffset recruitmentLimit
        recruitmentOffset detail := by
  obtain ⟨row, hrow, rfl⟩ := hlisted
  have hlisted : row ∈ site.listedRows now := filtered_subset hrow
  obtain ⟨project, hproject⟩ := listed_parent hsite (listed_iff.mp ⟨row, hlisted, rfl⟩)
  have hone : (site.projectQuery lower now now {}).filter
      (fun row' => row'.project.id = row.project.id) = [row] :=
    filter_group_eq filtered_nodup hrow
  obtain ⟨hachievements, hrecruitments⟩ := row_counts hlisted
  obtain ⟨shown, hshown, hshownAll⟩ := achievementPage_ok hsite
    (fun a (ha : a ∈ site.achievementsOf row.project.id) => (List.mem_filter.mp ha).1)
    row.project.achievementCount achievementLimit achievementOffset
  obtain ⟨offered, hoffered, hofferedAll⟩ := @recruitmentPage_ok site later hsite lower {}
    recruitmentLimit recruitmentOffset (some row.project.id)
  refine ⟨⟨row.project, ⟨shown, row.project.achievementCount, achievementLimit, achievementOffset⟩,
    ⟨offered, _, recruitmentLimit, recruitmentOffset⟩⟩, ?_, ⟨row, hrow, rfl, rfl⟩, hachievements,
    hshownAll, rfl, hofferedAll, ?_, ?_⟩
  · unfold PublicSite.getProject
    rw [hreader, hproject, hone, hoffered]
    dsimp only [oneOrNone, orRefuse, bind, Except.bind]
    rw [hshown]
  · intro hlater
    dsimp only
    rw [hrecruitments, filtered_project]
    exact (recruitments_later hsite hlater).1
  · intro hlater hahead
    dsimp only
    rw [filtered_project] at hahead ⊢
    rw [hrecruitments]
    exact (recruitments_later hsite hlater).2 hahead

theorem detail_refused (hreader : site.requireReader actor = .ok ())
    (achievementLimit achievementOffset recruitmentLimit recruitmentOffset : ℕ)
    (hnot : ¬ ∃ row ∈ site.projectQuery lower now now {}, row.project.id = p) :
    site.getProject lower now later actor p achievementLimit achievementOffset recruitmentLimit
      recruitmentOffset = .error .notFound := by
  have hnone : (site.projectQuery lower now now {}).filter (fun row => row.project.id = p) = [] :=
    List.filter_eq_nil_iff.mpr fun row hrow hp => hnot ⟨row, hrow, of_decide_eq_true hp⟩
  unfold PublicSite.getProject
  rw [hreader, hnone]
  cases site.review.projects.get p <;> rfl

/-- The public projects agree with their parts in every reachable state. A project is listed once
exactly when it has a visible achievement or recruitment, it counts what the listings show of it,
its face is the latest achievement or else the latest recruitment, and a filter only leaves rows
out; and a reader sees this in the listings and on the page of a project. -/
theorem public_projects_agree (lower : Text → Text) (hsite : site.Reachable) :
    (∀ now, ProjectsAgree site lower now) ∧
    ∀ actor, site.requireReader actor = .ok () → ∀ now later,
      (∀ filters limit offset, ListingsAnswer site lower now later actor filters limit offset) ∧
      ∀ p achievementLimit achievementOffset recruitmentLimit recruitmentOffset,
        ((∃ row ∈ site.projectQuery lower now now {}, row.project.id = p) →
          ∃ detail, site.getProject lower now later actor p achievementLimit achievementOffset
              recruitmentLimit recruitmentOffset = .ok detail ∧
            DetailAgrees site lower now later p achievementLimit achievementOffset
              recruitmentLimit recruitmentOffset detail) ∧
        ((¬ ∃ row ∈ site.projectQuery lower now now {}, row.project.id = p) →
          site.getProject lower now later actor p achievementLimit achievementOffset
            recruitmentLimit recruitmentOffset = .error .notFound) := by
  refine ⟨fun now => projects_agree hsite, fun actor hreader now later => ⟨?_, ?_⟩⟩
  · exact fun filters limit offset => listings_answer hsite hreader filters limit offset
  · intro p achievementLimit achievementOffset recruitmentLimit recruitmentOffset
    exact ⟨detail_agrees hsite hreader _ _ _ _, detail_refused hreader _ _ _ _⟩

end Agreement

section Scene

def sceneApproved : ReviewWorld :=
  ⟨(ReviewCall.decision sceneReviewer 2 sceneApprove).after sceneDigests 0 sceneReclaimed, 0,
    Table.empty.put 1 1⟩

theorem reach_approved : (reviewSystem sceneDigests).Reach sceneApproved :=
  .step reach_reclaimed (.call (.decision sceneReviewer 2 sceneApprove) (le_refl 0) trivial)

def scenePost : RecruitmentWorld :=
  { postPublished with db := { postPublished.db with users := sceneDb.users } }

theorem reach_scenePost : (recruitmentSystem postDigests).Reach scenePost := by
  have helse : RecruitmentElsewhere postPublished.db scenePost.db := by
    refine ⟨rfl, rfl, rfl, fun id p hp => ⟨p, hp, rfl⟩, fun id => ?_, fun id => ?_, ?_⟩
    · change ∃ takenDown, postPublished.db.recruitments.get id = _
      cases postPublished.db.recruitments.get id with
      | none => exact ⟨false, rfl⟩
      | some row => exact ⟨row.takenDown, rfl⟩
    · change ∃ status skipped, postPublished.db.reminders.get id = _
      cases postPublished.db.reminders.get id with
      | none => exact ⟨.pending, false, rfl⟩
      | some r => exact ⟨r.status, r.skipped, rfl⟩
    · intro id r r' hr hr' hsent
      obtain rfl := Option.some.inj (hr.symm.trans hr')
      exact hsent
  exact .step reach_published (.elsewhere helse)

def sceneSite : PublicSite where
  review := sceneApproved.db
  recruitment := scenePost.db
  takenDown := ∅
  users_eq := rfl
  qualifications_eq := rfl
  projects_eq := rfl

theorem sceneSite_reachable : sceneSite.Reachable :=
  ⟨⟨_, _, reach_approved, rfl⟩, ⟨_, _, reach_scenePost, rfl⟩⟩

theorem sceneSite_achievements : sceneSite.achievementsOf 1 ≠ [] := by
  have hquery : (⟨1, some 0, some 0, ⟨['t'], ['s'], ['d'], ['g'], ['m']⟩, ⟨['t'], ['d'], [], []⟩,
      .submit, sceneSite.latestReviewedAt 2⟩ : PublicAchievementProjection) ∈
      sceneSite.achievementQuery :=
    mem_achievementQuery.mpr ⟨_, rfl, ⟨rfl, Finset.notMem_empty _⟩, rfl⟩
  exact List.ne_nil_of_mem (List.mem_filter.mpr ⟨hquery, rfl⟩)

/-- The deadline that the post shows. -/
theorem sceneSite_deadline {now d : Instant} {r : PublicRecruitmentProjection}
    (h : r ∈ sceneSite.recruitmentsOf now 1) (hd : r.content.deadlineAt = some d) : d = 10 := by
  obtain ⟨draft, hget, _, hrow⟩ := mem_recruitmentQuery.mp (List.mem_filter.mp h).1
  obtain ⟨rid, hrid, hrevision⟩ := Option.bind_eq_some_iff.mp hrow
  obtain ⟨revision, hr, heq⟩ := Option.map_eq_some_iff.mp hrevision
  rw [← heq] at hd
  rcases Table.get_put_eq_some hr with ⟨_, rfl⟩ | ⟨_, hr⟩
  · exact (Option.some.inj hd).symm
  · cases hr

/-- The project of the scene is listed, and its page counts what it shows. -/
theorem public_projects_agree_scene :
    (∃ row ∈ sceneSite.projectQuery id 5 5 {}, row.project.id = 1) ∧
      ∃ detail, sceneSite.getProject id 5 6 sceneOwner 1 20 0 20 0 = .ok detail ∧
        detail.achievements.total ≠ 0 ∧
        detail.recruitments.total = detail.project.recruitmentCount := by
  obtain ⟨hagree, hread⟩ := public_projects_agree id sceneSite_reachable
  have hlisted := ((hagree 5).listed_iff 1).mpr (.inl sceneSite_achievements)
  obtain ⟨detail, hdetail, hshown⟩ := ((hread sceneOwner rfl 5 6).2 1 20 0 20 0).1 hlisted
  refine ⟨hlisted, detail, hdetail, ?_, hshown.recruitments_same (by decide) fun r hr d hd => ?_⟩
  · rw [hshown.achievements_total]
    exact mt List.eq_nil_of_length_eq_zero sceneSite_achievements
  · rw [filtered_project] at hr
    rw [sceneSite_deadline hr hd]
    decide

end Scene

end CampusQuest.Innovation
