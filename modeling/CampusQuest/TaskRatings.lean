import CampusQuest.CommunityRows
import CampusQuest.KeyedRows
import CampusQuest.TwoProcesses
import Mathlib.Algebra.Order.BigOperators.Group.Finset
import Mathlib.Tactic

/-!
Ratings of tasks. A student with a completed claim on a task rates it from one to five, and
again at will; a call reads its row for update and rests on the unique key, with one retry.
Others see the average and the number of the ratings.
-/

namespace CampusQuest.Community

open Guards KeyedRows Locking Runs Tables
open Lifecycle (ClaimStatus UserStatus)

/-- What a call may carry where a number belongs. -/
inductive RatingArgument
  | int (value : ℤ)
  | bool (value : Bool)
  | other
  deriving DecidableEq, Repr

structure Rating where
  value : ℕ
  bounds : 1 ≤ value ∧ value ≤ 5
  deriving DecidableEq

abbrev RatingKey := TaskId × UserId

/-- The columns of `assignment_claims` that the rating gate reads. -/
structure ClaimFace where
  taskId : TaskId
  userId : UserId
  status : ClaimStatus
  deriving DecidableEq

structure RatingSite where
  users : Table UserId Participant
  tasks : Table TaskId TaskFace
  claims : Table ClaimId ClaimFace

inductive RatingError
  | invalidRating (rating : RatingArgument)
  | commenterNotFound (user : UserId)
  | notStudent (user : UserId) (role : Role)
  | accountNotActive (user : UserId)
  | taskNotFound (id : TaskId)
  | completionRequired (user : UserId) (task : TaskId)
  deriving DecidableEq, Repr

namespace RatingError

def code : RatingError → ErrorCode
  | invalidRating _ => .validationError
  | commenterNotFound _ | taskNotFound _ => .notFound
  | notStudent _ _ | completionRequired _ _ => .permissionDenied
  | accountNotActive _ => .accountNotActive

def statusCode : RatingError → ℕ
  | invalidRating _ => 400
  | commenterNotFound _ | taskNotFound _ => 404
  | notStudent _ _ | accountNotActive _ | completionRequired _ _ => 403

def message : RatingError → String
  | invalidRating _ => "评分必须是 1 到 5 之间的整数"
  | commenterNotFound _ => "用户不存在"
  | notStudent _ _ => "仅学生账号可发表评论"
  | accountNotActive _ => "账号当前状态不允许执行该操作"
  | taskNotFound _ => "任务不存在"
  | completionRequired _ _ => "只有完成过该任务至少一个领取的用户可评分"

end RatingError

/-- `_is_valid_rating`: an integer of the interval, and no bool. -/
def requireRating (rating : RatingArgument) : Except RatingError Rating :=
  match rating with
  | .int value =>
    if h : 1 ≤ value ∧ value ≤ 5 then
      .ok ⟨value.toNat, by omega⟩
    else .error (.invalidRating rating)
  | _ => .error (.invalidRating rating)

namespace RatingSite

variable (s : RatingSite)

def requireStudentWriter (user : UserId) : Except RatingError Unit := do
  let row ← orRefuse (.commenterNotFound user) (s.users.get user)
  ensure (row.role = .student) (.notStudent user row.role)
  ensure (row.status = .active) (.accountNotActive user)

def requireCompleter (task : TaskId) (user : UserId) : Except RatingError Unit := do
  let _ ← orRefuse (.taskNotFound task) (s.tasks.get task)
  ensure (s.claims.Any fun _ c => c.taskId = task ∧ c.userId = user ∧ c.status = .completed)
    (.completionRequired user task)

end RatingSite

structure RatingCall where
  userId : UserId
  taskId : TaskId
  rating : RatingArgument

/-- `rate_task` and `_attempt`. The retry is the same write again. -/
def rateTask : Rule RatingSite RatingError RatingCall RatingKey Rating Rating where
  enter _ call := do
    let rating ← requireRating call.rating
    .ok ((call.taskId, call.userId), rating)
  writer s key := s.requireStudentWriter key.2
  visible s key := s.requireCompleter key.1 key.2
  onAbsent rating := some rating
  onPresent _ rating _ := some rating

abbrev RatingRows := Table ℕ (Row RatingKey Rating)

abbrev RatingConfig (ι : Type*) :=
  Config ι (Store RatingSite RatingKey Rating) (Call RatingKey Rating Rating)

abbrev RatingMove (ι : Type*) := Move ι (Event RatingError RatingKey Rating)

structure RatingSummary where
  average : ℚ
  count : ℕ
  deriving DecidableEq

def ratingSummary (rows : RatingRows) (task : TaskId) : Option RatingSummary :=
  let count := rows.count fun _ r => r.key.1 = task
  if count = 0 then none
  else some ⟨(rows.total fun _ r => if r.key.1 = task then (r.value.value : ℚ) else 0) / count,
    count⟩

theorem rateTask_writes : rateTask.Writes where
  absent _ := Option.some_ne_none _
  present _ _ _ := Option.some_ne_none _

section Runs

variable {ι : Type*} {c c' : RatingConfig ι}
  {l : List (RatingConfig ι × RatingMove ι × RatingConfig ι)}

def ratingOf (key : RatingKey) : Option (Event RatingError RatingKey Rating) → Option Rating
  | some (.settled key' rating) => if key' = key then some rating else none
  | _ => none

def latestRating (l : List (RatingConfig ι × RatingMove ι × RatingConfig ι)) (key : RatingKey) :
    Option Rating :=
  l.reverse.findSome? fun e => ratingOf key e.2.1.2

theorem latestRating_snoc (l : List (RatingConfig ι × RatingMove ι × RatingConfig ι))
    (e : RatingConfig ι × RatingMove ι × RatingConfig ι) (key : RatingKey) :
    latestRating (l ++ [e]) key = (ratingOf key e.2.1.2).or (latestRating l key) := by
  unfold latestRating
  rw [List.reverse_append, List.reverse_singleton, List.singleton_append, List.findSome?_cons]
  cases ratingOf key e.2.1.2 <;> rfl

/-- One commit leaves the rating of its event under its key, and the others as they are. -/
theorem commit_last {s s' : Store RatingSite RatingKey Rating} {m m' : Call RatingKey Rating Rating}
    {ev : Event RatingError RatingKey Rating} (h : Commit rateTask m s ev m' s')
    (hknown : Knows rateTask s m) (key : RatingKey) :
    s'.last key = (ratingOf key (some ev)).or (s.last key) := by
  have hsettle (key' : RatingKey) (rating : Rating) (rows : RatingRows) :
      (s.settle key' rows (some rating)).last key =
        (ratingOf key (some (.settled key' rating))).or (s.last key) := by
    unfold Store.settle ratingOf
    dsimp only
    by_cases hkey : key' = key
    · subst hkey
      simp
    · simp [hkey, Function.update_of_ne (Ne.symm hkey)]
  cases h with
  | nothing retried key' intent hvalue => exact absurd hvalue (Option.some_ne_none _)
  | stored key' intent value id hfresh =>
    obtain rfl : intent = value := Option.some.inj hknown.2
    exact hsettle key' intent _
  | rewritten retried key' intent id row => exact hsettle key' intent _
  | _ => rfl

variable [DecidableEq ι]

theorem run_latest (hempty : ∀ id, c.store.rows.get id = none) (hinit : (system rateTask ι).init c)
    (hrun : (system rateTask ι).Run c l c') (key : RatingKey) :
    c'.store.last key = latestRating l key := by
  induction hrun with
  | nil =>
    have hvalue : valueAt c.store.rows key = none :=
      valueAt_eq_none_iff.mpr (findRow_eq_none_iff.mpr fun id r hget => by simp [hempty id] at hget)
    rw [← hinit.1.settled.last key, hvalue]
    rfl
  | @snoc c₁ c₂ a l hrun hstep ih =>
    have hcurrent := (protocol_sound rateTask).current (fun _ h => h.unique)
      (hrun.reach (.init hinit))
    rw [latestRating_snoc, ← ih]
    cases hstep with
    | read => rfl
    | commit i ev m' s' hcommit hfree => exact commit_last hcommit (hcurrent.known i) key

def stars (rating : Option Rating) : ℚ := rating.elim 0 fun r => r.value

/-- The mean of figures from one to five. -/
theorem mean_bounds {raters : Finset UserId} {f : UserId → Option Rating}
    (hf : ∀ user ∈ raters, f user ≠ none) (hne : raters ≠ ∅) :
    1 ≤ (∑ user ∈ raters, stars (f user)) / raters.card ∧
      (∑ user ∈ raters, stars (f user)) / raters.card ≤ 5 := by
  have hbounds (user : UserId) (huser : user ∈ raters) :
      1 ≤ stars (f user) ∧ stars (f user) ≤ 5 := by
    obtain ⟨rating, hrating⟩ := Option.ne_none_iff_exists'.mp (hf user huser)
    obtain ⟨hlow, hhigh⟩ := rating.bounds
    rw [hrating]
    simp only [stars, Option.elim_some]
    constructor
    · exact_mod_cast hlow
    · exact_mod_cast hhigh
  have hcard : (0 : ℚ) < raters.card := by
    have := Finset.card_pos.mpr (Finset.nonempty_iff_ne_empty.mpr hne)
    exact_mod_cast this
  have hlow := Finset.card_nsmul_le_sum raters (fun user => stars (f user)) 1
    fun user huser => (hbounds user huser).1
  have hhigh := Finset.sum_le_card_nsmul raters (fun user => stars (f user)) 5
    fun user huser => (hbounds user huser).2
  rw [nsmul_eq_mul] at hlow hhigh
  constructor
  · rw [le_div_iff₀ hcard]
    linarith
  · rw [div_le_iff₀ hcard]
    linarith

theorem ratingSummary_eq {rows : RatingRows} (hrows : UniqueKeys rows) (task : TaskId) :
    ratingSummary rows task = (if holders rows task = ∅ then none else
      some ⟨(∑ user ∈ holders rows task, stars (valueAt rows (task, user))) /
        (holders rows task).card, (holders rows task).card⟩) := by
  unfold ratingSummary
  dsimp only
  rw [count_group hrows task, total_group hrows task fun r => (r.value : ℚ)]
  by_cases hnone : holders rows task = ∅
  · rw [if_pos hnone, if_pos (Finset.card_eq_zero.mpr hnone)]
  · rw [if_neg hnone, if_neg (mt Finset.card_eq_zero.mp hnone)]
    rfl

end Runs

section Example

def ratingSite : RatingSite where
  users := Table.empty.put 1 ⟨.student, .active, ['s']⟩
  tasks := Table.empty.put 5 ⟨2, .closed⟩
  claims := Table.empty.put 7 ⟨5, 1, .completed⟩

theorem two_bounds : 1 ≤ 2 ∧ 2 ≤ 5 := by decide

theorem four_bounds : 1 ≤ 4 ∧ 4 ≤ 5 := by decide

def twoStars : Rating := ⟨2, two_bounds⟩

def fourStars : Rating := ⟨4, four_bounds⟩

def noRatings : Store RatingSite RatingKey Rating := ⟨ratingSite, .empty, fun _ => none, false⟩

def fourRated : Store RatingSite RatingKey Rating :=
  noRatings.settle (5, 1) (noRatings.rows.put 0 ⟨(5, 1), fourStars⟩) (some fourStars)

def twoRated : Store RatingSite RatingKey Rating :=
  fourRated.settle (5, 1) (rewrite fourRated.rows 0 (5, 1) (some twoStars)) (some twoStars)

theorem noRatings_free : findRow noRatings.rows (5, 1) = none :=
  findRow_eq_none_iff.mpr fun _ _ hget => (by cases hget)

theorem fourRated_unique : UniqueKeys fourRated.rows :=
  unique_put (fun _ _ _ _ hget => (by cases hget)) fun _ _ hget => (by cases hget)

theorem fourRated_found : findRow fourRated.rows (5, 1) = some (0, ⟨(5, 1), fourStars⟩) :=
  findRow_eq (r := ⟨(5, 1), fourStars⟩) fourRated_unique rfl

theorem ratingSite_allows : ratingSite.requireStudentWriter 1 = .ok () ∧
    ratingSite.requireCompleter 5 1 = .ok () := by
  decide

def Unrated (s : Store RatingSite RatingKey Rating) : Prop :=
  s.Initial ∧ ∀ id, s.rows.get id = none

/-- The tabs of the student: one that gives two stars, and another one. -/
abbrev RatingTabs (s : Store RatingSite RatingKey Rating)
    (left right : Call RatingKey Rating Rating) : Prop :=
  (KeyedRows.protocol rateTask).Reaches Unrated (fun _ _ => True) s left right

/-- Two tabs of the student find no rating. The one that gives four stars inserts its row first;
the other one meets the unique key, runs again and leaves two stars. -/
theorem tabs_race : RatingTabs twoRated .idle .idle := by
  obtain ⟨hwriter, hvisible⟩ := ratingSite_allows
  have hempty : Unrated noRatings := by
    refine ⟨⟨fun _ _ _ _ hget => (by cases hget), rfl, fun key => ?_⟩, fun _ => rfl⟩
    exact valueAt_eq_none_iff.mpr (findRow_eq_none_iff.mpr fun _ _ hget => (by cases hget))
  have hleft (k : RatingKey ⊕ ℕ) :
      ¬ (KeyedRows.protocol rateTask).locks (.absent false (5, 1) twoStars) k := by
    cases k <;> exact id
  have hidle (k : RatingKey ⊕ ℕ) : ¬ (KeyedRows.protocol rateTask).locks .idle k :=
    (protocol_sound rateTask).start_locks _ k rfl
  have hstart : RatingTabs noRatings .idle .idle := Protocol.reaches_start hempty rfl rfl
  have hcalled := hstart.read_left (.enter ⟨1, 5, .int 2⟩ (5, 1) twoStars rfl)
    (fun k _ => hidle k) trivial
  have hwriting := hcalled.read_left (.write false _ _ hwriter) (fun k _ => hidle k) trivial
  have hchecked := hwriting.read_left (.see false _ _ hvisible) (fun k _ => hidle k) trivial
  have habsent := hchecked.read_left (.miss false _ _ noRatings_free) (fun k _ => hidle k) trivial
  have hcalled := habsent.read_right (.enter ⟨1, 5, .int 4⟩ (5, 1) fourStars rfl)
    (fun k _ => hleft k) trivial
  have hwriting := hcalled.read_right (.write false _ _ hwriter) (fun k _ => hleft k) trivial
  have hchecked := hwriting.read_right (.see false _ _ hvisible) (fun k _ => hleft k) trivial
  have habsent := hchecked.read_right (.miss false _ _ noRatings_free) (fun k _ => hleft k) trivial
  have hinserted := habsent.read_right (.insert false _ _ fourStars rfl noRatings_free)
    (fun k _ => hleft k) trivial
  have hstored : Commit rateTask (.inserted (5, 1) fourStars fourStars) noRatings
      (.settled (5, 1) fourStars) .idle fourRated := .stored _ _ _ 0 rfl
  have hfour := hinserted.commit_right hstored (fun k _ => hleft k) trivial
  have htaken : findRow fourRated.rows (5, 1) ≠ none := by
    rw [fourRated_found]
    exact Option.some_ne_none _
  have hagain := hfour.read_left (.conflict _ _ twoStars rfl htaken) (fun k _ => hidle k) trivial
  have hwriting := hagain.read_left (.write true _ _ hwriter) (fun k _ => hidle k) trivial
  have hchecked := hwriting.read_left (.see true _ _ hvisible) (fun k _ => hidle k) trivial
  have hholding := hchecked.read_left (.lock true _ _ 0 _ fourRated_found) (fun k _ => hidle k)
    trivial
  have hrewritten : Commit rateTask (.holding true (5, 1) twoStars 0 ⟨(5, 1), fourStars⟩) fourRated
      (.settled (5, 1) twoStars) .idle twoRated := .rewritten _ _ _ 0 _
  exact hholding.commit_left hrewritten (fun k _ => hidle k) trivial

end Example

end CampusQuest.Community
