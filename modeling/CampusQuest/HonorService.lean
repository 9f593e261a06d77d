import CampusQuest.LifecycleRows
import CampusQuest.RankingRepository
import CampusQuest.Sessions
import Mathlib.Data.List.Sort

/-!
The fixed honor rules and the statements of `evaluate_honors`. The catalog is code; the
facts of the lifetime rules are read from the claim and ledger tables at every evaluation.
An automatic honor row is addressed by the key that the two partial unique indexes keep
unique, and a grant by its user and that key.
-/

namespace CampusQuest.Rankings

open Transactions Lifecycle
open Points (PointsLedger)

inductive HonorType
  | totalCompleted
  | onTimeStreak
  | dailyRank
  | monthlyRank
  | totalEarnedPoints
  deriving DecidableEq, Repr

inductive HonorTrigger
  | claimCompleted
  | dailyRankKnown
  | monthlyRankKnown
  | pointsChanged
  deriving DecidableEq, Repr

def HonorTrigger.lifetime : HonorTrigger → Bool
  | .claimCompleted | .pointsChanged => true
  | .dailyRankKnown | .monthlyRankKnown => false

/-- An evaluation request as its construction lets it through. The shape of the period is
left out. -/
structure HonorEvaluationEvent where
  trigger : HonorTrigger
  rank : Option ℤ
  period : Option String
  lifetime_facts : trigger.lifetime = true → rank = none ∧ period = none
  rank_facts : trigger.lifetime = false → (∃ r, rank = some r ∧ 1 ≤ r) ∧ period ≠ none

structure HonorFacts where
  completedCount : ℕ := 0
  onTimeStreak : ℕ := 0
  earnedPoints : ℤ := 0
  deriving DecidableEq

structure HonorDefinition where
  honorType : HonorType
  name : String
  description : String
  threshold : Option ℕ
  bestRank : Option ℤ
  periodic : Bool
  deriving DecidableEq

def lifetimeDefinition (honorType : HonorType) (name description : String) (threshold : ℕ) :
    HonorDefinition :=
  ⟨honorType, name, description, some threshold, none, false⟩

def rankDefinition (honorType : HonorType) (name description : String) (bestRank : ℤ) :
    HonorDefinition :=
  ⟨honorType, name, description, none, some bestRank, true⟩

def fixedHonorDefinitions : List HonorDefinition :=
  [lifetimeDefinition .totalCompleted "首次完成任务" "完成了第一个任务。" 1,
    lifetimeDefinition .totalCompleted "累计完成 10 个任务" "累计完成了 10 个任务。" 10,
    lifetimeDefinition .totalCompleted "累计完成 50 个任务" "累计完成了 50 个任务。" 50,
    lifetimeDefinition .onTimeStreak "连续 10 个任务按时" "连续 10 个任务在截止时间前完成。" 10,
    rankDefinition .dailyRank "今日卷王" "单日排行榜第一名。" 1,
    rankDefinition .monthlyRank "本月卷王" "月度排行榜第一名。" 1,
    rankDefinition .monthlyRank "月度 Top 3" "月度排行榜前三名。" 3,
    lifetimeDefinition .totalEarnedPoints "累计获得 500 积分" "任务贡献累计获得 500 积分。" 500,
    lifetimeDefinition .totalEarnedPoints "累计获得 2000 积分" "任务贡献累计获得 2000 积分。" 2000,
    lifetimeDefinition .totalEarnedPoints "累计获得 10000 积分" "任务贡献累计获得 10000 积分。"
      10000]

def HonorDefinition.reached (d : HonorDefinition) (facts : HonorFacts) : Bool :=
  match d.threshold with
  | none => false
  | some n =>
    (d.honorType == .totalCompleted && decide (n ≤ facts.completedCount)) ||
      (d.honorType == .onTimeStreak && decide (n ≤ facts.onTimeStreak)) ||
      (d.honorType == .totalEarnedPoints && decide ((n : ℤ) ≤ facts.earnedPoints))

def HonorDefinition.ranked (d : HonorDefinition) (rank : Option ℤ) : Bool :=
  match d.bestRank, rank with
  | some best, some r => decide (r ≤ best)
  | _, _ => false

def matchingHonorDefinitions (event : HonorEvaluationEvent) (facts : HonorFacts) :
    List HonorDefinition :=
  if event.trigger.lifetime then
    fixedHonorDefinitions.filter (·.reached facts)
  else
    let wanted := if event.trigger = .dailyRankKnown then HonorType.dailyRank else .monthlyRank
    fixedHonorDefinitions.filter fun d => d.honorType == wanted && d.ranked event.rank

/-- The columns of an automatic honor row under its partial unique index. -/
structure HonorKey where
  honorType : HonorType
  name : String
  period : Option String
  deriving DecidableEq

structure Honor where
  key : HonorKey
  description : String
  deriving DecidableEq

structure UserHonor where
  userId : UserId
  honorId : HonorKey
  deriving DecidableEq

/-- The rows that the honor service reads and writes, each table in its physical order. -/
structure HonorDb where
  users : List UserId
  claims : List AssignmentClaim
  ledger : List PointsLedger
  honors : List Honor
  userHonors : List UserHonor

namespace HonorDb

def completedClaims (db : HonorDb) (user : UserId) : List AssignmentClaim :=
  db.claims.filter fun c => c.userId == user && c.status == .completed

def onTimeTier : ℤ := 100

/-- `completion_counts`: the completed claims and those of the on-time tier. -/
def completionCounts (db : HonorDb) (user : UserId) : ℕ × ℕ :=
  ((db.completedClaims user).length,
    (db.completedClaims user).countP fun c => c.rewardTierLocked == some onTimeTier)

/-- The tiers of the completed claims, newest first; claims of one instant keep their
physical order. -/
def tiersNewestFirst (db : HonorDb) (user : UserId) : List (Option ℤ) :=
  ((db.completedClaims user).insertionSort fun c c' =>
    c'.terminalAt.getD c'.claimedAt ≤ c.terminalAt.getD c.claimedAt).map (·.rewardTierLocked)

def definitionRows (db : HonorDb) (key : HonorKey) : List Honor :=
  db.honors.filter fun h => h.key == key

def grant (db : HonorDb) (user : UserId) (key : HonorKey) : Option UserHonor :=
  db.userHonors.find? fun g => g.userId == user && g.honorId == key

end HonorDb

inductive LockKey
  | honor (key : HonorKey)
  | userHonor (user : UserId) (key : HonorKey)
  | claim (row : ℕ)
  | entry (t : Points.LedgerId)
  deriving DecidableEq

inductive Query
  | user (user : UserId)
  | completionCounts (user : UserId)
  | tiersNewestFirst (user : UserId)
  | userScore (user : UserId) (startsAt endsAt : Option Instant)
  | definitionRows (key : HonorKey)
  | grant (user : UserId) (key : HonorKey)

abbrev Query.Answer : Query → Type
  | .user _ => Bool
  | .completionCounts _ => ℕ × ℕ
  | .tiersNewestFirst _ => List (Option ℤ)
  | .userScore _ _ _ => ℤ
  | .definitionRows _ => List Honor
  | .grant _ _ => Option UserHonor

def Query.answer : (q : Query) → HonorDb → q.Answer
  | .user u, db => db.users.contains u
  | .completionCounts u, db => db.completionCounts u
  | .tiersNewestFirst u, db => db.tiersNewestFirst u
  | .userScore u startsAt endsAt, db => Rankings.userScore db.ledger u startsAt endsAt
  | .definitionRows key, db => db.definitionRows key
  | .grant u key, db => db.grant u key

inductive Write
  | honor (row : Honor)
  | userHonor (row : UserHonor)
  | complete (row : ℕ) (instant : Instant)
  | relocate (row : ℕ)
  | post (e : PointsLedger)

/-- What an approval makes of a claim: its reward tier was locked before. -/
def approved (instant : Instant) (c : AssignmentClaim) : AssignmentClaim :=
  if c.status = .underReview then { c with status := .completed, terminalAt := some instant } else c

/-- The table with a row written anew at its end, as an update leaves it. -/
def relocated (claims : List AssignmentClaim) (row : ℕ) : List AssignmentClaim :=
  claims.eraseIdx row ++ claims[row]?.toList

def Write.apply : Write → HonorDb → HonorDb
  | .honor row, db => { db with honors := db.honors ++ [row] }
  | .userHonor row, db => { db with userHonors := db.userHonors ++ [row] }
  | .complete row instant, db => { db with claims := db.claims.modify row (approved instant) }
  | .relocate row, db => { db with claims := relocated db.claims row }
  | .post e, db => { db with ledger := db.ledger ++ [e] }

def Write.row : Write → LockKey
  | .honor row => .honor row.key
  | .userHonor row => .userHonor row.userId row.honorId
  | .complete row _ => .claim row
  | .relocate row => .claim row
  | .post e => .entry e.triple

/-- The unique indexes of the three tables that rows are inserted into. -/
def LockKey.taken : LockKey → HonorDb → Bool
  | .honor key, db => db.honors.any (·.key == key)
  | .userHonor u key, db => db.userHonors.any fun g => g.userId == u && g.honorId == key
  | .entry t, db => db.ledger.any (·.triple == t)
  | .claim _, _ => false

abbrev statements : Interface HonorDb LockKey where
  Query := Query
  Answer := Query.Answer
  answer := Query.answer
  Write := Write
  apply := Write.apply
  row := Write.row
  taken k db := k.taken db = true
  decTaken _ _ := inferInstance

inductive HonorError
  | userNotFound (user : UserId)
  | integrityError
  | multipleResultsFound
  deriving DecidableEq

abbrev HonorTxn (α : Type) := Txn statements HonorError α

def ask (q : Query) : HonorTxn q.Answer := .ask q .done

def requireUser (user : UserId) : HonorTxn Unit := do
  if ← ask (.user user) then return () else .raise (.userNotFound user)

/-- The walk over the tiers, broken off at the first that is not on time. -/
def onTimeRun : List (Option ℤ) → ℕ
  | [] => 0
  | tier :: rest => if tier = some HonorDb.onTimeTier then onTimeRun rest + 1 else 0

def currentOnTimeStreak (user : UserId) : HonorTxn ℕ := do
  return onTimeRun (← ask (.tiersNewestFirst user))

def findDefinitionRow (d : HonorDefinition) (period : Option String) : HonorTxn (Option Honor) := do
  match ← ask (.definitionRows ⟨d.honorType, d.name, period⟩) with
  | [] => return none
  | [honor] => return some honor
  | _ => .raise .multipleResultsFound

/-- The loser of a create race adopts the row of the winner. -/
def ensureDefinitionRow (d : HonorDefinition) (period : Option String) : HonorTxn Honor := do
  let periodValue := if d.periodic then period else none
  match ← findDefinitionRow d periodValue with
  | some existing => return existing
  | none =>
    let honor : Honor := ⟨⟨d.honorType, d.name, periodValue⟩, d.description⟩
    Txn.nested (.honor honor.key)
      (do
        match ← findDefinitionRow d periodValue with
        | none => .raise .integrityError
        | some adopted => return adopted)
      (.insert (.honor honor) .integrityError (.done honor))

def grantOnce (user : UserId) (honor : Honor) : HonorTxn (Option UserHonor) := do
  match ← ask (.grant user honor.key) with
  | some _ => return none
  | none =>
    let userHonor : UserHonor := ⟨user, honor.key⟩
    Txn.nested (.userHonor user honor.key)
      (do
        match ← ask (.grant user honor.key) with
        | none => .raise .integrityError
        | some _ => return none)
      (.insert (.userHonor userHonor) .integrityError (.done (some userHonor)))

def grantAll (user : UserId) (period : Option String) :
    List HonorDefinition → HonorTxn (List UserHonor)
  | [] => return []
  | d :: rest => do
    let honor ← ensureDefinitionRow d period
    let userHonor ← grantOnce user honor
    let granted ← grantAll user period rest
    return userHonor.toList ++ granted

def honorFacts (user : UserId) (trigger : HonorTrigger) : HonorTxn HonorFacts := do
  if trigger.lifetime = false then return {}
  else do
    let counts ← ask (.completionCounts user)
    let streak ← currentOnTimeStreak user
    let points ← ask (.userScore user none none)
    return ⟨counts.1, streak, points⟩

def evaluateHonors (user : UserId) (event : HonorEvaluationEvent) : HonorTxn (List UserHonor) := do
  requireUser user
  let facts ← honorFacts user event.trigger
  grantAll user event.period (matchingHonorDefinitions event facts)

end CampusQuest.Rankings
