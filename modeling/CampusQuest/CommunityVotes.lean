import CampusQuest.CommunityRows
import CampusQuest.KeyedRows
import CampusQuest.TwoProcesses

/-!
Votes and reactions. A vote sets the stance of an account on a comment, a reaction toggles one
emoji; both read their row for update and rest on the unique key, with one retry. The retried
reaction adds what the first run wanted to add.
-/

namespace CampusQuest.Community

open Guards KeyedRows Locking Runs Tables

inductive VoteValue
  | up
  | down
  deriving DecidableEq, Repr

abbrev VoteKey := CommentId × UserId

abbrev ReactionKey := CommentId × UserId × Text

def requireVoteValue (value : ℤ) : Answer (Option VoteValue) := do
  ensure (value = -1 ∨ value = 0 ∨ value = 1) (.invalidVoteValue value)
  .ok (if value = 0 then none else if value = 1 then some .up else some .down)

def requireEmoji (allowed : List Text) (emoji : Text) : Answer Unit :=
  ensure (emoji ∈ allowed) (.unknownEmoji emoji)

/-- The gate of every community write, of which votes and reactions ignore the nickname. -/
def Site.requireWriter (s : Site) (user : UserId) : Answer Unit := do
  let _ ← s.requireCommunityWriter user
  .ok ()

def Site.requireVisible (s : Site) (id : CommentId) : Answer Unit := do
  let _ ← s.requireVisibleComment id
  .ok ()

structure VoteCall where
  userId : UserId
  commentId : CommentId
  value : ℤ

structure ReactionCall where
  userId : UserId
  commentId : CommentId
  emoji : Text

structure ReactionSite where
  site : Site
  whitelist : List Text

def setVote : Rule Site CommunityError VoteCall VoteKey (Option VoteValue) VoteValue where
  enter _ call := do
    let value ← requireVoteValue call.value
    .ok ((call.commentId, call.userId), value)
  writer s key := s.requireWriter key.2
  visible s key := s.requireVisible key.1
  onAbsent value := value
  onPresent _ value _ := value

/-- `toggle_reaction` and `_attempt`: the first run judges, the second one adds. -/
def toggleReaction : Rule ReactionSite CommunityError ReactionCall ReactionKey Unit Unit where
  enter s call := do
    requireEmoji s.whitelist call.emoji
    .ok ((call.commentId, call.userId, call.emoji), ())
  writer s key := s.site.requireWriter key.2.1
  visible s key := s.site.requireVisible key.1
  onAbsent _ := some ()
  onPresent retried _ _ := if retried then some () else none

abbrev VoteConfig (ι : Type*) :=
  Config ι (Store Site VoteKey VoteValue) (Call VoteKey (Option VoteValue) VoteValue)

abbrev VoteMove (ι : Type*) := Move ι (Event CommunityError VoteKey (Option VoteValue))

abbrev ReactionConfig (ι : Type*) :=
  Config ι (Store ReactionSite ReactionKey Unit) (Call ReactionKey Unit Unit)

abbrev ReactionMove (ι : Type*) := Move ι (Event CommunityError ReactionKey Unit)

/-- A vote that commits leaves its own value. -/
theorem vote_leaves_value {ι : Type*} [DecidableEq ι] {c c' : VoteConfig ι} {a : VoteMove ι}
    {key : VoteKey} {value : Option VoteValue} (hc : (system setVote ι).Reach c)
    (hstep : (system setVote ι).step c a c') (hlabel : a.2 = some (.settled key value)) :
    c'.store.last key = value := by
  have hcurrent := (protocol_sound setVote).current (fun _ h => h.unique) hc
  cases hstep with
  | read => cases hlabel
  | commit i ev m' s' hcommit hfree =>
    obtain rfl := Option.some.inj hlabel
    exact Commit.last_eq (f := id) (fun _ => rfl) (fun _ _ _ => rfl) hcommit (hcurrent.known i)

/-- Votes and reactions in every run from a settled start. No key ever has two rows. A vote that
commits leaves its value; in all states of the run no call has failed on a taken key, and every
key has the vote, or the reaction, that the last call left there, exactly when all steps of the
run meet the condition: an insert that is retried finds its key free, and a call that found no
row and leaves none commits while there is none. -/
theorem votes_and_reactions_settle {ι : Type*} [DecidableEq ι] :
    (∀ (c c' : VoteConfig ι) (l : List (VoteConfig ι × VoteMove ι × VoteConfig ι)),
      (system setVote ι).init c → (system setVote ι).Run c l c' →
      UniqueKeys c'.store.rows ∧
      (∀ e ∈ l, ∀ key value, e.2.1.2 = some (.settled key value) →
        e.2.2.store.last key = value) ∧
      ((∀ e ∈ l, e.2.2.store.Settled) ↔ ∀ e ∈ l, Current e.1 e.2.1)) ∧
    ∀ (c c' : ReactionConfig ι)
      (l : List (ReactionConfig ι × ReactionMove ι × ReactionConfig ι)),
      (system toggleReaction ι).init c → (system toggleReaction ι).Run c l c' →
      UniqueKeys c'.store.rows ∧
      ((∀ e ∈ l, e.2.2.store.Settled) ↔ ∀ e ∈ l, Current e.1 e.2.1) := by
  constructor
  · intro c c' l hinit hrun
    obtain ⟨hunique, hiff⟩ := run_settles (.init hinit) hinit.1.settled hrun
    refine ⟨hunique, ?_, hiff⟩
    rintro ⟨c₁, a, c₂⟩ he key value hlabel
    obtain ⟨hstep, l', hbefore⟩ := hrun.step_mem he
    exact vote_leaves_value (hbefore.reach (.init hinit)) hstep hlabel
  · intro c c' l hinit hrun
    exact run_settles (.init hinit) hinit.1.settled hrun

section Example

def votingSite : Site where
  users := Table.empty.put 1 ⟨.student, .active, ['s']⟩
  tasks := Table.empty.put 5 ⟨2, .published⟩
  collaborators := .empty
  comments := Table.empty.put 3 ⟨5, 9, none, ['c'], false, 0, 0, none, none, none, false⟩

/-- The votes of the student's tabs: how many rows have been made, and whether the last one is
still there. -/
def votes (rows : Table ℕ (Row VoteKey VoteValue)) (last : VoteKey → Option VoteValue) :
    Store Site VoteKey VoteValue :=
  ⟨votingSite, rows, last, false⟩

def noVotes : Table ℕ (Row VoteKey VoteValue) := Table.empty

def oneVote : Table ℕ (Row VoteKey VoteValue) := noVotes.put 0 ⟨(3, 1), .up⟩

theorem noVotes_free : findRow noVotes (3, 1) = none :=
  findRow_eq_none_iff.mpr fun _ _ hget => (by cases hget)

theorem oneVote_unique : UniqueKeys oneVote :=
  unique_put (fun _ _ _ _ hget => (by cases hget)) fun _ _ hget => (by cases hget)

theorem oneVote_found : findRow oneVote (3, 1) = some (0, ⟨(3, 1), .up⟩) :=
  findRow_eq (r := ⟨(3, 1), .up⟩) oneVote_unique rfl

theorem oneVote_removed : oneVote.remove 0 = noVotes := by
  apply Table.ext
  intro k
  rw [Table.get_remove]
  by_cases hk : k = 0
  · rw [if_pos hk]
    rfl
  · rw [if_neg hk]
    exact Table.get_put_of_ne _ _ hk

theorem votes_start : (votes noVotes fun _ => none).Initial := by
  refine ⟨fun _ _ _ _ hget => (by cases hget), rfl, fun key => ?_⟩
  exact valueAt_eq_none_iff.mpr (findRow_eq_none_iff.mpr fun _ _ hget => (by cases hget))

/-- The tabs: one whose upvote is under way, and another one. -/
abbrev Voting (rows : Table ℕ (Row VoteKey VoteValue)) (last : VoteKey → Option VoteValue)
    (left right : Call VoteKey (Option VoteValue) VoteValue) : Prop :=
  (KeyedRows.protocol setVote).Reaches Store.Initial (fun _ _ => True) (votes rows last) left right

/-- The other tab votes up while the first one has found no vote. -/
theorem vote_up {last : VoteKey → Option VoteValue} {retried : Bool}
    (h : Voting noVotes last (.absent retried (3, 1) (some .up)) .idle) :
    Voting oneVote (Function.update last (3, 1) (some .up))
      (.absent retried (3, 1) (some .up)) .idle := by
  have hfree (k : VoteKey ⊕ ℕ) :
      ¬ (KeyedRows.protocol setVote).locks (.absent retried (3, 1) (some .up)) k := by
    cases k <;> exact id
  have hcalled := h.read_right (.enter ⟨1, 3, 1⟩ (3, 1) (some .up) rfl) (fun k _ => hfree k) trivial
  have hwriting := hcalled.read_right (.write false _ _ rfl) (fun k _ => hfree k) trivial
  have hchecked := hwriting.read_right (.see false _ _ rfl) (fun k _ => hfree k) trivial
  have habsent := hchecked.read_right (.miss false _ _ noVotes_free) (fun k _ => hfree k) trivial
  have hinserted := habsent.read_right (.insert false _ _ .up rfl noVotes_free)
    (fun k _ => hfree k) trivial
  have hcommit : Commit setVote (.inserted (3, 1) (some .up) .up) (votes noVotes last)
      (.settled (3, 1) (some .up)) .idle
      (votes oneVote (Function.update last (3, 1) (some .up))) := .stored _ _ _ 0 rfl
  exact hinserted.commit_right hcommit (fun k _ => hfree k) trivial

/-- The other tab takes the vote back while the first one is about to run again. -/
theorem vote_none {last : VoteKey → Option VoteValue}
    (h : Voting oneVote last (.called true (3, 1) (some .up)) .idle) :
    Voting noVotes (Function.update last (3, 1) none) (.called true (3, 1) (some .up)) .idle := by
  have hfree (k : VoteKey ⊕ ℕ) :
      ¬ (KeyedRows.protocol setVote).locks (.called true (3, 1) (some .up)) k := by
    cases k <;> exact id
  have hcalled := h.read_right (.enter ⟨1, 3, 0⟩ (3, 1) none rfl) (fun k _ => hfree k) trivial
  have hwriting := hcalled.read_right (.write false _ _ rfl) (fun k _ => hfree k) trivial
  have hchecked := hwriting.read_right (.see false _ _ rfl) (fun k _ => hfree k) trivial
  have hholding := hchecked.read_right (.lock false _ _ 0 _ oneVote_found) (fun k _ => hfree k)
    trivial
  have hremoved := hholding.commit_right (.rewritten false _ _ 0 _) (fun k _ => hfree k) trivial
  have hrows : rewrite oneVote 0 (3, 1) (setVote.onPresent false none .up) = noVotes :=
    oneVote_removed
  unfold Store.settle votes at hremoved
  dsimp only at hremoved
  rwa [hrows] at hremoved

/-- One tab votes up; another one votes up first, takes the vote back before the retry and votes
up again before the retry inserts: the first tab's call fails on the taken key. -/
theorem vote_fails_twice : ¬ ∀ c : VoteConfig Bool, (system setVote Bool).Reach c →
    c.store.failed = false := by
  intro hall
  have hfree (k : VoteKey ⊕ ℕ) : ¬ (KeyedRows.protocol setVote).locks .idle k :=
    (protocol_sound setVote).start_locks _ k rfl
  have hstart : Voting noVotes (fun _ => none) .idle .idle :=
    Protocol.reaches_start votes_start rfl rfl
  have hcalled := hstart.read_left (.enter ⟨1, 3, 1⟩ (3, 1) (some .up) rfl) (fun k _ => hfree k) trivial
  have hwriting := hcalled.read_left (.write false _ _ rfl) (fun k _ => hfree k) trivial
  have hchecked := hwriting.read_left (.see false _ _ rfl) (fun k _ => hfree k) trivial
  have habsent := hchecked.read_left (.miss false _ _ noVotes_free) (fun k _ => hfree k) trivial
  have htaken : findRow oneVote (3, 1) ≠ none := by
    rw [oneVote_found]
    exact Option.some_ne_none _
  have hagain := (vote_up habsent).read_left (.conflict _ _ .up rfl htaken) (fun k _ => hfree k)
    trivial
  have hwriting := (vote_none hagain).read_left (.write true _ _ rfl) (fun k _ => hfree k) trivial
  have hchecked := hwriting.read_left (.see true _ _ rfl) (fun k _ => hfree k) trivial
  have habsent := hchecked.read_left (.miss true _ _ noVotes_free) (fun k _ => hfree k) trivial
  have hraised := (vote_up habsent).commit_left (.raised _ _ .up rfl htaken) (fun k _ => hfree k)
    trivial
  exact absurd (hall _ (System.Reach.of_guarded hraised)) (by decide)

end Example

end CampusQuest.Community
