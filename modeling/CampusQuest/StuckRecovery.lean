import CampusQuest.DeliveryOwnership

/-!
The recovery statement beside all other writers of a delivery. Its inner SELECT lists the
stuck rows of the statement's snapshot. Its outer UPDATE waits for each row's lock and then
asks only whether the id is in the list, so it writes the row as that is by then. A SENT or
FAILED row keeps its status exactly while no beat writes a listed row that has become final.
-/

namespace CampusQuest.Notifications

open Tables Runs System

abbrev BeatId := ℕ

structure Beat where
  now : Instant
  ids : List DeliveryId

/-- The deliveries with the beats that wait for row locks. -/
structure Monitored where
  world : World
  beats : Table BeatId Beat

inductive MonitorAct
  | act (a : Act)
  | select (b : BeatId) (now : Instant)
  | update (b : BeatId)
  | abort (b : BeatId)

namespace Monitored

variable (m : Monitored)

def select (settings : DeliverySettings) (b : BeatId) (now : Instant) : Monitored :=
  match m.beats.get b with
  | some _ => m
  | none => { m with beats := m.beats.put b ⟨now, stuckSending m.world.db settings now⟩ }

/-- The table after the update of a beat. A row that the statement has locked is not written
by anyone else until the commit, so all listed rows are taken as they are at that moment. -/
def written (beat : Beat) : Db :=
  beat.ids.foldl (fun db id => db.recoverOne beat.now id) m.world.db

def update (b : BeatId) : Monitored :=
  match m.beats.get b with
  | none => m
  | some beat => ⟨m.world.setDb (m.written beat), m.beats.remove b⟩

def perform (settings : DeliverySettings) (m : Monitored) : MonitorAct → Monitored
  | .act a => { m with world := m.world.perform settings a }
  | .select b now => m.select settings b now
  | .update b => m.update b
  | .abort b => { m with beats := m.beats.remove b }

/-- Nothing is registered and no beat is under way at first. -/
structure Initial : Prop where
  world : m.world.Initial
  beats : m.beats = .empty

/-- No row that the beat has listed is final when the beat writes. -/
def StillOpen : MonitorAct → Prop
  | .update b => ∀ beat, m.beats.get b = some beat → ∀ id ∈ beat.ids, ∀ d,
      m.world.db.deliveries.get id = some d → d.status.terminal = false
  | _ => True

end Monitored

/-- Sends, repairs and any number of overlapping beats of the monitor in any order. -/
def monitoredDelivery (settings : DeliverySettings) : System Monitored MonitorAct :=
  ofFun Monitored.Initial (Monitored.perform settings)

/-- A delivery that is SENT or FAILED keeps its status over a step. -/
def FinalKept (m m' : Monitored) : Prop :=
  ∀ id d, m.world.db.deliveries.get id = some d → d.status.terminal = true →
    ∃ d', m'.world.db.deliveries.get id = some d' ∧ d'.status = d.status

def FinalRows (m m' : Monitored) : Prop :=
  ∀ id d, m.world.db.deliveries.get id = some d → d.status.terminal = true →
    m'.world.db.deliveries.get id = some d

section Beats

variable {settings : DeliverySettings} {m : Monitored} {a : MonitorAct}

theorem FinalRows.kept {m' : Monitored} (h : FinalRows m m') : FinalKept m m' :=
  fun id d hd hterminal => ⟨d, h id d hd hterminal, rfl⟩

/-- A beat alone is the recovery that runs as one act. -/
theorem select_update (b : BeatId) (now : Instant) (hb : m.beats.get b = none) :
    ((m.perform settings (.select b now)).perform settings (.update b)).world =
      m.world.perform settings (.recover now) := by
  change ((m.select settings b now).update b).world = _
  unfold Monitored.select
  rw [hb]
  unfold Monitored.update
  simp only [Table.get_put_self]
  rfl

theorem update_get {b : BeatId} {beat : Beat} (hb : m.beats.get b = some beat) (id : DeliveryId) :
    (m.perform settings (.update b)).world.db.deliveries.get id =
      if id ∈ beat.ids then (m.world.db.deliveries.get id).map (·.recover beat.now)
      else m.world.db.deliveries.get id := by
  have hworld : (m.perform settings (.update b)).world = m.world.setDb (m.written beat) := by
    change (m.update b).world = _
    unfold Monitored.update
    rw [hb]
  rw [hworld]
  exact get_foldl_recover beat.ids m.world.db beat.now id

/-- Every writer but the update of a beat decides under the row's lock. -/
theorem act_finalRows (x : Act) : FinalRows m (m.perform settings (.act x)) := by
  intro id d hd hterminal
  obtain ⟨d', hd', hmove⟩ := (perform_deed settings m.world x).row_move hd
  rw [← hmove.terminal hterminal]
  exact hd'

theorem update_finalRows {b : BeatId} (hopen : m.StillOpen (.update b)) :
    FinalRows m (m.perform settings (.update b)) := by
  intro id d hd hterminal
  cases hb : m.beats.get b with
  | none =>
    change (m.update b).world.db.deliveries.get id = some d
    unfold Monitored.update
    rw [hb]
    exact hd
  | some beat =>
    have hnot : id ∉ beat.ids := by
      intro hmem
      have hfalse := hopen beat hb id hmem d hd
      rw [hterminal] at hfalse
      cases hfalse
    rw [update_get hb, if_neg hnot, hd]

theorem finalRows_of_open (hopen : m.StillOpen a) : FinalRows m (m.perform settings a) := by
  cases a with
  | act x => exact act_finalRows x
  | select b now =>
    intro id d hd _
    change (m.select settings b now).world.db.deliveries.get id = some d
    unfold Monitored.select
    split
    next => exact hd
    next => exact hd
  | update b => exact update_finalRows hopen
  | abort b => exact fun id d hd _ => hd

/-- A step keeps what is final exactly when it writes no listed row that has become final. -/
theorem finalKept_iff : FinalKept m (m.perform settings a) ↔ m.StillOpen a := by
  constructor
  · intro hkept
    cases a with
    | act | select | abort => trivial
    | update b =>
      intro beat hb id hmem d hd
      by_contra hterminal
      have hterminal : d.status.terminal = true := by simpa using hterminal
      obtain ⟨d', hd', hstatus⟩ := hkept id d hd hterminal
      rw [update_get hb, if_pos hmem, hd] at hd'
      cases hd'
      rw [← hstatus] at hterminal
      cases hterminal
  · intro hopen
    exact (finalRows_of_open hopen).kept

/-- Along a run whose beats only write open rows, a final row stays as it is. -/
theorem finalRows_run {m' : Monitored} {l : List (Monitored × MonitorAct × Monitored)}
    (hrun : (monitoredDelivery settings).Run m l m')
    (hopen : ∀ e ∈ l, e.1.StillOpen e.2.1) : FinalRows m m' := by
  induction hrun with
  | nil => exact fun id d hd _ => hd
  | @snoc m₁ m₂ a l hrun hstep ih =>
    obtain rfl : m₂ = m₁.perform settings a := hstep
    intro id d hd hterminal
    have hbefore := ih (fun e he => hopen e (List.mem_append_left _ he)) id d hd hterminal
    have hlast := hopen (m₁, a, m₁.perform settings a) (by simp)
    exact finalRows_of_open hlast id d hbefore hterminal

end Beats

/-- A SENT or FAILED delivery keeps its status over every step of a run exactly when no beat
of the run writes a listed row that has become SENT or FAILED by then; and between any two
states of such a run a final row is not written at all. -/
theorem delivered_is_final (settings : DeliverySettings) :
    (∀ m l m', (monitoredDelivery settings).Reach m → (monitoredDelivery settings).Run m l m' →
      ((∀ e ∈ l, FinalKept e.1 e.2.2) ↔ ∀ e ∈ l, e.1.StillOpen e.2.1)) ∧
    ∀ m l m', (monitoredDelivery settings).Reach m → (monitoredDelivery settings).Run m l m' →
      (∀ e ∈ l, e.1.StillOpen e.2.1) → FinalRows m m' := by
  refine ⟨fun m l m' _ hrun => ?_, fun m l m' _ hrun hopen => finalRows_run hrun hopen⟩
  have hstep : ∀ e ∈ l, (FinalKept e.1 e.2.2 ↔ e.1.StillOpen e.2.1) := by
    rintro ⟨u, a, u'⟩ he
    obtain ⟨hperform, _⟩ := hrun.step_mem he
    obtain rfl : u' = u.perform settings a := hperform
    exact finalKept_iff
  exact ⟨fun h e he => (hstep e he).mp (h e he), fun h e he => (hstep e he).mpr (h e he)⟩

section Scenario

def unmonitored : Monitored := ⟨emptyWorld, .empty⟩

def Monitored.run (settings : DeliverySettings) (m : Monitored) (acts : List MonitorAct) :
    Monitored := acts.foldl (Monitored.perform settings) m

theorem reach_monitored (settings : DeliverySettings) (acts : List MonitorAct) :
    (monitoredDelivery settings).Reach (unmonitored.run settings acts) := by
  have hrun : (monitoredDelivery settings).Run unmonitored _ _ :=
    run_traceOf Monitored.Initial (Monitored.perform settings) unmonitored acts
  exact hrun.reach (.init ⟨initial_emptyWorld, rfl⟩)

/-- A send calls its provider, a beat lists the row after ten minutes, and the provider
accepts before the beat has the row's lock. -/
def listedThenSent : List MonitorAct :=
  ((registration ++ claimAndCall 0 0).map .act) ++
    [.select 0 (seconds 600), .act (.reply 0 (.accepted none)), .act (.finalize 0 true)]

/-- The beat flips a row that is SENT back to RETRYABLE, and the next send calls the provider
once more. -/
theorem recovery_reopens_sent : ∃ m, (monitoredDelivery .default).Reach m ∧
    (m.world.db.deliveries.get 1).map (·.status) = some .sent ∧ m.world.requests.length = 1 ∧
    ((m.perform .default (.update 0)).world.db.deliveries.get 1).map (·.status) =
      some .retryable ∧
    ((m.perform .default (.update 0)).run .default
      ((claimAndCall 1 (seconds 601)).map .act)).world.requests.length = 2 := by
  refine ⟨unmonitored.run .default listedThenSent, reach_monitored .default _, ?_, ?_, ?_, ?_⟩
  · decide +kernel
  · decide +kernel
  · decide +kernel
  · decide +kernel

end Scenario

end CampusQuest.Notifications
