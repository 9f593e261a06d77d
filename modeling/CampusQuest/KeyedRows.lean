import CampusQuest.BulkStatements
import CampusQuest.Locking

/-!
Rows under a unique key that are written without a lock on what is absent. A call reads the row
of its key for update; where there is none it inserts, and when the key is taken by then it
rolls back and runs once more. An insert that is not committed yet holds its key. The rule of a
service says what becomes of an absent row and of a present one.
-/

namespace KeyedRows

open Locking Runs Tables

variable {σ ε ρ κ χ ν : Type*}

structure Row (κ ν : Type*) where
  key : κ
  value : ν

section Rows

variable [DecidableEq κ] (rows : Table ℕ (Row κ ν))

def findRow (key : κ) : Option (ℕ × Row κ ν) := rows.find fun _ r => r.key = key

def valueAt (key : κ) : Option ν := (findRow rows key).map fun r => r.2.value

def UniqueKeys : Prop :=
  ∀ id id' r r', rows.get id = some r → rows.get id' = some r' → r.key = r'.key → id = id'

/-- The rows after a call that found a row: it is written in place, or deleted. -/
def rewrite (id : ℕ) (key : κ) : Option ν → Table ℕ (Row κ ν)
  | some value => rows.put id ⟨key, value⟩
  | none => rows.remove id

end Rows

/-- The checks of a call, and the value that it leaves under its key, if any: where it finds no
row, and where it finds one. -/
structure Rule (σ ε ρ κ χ ν : Type*) where
  enter : σ → ρ → Except ε (κ × χ)
  writer : σ → κ → Except ε Unit
  visible : σ → κ → Except ε Unit
  onAbsent : χ → Option ν
  onPresent : Bool → χ → ν → Option ν

/-- Two ghosts: what the last call that committed left under each key, and whether a call has
ever failed on a key that was taken. -/
structure Store (σ κ ν : Type*) where
  site : σ
  rows : Table ℕ (Row κ ν)
  last : κ → Option ν
  failed : Bool

/-- A call at work; `retried` says whether it runs for the second time. -/
inductive Call (κ χ ν : Type*)
  | idle
  | called (retried : Bool) (key : κ) (intent : χ)
  | writing (retried : Bool) (key : κ) (intent : χ)
  | checked (retried : Bool) (key : κ) (intent : χ)
  | absent (retried : Bool) (key : κ) (intent : χ)
  | inserted (key : κ) (intent : χ) (value : ν)
  | holding (retried : Bool) (key : κ) (intent : χ) (id : ℕ) (row : Row κ ν)

inductive Event (ε κ χ : Type*)
  | abandoned
  | refused (e : ε)
  | settled (key : κ) (intent : χ)
  | raised (key : κ)
  | elsewhere

namespace Store

variable [DecidableEq κ] (s : Store σ κ ν)

def settle (key : κ) (rows : Table ℕ (Row κ ν)) (value : Option ν) : Store σ κ ν :=
  { s with rows := rows, last := Function.update s.last key value }

/-- No call has failed on a taken key, and what is stored is what the last call left. -/
structure Settled : Prop where
  quiet : s.failed = false
  last : ∀ key, valueAt s.rows key = s.last key

end Store

def Call.locks : Call κ χ ν → κ ⊕ ℕ → Prop
  | .inserted key _ _, .inl k => key = k
  | .holding _ _ _ id _, .inr k => id = k
  | _, _ => False

section System

variable [DecidableEq κ] (rule : Rule σ ε ρ κ χ ν)

/-- The reads of a call. A conflict rolls the first run back and starts the second. -/
inductive Read : Call κ χ ν → Store σ κ ν → Call κ χ ν → Prop
  | enter {s : Store σ κ ν} (raw : ρ) (key : κ) (intent : χ)
      (henter : rule.enter s.site raw = .ok (key, intent)) :
      Read .idle s (.called false key intent)
  | write {s : Store σ κ ν} (retried : Bool) (key : κ) (intent : χ)
      (hwriter : rule.writer s.site key = .ok ()) :
      Read (.called retried key intent) s (.writing retried key intent)
  | see {s : Store σ κ ν} (retried : Bool) (key : κ) (intent : χ)
      (hvisible : rule.visible s.site key = .ok ()) :
      Read (.writing retried key intent) s (.checked retried key intent)
  | miss {s : Store σ κ ν} (retried : Bool) (key : κ) (intent : χ) (hnone : findRow s.rows key = none) :
      Read (.checked retried key intent) s (.absent retried key intent)
  | lock {s : Store σ κ ν} (retried : Bool) (key : κ) (intent : χ) (id : ℕ) (row : Row κ ν)
      (hfind : findRow s.rows key = some (id, row)) :
      Read (.checked retried key intent) s (.holding retried key intent id row)
  | insert {s : Store σ κ ν} (retried : Bool) (key : κ) (intent : χ) (value : ν)
      (hvalue : rule.onAbsent intent = some value) (hfree : findRow s.rows key = none) :
      Read (.absent retried key intent) s (.inserted key intent value)
  | conflict {s : Store σ κ ν} (key : κ) (intent : χ) (value : ν)
      (hvalue : rule.onAbsent intent = some value) (htaken : findRow s.rows key ≠ none) :
      Read (.absent false key intent) s (.called true key intent)

/-- The ends of a call. A conflict of the second run is not handled; any call may end without a
trace. Nothing else writes the rows. -/
inductive Commit : Call κ χ ν → Store σ κ ν → Event ε κ χ → Call κ χ ν → Store σ κ ν → Prop
  | abandoned {s : Store σ κ ν} (m : Call κ χ ν) : Commit m s .abandoned .idle s
  | turnedAway {s : Store σ κ ν} (raw : ρ) (e : ε) (herror : rule.enter s.site raw = .error e) :
      Commit .idle s (.refused e) .idle s
  | forbidden {s : Store σ κ ν} (retried : Bool) (key : κ) (intent : χ) (e : ε)
      (herror : rule.writer s.site key = .error e) :
      Commit (.called retried key intent) s (.refused e) .idle s
  | invisible {s : Store σ κ ν} (retried : Bool) (key : κ) (intent : χ) (e : ε)
      (herror : rule.visible s.site key = .error e) :
      Commit (.writing retried key intent) s (.refused e) .idle s
  | nothing {s : Store σ κ ν} (retried : Bool) (key : κ) (intent : χ)
      (hvalue : rule.onAbsent intent = none) :
      Commit (.absent retried key intent) s (.settled key intent) .idle (s.settle key s.rows none)
  | stored {s : Store σ κ ν} (key : κ) (intent : χ) (value : ν) (id : ℕ)
      (hfresh : s.rows.get id = none) :
      Commit (.inserted key intent value) s (.settled key intent) .idle
        (s.settle key (s.rows.put id ⟨key, value⟩) (some value))
  | rewritten {s : Store σ κ ν} (retried : Bool) (key : κ) (intent : χ) (id : ℕ)
      (row : Row κ ν) :
      Commit (.holding retried key intent id row) s (.settled key intent) .idle
        (s.settle key (rewrite s.rows id key (rule.onPresent retried intent row.value))
          (rule.onPresent retried intent row.value))
  | raised {s : Store σ κ ν} (key : κ) (intent : χ) (value : ν)
      (hvalue : rule.onAbsent intent = some value) (htaken : findRow s.rows key ≠ none) :
      Commit (.absent true key intent) s (.raised key) .idle { s with failed := true }
  | elsewhere {s : Store σ κ ν} (site : σ) :
      Commit .idle s .elsewhere .idle { s with site := site }

def Knows (s : Store σ κ ν) : Call κ χ ν → Prop
  | .inserted key intent value =>
    findRow s.rows key = none ∧ rule.onAbsent intent = some value
  | .holding _ key _ id row => s.rows.get id = some row ∧ row.key = key
  | _ => True

def protocol : Protocol (Store σ κ ν) (κ ⊕ ℕ) (Call κ χ ν) (Event ε κ χ) where
  locks := Call.locks
  known m s := Knows rule s m
  start m := m = .idle
  read := Read rule
  commit := Commit rule

structure Store.Initial (s : Store σ κ ν) : Prop where
  unique : UniqueKeys s.rows
  settled : s.Settled

def system (ι : Type*) [DecidableEq ι] :
    System (Config ι (Store σ κ ν) (Call κ χ ν)) (Move ι (Event ε κ χ)) :=
  (protocol rule).system ι Store.Initial

end System

section Writes

variable {rows : Table ℕ (Row κ ν)} {key : κ} {id : ℕ} {value : ν}

/-- A row that takes the place of one of its key, or of none, keeps the keys unique. -/
theorem unique_put (hrows : UniqueKeys rows)
    (h : ∀ id' r', rows.get id' = some r' → r'.key = key → id' = id) :
    UniqueKeys (rows.put id ⟨key, value⟩) := by
  intro k k' r r' hget hget' hkey
  rcases Table.get_put_eq_some hget with ⟨rfl, rfl⟩ | ⟨_, hold⟩
  · rcases Table.get_put_eq_some hget' with ⟨rfl, _⟩ | ⟨_, hold'⟩
    · rfl
    · exact (h k' r' hold' hkey.symm).symm
  · rcases Table.get_put_eq_some hget' with ⟨rfl, rfl⟩ | ⟨_, hold'⟩
    · exact h k r hold hkey
    · exact hrows k k' r r' hold hold' hkey

theorem unique_remove (hrows : UniqueKeys rows) : UniqueKeys (rows.remove id) :=
  fun k k' r r' hget hget' => hrows k k' r r' (Table.get_of_remove hget) (Table.get_of_remove hget')

theorem unique_rewrite (hrows : UniqueKeys rows) {r : Row κ ν}
    (hget : rows.get id = some r) {o : Option ν} :
    UniqueKeys (rewrite rows id r.key o) := by
  cases o with
  | none => exact unique_remove hrows
  | some value => exact unique_put hrows fun id' r' hget' hkey => hrows id' id r' r hget' hget hkey

/-- Rows of other keys stay. -/
theorem get_rewrite {id' : ℕ} (hid : id' ≠ id) {o : Option ν} :
    (rewrite rows id key o).get id' = rows.get id' := by
  cases o with
  | none => exact (Table.get_remove rows id id').trans (if_neg hid)
  | some value => exact Table.get_put_of_ne rows _ hid

theorem get_rewrite_key {id' : ℕ} {r' : Row κ ν} {o : Option ν}
    (hget : (rewrite rows id key o).get id' = some r') :
    r'.key = key ∨ rows.get id' = some r' := by
  cases o with
  | none => exact Or.inr (Table.get_of_remove hget)
  | some value =>
    rcases Table.get_put_eq_some hget with ⟨_, rfl⟩ | ⟨_, hold⟩
    · exact Or.inl rfl
    · exact Or.inr hold

end Writes

section Finds

variable [DecidableEq κ] {rows rows' : Table ℕ (Row κ ν)} {key k : κ} {id : ℕ} {r : Row κ ν}
  {value : ν}

theorem found (h : findRow rows key = some (id, r)) : rows.get id = some r ∧ r.key = key :=
  Table.find_some h

theorem findRow_eq_none_iff : findRow rows key = none ↔
    ∀ id r, rows.get id = some r → r.key ≠ key :=
  ⟨fun h _ _ hget => Table.find_none h hget, fun h => Table.find_eq_none h⟩

theorem valueAt_eq_none_iff : valueAt rows key = none ↔ findRow rows key = none :=
  Option.map_eq_none_iff

theorem findRow_eq (hrows : UniqueKeys rows) (hget : rows.get id = some r) :
    findRow rows r.key = some (id, r) :=
  Table.find_eq hget rfl fun id' r' hget' hkey => hrows id' id r' r hget' hget hkey

theorem valueAt_eq (hrows : UniqueKeys rows) (hget : rows.get id = some r) :
    valueAt rows r.key = some r.value := by
  unfold valueAt
  rw [findRow_eq hrows hget]
  rfl

/-- Two tables with the same rows of a key have the same value there. -/
theorem valueAt_congr (hrows' : UniqueKeys rows')
    (h : ∀ id r, r.key = k → (rows'.get id = some r ↔ rows.get id = some r)) :
    valueAt rows' k = valueAt rows k := by
  have hfind : findRow rows' k = findRow rows k := by
    cases hold : findRow rows k with
    | none =>
      have hfree := findRow_eq_none_iff.mp hold
      exact findRow_eq_none_iff.mpr fun id r hget hkey => hfree id r ((h id r hkey).mp hget) hkey
    | some found' =>
      obtain ⟨id, r⟩ := found'
      obtain ⟨hget, rfl⟩ := found hold
      exact findRow_eq hrows' ((h id r rfl).mpr hget)
  unfold valueAt
  rw [hfind]

/-- The value of a key that is put, and of every other key. -/
theorem valueAt_put (hrows : UniqueKeys rows)
    (h : ∀ id' r', rows.get id' = some r' → r'.key = key → id' = id)
    (hplace : ∀ r', rows.get id = some r' → r'.key = key) :
    valueAt (rows.put id ⟨key, value⟩) k = if k = key then some value else valueAt rows k := by
  have hunique : UniqueKeys (rows.put id ⟨key, value⟩) := unique_put hrows h
  by_cases hk : k = key
  · subst hk
    rw [if_pos rfl]
    exact valueAt_eq hunique (Table.get_put_self rows id ⟨k, value⟩)
  · rw [if_neg hk]
    refine valueAt_congr hunique fun id' r' hkey => ?_
    by_cases hid : id' = id
    · subst hid
      rw [Table.get_put_self]
      constructor
      · intro heq
        obtain rfl := Option.some.inj heq
        exact absurd hkey.symm hk
      · intro hget
        exact absurd (hkey.symm.trans (hplace r' hget)) hk
    · rw [Table.get_put_of_ne rows _ hid]

theorem valueAt_remove (hrows : UniqueKeys rows) (hget : rows.get id = some r) :
    valueAt (rows.remove id) k = if k = r.key then none else valueAt rows k := by
  by_cases hk : k = r.key
  · rw [if_pos hk, valueAt_eq_none_iff, findRow_eq_none_iff]
    intro id' r' hget' hkey
    have hold := Table.get_of_remove hget'
    obtain rfl := hrows id' id r' r hold hget (hkey.trans hk)
    rw [Table.get_remove, if_pos rfl] at hget'
    cases hget'
  · rw [if_neg hk]
    refine valueAt_congr (unique_remove hrows) fun id' r' hkey => ?_
    rw [Table.get_remove]
    by_cases hid : id' = id
    · subst hid
      rw [if_pos rfl]
      constructor
      · intro heq
        cases heq
      · intro hget'
        obtain rfl := Option.some.inj (hget.symm.trans hget')
        exact absurd hkey.symm hk
    · rw [if_neg hid]

theorem valueAt_rewrite (hrows : UniqueKeys rows) (hget : rows.get id = some r) {o : Option ν} :
    valueAt (rewrite rows id r.key o) k = if k = r.key then o else valueAt rows k := by
  cases o with
  | none => exact valueAt_remove hrows hget
  | some value =>
    refine valueAt_put hrows (fun id' r' hget' hkey => hrows id' id r' r hget' hget hkey) ?_
    intro r' hget'
    rw [Option.some.inj (hget'.symm.trans hget)]

end Finds

section Sound

variable [DecidableEq κ] {rule : Rule σ ε ρ κ χ ν} {s s' : Store σ κ ν} {m m' o : Call κ χ ν}
  {ev : Event ε κ χ}

theorem Commit.unique (h : Commit rule m s ev m' s') (hs : UniqueKeys s.rows)
    (hknown : Knows rule s m) : UniqueKeys s'.rows := by
  cases h with
  | stored key intent value id hfresh =>
    have hfree := findRow_eq_none_iff.mp hknown.1
    exact unique_put hs fun id' r' hget hkey => absurd hkey (hfree id' r' hget)
  | rewritten retried key intent id row =>
    obtain ⟨hget, rfl⟩ := hknown
    exact unique_rewrite hs hget
  | _ => exact hs

/-- What another call knows stays so: its key is held, or its row. -/
theorem Commit.knows (h : Commit rule m s ev m' s') (hknown : Knows rule s m) (hother : Knows rule s o)
    (hdisjoint : ∀ k, m.locks k → ¬ o.locks k) : Knows rule s' o := by
  cases o with
  | inserted key intent value =>
    have hfree := findRow_eq_none_iff.mp hother.1
    refine ⟨findRow_eq_none_iff.mpr fun id r hget => ?_, hother.2⟩
    cases h with
    | stored key' intent' value' id' hfresh =>
      rcases Table.get_put_eq_some hget with ⟨_, rfl⟩ | ⟨_, hold⟩
      · exact fun hkey => hdisjoint (.inl key) hkey rfl
      · exact hfree id r hold
    | rewritten retried key' intent' id' row =>
      rcases get_rewrite_key hget with hkey | hold
      · obtain ⟨hrow, hsame⟩ := hknown
        rw [hkey, ← hsame]
        exact hfree id' row hrow
      · exact hfree id r hold
    | _ => exact hfree id r hget
  | holding retried key intent id row =>
    obtain ⟨hget, hkey⟩ := hother
    refine ⟨?_, hkey⟩
    cases h with
    | stored key' intent' value' id' hfresh =>
      have hne : id ≠ id' := by
        rintro rfl
        rw [hfresh] at hget
        cases hget
      exact (Table.get_put_of_ne _ _ hne).trans hget
    | rewritten retried' key' intent' id' row' =>
      have hne : id ≠ id' := fun hid => hdisjoint (.inr id') rfl hid
      exact (get_rewrite hne).trans hget
    | _ => exact hget
  | _ => trivial

theorem protocol_sound (rule : Rule σ ε ρ κ χ ν) :
    (protocol rule).Sound fun s => UniqueKeys s.rows where
  start_locks m k hm := by
    subst hm
    cases k <;> exact id
  start_known m s hm := by
    subst hm
    trivial
  read_known m s m' _ hread := by
    cases hread with
    | insert retried key intent value hvalue hfree => exact ⟨hfree, hvalue⟩
    | lock retried key intent id row hfind => exact found hfind
    | _ => trivial
  commit_inv m s ev m' s' hs hknown hcommit := hcommit.unique hs hknown
  commit_known m s ev m' s' _ _ hcommit := by
    cases hcommit <;> trivial
  commit_stable m s ev m' s' o _ hknown hcommit hother hdisjoint :=
    hcommit.knows hknown hother hdisjoint

end Sound

section Runs

variable [DecidableEq κ] {rule : Rule σ ε ρ κ χ ν} {ι : Type*}
  {c c' : Config ι (Store σ κ ν) (Call κ χ ν)}

/-- The condition on a step: an insert that is retried does not find its key taken, and a call
that had found no row and leaves none commits while there is none. -/
def Current (c : Config ι (Store σ κ ν) (Call κ χ ν)) (a : Move ι (Event ε κ χ)) : Prop :=
  match a.2, c.proc a.1 with
  | some (.raised key), _ => findRow c.store.rows key = none
  | some (.settled key _), .absent _ _ _ => findRow c.store.rows key = none
  | _, _ => True

/-- One step keeps what is settled exactly when it meets the condition. -/
theorem Commit.settled_iff {s s' : Store σ κ ν} {m m' : Call κ χ ν} {ev : Event ε κ χ} {i : ι}
    (h : Commit rule m s ev m' s') (hproc : c.proc i = m) (hstore : c.store = s)
    (hs : UniqueKeys s.rows) (hknown : Knows rule s m) (hsettled : s.Settled) :
    s'.Settled ↔ Current (ε := ε) c (i, some ev) := by
  have hsettle {key : κ} {rows : Table ℕ (Row κ ν)} {value : Option ν}
      (hvalue : ∀ k, valueAt rows k = if k = key then value else valueAt s.rows k) :
      (s.settle key rows value).Settled := by
    refine ⟨hsettled.quiet, fun k => ?_⟩
    have hlast : (s.settle key rows value).last k = if k = key then value else s.last k :=
      Function.update_apply s.last key value k
    rw [hlast]
    refine (hvalue k).trans ?_
    rw [hsettled.last k]
  unfold Current
  dsimp only
  rw [hproc, hstore]
  cases h with
  | nothing retried key intent hvalue =>
    constructor
    · intro h
      have hlast := h.last key
      rw [show (s.settle key s.rows none).last key = none from Function.update_self ..] at hlast
      exact valueAt_eq_none_iff.mp hlast
    · intro hfree
      refine hsettle fun k => ?_
      by_cases hk : k = key
      · rw [if_pos hk, hk]
        exact valueAt_eq_none_iff.mpr hfree
      · rw [if_neg hk]
  | stored key intent value id hfresh =>
    have hfree := findRow_eq_none_iff.mp hknown.1
    refine iff_of_true (hsettle fun k => ?_) trivial
    refine valueAt_put hs (fun id' r' hget hkey => absurd hkey (hfree id' r' hget)) ?_
    intro r' hget
    rw [hfresh] at hget
    cases hget
  | rewritten retried key intent id row =>
    obtain ⟨hget, rfl⟩ := hknown
    exact iff_of_true (hsettle fun k => valueAt_rewrite hs hget) trivial
  | raised key intent value hvalue htaken =>
    exact iff_of_false (fun h => absurd h.quiet (by simp)) htaken
  | _ => exact iff_of_true ⟨hsettled.quiet, hsettled.last⟩ trivial

variable [DecidableEq ι]

theorem step_settled_iff (hc : (system rule ι).Reach c) {a : Move ι (Event ε κ χ)}
    (hsettled : c.store.Settled) (hstep : (system rule ι).step c a c') :
    c'.store.Settled ↔ Current c a := by
  have hcurrent := (protocol_sound rule).current (fun _ h => h.unique) hc
  cases hstep with
  | read => exact iff_of_true hsettled trivial
  | commit i ev m' s' hcommit hfree =>
    exact Commit.settled_iff hcommit rfl rfl hcurrent.inv (hcurrent.known i) hsettled

/-- Where a rule leaves the same value whatever it finds, a call that commits leaves that. -/
theorem Commit.last_eq {s s' : Store σ κ ν} {m m' : Call κ χ ν} {key : κ} {intent : χ}
    {f : χ → Option ν} (habsent : ∀ x, rule.onAbsent x = f x)
    (hpresent : ∀ retried x value, rule.onPresent retried x value = f x)
    (h : Commit rule m s (.settled key intent) m' s') (hknown : Knows rule s m) :
    s'.last key = f intent := by
  cases h with
  | nothing retried _ _ hvalue =>
    rw [← habsent, hvalue]
    exact Function.update_self ..
  | stored _ _ value id hfresh =>
    rw [← habsent, hknown.2]
    exact Function.update_self ..
  | rewritten retried _ _ id row =>
    rw [← hpresent retried intent row.value]
    exact Function.update_self ..

/-- In every run: no key has two rows; and in all states that it visits no call has failed on a
taken key and every key has the value that the last call left there, exactly when all its steps
meet the condition. -/
theorem run_settles (hc : (system rule ι).Reach c) (hsettled : c.store.Settled)
    {l : List (Config ι (Store σ κ ν) (Call κ χ ν) × Move ι (Event ε κ χ) ×
      Config ι (Store σ κ ν) (Call κ χ ν))} (hrun : (system rule ι).Run c l c') :
    UniqueKeys c'.store.rows ∧
    ((∀ e ∈ l, e.2.2.store.Settled) ↔ ∀ e ∈ l, Current e.1 e.2.1) := by
  refine ⟨((protocol_sound rule).current (fun _ h => h.unique) (hrun.reach hc)).inv, ?_⟩
  exact hrun.keeps_iff (P := fun c => c.store.Settled) (G := Current)
    (fun c a c' hc hP hstep => step_settled_iff hc hP hstep) hc hsettled

end Runs

section Writing

variable [DecidableEq κ] {rule : Rule σ ε ρ κ χ ν} {s s' : Store σ κ ν} {m m' : Call κ χ ν}
  {ev : Event ε κ χ} {ι : Type*} [DecidableEq ι] {c c' : Config ι (Store σ κ ν) (Call κ χ ν)}

/-- Every call of the rule leaves a row under its key. -/
structure Rule.Writes (rule : Rule σ ε ρ κ χ ν) : Prop where
  absent : ∀ intent, rule.onAbsent intent ≠ none
  present : ∀ retried intent value, rule.onPresent retried intent value ≠ none

/-- A call that runs for the second time has a row under its key, and finds it. -/
def Taken (s : Store σ κ ν) : Call κ χ ν → Prop
  | .called true key _ | .writing true key _ | .checked true key _ => findRow s.rows key ≠ none
  | .absent true _ _ => False
  | _ => True

theorem findRow_ne_none {rows : Table ℕ (Row κ ν)} {key : κ} :
    findRow rows key ≠ none ↔ ∃ id r, rows.get id = some r ∧ r.key = key := by
  rw [Ne, findRow_eq_none_iff]
  push Not
  rfl

/-- Where a rule leaves a row under every key, no commit takes the row of a key away. -/
theorem Commit.keeps_row (hwrites : rule.Writes) (h : Commit rule m s ev m' s')
    (hknown : Knows rule s m) {key : κ} (hrow : findRow s.rows key ≠ none) :
    findRow s'.rows key ≠ none := by
  obtain ⟨id, r, hget, hkey⟩ := findRow_ne_none.mp hrow
  apply findRow_ne_none.mpr
  cases h with
  | stored key' intent value id' hfresh =>
    exact ⟨id, r, Table.get_put_of_fresh hfresh hget, hkey⟩
  | rewritten retried key' intent id' row =>
    obtain ⟨hrow', hkey'⟩ := hknown
    obtain ⟨value, hvalue⟩ :=
      Option.ne_none_iff_exists'.mp (hwrites.present retried intent row.value)
    by_cases hid : id = id'
    · refine ⟨id', ⟨key', value⟩, ?_, ?_⟩
      · simp [Store.settle, hvalue, rewrite]
      · rw [hid, hrow'] at hget
        rw [← Option.some.inj hget] at hkey
        exact hkey'.symm.trans hkey
    · exact ⟨id, r, (get_rewrite hid).trans hget, hkey⟩
  | _ => exact ⟨id, r, hget, hkey⟩

theorem Commit.taken (hwrites : rule.Writes) (h : Commit rule m s ev m' s')
    (hknown : Knows rule s m) {o : Call κ χ ν} (ho : Taken s o) : Taken s' o := by
  have hkeeps (key : κ) (hrow : findRow s.rows key ≠ none) : findRow s'.rows key ≠ none :=
    h.keeps_row hwrites hknown hrow
  cases o with
  | called retried key intent =>
    cases retried with
    | false => trivial
    | true => exact hkeeps key ho
  | writing retried key intent =>
    cases retried with
    | false => trivial
    | true => exact hkeeps key ho
  | checked retried key intent =>
    cases retried with
    | false => trivial
    | true => exact hkeeps key ho
  | absent retried key intent =>
    cases retried with
    | false => trivial
    | true => exact ho
  | _ => trivial

theorem Read.taken (h : Read rule m s m') (hm : Taken s m) : Taken s m' := by
  cases h with
  | write retried key intent hwriter =>
    cases retried with
    | false => trivial
    | true => exact hm
  | see retried key intent hvisible =>
    cases retried with
    | false => trivial
    | true => exact hm
  | miss retried key intent hnone =>
    cases retried with
    | false => trivial
    | true => exact hm hnone
  | conflict key intent value hvalue htaken => exact htaken
  | _ => trivial

/-- A rule under which every call leaves a row never fails on a taken key, and what is stored is
what the last call left. -/
theorem settled_of_writes (hwrites : rule.Writes) (hc : (system rule ι).Reach c) :
    c.store.Settled ∧ ∀ i, Taken c.store (c.proc i) := by
  induction hc with
  | init hinit =>
    refine ⟨hinit.1.settled, fun i => ?_⟩
    rw [hinit.2 i]
    trivial
  | @step c c' a hc hstep ih =>
    obtain ⟨hsettled, htaken⟩ := ih
    have hcurrent := (protocol_sound rule).current (fun _ h => h.unique) hc
    refine ⟨(step_settled_iff hc hsettled hstep).mpr ?_, ?_⟩
    · cases hstep with
      | read => trivial
      | commit i ev m' s' hcommit hfree =>
        have htakeni := htaken i
        unfold Current
        dsimp only
        generalize hproc : c.proc i = m at hcommit htakeni
        cases hcommit with
        | nothing retried key intent hvalue => exact absurd hvalue (hwrites.absent intent)
        | raised key intent value hvalue htaken => exact htakeni.elim
        | _ => trivial
    · intro j
      cases hstep with
      | read i m hread hfree =>
        dsimp only
        by_cases hj : j = i
        · subst hj
          rw [Function.update_self]
          exact hread.taken (htaken j)
        · rw [Function.update_of_ne hj]
          exact htaken j
      | commit i ev m' s' hcommit hfree =>
        dsimp only
        by_cases hj : j = i
        · subst hj
          rw [Function.update_self]
          generalize c.proc j = m at hcommit
          cases hcommit <;> trivial
        · rw [Function.update_of_ne hj]
          exact hcommit.taken hwrites (hcurrent.known i) (htaken j)

end Writing

section Admission

variable [DecidableEq κ] {rule : Rule σ ε ρ κ χ ν} {ι : Type*} [DecidableEq ι]
  {c c' : Config ι (Store σ κ ν) (Call κ χ ν)}
  {l : List (Config ι (Store σ κ ν) (Call κ χ ν) × Move ι (Event ε κ χ) ×
    Config ι (Store σ κ ν) (Call κ χ ν))}

/-- Both checks of a key have passed, each at some step of the run. -/
structure Admitted (rule : Rule σ ε ρ κ χ ν)
    (l : List (Config ι (Store σ κ ν) (Call κ χ ν) × Move ι (Event ε κ χ) ×
      Config ι (Store σ κ ν) (Call κ χ ν))) (key : κ) : Prop where
  writer : ∃ e ∈ l, rule.writer e.1.store.site key = .ok ()
  visible : ∃ e ∈ l, rule.visible e.1.store.site key = .ok ()

def Passed (rule : Rule σ ε ρ κ χ ν)
    (l : List (Config ι (Store σ κ ν) (Call κ χ ν) × Move ι (Event ε κ χ) ×
      Config ι (Store σ κ ν) (Call κ χ ν))) : Call κ χ ν → Prop
  | .writing _ key _ => ∃ e ∈ l, rule.writer e.1.store.site key = .ok ()
  | .checked _ key _ | .absent _ key _ | .inserted key _ _ | .holding _ key _ _ _ =>
    Admitted rule l key
  | _ => True

omit [DecidableEq κ] [DecidableEq ι] in
theorem Admitted.append {key : κ} (h : Admitted rule l key)
    (e : Config ι (Store σ κ ν) (Call κ χ ν) × Move ι (Event ε κ χ) ×
      Config ι (Store σ κ ν) (Call κ χ ν)) :
    Admitted rule (l ++ [e]) key := by
  obtain ⟨⟨e₁, he₁, hwriter⟩, e₂, he₂, hvisible⟩ := h
  exact ⟨⟨e₁, List.mem_append_left _ he₁, hwriter⟩, e₂, List.mem_append_left _ he₂, hvisible⟩

omit [DecidableEq κ] [DecidableEq ι] in
theorem Passed.append {m : Call κ χ ν} (h : Passed rule l m)
    (e : Config ι (Store σ κ ν) (Call κ χ ν) × Move ι (Event ε κ χ) ×
      Config ι (Store σ κ ν) (Call κ χ ν)) : Passed rule (l ++ [e]) m := by
  cases m with
  | writing retried key intent =>
    obtain ⟨e₁, he₁, hwriter⟩ := h
    exact ⟨e₁, List.mem_append_left _ he₁, hwriter⟩
  | checked | absent | inserted | holding => exact Admitted.append h e
  | _ => trivial

/-- In a run from an empty table every row has both checks of its key behind it. -/
theorem run_admits (hempty : ∀ id, c.store.rows.get id = none) (hinit : (system rule ι).init c)
    (hrun : (system rule ι).Run c l c') :
    (∀ id r, c'.store.rows.get id = some r → Admitted rule l r.key) ∧
      ∀ i, Passed rule l (c'.proc i) := by
  induction hrun with
  | nil =>
    refine ⟨fun id r hget => ?_, fun i => ?_⟩
    · rw [hempty id] at hget
      cases hget
    · rw [hinit.2 i]
      trivial
  | @snoc c₁ c₂ a l hrun hstep ih =>
    obtain ⟨hrows, hpassed⟩ := ih
    have hlast : (c₁, a, c₂) ∈ l ++ [(c₁, a, c₂)] :=
      List.mem_append_right l (List.mem_singleton_self _)
    cases hstep with
    | read i m hread hfree =>
      refine ⟨fun id r hget => (hrows id r hget).append _, fun j => ?_⟩
      by_cases hj : j = i
      · subst hj
        have hbefore := (hpassed j).append (c₁, (j, none), ⟨c₁.store, Function.update c₁.proc j m⟩)
        dsimp only
        rw [Function.update_self]
        generalize c₁.proc j = m₀ at hread hbefore
        cases hread with
        | write retried key intent hwriter => exact ⟨_, hlast, hwriter⟩
        | see retried key intent hvisible => exact ⟨hbefore, _, hlast, hvisible⟩
        | miss | insert => exact hbefore
        | lock => exact hbefore
        | _ => trivial
      · dsimp only
        rw [Function.update_of_ne hj]
        exact (hpassed j).append _
    | commit i ev m s' hcommit hfree =>
      refine ⟨fun id r hget => ?_, fun j => ?_⟩
      · have hbefore := hpassed i
        generalize c₁.proc i = m₀ at hcommit hbefore
        cases hcommit with
        | stored key intent value id' hfresh =>
          rcases Table.get_put_eq_some hget with ⟨_, rfl⟩ | ⟨_, hold⟩
          · exact Admitted.append hbefore _
          · exact (hrows id r hold).append _
        | rewritten retried key intent id' row =>
          rcases get_rewrite_key hget with hkey | hold
          · rw [hkey]
            exact Admitted.append hbefore _
          · exact (hrows id r hold).append _
        | _ => exact (hrows id r hget).append _
      · dsimp only
        by_cases hj : j = i
        · subst hj
          rw [Function.update_self]
          generalize c₁.proc j = m₀ at hcommit
          cases hcommit <;> trivial
        · rw [Function.update_of_ne hj]
          exact (hpassed j).append _

end Admission

section Groups

variable {α β M : Type*} [DecidableEq α] [DecidableEq β] [AddCommMonoid M]
  {rows : Table ℕ (Row (α × β) ν)}

def holders (rows : Table ℕ (Row (α × β) ν)) (a : α) : Finset β :=
  rows.keys.biUnion fun id =>
    (rows.get id).elim ∅ fun r => if r.key.1 = a then {r.key.2} else ∅

theorem mem_holders_iff {a : α} {b : β} :
    b ∈ holders rows a ↔ ∃ id r, rows.get id = some r ∧ r.key = (a, b) := by
  unfold holders
  rw [Finset.mem_biUnion]
  constructor
  · rintro ⟨id, _, hb⟩
    cases hget : rows.get id with
    | none => simp [hget] at hb
    | some r =>
      rw [hget] at hb
      by_cases ha : r.key.1 = a
      · simp only [Option.elim_some, if_pos ha, Finset.mem_singleton] at hb
        exact ⟨id, r, hget, Prod.ext ha hb.symm⟩
      · simp [ha] at hb
  · rintro ⟨id, r, hget, hkey⟩
    refine ⟨id, Finmap.mem_keys.mpr (Finmap.mem_of_lookup_eq_some hget), ?_⟩
    simp [hget, hkey]

theorem mem_holders {a : α} {b : β} :
    b ∈ holders rows a ↔ valueAt rows (a, b) ≠ none := by
  rw [mem_holders_iff, Ne, valueAt_eq_none_iff, ← Ne, findRow_ne_none]

/-- A total over the rows of a group is a sum over those that have a row in it. -/
theorem total_group (hrows : UniqueKeys rows) (a : α) (f : ν → M) :
    (rows.total fun _ r => if r.key.1 = a then f r.value else 0) =
      ∑ b ∈ holders rows a, (valueAt rows (a, b)).elim 0 f := by
  have hdisjoint : (rows.keys : Set ℕ).PairwiseDisjoint fun id =>
      (rows.get id).elim (∅ : Finset β) fun r => if r.key.1 = a then {r.key.2} else ∅ := by
    intro id _ id' _ hne
    apply Finset.disjoint_left.mpr
    intro b hb hb'
    cases hget : rows.get id with
    | none => simp [hget] at hb
    | some r =>
      cases hget' : rows.get id' with
      | none => simp [hget'] at hb'
      | some r' =>
        by_cases ha : r.key.1 = a
        · by_cases ha' : r'.key.1 = a
          · simp only [hget, Option.elim_some, if_pos ha, Finset.mem_singleton] at hb
            simp only [hget', Option.elim_some, if_pos ha', Finset.mem_singleton] at hb'
            have hkey : r.key = r'.key := Prod.ext (ha.trans ha'.symm) (hb.symm.trans hb')
            exact hne (hrows id id' r r' hget hget' hkey)
          · simp [hget', ha'] at hb'
        · simp [hget, ha] at hb
  unfold holders
  rw [Table.total_eq_sum rows _ (Finset.Subset.refl _), Finset.sum_biUnion hdisjoint]
  apply Finset.sum_congr rfl
  intro id _
  cases hget : rows.get id with
  | none => simp
  | some r =>
    by_cases ha : r.key.1 = a
    · have hvalue := valueAt_eq hrows hget
      rw [show r.key = (a, r.key.2) from Prod.ext ha rfl] at hvalue
      simp [ha, hvalue]
    · simp [ha]

theorem count_group (hrows : UniqueKeys rows) (a : α) :
    (rows.count fun _ r => r.key.1 = a) = (holders rows a).card := by
  unfold Table.count
  rw [total_group hrows a fun _ => 1, Finset.card_eq_sum_ones]
  apply Finset.sum_congr rfl
  intro b hb
  obtain ⟨value, hvalue⟩ := Option.ne_none_iff_exists'.mp (mem_holders.mp hb)
  rw [hvalue]
  rfl

end Groups

end KeyedRows
