import CampusQuest.ImportPreview
import CampusQuest.Passages

/-!
Previews and confirmations side by side. A confirmation checks the access to the task, takes the
token out of Redis, and inserts the rows that were behind it in one transaction, which any
failure rolls back; a key that is inserted and not committed yet blocks the others.
-/

namespace CampusQuest.Imports

open Guards Locking Runs Tables
open Lifecycle (CollaboratorPermission)
open Tasks (TaskUnit)

inductive ImportRequest
  | idle
  | viewing (task : TaskId) (valid : List PreviewRow)
  | dated (preview : StoredPreview)
  | permitted (actor : Actor) (task : TaskId) (token : Token)
  | loaded (actor : Actor) (task : TaskId) (token : Token) (raw : Option StoredPreview)
  | consumed (actor : Actor) (task : TaskId) (token : Token) (rows : List PreviewRow)
  | inserting (actor : Actor) (task : TaskId) (token : Token) (done todo : List PreviewRow)

open ImportRequest

def ImportRequest.locks : ImportRequest → UnitKey → Prop
  | inserting _ task _ done _, key => ∃ row ∈ done, key = (task, row.pair)
  | _, _ => False

/-- `previewed` shows what it stores; `viewed` had nothing to store. -/
inductive ImportEvent
  | abandoned
  | refused (e : ImportError)
  | viewed (task : TaskId)
  | previewed (token : Token) (shown : StoredPreview)
  | consumed (actor : Actor) (task : TaskId) (token : Token)
  | imported (actor : Actor) (task : TaskId) (token : Token)
  | lapsed (token : Token)
  | elsewhere

/-- The reads. `ttl` is the lifetime of a preview and `parsed` what `parse_upload` has accepted. -/
inductive ImportRead (ttl : Duration) : ImportRequest → ImportStore → ImportRequest → Prop
  | view {s : ImportStore} (actor : Actor) (task : TaskId) (parsed : List PreviewRow)
      (haccess : s.requireTask actor task = .ok ()) :
      ImportRead ttl idle s (viewing task (s.kept task parsed))
  | date {s : ImportStore} (task : TaskId) (valid : List PreviewRow) (hvalid : valid ≠ []) :
      ImportRead ttl (viewing task valid) s (dated ⟨task, valid, s.clock + ttl⟩)
  | permit {s : ImportStore} (actor : Actor) (task : TaskId) (token : Token)
      (haccess : s.requireTask actor task = .ok ()) :
      ImportRead ttl idle s (permitted actor task token)
  | validate {s : ImportStore} (actor : Actor) (task : TaskId) (token : Token)
      (raw : Option StoredPreview) (rows : List PreviewRow)
      (hrows : consumePreview s.clock task raw = .ok rows) :
      ImportRead ttl (loaded actor task token raw) s (consumed actor task token rows)
  | check {s : ImportStore} (actor : Actor) (task : TaskId) (token : Token)
      (rows ordered : List PreviewRow) (hchecked : s.checkConflicts task rows = .ok ordered) :
      ImportRead ttl (consumed actor task token rows) s (inserting actor task token [] ordered)
  | insert {s : ImportStore} (actor : Actor) (task : TaskId) (token : Token)
      (done : List PreviewRow) (row : PreviewRow) (todo : List PreviewRow)
      (hfree : ¬ s.Taken (task, row.pair)) (hnew : row.pair ∉ done.map PreviewRow.pair) :
      ImportRead ttl (inserting actor task token done (row :: todo)) s
        (inserting actor task token (done ++ [row]) todo)

/-- The commits; a command on Redis is one of its own. A key may lapse at any time. The other
services keep the keys of the units, make units only together with their task, under the same
constraint, and remove neither. -/
inductive ImportCommit (ttl : Duration) :
    ImportRequest → ImportStore → ImportEvent → ImportRequest → ImportStore → Prop
  | abandoned {s : ImportStore} (m : ImportRequest) : ImportCommit ttl m s .abandoned idle s
  | denied {s : ImportStore} (actor : Actor) (task : TaskId) (e : ImportError)
      (herror : s.requireTask actor task = .error e) :
      ImportCommit ttl idle s (.refused e) idle s
  | viewed {s : ImportStore} (task : TaskId) :
      ImportCommit ttl (viewing task []) s (.viewed task) idle s
  | previewed {s : ImportStore} (preview : StoredPreview) (token : Token)
      (hfresh : s.minted.get token = none) :
      ImportCommit ttl (dated preview) s (.previewed token preview) idle
        (s.storePreview token preview)
  | consumed {s : ImportStore} (actor : Actor) (task : TaskId) (token : Token) :
      ImportCommit ttl (permitted actor task token) s (.consumed actor task token)
        (loaded actor task token (s.previews.get token)) (s.dropPreview token)
  | invalid {s : ImportStore} (actor : Actor) (task : TaskId) (token : Token)
      (raw : Option StoredPreview) (e : ImportError)
      (herror : consumePreview s.clock task raw = .error e) :
      ImportCommit ttl (loaded actor task token raw) s (.refused e) idle s
  | conflicting {s : ImportStore} (actor : Actor) (task : TaskId) (token : Token)
      (rows : List PreviewRow) (e : ImportError) (herror : s.checkConflicts task rows = .error e) :
      ImportCommit ttl (consumed actor task token rows) s (.refused e) idle s
  | raced {s : ImportStore} (actor : Actor) (task : TaskId) (token : Token)
      (done : List PreviewRow) (row : PreviewRow) (todo : List PreviewRow)
      (htaken : s.Taken (task, row.pair) ∨ row.pair ∈ done.map PreviewRow.pair) :
      ImportCommit ttl (inserting actor task token done (row :: todo)) s
        (.refused (.duplicateAssignments [])) idle s
  | imported {s : ImportStore} (actor : Actor) (task : TaskId) (token : Token)
      (rows : List PreviewRow) (ids : List UnitId) (hlength : ids.length = rows.length)
      (hids : ids.Nodup) (hfresh : ∀ id ∈ ids, s.units.get id = none) :
      ImportCommit ttl (inserting actor task token rows []) s (.imported actor task token) idle
        (s.insertPreviewedRows actor task ids rows)
  | lapsed {s : ImportStore} (token : Token) :
      ImportCommit ttl idle s (.lapsed token) idle (s.dropPreview token)
  | elsewhere {s : ImportStore} (tasks : Table TaskId UserId)
      (collaborators : Table (TaskId × UserId) (List CollaboratorPermission))
      (units : Table UnitId TaskUnit) (clock : Instant)
      (hclock : s.clock ≤ clock)
      (htasks : ∀ id, s.tasks.get id ≠ none → tasks.get id ≠ none)
      (hkept : ∀ id unit, s.units.get id = some unit →
        ∃ unit', units.get id = some unit' ∧ unitKey unit' = unitKey unit)
      (hmade : ∀ id unit, units.get id = some unit → s.units.get id = none →
        s.tasks.get unit.taskId = none ∧ tasks.get unit.taskId ≠ none)
      (hunique : ∀ id id' unit unit', units.get id = some unit → units.get id' = some unit' →
        unitKey unit = unitKey unit' → id = id') :
      ImportCommit ttl idle s .elsewhere idle
        ⟨tasks, collaborators, units, s.audit, s.previews, clock, s.minted⟩

/-- The keys of the units are unique, their tasks exist, and what is in Redis has been minted for
a task. -/
structure ImportStore.Consistent (s : ImportStore) : Prop where
  unique : ∀ id id' unit unit', s.units.get id = some unit → s.units.get id' = some unit' →
    unitKey unit = unitKey unit' → id = id'
  previews : ∀ token preview, s.previews.get token = some preview →
    s.minted.get token = some preview
  tasks : ∀ token preview, s.minted.get token = some preview →
    s.tasks.get preview.taskId ≠ none

/-- What a request knows: the task is there, its rows are those of the preview behind its token,
and nobody else has committed a key that it has inserted. -/
def ImportStore.Knows (s : ImportStore) : ImportRequest → Prop
  | idle => True
  | viewing task _ | permitted _ task _ => s.tasks.get task ≠ none
  | dated preview => s.tasks.get preview.taskId ≠ none
  | loaded _ task token raw => s.tasks.get task ≠ none ∧
    ∀ preview, raw = some preview → s.minted.get token = some preview
  | consumed _ task token rows => s.tasks.get task ≠ none ∧ ∃ preview,
    s.minted.get token = some preview ∧ preview.taskId = task ∧ preview.rows = rows
  | inserting _ task token done todo => s.tasks.get task ≠ none ∧
    (∃ preview, s.minted.get token = some preview ∧ preview.taskId = task ∧
      (done ++ todo).Perm preview.rows) ∧
    (∀ row ∈ done, ¬ s.Taken (task, row.pair)) ∧ (done.map PreviewRow.pair).Nodup

def importProtocol (ttl : Duration) : Protocol ImportStore UnitKey ImportRequest ImportEvent where
  locks := ImportRequest.locks
  known m s := s.Knows m
  start m := m = idle
  read := ImportRead ttl
  commit := ImportCommit ttl

def importSystem (ttl : Duration) (ι : Type*) [DecidableEq ι] :
    System (Config ι ImportStore ImportRequest) (Move ι ImportEvent) :=
  (importProtocol ttl).system ι ImportStore.Consistent

section Effects

variable {ttl : Duration} {s s' : ImportStore} {m m' o : ImportRequest} {ev : ImportEvent}
  {task : TaskId} {token : Token} {rows : List PreviewRow}

/-- Rows of one key in a list without repeated keys stand at one place. -/
theorem zip_place {ids : List UnitId} {units : List TaskUnit} (h : (units.map unitKey).Nodup)
    {id id' : UnitId} {unit unit' : TaskUnit} (hmem : (id, unit) ∈ ids.zip units)
    (hmem' : (id', unit') ∈ ids.zip units) (hkey : unitKey unit = unitKey unit') : id = id' := by
  induction ids generalizing units with
  | nil => cases hmem
  | cons i ids ih =>
    cases units with
    | nil => cases hmem
    | cons u units =>
      obtain ⟨hhead, htail⟩ := List.nodup_cons.mp h
      have hother {id : UnitId} {unit : TaskUnit} (hin : (id, unit) ∈ ids.zip units) :
          unitKey unit ≠ unitKey u :=
        fun hsame => hhead (List.mem_map.mpr ⟨unit, (List.of_mem_zip hin).2, hsame⟩)
      rcases List.mem_cons.mp hmem with heq | hin
      · obtain ⟨rfl, rfl⟩ := Prod.mk.inj heq
        rcases List.mem_cons.mp hmem' with heq' | hin'
        · exact (Prod.mk.inj heq').1.symm
        · exact absurd hkey.symm (hother hin')
      · rcases List.mem_cons.mp hmem' with heq' | hin'
        · obtain ⟨rfl, rfl⟩ := Prod.mk.inj heq'
          exact absurd hkey (hother hin)
        · exact ih htail hin hin'

theorem get_insertPreviewedRows {actor : Actor} {ids : List UnitId}
    (hlength : ids.length = rows.length) (hids : ids.Nodup)
    (hfresh : ∀ id ∈ ids, s.units.get id = none) {id : UnitId} {unit : TaskUnit} :
    (s.insertPreviewedRows actor task ids rows).units.get id = some unit ↔
      s.units.get id = some unit ∨ (id, unit) ∈ ids.zip (rows.map fun row => row.unit task) := by
  have hkeys : ((ids.zip (rows.map fun row => row.unit task)).map Prod.fst) = ids :=
    List.map_fst_zip (by rw [List.length_map, hlength])
  refine Table.get_insertRows (fun e he => hfresh e.1 ?_) ?_
  · rw [← hkeys]
    exact List.mem_map_of_mem he
  · rw [hkeys]
    exact hids

theorem ImportCommit.minted (h : ImportCommit ttl m s ev m' s') {preview : StoredPreview}
    (hget : s.minted.get token = some preview) : s'.minted.get token = some preview := by
  cases h with
  | previewed preview' token' hfresh => exact Table.get_put_of_fresh hfresh hget
  | _ => exact hget

theorem ImportCommit.tasks (h : ImportCommit ttl m s ev m' s') {id : TaskId}
    (hget : s.tasks.get id ≠ none) : s'.tasks.get id ≠ none := by
  cases h with
  | elsewhere tasks collaborators units clock hclock htasks => exact htasks id hget
  | _ => exact hget

/-- A key of a task that is there is committed only by the request that has inserted it. -/
theorem ImportCommit.taken (h : ImportCommit ttl m s ev m' s') {key : UnitKey}
    (htask : s.tasks.get key.1 ≠ none) (htaken : s'.Taken key) : s.Taken key ∨ m.locks key := by
  obtain ⟨id, unit, hget, rfl⟩ := htaken
  cases h with
  | imported actor task token rows ids hlength hids hfresh =>
    rcases (get_insertPreviewedRows hlength hids hfresh).mp hget with hold | hnew
    · exact Or.inl ⟨id, unit, hold, rfl⟩
    · obtain ⟨row, hrow, rfl⟩ := List.mem_map.mp (List.of_mem_zip hnew).2
      exact Or.inr ⟨row, hrow, rfl⟩
  | elsewhere tasks collaborators units clock hclock htasks hkept hmade hunique =>
    cases hold : s.units.get id with
    | none => exact absurd (hmade id unit hget hold).1 htask
    | some before =>
      obtain ⟨after, hafter, hkey⟩ := hkept id before hold
      obtain rfl : after = unit := Option.some.inj (hafter.symm.trans hget)
      exact Or.inl ⟨id, before, hold, hkey.symm⟩
  | _ => exact Or.inl ⟨id, unit, hget, rfl⟩

theorem read_keeps (hknown : s.Knows m) (hread : ImportRead ttl m s m') : s.Knows m' := by
  cases hread with
  | view actor task parsed haccess => exact requireTask_known haccess
  | date task valid hvalid => exact hknown
  | permit actor task token haccess => exact requireTask_known haccess
  | validate actor task token raw rows hrows =>
    obtain ⟨preview, hraw, htask, _, _, hrows⟩ := consumePreview_ok.mp hrows
    exact ⟨hknown.1, preview, hknown.2 preview hraw, htask, hrows⟩
  | check actor task token rows ordered hchecked =>
    obtain ⟨hthere, preview, hminted, htask, rfl⟩ := hknown
    exact ⟨hthere, ⟨preview, hminted, htask, checkConflicts_ok hchecked⟩,
      fun _ hrow => (by cases hrow), List.nodup_nil⟩
  | insert actor task token done row todo hfree hnew =>
    obtain ⟨hthere, ⟨preview, hminted, htask, hperm⟩, hfrees, hnodup⟩ := hknown
    refine ⟨hthere, ⟨preview, hminted, htask, ?_⟩, fun r hr => ?_, ?_⟩
    · rw [List.append_assoc]
      exact hperm
    · rcases List.mem_append.mp hr with hr | hr
      · exact hfrees r hr
      · obtain rfl := List.mem_singleton.mp hr
        exact hfree
    · rw [List.map_append]
      refine List.nodup_append.mpr ⟨hnodup, List.nodup_singleton _, fun pair hpair pair' hpair' => ?_⟩
      obtain rfl := List.mem_singleton.mp hpair'
      rintro rfl
      exact hnew hpair

theorem ImportCommit.knows (h : ImportCommit ttl m s ev m' s') (hother : s.Knows o)
    (hdisjoint : ∀ k, m.locks k → ¬ o.locks k) : s'.Knows o := by
  cases o with
  | idle => trivial
  | viewing task valid => exact h.tasks hother
  | dated preview => exact h.tasks hother
  | permitted actor task token => exact h.tasks hother
  | loaded actor task token raw =>
    exact ⟨h.tasks hother.1, fun preview hraw => h.minted (hother.2 preview hraw)⟩
  | consumed actor task token rows =>
    obtain ⟨hthere, preview, hminted, hpreview⟩ := hother
    exact ⟨h.tasks hthere, preview, h.minted hminted, hpreview⟩
  | inserting actor task token done todo =>
    obtain ⟨hthere, ⟨preview, hminted, hpreview⟩, hfrees, hnodup⟩ := hother
    refine ⟨h.tasks hthere, ⟨preview, h.minted hminted, hpreview⟩, fun row hrow htaken => ?_,
      hnodup⟩
    rcases h.taken hthere htaken with hold | hlocked
    · exact hfrees row hrow hold
    · exact hdisjoint _ hlocked ⟨row, hrow, rfl⟩

theorem ImportCommit.consistent (h : ImportCommit ttl m s ev m' s') (hs : s.Consistent)
    (hknown : s.Knows m) : s'.Consistent where
  unique := by
    cases h with
    | imported actor task token rows ids hlength hids hfresh =>
      obtain ⟨_, _, hfrees, hnodup⟩ := hknown
      intro id id' unit unit' hget hget' hkey
      have hdistinct : ((rows.map fun row => row.unit task).map unitKey).Nodup := by
        have hpairs : (rows.map fun row => row.unit task).map unitKey =
            (rows.map PreviewRow.pair).map (Prod.mk task) := by
          rw [List.map_map, List.map_map]
          rfl
        rw [hpairs]
        exact hnodup.map (Prod.mk_right_injective task)
      have hfree {id id' : UnitId} {unit unit' : TaskUnit} (hold : s.units.get id = some unit)
          (hnew : (id', unit') ∈ ids.zip (rows.map fun row => row.unit task)) :
          unitKey unit ≠ unitKey unit' := by
        obtain ⟨row, hrow, rfl⟩ := List.mem_map.mp (List.of_mem_zip hnew).2
        exact fun hsame => hfrees row hrow ⟨id, unit, hold, hsame⟩
      rcases (get_insertPreviewedRows hlength hids hfresh).mp hget with hold | hnew
      · rcases (get_insertPreviewedRows hlength hids hfresh).mp hget' with hold' | hnew'
        · exact hs.unique id id' unit unit' hold hold' hkey
        · exact absurd hkey (hfree hold hnew')
      · rcases (get_insertPreviewedRows hlength hids hfresh).mp hget' with hold' | hnew'
        · exact absurd hkey.symm (hfree hold' hnew)
        · exact zip_place hdistinct hnew hnew' hkey
    | elsewhere tasks collaborators units clock hclock htasks hkept hmade hunique => exact hunique
    | _ => exact hs.unique
  previews token preview hget := by
    cases h with
    | previewed preview' token' hfresh =>
      rcases Table.get_put_eq_some hget with ⟨rfl, rfl⟩ | ⟨hne, hold⟩
      · exact Table.get_put_self _ _ _
      · exact (Table.get_put_of_ne _ _ hne).trans (hs.previews token preview hold)
    | consumed => exact hs.previews token preview (Table.get_of_remove hget)
    | lapsed => exact hs.previews token preview (Table.get_of_remove hget)
    | _ => exact hs.previews token preview hget
  tasks token preview hget := by
    cases h with
    | previewed preview' token' hfresh =>
      rcases Table.get_put_eq_some hget with ⟨rfl, rfl⟩ | ⟨hne, hold⟩
      · exact hknown
      · exact hs.tasks token preview hold
    | elsewhere tasks collaborators units clock hclock htasks =>
      exact htasks preview.taskId (hs.tasks token preview hget)
    | _ => exact hs.tasks token preview hget

end Effects

theorem importProtocol_sound (ttl : Duration) :
    (importProtocol ttl).Sound ImportStore.Consistent where
  start_locks m k hm := by
    subst hm
    exact id
  start_known m s hm := by
    subst hm
    trivial
  read_known m s m' hknown hread := read_keeps hknown hread
  commit_inv m s ev m' s' hs hknown hcommit := hcommit.consistent hs hknown
  commit_known m s ev m' s' hs hknown hcommit := by
    cases hcommit with
    | consumed actor task token => exact ⟨hknown, fun preview hraw => hs.previews token preview hraw⟩
    | _ => trivial
  commit_stable m s ev m' s' o _ _ hcommit hother hdisjoint := hcommit.knows hother hdisjoint

section Tokens

variable {ttl : Duration} {token : Token} {m m' : ImportRequest} {s s' : ImportStore}
  {ev : ImportEvent}

def ImportRequest.Carries (token : Token) : ImportRequest → Prop
  | loaded _ _ t raw => t = token ∧ raw ≠ none
  | consumed _ _ t _ | inserting _ _ t _ _ => t = token
  | _ => False

def ImportStore.Spent (token : Token) (s : ImportStore) : Prop :=
  s.minted.get token ≠ none ∧ s.previews.get token = none

theorem drop_kept {t : Token} (hnone : s.previews.get token = none) :
    (s.dropPreview t).previews.get token = none := by
  refine (Table.get_remove _ _ _).trans ?_
  split
  · rfl
  · exact hnone

theorem tokens_taken_once (ttl : Duration) (token : Token) :
    (importProtocol ttl).TakenOnce ImportStore.Consistent (ImportRequest.Carries token)
      (ImportStore.Spent token) where
  start m hm := by
    subst hm
    exact id
  read m s m' hread hcarries := by
    cases hread with
    | validate actor task t raw rows hrows =>
      obtain ⟨preview, hraw, _⟩ := consumePreview_ok.mp hrows
      exact ⟨hcarries, fun hnone => (by rw [hnone] at hraw; cases hraw)⟩
    | check => exact hcarries
    | insert => exact hcarries
    | _ => exact hcarries.elim
  take m s ev m' s' hs hknown hcommit hcarries := by
    cases hcommit with
    | consumed actor task t =>
      obtain ⟨rfl, hthere⟩ := hcarries
      obtain ⟨preview, hget⟩ := Option.ne_none_iff_exists'.mp hthere
      have hminted := hs.previews t preview hget
      refine Or.inr ⟨fun hspent => hthere hspent.2, ?_, ?_⟩
      · exact Option.ne_none_iff_exists'.mpr ⟨preview, hminted⟩
      · exact (Table.get_remove _ _ _).trans (if_pos rfl)
    | _ => exact hcarries.elim
  gone m s ev m' s' hs hknown hcommit hspent := by
    obtain ⟨hminted, hnone⟩ := hspent
    obtain ⟨preview, hget⟩ := Option.ne_none_iff_exists'.mp hminted
    refine ⟨Option.ne_none_iff_exists'.mpr ⟨preview, hcommit.minted hget⟩, ?_⟩
    cases hcommit with
    | previewed preview' t hfresh =>
      have hne : token ≠ t := by
        rintro rfl
        exact hminted hfresh
      exact (Table.get_put_of_ne _ _ hne).trans hnone
    | consumed actor task t => exact drop_kept hnone
    | lapsed t => exact drop_kept hnone
    | _ => exact hnone

end Tokens

/-- A key leaves Redis when it lapses, or with the confirmation that takes it. -/
theorem ImportCommit.preview_gone {ttl : Duration} {m m' : ImportRequest} {s s' : ImportStore}
    {ev : ImportEvent} {token : Token} (h : ImportCommit ttl m s ev m' s')
    (hthere : s.previews.get token ≠ none) (hgone : s'.previews.get token = none) :
    ev = .lapsed token ∨
      ∃ actor task, ev = .consumed actor task token ∧ m = permitted actor task token := by
  have hdrop {t : Token} (hgone : (s.dropPreview t).previews.get token = none) : token = t := by
    by_contra hne
    exact hthere (((Table.get_remove _ _ _).trans (if_neg hne)).symm.trans hgone)
  cases h with
  | previewed preview t hfresh =>
    rcases Table.get_put_cases s.previews t token preview with hsame | ⟨_, hnew⟩
    · exact absurd (hsame.symm.trans hgone) hthere
    · exact absurd (hnew.symm.trans hgone) (Option.some_ne_none _)
  | consumed actor task t =>
    obtain rfl := hdrop hgone
    exact Or.inr ⟨actor, task, rfl, rfl⟩
  | lapsed t =>
    obtain rfl := hdrop hgone
    exact Or.inl rfl
  | _ => exact absurd hgone hthere

def Inserts (units units' : Table UnitId TaskUnit) (shown : StoredPreview) : Prop :=
  ∃ new : List (UnitId × TaskUnit),
    (new.map Prod.snd).Perm (shown.rows.map fun row => row.unit shown.taskId) ∧
    (new.map Prod.fst).Nodup ∧ (∀ e ∈ new, units.get e.1 = none) ∧
    ∀ id unit, units'.get id = some unit ↔ units.get id = some unit ∨ (id, unit) ∈ new

theorem ImportCommit.inserts {ttl : Duration} {m m' : ImportRequest} {s s' : ImportStore}
    {actor : Actor} {task : TaskId} {token : Token}
    (h : ImportCommit ttl m s (.imported actor task token) m' s') (hknown : s.Knows m) :
    ∃ shown rows, m = inserting actor task token rows [] ∧ s.minted.get token = some shown ∧
      shown.taskId = task ∧ Inserts s.units s'.units shown := by
  cases h with
  | imported _ _ _ rows ids hlength hids hfresh =>
    obtain ⟨_, ⟨shown, hminted, rfl, hperm⟩, _⟩ := hknown
    rw [List.append_nil] at hperm
    refine ⟨shown, rows, rfl, hminted, rfl,
      ids.zip (rows.map fun row => row.unit shown.taskId), ?_, ?_, fun e he => ?_,
      fun id unit => get_insertPreviewedRows hlength hids hfresh⟩
    · rw [List.map_snd_zip (by rw [List.length_map, hlength])]
      exact hperm.map _
    · rw [List.map_fst_zip (by rw [List.length_map, hlength])]
      exact hids
    · exact hfresh e.1 (List.of_mem_zip he).1

theorem ImportCommit.shows {ttl : Duration} {m m' : ImportRequest} {s s' : ImportStore}
    {token : Token} {shown : StoredPreview}
    (h : ImportCommit ttl m s (.previewed token shown) m' s') :
    s'.minted.get token = some shown := by
  cases h with
  | previewed => exact Table.get_put_self _ _ _

theorem ImportCommit.units_kept {ttl : Duration} {m m' : ImportRequest} {s s' : ImportStore}
    {ev : ImportEvent} (h : ImportCommit ttl m s ev m' s')
    (himported : ∀ actor task token, ev ≠ .imported actor task token)
    (helsewhere : ev ≠ .elsewhere) : s'.units = s.units := by
  cases h with
  | imported actor task token => exact absurd rfl (himported actor task token)
  | elsewhere => exact absurd rfl helsewhere
  | _ => rfl

section Runs

variable {ttl : Duration} {ι : Type*} [DecidableEq ι] {c c' : Config ι ImportStore ImportRequest}
  {l : List (Config ι ImportStore ImportRequest × Move ι ImportEvent ×
    Config ι ImportStore ImportRequest)}

/-- A step leaves the store alone, or it is a commit of a request that knows its rows. -/
theorem import_step (hc : (importSystem ttl ι).Reach c) {a : Move ι ImportEvent}
    (hstep : (importSystem ttl ι).step c a c') :
    (a.2 = none ∧ c'.store = c.store) ∨ ∃ ev m', a.2 = some ev ∧ c.store.Knows (c.proc a.1) ∧
      ImportCommit ttl (c.proc a.1) c.store ev m' c'.store :=
  ((importProtocol_sound ttl).step_store (fun _ h => h) hc hstep).2

theorem minted_kept (hc : (importSystem ttl ι).Reach c) {a : Move ι ImportEvent}
    (hstep : (importSystem ttl ι).step c a c') {token : Token} {shown : StoredPreview}
    (hget : c.store.minted.get token = some shown) : c'.store.minted.get token = some shown := by
  rcases import_step hc hstep with ⟨_, hsame⟩ | ⟨ev, m', _, _, hcommit⟩
  · rw [hsame]
    exact hget
  · exact hcommit.minted hget

theorem minted_later (hc : (importSystem ttl ι).Reach c) (hrun : (importSystem ttl ι).Run c l c')
    {token : Token} {shown : StoredPreview} {e : Config ι ImportStore ImportRequest ×
      Move ι ImportEvent × Config ι ImportStore ImportRequest} (he : e ∈ l)
    (hget : e.1.store.minted.get token = some shown) :
    c'.store.minted.get token = some shown := by
  obtain ⟨l₁, l₂, _, hbefore, hstep⟩ := hrun.split he
  exact hrun.kept_since (Q := fun c => c.store.minted.get token = some shown) hc
    (fun c₁ a c₂ hc₁ hQ hstep => minted_kept hc₁ hstep hQ) he
    (minted_kept (hbefore.reach hc) hstep hget)

/-- Who may take the token has been granted the access. -/
theorem access_passed (hc : (importSystem ttl ι).init c)
    (hrun : (importSystem ttl ι).Run c l c') {e : Config ι ImportStore ImportRequest ×
      Move ι ImportEvent × Config ι ImportStore ImportRequest} (he : e ∈ l) {actor : Actor}
    {task : TaskId} {token : Token} (hm : e.1.proc e.2.1.1 = permitted actor task token) :
    (importProtocol ttl).Passed l e fun s => s.requireTask actor task = .ok () := by
  refine (importProtocol_sound ttl).passed (fun _ h => h)
    (R := fun m => m = permitted actor task token) (fun m hstart hR => ?_)
    (fun m s m' _ hread hR => ?_) (fun m s ev m' s' _ hcommit hR => ?_) hc hrun he hm
  · subst hstart
    cases hR
  · subst hR
    cases hread with
    | permit _ _ _ haccess => exact Or.inr haccess
  · subst hR
    cases hcommit

def ImportRequest.Validated (token : Token) : ImportRequest → Prop
  | consumed _ _ t _ | inserting _ _ t _ _ => t = token
  | _ => False

/-- The rows of a token were read while it had not expired. -/
theorem live_passed (hc : (importSystem ttl ι).init c)
    (hrun : (importSystem ttl ι).Run c l c') {e : Config ι ImportStore ImportRequest ×
      Move ι ImportEvent × Config ι ImportStore ImportRequest} (he : e ∈ l) {token : Token}
    {shown : StoredPreview} (hm : (e.1.proc e.2.1.1).Validated token)
    (hminted : c'.store.minted.get token = some shown) :
    (importProtocol ttl).Passed l e fun s => s.clock < shown.expiresAt := by
  have hpassed : (importProtocol ttl).Passed l e fun s =>
      ∃ preview, s.minted.get token = some preview ∧ s.clock < preview.expiresAt := by
    refine (importProtocol_sound ttl).passed (fun _ h => h) (R := ImportRequest.Validated token)
      (fun m hstart hR => ?_) (fun m s m' hknown hread hR => ?_)
      (fun m s ev m' s' _ hcommit hR => ?_) hc hrun he hm
    · subst hstart
      exact hR
    · cases hread with
      | validate actor task t raw rows hrows =>
        obtain rfl : t = token := hR
        obtain ⟨preview, hraw, _, hlive, _⟩ := consumePreview_ok.mp hrows
        exact Or.inr ⟨preview, hknown.2 preview hraw, hlive⟩
      | check => exact Or.inl hR
      | insert => exact Or.inl hR
      | _ => exact hR.elim
    · cases hcommit <;> exact hR.elim
  refine hpassed.mono fun e₀ he₀ ⟨preview, hget, hlive⟩ => ?_
  have hlater := minted_later (.init hc) hrun he₀ hget
  obtain rfl : preview = shown := Option.some.inj (hlater.symm.trans hminted)
  exact hlive

end Runs

def ImportsWith (token : Token) (ev : ImportEvent) : Prop :=
  ∃ actor task, ev = .imported actor task token

/-- In every run of previews and confirmations: the keys of the units are unique; one
confirmation at most imports with a token; it inserts the rows that were shown with the token,
all of them and nothing else, into the task of the preview, and it has read them before they
expired; nothing else changes the units but the other services; and a token is taken only by a
request that has seen the access of its caller to the task that it names. -/
theorem import_confirm_exactly_once (ttl : Duration) {ι : Type*} [DecidableEq ι]
    {c c' : Config ι ImportStore ImportRequest}
    {l : List (Config ι ImportStore ImportRequest × Move ι ImportEvent ×
      Config ι ImportStore ImportRequest)}
    (hc : (importSystem ttl ι).init c) (hrun : (importSystem ttl ι).Run c l c') :
    c'.store.Consistent ∧
    (∀ token, l.Pairwise fun e e' => ¬ ((∃ ev, e.2.1.2 = some ev ∧ ImportsWith token ev) ∧
      ∃ ev, e'.2.1.2 = some ev ∧ ImportsWith token ev)) ∧
    (∀ e ∈ l, ∀ token shown, e.2.1.2 = some (.previewed token shown) →
      c'.store.minted.get token = some shown) ∧
    (∀ e ∈ l, ∀ actor task token, e.2.1.2 = some (.imported actor task token) →
      ∃ shown, c'.store.minted.get token = some shown ∧ shown.taskId = task ∧
        Inserts e.1.store.units e.2.2.store.units shown ∧
        (importProtocol ttl).Passed l e fun s => s.clock < shown.expiresAt) ∧
    (∀ e ∈ l, (∀ actor task token, e.2.1.2 ≠ some (.imported actor task token)) →
      e.2.1.2 ≠ some .elsewhere → e.2.2.store.units = e.1.store.units) ∧
    (∀ e ∈ l, ∀ token, e.1.store.previews.get token ≠ none →
      e.2.2.store.previews.get token = none → e.2.1.2 = some (.lapsed token) ∨
        ∃ actor task, e.2.1.2 = some (.consumed actor task token) ∧
          (importProtocol ttl).Passed l e fun s => s.requireTask actor task = .ok ()) := by
  have hreach : (importSystem ttl ι).Reach c := .init hc
  have hsound := importProtocol_sound ttl
  refine ⟨(hsound.current (fun _ h => h) (hrun.reach hreach)).inv, fun token => ?_, ?_, ?_, ?_, ?_⟩
  · refine (tokens_taken_once ttl token).used_once hsound (fun _ h => h)
      (fun m s ev m' s' hcommit hY => ?_) hreach hrun
    obtain ⟨actor, task, rfl⟩ := hY
    cases hcommit with
    | imported => exact ⟨rfl, id⟩
  · rintro ⟨c₁, ⟨i, label⟩, c₂⟩ he token shown rfl
    obtain ⟨l₁, l₂, _, hbefore, hstep⟩ := hrun.split he
    refine hrun.kept_since (Q := fun c => c.store.minted.get token = some shown) hreach
      (fun c₁ a c₂ hc₁ hQ hstep => minted_kept hc₁ hstep hQ) he ?_
    rcases import_step (hbefore.reach hreach) hstep with ⟨hnone, _⟩ | ⟨ev, m', hev, _, hcommit⟩
    · cases hnone
    · obtain rfl := Option.some.inj hev
      exact hcommit.shows
  · rintro ⟨c₁, ⟨i, label⟩, c₂⟩ he actor task token rfl
    obtain ⟨l₁, l₂, _, hbefore, hstep⟩ := hrun.split he
    rcases import_step (hbefore.reach hreach) hstep with ⟨hnone, _⟩ | ⟨ev, m', hev, hknown, hcommit⟩
    · cases hnone
    · obtain rfl := Option.some.inj hev
      obtain ⟨shown, rows, hm, hminted, htask, hinserts⟩ := hcommit.inserts hknown
      have hlater := minted_later hreach hrun he hminted
      refine ⟨shown, hlater, htask, hinserts, live_passed hc hrun he ?_ hlater⟩
      dsimp only at hm ⊢
      rw [hm]
      exact rfl
  · rintro ⟨c₁, ⟨i, label⟩, c₂⟩ he himported helsewhere
    obtain ⟨l₁, l₂, _, hbefore, hstep⟩ := hrun.split he
    rcases import_step (hbefore.reach hreach) hstep with ⟨_, hsame⟩ | ⟨ev, m', hev, _, hcommit⟩
    · exact congrArg ImportStore.units hsame
    · dsimp only at hev himported helsewhere
      rw [hev] at himported helsewhere
      exact hcommit.units_kept (fun actor task token heq => himported actor task token (heq ▸ rfl))
        fun heq => helsewhere (heq ▸ rfl)
  · rintro ⟨c₁, ⟨i, label⟩, c₂⟩ he token hthere hgone
    obtain ⟨l₁, l₂, _, hbefore, hstep⟩ := hrun.split he
    rcases import_step (hbefore.reach hreach) hstep with ⟨_, hsame⟩ | ⟨ev, m', hev, _, hcommit⟩
    · dsimp only at hsame hthere hgone
      rw [hsame] at hgone
      exact absurd hgone hthere
    · rcases hcommit.preview_gone hthere hgone with rfl | ⟨actor, task, rfl, hm⟩
      · exact Or.inl hev
      · exact Or.inr ⟨actor, task, hev, access_passed hc hrun he hm⟩

section Example

def shownRow : PreviewRow := ⟨1, ['p'], ['k']⟩

def shownPreview : StoredPreview := ⟨5, [shownRow], 100⟩

def teacher : Actor := ⟨2, .teacher⟩

def previewed : ImportStore where
  tasks := Table.empty.put 5 2
  collaborators := .empty
  units := .empty
  audit := []
  previews := Table.empty.put 7 shownPreview
  clock := 0
  minted := Table.empty.put 7 shownPreview

theorem previewed_consistent : previewed.Consistent where
  unique id id' unit unit' hget := (by cases hget)
  previews token preview hget := hget
  tasks token preview hget := by
    rcases Table.get_put_eq_some hget with ⟨_, rfl⟩ | ⟨_, hold⟩
    · exact Option.some_ne_none _
    · cases hold

def confirmed : ImportStore := (previewed.dropPreview 7).insertPreviewedRows teacher 5 [0] [shownRow]

/-- The teacher confirms: the row that was shown becomes a unit. -/
theorem preview_confirmed : ∃ shown, confirmed.minted.get 7 = some shown ∧
    Inserts (previewed.dropPreview 7).units confirmed.units shown := by
  have hpermit := Protocol.read_alone (P := importProtocol 600)
    (.permit (s := previewed) teacher 5 7 (by decide +kernel))
  have hconsume := Protocol.commit_alone (P := importProtocol 600)
    (.consumed (s := previewed) teacher 5 7)
  have hvalidate := Protocol.read_alone (P := importProtocol 600)
    (.validate (s := previewed.dropPreview 7) teacher 5 7 (previewed.previews.get 7) [shownRow]
      (by decide +kernel))
  have hcheck := Protocol.read_alone (P := importProtocol 600)
    (.check (s := previewed.dropPreview 7) teacher 5 7 [shownRow] [shownRow] (by decide +kernel))
  have hinsert := Protocol.read_alone (P := importProtocol 600)
    (.insert (s := previewed.dropPreview 7) teacher 5 7 [] shownRow [] (by decide +kernel)
      (by decide))
  have himport := Protocol.commit_alone (P := importProtocol 600)
    (.imported (s := previewed.dropPreview 7) teacher 5 7 [shownRow] [0] rfl
      (List.nodup_singleton 0) (fun _ _ => rfl))
  have hrun := ((((((System.Run.nil (S := importSystem 600 Unit) ⟨previewed, fun _ => idle⟩).snoc
    hpermit).snoc hconsume).snoc hvalidate).snoc hcheck).snoc hinsert).snoc himport
  have hinit : (importSystem 600 Unit).init ⟨previewed, fun _ => idle⟩ :=
    ⟨previewed_consistent, fun _ => rfl⟩
  obtain ⟨shown, hminted, _, hinserts, _⟩ := (import_confirm_exactly_once 600 hinit hrun).2.2.2.1 _
    (List.mem_append_right _ (List.mem_singleton_self _)) teacher 5 7 rfl
  exact ⟨shown, hminted, hinserts⟩

end Example

end CampusQuest.Imports
