import CampusQuest.Transactions

/-!
Sessions that run transactions against one store, statement by statement. A session picks
any call of a service, executes its program, may crash at any point, and ends with the
result of a commit or with an error that rolled everything back. A service is sound when
each of its transactions writes only under the guarding locks and keeps an invariant of
the store; then every ended call, in every interleaving, ended as its program alone may.
-/

namespace Transactions

open Locking Runs

variable {σ κ : Type}

structure Savepoint (I : Interface σ κ) (ε α : Type) where
  key : κ
  handler : Txn I ε α
  pending : Pending I

def Savepoint.outcome [DecidableEq κ] {I : Interface σ κ} {ε α : Type} (sp : Savepoint I ε α)
    (s : σ) : κ × (Except ε α × Pending I) :=
  (sp.key, sp.handler.exec s (sp.pending.recover sp.key) none)

inductive Session (I : Interface σ κ) (γ ε α : Type)
  | idle
  | running (call : γ) (saved : Option (Savepoint I ε α)) (txn : Txn I ε α) (pending : Pending I)
  | ended (call : γ) (result : Except ε α)

structure Service (I : Interface σ κ) (γ ε α : Type) where
  program : γ → Txn I ε α

namespace Service

variable {I : Interface σ κ} {γ ε α : Type} (S : Service I γ ε α)

inductive Statement (s : σ) : Session I γ ε α → Session I γ ε α → Prop
  | begin (m : Session I γ ε α) (call : γ) (hidle : ∀ c v t p, m ≠ .running c v t p) :
      Statement s m (.running call none (S.program call) .start)
  | crash (c : γ) (v : Option (Savepoint I ε α)) (t : Txn I ε α) (p : Pending I) :
      Statement s (.running c v t p) .idle
  | ask (c : γ) (v : Option (Savepoint I ε α)) (q : I.Query) (next : I.Answer q → Txn I ε α)
      (p : Pending I) :
      Statement s (.running c v (.ask q next) p)
        (.running c v (next (I.answer q (p.view s))) p)
  | lock (c : γ) (v : Option (Savepoint I ε α)) (k : κ) (next : Txn I ε α) (p : Pending I) :
      Statement s (.running c v (.lock k next) p) (.running c v next (p.hold k))
  | write (c : γ) (v : Option (Savepoint I ε α)) (w : I.Write) (next : Txn I ε α)
      (p : Pending I) :
      Statement s (.running c v (.write w next) p) (.running c v next (p.add w))
  | insert (c : γ) (v : Option (Savepoint I ε α)) (w : I.Write) (e : ε) (next : Txn I ε α)
      (p : Pending I) (hfree : ¬ I.taken (I.row w) (p.view s)) :
      Statement s (.running c v (.insert w e next) p) (.running c v next (p.add w))
  | recover (c : γ) (v : Savepoint I ε α) (w : I.Write) (e : ε) (next : Txn I ε α)
      (p : Pending I) (htaken : I.taken (I.row w) s) (hkey : v.key = I.row w) :
      Statement s (.running c (some v) (.insert w e next) p)
        (.running c none v.handler (v.pending.recover v.key))
  | violated (c : γ) (v : Option (Savepoint I ε α)) (w : I.Write) (e : ε) (next : Txn I ε α)
      (p : Pending I) (htaken : I.taken (I.row w) (p.view s))
      (huncaught : ∀ sp, v = some sp → sp.key = I.row w → ¬ I.taken (I.row w) s) :
      Statement s (.running c v (.insert w e next) p) (.ended c (.error e))
  | savepoint (c : γ) (v : Option (Savepoint I ε α)) (k : κ) (handler body : Txn I ε α)
      (p : Pending I) :
      Statement s (.running c v (.savepoint k handler body) p)
        (.running c (some ⟨k, handler, p⟩) body (p.enter k))
  | release (c : γ) (v : Option (Savepoint I ε α)) (next : Txn I ε α) (p : Pending I) :
      Statement s (.running c v (.release next) p) (.running c none next p.leave)
  | raise (c : γ) (v : Option (Savepoint I ε α)) (e : ε) (p : Pending I) :
      Statement s (.running c v (.raise e) p) (.ended c (.error e))

inductive Commit (s : σ) : Session I γ ε α → γ × α → Session I γ ε α → σ → Prop
  | mk (c : γ) (v : Option (Savepoint I ε α)) (a : α) (p : Pending I) :
      Commit s (.running c v (.done a) p) (c, a) (.ended c (.ok a)) (p.view s)

def Session.locks : Session I γ ε α → κ → Prop
  | .running _ _ _ p, k => k ∈ p.locks
  | _, _ => False

variable (D : Discipline I)

/-- The statements executed so far, judged against one store: from the start of program
`t₀` they lead to the rest `t` with the pending writes and locks `p`. -/
inductive Leads (s : σ) (t₀ : Txn I ε α) : Txn I ε α → Pending I → Prop
  | start : Leads s t₀ t₀ .start
  | ask {q : I.Query} {next : I.Answer q → Txn I ε α} {p : Pending I} (a : I.Answer q)
      (h : Leads s t₀ (.ask q next) p)
      (hret : D.retained (fun k => k ∈ p.locks) (fun k => k ∈ p.seen) q (p.view s) a) :
      Leads s t₀ (next a) p
  | lock {k : κ} {next : Txn I ε α} {p : Pending I} (h : Leads s t₀ (.lock k next) p) :
      Leads s t₀ next (p.hold k)
  | write {w : I.Write} {next : Txn I ε α} {p : Pending I} (h : Leads s t₀ (.write w next) p) :
      Leads s t₀ next (p.add w)
  | insert {w : I.Write} {e : ε} {next : Txn I ε α} {p : Pending I}
      (h : Leads s t₀ (.insert w e next) p) (hfree : ¬ I.taken (I.row w) (p.view s)) :
      Leads s t₀ next (p.add w)
  | enter {k : κ} {handler body : Txn I ε α} {p : Pending I}
      (h : Leads s t₀ (.savepoint k handler body) p) : Leads s t₀ body (p.enter k)
  | recover {k : κ} {handler body : Txn I ε α} {p : Pending I}
      (h : Leads s t₀ (.savepoint k handler body) p) (htaken : I.taken k s) :
      Leads s t₀ handler (p.recover k)
  | release {next : Txn I ε α} {p : Pending I} (h : Leads s t₀ (.release next) p) :
      Leads s t₀ next p.leave

variable {D}

/-- What the rest of a program ends in, the whole program ends in. -/
theorem Leads.ends {s : σ} {t₀ t : Txn I ε α} {p p' : Pending I} {r : Except ε α}
    (h : Leads D s t₀ t p) (hrest : t.Ends D s p r p') : t₀.Ends D s .start r p' := by
  induction h with
  | start => exact hrest
  | ask a _ hret ih => exact ih ⟨a, hret, hrest⟩
  | lock _ ih => exact ih hrest
  | write _ ih => exact ih hrest
  | insert _ hfree ih => exact ih (Or.inl ⟨hfree, hrest⟩)
  | enter _ ih => exact ih (Or.inl hrest)
  | recover _ htaken ih => exact ih (Or.inr ⟨htaken, hrest⟩)
  | release _ ih => exact ih hrest

/-- The rows that a transaction has seen are committed. -/
theorem Leads.seen_taken {s : σ} {t₀ t : Txn I ε α} {p : Pending I} (h : Leads D s t₀ t p) :
    ∀ k ∈ p.seen, I.taken k s := by
  induction h with
  | start => exact fun k hk => by cases hk
  | ask _ _ _ ih => exact ih
  | lock _ ih => exact ih
  | write _ ih => exact ih
  | insert _ _ ih => exact ih
  | enter _ ih => exact ih
  | recover _ htaken ih =>
    intro k hk
    rcases List.mem_cons.mp hk with rfl | hold
    · exact htaken
    · exact ih k hold
  | release _ ih => exact ih

/-- A commit that leaves alone what the locks protect leaves the history valid. -/
theorem Leads.stable {s s' : σ} {t₀ t : Txn I ε α} {p : Pending I} (h : Leads D s t₀ t p)
    (hagree : D.agree (fun k => k ∈ p.locks) s s') : Leads D s' t₀ t p := by
  induction h with
  | start => exact Leads.start
  | ask a _ hret ih => exact Leads.ask a (ih hagree) (D.retained_agree (D.agree_view _ hagree) hret)
  | lock _ ih => exact Leads.lock (ih (D.agree_mono (fun _ => List.mem_cons_of_mem _) hagree))
  | write _ ih => exact Leads.write (ih (D.agree_mono (fun _ => List.mem_cons_of_mem _) hagree))
  | @insert w _ _ p _ hfree ih =>
    refine Leads.insert (ih (D.agree_mono (fun _ => List.mem_cons_of_mem _) hagree)) ?_
    intro htaken
    exact hfree (D.free_agree (D.agree_view p hagree) List.mem_cons_self htaken)
  | enter _ ih => exact Leads.enter (ih hagree)
  | recover _ htaken ih => exact Leads.recover (ih hagree) (D.taken_agree hagree htaken)
  | release _ ih => exact Leads.release (ih hagree)

variable (D)

/-- What a session still knows: its history and the history of its open savepoint. -/
def Known : Session I γ ε α → σ → Prop
  | .running c v t p, s => Leads D s (S.program c) t p ∧ p.catches = v.map Savepoint.key ∧
      ∀ sp, v = some sp → (∀ k ∈ sp.pending.locks, k ∈ p.locks) ∧
        ∃ body, Leads D s (S.program c) (.savepoint sp.key sp.handler body) sp.pending
  | _, _ => True

def protocol : Protocol σ κ (Session I γ ε α) (γ × α) where
  locks := Session.locks
  known := S.Known D
  start m := m = .idle
  read m s m' := S.Statement s m m'
  commit m s a m' s' := Commit s m a m' s'

/-- The proof obligations of a service, one program at a time. -/
structure Sound (Inv : σ → Prop) : Prop where
  covered : ∀ c s a p, Inv s → (S.program c).Ends D s .start (.ok a) p → D.covered p s
  keeps : ∀ c s a p, Inv s → (S.program c).Ends D s .start (.ok a) p → Inv (p.view s)

variable {S D}

theorem known_statement {s : σ} {m m' : Session I γ ε α} (hknown : S.Known D m s)
    (h : S.Statement s m m') : S.Known D m' s := by
  cases h with
  | begin m call => exact ⟨Leads.start, rfl, fun _ hsp => by cases hsp⟩
  | crash => trivial
  | ask c v q next p =>
    obtain ⟨hleads, hcatches, hsaved⟩ := hknown
    exact ⟨Leads.ask _ hleads (D.retained_view p q hleads.seen_taken), hcatches, hsaved⟩
  | lock c v k next p =>
    obtain ⟨hleads, hcatches, hsaved⟩ := hknown
    refine ⟨Leads.lock hleads, hcatches, fun sp hsp => ?_⟩
    obtain ⟨hlocks, hbody⟩ := hsaved sp hsp
    exact ⟨fun k hk => List.mem_cons_of_mem _ (hlocks k hk), hbody⟩
  | write c v w next p =>
    obtain ⟨hleads, hcatches, hsaved⟩ := hknown
    refine ⟨Leads.write hleads, hcatches, fun sp hsp => ?_⟩
    obtain ⟨hlocks, hbody⟩ := hsaved sp hsp
    exact ⟨fun k hk => List.mem_cons_of_mem _ (hlocks k hk), hbody⟩
  | insert c v w e next p hfree =>
    obtain ⟨hleads, hcatches, hsaved⟩ := hknown
    refine ⟨Leads.insert hleads hfree, hcatches, fun sp hsp => ?_⟩
    obtain ⟨hlocks, hbody⟩ := hsaved sp hsp
    exact ⟨fun k hk => List.mem_cons_of_mem _ (hlocks k hk), hbody⟩
  | recover c v w e next p htaken hkey =>
    obtain ⟨hleads, hcatches, hsaved⟩ := hknown
    obtain ⟨_, body, hbody⟩ := hsaved v rfl
    refine ⟨Leads.recover hbody ?_, rfl, fun _ hsp => by cases hsp⟩
    rw [hkey]
    exact htaken
  | violated => trivial
  | savepoint c v k handler body p =>
    refine ⟨Leads.enter hknown.1, rfl, fun sp hsp => ?_⟩
    cases hsp
    exact ⟨fun _ hk => hk, body, hknown.1⟩
  | release c v next p => exact ⟨Leads.release hknown.1, rfl, fun _ hsp => by cases hsp⟩
  | raise => trivial

theorem known_stable {s s' : σ} {m : Session I γ ε α} (hknown : S.Known D m s)
    (hagree : D.agree (Session.locks m) s s') : S.Known D m s' := by
  cases m with
  | idle => trivial
  | ended => trivial
  | running c v t p =>
    obtain ⟨hleads, hcatches, hsaved⟩ := hknown
    refine ⟨hleads.stable hagree, hcatches, fun sp hsp => ?_⟩
    obtain ⟨hlocks, body, hbody⟩ := hsaved sp hsp
    exact ⟨hlocks, body, hbody.stable (D.agree_mono hlocks hagree)⟩

/-- Every write is made under the lock of its row. -/
theorem Leads.rows_locked {s : σ} {t₀ t : Txn I ε α} {p : Pending I} (h : Leads D s t₀ t p) :
    ∀ w ∈ p.writes, I.row w ∈ p.locks := by
  induction h with
  | start => exact fun w hw => by cases hw
  | ask _ _ _ ih => exact ih
  | lock _ ih => exact fun w hw => List.mem_cons_of_mem _ (ih w hw)
  | write _ ih =>
    intro w hw
    rcases List.mem_append.mp hw with hold | hnew
    · exact List.mem_cons_of_mem _ (ih w hold)
    · rw [List.mem_singleton.mp hnew]
      exact List.mem_cons_self
  | insert _ _ ih =>
    intro w hw
    rcases List.mem_append.mp hw with hold | hnew
    · exact List.mem_cons_of_mem _ (ih w hold)
    · rw [List.mem_singleton.mp hnew]
      exact List.mem_cons_self
  | enter _ ih => exact ih
  | recover _ _ ih => exact ih
  | release _ ih => exact ih

theorem Sound.protocol_sound {Inv : σ → Prop} (h : S.Sound D Inv) :
    (S.protocol D).Sound Inv where
  start_locks m k hm := by
    have hm : m = .idle := hm
    subst hm
    exact fun hk => hk
  start_known m s hm := by
    have hm : m = .idle := hm
    subst hm
    trivial
  read_known m s m' hknown hread := known_statement hknown hread
  commit_inv m s a m' s' hinv hknown hcommit := by
    obtain ⟨c, v, a, p⟩ := hcommit
    exact h.keeps c s a p hinv (hknown.1.ends ⟨rfl, rfl⟩)
  commit_known m s a m' s' _ _ hcommit := by
    obtain ⟨c, v, a, p⟩ := hcommit
    trivial
  commit_stable m s a m' s' o hinv hknown hcommit hother hdisjoint := by
    obtain ⟨c, v, a, p⟩ := hcommit
    apply known_stable hother
    have hends : (S.program c).Ends D s .start (.ok a) p := hknown.1.ends ⟨rfl, rfl⟩
    have hagree := D.agree_commit p (h.covered c s a p hinv hends) hknown.1.rows_locked
    exact D.agree_mono (fun k hk hp => hdisjoint k hp hk) hagree

section Interleaved

variable {ι : Type} [DecidableEq ι] {Inv initial : σ → Prop}

def system (S : Service I γ ε α) (D : Discipline I) (ι : Type) [DecidableEq ι]
    (initial : σ → Prop) : System (Config ι σ (Session I γ ε α)) (Move ι (γ × α)) :=
  (S.protocol D).system ι initial

/-- The invariant of the transactions holds of the store in every interleaving. -/
theorem Sound.store_inv (h : S.Sound D Inv) (hinit : ∀ s, initial s → Inv s)
    {c : Config ι σ (Session I γ ε α)} (hc : (S.system D ι initial).Reach c) : Inv c.store :=
  (h.protocol_sound.current hinit hc).inv

/-- Whenever a session ends a call, the call ended as its program may end at that store:
a commit published its writes, an error published nothing. -/
theorem Sound.ends (h : S.Sound D Inv) (hinit : ∀ s, initial s → Inv s)
    {c c' : Config ι σ (Session I γ ε α)} {i : ι} {l : Option (γ × α)} {call : γ}
    {r : Except ε α} (hc : (S.system D ι initial).Reach c)
    (hstep : (S.system D ι initial).step c (i, l) c') (hended : c'.proc i = .ended call r) :
    ∃ p, (S.program call).Ends D c.store .start r p ∧
      ((∃ a, r = .ok a ∧ c'.store = p.view c.store) ∨
        (∃ e, r = .error e ∧ c'.store = c.store)) := by
  have hcurrent := h.protocol_sound.current hinit hc
  have hknown := hcurrent.known i
  cases hstep with
  | read i m hread hfree =>
    simp only [Function.update_self] at hended
    subst hended
    change S.Statement c.store (c.proc i) (.ended call r) at hread
    generalize c.proc i = m at hread hknown
    cases hread with
    | violated _ v w e next p htaken huncaught =>
      obtain ⟨hleads, hcatches, _⟩ := hknown
      have hopen : p.catches = some (I.row w) → ¬ I.taken (I.row w) c.store := by
        intro hcatch
        rw [hcatches] at hcatch
        obtain ⟨sp, hsp, hkey⟩ := Option.map_eq_some_iff.mp hcatch
        exact huncaught sp hsp hkey
      exact ⟨p, hleads.ends (Or.inr ⟨htaken, hopen, rfl, rfl⟩), Or.inr ⟨e, rfl, rfl⟩⟩
    | raise _ v e p => exact ⟨p, hknown.1.ends ⟨rfl, rfl⟩, Or.inr ⟨e, rfl, rfl⟩⟩
  | commit i a m s' hcommit hfree =>
    simp only [Function.update_self] at hended
    subst hended
    change Commit c.store (c.proc i) a (.ended call r) s' at hcommit
    generalize c.proc i = m at hcommit hknown
    cases hcommit with
    | mk _ v a p => exact ⟨p, hknown.1.ends ⟨rfl, rfl⟩, Or.inl ⟨a, rfl, rfl⟩⟩

def atomic (S : Service I γ ε α) (D : Discipline I) (initial : σ → Prop) :
    System σ (γ × α) where
  init := initial
  step s a s' := ∃ p, (S.program a.1).Ends D s .start (.ok a.2) p ∧ s' = p.view s

/-- Every store that interleaved sessions reach is reached by whole transactions. -/
theorem Sound.store_reach (h : S.Sound D Inv) (hinit : ∀ s, initial s → Inv s)
    {c : Config ι σ (Session I γ ε α)} (hc : (S.system D ι initial).Reach c) :
    (S.atomic D initial).Reach c.store := by
  refine h.protocol_sound.store_reach (S := S.atomic D initial) hinit ?_ hc
  intro m s a m' s' _ hknown hcommit
  obtain ⟨call, v, a, p⟩ := hcommit
  exact ⟨p, hknown.1.ends ⟨rfl, rfl⟩, rfl⟩

/-- A step leaves the committed store alone, or it commits one whole transaction. -/
theorem Sound.store_step (h : S.Sound D Inv) (hinit : ∀ s, initial s → Inv s)
    {c c' : Config ι σ (Session I γ ε α)} {a : Move ι (γ × α)}
    (hc : (S.system D ι initial).Reach c) (hstep : (S.system D ι initial).step c a c') :
    c'.store = c.store ∨ ∃ b, a.2 = some b ∧ (S.atomic D initial).step c.store b c'.store := by
  have hcurrent := h.protocol_sound.current hinit hc
  cases hstep with
  | read => exact Or.inl rfl
  | commit i a m s' hcommit hfree =>
    have hknown := hcurrent.known i
    change Commit c.store (c.proc i) a m s' at hcommit
    generalize c.proc i = m₀ at hcommit hknown
    obtain ⟨call, v, a, p⟩ := hcommit
    exact Or.inr ⟨(call, a), rfl, p, hknown.1.ends ⟨rfl, rfl⟩, rfl⟩

end Interleaved

section Alone

variable {ι : Type} [DecidableEq ι] {initial : σ → Prop}

def withSession (c : Config ι σ (Session I γ ε α)) (i : ι) (m : Session I γ ε α) :
    Config ι σ (Session I γ ε α) :=
  ⟨c.store, Function.update c.proc i m⟩

/-- The configuration after session `i` has ended a call with the given outcome. -/
def finish (c : Config ι σ (Session I γ ε α)) (i : ι) (call : γ)
    (out : Except ε α × Pending I) : Config ι σ (Session I γ ε α) :=
  ⟨match out.1 with
    | .ok _ => out.2.view c.store
    | .error _ => c.store, Function.update c.proc i (.ended call out.1)⟩

variable {c : Config ι σ (Session I γ ε α)} {i : ι} {call : γ}

theorem step_statement {m m' : Session I γ ε α}
    (hothers : ∀ j, j ≠ i → ∀ k, ¬ Session.locks (c.proc j) k) (hs : S.Statement c.store m m') :
    (S.system D ι initial).step (withSession c i m) (i, none) (withSession c i m') := by
  have hproc : (withSession c i m).proc i = m := Function.update_self _ _ _
  have hstep : (S.protocol D).Step (withSession c i m) (i, none)
      ⟨(withSession c i m).store, Function.update (withSession c i m).proc i m'⟩ := by
    apply Protocol.Step.read
    · rw [hproc]
      exact hs
    · intro j hj k _ hk
      have hother : (withSession c i m).proc j = c.proc j := Function.update_of_ne hj _ _
      rw [hother] at hk
      exact hothers j hj k hk
  have heq : (⟨(withSession c i m).store, Function.update (withSession c i m).proc i m'⟩ :
      Config ι σ (Session I γ ε α)) = withSession c i m' := by
    simp [withSession]
  rw [heq] at hstep
  exact hstep

theorem reach_statement {m m' : Session I γ ε α}
    (hothers : ∀ j, j ≠ i → ∀ k, ¬ Session.locks (c.proc j) k)
    (h : (S.system D ι initial).Reach (withSession c i m)) (hs : S.Statement c.store m m') :
    (S.system D ι initial).Reach (withSession c i m') :=
  .step h (step_statement hothers hs)

theorem step_commit {v : Option (Savepoint I ε α)} {a : α} {p : Pending I} :
    (S.system D ι initial).step (withSession c i (.running call v (.done a) p))
      (i, some (call, a)) (finish c i call (.ok a, p)) := by
  have hproc : (withSession c i (.running call v (.done a) p)).proc i = .running call v (.done a) p :=
    Function.update_self _ _ _
  have hstep : (S.protocol D).Step (withSession c i (.running call v (.done a) p)) (i, some (call, a))
      ⟨p.view c.store, Function.update (withSession c i (.running call v (.done a) p)).proc i
        (.ended call (.ok a))⟩ := by
    apply Protocol.Step.commit
    · rw [hproc]
      exact Commit.mk call v a p
    · intro j _ k hk
      exact absurd hk id
  have heq : (⟨p.view c.store, Function.update (withSession c i (.running call v (.done a) p)).proc i
      (.ended call (.ok a))⟩ : Config ι σ (Session I γ ε α)) = finish c i call (.ok a, p) := by
    simp [withSession, finish]
  rw [heq] at hstep
  exact hstep

variable (S D initial) in
/-- One step from a reachable configuration with the same store, the call has ended. -/
def Finishing (c : Config ι σ (Session I γ ε α)) (i : ι) (call : γ)
    (out : Except ε α × Pending I) : Prop :=
  ∃ c₀ l, (S.system D ι initial).Reach c₀ ∧ c₀.store = c.store ∧
    (S.system D ι initial).step c₀ (i, l) (finish c i call out)

theorem Finishing.reach {out : Except ε α × Pending I} (h : S.Finishing D initial c i call out) :
    (S.system D ι initial).Reach (finish c i call out) := by
  obtain ⟨c₀, l, hc₀, _, hstep⟩ := h
  exact .step hc₀ hstep

theorem last_step {c' : Config Unit σ (Session I γ ε α)} {r : Except ε α}
    (h : (S.system D Unit initial).Reach c') (hended : c'.proc () = .ended call r) :
    ∃ c l, (S.system D Unit initial).Reach c ∧ (S.system D Unit initial).step c ((), l) c' := by
  cases h with
  | init h =>
    have hidle := h.2 ()
    rw [hended] at hidle
    cases hidle
  | step hc hstep =>
    rename_i c move
    obtain ⟨⟨⟩, l⟩ := move
    exact ⟨c, l, hc, hstep⟩

variable [DecidableEq κ]

/-- What is left of a call that no other session interferes with is run alone. -/
theorem finishing_exec (hothers : ∀ j, j ≠ i → ∀ k, ¬ Session.locks (c.proc j) k)
    (t : Txn I ε α) (v : Option (Savepoint I ε α)) (p : Pending I)
    (hsaved : ∀ sp, v = some sp →
      (S.system D ι initial).Reach
        (withSession c i (.running call none sp.handler (sp.pending.recover sp.key))) →
      S.Finishing D initial c i call (sp.outcome c.store).2)
    (h : (S.system D ι initial).Reach (withSession c i (.running call v t p))) :
    S.Finishing D initial c i call (t.exec c.store p (v.map (·.outcome c.store))) := by
  induction t generalizing v p with
  | done a => exact ⟨_, _, h, rfl, step_commit⟩
  | raise e => exact ⟨_, _, h, rfl, step_statement hothers (.raise call v e p)⟩
  | ask q next ih => exact ih _ v p hsaved (reach_statement hothers h (.ask call v q next p))
  | lock k next ih => exact ih v _ hsaved (reach_statement hothers h (.lock call v k next p))
  | write w next ih => exact ih v _ hsaved (reach_statement hothers h (.write call v w next p))
  | release next ih =>
    exact ih none _ (fun sp hsp => by cases hsp)
      (reach_statement hothers h (.release call v next p))
  | savepoint k handler body ihh ihb =>
    have hbody := reach_statement hothers h (.savepoint call v k handler body p)
    refine ihb (some ⟨k, handler, p⟩) _ (fun sp hsp hreach => ?_) hbody
    cases hsp
    exact ihh none _ (fun sp hsp => by cases hsp) hreach
  | insert w e next ih =>
    by_cases htaken : I.taken (I.row w) (p.view c.store)
    · by_cases hcaught : ∃ sp, v = some sp ∧ sp.key = I.row w ∧ I.taken (I.row w) c.store
      · obtain ⟨sp, rfl, hkey, hcommitted⟩ := hcaught
        have hrecover := reach_statement hothers h
          (.recover call sp w e next p hcommitted hkey)
        have hexec : (Txn.insert w e next).exec c.store p (some (sp.outcome c.store)) =
            (sp.outcome c.store).2 := by
          have hk : sp.key = I.row w ∧ I.taken sp.key c.store :=
            ⟨hkey, by rw [hkey]; exact hcommitted⟩
          simp only [Txn.exec, Savepoint.outcome, if_pos htaken]
          exact if_pos hk
        have hdone := hsaved sp rfl hrecover
        rw [Option.map_some, hexec]
        exact hdone
      · have huncaught : ∀ sp, v = some sp → sp.key = I.row w → ¬ I.taken (I.row w) c.store :=
          fun sp hsp hkey hcommitted => hcaught ⟨sp, hsp, hkey, hcommitted⟩
        have hexec : (Txn.insert w e next).exec c.store p (v.map (·.outcome c.store)) =
            (.error e, p) := by
          cases v with
          | none => simp only [Txn.exec, Option.map_none, if_pos htaken]
          | some sp =>
            have hk : ¬ (sp.key = I.row w ∧ I.taken sp.key c.store) := by
              intro hk
              exact huncaught sp rfl hk.1 (by rw [← hk.1]; exact hk.2)
            simp only [Txn.exec, Option.map_some, Savepoint.outcome, if_pos htaken, if_neg hk]
        rw [hexec]
        exact ⟨_, _, h, rfl, step_statement hothers (.violated call v w e next p htaken huncaught)⟩
    · have hexec : (Txn.insert w e next).exec c.store p (v.map (·.outcome c.store)) =
          next.exec c.store (p.add w) (v.map (·.outcome c.store)) := by
        simp only [Txn.exec, if_neg htaken]
      rw [hexec]
      exact ih v _ hsaved (reach_statement hothers h (.insert call v w e next p htaken))

/-- A call that no other session interferes with ends as its program runs alone. -/
theorem reach_call (hothers : ∀ j, j ≠ i → ∀ k, ¬ Session.locks (c.proc j) k)
    (hidle : ∀ a v t p, c.proc i ≠ .running a v t p) (call : γ)
    (h : (S.system D ι initial).Reach c) :
    (S.system D ι initial).Reach
      (finish c i call ((S.program call).exec c.store .start none)) := by
  have hsame : withSession c i (c.proc i) = c := by
    simp [withSession]
  have hbegin : (S.system D ι initial).Reach
      (withSession c i (.running call none (S.program call) .start)) := by
    apply reach_statement hothers _ (.begin (c.proc i) call hidle)
    rw [hsame]
    exact h
  exact (finishing_exec hothers (S.program call) none .start (fun sp hsp => by cases hsp)
    hbegin).reach

def serially (S : Service I γ ε α) (c : Config Unit σ (Session I γ ε α)) (calls : List γ) :
    Config Unit σ (Session I γ ε α) :=
  calls.foldl (fun c call => finish c () call ((S.program call).exec c.store .start none)) c

theorem reach_serially {c : Config Unit σ (Session I γ ε α)} (calls : List γ)
    (h : (S.system D Unit initial).Reach c) (hidle : ∀ a v t p, c.proc () ≠ .running a v t p) :
    (S.system D Unit initial).Reach (serially S c calls) := by
  induction calls generalizing c with
  | nil => exact h
  | cons call calls ih =>
    refine ih (reach_call (fun j hj => absurd rfl hj) hidle call h) ?_
    intro a v t p hrunning
    cases hrunning

end Alone

end Service

end Transactions
