import CampusQuest.Locking

/-!
Database transactions as programs. A transaction asks queries, takes row locks, writes
and inserts rows, sets savepoints and ends with a result or an error; nobody else sees
its writes before the commit. Three readings of one program are connected here: running
it alone (`run`), interleaving its statements with those of other transactions
(`protocol`), and judging it against one store (`Ends`). In a disciplined program the
locks keep what was read true until the commit, so every interleaving of whole
transactions has the outcomes that `Ends` describes.
-/

namespace Transactions

open Locking Runs

/-- What the statements of a transaction can ask of a store and do to it. A write takes
the lock of its row, and a row that is inserted must not be there yet. -/
structure Interface (σ κ : Type) where
  Query : Type
  Answer : Query → Type
  answer : (q : Query) → σ → Answer q
  Write : Type
  apply : Write → σ → σ
  row : Write → κ
  taken : κ → σ → Prop
  [decTaken : ∀ k s, Decidable (taken k s)]

instance {σ κ : Type} (I : Interface σ κ) (k : κ) (s : σ) : Decidable (I.taken k s) :=
  I.decTaken k s

variable {σ κ : Type}

/-- A savepoint names the unique key whose violation inside its body goes to the handler;
`violated` is the error of an insert that no savepoint catches. -/
inductive Txn (I : Interface σ κ) (ε α : Type) : Type
  | done (a : α)
  | raise (e : ε)
  | ask (q : I.Query) (next : I.Answer q → Txn I ε α)
  | lock (k : κ) (next : Txn I ε α)
  | write (w : I.Write) (next : Txn I ε α)
  | insert (w : I.Write) (violated : ε) (next : Txn I ε α)
  | savepoint (k : κ) (handler body : Txn I ε α)
  | release (next : Txn I ε α)

/-- The uncommitted writes of a transaction, oldest first, the locks it holds, the unique
keys whose violation has told it that their rows are committed, and the key that its open
savepoint catches. -/
structure Pending (I : Interface σ κ) where
  writes : List I.Write
  locks : List κ
  seen : List κ
  catches : Option κ

namespace Pending

variable {I : Interface σ κ}

def start : Pending I := ⟨[], [], [], none⟩

def hold (p : Pending I) (k : κ) : Pending I := { p with locks := k :: p.locks }

def enter (p : Pending I) (k : κ) : Pending I := { p with catches := some k }

def leave (p : Pending I) : Pending I := { p with catches := none }

/-- Back at the savepoint after a violation of its key. -/
def recover (p : Pending I) (k : κ) : Pending I := { p with seen := k :: p.seen, catches := none }

def add (p : Pending I) (w : I.Write) : Pending I :=
  { p with writes := p.writes ++ [w], locks := I.row w :: p.locks }

/-- The store as the transaction sees it: its own writes over the committed rows. -/
def view (p : Pending I) (s : σ) : σ := p.writes.foldl (fun s w => I.apply w s) s

@[simp] theorem view_start (s : σ) : (start : Pending I).view s = s := rfl

@[simp] theorem view_enter (p : Pending I) (k : κ) (s : σ) : (p.enter k).view s = p.view s := rfl

@[simp] theorem view_leave (p : Pending I) (s : σ) : p.leave.view s = p.view s := rfl

@[simp] theorem view_recover (p : Pending I) (k : κ) (s : σ) :
    (p.recover k).view s = p.view s := rfl

@[simp] theorem view_hold (p : Pending I) (k : κ) (s : σ) : (p.hold k).view s = p.view s := rfl

@[simp] theorem view_add (p : Pending I) (w : I.Write) (s : σ) :
    (p.add w).view s = I.apply w (p.view s) := by
  simp [view, add]

theorem view_get {ρ : Type} (f : σ → Option ρ) (mk : ρ → I.Write) (key : κ)
    (hf : ∀ (w : I.Write) s, f (I.apply w s) = f s ∨
      ∃ row, w = mk row ∧ I.row w = key ∧ f (I.apply w s) = some row)
    (p : Pending I) (s : σ) :
    f (p.view s) = f s ∨
      ∃ row, mk row ∈ p.writes ∧ I.row (mk row) = key ∧ f (p.view s) = some row := by
  obtain ⟨writes, locks, seen, catches⟩ := p
  unfold view
  induction writes generalizing s with
  | nil => exact Or.inl rfl
  | cons w ws ih =>
    rcases ih (I.apply w s) with hkeep | ⟨row, hmem, hkey, hrow⟩
    · rcases hf w s with hsame | ⟨row, rfl, hkey, hrow⟩
      · exact Or.inl (hkeep.trans hsame)
      · exact Or.inr ⟨row, List.mem_cons_self, hkey, hkeep.trans hrow⟩
    · exact Or.inr ⟨row, List.mem_cons_of_mem _ hmem, hkey, hrow⟩

end Pending

namespace Txn

variable {I : Interface σ κ} {ε α β : Type}

protected def bind : Txn I ε α → (α → Txn I ε β) → Txn I ε β
  | done a, f => f a
  | raise e, _ => raise e
  | ask q next, f => ask q fun a => (next a).bind f
  | lock k next, f => lock k (next.bind f)
  | write w next, f => write w (next.bind f)
  | insert w violated next, f => insert w violated (next.bind f)
  | savepoint k handler body, f => savepoint k (handler.bind f) (body.bind f)
  | release next, f => release (next.bind f)

instance : Monad (Txn I ε) where
  pure := done
  bind := Txn.bind

/-- A nested block under a savepoint, with the handler of its unique violation. -/
def nested (k : κ) (handler body : Txn I ε α) : Txn I ε α :=
  savepoint k handler (body.bind fun a => release (done a))

/-- Running a transaction with nobody else around. `saved` is the violation that the open
savepoint catches, with what its handler comes to. -/
def exec [DecidableEq κ] (s : σ) : Txn I ε α → Pending I →
    Option (κ × (Except ε α × Pending I)) → Except ε α × Pending I
  | done a, p, _ => (.ok a, p)
  | raise e, p, _ => (.error e, p)
  | ask q next, p, saved => (next (I.answer q (p.view s))).exec s p saved
  | lock k next, p, saved => next.exec s (p.hold k) saved
  | write w next, p, saved => next.exec s (p.add w) saved
  | insert w violated next, p, saved =>
    if I.taken (I.row w) (p.view s) then
      match saved with
      | some (k, r) => if k = I.row w ∧ I.taken k s then r else (.error violated, p)
      | none => (.error violated, p)
    else next.exec s (p.add w) saved
  | savepoint k handler body, p, _ =>
    body.exec s (p.enter k) (some (k, handler.exec s (p.recover k) none))
  | release next, p, _ => next.exec s p.leave none

def run [DecidableEq κ] (t : Txn I ε α) (s : σ) : Except ε (α × σ) :=
  match t.exec s .start none with
  | (.ok a, p) => .ok (a, p.view s)
  | (.error e, _) => .error e

end Txn

/-- How the locks of a program protect what it reads. `agree L s s'` says that a commit
by others from `s` to `s'` left alone what the locks in `L` protect, and `covered` that the
pending writes are made under the locks that guard them. `retained L K q s a` is what an
answer still says about the store while the locks in `L` are held, when it was given after
the rows in `K` were seen. -/
structure Discipline (I : Interface σ κ) where
  agree : (κ → Prop) → σ → σ → Prop
  retained : (κ → Prop) → (κ → Prop) → (q : I.Query) → σ → I.Answer q → Prop
  covered : Pending I → σ → Prop
  agree_mono : ∀ {L L' : κ → Prop} {s s'}, (∀ k, L k → L' k) → agree L' s s' → agree L s s'
  agree_apply : ∀ {L s s'} (w : I.Write), agree L s s' → agree L (I.apply w s) (I.apply w s')
  agree_commit : ∀ {s} (p : Pending I), covered p s → (∀ w ∈ p.writes, I.row w ∈ p.locks) →
    agree (fun k => k ∉ p.locks) s (p.view s)
  retained_answer : ∀ (L K : κ → Prop) q s, (∀ k, K k → I.taken k s) →
    retained L K q s (I.answer q s)
  retained_agree : ∀ {L K s s' q a}, agree L s s' → retained L K q s a → retained L K q s' a
  taken_apply : ∀ {k s} (w : I.Write), I.taken k s → I.taken k (I.apply w s)
  taken_agree : ∀ {L s s' k}, agree L s s' → I.taken k s → I.taken k s'
  free_agree : ∀ {L s s' k}, agree L s s' → L k → I.taken k s' → I.taken k s

variable {I : Interface σ κ} {ε α β : Type} (D : Discipline I)

namespace Discipline

theorem agree_view {L : κ → Prop} {s s' : σ} (p : Pending I) (h : D.agree L s s') :
    D.agree L (p.view s) (p.view s') := by
  obtain ⟨writes, locks, seen, catches⟩ := p
  unfold Pending.view
  induction writes generalizing s s' with
  | nil => exact h
  | cons w ws ih => exact ih (D.agree_apply w h)

theorem taken_view (D : Discipline I) {k : κ} {s : σ} (p : Pending I) (h : I.taken k s) :
    I.taken k (p.view s) := by
  obtain ⟨writes, locks, seen, catches⟩ := p
  unfold Pending.view
  induction writes generalizing s with
  | nil => exact h
  | cons w ws ih => exact ih (D.taken_apply w h)

/-- An answer of the moment is retained when the rows seen before are committed. -/
theorem retained_view {s : σ} (p : Pending I) (q : I.Query) (hseen : ∀ k ∈ p.seen, I.taken k s) :
    D.retained (fun k => k ∈ p.locks) (fun k => k ∈ p.seen) q (p.view s)
      (I.answer q (p.view s)) :=
  D.retained_answer _ _ q _ fun k hk => D.taken_view p (hseen k hk)

end Discipline

namespace Txn

/-- The outcomes of a transaction judged against one store: a query may be answered by
anything its answer retained, and a nested block may end in its handler once a row with
its key is committed. A violation surfaces only where no open savepoint catches it. -/
def Ends (s : σ) : Txn I ε α → Pending I → Except ε α → Pending I → Prop
  | done a, p, r, p' => r = .ok a ∧ p' = p
  | raise e, p, r, p' => r = .error e ∧ p' = p
  | ask q next, p, r, p' =>
    ∃ a, D.retained (fun k => k ∈ p.locks) (fun k => k ∈ p.seen) q (p.view s) a ∧
      (next a).Ends s p r p'
  | lock k next, p, r, p' => next.Ends s (p.hold k) r p'
  | write w next, p, r, p' => next.Ends s (p.add w) r p'
  | insert w violated next, p, r, p' =>
    (¬ I.taken (I.row w) (p.view s) ∧ next.Ends s (p.add w) r p') ∨
      (I.taken (I.row w) (p.view s) ∧ (p.catches = some (I.row w) → ¬ I.taken (I.row w) s) ∧
        r = .error violated ∧ p' = p)
  | savepoint k handler body, p, r, p' =>
    body.Ends s (p.enter k) r p' ∨ (I.taken k s ∧ handler.Ends s (p.recover k) r p')
  | release next, p, r, p' => next.Ends s p.leave r p'

variable {D}

/-- A sequence ends as its first part ends and then its second, unless the first raises. -/
theorem ends_bind {s : σ} {t : Txn I ε α} {f : α → Txn I ε β} {p p' : Pending I}
    {r : Except ε β} :
    (t.bind f).Ends D s p r p' ↔
      (∃ a p₁, t.Ends D s p (.ok a) p₁ ∧ (f a).Ends D s p₁ r p') ∨
        ∃ e, t.Ends D s p (.error e) p' ∧ r = .error e := by
  induction t generalizing p with
  | done a =>
    simp only [Txn.bind, Ends, Except.ok.injEq, reduceCtorEq, false_and, exists_false, or_false]
    constructor
    · intro hf
      exact ⟨a, p, ⟨rfl, rfl⟩, hf⟩
    · rintro ⟨_, _, ⟨rfl, rfl⟩, hf⟩
      exact hf
  | raise e =>
    simp only [Txn.bind, Ends, Except.error.injEq, reduceCtorEq, false_and, exists_false,
      false_or]
    constructor
    · rintro ⟨hr, hp⟩
      exact ⟨e, ⟨rfl, hp⟩, hr⟩
    · rintro ⟨_, ⟨rfl, hp⟩, hr⟩
      exact ⟨hr, hp⟩
  | ask q next ih =>
    simp only [Txn.bind, Ends, ih]
    constructor
    · rintro ⟨b, hb, ⟨a, p₁, hn, hf⟩ | ⟨e, he, hr⟩⟩
      · exact Or.inl ⟨a, p₁, ⟨b, hb, hn⟩, hf⟩
      · exact Or.inr ⟨e, ⟨b, hb, he⟩, hr⟩
    · rintro (⟨a, p₁, ⟨b, hb, hn⟩, hf⟩ | ⟨e, ⟨b, hb, he⟩, hr⟩)
      · exact ⟨b, hb, Or.inl ⟨a, p₁, hn, hf⟩⟩
      · exact ⟨b, hb, Or.inr ⟨e, he, hr⟩⟩
  | lock k next ih => exact ih
  | write w next ih => exact ih
  | insert w violated next ih =>
    simp only [Txn.bind, Ends, ih]
    constructor
    · rintro (⟨hfree, ⟨a, p₁, hn, hf⟩ | ⟨e, he, hr⟩⟩ | ⟨htaken, hopen, hr, hp⟩)
      · exact Or.inl ⟨a, p₁, Or.inl ⟨hfree, hn⟩, hf⟩
      · exact Or.inr ⟨e, Or.inl ⟨hfree, he⟩, hr⟩
      · exact Or.inr ⟨violated, Or.inr ⟨htaken, hopen, rfl, hp⟩, hr⟩
    · rintro (⟨a, p₁, ⟨hfree, hn⟩ | ⟨_, _, hr, _⟩, hf⟩ |
        ⟨e, ⟨hfree, he⟩ | ⟨htaken, hopen, he, hp⟩, hr⟩)
      · exact Or.inl ⟨hfree, Or.inl ⟨a, p₁, hn, hf⟩⟩
      · cases hr
      · exact Or.inl ⟨hfree, Or.inr ⟨e, he, hr⟩⟩
      · cases he
        exact Or.inr ⟨htaken, hopen, hr, hp⟩
  | savepoint k handler body ihh ihb =>
    simp only [Txn.bind, Ends, ihh, ihb]
    constructor
    · rintro ((⟨a, p₁, hn, hf⟩ | ⟨e, he, hr⟩) | ⟨htaken, ⟨a, p₁, hn, hf⟩ | ⟨e, he, hr⟩⟩)
      · exact Or.inl ⟨a, p₁, Or.inl hn, hf⟩
      · exact Or.inr ⟨e, Or.inl he, hr⟩
      · exact Or.inl ⟨a, p₁, Or.inr ⟨htaken, hn⟩, hf⟩
      · exact Or.inr ⟨e, Or.inr ⟨htaken, he⟩, hr⟩
    · rintro (⟨a, p₁, hn | ⟨htaken, hn⟩, hf⟩ | ⟨e, he | ⟨htaken, he⟩, hr⟩)
      · exact Or.inl (Or.inl ⟨a, p₁, hn, hf⟩)
      · exact Or.inr ⟨htaken, Or.inl ⟨a, p₁, hn, hf⟩⟩
      · exact Or.inl (Or.inr ⟨e, he, hr⟩)
      · exact Or.inr ⟨htaken, Or.inr ⟨e, he, hr⟩⟩
  | release next ih => exact ih

/-- A nested block ends as its body does inside the savepoint, or as its handler. -/
theorem ends_nested {s : σ} {k : κ} {handler body : Txn I ε α} {p p' : Pending I}
    {r : Except ε α} (h : (nested k handler body).Ends D s p r p') :
    (∃ p₁, body.Ends D s (p.enter k) r p₁ ∧ (p' = p₁ ∨ p' = p₁.leave)) ∨
      (I.taken k s ∧ handler.Ends D s (p.recover k) r p') := by
  rcases h with hbody | hhandler
  · rcases ends_bind.mp hbody with ⟨a, p₁, hb, hrest⟩ | ⟨e, hb, rfl⟩
    · obtain ⟨rfl, rfl⟩ := hrest
      exact Or.inl ⟨p₁, hb, Or.inr rfl⟩
    · exact Or.inl ⟨p', hb, Or.inl rfl⟩
  · exact Or.inr hhandler

/-- A run without interference is one of the outcomes, or the handler that was passed in. -/
theorem exec_ends [DecidableEq κ] {s : σ} (t : Txn I ε α) (p : Pending I)
    (saved : Option (κ × (Except ε α × Pending I))) (hseen : ∀ k ∈ p.seen, I.taken k s)
    (hcatches : p.catches = saved.map Prod.fst) :
    t.Ends D s p (t.exec s p saved).1 (t.exec s p saved).2 ∨
      ∃ k, I.taken k s ∧ saved = some (k, t.exec s p saved) := by
  induction t generalizing p saved with
  | done a => exact Or.inl ⟨rfl, rfl⟩
  | raise e => exact Or.inl ⟨rfl, rfl⟩
  | ask q next ih =>
    rcases ih (I.answer q (p.view s)) p saved hseen hcatches with h | h
    · exact Or.inl ⟨_, D.retained_view p q hseen, h⟩
    · exact Or.inr h
  | lock k next ih => exact ih (p.hold k) saved hseen hcatches
  | write w next ih => exact ih (p.add w) saved hseen hcatches
  | insert w violated next ih =>
    by_cases htaken : I.taken (I.row w) (p.view s)
    · have hfail (huncaught : p.catches = some (I.row w) → ¬ I.taken (I.row w) s) :
          (insert w violated next).Ends D s p (.error violated) p :=
        Or.inr ⟨htaken, huncaught, rfl, rfl⟩
      cases saved with
      | none =>
        have hexec : (insert w violated next).exec s p none = (.error violated, p) := by
          simp only [exec, if_pos htaken]
        rw [hexec]
        refine Or.inl (hfail fun hopen => ?_)
        rw [hcatches] at hopen
        cases hopen
      | some kr =>
        obtain ⟨k, r⟩ := kr
        by_cases hk : k = I.row w ∧ I.taken k s
        · have hexec : (insert w violated next).exec s p (some (k, r)) = r := by
            simp only [exec, if_pos htaken, if_pos hk]
          rw [hexec]
          exact Or.inr ⟨k, hk.2, rfl⟩
        · have hexec : (insert w violated next).exec s p (some (k, r)) = (.error violated, p) := by
            simp only [exec, if_pos htaken, if_neg hk]
          rw [hexec]
          refine Or.inl (hfail fun hopen hcommitted => ?_)
          rw [hcatches] at hopen
          have hkey : k = I.row w := Option.some.inj hopen
          exact hk ⟨hkey, by rw [hkey]; exact hcommitted⟩
    · have hexec : (insert w violated next).exec s p saved = next.exec s (p.add w) saved := by
        simp only [exec, if_neg htaken]
      rw [hexec]
      rcases ih (p.add w) saved hseen hcatches with h | h
      · exact Or.inl (Or.inl ⟨htaken, h⟩)
      · exact Or.inr h
  | savepoint k handler body ihh ihb =>
    simp only [Ends, exec]
    rcases ihb (p.enter k) (some (k, handler.exec s (p.recover k) none)) hseen rfl with
      h | ⟨k', htaken, heq⟩
    · exact Or.inl (Or.inl h)
    · simp only [Option.some.injEq, Prod.mk.injEq] at heq
      obtain ⟨rfl, heq⟩ := heq
      have hsee : ∀ k' ∈ (p.recover k).seen, I.taken k' s := by
        intro k' hk'
        rcases List.mem_cons.mp hk' with rfl | hold
        · exact htaken
        · exact hseen k' hold
      rcases ihh (p.recover k) none hsee rfl with h | ⟨_, _, hnone⟩
      · rw [← heq]
        exact Or.inl (Or.inr ⟨htaken, h⟩)
      · cases hnone
  | release next ih =>
    rcases ih p.leave none hseen rfl with h | ⟨_, _, hnone⟩
    · exact Or.inl h
    · cases hnone

/-- What `run` returns is an outcome of the program at that store. -/
theorem run_ends_error [DecidableEq κ] {t : Txn I ε α} {s : σ} {e : ε}
    (h : t.run s = .error e) : ∃ p, t.Ends D s .start (.error e) p := by
  have hexec := exec_ends (D := D) (s := s) t .start none (by simp [Pending.start]) rfl
  rcases hexec with hends | ⟨_, _, hnone⟩
  · unfold run at h
    split at h
    next => cases h
    next e' p heq =>
      rw [heq] at hends
      cases h
      exact ⟨p, hends⟩
  · cases hnone

theorem run_ends [DecidableEq κ] {t : Txn I ε α} {s s' : σ} {a : α}
    (h : t.run s = .ok (a, s')) : ∃ p, t.Ends D s .start (.ok a) p ∧ s' = p.view s := by
  have hexec := exec_ends (D := D) (s := s) t .start none (by simp [Pending.start]) rfl
  rcases hexec with hends | ⟨_, _, hnone⟩
  · unfold run at h
    split at h
    next b p heq =>
      rw [heq] at hends
      cases h
      exact ⟨p, hends, rfl⟩
    next => cases h
  · cases hnone

section Lone

theorem bind_done (t : Txn I ε α) : t.bind Txn.done = t := by
  induction t with
  | done a => rfl
  | raise e => rfl
  | ask q next ih => exact congrArg (Txn.ask q) (funext ih)
  | lock k next ih => exact congrArg (Txn.lock k) ih
  | write w next ih => exact congrArg (Txn.write w) ih
  | insert w violated next ih => exact congrArg (Txn.insert w violated) ih
  | savepoint k handler body ihh ihb => exact congrArg₂ (Txn.savepoint k) ihh ihb
  | release next ih => exact congrArg Txn.release ih

theorem bind_assoc {γ : Type} (t : Txn I ε α) (f : α → Txn I ε β) (g : β → Txn I ε γ) :
    (t.bind f).bind g = t.bind fun a => (f a).bind g := by
  induction t with
  | done a => rfl
  | raise e => rfl
  | ask q next ih => exact congrArg (Txn.ask q) (funext ih)
  | lock k next ih => exact congrArg (Txn.lock k) ih
  | write w next ih => exact congrArg (Txn.write w) ih
  | insert w violated next ih => exact congrArg (Txn.insert w violated) ih
  | savepoint k handler body ihh ihb => exact congrArg₂ (Txn.savepoint k) ihh ihb
  | release next ih => exact congrArg Txn.release ih

variable [DecidableEq κ] {s : σ} {p p₁ p₂ : Pending I} {a : α} {b : β}

/-- Run alone, the program comes to a result and to pending writes, whatever follows it. No
savepoint is open before or after. -/
structure Comes (s : σ) (t : Txn I ε α) (p : Pending I) (a : α) (p' : Pending I) : Prop where
  exec_bind : ∀ {β : Type} (f : α → Txn I ε β), (t.bind f).exec s p none = (f a).exec s p' none

theorem Comes.done : (Txn.done a : Txn I ε α).Comes s p a p := ⟨fun _ => rfl⟩

theorem Comes.bind {t : Txn I ε α} {g : α → Txn I ε β} (h : t.Comes s p a p₁)
    (hg : (g a).Comes s p₁ b p₂) : (t.bind g).Comes s p b p₂ := by
  constructor
  intro γ f
  rw [bind_assoc, h.exec_bind, hg.exec_bind]

theorem Comes.ask {q : I.Query} {next : I.Answer q → Txn I ε α} {x : I.Answer q}
    (hx : I.answer q (p.view s) = x) (h : (next x).Comes s p a p₁) :
    (Txn.ask q next).Comes s p a p₁ := by
  subst hx
  exact ⟨fun f => h.exec_bind f⟩

/-- A nested insert of a row that nobody has needs no handler. -/
theorem Comes.insert {w : I.Write} {violated : ε} {handler : Txn I ε α}
    (hfree : ¬ I.taken (I.row w) (p.view s)) :
    (nested (I.row w) handler (.insert w violated (.done a))).Comes s p a
      ((p.enter (I.row w)).add w).leave := by
  constructor
  intro γ f
  simp only [nested, Txn.bind, exec, Pending.view_enter, if_neg hfree]

theorem Comes.run {t : Txn I ε α} (h : t.Comes s .start a p) : t.run s = .ok (a, p.view s) := by
  have hdone := h.exec_bind Txn.done
  rw [bind_done] at hdone
  unfold Txn.run
  rw [hdone]
  rfl

end Lone

section Invariant

variable {D : Discipline I} {Inv : σ → Prop} {Plain : I.Write → Prop}

/-- Every write of the program that is no insert is of a given kind. -/
inductive Writes (Plain : I.Write → Prop) : Txn I ε α → Prop
  | done (a : α) : Writes Plain (.done a)
  | raise (e : ε) : Writes Plain (.raise e)
  | ask {q : I.Query} {next : I.Answer q → Txn I ε α} (h : ∀ a, Writes Plain (next a)) :
      Writes Plain (.ask q next)
  | lock {k : κ} {next : Txn I ε α} (h : Writes Plain next) : Writes Plain (.lock k next)
  | write {w : I.Write} {next : Txn I ε α} (hw : Plain w) (h : Writes Plain next) :
      Writes Plain (.write w next)
  | insert {w : I.Write} {e : ε} {next : Txn I ε α} (h : Writes Plain next) :
      Writes Plain (.insert w e next)
  | savepoint {k : κ} {handler body : Txn I ε α} (hh : Writes Plain handler)
      (hb : Writes Plain body) : Writes Plain (.savepoint k handler body)
  | release {next : Txn I ε α} (h : Writes Plain next) : Writes Plain (.release next)

theorem Writes.bind {t : Txn I ε α} {f : α → Txn I ε β} (h : t.Writes Plain)
    (hf : ∀ a, (f a).Writes Plain) : (t.bind f).Writes Plain := by
  induction h with
  | done a => exact hf a
  | raise e => exact .raise e
  | ask _ ih => exact .ask ih
  | lock _ ih => exact .lock ih
  | write hw _ ih => exact .write hw ih
  | insert _ ih => exact .insert ih
  | savepoint _ _ ihh ihb => exact .savepoint ihh ihb
  | release _ ih => exact .release ih

/-- An invariant that free inserts and the plain writes keep is kept by the whole program. -/
theorem Ends.keeps {s : σ} {t : Txn I ε α} {p p' : Pending I} {r : Except ε α}
    (hinsert : ∀ w s, Inv s → ¬ I.taken (I.row w) s → Inv (I.apply w s))
    (hplain : ∀ w s, Inv s → Plain w → Inv (I.apply w s)) (ht : t.Writes Plain)
    (hends : t.Ends D s p r p') (hinv : Inv (p.view s)) : Inv (p'.view s) := by
  induction ht generalizing p with
  | done a =>
    rw [hends.2]
    exact hinv
  | raise e =>
    rw [hends.2]
    exact hinv
  | ask _ ih =>
    obtain ⟨a, _, hrest⟩ := hends
    exact ih a hrest hinv
  | lock _ ih => exact ih hends (by simpa using hinv)
  | write hw _ ih =>
    refine ih hends ?_
    rw [Pending.view_add]
    exact hplain _ _ hinv hw
  | insert _ ih =>
    rcases hends with ⟨hfree, hrest⟩ | ⟨_, _, _, rfl⟩
    · refine ih hrest ?_
      rw [Pending.view_add]
      exact hinsert _ _ hinv hfree
    · exact hinv
  | savepoint _ _ ihh ihb =>
    rcases hends with hbody | ⟨_, hhandler⟩
    · exact ihb hbody (by simpa using hinv)
    · exact ihh hhandler (by simpa using hinv)
  | release _ ih => exact ih hends (by simpa using hinv)

end Invariant

end Txn

end Transactions
