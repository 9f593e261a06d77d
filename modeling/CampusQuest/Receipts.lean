import Mathlib.Data.Nat.Notation

/-!
Commands that carry a request id and the version they were issued against. A desk keeps a
version and the receipts of the commands that took effect. A command whose request has a receipt
is answered from it; a new one takes effect only against the version that is current, raises it
by one and leaves its receipt. Whatever else happens, no version falls and no receipt is lost.
-/

namespace Receipts

variable {σ κ φ : Type*}

structure Desk (σ κ φ : Type*) where
  version : σ → ℕ
  /-- The fingerprint of the command under a request id, with the version it was applied at. -/
  receipt : σ → κ → Option (φ × ℕ)

namespace Desk

variable (D : Desk σ κ φ)

structure Keeps (s s' : σ) : Prop where
  version_le : D.version s ≤ D.version s'
  receipt : ∀ k x, D.receipt s k = some x → D.receipt s' k = some x

structure Replays (s : σ) (k : κ) (f : φ) (s' : σ) (applied : ℕ) : Prop where
  known : D.receipt s k = some (f, applied)
  same : s' = s

structure Applies (s : σ) (k : κ) (f : φ) (issued : ℕ) (s' : σ) (applied : ℕ) : Prop where
  new : D.receipt s k = none
  current : issued = D.version s
  next : D.version s' = D.version s + 1
  applied_eq : applied = D.version s'
  recorded : D.receipt s' k = some (f, applied)

/-- A command that is not refused says whether it was there before. -/
def Answers (s : σ) (k : κ) (f : φ) (issued : ℕ) (s' : σ) (applied : ℕ) (replayed : Bool) : Prop :=
  replayed = true ∧ D.Replays s k f s' applied ∨
    replayed = false ∧ D.Applies s k f issued s' applied

variable {D} {s s' t t' : σ} {k k' : κ} {f f' : φ} {issued issued' applied applied' : ℕ}
  {replayed replayed' : Bool}


theorem Keeps.refl (s : σ) : D.Keeps s s :=
  ⟨Nat.le_refl _, fun _ _ h => h⟩

theorem Keeps.trans {s'' : σ} (h : D.Keeps s s') (h' : D.Keeps s' s'') : D.Keeps s s'' :=
  ⟨Nat.le_trans h.version_le h'.version_le, fun k x hx => h'.receipt k x (h.receipt k x hx)⟩

theorem Answers.recorded (h : D.Answers s k f issued s' applied replayed) :
    D.receipt s' k = some (f, applied) := by
  rcases h with ⟨_, h⟩ | ⟨_, h⟩
  · rw [h.same]
    exact h.known
  · exact h.recorded

/-- Two commands that take effect were issued against different versions. -/
theorem Applies.versions (h : D.Applies s k f issued s' applied) (hkeeps : D.Keeps s' t)
    (h' : D.Applies t k' f' issued' t' applied') : issued < issued' := by
  have hle := hkeeps.version_le
  rw [h.next, ← h.current, ← h'.current] at hle
  exact hle

/-- A request that was answered is answered from its receipt, however much has happened since, and
under another fingerprint it is not answered. -/
theorem Answers.again (h : D.Answers s k f issued s' applied replayed) (hkeeps : D.Keeps s' t)
    (h' : D.Answers t k f' issued' t' applied' replayed') :
    f' = f ∧ replayed' = true ∧ t' = t ∧ applied' = applied := by
  have hknown := hkeeps.receipt k _ h.recorded
  rcases h' with ⟨hreplayed, h'⟩ | ⟨_, h'⟩
  · have heq := h'.known
    rw [hknown] at heq
    obtain ⟨rfl, rfl⟩ := Prod.mk.inj (Option.some.inj heq)
    exact ⟨rfl, hreplayed, h'.same, rfl⟩
  · rw [h'.new] at hknown
    cases hknown

/-- Of two new commands the later one was issued against a later version. -/
theorem Answers.versions (h : D.Answers s k f issued s' applied false) (hkeeps : D.Keeps s' t)
    (h' : D.Answers t k' f' issued' t' applied' false) : issued < issued' := by
  rcases h with ⟨hreplayed, _⟩ | ⟨_, h⟩
  · cases hreplayed
  · rcases h' with ⟨hreplayed, _⟩ | ⟨_, h'⟩
    · cases hreplayed
    · exact h.versions hkeeps h'

end Desk

end Receipts
