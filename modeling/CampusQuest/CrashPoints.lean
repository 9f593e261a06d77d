import Mathlib.Data.Nat.Notation

/-!
Use cases that commit more than once. A program reads and writes the working state of its
session and publishes it by commits; a crash behind any number of statements leaves the
state that the last commit before it published, or the one the program was started in. So
a program is atomic at a crash point exactly when that published state is one that its
specification allows, and a program with one commit is atomic everywhere.
-/

namespace CrashPoints

/-- A program over a state, with its statements in order. Behind a write the program goes on
with the state that the statement found, where its row count is read. -/
inductive Program (σ ε α : Type) : Type
  | done (a : α)
  | raise (e : ε)
  | read (next : σ → Program σ ε α)
  | write (f : σ → σ) (next : σ → Program σ ε α)
  | commit (next : Program σ ε α)

namespace Program

variable {σ ε α : Type}

/-- The states that the first `n` statements publish, oldest first. -/
def published : ℕ → Program σ ε α → σ → List σ
  | 0, _, _ => []
  | _ + 1, done _, _ => []
  | _ + 1, raise _, _ => []
  | n + 1, read next, w => (next w).published n w
  | n + 1, write f next, w => (next w).published n (f w)
  | n + 1, commit next, w => w :: next.published n w

/-- What a crash behind the first `n` statements leaves. -/
def crash (n : ℕ) (p : Program σ ε α) (s : σ) : σ := ((p.published n s).getLast?).getD s

/-- The result of a program and the state it leaves working, when nothing crashes. -/
def run : Program σ ε α → σ → Except ε (α × σ)
  | done a, w => .ok (a, w)
  | raise e, _ => .error e
  | read next, w => (next w).run w
  | write f next, w => (next w).run (f w)
  | commit next, w => next.run w

variable {p : Program σ ε α} {n : ℕ} {s : σ}

/-- Before the first commit a crash changes nothing. -/
theorem crash_of_unpublished (h : p.published n s = []) : p.crash n s = s := by
  unfold crash
  rw [h]
  rfl

/-- Behind a commit a crash leaves what was published last. -/
theorem crash_of_published {l : List σ} {w : σ} (h : p.published n s = l ++ [w]) :
    p.crash n s = w := by
  unfold crash
  rw [h, List.getLast?_append, List.getLast?_singleton]
  rfl

end Program

end CrashPoints
