import Mathlib.Data.List.Basic
import Mathlib.Data.List.Induction

/-!
Logs read backwards. Something has been so since an entry of a log when no entry behind that one
has ended it. A demand on the entries of a log may depend on all that stands before each of them.
Both are settled by the last entry and by the log before it.
-/

namespace Histories

variable {α : Type*}

/-- An entry of one kind stands in the log with none of the other kind behind it. -/
def Since (starts stops : α → Prop) (log : List α) : Prop :=
  ∃ before a after, log = before ++ a :: after ∧ starts a ∧ ∀ b ∈ after, ¬ stops b

/-- Each entry of the log meets a demand on it and on what stands before it. -/
def Throughout (P : List α → α → Prop) (log : List α) : Prop :=
  ∀ before a after, log = before ++ a :: after → P before a

variable {starts stops starts' : α → Prop} {P Q : List α → α → Prop} {log : List α} {a : α}

theorem not_since_nil : ¬ Since starts stops ([] : List α) := by
  rintro ⟨before, a, after, heq, _⟩
  cases before <;> cases heq

theorem since_concat : Since starts stops (log ++ [a]) ↔
    starts a ∨ Since starts stops log ∧ ¬ stops a := by
  constructor
  · rintro ⟨before, b, after, heq, hstarts, hstops⟩
    rcases List.eq_nil_or_concat after with rfl | ⟨front, last, rfl⟩
    · obtain ⟨_, hlast⟩ := List.append_inj' heq rfl
      obtain rfl := List.singleton_inj.mp hlast
      exact Or.inl hstarts
    · rw [List.concat_eq_append, ← List.cons_append, ← List.append_assoc] at heq
      obtain ⟨hlog, hlast⟩ := List.append_inj' heq rfl
      obtain rfl := List.singleton_inj.mp hlast
      rw [List.concat_eq_append] at hstops
      refine Or.inr ⟨⟨before, b, front, hlog, hstarts, fun c hc => ?_⟩, ?_⟩
      · exact hstops c (List.mem_append_left _ hc)
      · exact hstops a (List.mem_append_right _ (List.mem_singleton_self a))
  · rintro (hstarts | ⟨⟨before, b, after, rfl, hstarts, hstops⟩, hlast⟩)
    · exact ⟨log, a, [], rfl, hstarts, fun _ h => (by cases h)⟩
    · refine ⟨before, b, after ++ [a], by simp, hstarts, fun c hc => ?_⟩
      rcases List.mem_append.mp hc with hc | hc
      · exact hstops c hc
      · rw [List.mem_singleton.mp hc]
        exact hlast

theorem Since.mono (h : Since starts stops log) (hle : ∀ a, starts a → starts' a) :
    Since starts' stops log := by
  obtain ⟨before, a, after, heq, hstarts, hstops⟩ := h
  exact ⟨before, a, after, heq, hle a hstarts, hstops⟩

/-- What has been so since before a stop has started anew behind it. -/
theorem Since.behind {b : α} {between : List α} (h : Since starts stops (log ++ b :: between))
    (hstop : stops b) (hnot : ¬ starts b) : ∃ a ∈ between, starts a := by
  obtain ⟨before, a, after, heq, hstarts, hstops⟩ := h
  rcases List.append_eq_append_iff.mp heq with ⟨front, _, hrest⟩ | ⟨front, _, hrest⟩
  · cases front with
    | nil =>
      obtain ⟨rfl, _⟩ := List.cons.inj hrest
      exact absurd hstarts hnot
    | cons x front =>
      obtain ⟨_, rfl⟩ := List.cons.inj hrest
      exact ⟨a, List.mem_append_right _ List.mem_cons_self, hstarts⟩
  · cases front with
    | nil =>
      obtain ⟨rfl, _⟩ := List.cons.inj hrest
      exact absurd hstarts hnot
    | cons x front =>
      obtain ⟨_, rfl⟩ := List.cons.inj hrest
      exact absurd hstop (hstops b (List.mem_append_right _ List.mem_cons_self))

theorem throughout_nil : Throughout P ([] : List α) := by
  intro before a after heq
  cases before <;> cases heq

theorem throughout_concat :
    Throughout P (log ++ [a]) ↔ Throughout P log ∧ P log a := by
  constructor
  · intro h
    refine ⟨fun before b after heq => ?_, h log a [] rfl⟩
    exact h before b (after ++ [a]) (by rw [heq, List.append_assoc, List.cons_append])
  · rintro ⟨hlog, hlast⟩ before b after heq
    rcases List.eq_nil_or_concat after with rfl | ⟨front, last, rfl⟩
    · obtain ⟨rfl, hb⟩ := List.append_inj' heq rfl
      obtain rfl := List.singleton_inj.mp hb
      exact hlast
    · rw [List.concat_eq_append, ← List.cons_append, ← List.append_assoc] at heq
      obtain ⟨hsplit, _⟩ := List.append_inj' heq rfl
      exact hlog before b front hsplit

/-- Two demands come to the same when they do behind every log that meets the second. -/
theorem throughout_congr (h : ∀ before a, Throughout Q before → (P before a ↔ Q before a)) :
    Throughout P log ↔ Throughout Q log := by
  induction log using List.reverseRecOn with
  | nil => exact iff_of_true throughout_nil throughout_nil
  | append_singleton log a ih =>
    rw [throughout_concat, throughout_concat, ih]
    exact and_congr_right fun hlog => h log a hlog

end Histories
