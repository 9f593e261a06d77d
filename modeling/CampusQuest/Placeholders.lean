import CampusQuest.Guards
import Mathlib.Data.List.Basic

/-!
Texts with named holes. A hole is a name between two brackets with no bracket inside; every
other bracket is an ordinary letter. Filling the holes is one pass, so a value is never
scanned again.
-/

namespace Placeholders

open Guards

variable {α ε : Type}

inductive Piece (α : Type)
  | lit (a : α)
  | hole (name : List α)

section Filling

def holes : List (Piece α) → List (List α)
  | [] => []
  | .lit _ :: rest => holes rest
  | .hole name :: rest => name :: holes rest

def fill (value : List α → List α) : List (Piece α) → List α
  | [] => []
  | .lit a :: rest => a :: fill value rest
  | .hole name :: rest => value name ++ fill value rest

def substitute (value : List α → Except ε (List α)) : List (Piece α) → Except ε (List α)
  | [] => .ok []
  | .lit a :: rest => do
    let text ← substitute value rest
    return a :: text
  | .hole name :: rest => do
    let inserted ← value name
    let text ← substitute value rest
    return inserted ++ text

variable {pieces : List (Piece α)}

@[simp] theorem fill_hole (value : List α → List α) (name : List α) :
    fill value (.hole name :: pieces) = value name ++ fill value pieces := rfl

/-- A substitution succeeds exactly when every hole has a value, and it fills them in. -/
theorem substitute_ok {value : List α → Except ε (List α)} {given : List α → Option (List α)}
    (hgiven : ∀ name ∈ holes pieces, ∀ t, value name = .ok t ↔ given name = some t)
    {text : List α} : substitute value pieces = .ok text ↔
      (∀ name ∈ holes pieces, given name ≠ none) ∧
        text = fill (fun name => (given name).getD []) pieces := by
  induction pieces generalizing text with
  | nil =>
    constructor
    · intro h
      cases h
      exact ⟨fun name hname => absurd hname List.not_mem_nil, rfl⟩
    · rintro ⟨_, rfl⟩
      rfl
  | cons piece rest ih =>
    cases piece with
    | lit a =>
      have ih := fun t => @ih hgiven t
      unfold substitute
      rw [bind_ok]
      constructor
      · rintro ⟨tail, htail, h⟩
        cases h
        obtain ⟨hall, rfl⟩ := (ih tail).mp htail
        exact ⟨hall, rfl⟩
      · rintro ⟨hall, rfl⟩
        exact ⟨_, (ih _).mpr ⟨hall, rfl⟩, rfl⟩
    | hole name =>
      have hname := hgiven name List.mem_cons_self
      have ih := fun t => @ih (fun n hn => hgiven n (List.mem_cons_of_mem name hn)) t
      unfold substitute
      rw [bind_ok]
      constructor
      · rintro ⟨inserted, hinserted, h⟩
        obtain ⟨tail, htail, h⟩ := bind_ok.mp h
        cases h
        obtain ⟨hall, rfl⟩ := (ih tail).mp htail
        have hinserted := (hname inserted).mp hinserted
        constructor
        · intro n hn
          rcases List.mem_cons.mp hn with rfl | hn
          · rw [hinserted]
            exact Option.some_ne_none inserted
          · exact hall n hn
        · rw [fill_hole, hinserted, Option.getD_some]
      · rintro ⟨hall, rfl⟩
        obtain ⟨inserted, hinserted⟩ := Option.ne_none_iff_exists'.mp (hall name List.mem_cons_self)
        refine ⟨inserted, (hname inserted).mpr hinserted, bind_ok.mpr ⟨_, (ih _).mpr
          ⟨fun n hn => hall n (List.mem_cons_of_mem name hn), rfl⟩, ?_⟩⟩
        rw [fill_hole, hinserted, Option.getD_some]
        rfl

/-- A letter of a filled text is a letter of the template or of a value. -/
theorem mem_fill {value : List α → List α} {a : α} :
    a ∈ fill value pieces ↔ .lit a ∈ pieces ∨ ∃ name ∈ holes pieces, a ∈ value name := by
  induction pieces with
  | nil => simp [fill, holes]
  | cons piece rest ih =>
    cases piece with
    | lit b => simp [fill, holes, ih, or_assoc]
    | hole name => simp [fill, holes, ih, or_left_comm]

end Filling

section Scanning

variable [DecidableEq α]

/-- The pieces of a text; `opened` holds what followed an opening bracket so far. -/
def scan (left right : α) : Option (List α) → List α → List (Piece α)
  | none, [] => []
  | some opened, [] => (left :: opened).map .lit
  | none, a :: rest =>
    if a = left then scan left right (some []) rest
    else .lit a :: scan left right none rest
  | some opened, a :: rest =>
    if a = right then .hole opened :: scan left right none rest
    else if a = left then (left :: opened).map .lit ++ scan left right (some []) rest
    else scan left right (some (opened ++ [a])) rest

/-- The scanner invents no letter. -/
theorem lit_mem_scan {left right a : α} {opened : Option (List α)} {text : List α}
    (h : .lit a ∈ scan left right opened text) : a = left ∨ a ∈ opened.getD [] ∨ a ∈ text := by
  induction text generalizing opened with
  | nil =>
    cases opened with
    | none => cases h
    | some opened =>
      have h : .lit a ∈ (left :: opened).map Piece.lit := h
      simp at h
      simpa using h
  | cons b rest ih =>
    cases opened with
    | none =>
      unfold scan at h
      split at h
      next =>
        have hrest := ih h
        simp at hrest
        simp
        tauto
      next =>
        rcases List.mem_cons.mp h with heq | h
        · cases heq
          simp
        · have hrest := ih h
          simp at hrest
          simp
          tauto
    | some opened =>
      unfold scan at h
      split at h
      next =>
        rcases List.mem_cons.mp h with heq | h
        · cases heq
        · have hrest := ih h
          simp at hrest
          simp
          tauto
      next =>
        split at h
        next =>
          rcases List.mem_append.mp h with h | h
          · simp at h
            simp
            tauto
          · have hrest := ih h
            simp at hrest
            simp
            tauto
        next =>
          have hrest := ih h
          simp at hrest
          simp
          tauto

end Scanning

end Placeholders
