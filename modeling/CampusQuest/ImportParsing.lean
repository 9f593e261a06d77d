import CampusQuest.ImportPreview
import Mathlib.Data.List.Perm.Basic
import Mathlib.Data.List.Range

/-!
The parsing of an import file. A reader of either format gives the rows of the file as texts; the
rows behind the header are numbered without the blank ones, and each becomes a row that can be
imported or an error of its own. Of rows with one pair the first can be imported.
-/

namespace CampusQuest.Imports

open Tables

inductive ImportErrorCode
  | emptyPlatform
  | emptyKeyword
  | unsupportedPlatform
  | duplicateInFile
  | textTooLong
  | limitExceeded
  | malformedCsv
  | malformedXlsx
  deriving DecidableEq

inductive ImportMessage
  | rowColumns
  | emptyPlatform
  | emptyKeyword
  | unsupportedPlatform
  | duplicateInFile
  | textTooLong (keywordMaxLength : ℕ)
  | limitExceeded
  | emptyFile
  | badHeader
  | xlsxHeader
  deriving DecidableEq

structure AssignmentImportError where
  code : ImportErrorCode
  message : ImportMessage
  rowNumber : Option ℤ := none
  platform : Option Text := none
  keyword : Option Text := none
  /-- The rows and their limit. -/
  details : Option (ℤ × ℤ) := none
  deriving DecidableEq

structure ParsedImport where
  totalRows : ℤ := 0
  valid : List PreviewRow := []
  errors : List AssignmentImportError := []
  fileError : Option AssignmentImportError := none
  deriving DecidableEq

def ParsedImport.fileRejection (error : AssignmentImportError) : ParsedImport :=
  { fileError := some error }

/-- What the caller passes; `lower` is `str.lower`. -/
structure ImportRules where
  maxRows : ℕ
  keywordMaxLength : ℕ
  allowedPlatforms : List Text
  lower : Text → Text
  lower_nil : lower [] = []

def importEchoMaxLength : ℕ := 64

def IsRow (raw : List Text) : Prop := ∃ cell ∈ raw, strip cell ≠ []

instance (raw : List Text) : Decidable (IsRow raw) := inferInstanceAs (Decidable (∃ _ ∈ _, _))

section Rows

variable (rules : ImportRules)

/-- The checks of a row but the one for duplicates, up to the pair of a row that passes them. -/
def checkImportRow (number : ℤ) (raw : List Text) : Except AssignmentImportError (Text × Text) :=
  match raw with
  | [platformRaw, keywordRaw] =>
    if strip platformRaw = [] then
      .error { code := .emptyPlatform, message := .emptyPlatform, rowNumber := some number }
    else if rules.lower (strip platformRaw) ∉ rules.allowedPlatforms then
      .error { code := .unsupportedPlatform, message := .unsupportedPlatform,
               rowNumber := some number, platform := some (platformRaw.take importEchoMaxLength) }
    else if strip keywordRaw = [] then
      .error { code := .emptyKeyword, message := .emptyKeyword, rowNumber := some number }
    else if (strip keywordRaw).length > rules.keywordMaxLength then
      .error { code := .textTooLong, message := .textTooLong rules.keywordMaxLength,
               rowNumber := some number }
    else .ok (rules.lower (strip platformRaw), strip keywordRaw)
  | _ => .error { code := .malformedCsv, message := .rowColumns, rowNumber := some number }

structure Classified where
  valid : List PreviewRow
  errors : List AssignmentImportError
  seen : List (Text × Text)
  rowNumber : ℤ

def duplicateError (number : ℤ) (pair : Text × Text) : AssignmentImportError where
  code := .duplicateInFile
  message := .duplicateInFile
  rowNumber := some number
  platform := some pair.1
  keyword := some pair.2

def classifyRow (st : Classified) (raw : List Text) : Classified :=
  let number := st.rowNumber + 1
  match checkImportRow rules number raw with
  | .error e => { st with errors := st.errors ++ [e], rowNumber := number }
  | .ok pair =>
    if st.seen.contains pair = true then
      { st with errors := st.errors ++ [duplicateError number pair], rowNumber := number }
    else
      { st with valid := st.valid ++ [⟨number, pair.1, pair.2⟩], seen := pair :: st.seen,
                rowNumber := number }

/-- The loop of `_classify_rows`, which the row cap ends with a rejection of the file. -/
def classifyLoop : List (List Text) → Classified → Except AssignmentImportError Classified
  | [], st => .ok st
  | raw :: rows, st =>
    if ¬ IsRow raw then classifyLoop rows st
    else if st.rowNumber + 1 > rules.maxRows then
      .error { code := .limitExceeded, message := .limitExceeded,
               details := some (st.rowNumber + 1, rules.maxRows) }
    else classifyLoop rows (classifyRow rules st raw)

def Classified.empty : Classified := ⟨[], [], [], 0⟩

def classifyRows (rows : List (List Text)) : ParsedImport :=
  match classifyLoop rules rows .empty with
  | .error e => .fileRejection e
  | .ok st =>
    if st.valid = [] ∧ st.errors = [] then
      .fileRejection { code := .malformedCsv, message := .emptyFile }
    else { totalRows := st.rowNumber, valid := st.valid, errors := st.errors }

/-! ### The two routes -/

def importHeader : List Text := ["platform".toList, "keyword".toList]

def headerCells (raw : List Text) : List Text := raw.map fun cell => rules.lower (strip cell)

def parseCsvRows (grid : List (List Text)) : ParsedImport :=
  match grid with
  | [] => .fileRejection { code := .malformedCsv, message := .emptyFile }
  | header :: rows =>
    if headerCells rules header ≠ importHeader then
      .fileRejection { code := .malformedCsv, message := .badHeader }
    else classifyRows rules rows

/-- The rows of a sheet as texts, counted while they are read: behind the row cap the file is
rejected. -/
def readSheet : ℤ → List (List (Option Text)) → Except AssignmentImportError (List (List Text))
  | _, [] => .ok []
  | nonblank, row :: rows =>
    let cells := row.map fun cell => cell.getD []
    let nonblank := if IsRow cells then nonblank + 1 else nonblank
    if IsRow cells ∧ nonblank - 1 > rules.maxRows then
      .error { code := .limitExceeded, message := .limitExceeded,
               details := some (rules.maxRows + 1, rules.maxRows) }
    else (readSheet nonblank rows).map (cells :: ·)

/-- The XLSX route, for the cells of the first sheet as `str` gives them, `None` for no value. -/
def parseXlsxRows (sheet : List (List (Option Text))) : ParsedImport :=
  match readSheet rules 0 sheet with
  | .error e => .fileRejection e
  | .ok [] => .fileRejection { code := .malformedXlsx, message := .emptyFile }
  | .ok (header :: rows) =>
    if ¬ ∃ raw ∈ header :: rows, IsRow raw then
      .fileRejection { code := .malformedXlsx, message := .emptyFile }
    else if headerCells rules header ≠ importHeader then
      .fileRejection { code := .malformedXlsx, message := .xlsxHeader }
    else classifyRows rules rows

end Rows

/-! ### What the loop has done -/

def dataRows (rows : List (List Text)) : List (List Text) := rows.filter fun raw => IsRow raw

/-- The pair of the row at a position, counted from zero, if it passes its checks. -/
def pairAt (rules : ImportRules) (rows : List (List Text)) (i : ℕ) : Option (Text × Text) :=
  rows[i]?.bind fun raw => (checkImportRow rules (i + 1) raw).toOption

def FirstAt (rules : ImportRules) (rows : List (List Text)) (i : ℕ) (pair : Text × Text) : Prop :=
  pairAt rules rows i = some pair ∧ ∀ j, j < i → pairAt rules rows j ≠ some pair

/-- The error of the row at a position: that of its checks, or that it repeats a pair. -/
def ErrorAt (rules : ImportRules) (rows : List (List Text)) (i : ℕ) (e : AssignmentImportError) :
    Prop :=
  ∃ raw, rows[i]? = some raw ∧ (checkImportRow rules (i + 1) raw = .error e ∨
    ∃ pair, checkImportRow rules (i + 1) raw = .ok pair ∧ ¬ FirstAt rules rows i pair ∧
      e = duplicateError (i + 1) pair)

structure Verdicts (rules : ImportRules) (rows : List (List Text)) (valid : List PreviewRow)
    (errors : List AssignmentImportError) : Prop where
  valid_iff : ∀ r, r ∈ valid ↔ ∃ i : ℕ, r.rowNumber = i + 1 ∧ FirstAt rules rows i r.pair
  error_iff : ∀ e, e ∈ errors ↔ ∃ i : ℕ, ErrorAt rules rows i e
  numbers : ((valid.map fun r => some r.rowNumber) ++ errors.map fun e => e.rowNumber).Perm
    ((List.range rows.length).map fun i : ℕ => some ((i : ℤ) + 1))
  valid_ordered : (valid.map PreviewRow.rowNumber).Pairwise (· < ·)
  errors_ordered : errors.Pairwise fun e e' => ∀ n ∈ e.rowNumber, ∀ n' ∈ e'.rowNumber, n < n'

section Loop

variable {rules : ImportRules} {rows : List (List Text)} {raw : List Text} {i : ℕ} {number : ℤ}
  {pair : Text × Text} {e : AssignmentImportError} {valid : List PreviewRow}
  {errors : List AssignmentImportError} {st : Classified}

theorem checkImportRow_error (h : checkImportRow rules number raw = .error e) :
    e.rowNumber = some number := by
  unfold checkImportRow at h
  split at h
  · split_ifs at h <;> cases h <;> rfl
  · cases h
    rfl

theorem pairAt_append (h : i < rows.length) :
    pairAt rules (rows ++ [raw]) i = pairAt rules rows i := by
  unfold pairAt
  rw [List.getElem?_append_left h]

theorem pairAt_last : pairAt rules (rows ++ [raw]) rows.length =
    (checkImportRow rules (rows.length + 1) raw).toOption := by
  unfold pairAt
  rw [List.getElem?_concat_length]
  rfl

theorem lt_of_pairAt (h : pairAt rules rows i = some pair) : i < rows.length := by
  obtain ⟨raw, hraw, _⟩ := Option.bind_eq_some_iff.mp h
  exact (List.getElem?_eq_some_iff.mp hraw).1

theorem lt_of_errorAt (h : ErrorAt rules rows i e) : i < rows.length := by
  obtain ⟨raw, hraw, _⟩ := h
  exact (List.getElem?_eq_some_iff.mp hraw).1

theorem errorAt_number (h : ErrorAt rules rows i e) : e.rowNumber = some ((i : ℤ) + 1) := by
  obtain ⟨raw, _, hcheck | ⟨pair, _, _, rfl⟩⟩ := h
  · exact checkImportRow_error hcheck
  · rfl

theorem firstAt_append (h : i < rows.length) :
    FirstAt rules (rows ++ [raw]) i pair ↔ FirstAt rules rows i pair := by
  unfold FirstAt
  rw [pairAt_append h]
  refine and_congr_right fun _ => forall₂_congr fun j hj => ?_
  rw [pairAt_append (hj.trans h)]

theorem errorAt_append (h : i < rows.length) :
    ErrorAt rules (rows ++ [raw]) i e ↔ ErrorAt rules rows i e := by
  unfold ErrorAt
  rw [List.getElem?_append_left h]
  refine exists_congr fun raw' => and_congr_right fun _ => or_congr_right ?_
  refine exists_congr fun pair => and_congr_right fun _ => and_congr_left fun _ => ?_
  rw [firstAt_append h]

/-- A row behind the others is judged by itself, and leaves the verdicts on them. -/
theorem firstAt_concat : FirstAt rules (rows ++ [raw]) i pair ↔
    FirstAt rules rows i pair ∨ i = rows.length ∧ FirstAt rules (rows ++ [raw]) i pair := by
  constructor
  · intro h
    have hlt := lt_of_pairAt h.1
    rw [List.length_append, List.length_singleton] at hlt
    by_cases hi : i < rows.length
    · exact Or.inl ((firstAt_append hi).mp h)
    · exact Or.inr ⟨by omega, h⟩
  · rintro (h | ⟨_, h⟩)
    · exact (firstAt_append (lt_of_pairAt h.1)).mpr h
    · exact h

theorem errorAt_concat : ErrorAt rules (rows ++ [raw]) i e ↔
    ErrorAt rules rows i e ∨ i = rows.length ∧ ErrorAt rules (rows ++ [raw]) i e := by
  constructor
  · intro h
    have hlt := lt_of_errorAt h
    rw [List.length_append, List.length_singleton] at hlt
    by_cases hi : i < rows.length
    · exact Or.inl ((errorAt_append hi).mp h)
    · exact Or.inr ⟨by omega, h⟩
  · rintro (h | ⟨_, h⟩)
    · exact (errorAt_append (lt_of_errorAt h)).mpr h
    · exact h

theorem range_concat (n : ℕ) : (List.range (n + 1)).map (fun i : ℕ => some ((i : ℤ) + 1)) =
    (List.range n).map (fun i : ℕ => some ((i : ℤ) + 1)) ++ [some ((n : ℤ) + 1)] := by
  rw [List.range_succ, List.map_append]
  rfl

theorem Verdicts.snoc_error (h : Verdicts rules rows valid errors)
    (hfirst : ∀ pair, ¬ FirstAt rules (rows ++ [raw]) rows.length pair)
    (herror : ∀ e', ErrorAt rules (rows ++ [raw]) rows.length e' ↔ e' = e) :
    Verdicts rules (rows ++ [raw]) valid (errors ++ [e]) where
  valid_iff r := by
    rw [h.valid_iff]
    refine exists_congr fun i => and_congr_right fun _ => ?_
    rw [firstAt_concat (i := i)]
    refine (or_iff_left ?_).symm
    rintro ⟨rfl, hlast⟩
    exact hfirst _ hlast
  error_iff e' := by
    rw [List.mem_append, h.error_iff, List.mem_singleton, ← herror]
    constructor
    · rintro (⟨i, hi⟩ | hlast)
      · exact ⟨i, errorAt_concat.mpr (Or.inl hi)⟩
      · exact ⟨rows.length, hlast⟩
    · rintro ⟨i, hi⟩
      rcases errorAt_concat.mp hi with hold | ⟨rfl, hlast⟩
      · exact Or.inl ⟨i, hold⟩
      · exact Or.inr hlast
  numbers := by
    rw [List.map_append, ← List.append_assoc, List.length_append, List.length_singleton,
      range_concat]
    refine h.numbers.append ?_
    rw [List.map_singleton, errorAt_number ((herror e).mpr rfl)]
  valid_ordered := h.valid_ordered
  errors_ordered := by
    refine List.pairwise_append.mpr ⟨h.errors_ordered, List.pairwise_singleton _ _, ?_⟩
    intro e₁ he₁ e₂ he₂ n hn n' hn'
    rw [List.mem_singleton.mp he₂, errorAt_number ((herror e).mpr rfl)] at hn'
    obtain ⟨i, hi⟩ := (h.error_iff e₁).mp he₁
    rw [errorAt_number hi] at hn
    cases hn
    cases hn'
    have := lt_of_errorAt hi
    omega

/-- One more row that can be imported. -/
theorem Verdicts.snoc_valid (h : Verdicts rules rows valid errors)
    (hfirst : ∀ pair', FirstAt rules (rows ++ [raw]) rows.length pair' ↔ pair' = pair)
    (herror : ∀ e', ¬ ErrorAt rules (rows ++ [raw]) rows.length e') :
    Verdicts rules (rows ++ [raw]) (valid ++ [⟨rows.length + 1, pair.1, pair.2⟩]) errors where
  valid_iff r := by
    rw [List.mem_append, h.valid_iff, List.mem_singleton]
    constructor
    · rintro (⟨i, hnumber, hi⟩ | rfl)
      · exact ⟨i, hnumber, firstAt_concat.mpr (Or.inl hi)⟩
      · exact ⟨rows.length, rfl, (hfirst _).mpr rfl⟩
    · rintro ⟨i, hnumber, hi⟩
      rcases firstAt_concat.mp hi with hold | ⟨rfl, hlast⟩
      · exact Or.inl ⟨i, hnumber, hold⟩
      · refine Or.inr ?_
        obtain ⟨number, platform, keyword⟩ := r
        have hpair := (hfirst _).mp hlast
        dsimp only [PreviewRow.pair] at hnumber hpair
        rw [hnumber, ← hpair]
  error_iff e' := by
    rw [h.error_iff]
    refine exists_congr fun i => ?_
    rw [errorAt_concat (i := i)]
    refine (or_iff_left ?_).symm
    rintro ⟨rfl, hlast⟩
    exact herror e' hlast
  numbers := by
    rw [List.map_append, List.length_append, List.length_singleton, range_concat,
      List.append_assoc]
    refine List.Perm.trans (List.Perm.append_left _ List.perm_append_comm) ?_
    rw [← List.append_assoc]
    exact h.numbers.append (List.Perm.refl _)
  valid_ordered := by
    rw [List.map_append]
    refine List.pairwise_append.mpr ⟨h.valid_ordered, List.pairwise_singleton _ _, ?_⟩
    intro n hn n' hn'
    obtain ⟨r, hr, rfl⟩ := List.mem_map.mp hn
    rw [List.mem_singleton.mp hn']
    obtain ⟨i, hnumber, hi⟩ := (h.valid_iff r).mp hr
    have := lt_of_pairAt hi.1
    dsimp only
    omega
  errors_ordered := h.errors_ordered

structure Looped (rules : ImportRules) (rows : List (List Text)) (st : Classified) : Prop where
  number : st.rowNumber = rows.length
  verdicts : Verdicts rules rows st.valid st.errors
  seen : ∀ pair, pair ∈ st.seen ↔ ∃ i, pairAt rules rows i = some pair

theorem looped_empty : Looped rules [] .empty where
  number := rfl
  verdicts :=
    { valid_iff := fun r => by
        refine iff_of_false (fun hmem => by cases hmem) ?_
        rintro ⟨i, _, hi⟩
        exact absurd (lt_of_pairAt hi.1) (Nat.not_lt_zero i)
      error_iff := fun e => by
        refine iff_of_false (fun hmem => by cases hmem) ?_
        rintro ⟨i, hi⟩
        exact absurd (lt_of_errorAt hi) (Nat.not_lt_zero i)
      numbers := List.Perm.refl _
      valid_ordered := List.Pairwise.nil
      errors_ordered := List.Pairwise.nil }
  seen pair := by
    refine iff_of_false (fun hmem => by cases hmem) ?_
    rintro ⟨i, hi⟩
    exact absurd (lt_of_pairAt hi) (Nat.not_lt_zero i)

/-- One step of the loop: an error of the row, a repeated pair, or a new one. -/
theorem Looped.step (h : Looped rules rows st) (raw : List Text) :
    Looped rules (rows ++ [raw]) (classifyRow rules st raw) := by
  have hlength : ((rows ++ [raw]).length : ℤ) = rows.length + 1 := by
    rw [List.length_append, List.length_singleton]
    push_cast
    rfl
  have hlast : (rows ++ [raw])[rows.length]? = some raw := List.getElem?_concat_length
  have hpairs : ∀ pair, (∃ i, pairAt rules (rows ++ [raw]) i = some pair) ↔
      (∃ i, pairAt rules rows i = some pair) ∨
        checkImportRow rules (rows.length + 1) raw = .ok pair := by
    intro pair
    constructor
    · rintro ⟨i, hi⟩
      have hlt := lt_of_pairAt hi
      rw [List.length_append, List.length_singleton] at hlt
      by_cases hold : i < rows.length
      · exact Or.inl ⟨i, pairAt_append hold ▸ hi⟩
      · obtain rfl : i = rows.length := by omega
        rw [pairAt_last] at hi
        cases hcheck : checkImportRow rules (rows.length + 1) raw with
        | error e =>
          rw [hcheck] at hi
          cases hi
        | ok pair' =>
          rw [hcheck] at hi
          exact Or.inr (congrArg _ (Option.some.inj hi))
    · rintro (⟨i, hi⟩ | hcheck)
      · exact ⟨i, (pairAt_append (lt_of_pairAt hi)).trans hi⟩
      · refine ⟨rows.length, ?_⟩
        rw [pairAt_last, hcheck]
        rfl
  have hfirst : ∀ pair, FirstAt rules (rows ++ [raw]) rows.length pair ↔
      checkImportRow rules (rows.length + 1) raw = .ok pair ∧ pair ∉ st.seen := by
    intro pair
    unfold FirstAt
    rw [pairAt_last, h.seen]
    refine and_congr ?_ ?_
    · cases checkImportRow rules (rows.length + 1) raw with
      | error e => exact iff_of_false nofun nofun
      | ok pair' => exact ⟨fun heq => congrArg _ (Option.some.inj heq),
          fun heq => congrArg _ (Except.ok.inj heq)⟩
    · constructor
      · rintro hnone ⟨j, hj⟩
        have hlt := lt_of_pairAt hj
        exact hnone j hlt ((pairAt_append hlt).trans hj)
      · rintro hnone j hlt hj
        exact hnone ⟨j, pairAt_append hlt ▸ hj⟩
  have herror : ∀ e, ErrorAt rules (rows ++ [raw]) rows.length e ↔
      checkImportRow rules (rows.length + 1) raw = .error e ∨
        ∃ pair, checkImportRow rules (rows.length + 1) raw = .ok pair ∧ pair ∈ st.seen ∧
          e = duplicateError (rows.length + 1) pair := by
    intro e
    unfold ErrorAt
    rw [hlast]
    constructor
    · rintro ⟨raw', heq, hcheck | ⟨pair, hcheck, hnot, rfl⟩⟩
      · cases heq
        exact Or.inl hcheck
      · cases heq
        refine Or.inr ⟨pair, hcheck, ?_, rfl⟩
        by_contra hnew
        exact hnot ((hfirst pair).mpr ⟨hcheck, hnew⟩)
    · rintro (hcheck | ⟨pair, hcheck, hmem, rfl⟩)
      · exact ⟨raw, rfl, Or.inl hcheck⟩
      · exact ⟨raw, rfl, Or.inr ⟨pair, hcheck, fun h => ((hfirst pair).mp h).2 hmem, rfl⟩⟩
  unfold classifyRow
  dsimp only
  rw [h.number]
  cases hcheck : checkImportRow rules (rows.length + 1) raw with
  | error e =>
    rw [hcheck] at hfirst herror hpairs
    refine ⟨hlength.symm, h.verdicts.snoc_error (fun pair hpair => ?_) fun e' => ?_, fun pair => ?_⟩
    · cases ((hfirst pair).mp hpair).1
    · rw [herror]
      constructor
      · rintro (heq | ⟨_, heq, _⟩)
        · exact (Except.error.inj heq).symm
        · cases heq
      · rintro rfl
        exact Or.inl rfl
    · rw [hpairs, h.seen]
      exact (or_iff_left nofun).symm
  | ok pair =>
    rw [hcheck] at hfirst herror hpairs
    dsimp only
    split
    next hmem =>
      rw [List.contains_iff_mem] at hmem
      refine ⟨hlength.symm, h.verdicts.snoc_error (fun pair' hpair => ?_) fun e' => ?_,
        fun pair' => ?_⟩
      · obtain ⟨heq, hnew⟩ := (hfirst pair').mp hpair
        cases heq
        exact hnew hmem
      · rw [herror]
        constructor
        · rintro (heq | ⟨pair', heq, _, rfl⟩)
          · cases heq
          · cases heq
            rfl
        · rintro rfl
          exact Or.inr ⟨pair, rfl, hmem, rfl⟩
      · rw [hpairs, h.seen]
        refine (or_iff_left_of_imp fun heq => ?_).symm
        cases heq
        exact (h.seen pair).mp hmem
    next hnew =>
      rw [List.contains_iff_mem] at hnew
      refine ⟨hlength.symm, h.verdicts.snoc_valid (fun pair' => ?_) fun e' he => ?_,
        fun pair' => ?_⟩
      · rw [hfirst]
        constructor
        · rintro ⟨heq, _⟩
          exact (Except.ok.inj heq).symm
        · rintro rfl
          exact ⟨rfl, hnew⟩
      · rcases (herror e').mp he with heq | ⟨pair', heq, hmem, _⟩
        · cases heq
        · cases heq
          exact hnew hmem
      · rw [hpairs, List.mem_cons, h.seen, or_comm]
        refine or_congr_right ⟨fun heq => ?_, fun heq => ?_⟩
        · rw [heq]
        · exact (Except.ok.inj heq).symm

/-- The rejection of a file with too many rows. -/
def limitExceeded (rules : ImportRules) : AssignmentImportError where
  code := .limitExceeded
  message := .limitExceeded
  details := some (rules.maxRows + 1, rules.maxRows)

/-- The loop goes through the rows that count, up to the row cap. -/
theorem Looped.loop (h : Looped rules rows st) (hcap : rows.length ≤ rules.maxRows)
    (more : List (List Text)) :
    (rows.length + (dataRows more).length ≤ rules.maxRows → ∃ st', classifyLoop rules more st =
      .ok st' ∧ Looped rules (rows ++ dataRows more) st') ∧
    (rules.maxRows < rows.length + (dataRows more).length →
      classifyLoop rules more st = .error (limitExceeded rules)) := by
  induction more generalizing rows st with
  | nil =>
    refine ⟨fun _ => ⟨st, rfl, ?_⟩, fun hlarge => ?_⟩
    · rw [show dataRows [] = [] from rfl, List.append_nil]
      exact h
    · rw [show dataRows [] = [] from rfl, List.length_nil] at hlarge
      omega
  | cons raw more ih =>
    unfold classifyLoop
    by_cases hrow : IsRow raw
    · have hdata : dataRows (raw :: more) = raw :: dataRows more :=
        List.filter_cons_of_pos (decide_eq_true hrow)
      rw [if_neg (not_not.mpr hrow), hdata, List.length_cons, h.number]
      by_cases hfull : (rows.length : ℤ) + 1 > rules.maxRows
      · rw [if_pos hfull]
        refine ⟨fun hsmall => absurd hsmall (by omega), fun _ => ?_⟩
        have hlast : rows.length = rules.maxRows := by omega
        rw [hlast]
        rfl
      · rw [if_neg hfull]
        have hlength : (rows ++ [raw]).length = rows.length + 1 := List.length_append
        obtain ⟨hwithin, hbeyond⟩ := ih (h.step raw) (by omega)
        rw [hlength, List.append_assoc] at hwithin
        rw [hlength] at hbeyond
        exact ⟨fun hsmall => hwithin (by omega), fun hlarge => hbeyond (by omega)⟩
    · have hdata : dataRows (raw :: more) = dataRows more :=
        List.filter_cons_of_neg fun htrue => hrow (of_decide_eq_true htrue)
      rw [if_pos hrow, hdata]
      exact ih h hcap

theorem Verdicts.length_eq (h : Verdicts rules rows valid errors) :
    valid.length + errors.length = rows.length := by
  have hlength := h.numbers.length_eq
  rw [List.length_append, List.length_map, List.length_map, List.length_map,
    List.length_range] at hlength
  exact hlength

/-- Two rows that can be imported never have one pair. -/
theorem Verdicts.pairs_nodup (h : Verdicts rules rows valid errors) :
    (valid.map PreviewRow.pair).Nodup := by
  have hordered := List.pairwise_map.mp h.valid_ordered
  refine List.pairwise_map.mpr (hordered.imp_of_mem fun {r r'} hr hr' hlt hsame => ?_)
  obtain ⟨i, hi, hfirst⟩ := (h.valid_iff r).mp hr
  obtain ⟨j, hj, hsecond⟩ := (h.valid_iff r').mp hr'
  exact hsecond.2 i (by omega) (hsame ▸ hfirst.1)

/-- A row that can be imported has a code of the platforms, and a keyword within its bound that has
nothing to strip. -/
structure Canonical (rules : ImportRules) (r : PreviewRow) : Prop where
  platform : r.platform ∈ rules.allowedPlatforms
  stripped : strip r.keyword = r.keyword
  nonempty : r.keyword ≠ []
  bounded : r.keyword.length ≤ rules.keywordMaxLength

theorem checkImportRow_ok (h : checkImportRow rules number raw = .ok pair) :
    Canonical rules ⟨number, pair.1, pair.2⟩ ∧ ∃ platformRaw keywordRaw,
      raw = [platformRaw, keywordRaw] ∧
        pair = (rules.lower (strip platformRaw), strip keywordRaw) := by
  unfold checkImportRow at h
  split at h
  next platformRaw keywordRaw =>
    split_ifs at h with hempty hplatform hkeyword hlong
    cases h
    exact ⟨⟨hplatform, strip_strip _, hkeyword, not_lt.mp hlong⟩, platformRaw,
      keywordRaw, rfl, rfl⟩
  next => cases h

theorem Verdicts.canonical (h : Verdicts rules rows valid errors) {r : PreviewRow} (hr : r ∈ valid) :
    Canonical rules r := by
  obtain ⟨i, hnumber, hfirst⟩ := (h.valid_iff r).mp hr
  obtain ⟨raw, _, hcheck⟩ := Option.bind_eq_some_iff.mp hfirst.1
  cases hresult : checkImportRow rules (i + 1) raw with
  | error e =>
    rw [hresult] at hcheck
    cases hcheck
  | ok pair =>
    rw [hresult] at hcheck
    obtain ⟨hcanonical, _⟩ := checkImportRow_ok hresult
    rw [show pair = r.pair from Option.some.inj hcheck] at hcanonical
    exact ⟨hcanonical.platform, hcanonical.stripped, hcanonical.nonempty, hcanonical.bounded⟩

/-- `_classify_rows` rejects a file without rows, or with more of them than the cap, and gives a
verdict on every row of any other file. -/
theorem classifyRows_cases (rules : ImportRules) (rows : List (List Text)) :
    (dataRows rows = [] ∧ classifyRows rules rows =
      .fileRejection { code := .malformedCsv, message := .emptyFile }) ∨
    (rules.maxRows < (dataRows rows).length ∧
      classifyRows rules rows = .fileRejection (limitExceeded rules)) ∨
    ∃ valid errors, dataRows rows ≠ [] ∧ (dataRows rows).length ≤ rules.maxRows ∧
      classifyRows rules rows = { totalRows := (dataRows rows).length, valid, errors } ∧
      Verdicts rules (dataRows rows) valid errors := by
  obtain ⟨hwithin, hbeyond⟩ := looped_empty.loop (Nat.zero_le rules.maxRows) rows
  rw [List.length_nil, Nat.zero_add] at hwithin hbeyond
  by_cases hcap : (dataRows rows).length ≤ rules.maxRows
  · obtain ⟨st, hloop, hlooped⟩ := hwithin hcap
    rw [List.nil_append] at hlooped
    have hlength := hlooped.verdicts.length_eq
    unfold classifyRows
    rw [hloop]
    dsimp only
    by_cases hempty : dataRows rows = []
    · rw [hempty, List.length_nil] at hlength
      refine Or.inl ⟨hempty, if_pos ⟨List.length_eq_zero_iff.mp (by omega),
        List.length_eq_zero_iff.mp (by omega)⟩⟩
    · refine Or.inr (Or.inr ⟨st.valid, st.errors, hempty, hcap, ?_, hlooped.verdicts⟩)
      rw [if_neg, hlooped.number]
      rintro ⟨hvalid, herrors⟩
      rw [hvalid, herrors] at hlength
      exact hempty (List.length_eq_zero_iff.mp hlength.symm)
  · refine Or.inr (Or.inl ⟨not_le.mp hcap, ?_⟩)
    unfold classifyRows
    rw [hbeyond (not_le.mp hcap)]

end Loop

/-! ### One grid by two routes -/

section Routes

variable {rules : ImportRules} {header : List Text} {rows : List (List Text)}

def sheetTexts (sheet : List (List (Option Text))) : List (List Text) :=
  sheet.map fun row => row.map fun cell => cell.getD []

theorem isRow_of_header (h : headerCells rules header = importHeader) : IsRow header := by
  unfold headerCells importHeader at h
  obtain ⟨cell, rest, rfl, hcell, _⟩ := List.map_eq_cons_iff.mp h
  refine ⟨cell, List.mem_cons_self, fun hempty => ?_⟩
  rw [hempty, rules.lower_nil] at hcell
  revert hcell
  decide

/-- The sheet is read up to its row cap, which leaves the header out. -/
theorem readSheet_eq (sheet : List (List (Option Text))) (nonblank : ℤ)
    (hcap : nonblank - 1 ≤ rules.maxRows) :
    (nonblank + (dataRows (sheetTexts sheet)).length - 1 ≤ rules.maxRows →
      readSheet rules nonblank sheet = .ok (sheetTexts sheet)) ∧
    (rules.maxRows < nonblank + (dataRows (sheetTexts sheet)).length - 1 →
      readSheet rules nonblank sheet = .error (limitExceeded rules)) := by
  induction sheet generalizing nonblank with
  | nil =>
    refine ⟨fun _ => rfl, fun hlarge => ?_⟩
    rw [show dataRows (sheetTexts []) = [] from rfl, List.length_nil] at hlarge
    omega
  | cons row sheet ih =>
    obtain ⟨cells, hcells⟩ : ∃ cells, cells = row.map fun cell => cell.getD [] := ⟨_, rfl⟩
    have htexts : sheetTexts (row :: sheet) = cells :: sheetTexts sheet := by
      rw [hcells]
      rfl
    unfold readSheet
    dsimp only
    rw [← hcells, htexts]
    by_cases hrow : IsRow cells
    · have hdata : dataRows (cells :: sheetTexts sheet) = cells :: dataRows (sheetTexts sheet) :=
        List.filter_cons_of_pos (decide_eq_true hrow)
      rw [hdata, List.length_cons, if_pos hrow]
      by_cases hfull : nonblank + 1 - 1 > rules.maxRows
      · rw [if_pos ⟨hrow, hfull⟩]
        exact ⟨fun hsmall => absurd hsmall (by omega), fun _ => rfl⟩
      · rw [if_neg fun hboth => hfull hboth.2]
        obtain ⟨hwithin, hbeyond⟩ := ih (nonblank + 1) (by omega)
        refine ⟨fun hsmall => ?_, fun hlarge => ?_⟩
        · rw [hwithin (by omega)]
          rfl
        · rw [hbeyond (by omega)]
          rfl
    · have hdata : dataRows (cells :: sheetTexts sheet) = dataRows (sheetTexts sheet) :=
        List.filter_cons_of_neg fun htrue => hrow (of_decide_eq_true htrue)
      rw [hdata, if_neg hrow, if_neg fun hboth => hrow hboth.1]
      obtain ⟨hwithin, hbeyond⟩ := ih nonblank hcap
      refine ⟨fun hsmall => ?_, fun hlarge => ?_⟩
      · rw [hwithin hsmall]
        rfl
      · rw [hbeyond hlarge]
        rfl

/-- Below the header of an import both routes classify the same rows the same way. -/
theorem routes_agree {sheet : List (List (Option Text))} (htexts : sheetTexts sheet = header :: rows)
    (hheader : headerCells rules header = importHeader) :
    parseXlsxRows rules sheet = classifyRows rules rows ∧
      parseCsvRows rules (sheetTexts sheet) = classifyRows rules rows := by
  have hrow := isRow_of_header hheader
  constructor
  · have hdata : dataRows (sheetTexts sheet) = header :: dataRows rows := by
      rw [htexts]
      exact List.filter_cons_of_pos (decide_eq_true hrow)
    obtain ⟨hwithin, hbeyond⟩ := @readSheet_eq rules sheet 0 (by omega)
    rw [hdata, List.length_cons] at hwithin hbeyond
    unfold parseXlsxRows
    by_cases hcap : (dataRows rows).length ≤ rules.maxRows
    · rw [hwithin (by omega), htexts]
      dsimp only
      rw [if_neg (not_not.mpr ⟨header, List.mem_cons_self, hrow⟩), if_neg (not_not.mpr hheader)]
    · rw [hbeyond (by omega)]
      dsimp only
      rcases classifyRows_cases rules rows with ⟨hnone, _⟩ | ⟨_, heq⟩ | ⟨_, _, _, hsmall, _⟩
      · rw [hnone] at hcap
        exact absurd (Nat.zero_le _) hcap
      · exact heq.symm
      · exact absurd hsmall hcap
  · rw [htexts]
    exact if_neg (not_not.mpr hheader)

/-- Without such a header both reject the file. -/
theorem routes_reject {sheet : List (List (Option Text))}
    (hnone : ∀ header rows, sheetTexts sheet = header :: rows →
      headerCells rules header ≠ importHeader) :
    (∃ e, parseXlsxRows rules sheet = .fileRejection e) ∧
      ∃ e, parseCsvRows rules (sheetTexts sheet) = .fileRejection e := by
  constructor
  · obtain ⟨hwithin, hbeyond⟩ := @readSheet_eq rules sheet 0 (by omega)
    unfold parseXlsxRows
    by_cases hcap : 0 + ((dataRows (sheetTexts sheet)).length : ℤ) - 1 ≤ rules.maxRows
    · rw [hwithin hcap]
      cases htexts : sheetTexts sheet with
      | nil => exact ⟨_, rfl⟩
      | cons header rows =>
        dsimp only
        split
        · exact ⟨_, rfl⟩
        · rw [if_pos (hnone header rows htexts)]
          exact ⟨_, rfl⟩
    · rw [hbeyond (not_le.mp hcap)]
      exact ⟨_, rfl⟩
  · unfold parseCsvRows
    split
    next => exact ⟨_, rfl⟩
    next header rows htexts =>
      rw [if_pos (hnone header rows htexts)]
      exact ⟨_, rfl⟩

def exampleRules : ImportRules := ⟨1, 10, [['x']], id, rfl⟩

end Routes

end CampusQuest.Imports
