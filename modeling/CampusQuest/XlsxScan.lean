import CampusQuest.RowScan

/-!
The scan of a worksheet. A row comes as its cells up to one column behind the cap. The first row
with a text is the header, and as many rows without one as the streak allows end the data.
-/

namespace CampusQuest.Validators

open Tasks

def maxEmptyRowStreak : ℕ := 1024

def xlsxTimeoutRows : ℕ := 1024

/-- A cell of a worksheet: absent, or present with what `str` renders of its value. -/
inductive Cell
  | empty
  | present (value : Option Text)
  deriving DecidableEq, Repr

def Cell.text : Cell → Text
  | .empty => []
  | .present none => []
  | .present (some value) => value

/-- The cells that `iter_rows` materializes, without the absent ones at the end. -/
def rowCells (limits : ValidationLimits) (cells : List Cell) : List Cell :=
  (cells.take (limits.maxColumns + 1)).rdropWhile (· = .empty)

def HasText (cells : List Cell) : Prop := ∃ cell ∈ cells, cell.text ≠ []

instance (cells : List Cell) : Decidable (HasText cells) :=
  inferInstanceAs (Decidable (∃ cell ∈ cells, cell.text ≠ []))

/-- The candidate header: its texts stripped, without the blank ones at the end. -/
def headerOf (cells : List Cell) : List Text :=
  (cells.map fun cell => strip cell.text).rdropWhile (· = [])

/-- The missing cells at the end of a row are empty ones. -/
def padTo (width : ℕ) (texts : List Text) : List Text :=
  texts ++ List.replicate (width - texts.length) []

def tally (name : Text) : List (Text × ℕ) → List (Text × ℕ)
  | [] => [(name, 1)]
  | (other, count) :: counts =>
    if other = name then (other, count + 1) :: counts else (other, count) :: tally name counts

/-- `_count_formula_nulls`, from a position on; nothing, where the header has no such position. -/
def countFormulaNulls (schema : SubmissionSchema) (headerCells : List Text) :
    ℕ → List Cell → List (Text × ℕ) → Option (List (Text × ℕ))
  | _, [], formulaNulls => some formulaNulls
  | index, cell :: cells, formulaNulls =>
    if cell.text = [] ∧ cell ≠ .empty then
      match headerCells[index]? with
      | none => none
      | some name =>
        countFormulaNulls schema headerCells (index + 1) cells
          (if (schema.column name).isSome = true then tally name formulaNulls else formulaNulls)
    else countFormulaNulls schema headerCells (index + 1) cells formulaNulls

structure SheetScan where
  scan : Scan Text
  formulaNulls : List (Text × ℕ)

section Scan

variable (env : Environment) (schema : SubmissionSchema) (limits : ValidationLimits)

/-- The rows behind the header, with the streak of empty rows so far. An index behind the header
raises, and leaves the findings. -/
def scanRows (analysis : Analysis) : ℕ → List (List Cell) → SheetScan → Except Builder SheetScan
  | _, [], s => .ok s
  | streak, row :: rows, s =>
    let cells := rowCells limits row
    if HasText cells then
      let counted := s.scan.countRow env xlsxTimeoutRows (hardCap schema limits)
      if counted.scanIncomplete = true then .ok { s with scan := counted }
      else
        match countFormulaNulls schema analysis.headerCells 0 cells s.formulaNulls with
        | none => .error counted.builder
        | some formulaNulls =>
          let texts := padTo analysis.headerCells.length (cells.map Cell.text)
          scanRows analysis 0 rows
            ⟨counted.checkRow (textReader env limits) limits analysis texts, formulaNulls⟩
    else if streak + 1 ≥ maxEmptyRowStreak then .ok s
    else scanRows analysis (streak + 1) rows s

def formulaWarnings (s : SheetScan) : Builder :=
  s.formulaNulls.foldl
    (fun b entry => b.addWarning (.file (.formulaWithoutCachedValue entry.2) (some entry.1)))
    s.scan.builder

/-- The rows up to the header, with the streak of empty rows so far. -/
def scanSheetFrom : ℕ → List (List Cell) → Builder → Except Builder ValidationReport
  | _, [], b => .ok (finalizeScan env schema limits none (@Scan.start Text
      (b.addError (.file .emptyFile none))))
  | streak, row :: rows, b =>
    let cells := rowCells limits row
    if HasText cells then
      match analyzeHeader (headerOf cells) schema limits b with
      | (b, none) => .ok ⟨{ ScanAggregates.empty with
          detectedColumns := (headerOf cells).take limits.maxColumns }, b⟩
      | (b, some analysis) =>
        match scanRows env schema limits analysis 0 rows ⟨Scan.start b, []⟩ with
        | .error b => .error b
        | .ok s => .ok (finalizeScan env schema limits (some analysis)
            { s.scan with builder := formulaWarnings s })
    else if streak + 1 ≥ maxEmptyRowStreak then
      .ok (finalizeScan env schema limits none (@Scan.start Text
        (b.addError (.file .emptyFile none))))
    else scanSheetFrom (streak + 1) rows b

def scanSheet (rows : List (List Cell)) (b : Builder) : Except Builder ValidationReport :=
  scanSheetFrom env schema limits 0 rows b

/-- `_parse`, for the rows of the selected sheet: what raises is a malformed file without counts. -/
def parseSheet (rows : List (List Cell)) (b : Builder) : ValidationReport :=
  match scanSheet env schema limits rows b with
  | .ok report => report
  | .error b => ⟨ScanAggregates.empty, b.addError (.file .malformedXlsx none)⟩

end Scan

/-! ### The rows that a scan reaches -/

def contentRows (limits : ValidationLimits) : ℕ → List (List Cell) → List (List Cell)
  | _, [] => []
  | streak, row :: rows =>
    if HasText (rowCells limits row) then rowCells limits row :: contentRows limits 0 rows
    else if streak + 1 ≥ maxEmptyRowStreak then []
    else contentRows limits (streak + 1) rows

/-- A present cell that reads as nothing stands behind the header. -/
def Overhang (headerCells : List Text) (cells : List Cell) : Prop :=
  ∃ index cell, headerCells.length ≤ index ∧ cells[index]? = some cell ∧ cell.text = [] ∧
    cell ≠ .empty

section Reached

variable {env : Environment} {schema : SubmissionSchema} {limits : ValidationLimits}
  {analysis : Analysis} {headerCells : List Text}

/-- The tally raises exactly on an overhang. -/
theorem countFormulaNulls_eq_none {index : ℕ} {cells : List Cell}
    {formulaNulls : List (Text × ℕ)} :
    countFormulaNulls schema headerCells index cells formulaNulls = none ↔
      ∃ i cell, headerCells.length ≤ index + i ∧ cells[i]? = some cell ∧ cell.text = [] ∧
        cell ≠ .empty := by
  induction cells generalizing index formulaNulls with
  | nil =>
    constructor
    · intro h
      cases h
    · rintro ⟨i, cell, _, h, _⟩
      cases h
  | cons cell cells ih =>
    -- The overhang of the remaining cells, one position further.
    have hrest : (∃ i c, headerCells.length ≤ index + 1 + i ∧ cells[i]? = some c ∧ c.text = [] ∧
        c ≠ .empty) ↔ ∃ i c, headerCells.length ≤ index + (i + 1) ∧
          (cell :: cells)[i + 1]? = some c ∧ c.text = [] ∧ c ≠ .empty := by
      simp only [List.getElem?_cons_succ, Nat.add_assoc, Nat.add_comm 1]
    unfold countFormulaNulls
    split
    next hnull =>
      split
      next hheader =>
        rw [List.getElem?_eq_none_iff] at hheader
        exact iff_of_true rfl ⟨0, cell, hheader, rfl, hnull⟩
      next name hheader =>
        rw [ih, hrest]
        constructor
        · rintro ⟨i, c, h⟩
          exact ⟨i + 1, c, h⟩
        · rintro ⟨i, c, hi, hc, h⟩
          cases i with
          | zero =>
            have hlt := (List.getElem?_eq_some_iff.mp hheader).1
            exact absurd hi (by omega)
          | succ i => exact ⟨i, c, hi, hc, h⟩
    next hnull =>
      rw [ih, hrest]
      constructor
      · rintro ⟨i, c, h⟩
        exact ⟨i + 1, c, h⟩
      · rintro ⟨i, c, hi, hc, h⟩
        cases i with
        | zero =>
          obtain rfl := Option.some.inj hc
          exact absurd h hnull
        | succ i => exact ⟨i, c, hi, hc, h⟩

theorem overhang_iff {cells : List Cell} {formulaNulls : List (Text × ℕ)} :
    countFormulaNulls schema headerCells 0 cells formulaNulls = none ↔
      Overhang headerCells cells := by
  rw [countFormulaNulls_eq_none]
  unfold Overhang
  simp only [Nat.zero_add]

/-- Without an overhang the scan checks its rows and keeps what they counted. -/
theorem scanRows_ok {streak : ℕ} {rows : List (List Cell)} {s : SheetScan}
    (hs : s.scan.scanIncomplete = false)
    (hrows : ∀ cells ∈ beforeStop env xlsxTimeoutRows (hardCap schema limits) s.scan.rowCount
      (contentRows limits streak rows), ¬ Overhang analysis.headerCells cells) :
    ∃ formulaNulls, scanRows env schema limits analysis streak rows s =
      .ok ⟨s.scan.checkRows env xlsxTimeoutRows (hardCap schema limits)
        (textReader env limits) limits analysis
        ((contentRows limits streak rows).map fun cells =>
          padTo analysis.headerCells.length (cells.map Cell.text)), formulaNulls⟩ := by
  induction rows generalizing streak s with
  | nil => exact ⟨s.formulaNulls, rfl⟩
  | cons row rows ih =>
    unfold scanRows
    unfold contentRows at hrows ⊢
    dsimp only
    split
    next htext =>
      rw [if_pos htext] at hrows
      rw [List.map_cons]
      unfold Scan.checkRows
      dsimp only
      split
      next hstop => exact ⟨s.formulaNulls, rfl⟩
      next hgo =>
        have hcount := mt (s.scan.countRow_incomplete hs).mpr hgo
        have hsame := (s.scan.countRow env xlsxTimeoutRows (hardCap schema limits)).sameProgress_checkRow
          (textReader env limits) limits analysis
            (padTo analysis.headerCells.length ((rowCells limits row).map Cell.text))
        unfold beforeStop at hrows
        rw [if_neg hcount] at hrows
        have hcells := hrows _ (List.mem_cons_self ..)
        rw [← @overhang_iff schema _ _ s.formulaNulls] at hcells
        obtain ⟨formulaNulls, hsome⟩ := Option.ne_none_iff_exists'.mp hcells
        rw [hsome]
        refine ih ?_ fun cells hmem => hrows cells (List.mem_cons_of_mem _ ?_)
        · exact hsame.scanIncomplete.trans (Bool.eq_false_of_not_eq_true hgo)
        · rw [hsame.rowCount, Scan.rowCount_countRow] at hmem
          exact hmem
    next hblank =>
      rw [if_neg hblank] at hrows
      split
      next => exact ⟨s.formulaNulls, rfl⟩
      next hstreak =>
        rw [if_neg hstreak] at hrows
        exact ih hs hrows

/-- An overhang in a row that is reached raises. -/
theorem scanRows_error {streak : ℕ} {rows : List (List Cell)} {s : SheetScan} {cells : List Cell}
    (hs : s.scan.scanIncomplete = false)
    (hmem : cells ∈ beforeStop env xlsxTimeoutRows (hardCap schema limits) s.scan.rowCount
      (contentRows limits streak rows)) (hover : Overhang analysis.headerCells cells) :
    ∃ b, scanRows env schema limits analysis streak rows s = .error b := by
  induction rows generalizing streak s with
  | nil => cases hmem
  | cons row rows ih =>
    unfold scanRows
    unfold contentRows at hmem
    dsimp only
    split
    next htext =>
      rw [if_pos htext] at hmem
      unfold beforeStop at hmem
      split at hmem
      next => cases hmem
      next hgo =>
        have hcount := mt (s.scan.countRow_incomplete hs).mp hgo
        have hsame := (s.scan.countRow env xlsxTimeoutRows (hardCap schema limits)).sameProgress_checkRow
          (textReader env limits) limits analysis
            (padTo analysis.headerCells.length ((rowCells limits row).map Cell.text))
        rw [if_neg hcount]
        rcases List.mem_cons.mp hmem with rfl | hmem
        · rw [overhang_iff.mpr hover]
          exact ⟨_, rfl⟩
        · split
          next => exact ⟨_, rfl⟩
          next =>
            refine ih (hsame.scanIncomplete.trans (Bool.eq_false_of_not_eq_true hcount)) ?_
            rw [hsame.rowCount, Scan.rowCount_countRow]
            exact hmem
    next hblank =>
      rw [if_neg hblank] at hmem
      split at hmem
      next => cases hmem
      next hstreak =>
        rw [if_neg hstreak]
        exact ih hs hmem

end Reached

end CampusQuest.Validators
