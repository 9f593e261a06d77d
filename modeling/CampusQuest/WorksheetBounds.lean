import CampusQuest.XlsxScan

/-!
Where a worksheet is refused for its shape. The column cap looks at one cell of the header row,
the one behind the cap. A data row ends the scan with an error when a present cell without a value
stands behind the header.
-/

namespace CampusQuest.Validators

open Tasks

section Findings

/-- What is recorded at the end of a scan depends on the errors and the counts only. -/
theorem errors_addErrors_congr {b b' : Builder} (h : b.errors = b'.errors)
    (findings : List ValidationFinding) :
    (b.addErrors findings).errors = (b'.addErrors findings).errors := by
  induction findings generalizing b b' with
  | nil => exact h
  | cons finding findings ih => exact ih (Builder.addError_congr h finding)

theorem errors_finalizeFindings_congr {env : Environment} {schema : SubmissionSchema}
    {limits : ValidationLimits} {header : Option Analysis} {κ : Type} {s : Scan κ} {b : Builder}
    (h : b.errors = s.builder.errors) :
    (finalizeFindings env schema limits header { s with builder := b }).errors =
      (finalizeFindings env schema limits header s).errors := by
  unfold finalizeFindings
  dsimp only
  split
  · refine errors_addErrors_congr ?_ _
    split
    · refine Builder.addError_congr ?_ _
      rw [Builder.addWarning_errors, Builder.addWarning_errors]
      exact h
    · rw [Builder.addWarning_errors, Builder.addWarning_errors]
      exact h
  · exact errors_addErrors_congr (errors_addErrors_congr (errors_addErrors_congr h _) _) _

theorem errors_formulaWarnings (s : SheetScan) :
    (formulaWarnings s).errors = s.scan.builder.errors := by
  unfold formulaWarnings
  generalize s.scan.builder = b
  induction s.formulaNulls generalizing b with
  | nil => rfl
  | cons entry entries ih =>
    rw [List.foldl_cons, ih, Builder.addWarning_errors]

end Findings

section Scene

/-- A text without digits and dates, and a clock that never runs out. -/
def sceneEnv : Environment := ⟨fun _ => false, fun _ _ _ => false, fun _ => false⟩

def sceneRule : ColumnRule := ⟨"a".toList, .string, false, true, false, none, by decide⟩

def sceneSchema : SubmissionSchema where
  allowedFormats := everyFileType
  sourceSelector := none
  minRows := none
  maxRows := none
  requiredColumns := []
  optionalColumns := [sceneRule]
  allowExtraColumns := true
  formats_nonempty := everyFileType_nonempty
  rows_ordered := fun _ h => (by cases h)
  names_nodup := List.nodup_singleton _

def sceneLimits : ValidationLimits := ⟨2, 10, 10, by decide, by decide, by decide⟩

def sceneBuilder : Builder := ⟨[], [], false, false⟩

def sceneCell (c : Char) : Cell := .present (some [c])

end Scene

/-! ### Ragged rows -/

section Ragged

variable {env : Environment} {schema : SubmissionSchema} {limits : ValidationLimits}
  {header : List Cell} {rows : List (List Cell)} {b b' : Builder} {analysis : Analysis}

/-- The data rows of a sheet as the checks see them: each one with its own width where it is wider
than the header. -/
def sheetRows (limits : ValidationLimits) (analysis : Analysis) (rows : List (List Cell)) :
    List (List Text) :=
  (contentRows limits 0 rows).map fun cells =>
    padTo analysis.headerCells.length (cells.map Cell.text)

def checkedSheet (env : Environment) (schema : SubmissionSchema) (limits : ValidationLimits)
    (analysis : Analysis) (b : Builder) (rows : List (List Cell)) : Scan Text :=
  (Scan.start b).checkRows env xlsxTimeoutRows (hardCap schema limits) (textReader env limits)
    limits analysis (sheetRows limits analysis rows)

def reachedRows (env : Environment) (schema : SubmissionSchema) (limits : ValidationLimits)
    (rows : List (List Cell)) : List (List Cell) :=
  beforeStop env xlsxTimeoutRows (hardCap schema limits) 0 (contentRows limits 0 rows)

theorem scanSheet_cons (htext : HasText (rowCells limits header))
    (hheader : analyzeHeader (headerOf (rowCells limits header)) schema limits b =
      (b', some analysis)) :
    scanSheet env schema limits (header :: rows) b =
      match scanRows env schema limits analysis 0 rows ⟨Scan.start b', []⟩ with
      | .error b => .error b
      | .ok s => .ok (finalizeScan env schema limits (some analysis)
          { s.scan with builder := formulaWarnings s }) := by
  unfold scanSheet scanSheetFrom
  dsimp only
  rw [if_pos htext]
  split
  next heq =>
    rw [hheader] at heq
    cases heq
  next heq =>
    rw [hheader] at heq
    cases heq
    rfl

/-- A scan keeps the counts and the errors of every row that it reaches, and ends without an
exception, exactly when no row that it reaches has a present cell without a value behind the
header. -/
theorem ragged_rows_iff (htext : HasText (rowCells limits header))
    (hheader : analyzeHeader (headerOf (rowCells limits header)) schema limits b =
      (b', some analysis)) :
    (∃ report, scanSheet env schema limits (header :: rows) b = .ok report ∧
      report.aggregates = (finalizeScan env schema limits (some analysis)
        (checkedSheet env schema limits analysis b' rows)).aggregates ∧
      report.builder.errors = (finalizeScan env schema limits (some analysis)
        (checkedSheet env schema limits analysis b' rows)).builder.errors) ↔
      ∀ cells ∈ reachedRows env schema limits rows, ¬ Overhang analysis.headerCells cells := by
  rw [scanSheet_cons htext hheader]
  constructor
  · rintro ⟨report, hreport, _⟩ cells hmem hover
    obtain ⟨b'', herror⟩ := scanRows_error (s := ⟨Scan.start b', []⟩) rfl hmem hover
    rw [herror] at hreport
    cases hreport
  · intro hrows
    obtain ⟨formulaNulls, hok⟩ := scanRows_ok (s := ⟨Scan.start b', []⟩) rfl hrows
    rw [hok]
    refine ⟨_, rfl, rfl, ?_⟩
    exact errors_finalizeFindings_congr (errors_formulaWarnings _)

/-- A formatted cell without a value, right of the header: the file is malformed. -/
theorem ragged_row_raises :
    ¬ ∀ (env : Environment) (schema : SubmissionSchema) (limits : ValidationLimits)
      (header : List Cell) (rows : List (List Cell)) (b b' : Builder) (analysis : Analysis),
      HasText (rowCells limits header) →
      analyzeHeader (headerOf (rowCells limits header)) schema limits b = (b', some analysis) →
      ∃ report, scanSheet env schema limits (header :: rows) b = .ok report := by
  intro hall
  obtain ⟨report, hok⟩ := hall sceneEnv sceneSchema sceneLimits [sceneCell 'a']
    [[sceneCell '1', .present none]] sceneBuilder _ _ (by decide) rfl
  have herror : scanSheet sceneEnv sceneSchema sceneLimits
      [[sceneCell 'a'], [sceneCell '1', .present none]] sceneBuilder = .error sceneBuilder := rfl
  cases herror.symm.trans hok

/-- An absent cell there is no content. -/
theorem padded_row_kept : ∃ report, scanSheet sceneEnv sceneSchema sceneLimits
    [[sceneCell 'a'], [sceneCell '1', .empty]] sceneBuilder = .ok report ∧
    report.aggregates.rowCount = 1 := by
  have hreached : reachedRows sceneEnv sceneSchema sceneLimits [[sceneCell '1', .empty]] =
      [[sceneCell '1']] := rfl
  obtain ⟨report, hok, haggregates, _⟩ := (@ragged_rows_iff sceneEnv sceneSchema sceneLimits
    [sceneCell 'a'] [[sceneCell '1', .empty]] sceneBuilder _ _ (by decide) rfl).mpr (by
      intro cells hmem
      rw [hreached, List.mem_singleton] at hmem
      subst hmem
      rintro ⟨index, cell, hindex, hcell, _⟩
      have hbehind : 1 ≤ index := hindex
      cases (List.getElem?_eq_none hbehind).symm.trans hcell)
  refine ⟨report, hok, ?_⟩
  rw [haggregates]
  rfl

end Ragged

/-! ### The column cap -/

section ColumnCap

variable {env : Environment} {schema : SubmissionSchema} {limits : ValidationLimits}

/-- A list of at most one element more than `k` keeps more than `k` elements exactly when its last
one is kept. -/
theorem lt_length_rdropWhile_iff {α : Type} {p : α → Bool} {l : List α} {k : ℕ}
    (hl : l.length ≤ k + 1) :
    k < (l.rdropWhile p).length ↔ ∃ x, l[k]? = some x ∧ p x = false := by
  rcases List.eq_nil_or_concat l with rfl | ⟨front, last, rfl⟩
  · refine iff_of_false (Nat.not_lt_zero k) ?_
    rintro ⟨x, h, _⟩
    cases h
  rw [List.concat_eq_append] at hl ⊢
  rw [List.length_append, List.length_singleton] at hl
  rw [List.rdropWhile_concat]
  by_cases hfront : front.length = k
  · subst hfront
    rw [List.getElem?_concat_length]
    split
    next hp =>
      refine iff_of_false (not_lt.mpr (List.rdropWhile_prefix p front).length_le) ?_
      rintro ⟨x, hx, hfalse⟩
      obtain rfl := Option.some.inj hx
      rw [hp] at hfalse
      cases hfalse
    next hp =>
      refine iff_of_true ?_ ⟨last, rfl, Bool.eq_false_of_not_eq_true hp⟩
      rw [List.length_append]
      exact Nat.lt_succ_self _
  · have hshort : (front ++ [last]).length ≤ k := by
      rw [List.length_append, List.length_singleton]
      omega
    refine iff_of_false ?_ ?_
    · split
      · exact not_lt.mpr ((List.rdropWhile_prefix p front).length_le.trans (by omega))
      · exact not_lt.mpr hshort
    · rintro ⟨x, hx, _⟩
      rw [List.getElem?_eq_none hshort] at hx
      cases hx

theorem getElem?_of_prefix {α : Type} {l l' : List α} (h : l <+: l') {i : ℕ} {x : α}
    (hx : l[i]? = some x) : l'[i]? = some x := by
  obtain ⟨t, rfl⟩ := h
  rw [List.getElem?_append_left (List.getElem?_eq_some_iff.mp hx).1]
  exact hx

def Cell.Filled (cell : Cell) : Prop := strip cell.text ≠ []

theorem Cell.Filled.ne_empty {cell : Cell} (h : cell.Filled) : cell ≠ .empty := by
  rintro rfl
  exact h rfl

theorem rowCells_sentinel {row : List Cell} :
    (∃ cell, (rowCells limits row)[limits.maxColumns]? = some cell ∧ cell.Filled) ↔
      ∃ cell, row[limits.maxColumns]? = some cell ∧ cell.Filled := by
  have htake : ∀ cell, (row.take (limits.maxColumns + 1))[limits.maxColumns]? = some cell ↔
      row[limits.maxColumns]? = some cell := by
    intro cell
    rw [List.getElem?_take_of_lt (Nat.lt_succ_self _)]
  have hprefix : rowCells limits row <+: row.take (limits.maxColumns + 1) :=
    List.rdropWhile_prefix _ _
  constructor
  · rintro ⟨cell, hcell, hfilled⟩
    refine ⟨cell, (htake cell).mp ?_, hfilled⟩
    exact getElem?_of_prefix hprefix hcell
  · rintro ⟨cell, hcell, hfilled⟩
    have hlast := (htake cell).mpr hcell
    have hkept : limits.maxColumns < (rowCells limits row).length := by
      refine (lt_length_rdropWhile_iff (List.length_take_le _ _)).mpr ⟨cell, hlast, ?_⟩
      exact decide_eq_false hfilled.ne_empty
    refine ⟨(rowCells limits row)[limits.maxColumns], List.getElem?_eq_getElem hkept, ?_⟩
    have hsame := getElem?_of_prefix hprefix (List.getElem?_eq_getElem hkept)
    obtain rfl := Option.some.inj (hlast.symm.trans hsame)
    exact hfilled

/-- The header of a row is over the cap exactly when the sentinel column is filled. -/
theorem headerOf_over_cap {row : List Cell} :
    limits.maxColumns < (headerOf (rowCells limits row)).length ↔
      ∃ cell, row[limits.maxColumns]? = some cell ∧ cell.Filled := by
  have hlength : (rowCells limits row).length ≤ limits.maxColumns + 1 :=
    (List.rdropWhile_prefix _ _).length_le.trans (List.length_take_le _ _)
  unfold headerOf
  rw [lt_length_rdropWhile_iff (by rw [List.length_map]; exact hlength), ← rowCells_sentinel]
  constructor
  · rintro ⟨text, htext, hfilled⟩
    rw [List.getElem?_map, Option.map_eq_some_iff] at htext
    obtain ⟨cell, hcell, rfl⟩ := htext
    exact ⟨cell, hcell, of_decide_eq_false hfilled⟩
  · rintro ⟨cell, hcell, hfilled⟩
    refine ⟨strip cell.text, ?_, decide_eq_false hfilled⟩
    rw [List.getElem?_map, hcell]
    rfl

/-- The row that the scan takes for the header: the first one with a text up to the sentinel
column. -/
def firstRow (limits : ValidationLimits) : ℕ → List (List Cell) → Option (List Cell)
  | _, [] => none
  | streak, row :: rows =>
    if HasText (rowCells limits row) then some row
    else if streak + 1 ≥ maxEmptyRowStreak then none
    else firstRow limits (streak + 1) rows

def Builder.WithinCap (b : Builder) : Prop :=
  ∀ finding ∈ b.errors, ∀ count limit, finding.fault ≠ .tooManyColumns count limit

theorem Builder.WithinCap.addError {b : Builder} (hb : b.WithinCap) {finding : ValidationFinding}
    (h : ∀ count limit, finding.fault ≠ .tooManyColumns count limit) :
    (b.addError finding).WithinCap := by
  unfold Builder.addError
  split
  · exact hb
  · intro f hf
    rcases List.mem_append.mp hf with hf | hf
    · exact hb f hf
    · rw [List.mem_singleton] at hf
      subst hf
      exact h

theorem Builder.WithinCap.addErrors {b : Builder} (hb : b.WithinCap)
    {findings : List ValidationFinding}
    (h : ∀ finding ∈ findings, ∀ count limit, finding.fault ≠ .tooManyColumns count limit) :
    (b.addErrors findings).WithinCap := by
  induction findings generalizing b with
  | nil => exact hb
  | cons finding findings ih =>
    refine ih (hb.addError (h finding (List.mem_cons_self ..))) fun f hf => ?_
    exact h f (List.mem_cons_of_mem _ hf)

theorem Builder.WithinCap.addWarning {b : Builder} (hb : b.WithinCap)
    (finding : ValidationFinding) : (b.addWarning finding).WithinCap := by
  intro f hf
  rw [Builder.addWarning_errors] at hf
  exact hb f hf

theorem withinCap_headerErrors {headerCells : List Text} :
    ∀ finding ∈ headerErrors schema headerCells, ∀ count limit,
      finding.fault ≠ .tooManyColumns count limit := by
  intro finding hmem count limit
  unfold headerErrors at hmem
  rw [List.mem_append, List.mem_append, List.mem_map, List.mem_map] at hmem
  rcases hmem with (⟨name, _, rfl⟩ | ⟨name, _, rfl⟩) | hmem
  · exact fun h => (by cases h)
  · exact fun h => (by cases h)
  · split at hmem
    · cases hmem
    · obtain ⟨name, _, rfl⟩ := List.mem_map.mp hmem
      exact fun h => (by cases h)

section Rows

variable {ν κ : Type} {reader : CellReader ν κ} {analysis : Analysis} {s : Scan κ}

theorem withinCap_addError {finding : ValidationFinding} (hs : s.builder.WithinCap)
    (h : ∀ count limit, finding.fault ≠ .tooManyColumns count limit) :
    (s.addError finding).builder.WithinCap := hs.addError h

theorem withinCap_countRow {period cap : ℕ} (hs : s.builder.WithinCap) :
    (s.countRow env period cap).builder.WithinCap := by
  unfold Scan.countRow
  dsimp only
  split_ifs
  · exact hs
  · exact hs.addError fun _ _ h => (by cases h)
  · exact hs

variable [DecidableEq κ]

theorem withinCap_track {row : ℕ} {rule : ColumnRule} {key : κ} {display : Text}
    (hs : s.builder.WithinCap) : (s.track rule row key display).builder.WithinCap := by
  unfold Scan.track
  split
  · exact withinCap_addError hs fun _ _ h => (by cases h)
  split
  · exact hs
  split
  · exact hs.addWarning _
  · exact hs

theorem withinCap_checkCell {row : ℕ} {rule : ColumnRule} {cell : ν} (hs : s.builder.WithinCap) :
    (s.checkCell reader limits row rule cell).builder.WithinCap := by
  have htype : (if reader.hasType cell rule.type = true then s
      else s.addTypeError rule row (reader.display cell)).builder.WithinCap := by
    split
    · exact hs
    · exact withinCap_addError hs fun _ _ h => (by cases h)
  unfold Scan.checkCell
  split
  · exact hs.addError fun _ _ h => (by cases h)
  split
  · unfold Scan.addNull
    dsimp only
    split
    · exact hs
    · exact withinCap_addError hs fun _ _ h => (by cases h)
  · dsimp only
    split
    · exact withinCap_track htype
    · exact htype

theorem withinCap_checkCells {row : ℕ} {cells : List ν} {plan : List (ℕ × ColumnRule)}
    (hs : s.builder.WithinCap) :
    (Scan.checkCells reader limits row cells plan s).builder.WithinCap := by
  induction plan generalizing s with
  | nil => exact hs
  | cons entry plan ih =>
    unfold Scan.checkCells
    split
    · exact hs
    · exact ih (withinCap_checkCell hs)

theorem withinCap_checkRow {cells : List ν} (hs : s.builder.WithinCap) :
    (s.checkRow reader limits analysis cells).builder.WithinCap := by
  refine withinCap_checkCells ?_
  split
  · exact hs
  · exact hs.addError fun _ _ h => (by cases h)

end Rows

section Finalize

variable {κ : Type} {header : Option Analysis} {s : Scan κ}

theorem withinCap_finalize (hs : s.builder.WithinCap) :
    (finalizeFindings env schema limits header s).WithinCap := by
  have hmax : ∀ finding ∈ maxRowsErrors schema s, ∀ count limit,
      finding.fault ≠ .tooManyColumns count limit := by
    intro finding hmem
    unfold maxRowsErrors at hmem
    split at hmem
    · split at hmem
      · rw [List.mem_singleton.mp hmem]
        exact fun _ _ h => (by cases h)
      · cases hmem
    · cases hmem
  have hratio : ∀ finding ∈ ratioErrors env schema (planOf header) s, ∀ count limit,
      finding.fault ≠ .tooManyColumns count limit := by
    intro finding hmem
    obtain ⟨rule, _, hrule⟩ := List.mem_filterMap.mp hmem
    split at hrule
    · cases hrule
    · split at hrule
      · obtain rfl := Option.some.inj hrule
        exact fun _ _ h => (by cases h)
      · cases hrule
  have hcomplete : ∀ finding ∈ completeErrors schema header s, ∀ count limit,
      finding.fault ≠ .tooManyColumns count limit := by
    intro finding hmem
    rcases List.mem_append.mp hmem with hmem | hmem
    · split at hmem
      · rw [List.mem_singleton.mp hmem]
        exact fun _ _ h => (by cases h)
      · cases hmem
    · split at hmem
      · split at hmem
        · rw [List.mem_singleton.mp hmem]
          exact fun _ _ h => (by cases h)
        · cases hmem
      · cases hmem
  unfold finalizeFindings
  dsimp only
  split
  · refine Builder.WithinCap.addErrors ?_ hmax
    split
    · exact (hs.addWarning _).addError fun _ _ h => (by cases h)
    · exact hs.addWarning _
  · exact ((hs.addErrors hratio).addErrors hcomplete).addErrors hmax

end Finalize

section Sheet

variable {analysis : Analysis} {rows : List (List Cell)} {b : Builder}

theorem withinCap_scanRows {streak : ℕ} {s : SheetScan} (hs : s.scan.builder.WithinCap) :
    (∀ s', scanRows env schema limits analysis streak rows s = .ok s' →
      s'.scan.builder.WithinCap) ∧
    ∀ b', scanRows env schema limits analysis streak rows s = .error b' → b'.WithinCap := by
  induction rows generalizing streak s with
  | nil =>
    refine ⟨fun s' h => ?_, fun b' h => (by cases h)⟩
    obtain rfl := Except.ok.inj h
    exact hs
  | cons row rows ih =>
    have hcount : (s.scan.countRow env xlsxTimeoutRows (hardCap schema limits)).builder.WithinCap :=
      withinCap_countRow hs
    unfold scanRows
    dsimp only
    split
    · split
      · refine ⟨fun s' h => ?_, fun b' h => (by cases h)⟩
        obtain rfl := Except.ok.inj h
        exact hcount
      split
      · refine ⟨fun s' h => (by cases h), fun b' h => ?_⟩
        obtain rfl := Except.error.inj h
        exact hcount
      · exact ih (withinCap_checkRow hcount)
    · split
      · refine ⟨fun s' h => ?_, fun b' h => (by cases h)⟩
        obtain rfl := Except.ok.inj h
        exact hs
      · exact ih hs

/-- A filled sentinel column in the header row is the error of the file. -/
theorem scanSheetFrom_over_cap {streak : ℕ} {row : List Cell} {cell : Cell} (hb : b.errors = [])
    (hrow : firstRow limits streak rows = some row)
    (hcell : row[limits.maxColumns]? = some cell) (hfilled : cell.Filled) :
    ∃ report, scanSheetFrom env schema limits streak rows b = .ok report ∧
      ∃ count limit, .file (.tooManyColumns count limit) none ∈ report.builder.errors := by
  induction rows generalizing streak with
  | nil => cases hrow
  | cons row' rows ih =>
    unfold firstRow at hrow
    unfold scanSheetFrom
    dsimp only
    split
    next htext =>
      rw [if_pos htext] at hrow
      obtain rfl := Option.some.inj hrow
      have hover : (headerOf (rowCells limits row')).length > limits.maxColumns :=
        headerOf_over_cap.mpr ⟨cell, hcell, hfilled⟩
      have hheader : analyzeHeader (headerOf (rowCells limits row')) schema limits b =
          (b.addError (.file (.tooManyColumns (headerOf (rowCells limits row')).length
            limits.maxColumns) none), none) := if_pos hover
      rw [hheader]
      refine ⟨_, rfl, (headerOf (rowCells limits row')).length, limits.maxColumns, ?_⟩
      dsimp only
      unfold Builder.addError
      rw [hb]
      exact List.mem_singleton_self _
    next hblank =>
      rw [if_neg hblank] at hrow
      split
      next hstreak =>
        rw [if_pos hstreak] at hrow
        cases hrow
      next hstreak =>
        rw [if_neg hstreak] at hrow
        exact ih hrow

/-- Any other header row passes the cap, whatever comes of the scan. -/
theorem withinCap_scanSheetFrom {streak : ℕ} (hb : b.WithinCap)
    (hrow : ¬ ∃ row cell, firstRow limits streak rows = some row ∧
      row[limits.maxColumns]? = some cell ∧ cell.Filled) :
    (∀ report, scanSheetFrom env schema limits streak rows b = .ok report →
      report.builder.WithinCap) ∧
    ∀ b', scanSheetFrom env schema limits streak rows b = .error b' → b'.WithinCap := by
  have hempty : (finalizeScan env schema limits none (@Scan.start Text
      (b.addError (.file .emptyFile none)))).builder.WithinCap :=
    withinCap_finalize (hb.addError fun _ _ h => (by cases h))
  induction rows generalizing streak with
  | nil =>
    refine ⟨fun report h => ?_, fun b' h => (by cases h)⟩
    obtain rfl := Except.ok.inj h
    exact hempty
  | cons row rows ih =>
    unfold firstRow at hrow
    unfold scanSheetFrom
    dsimp only
    split
    next htext =>
      rw [if_pos htext] at hrow
      have hwithin : ¬ (headerOf (rowCells limits row)).length > limits.maxColumns := by
        intro hover
        obtain ⟨cell, hcell, hfilled⟩ := headerOf_over_cap.mp hover
        exact hrow ⟨row, cell, rfl, hcell, hfilled⟩
      unfold analyzeHeader
      rw [if_neg hwithin]
      dsimp only
      have hheader := hb.addErrors (@withinCap_headerErrors schema
        (headerOf (rowCells limits row)))
      have hrows := fun analysis =>
        @withinCap_scanRows env schema limits analysis rows 0 ⟨Scan.start _, []⟩ hheader
      split
      next b'' herror =>
        refine ⟨fun report h => (by cases h), fun b' h => ?_⟩
        obtain rfl := Except.error.inj h
        exact (hrows _).2 _ herror
      next s hok =>
        refine ⟨fun report h => ?_, fun b' h => (by cases h)⟩
        obtain rfl := Except.ok.inj h
        refine withinCap_finalize fun f hf => ?_
        rw [errors_formulaWarnings] at hf
        exact (hrows _).1 _ hok f hf
    next hblank =>
      rw [if_neg hblank] at hrow
      split
      next =>
        refine ⟨fun report h => ?_, fun b' h => (by cases h)⟩
        obtain rfl := Except.ok.inj h
        exact hempty
      next hstreak =>
        rw [if_neg hstreak] at hrow
        exact ih hrow

end Sheet

/-- A worksheet fails with the column cap exactly when the row that the scan takes for the header
has a filled cell in the sentinel column. -/
theorem column_cap_iff (env : Environment) (schema : SubmissionSchema) (limits : ValidationLimits)
    (rows : List (List Cell)) (b : Builder) (hb : b.errors = []) :
    (∃ count limit, .file (.tooManyColumns count limit) none ∈
      (parseSheet env schema limits rows b).builder.errors) ↔
    ∃ row cell, firstRow limits 0 rows = some row ∧ row[limits.maxColumns]? = some cell ∧
      cell.Filled := by
  constructor
  · rintro ⟨count, limit, hmem⟩
    by_contra hrow
    have hb' : b.WithinCap := by
      intro f hf
      rw [hb] at hf
      cases hf
    have hsheet := @withinCap_scanSheetFrom env schema _ _ _ _ hb' hrow
    unfold parseSheet scanSheet at hmem
    split at hmem
    next report hok => exact hsheet.1 report hok _ hmem count limit rfl
    next b' herror =>
      exact ((hsheet.2 b' herror).addError fun _ _ h => (by cases h)) _ hmem count limit rfl
  · rintro ⟨row, cell, hrow, hcell, hfilled⟩
    obtain ⟨report, hok, hmem⟩ :=
      @scanSheetFrom_over_cap env schema _ _ _ _ _ _ hb hrow hcell hfilled
    unfold parseSheet scanSheet
    rw [hok]
    exact hmem

/-- A blank sentinel column hides the columns behind it: the header is trimmed to the cap and
accepted. -/
theorem wide_header_accepted :
    ¬ ∀ (env : Environment) (schema : SubmissionSchema) (limits : ValidationLimits)
      (header : List Cell) (rows : List (List Cell)) (index : ℕ) (cell : Cell),
      limits.maxColumns ≤ index → header[index]? = some cell → cell.Filled →
      ∃ count limit, .file (.tooManyColumns count limit) none ∈
        (parseSheet env schema limits (header :: rows) sceneBuilder).builder.errors := by
  intro hall
  obtain ⟨count, limit, hmem⟩ := hall sceneEnv sceneSchema sceneLimits
    [sceneCell 'a', sceneCell 'b', .empty, sceneCell 'd'] [] 3 (sceneCell 'd') (by decide) rfl
    (by unfold Cell.Filled; decide)
  have herrors : (parseSheet sceneEnv sceneSchema sceneLimits
      [[sceneCell 'a', sceneCell 'b', .empty, sceneCell 'd']] sceneBuilder).builder.errors =
      [.file .noDataRows none] := rfl
  rw [herrors, List.mem_singleton] at hmem
  cases hmem

theorem sentinel_header_refused : ∃ count limit, .file (.tooManyColumns count limit) none ∈
    (parseSheet sceneEnv sceneSchema sceneLimits
      [[sceneCell 'a', sceneCell 'b', sceneCell 'c']] sceneBuilder).builder.errors :=
  (column_cap_iff sceneEnv sceneSchema sceneLimits _ sceneBuilder rfl).mpr
    ⟨_, sceneCell 'c', rfl, rfl, by unfold Cell.Filled; decide⟩

end ColumnCap

end CampusQuest.Validators
