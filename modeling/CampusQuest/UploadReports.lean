import CampusQuest.CsvScan
import CampusQuest.SqliteScan
import CampusQuest.WorksheetBounds
import CampusQuest.ZipPreflight

/-!
The three validators of an upload, and what a report without an error says about the file. The gates
before a scan record an error and return; behind them the rows are read by the shared loop. A sheet
is read until a streak of empty rows ends its data, the other formats to their end.
-/

namespace CampusQuest.Validators

open Tasks

/-! ### CSV -/

def sniffBytes : ℕ := 8192

def csvDelimiters : List Char := [',', ';', '\t']

/-- What the CSV validator takes from the standard library, for its dialects. -/
structure CsvLibrary (δ : Type) where
  /-- `_decode_sniff`, when the first bytes decode. -/
  decodeSniff : List UInt8 → Option Text
  /-- `csv.Sniffer().sniff`, when it finds a dialect. -/
  sniff : Text → Option δ
  /-- `csv.excel` with a delimiter. -/
  excel : Char → δ
  /-- The first of `splitlines`, or nothing. -/
  headerLine : Text → Text
  /-- The rows of `csv.reader` over the stream, and how it fails behind them. -/
  read : δ → List UInt8 → List (List Text) × Option ReaderFault

section Csv

variable {δ : Type} (lib : CsvLibrary δ) (env : Environment) (schema : SubmissionSchema)
  (limits : ValidationLimits)

def sniffDialect (sample : Text) : Option δ :=
  match lib.sniff sample with
  | some dialect => some dialect
  | none =>
    (csvDelimiters.find? fun delimiter => ((lib.headerLine sample).splitOn delimiter).any
      fun cell => (schema.column (strip cell)).isSome).map lib.excel

def validateCsv (bytes : List UInt8) (b : Builder) : ValidationReport :=
  if bytes.take sniffBytes = [] then refuse .emptyFile b
  else if 0 ∈ bytes.take sniffBytes then refuse .binaryContent b
  else match lib.decodeSniff (bytes.take sniffBytes) with
    | none => refuse .invalidEncoding b
    | some sample =>
      if strip sample = [] then refuse .emptyFile b
      else match sniffDialect lib schema sample with
        | none => refuse .malformedCsv b
        | some dialect => consume env schema limits (lib.read dialect bytes).2
            (lib.read dialect bytes).1 b

end Csv

section CsvPassed

variable {env : Environment} {schema : SubmissionSchema} {limits : ValidationLimits} {b : Builder}
  {fault : Option ReaderFault}

structure CleanCsv (env : Environment) (schema : SubmissionSchema) (limits : ValidationLimits)
    (raws : List (List Text)) (fault : Option ReaderFault) (rowCount : ℕ) : Prop where
  fault : fault = none
  clean : ∃ before header rows, raws = before ++ header :: rows ∧ (∀ raw ∈ before, BlankRow raw) ∧
    ¬ BlankRow header ∧ rowCount = (rows.filter fun raw => ¬ BlankRow raw).length ∧
    CleanScan env csvTimeoutRows schema limits (textReader env limits) (header.map strip)
      (rows.filter fun raw => ¬ BlankRow raw)

/-- The rows of a reader come to a scan of the rows that are not blank; it ends with the fault of
the reader unless it stops before. -/
theorem consumeRows_ends {analysis : Analysis} {rows : List (List Text)} {s : Scan Text} :
    Ends (consumeRows env schema limits analysis fault rows s)
      (s.checkRows env csvTimeoutRows (hardCap schema limits) (textReader env limits) limits
        analysis (rows.filter fun raw => ¬ BlankRow raw)) (fault = none) := by
  induction rows generalizing s with
  | nil =>
    cases fault with
    | none => exact .inl ⟨rfl, .inl rfl⟩
    | some f => exact .inr ⟨s, _, rfl⟩
  | cons raw rows ih =>
    unfold consumeRows
    split
    next hblank =>
      rw [List.filter_cons_of_neg (by simpa using hblank)]
      exact ih
    next hrow =>
      rw [List.filter_cons_of_pos (by simpa using hrow)]
      unfold Scan.checkRows
      dsimp only
      split
      next hstop => exact .inl ⟨rfl, .inr hstop⟩
      next => exact ih

theorem consume_passed {raws : List (List Text)}
    (hpassed : (consume env schema limits fault raws b).passed) :
    CleanCsv env schema limits raws fault
      (consume env schema limits fault raws b).aggregates.rowCount := by
  induction raws with
  | nil =>
    have herrors := errors_of_finalize hpassed
    cases fault with
    | none => exact (Builder.addError_ne_nil _ _ herrors).elim
    | some f => exact (Builder.addError_ne_nil _ _ herrors).elim
  | cons raw raws ih =>
    unfold consume at hpassed ⊢
    split at hpassed
    next hblank =>
      rw [if_pos hblank]
      obtain ⟨hfault, before, header, rows, hraws, hbefore, h⟩ := ih hpassed
      refine ⟨hfault, raw :: before, header, rows, by rw [hraws]; rfl, fun r hr => ?_, h⟩
      rcases List.mem_cons.mp hr with rfl | hr
      · exact hblank
      · exact hbefore r hr
    next hrow =>
      rw [if_neg hrow]
      split at hpassed
      next hheader => exact (analyzeHeader_none hheader hpassed).elim
      next b' analysis hheader =>
        obtain ⟨hfault, hcount, hclean⟩ := clean_of_ends consumeRows_ends hheader hpassed
        exact ⟨hfault, [], raw, raws, rfl, fun _ h => (by cases h), hrow, hcount, hclean⟩

end CsvPassed

/-! ### XLSX -/

/-- A worksheet: the rows that its reader gives, and whether it raises behind them. -/
structure Worksheet where
  name : Text
  visible : Bool
  rows : List (List Cell)
  raises : Bool

section Xlsx

variable (env : Environment) (schema : SubmissionSchema) (limits : ValidationLimits)

/-- `scanRows` over a reader that may raise. -/
def scanRowsUntil (raises : Bool) (analysis : Analysis) :
    ℕ → List (List Cell) → SheetScan → Except Builder SheetScan
  | _, [], s => if raises = true then .error s.scan.builder else .ok s
  | streak, row :: rows, s =>
    let cells := rowCells limits row
    if HasText cells then
      let counted := s.scan.countRow env xlsxTimeoutRows (hardCap schema limits)
      if counted.scanIncomplete = true then .ok { s with scan := counted }
      else
        match countFormulaNulls schema analysis.headerCells 0 cells s.formulaNulls with
        | none => .error counted.builder
        | some formulaNulls =>
          let texts := padTo analysis.headerCells.length (cells.map Cell.text)
          scanRowsUntil raises analysis 0 rows
            ⟨counted.checkRow (textReader env limits) limits analysis texts, formulaNulls⟩
    else if streak + 1 ≥ maxEmptyRowStreak then .ok s
    else scanRowsUntil raises analysis (streak + 1) rows s

/-- `scanSheetFrom` over a reader that may raise. -/
def scanSheetUntil (raises : Bool) :
    ℕ → List (List Cell) → Builder → Except Builder ValidationReport
  | _, [], b =>
    if raises = true then .error b
    else .ok (finalizeScan env schema limits none (@Scan.start Text
      (b.addError (.file .emptyFile none))))
  | streak, row :: rows, b =>
    let cells := rowCells limits row
    if HasText cells then
      match analyzeHeader (headerOf cells) schema limits b with
      | (b, none) => .ok ⟨{ ScanAggregates.empty with
          detectedColumns := (headerOf cells).take limits.maxColumns }, b⟩
      | (b, some analysis) =>
        match scanRowsUntil env schema limits raises analysis 0 rows ⟨Scan.start b, []⟩ with
        | .error b => .error b
        | .ok s => .ok (finalizeScan env schema limits (some analysis)
            { s.scan with builder := formulaWarnings s })
    else if streak + 1 ≥ maxEmptyRowStreak then
      .ok (finalizeScan env schema limits none (@Scan.start Text
        (b.addError (.file .emptyFile none))))
    else scanSheetUntil raises (streak + 1) rows b

def selectSheet (sheets : List Worksheet) : Option Worksheet :=
  match schema.sourceSelector.bind SourceSelector.sheetName with
  | some selector => sheets.find? fun sheet => sheet.name = selector
  | none => sheets.find? fun sheet => sheet.visible

def parseWorkbook (workbook : Option (List Worksheet)) (b : Builder) : ValidationReport :=
  match workbook with
  | none => refuse .malformedXlsx b
  | some sheets =>
    match selectSheet schema sheets with
    | none => refuse .sheetNotFound b
    | some sheet =>
      match scanSheetUntil env schema limits sheet.raises 0 sheet.rows b with
      | .ok report => report
      | .error b => refuse .malformedXlsx b

def validateXlsx (ratioAbove : ℕ → ℕ → Bool) (head : List UInt8) (archive : Option Archive)
    (workbook : Option (List Worksheet)) (b : Builder) : ValidationReport :=
  if head = [] then refuse .emptyFile b
  else if ¬ [80, 75] <+: head then refuse .malformedXlsx b
  else match zipPreflight ratioAbove archive with
    | .error fault => refuse fault b
    | .ok warnings => parseWorkbook env schema limits workbook
        (warnings.foldl (fun b warning => b.addWarning (.file warning none)) b)

end Xlsx

/-- A streak of empty rows ends the data of these rows. -/
def DataEnds (limits : ValidationLimits) : ℕ → List (List Cell) → Prop
  | _, [] => False
  | streak, row :: rows =>
    if HasText (rowCells limits row) then DataEnds limits 0 rows
    else streak + 1 ≥ maxEmptyRowStreak ∨ DataEnds limits (streak + 1) rows

structure CleanSheet (env : Environment) (schema : SubmissionSchema) (limits : ValidationLimits)
    (raises : Bool) (sheet : List (List Cell)) (rowCount : ℕ) : Prop where
  clean : ∃ before header rows, sheet = before ++ header :: rows ∧
    (∀ row ∈ before, ¬ HasText (rowCells limits row)) ∧ HasText (rowCells limits header) ∧
    (raises = true → DataEnds limits 0 rows) ∧ rowCount = (contentRows limits 0 rows).length ∧
    CleanScan env xlsxTimeoutRows schema limits (textReader env limits)
      (headerOf (rowCells limits header)) ((contentRows limits 0 rows).map fun cells =>
        padTo (headerOf (rowCells limits header)).length (cells.map Cell.text))

section XlsxPassed

variable {env : Environment} {schema : SubmissionSchema} {limits : ValidationLimits} {b : Builder}
  {raises : Bool}

/-- A scan that does not raise is one of the rows with a text, up to the end of the data. -/
theorem scanRowsUntil_ok {analysis : Analysis} {streak : ℕ} {rows : List (List Cell)}
    {s s' : SheetScan}
    (hok : scanRowsUntil env schema limits raises analysis streak rows s = .ok s') :
    s'.scan = s.scan.checkRows env xlsxTimeoutRows (hardCap schema limits) (textReader env limits)
      limits analysis ((contentRows limits streak rows).map fun cells =>
        padTo analysis.headerCells.length (cells.map Cell.text)) ∧
    (s'.scan.scanIncomplete = false → raises = true → DataEnds limits streak rows) := by
  induction rows generalizing streak s with
  | nil =>
    unfold scanRowsUntil at hok
    split at hok
    next => cases hok
    next hquiet =>
      obtain rfl := Except.ok.inj hok
      exact ⟨rfl, fun _ h => (hquiet h).elim⟩
  | cons row rows ih =>
    unfold scanRowsUntil at hok
    unfold contentRows DataEnds
    dsimp only at hok
    split at hok
    next htext =>
      rw [if_pos htext, if_pos htext, List.map_cons]
      unfold Scan.checkRows
      dsimp only
      split at hok
      next hstop =>
        obtain rfl := Except.ok.inj hok
        rw [if_pos hstop]
        exact ⟨rfl, fun hend => absurd (hstop.symm.trans hend) (by decide)⟩
      next hgo =>
        rw [if_neg hgo]
        split at hok
        next => cases hok
        next => exact ih hok
    next hblank =>
      rw [if_neg hblank, if_neg hblank]
      split at hok
      next hstreak =>
        obtain rfl := Except.ok.inj hok
        rw [if_pos hstreak]
        exact ⟨rfl, fun _ _ => .inl hstreak⟩
      next hstreak =>
        rw [if_neg hstreak]
        obtain ⟨hscan, hend⟩ := ih hok
        exact ⟨hscan, fun h hraises => .inr (hend h hraises)⟩

theorem scanSheetUntil_passed {streak : ℕ} {rows : List (List Cell)} {report : ValidationReport}
    (hok : scanSheetUntil env schema limits raises streak rows b = .ok report)
    (hpassed : report.passed) :
    CleanSheet env schema limits raises rows report.aggregates.rowCount := by
  have hempty : ¬ (finalizeScan env schema limits none (@Scan.start Text
      (b.addError (.file .emptyFile none)))).passed :=
    fun h => Builder.addError_ne_nil _ _ (errors_of_finalize h)
  induction rows generalizing streak with
  | nil =>
    unfold scanSheetUntil at hok
    split at hok
    next => cases hok
    next =>
      obtain rfl := Except.ok.inj hok
      exact (hempty hpassed).elim
  | cons row rows ih =>
    unfold scanSheetUntil at hok
    dsimp only at hok
    split at hok
    next htext =>
      split at hok
      next hheader =>
        obtain rfl := Except.ok.inj hok
        exact (analyzeHeader_none hheader hpassed).elim
      next b' analysis hheader =>
        split at hok
        next => cases hok
        next s hrows =>
          obtain rfl := Except.ok.inj hok
          obtain ⟨hscan, hend⟩ := scanRowsUntil_ok hrows
          have hclean : (finalizeFindings env schema limits (some analysis) s.scan).errors = [] :=
            (errors_finalizeFindings_congr (errors_formulaWarnings s)).symm.trans hpassed
          obtain ⟨hcleanScan, hcount, hwhole⟩ := cleanScan_of_passed hheader hscan hclean
          rw [List.length_map] at hcount
          rw [analyzeHeader_cells hheader] at hcleanScan
          exact ⟨[], row, rows, rfl, fun _ h => (by cases h), htext, hend hwhole, hcount,
            hcleanScan⟩
    next hblank =>
      split at hok
      next =>
        obtain rfl := Except.ok.inj hok
        exact (hempty hpassed).elim
      next =>
        obtain ⟨before, header, rest, hrows, hbefore, h⟩ := ih hok
        refine ⟨row :: before, header, rest, by rw [hrows]; rfl, fun r hr => ?_, h⟩
        rcases List.mem_cons.mp hr with rfl | hr
        · exact hblank
        · exact hbefore r hr

end XlsxPassed

/-! ### The report of an upload -/

def Builder.blank : Builder := ⟨[], [], false, false⟩

inductive Upload
  | csv (bytes : List UInt8)
  | xlsx (head : List UInt8) (archive : Option Archive) (workbook : Option (List Worksheet))
  | sqlite (head : List UInt8) (db : Option Database)

section Uploads

variable {δ : Type} (lib : CsvLibrary δ) (printer : Printer) (ratioAbove : ℕ → ℕ → Bool)
  (env : Environment) (schema : SubmissionSchema) (limits : ValidationLimits)

def validate : Upload → ValidationReport
  | .csv bytes => validateCsv lib env schema limits bytes .blank
  | .xlsx head archive workbook =>
    validateXlsx env schema limits ratioAbove head archive workbook .blank
  | .sqlite head db => validateSqlite env schema limits printer head db .blank

/-- The upload has a table, it was read to the end of its data, and it has no finding. -/
def Upload.Clean (upload : Upload) (rowCount : ℕ) : Prop :=
  match upload with
  | .csv bytes => ∃ sample dialect, lib.decodeSniff (bytes.take sniffBytes) = some sample ∧
      sniffDialect lib schema sample = some dialect ∧
      CleanCsv env schema limits (lib.read dialect bytes).1 (lib.read dialect bytes).2 rowCount
  | .xlsx _ archive workbook => ∃ a sheets sheet, archive = some a ∧ SafeArchive a ∧
      workbook = some sheets ∧ selectSheet schema sheets = some sheet ∧
      CleanSheet env schema limits sheet.raises sheet.rows rowCount
  | .sqlite _ db => ∃ database listed name table, db = some database ∧
      database.listed = .ok listed ∧ chooseTable schema listed = .ok name ∧
      database.table name = .ok table ∧ CleanTable env schema limits printer table rowCount

variable {lib printer ratioAbove env schema limits}

theorem validateCsv_passed {bytes : List UInt8} {b : Builder}
    (hpassed : (validateCsv lib env schema limits bytes b).passed) :
    (Upload.csv bytes).Clean lib printer env schema limits
      (validateCsv lib env schema limits bytes b).aggregates.rowCount := by
  unfold validateCsv at hpassed ⊢
  split_ifs at hpassed ⊢ with hempty hbinary
  · exact (refuse_fails _ hpassed).elim
  · exact (refuse_fails _ hpassed).elim
  · split at hpassed
    next => exact (refuse_fails _ hpassed).elim
    next sample hsample =>
      split at hpassed
      next => exact (refuse_fails _ hpassed).elim
      next hblank =>
        rw [if_neg hblank]
        split at hpassed
        next => exact (refuse_fails _ hpassed).elim
        next dialect hdialect => exact ⟨sample, dialect, hsample, hdialect, consume_passed hpassed⟩

theorem validateXlsx_passed {head : List UInt8} {archive : Option Archive}
    {workbook : Option (List Worksheet)} {b : Builder}
    (hpassed : (validateXlsx env schema limits ratioAbove head archive workbook b).passed) :
    (Upload.xlsx head archive workbook).Clean lib printer env schema limits
      (validateXlsx env schema limits ratioAbove head archive workbook b).aggregates.rowCount := by
  unfold validateXlsx at hpassed ⊢
  split_ifs at hpassed ⊢ with hempty hzip
  · exact (refuse_fails _ hpassed).elim
  · split at hpassed
    next => exact (refuse_fails _ hpassed).elim
    next warnings hpreflight =>
      obtain ⟨a, rfl, hsafe⟩ := safeArchive_of_ok hpreflight
      unfold parseWorkbook at hpassed ⊢
      split at hpassed
      next => exact (refuse_fails _ hpassed).elim
      next sheets =>
        split at hpassed
        next => exact (refuse_fails _ hpassed).elim
        next sheet hsheet =>
          split at hpassed
          next report hok =>
            exact ⟨a, sheets, sheet, rfl, hsafe, rfl, hsheet, scanSheetUntil_passed hok hpassed⟩
          next => exact (refuse_fails _ hpassed).elim
  · exact (refuse_fails _ hpassed).elim

theorem validateSqlite_passed {head : List UInt8} {db : Option Database} {b : Builder}
    (hpassed : (validateSqlite env schema limits printer head db b).passed) :
    (Upload.sqlite head db).Clean lib printer env schema limits
      (validateSqlite env schema limits printer head db b).aggregates.rowCount := by
  unfold validateSqlite at hpassed ⊢
  split_ifs at hpassed ⊢ with hempty hmagic
  · exact (refuse_fails _ hpassed).elim
  · exact (refuse_fails _ hpassed).elim
  · split at hpassed
    next => exact (refuse_fails _ hpassed).elim
    next database =>
      obtain ⟨listed, name, table, hlisted, hname, htable, hclean⟩ := inspectAndScan_passed hpassed
      exact ⟨database, listed, name, table, rfl, hlisted, hname, htable, hclean⟩

end Uploads

/-- An upload whose report passes was scanned to the end of its data without a cap, a timeout or a
fault, and it is clean; an error beyond the bound of the sample still fails the report. -/
theorem passed_upload_clean {δ : Type} (lib : CsvLibrary δ) (printer : Printer)
    (ratioAbove : ℕ → ℕ → Bool) (env : Environment) (schema : SubmissionSchema)
    (limits : ValidationLimits) (upload : Upload)
    (hpassed : (validate lib printer ratioAbove env schema limits upload).passed) :
    upload.Clean lib printer env schema limits
      (validate lib printer ratioAbove env schema limits upload).aggregates.rowCount ∧
    ∀ (b : Builder) (finding : ValidationFinding) (findings : List ValidationFinding),
      ((b.addError finding).addErrors findings).errors ≠ [] := by
  constructor
  · cases upload with
    | csv bytes => exact validateCsv_passed hpassed
    | xlsx head archive workbook => exact validateXlsx_passed hpassed
    | sqlite head db => exact validateSqlite_passed hpassed
  · intro b finding findings hclean
    exact b.addError_ne_nil finding (Builder.addErrors_eq_nil hclean).1

section Scene

/-- The library on texts of plain characters, without a quote and with one column. -/
def sceneLibrary : CsvLibrary Char where
  decodeSniff bytes := some (bytes.map fun byte => Char.ofNat byte.toNat)
  sniff _ := none
  excel delimiter := delimiter
  headerLine sample := sample.takeWhile (· ≠ '\n')
  read delimiter bytes :=
    (((bytes.map fun byte => Char.ofNat byte.toNat).splitOn '\n').map (·.splitOn delimiter), none)

def scenePrinter : Printer := ⟨fun d => d.value, fun _ => []⟩

/-- The ratio of sizes that are far from the double next to the bound. -/
def sceneRatio (size compressed : ℕ) : Bool := size > 100 * compressed

def sceneUpload : Upload := .csv [97, 10, 49]

def uniqueRule : ColumnRule := { sceneRule with unique := true }

def uniqueSchema : SubmissionSchema :=
  { sceneSchema with
    optionalColumns := [uniqueRule]
    names_nodup := List.nodup_singleton _ }

def uniqueAnalysis : Analysis :=
  ⟨[['a']], planFrom uniqueSchema 0 [['a']], missingColumns uniqueSchema [['a']],
    extraColumns uniqueSchema [['a']]⟩

def lateScan : SheetScan :=
  ⟨((Scan.start .blank).countRow sceneEnv xlsxTimeoutRows
    (hardCap uniqueSchema sceneLimits)).checkRow (textReader sceneEnv sceneLimits) sceneLimits uniqueAnalysis [['1']], []⟩

def lateSheet (rows : List (List Cell)) : Worksheet :=
  ⟨['s'], true, [sceneCell 'a'] :: [sceneCell '1'] :: rows, false⟩

end Scene

theorem scene_upload_clean : sceneUpload.Clean sceneLibrary scenePrinter sceneEnv sceneSchema
    sceneLimits 1 :=
  (passed_upload_clean sceneLibrary scenePrinter sceneRatio sceneEnv sceneSchema sceneLimits
    sceneUpload rfl).1

theorem scanRowsUntil_streak {env : Environment} {schema : SubmissionSchema}
    {limits : ValidationLimits} {raises : Bool} {analysis : Analysis} {n streak : ℕ}
    {rows : List (List Cell)} {s : SheetScan} (hn : n + streak = maxEmptyRowStreak) (hpos : 0 < n) :
    scanRowsUntil env schema limits raises analysis streak (List.replicate n [] ++ rows) s =
      .ok s := by
  induction n generalizing streak with
  | zero => exact absurd hpos (Nat.lt_irrefl 0)
  | succ n ih =>
    have hblank : ¬ HasText (rowCells limits []) := by
      rintro ⟨cell, hcell, _⟩
      rw [show rowCells limits [] = [] by unfold rowCells; rw [List.take_nil]; rfl] at hcell
      cases hcell
    rw [List.replicate_succ, List.cons_append]
    unfold scanRowsUntil
    dsimp only
    rw [if_neg hblank]
    split
    next => rfl
    next hstreak => exact ih (by omega) (by omega)

/-- A sheet passes by its first row, when the rows behind it end the data. -/
theorem late_passed {rows : List (List Cell)}
    (hlate : scanRowsUntil sceneEnv uniqueSchema sceneLimits false uniqueAnalysis 0 rows lateScan =
      .ok lateScan) :
    (validateXlsx sceneEnv uniqueSchema sceneLimits sceneRatio [80, 75] (some ⟨[], []⟩)
      (some [lateSheet rows]) .blank).passed := by
  have hheader : analyzeHeader (headerOf (rowCells sceneLimits [sceneCell 'a'])) uniqueSchema
      sceneLimits .blank = (.blank, some uniqueAnalysis) := rfl
  have hgo : ((Scan.start .blank : Scan Text).countRow sceneEnv xlsxTimeoutRows
      (hardCap uniqueSchema sceneLimits)).scanIncomplete = false := rfl
  have hnulls : countFormulaNulls uniqueSchema uniqueAnalysis.headerCells 0
      (rowCells sceneLimits [sceneCell '1']) [] = some [] := rfl
  have hrows : scanRowsUntil sceneEnv uniqueSchema sceneLimits false uniqueAnalysis 0
      ([sceneCell '1'] :: rows) ⟨Scan.start .blank, []⟩ = .ok lateScan := by
    unfold scanRowsUntil
    dsimp only
    rw [if_pos (by decide), if_neg (by rw [hgo]; exact Bool.false_ne_true), hnulls]
    exact hlate
  have hscan : ∃ report, scanSheetUntil sceneEnv uniqueSchema sceneLimits false 0
      ([sceneCell 'a'] :: [sceneCell '1'] :: rows) .blank = .ok report ∧ report.passed := by
    unfold scanSheetUntil
    dsimp only
    rw [if_pos (by decide), hheader]
    dsimp only
    rw [hrows]
    refine ⟨_, rfl, ?_⟩
    unfold ValidationReport.passed
    decide
  obtain ⟨report, hok, hpassed⟩ := hscan
  have hselect : selectSheet uniqueSchema [lateSheet rows] = some (lateSheet rows) := rfl
  have hmagic : ([80, 75] : List UInt8) <+: [80, 75] := List.prefix_rfl
  have hpreflight : zipPreflight sceneRatio (some ⟨[], []⟩) = .ok [] := by decide
  unfold validateXlsx parseWorkbook
  rw [if_neg (List.cons_ne_nil _ _), if_neg (not_not.mpr hmagic), hpreflight]
  dsimp only
  rw [hselect]
  dsimp only [lateSheet, List.foldl]
  rw [hok]
  exact hpassed

/-- A duplicate behind the streak of empty rows that ends the data. -/
theorem late_duplicate_unread :
    ¬ ∀ (env : Environment) (schema : SubmissionSchema) (limits : ValidationLimits)
      (ratioAbove : ℕ → ℕ → Bool) (head : List UInt8) (archive : Archive) (sheet : Worksheet)
      (header : List Cell) (rows : List (List Cell)), sheet.rows = header :: rows → HasText (rowCells limits header) →
      (validateXlsx env schema limits ratioAbove head (some archive) (some [sheet])
        .blank).passed →
      CleanScan env xlsxTimeoutRows schema limits (textReader env limits)
        (headerOf (rowCells limits header)) (((rows.map (rowCells limits)).filter
          fun cells => HasText cells).map fun cells =>
            padTo (headerOf (rowCells limits header)).length (cells.map Cell.text)) := by
  intro hall
  have hlate : scanRowsUntil sceneEnv uniqueSchema sceneLimits false uniqueAnalysis 0
      (List.replicate 1024 [] ++ [[sceneCell '1']]) lateScan = .ok lateScan :=
    scanRowsUntil_streak rfl (by decide)
  have hclean := hall sceneEnv uniqueSchema sceneLimits sceneRatio [80, 75] ⟨[], []⟩
    (lateSheet (List.replicate 1024 [] ++ [[sceneCell '1']])) [sceneCell 'a'] _ rfl (by decide) ?_
  · rw [List.map_cons, List.map_append, List.map_replicate, List.filter_cons_of_pos (by decide),
      List.filter_append, List.filter_replicate_of_neg (by decide)] at hclean
    exact hclean.unique 0 _ ⟨['a'], rfl, rfl⟩ rfl 0 1 ['1'] (by decide) (by decide) rfl rfl
  · generalize List.replicate 1024 [] ++ [[sceneCell '1']] = rows at hlate
    exact late_passed hlate

end CampusQuest.Validators
