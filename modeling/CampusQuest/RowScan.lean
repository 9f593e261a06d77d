import CampusQuest.SubmissionSchema

/-!
The row scan that the format validators share. A scan carries the findings of its report, bounded
samples of the errors and the warnings, and the exact counts of each column. A scanner says how it
reads the cells; the order of the checks is the same for all of them.
-/

namespace CampusQuest.Validators

open Tasks

def maxFindings : ℕ := 100

def uniqueTrackingCap : ℕ := 100000

def echoMaxLength : ℕ := 64

structure ValidationLimits where
  maxColumns : ℕ
  maxCellLength : ℕ
  rowCap : ℕ
  maxColumns_pos : 0 < maxColumns
  maxCellLength_pos : 0 < maxCellLength
  rowCap_pos : 0 < rowCap

inductive Fault
  | emptyFile
  | invalidEncoding
  | malformedCsv
  | malformedXlsx
  | malformedSqlite
  | binaryContent
  | archiveTooLarge
  | suspiciousArchiveEntry
  | partTooLarge
  | suspiciousCompressionRatio
  | externalLink
  | sheetNotFound
  | tableNotFound
  | ambiguousTable (count : ℕ)
  | tooManyColumns (count limit : ℕ)
  | duplicateHeader (name : Text)
  | missingRequiredColumn (name : Text)
  | extraColumn (name : Text)
  | noDataRows
  | rowShapeMismatch (cells header : ℕ)
  | cellTooLong (limit : ℕ)
  | nullViolation
  | typeError (type : ColumnType)
  | duplicateValue
  | nullRatioExceeded (bound : Ratio)
  | minRowsNotMet (count bound : ℤ)
  | maxRowsExceeded (count bound : ℤ)
  | rowLimitExceeded (cap : ℕ)
  | timeout
  | uniqueTrackingDegraded
  | formulaWithoutCachedValue (count : ℕ)
  | rowCountTruncated
  | findingsTruncated
  deriving DecidableEq

def truncateForReport (value : Text) : Text :=
  if value.length ≤ echoMaxLength then value else value.take echoMaxLength ++ ['…']

structure ValidationFinding where
  fault : Fault
  row : Option ℕ
  column : Option Text
  value : Option Text
  deriving DecidableEq

def ValidationFinding.file (fault : Fault) (column : Option Text) : ValidationFinding :=
  ⟨fault, none, column, none⟩

structure Builder where
  errors : List ValidationFinding
  warnings : List ValidationFinding
  errorsTruncated : Bool
  warningsTruncated : Bool
  deriving DecidableEq

namespace Builder

variable (b : Builder)

def addError (finding : ValidationFinding) : Builder :=
  if b.errors.length ≥ maxFindings then { b with errorsTruncated := true }
  else { b with errors := b.errors ++ [finding] }

def addErrors (findings : List ValidationFinding) : Builder := findings.foldl addError b

def addWarning (finding : ValidationFinding) : Builder :=
  if b.warnings.length ≥ maxFindings then { b with warningsTruncated := true }
  else { b with warnings := b.warnings ++ [finding] }

/-- An error that is added leaves the report with an error, recorded or not. -/
theorem addError_ne_nil (finding : ValidationFinding) : (b.addError finding).errors ≠ [] := by
  unfold addError
  split
  next hfull =>
    intro hnil
    rw [show b.errors = [] from hnil] at hfull
    exact absurd hfull (by decide)
  next => exact List.append_ne_nil_of_right_ne_nil _ (List.cons_ne_nil _ _)

@[simp] theorem addWarning_errors (finding : ValidationFinding) :
    (b.addWarning finding).errors = b.errors := by
  unfold addWarning
  split <;> rfl

theorem errors_prefix_addError (finding : ValidationFinding) :
    b.errors <+: (b.addError finding).errors := by
  unfold addError
  split
  · exact List.prefix_rfl
  · exact List.prefix_append _ _

theorem errors_prefix_addErrors (findings : List ValidationFinding) :
    b.errors <+: (b.addErrors findings).errors := by
  induction findings generalizing b with
  | nil => exact List.prefix_rfl
  | cons finding findings ih =>
    exact (b.errors_prefix_addError finding).trans (ih (b.addError finding))

/-- What is recorded of an error depends on the errors only. -/
theorem addError_congr {b b' : Builder} (h : b.errors = b'.errors) (finding : ValidationFinding) :
    (b.addError finding).errors = (b'.addError finding).errors := by
  unfold addError
  rw [h]
  split <;> rfl

end Builder

/-! ### Cell types -/

/-- What a scan takes from its run: the standard library and the clock. -/
structure Environment where
  /-- `datetime.fromisoformat` accepts the text. -/
  fromisoformat : Text → Bool
  /-- `null_count / row_count > max_null_ratio`, in floating point. -/
  ratioExceeded : ℕ → ℕ → Ratio → Bool
  /-- The time limit has passed when the row of this number is counted. -/
  late : ℕ → Bool

def isDigits (t : Text) : Bool := t ≠ [] ∧ t.all Char.isDigit

def unsigned : Text → Text
  | '+' :: t => t
  | '-' :: t => t
  | t => t

def isInteger (t : Text) : Bool := isDigits (unsigned t)

def isDecimal (t : Text) : Bool :=
  match t.dropWhile Char.isDigit with
  | [] => t ≠ []
  | '.' :: fraction => fraction.all Char.isDigit ∧ (fraction ≠ [] ∨ t.takeWhile Char.isDigit ≠ [])
  | _ => false

def isNumber (t : Text) : Bool :=
  let mantissa := (unsigned t).takeWhile fun c => c ≠ 'e' ∧ c ≠ 'E'
  let exponent := (unsigned t).dropWhile fun c => c ≠ 'e' ∧ c ≠ 'E'
  isDecimal mantissa ∧ (exponent = [] ∨ isInteger exponent.tail)

/-- `_BOOLEAN_LITERALS`. No letter outside of ASCII has the lower case of one of theirs. -/
def booleanLiterals : List Text :=
  ["true".toList, "false".toList, "1".toList, "0".toList, "yes".toList, "no".toList]

def checkCellType (env : Environment) (value : Text) : ColumnType → Bool
  | .string => true
  | .integer => isInteger value
  | .number => isNumber value
  | .boolean => value.map Char.toLower ∈ booleanLiterals
  | .datetime => env.fromisoformat value

/-! ### The header -/

def columns (schema : SubmissionSchema) : List ColumnRule :=
  schema.requiredColumns ++ schema.optionalColumns

structure Analysis where
  headerCells : List Text
  plan : List (ℕ × ColumnRule)
  missing : List Text
  extra : List Text

def repeated : List Text → List Text → List Text
  | _, [] => []
  | seen, name :: names =>
    if name ∈ seen then name :: repeated seen names else repeated (name :: seen) names

def planFrom (schema : SubmissionSchema) : ℕ → List Text → List (ℕ × ColumnRule)
  | _, [] => []
  | index, name :: names =>
    match schema.column name with
    | some rule => (index, rule) :: planFrom schema (index + 1) names
    | none => planFrom schema (index + 1) names

def missingColumns (schema : SubmissionSchema) (headerCells : List Text) : List Text :=
  (schema.requiredColumns.map ColumnRule.name).filter (· ∉ headerCells)

def extraColumns (schema : SubmissionSchema) (headerCells : List Text) : List Text :=
  headerCells.eraseDups.filter fun name => schema.column name = none

def headerErrors (schema : SubmissionSchema) (headerCells : List Text) : List ValidationFinding :=
  ((repeated [] headerCells).map fun name => .file (.duplicateHeader name) (some name)) ++
    ((missingColumns schema headerCells).map fun name =>
      .file (.missingRequiredColumn name) (some name)) ++
    if schema.allowExtraColumns = true then []
    else (extraColumns schema headerCells).map fun name => .file (.extraColumn name) (some name)

/-- `analyze_header`: nothing, when the column cap aborted. -/
def analyzeHeader (headerCells : List Text) (schema : SubmissionSchema) (limits : ValidationLimits)
    (b : Builder) : Builder × Option Analysis :=
  if headerCells.length > limits.maxColumns then
    (b.addError (.file (.tooManyColumns headerCells.length limits.maxColumns) none), none)
  else (b.addErrors (headerErrors schema headerCells),
    some ⟨headerCells, planFrom schema 0 headerCells, missingColumns schema headerCells,
      extraColumns schema headerCells⟩)

theorem analyzeHeader_within {headerCells : List Text} {schema : SubmissionSchema}
    {limits : ValidationLimits} {b : Builder} (h : headerCells.length ≤ limits.maxColumns) :
    ∃ analysis, analyzeHeader headerCells schema limits b =
        (b.addErrors (headerErrors schema headerCells), some analysis) ∧
      analysis.headerCells = headerCells ∧ analysis.plan = planFrom schema 0 headerCells :=
  ⟨_, if_neg (not_lt.mpr h), rfl, rfl⟩

/-! ### The rows -/

/-- What a scanner has counted. The values seen of a column are those of its set. -/
structure Scan (κ : Type) where
  builder : Builder
  rowCount : ℕ
  scanIncomplete : Bool
  nullCounts : Text → ℕ
  typeErrors : Text → ℕ
  duplicateCounts : Text → ℕ
  uniqueSeen : Text → List κ
  degradedColumns : List Text

structure CellReader (ν κ : Type) where
  tooLong : ν → Bool
  isNull : ν → Bool
  hasType : ν → ColumnType → Bool
  uniqueKey : ν → κ
  display : ν → Text

def textReader (env : Environment) (limits : ValidationLimits) : CellReader Text Text where
  tooLong cell := limits.maxCellLength < cell.length
  isNull cell := strip cell = []
  hasType cell := checkCellType env (strip cell)
  uniqueKey := strip
  display := strip

def increment (counts : Text → ℕ) (name : Text) : Text → ℕ :=
  Function.update counts name (counts name + 1)

/-- `min(limits.row_cap, schema.max_rows + 1)`. -/
def hardCap (schema : SubmissionSchema) (limits : ValidationLimits) : ℕ :=
  match schema.maxRows with
  | none => limits.rowCap
  | some maxRows => min limits.rowCap (maxRows.1.toNat + 1)

namespace Scan

variable {ν κ : Type} [DecidableEq κ] (s : Scan κ)

def start (b : Builder) : Scan κ :=
  ⟨b, 0, false, fun _ => 0, fun _ => 0, fun _ => 0, fun _ => [], []⟩

def addError (finding : ValidationFinding) : Scan κ :=
  { s with builder := s.builder.addError finding }

def addNull (rule : ColumnRule) (row : ℕ) : Scan κ :=
  let s := { s with nullCounts := increment s.nullCounts rule.name }
  if rule.nullable = true then s else s.addError ⟨.nullViolation, some row, some rule.name, none⟩

def addTypeError (rule : ColumnRule) (row : ℕ) (display : Text) : Scan κ :=
  { s with typeErrors := increment s.typeErrors rule.name }.addError
    ⟨.typeError rule.type, some row, some rule.name, some (truncateForReport display)⟩

def track (rule : ColumnRule) (row : ℕ) (key : κ) (display : Text) : Scan κ :=
  if key ∈ s.uniqueSeen rule.name then
    { s with duplicateCounts := increment s.duplicateCounts rule.name }.addError
      ⟨.duplicateValue, some row, some rule.name, some (truncateForReport display)⟩
  else if rule.name ∈ s.degradedColumns then s
  else if (s.uniqueSeen rule.name).length ≥ uniqueTrackingCap then
    { s with
      degradedColumns := rule.name :: s.degradedColumns
      builder := s.builder.addWarning (.file .uniqueTrackingDegraded (some rule.name)) }
  else { s with
    uniqueSeen := Function.update s.uniqueSeen rule.name (key :: s.uniqueSeen rule.name) }

/-- One cell: its length, its null, its type and its uniqueness, in this order. -/
def checkCell (reader : CellReader ν κ) (limits : ValidationLimits) (row : ℕ) (rule : ColumnRule)
    (cell : ν) : Scan κ :=
  if reader.tooLong cell = true then
    s.addError ⟨.cellTooLong limits.maxCellLength, some row, some rule.name, none⟩
  else if reader.isNull cell = true then s.addNull rule row
  else
    let s := if reader.hasType cell rule.type = true then s
      else s.addTypeError rule row (reader.display cell)
    if rule.unique = true then s.track rule row (reader.uniqueKey cell) (reader.display cell)
    else s

/-- The cells of a plan; a row that is too short ends it. -/
def checkCells (reader : CellReader ν κ) (limits : ValidationLimits) (row : ℕ) (cells : List ν) :
    List (ℕ × ColumnRule) → Scan κ → Scan κ
  | [], s => s
  | (index, rule) :: plan, s =>
    match cells[index]? with
    | none => s
    | some cell => checkCells reader limits row cells plan (s.checkCell reader limits row rule cell)

def checkRow (reader : CellReader ν κ) (limits : ValidationLimits) (analysis : Analysis)
    (cells : List ν) : Scan κ :=
  checkCells reader limits s.rowCount cells analysis.plan
    (if cells.length = analysis.headerCells.length then s
      else s.addError ⟨.rowShapeMismatch cells.length analysis.headerCells.length,
        some s.rowCount, none, none⟩)

/-- A data row is counted: behind the cap, or late at a check of the clock, the scan stops. -/
def countRow (env : Environment) (period cap : ℕ) : Scan κ :=
  let s := { s with rowCount := s.rowCount + 1 }
  if s.rowCount > cap then { s with scanIncomplete := true }
  else if s.rowCount % period = 0 ∧ env.late s.rowCount = true then
    { s.addError (.file .timeout none) with scanIncomplete := true }
  else s

def checkRows (env : Environment) (period cap : ℕ) (reader : CellReader ν κ)
    (limits : ValidationLimits) (analysis : Analysis) : List (List ν) → Scan κ → Scan κ
  | [], s => s
  | cells :: rows, s =>
    let counted := s.countRow env period cap
    if counted.scanIncomplete = true then counted
    else checkRows env period cap reader limits analysis rows
      (counted.checkRow reader limits analysis cells)

end Scan

def Stops (env : Environment) (period cap row : ℕ) : Prop :=
  row > cap ∨ row % period = 0 ∧ env.late row = true

instance (env : Environment) (period cap row : ℕ) : Decidable (Stops env period cap row) :=
  inferInstanceAs (Decidable (_ ∨ _ ∧ _))

def beforeStop {ρ : Type} (env : Environment) (period cap : ℕ) : ℕ → List ρ → List ρ
  | _, [] => []
  | count, row :: rows =>
    if Stops env period cap (count + 1) then []
    else row :: beforeStop env period cap (count + 1) rows

theorem mem_of_mem_beforeStop {ρ : Type} {env : Environment} {period cap count : ℕ}
    {rows : List ρ} {row : ρ} (h : row ∈ beforeStop env period cap count rows) : row ∈ rows := by
  induction rows generalizing count with
  | nil => cases h
  | cons first rows ih =>
    unfold beforeStop at h
    split at h
    · cases h
    · rcases List.mem_cons.mp h with rfl | h
      · exact List.mem_cons_self ..
      · exact List.mem_cons_of_mem _ (ih h)

/-! ### The end of a scan -/

structure ScanAggregates where
  rowCount : ℕ
  detectedColumns : List Text
  missingRequiredColumns : List Text
  extraColumns : List Text
  typeErrorCounts : List (Text × ℕ)
  /-- The nulls of each column, which `null_ratios` divides by the rows. -/
  nullCounts : List (Text × ℕ)
  duplicateCounts : List (Text × ℕ)
  deriving DecidableEq

def ScanAggregates.empty : ScanAggregates := ⟨0, [], [], [], [], [], []⟩

structure ValidationReport where
  aggregates : ScanAggregates
  builder : Builder

def ValidationReport.passed (report : ValidationReport) : Prop := report.builder.errors = []

def planNames (plan : List (ℕ × ColumnRule)) : List Text :=
  (plan.map fun entry => entry.2.name).eraseDups

section Rows

variable {ν κ : Type} {env : Environment} {period cap : ℕ} (s : Scan κ)

namespace Scan

@[simp] theorem rowCount_countRow : (s.countRow env period cap).rowCount = s.rowCount + 1 := by
  unfold countRow
  dsimp only
  split_ifs <;> rfl

/-- A row that is counted stops the scan exactly when its number does. -/
theorem countRow_incomplete (hs : s.scanIncomplete = false) :
    (s.countRow env period cap).scanIncomplete = true ↔ Stops env period cap (s.rowCount + 1) := by
  unfold countRow Stops
  dsimp only
  split_ifs with hcap hlate
  · exact iff_of_true rfl (.inl hcap)
  · exact iff_of_true rfl (.inr hlate)
  · refine iff_of_false ?_ (not_or.mpr ⟨hcap, hlate⟩)
    rw [hs]
    exact Bool.false_ne_true

/-- The checks of a row neither count nor stop. -/
structure SameProgress (s s' : Scan κ) : Prop where
  rowCount : s'.rowCount = s.rowCount
  scanIncomplete : s'.scanIncomplete = s.scanIncomplete

variable [DecidableEq κ]

theorem sameProgress_checkCell (reader : CellReader ν κ) (limits : ValidationLimits) (row : ℕ)
    (rule : ColumnRule) (cell : ν) : s.SameProgress (s.checkCell reader limits row rule cell) := by
  unfold checkCell addNull track
  dsimp only
  split_ifs <;> exact ⟨rfl, rfl⟩

theorem sameProgress_checkCells (reader : CellReader ν κ) (limits : ValidationLimits) (row : ℕ)
    (cells : List ν) (plan : List (ℕ × ColumnRule)) :
    s.SameProgress (checkCells reader limits row cells plan s) := by
  induction plan generalizing s with
  | nil => exact ⟨rfl, rfl⟩
  | cons entry plan ih =>
    unfold checkCells
    split
    next => exact ⟨rfl, rfl⟩
    next cell _ =>
      have hcell := s.sameProgress_checkCell reader limits row entry.2 cell
      have hrest := ih (s.checkCell reader limits row entry.2 cell)
      exact ⟨hrest.rowCount.trans hcell.rowCount, hrest.scanIncomplete.trans hcell.scanIncomplete⟩

theorem sameProgress_checkRow (reader : CellReader ν κ) (limits : ValidationLimits)
    (analysis : Analysis) (cells : List ν) :
    s.SameProgress (s.checkRow reader limits analysis cells) := by
  unfold checkRow
  split
  · exact s.sameProgress_checkCells reader limits s.rowCount cells analysis.plan
  · exact ⟨(sameProgress_checkCells _ reader limits _ cells analysis.plan).rowCount,
      (sameProgress_checkCells _ reader limits _ cells analysis.plan).scanIncomplete⟩

end Scan

end Rows

section Finalize

variable {κ : Type} (env : Environment) (schema : SubmissionSchema) (limits : ValidationLimits)

def ratioErrors (plan : List (ℕ × ColumnRule)) (s : Scan κ) : List ValidationFinding :=
  (columns schema).filterMap fun rule =>
    match rule.maxNullRatio with
    | none => none
    | some bound =>
      if rule.name ∈ planNames plan ∧ s.rowCount ≠ 0 ∧
          env.ratioExceeded (s.nullCounts rule.name) s.rowCount bound = true then
        some (.file (.nullRatioExceeded bound) (some rule.name))
      else none

def completeErrors (header : Option Analysis) (s : Scan κ) : List ValidationFinding :=
  (if s.rowCount = 0 ∧ header.isSome = true then [.file .noDataRows none] else []) ++
    match schema.minRows with
    | some minRows =>
      if (s.rowCount : ℤ) < minRows.1 then [.file (.minRowsNotMet s.rowCount minRows.1) none] else []
    | none => []

/-- A count behind `max_rows` is conclusive in any case. -/
def maxRowsErrors (s : Scan κ) : List ValidationFinding :=
  match schema.maxRows with
  | some maxRows =>
    if maxRows.1 < (s.rowCount : ℤ) then [.file (.maxRowsExceeded s.rowCount maxRows.1) none] else []
  | none => []

def planOf (header : Option Analysis) : List (ℕ × ColumnRule) := header.elim [] Analysis.plan

def finalizeFindings (header : Option Analysis) (s : Scan κ) : Builder :=
  if s.scanIncomplete = true then
    let b := s.builder.addWarning (.file .rowCountTruncated none)
    let b := if s.rowCount > limits.rowCap then
      b.addError (.file (.rowLimitExceeded limits.rowCap) none) else b
    b.addErrors (maxRowsErrors schema s)
  else ((s.builder.addErrors (ratioErrors env schema (planOf header) s)).addErrors
    (completeErrors schema header s)).addErrors (maxRowsErrors schema s)

def finalizeScan (header : Option Analysis) (s : Scan κ) : ValidationReport where
  aggregates :=
    { rowCount := s.rowCount
      detectedColumns := header.elim [] Analysis.headerCells
      missingRequiredColumns := header.elim [] Analysis.missing
      extraColumns := header.elim [] Analysis.extra
      typeErrorCounts := (planNames (planOf header)).map fun name => (name, s.typeErrors name)
      nullCounts := (planNames (planOf header)).map fun name => (name, s.nullCounts name)
      duplicateCounts := ((columns schema).filter fun rule =>
        rule.unique = true ∧ rule.name ∈ planNames (planOf header)).map fun rule =>
          (rule.name, s.duplicateCounts rule.name) }
  builder := finalizeFindings env schema limits header s

end Finalize

end CampusQuest.Validators
