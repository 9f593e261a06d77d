import CampusQuest.CleanScan
import CampusQuest.UniqueKeys

/-!
The scan of a SQLite table. The values come by their storage classes, so the checks of a cell read
them and not their texts. A statement may fail behind any row, and the scan keeps what it has
counted.
-/

namespace CampusQuest.Validators

open Tasks Doubles

def sqliteTimeoutRows : ℕ := 1024

def maxIdentifier : ℕ := 1024

inductive StorageValue
  | null
  | value (v : SqliteValue)
  | infinite (negative : Bool)

inductive StorageKey
  | nothing
  | finite (key : UniqueKey)
  | infinite (negative : Bool)
  deriving DecidableEq

structure Printer where
  /-- `Decimal(str(value))` of a finite real. -/
  str : Double → ℚ
  /-- `_display` of a value. -/
  display : StorageValue → Text

def valueMatches (env : Environment) : StorageValue → ColumnType → Bool
  | .null, _ => false
  | .value (.blob _), _ => false
  | .value (.text value), type => checkCellType env (strip value) type
  | .value (.number (.integer n)), type =>
    match type with
    | .string | .integer | .number => true
    | .boolean => n.1 = 0 ∨ n.1 = 1
    | .datetime => false
  | .value (.number (.real d)), type =>
    match type with
    | .string | .number => true
    | .integer => d.value.den = 1
    | .boolean | .datetime => false
  | .infinite _, type => type = .string

def storageReader (env : Environment) (limits : ValidationLimits) (printer : Printer) :
    CellReader StorageValue StorageKey where
  tooLong
    | .value (.text value) => limits.maxCellLength < value.length
    | .value (.blob bytes) => limits.maxCellLength < bytes.length
    | _ => false
  isNull
    | .null => true
    | .value (.text value) => strip value = []
    | _ => false
  hasType := valueMatches env
  uniqueKey
    | .null => .nothing
    | .value v => .finite (uniqueKey printer.str v)
    | .infinite negative => .infinite negative
  display := printer.display

/-- A `sqlite3.Error`: of the interrupt when the budget is spent, of a text, or any other. -/
inductive SqliteFault
  | interrupted
  | encoding
  | corrupt
  deriving DecidableEq, Repr

def SqliteFault.fault : SqliteFault → Fault
  | .interrupted => .timeout
  | .encoding => .invalidEncoding
  | .corrupt => .malformedSqlite

def SqliteFault.early : SqliteFault → Fault
  | .interrupted => .timeout
  | _ => .malformedSqlite

/-- The columns of a table by `PRAGMA table_info`, and the rows of its statement until it ends. -/
structure DataTable where
  names : List Text
  rows : List (List StorageValue)
  fault : Option SqliteFault
  width : ∀ values ∈ rows, values.length = names.length

/-- What the connection answers: the names of the tables, and a table. -/
structure Database where
  listed : Except SqliteFault (List Text)
  table : Text → Except SqliteFault DataTable

section Scan

variable (env : Environment) (schema : SubmissionSchema) (limits : ValidationLimits)
  (printer : Printer)

def scanTableRows (analysis : Analysis) (fault : Option SqliteFault) :
    List (List StorageValue) → Scan StorageKey → Scan StorageKey
  | [], s =>
    match fault with
    | none => s
    | some fault => { s.addError (.file fault.fault none) with scanIncomplete := true }
  | values :: rows, s =>
    let counted := s.countRow env sqliteTimeoutRows (hardCap schema limits)
    if counted.scanIncomplete = true then counted
    else scanTableRows analysis fault rows
      (Scan.checkCells (storageReader env limits printer) limits counted.rowCount values
        analysis.plan counted)

/-- An early return: one error and empty aggregates. -/
def refuse (fault : Fault) (b : Builder) : ValidationReport :=
  ⟨.empty, b.addError (.file fault none)⟩

def Quotable (name : Text) : Prop :=
  name ≠ [] ∧ Char.ofNat 0 ∉ name ∧ name.length ≤ maxIdentifier

instance (name : Text) : Decidable (Quotable name) :=
  inferInstanceAs (Decidable (_ ∧ _ ∧ _))

/-- `_is_system_table`. No letter outside of ASCII has the lower case of one of the six. -/
def isSystemTable (name : Text) : Bool :=
  name.length > 6 ∧ (name.take 6).map Char.toLower = "sqlite".toList

def chooseTable (listed : List Text) : Except Fault Text :=
  let names := listed.filter fun name => ¬ isSystemTable name
  match schema.sourceSelector.bind SourceSelector.tableName with
  | some selector => if selector ∈ names then .ok selector else .error .tableNotFound
  | none =>
    match names with
    | [] => .error .tableNotFound
    | [name] => .ok name
    | _ => .error (.ambiguousTable names.length)

def scanTable (table : DataTable) (b : Builder) : ValidationReport :=
  match analyzeHeader (table.names.map strip) schema limits b with
  | (b, none) => ⟨{ ScanAggregates.empty with
      detectedColumns := (table.names.map strip).take limits.maxColumns }, b⟩
  | (b, some analysis) => finalizeScan env schema limits (some analysis)
      (scanTableRows env schema limits printer analysis table.fault table.rows (Scan.start b))

def inspectAndScan (db : Database) (b : Builder) : ValidationReport :=
  match db.listed with
  | .error fault => refuse fault.early b
  | .ok listed =>
    match chooseTable schema listed with
    | .error fault => refuse fault b
    | .ok name =>
      if Quotable name then
        match db.table name with
        | .error fault => refuse fault.early b
        | .ok table =>
          if table.names = [] ∨ ∃ column ∈ table.names, ¬ Quotable column then
            refuse .malformedSqlite b
          else scanTable env schema limits printer table b
      else refuse .malformedSqlite b

def sqliteMagic : List UInt8 :=
  ("SQLite format 3".toList.map fun c => c.toNat.toUInt8) ++ [0]

/-- `validate_sqlite`, for the first bytes of the file and the database that they open. -/
def validateSqlite (head : List UInt8) (db : Option Database) (b : Builder) : ValidationReport :=
  if head = [] then refuse .emptyFile b
  else if head ≠ sqliteMagic then refuse .malformedSqlite b
  else match db with
    | none => refuse .malformedSqlite b
    | some db => inspectAndScan env schema limits printer db b

end Scan

section Passed

variable {env : Environment} {schema : SubmissionSchema} {limits : ValidationLimits}
  {printer : Printer} {b : Builder}

theorem refuse_fails (fault : Fault) : ¬ (refuse fault b).passed := Builder.addError_ne_nil _ _

/-- The rows of a table have the width of its columns, so that a scan of them is one of the shared
loop; it ends with the fault of the statement unless it stops before. -/
theorem scanTableRows_ends {analysis : Analysis} {fault : Option SqliteFault}
    {rows : List (List StorageValue)} {s : Scan StorageKey}
    (hwidth : ∀ values ∈ rows, values.length = analysis.headerCells.length) :
    Ends (scanTableRows env schema limits printer analysis fault rows s)
      (s.checkRows env sqliteTimeoutRows (hardCap schema limits) (storageReader env limits printer)
        limits analysis rows) (fault = none) := by
  induction rows generalizing s with
  | nil =>
    cases fault with
    | none => exact .inl ⟨rfl, .inl rfl⟩
    | some f => exact .inr ⟨s, _, rfl⟩
  | cons values rows ih =>
    unfold scanTableRows Scan.checkRows
    dsimp only
    split
    next hstop => exact .inl ⟨rfl, .inr hstop⟩
    next =>
      have hrow : ∀ counted : Scan StorageKey,
          counted.checkRow (storageReader env limits printer) limits analysis values =
            Scan.checkCells (storageReader env limits printer) limits counted.rowCount values
              analysis.plan counted := by
        intro counted
        unfold Scan.checkRow
        rw [if_pos (hwidth values (List.mem_cons_self ..))]
      rw [hrow]
      exact ih fun v hv => hwidth v (List.mem_cons_of_mem _ hv)

structure CleanTable (env : Environment) (schema : SubmissionSchema) (limits : ValidationLimits)
    (printer : Printer) (table : DataTable) (rowCount : ℕ) : Prop where
  fault : table.fault = none
  rowCount : rowCount = table.rows.length
  clean : CleanScan env sqliteTimeoutRows schema limits (storageReader env limits printer)
    (table.names.map strip) table.rows

theorem cleanTable_of_passed {table : DataTable}
    (hpassed : (scanTable env schema limits printer table b).passed) :
    CleanTable env schema limits printer table
      (scanTable env schema limits printer table b).aggregates.rowCount := by
  unfold scanTable at hpassed ⊢
  split at hpassed
  next hheader => exact (analyzeHeader_none hheader hpassed).elim
  next b' analysis hheader =>
    have hwidth : ∀ values ∈ table.rows, values.length = analysis.headerCells.length := by
      intro values hmem
      rw [analyzeHeader_cells hheader, List.length_map]
      exact table.width values hmem
    obtain ⟨hfault, hcount, hclean⟩ := clean_of_ends (scanTableRows_ends hwidth) hheader hpassed
    exact ⟨hfault, hcount, hclean⟩

theorem inspectAndScan_passed {db : Database}
    (hpassed : (inspectAndScan env schema limits printer db b).passed) :
    ∃ listed name table, db.listed = .ok listed ∧ chooseTable schema listed = .ok name ∧
      db.table name = .ok table ∧ CleanTable env schema limits printer table
        (inspectAndScan env schema limits printer db b).aggregates.rowCount := by
  unfold inspectAndScan at hpassed ⊢
  split at hpassed
  next => exact (refuse_fails _ hpassed).elim
  next listed hlisted =>
    split at hpassed
    next => exact (refuse_fails _ hpassed).elim
    next name hname =>
      split at hpassed
      next hquotable =>
        split at hpassed
        next => exact (refuse_fails _ hpassed).elim
        next table htable =>
          split at hpassed
          next => exact (refuse_fails _ hpassed).elim
          next hcolumns =>
            refine ⟨listed, name, table, hlisted, hname, htable, ?_⟩
            rw [if_pos hquotable, if_neg hcolumns]
            exact cleanTable_of_passed hpassed
      next => exact (refuse_fails _ hpassed).elim

end Passed

end CampusQuest.Validators
