import CampusQuest.RowScan

/-!
The scan of the rows of a CSV reader. A row of blank cells is no row; the reader may fail behind
any row, and the scan then keeps what it has counted.
-/

namespace CampusQuest.Validators

open Tasks

def csvTimeoutRows : ℕ := 4096

/-- How the reader fails: `csv.Error` or `UnicodeDecodeError`. -/
inductive ReaderFault
  | malformed
  | encoding
  deriving DecidableEq, Repr

def ReaderFault.fault : ReaderFault → Fault
  | .malformed => .malformedCsv
  | .encoding => .invalidEncoding

def BlankRow (raw : List Text) : Prop := ∀ cell ∈ raw, strip cell = []

instance (raw : List Text) : Decidable (BlankRow raw) :=
  inferInstanceAs (Decidable (∀ cell ∈ raw, strip cell = []))

def Scan.endOfRows (s : Scan Text) : Option ReaderFault → Scan Text
  | none => s
  | some fault => { s.addError (.file fault.fault none) with scanIncomplete := true }

section Consume

variable (env : Environment) (schema : SubmissionSchema) (limits : ValidationLimits)

def consumeRows (analysis : Analysis) (fault : Option ReaderFault) :
    List (List Text) → Scan Text → Scan Text
  | [], s => s.endOfRows fault
  | raw :: rows, s =>
    if BlankRow raw then consumeRows analysis fault rows s
    else
      let counted := s.countRow env csvTimeoutRows (hardCap schema limits)
      if counted.scanIncomplete = true then counted
      else consumeRows analysis fault rows
        (counted.checkRow (textReader env limits) limits analysis raw)

def consume (fault : Option ReaderFault) : List (List Text) → Builder → ValidationReport
  | [], b =>
    finalizeScan env schema limits none (match fault with
      | none => @Scan.start Text (b.addError (.file .emptyFile none))
      | some _ => (Scan.start b).endOfRows fault)
  | raw :: rows, b =>
    if BlankRow raw then consume fault rows b
    else match analyzeHeader (raw.map strip) schema limits b with
      | (b, none) => ⟨{ ScanAggregates.empty with
          detectedColumns := (raw.map strip).take limits.maxColumns }, b⟩
      | (b, some analysis) => finalizeScan env schema limits (some analysis)
          (consumeRows env schema limits analysis fault rows (Scan.start b))

end Consume

/-- Without a fault the scan checks the rows that are not blank. -/
theorem consumeRows_eq {env : Environment} {schema : SubmissionSchema} {limits : ValidationLimits}
    {analysis : Analysis} {rows : List (List Text)} {s : Scan Text} :
    consumeRows env schema limits analysis none rows s =
      s.checkRows env csvTimeoutRows (hardCap schema limits) (textReader env limits) limits analysis
        (rows.filter fun raw => ¬ BlankRow raw) := by
  induction rows generalizing s with
  | nil => rfl
  | cons raw rows ih =>
    unfold consumeRows
    split
    next hblank =>
      rw [List.filter_cons_of_neg (by simpa using hblank)]
      exact ih
    next hrow =>
      rw [List.filter_cons_of_pos (by simpa using hrow)]
      unfold Scan.checkRows
      dsimp only
      rw [ih]

end CampusQuest.Validators
