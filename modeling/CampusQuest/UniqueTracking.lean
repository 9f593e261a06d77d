import CampusQuest.CleanScan
import CampusQuest.Tallies
import CampusQuest.WorksheetBounds

/-!
The uniqueness accounts of a scan under any tracking cap. The cells of a column that are neither
overlong nor empty are tallied, in the order in which the scan meets them, and what the scan counts
of the column is their tally.
-/

namespace CampusQuest.Validators

open Tasks

variable {ν κ : Type} [DecidableEq κ]

namespace Scan

def trackAt (cap : ℕ) (s : Scan κ) (rule : ColumnRule) (row : ℕ) (key : κ) (display : Text) :
    Scan κ :=
  if key ∈ s.uniqueSeen rule.name then
    { s with duplicateCounts := increment s.duplicateCounts rule.name }.addError
      ⟨.duplicateValue, some row, some rule.name, some (truncateForReport display)⟩
  else if rule.name ∈ s.degradedColumns then s
  else if (s.uniqueSeen rule.name).length ≥ cap then
    { s with
      degradedColumns := rule.name :: s.degradedColumns
      builder := s.builder.addWarning (.file .uniqueTrackingDegraded (some rule.name)) }
  else { s with
    uniqueSeen := Function.update s.uniqueSeen rule.name (key :: s.uniqueSeen rule.name) }

def checkCellAt (cap : ℕ) (s : Scan κ) (reader : CellReader ν κ) (limits : ValidationLimits)
    (row : ℕ) (rule : ColumnRule) (cell : ν) : Scan κ :=
  if reader.tooLong cell = true then
    s.addError ⟨.cellTooLong limits.maxCellLength, some row, some rule.name, none⟩
  else if reader.isNull cell = true then s.addNull rule row
  else
    let s := if reader.hasType cell rule.type = true then s
      else s.addTypeError rule row (reader.display cell)
    if rule.unique = true then
      s.trackAt cap rule row (reader.uniqueKey cell) (reader.display cell)
    else s

def checkCellsAt (cap : ℕ) (reader : CellReader ν κ) (limits : ValidationLimits) (row : ℕ)
    (cells : List ν) : List (ℕ × ColumnRule) → Scan κ → Scan κ
  | [], s => s
  | (index, rule) :: plan, s =>
    match cells[index]? with
    | none => s
    | some cell =>
      checkCellsAt cap reader limits row cells plan (s.checkCellAt cap reader limits row rule cell)

def checkRowAt (cap : ℕ) (s : Scan κ) (reader : CellReader ν κ) (limits : ValidationLimits)
    (analysis : Analysis) (cells : List ν) : Scan κ :=
  checkCellsAt cap reader limits s.rowCount cells analysis.plan
    (if cells.length = analysis.headerCells.length then s
      else s.addError ⟨.rowShapeMismatch cells.length analysis.headerCells.length,
        some s.rowCount, none, none⟩)

def checkRowsAt (cap : ℕ) (env : Environment) (period rowCap : ℕ) (reader : CellReader ν κ)
    (limits : ValidationLimits) (analysis : Analysis) : List (List ν) → Scan κ → Scan κ
  | [], s => s
  | cells :: rows, s =>
    let counted := s.countRow env period rowCap
    if counted.scanIncomplete = true then counted
    else checkRowsAt cap env period rowCap reader limits analysis rows
      (counted.checkRowAt cap reader limits analysis cells)

theorem checkCellsAt_default (reader : CellReader ν κ) (limits : ValidationLimits) (row : ℕ)
    (cells : List ν) (plan : List (ℕ × ColumnRule)) (s : Scan κ) :
    checkCellsAt uniqueTrackingCap reader limits row cells plan s =
      checkCells reader limits row cells plan s := by
  induction plan generalizing s with
  | nil => rfl
  | cons entry plan ih =>
    unfold checkCellsAt checkCells
    cases cells[entry.1]? with
    | none => rfl
    | some cell => exact ih _

/-- The scan of the repository is the one under its own cap. -/
theorem checkRowsAt_default (env : Environment) (period rowCap : ℕ) (reader : CellReader ν κ)
    (limits : ValidationLimits) (analysis : Analysis) (rows : List (List ν)) (s : Scan κ) :
    checkRowsAt uniqueTrackingCap env period rowCap reader limits analysis rows s =
      checkRows env period rowCap reader limits analysis rows s := by
  induction rows generalizing s with
  | nil => rfl
  | cons cells rows ih =>
    unfold checkRowsAt checkRows
    dsimp only
    split
    next => rfl
    next =>
      rw [ih]
      unfold checkRowAt checkRow
      rw [checkCellsAt_default]

def tally (s : Scan κ) (name : Text) : Tallies.Tally κ :=
  ⟨s.uniqueSeen name, decide (name ∈ s.degradedColumns), s.duplicateCounts name⟩

end Scan

def degradedFinding (name : Text) : ValidationFinding :=
  .file .uniqueTrackingDegraded (some name)

/-! ### The cells of a column -/

def reachedCells (cells : List ν) : List (ℕ × ColumnRule) → List (ColumnRule × ν)
  | [] => []
  | (index, rule) :: plan =>
    match cells[index]? with
    | none => []
    | some cell => (rule, cell) :: reachedCells cells plan

def scannedCells (env : Environment) (period rowCap : ℕ) (plan : List (ℕ × ColumnRule))
    (count : ℕ) (rows : List (List ν)) : List (ColumnRule × ν) :=
  (beforeStop env period rowCap count rows).flatMap fun cells => reachedCells cells plan

def nonNullKey (reader : CellReader ν κ) (name : Text) (cell : ColumnRule × ν) : Option κ :=
  if cell.1.name = name ∧ ¬ reader.isNull cell.2 = true then some (reader.uniqueKey cell.2)
  else none

def trackedKey (reader : CellReader ν κ) (name : Text) (cell : ColumnRule × ν) : Option κ :=
  if reader.tooLong cell.2 = true then none else nonNullKey reader name cell

/-! ### The account of a column -/

/-- The scan has tallied the keys of the column, and warned once when the tally has degraded, if
the sample of the warnings had room for it. -/
structure Account (cap : ℕ) (b : Builder) (s : Scan κ) (name : Text) (keys : List κ) : Prop where
  tally : s.tally name = Tallies.run cap keys
  silent : name ∉ s.degradedColumns →
    s.builder.warnings.count (degradedFinding name) = b.warnings.count (degradedFinding name)
  told : name ∈ s.degradedColumns →
    s.builder.warnings.count (degradedFinding name) =
        b.warnings.count (degradedFinding name) + 1 ∨
      s.builder.warnings.count (degradedFinding name) =
          b.warnings.count (degradedFinding name) ∧
        s.builder.warningsTruncated = true ∧ maxFindings ≤ s.builder.warnings.length

structure SameAccount (s s' : Scan κ) (name : Text) : Prop where
  tally : s'.tally name = s.tally name
  degraded : name ∈ s'.degradedColumns ↔ name ∈ s.degradedColumns
  count : s'.builder.warnings.count (degradedFinding name) =
    s.builder.warnings.count (degradedFinding name)
  truncated : s.builder.warningsTruncated = true → s'.builder.warningsTruncated = true
  full : maxFindings ≤ s.builder.warnings.length → maxFindings ≤ s'.builder.warnings.length

variable {cap : ℕ} {b : Builder} {s s' : Scan κ} {name : Text} {keys : List κ}
  {reader : CellReader ν κ} {limits : ValidationLimits} {row : ℕ} {rule : ColumnRule}

omit [DecidableEq κ] in
theorem SameAccount.trans {s'' : Scan κ} (h : SameAccount s s' name)
    (h' : SameAccount s' s'' name) : SameAccount s s'' name :=
  ⟨h'.tally.trans h.tally, h'.degraded.trans h.degraded, h'.count.trans h.count,
    fun ht => h'.truncated (h.truncated ht), fun hf => h'.full (h.full hf)⟩

theorem Account.same (h : Account cap b s name keys) (hsame : SameAccount s s' name) :
    Account cap b s' name keys := by
  refine ⟨hsame.tally.trans h.tally, fun hnot => ?_, fun hmem => ?_⟩
  · exact hsame.count.trans (h.silent fun hmem => hnot (hsame.degraded.mpr hmem))
  · rw [hsame.count]
    exact (h.told (hsame.degraded.mp hmem)).imp id fun ⟨hcount, ht, hfull⟩ =>
      ⟨hcount, hsame.truncated ht, hsame.full hfull⟩

omit [DecidableEq κ] in
theorem sameAccount_of_warnings (htally : s'.tally name = s.tally name)
    (hdegraded : s'.degradedColumns = s.degradedColumns)
    (hwarnings : s'.builder.warnings = s.builder.warnings)
    (htruncated : s'.builder.warningsTruncated = s.builder.warningsTruncated) :
    SameAccount s s' name :=
  ⟨htally, by rw [hdegraded], by rw [hwarnings], by rw [htruncated]; exact id,
    by rw [hwarnings]; exact id⟩

theorem addError_warnings (b : Builder) (finding : ValidationFinding) :
    (b.addError finding).warnings = b.warnings ∧
      (b.addError finding).warningsTruncated = b.warningsTruncated := by
  unfold Builder.addError
  split <;> exact ⟨rfl, rfl⟩

omit [DecidableEq κ] in
theorem sameAccount_addError (s : Scan κ) (finding : ValidationFinding) (name : Text) :
    SameAccount s (s.addError finding) name :=
  sameAccount_of_warnings rfl rfl (addError_warnings _ _).1 (addError_warnings _ _).2

omit [DecidableEq κ] in
theorem sameAccount_addNull (s : Scan κ) (rule : ColumnRule) (row : ℕ) (name : Text) :
    SameAccount s (s.addNull rule row) name := by
  unfold Scan.addNull
  dsimp only
  split
  · exact sameAccount_of_warnings rfl rfl rfl rfl
  · exact sameAccount_of_warnings rfl rfl (addError_warnings _ _).1 (addError_warnings _ _).2

omit [DecidableEq κ] in
theorem sameAccount_addTypeError (s : Scan κ) (rule : ColumnRule) (row : ℕ) (display name : Text) :
    SameAccount s (s.addTypeError rule row display) name :=
  sameAccount_of_warnings rfl rfl (addError_warnings _ _).1 (addError_warnings _ _).2

/-- The tracking of another column leaves the account alone. -/
theorem sameAccount_trackAt (hne : rule.name ≠ name) (key : κ) (display : Text) :
    SameAccount s (s.trackAt cap rule row key display) name := by
  have hother : ∀ {α : Type} (f : Text → α) (x : α), Function.update f rule.name x name = f name :=
    fun f x => Function.update_of_ne hne.symm x f
  unfold Scan.trackAt
  split
  next =>
    refine sameAccount_of_warnings ?_ rfl (addError_warnings _ _).1 (addError_warnings _ _).2
    unfold Scan.tally Scan.addError increment
    dsimp only
    rw [hother]
  next =>
    split
    next => exact sameAccount_of_warnings rfl rfl rfl rfl
    next =>
      split
      next =>
        have hmem : name ∈ rule.name :: s.degradedColumns ↔ name ∈ s.degradedColumns :=
          List.mem_cons.trans (or_iff_right hne.symm)
        have hfinding : degradedFinding rule.name ≠ degradedFinding name := by
          intro heq
          injection heq with _ _ hcolumn _
          exact hne (Option.some.inj hcolumn)
        refine ⟨?_, hmem, ?_, ?_, ?_⟩
        · unfold Scan.tally
          dsimp only
          rw [decide_eq_decide.mpr hmem]
        · dsimp only
          unfold Builder.addWarning
          split
          · rfl
          · dsimp only
            rw [List.count_append, List.count_singleton]
            change _ + (if degradedFinding rule.name == degradedFinding name then 1 else 0) = _
            rw [beq_eq_false_iff_ne.mpr hfinding]
            rfl
        · intro ht
          dsimp only
          unfold Builder.addWarning
          split
          · rfl
          · exact ht
        · intro hfull
          dsimp only
          unfold Builder.addWarning
          rw [if_pos hfull]
          exact hfull
      next =>
        refine sameAccount_of_warnings ?_ rfl rfl rfl
        unfold Scan.tally
        dsimp only
        rw [hother]

/-- A tracked key of the column is one more step of its tally. -/
theorem Account.trackAt (h : Account cap b s rule.name keys) (key : κ) (display : Text) :
    Account cap b (s.trackAt cap rule row key display) rule.name (keys ++ [key]) := by
  have hrun : Tallies.run cap (keys ++ [key]) = (s.tally rule.name).step cap key := by
    rw [h.tally]
    unfold Tallies.run
    rw [List.foldl_append]
    rfl
  have hself : ∀ {α : Type} (f : Text → α) (x : α), Function.update f rule.name x rule.name = x :=
    fun f x => Function.update_self rule.name x f
  unfold Scan.trackAt
  unfold Tallies.Tally.step Scan.tally at hrun
  dsimp only at hrun
  split
  next hseen =>
    rw [if_pos hseen] at hrun
    have hwarnings := addError_warnings s.builder ⟨.duplicateValue, some row, some rule.name,
      some (truncateForReport display)⟩
    refine ⟨?_, ?_, ?_⟩
    · rw [hrun]
      unfold Scan.tally Scan.addError increment
      dsimp only
      rw [hself]
    · unfold Scan.addError
      dsimp only
      rw [hwarnings.1]
      exact h.silent
    · unfold Scan.addError
      dsimp only
      rw [hwarnings.1, hwarnings.2]
      exact h.told
  next hseen =>
    rw [if_neg hseen] at hrun
    split
    next hdegraded =>
      rw [if_pos (decide_eq_true hdegraded)] at hrun
      exact ⟨hrun.symm, h.silent, h.told⟩
    next hdegraded =>
      rw [if_neg (fun htrue => hdegraded (of_decide_eq_true htrue))] at hrun
      split
      next hfull =>
        rw [if_pos hfull] at hrun
        refine ⟨?_, fun hnot => (hnot List.mem_cons_self).elim, fun _ => ?_⟩
        · rw [hrun]
          unfold Scan.tally
          dsimp only
          rw [decide_eq_true List.mem_cons_self]
        · have hsilent := h.silent hdegraded
          dsimp only
          unfold Builder.addWarning
          split
          next hsample => exact Or.inr ⟨hsilent, rfl, hsample⟩
          next =>
            refine Or.inl ?_
            dsimp only
            rw [List.count_append, hsilent]
            exact congrArg _ (List.count_singleton_self (a := degradedFinding rule.name))
      next hroom =>
        rw [if_neg hroom] at hrun
        refine ⟨?_, h.silent, h.told⟩
        rw [hrun]
        unfold Scan.tally
        dsimp only
        rw [hself]

/-- One cell adds its key to the account of its column and to no other one. -/
theorem Account.checkCellAt (h : Account cap b s name keys) (cell : ν)
    (hunique : rule.name = name → rule.unique = true) :
    Account cap b (s.checkCellAt cap reader limits row rule cell) name
      (keys ++ (trackedKey reader name (rule, cell)).toList) := by
  have hnone : trackedKey reader name (rule, cell) = none →
      keys ++ (trackedKey reader name (rule, cell)).toList = keys := by
    intro hkey
    rw [hkey]
    exact List.append_nil keys
  unfold Scan.checkCellAt
  split
  next hlong =>
    rw [hnone (if_pos hlong)]
    exact h.same (sameAccount_addError _ _ _)
  next hlong =>
    split
    next hnull =>
      rw [hnone ((if_neg hlong).trans (if_neg fun hkey => hkey.2 hnull))]
      exact h.same (sameAccount_addNull _ _ _ _)
    next hnull =>
      dsimp only
      have htyped : SameAccount s (if reader.hasType cell rule.type = true then s
          else s.addTypeError rule row (reader.display cell)) name := by
        split
        · exact sameAccount_of_warnings rfl rfl rfl rfl
        · exact sameAccount_addTypeError _ _ _ _ _
      by_cases hname : rule.name = name
      · have hkey : trackedKey reader name (rule, cell) = some (reader.uniqueKey cell) :=
          (if_neg hlong).trans (if_pos ⟨hname, hnull⟩)
        rw [if_pos (hunique hname), hkey]
        subst hname
        exact (h.same htyped).trackAt _ _
      · rw [hnone ((if_neg hlong).trans (if_neg fun hkey => hname hkey.1))]
        split
        · exact h.same (htyped.trans (sameAccount_trackAt hname _ _))
        · exact h.same htyped

theorem Account.checkCellsAt {plan : List (ℕ × ColumnRule)} (h : Account cap b s name keys)
    (cells : List ν) (hunique : ∀ entry ∈ plan, entry.2.name = name → entry.2.unique = true) :
    Account cap b (Scan.checkCellsAt cap reader limits row cells plan s) name
      (keys ++ (reachedCells cells plan).filterMap (trackedKey reader name)) := by
  induction plan generalizing s keys with
  | nil =>
    rw [show (reachedCells cells []).filterMap (trackedKey reader name) = [] from rfl, List.append_nil]
    exact h
  | cons entry plan ih =>
    obtain ⟨index, rule⟩ := entry
    unfold Scan.checkCellsAt reachedCells
    cases cells[index]? with
    | none =>
      rw [show ([] : List (ColumnRule × ν)).filterMap (trackedKey reader name) = [] from rfl,
        List.append_nil]
      exact h
    | some cell =>
      have hfirst : Account cap b (s.checkCellAt cap reader limits row rule cell) name
          (keys ++ (trackedKey reader name (rule, cell)).toList) :=
        h.checkCellAt cell (hunique _ List.mem_cons_self)
      have hrest := ih hfirst fun entry hentry => hunique entry (List.mem_cons_of_mem _ hentry)
      have hsplit : ((rule, cell) :: reachedCells cells plan).filterMap (trackedKey reader name) =
          (trackedKey reader name (rule, cell)).toList ++
            (reachedCells cells plan).filterMap (trackedKey reader name) := by
        rw [List.filterMap_cons]
        cases trackedKey reader name (rule, cell) <;> rfl
      dsimp only
      rw [hsplit, ← List.append_assoc]
      exact hrest

theorem sameProgress_checkCellsAt (reader : CellReader ν κ) (limits : ValidationLimits) (row : ℕ)
    (cells : List ν) (plan : List (ℕ × ColumnRule)) (s : Scan κ) :
    s.SameProgress (Scan.checkCellsAt cap reader limits row cells plan s) := by
  induction plan generalizing s with
  | nil => exact ⟨rfl, rfl⟩
  | cons entry plan ih =>
    unfold Scan.checkCellsAt
    cases cells[entry.1]? with
    | none => exact ⟨rfl, rfl⟩
    | some cell =>
      have hcell : s.SameProgress (s.checkCellAt cap reader limits row entry.2 cell) := by
        unfold Scan.checkCellAt Scan.addNull Scan.trackAt
        dsimp only
        split_ifs <;> exact ⟨rfl, rfl⟩
      have hrest := ih (s.checkCellAt cap reader limits row entry.2 cell)
      exact ⟨hrest.rowCount.trans hcell.rowCount, hrest.scanIncomplete.trans hcell.scanIncomplete⟩

omit [DecidableEq κ] in
theorem sameAccount_countRow (env : Environment) (period rowCap : ℕ) (s : Scan κ) (name : Text) :
    SameAccount s (s.countRow env period rowCap) name := by
  unfold Scan.countRow
  dsimp only
  split_ifs
  · exact sameAccount_of_warnings rfl rfl rfl rfl
  · exact sameAccount_of_warnings rfl rfl (addError_warnings _ _).1 (addError_warnings _ _).2
  · exact sameAccount_of_warnings rfl rfl rfl rfl

theorem Account.checkRowAt {analysis : Analysis} (h : Account cap b s name keys) (cells : List ν)
    (hunique : ∀ entry ∈ analysis.plan, entry.2.name = name → entry.2.unique = true) :
    Account cap b (s.checkRowAt cap reader limits analysis cells) name
      (keys ++ (reachedCells cells analysis.plan).filterMap (trackedKey reader name)) := by
  unfold Scan.checkRowAt
  split
  · exact h.checkCellsAt cells hunique
  · exact (h.same (sameAccount_addError _ _ _)).checkCellsAt cells hunique

theorem sameProgress_checkRowAt (s : Scan κ) (reader : CellReader ν κ) (limits : ValidationLimits)
    (analysis : Analysis) (cells : List ν) :
    s.SameProgress (s.checkRowAt cap reader limits analysis cells) := by
  unfold Scan.checkRowAt
  split
  · exact sameProgress_checkCellsAt reader limits s.rowCount cells analysis.plan s
  · have h := @sameProgress_checkCellsAt _ _ _ cap reader limits s.rowCount cells analysis.plan
      (s.addError ⟨.rowShapeMismatch cells.length analysis.headerCells.length,
        some s.rowCount, none, none⟩)
    exact ⟨h.rowCount, h.scanIncomplete⟩

/-- The rows add the keys of the cells that are checked before the scan stops. -/
theorem Account.checkRowsAt {env : Environment} {period rowCap : ℕ} {analysis : Analysis}
    (h : Account cap b s name keys) (hs : s.scanIncomplete = false) (rows : List (List ν))
    (hunique : ∀ entry ∈ analysis.plan, entry.2.name = name → entry.2.unique = true) :
    Account cap b (s.checkRowsAt cap env period rowCap reader limits analysis rows) name
      (keys ++ (scannedCells env period rowCap analysis.plan s.rowCount rows).filterMap
        (trackedKey reader name)) := by
  induction rows generalizing s keys with
  | nil =>
    rw [show (scannedCells env period rowCap analysis.plan s.rowCount
      ([] : List (List ν))).filterMap (trackedKey reader name) = [] from rfl, List.append_nil]
    exact h
  | cons cells rows ih =>
    have hcounted := h.same (sameAccount_countRow env period rowCap s name)
    unfold Scan.checkRowsAt scannedCells beforeStop
    dsimp only
    by_cases hstop : Stops env period rowCap (s.rowCount + 1)
    · rw [if_pos hstop, if_pos ((s.countRow_incomplete hs).mpr hstop)]
      rw [show (([] : List (List ν)).flatMap fun cells => reachedCells cells analysis.plan).filterMap
        (trackedKey reader name) = [] from rfl, List.append_nil]
      exact hcounted
    · have hgo := mt (s.countRow_incomplete hs).mp hstop
      rw [if_neg hstop, if_neg hgo, List.flatMap_cons, List.filterMap_append, ← List.append_assoc]
      have hrow : Account cap b ((s.countRow env period rowCap).checkRowAt cap reader limits
          analysis cells) name
            (keys ++ (reachedCells cells analysis.plan).filterMap (trackedKey reader name)) :=
        hcounted.checkRowAt cells hunique
      have hprogress : (s.countRow env period rowCap).SameProgress
          ((s.countRow env period rowCap).checkRowAt cap reader limits analysis cells) :=
        sameProgress_checkRowAt _ reader limits analysis cells
      have hrest := ih hrow (hprogress.scanIncomplete.trans (Bool.eq_false_of_not_eq_true hgo))
      rw [hprogress.rowCount, s.rowCount_countRow] at hrest
      exact hrest

/-- For a column that is unique and any tracking cap: the duplicates that a scan counts are the
values that it compares, which are neither empty nor overlong, less the distinct ones among them,
while these are no more than the cap. Beyond it the count is a lower bound, and there is one warning
about the column more than before, unless the sample of the warnings is full. -/
theorem unique_accounting (cap : ℕ) (env : Environment) (period rowCap : ℕ)
    (reader : CellReader ν κ) (limits : ValidationLimits) (analysis : Analysis)
    (rows : List (List ν)) (b : Builder) (name : Text)
    (hunique : ∀ entry ∈ analysis.plan, entry.2.name = name → entry.2.unique = true) :
    let s := (Scan.start b).checkRowsAt cap env period rowCap reader limits analysis rows
    let keys := (scannedCells env period rowCap analysis.plan 0 rows).filterMap
      (trackedKey reader name)
    (keys.toFinset.card ≤ cap → s.duplicateCounts name = keys.length - keys.toFinset.card ∧
      s.builder.warnings.count (degradedFinding name) =
        b.warnings.count (degradedFinding name)) ∧
    (cap < keys.toFinset.card → s.duplicateCounts name ≤ keys.length - keys.toFinset.card ∧
      (s.builder.warnings.count (degradedFinding name) =
          b.warnings.count (degradedFinding name) + 1 ∨
        s.builder.warnings.count (degradedFinding name) =
            b.warnings.count (degradedFinding name) ∧
          s.builder.warningsTruncated = true ∧ maxFindings ≤ s.builder.warnings.length)) := by
  intro s keys
  have hstart : Account cap b (Scan.start b : Scan κ) name [] :=
    ⟨rfl, fun _ => rfl, fun hmem => (by cases hmem)⟩
  have haccount : Account cap b s name keys :=
    hstart.checkRowsAt rfl rows hunique
  have hduplicates : s.duplicateCounts name = (Tallies.run cap keys).duplicates :=
    congrArg Tallies.Tally.duplicates haccount.tally
  have hdegraded : decide (name ∈ s.degradedColumns) = (Tallies.run cap keys).degraded :=
    congrArg Tallies.Tally.degraded haccount.tally
  constructor
  · intro hwithin
    obtain ⟨hexact, hcount⟩ := Tallies.run_exact hwithin
    rw [hexact] at hdegraded
    exact ⟨hduplicates.trans hcount, haccount.silent (of_decide_eq_false hdegraded)⟩
  · intro hbeyond
    obtain ⟨hmissed, hcount⟩ := Tallies.run_bound hbeyond
    rw [hmissed] at hdegraded
    exact ⟨hduplicates.trans_le hcount, haccount.told (of_decide_eq_true hdegraded)⟩

section Scene

def trackedAnalysis : Analysis := ⟨[['a']], [(0, { sceneRule with unique := true })], [], []⟩

def overlongCell : Text := List.replicate 11 'x'

theorem unique_accounting_scene :
    let s := (Scan.start sceneBuilder).checkRowsAt 1 sceneEnv 1 10 (textReader sceneEnv sceneLimits)
      sceneLimits trackedAnalysis [[['1']], [['2']], [['1']]]
    s.duplicateCounts ['a'] ≤ 1 ∧
      (s.builder.warnings.count (degradedFinding ['a']) = 1 ∨
        s.builder.warningsTruncated = true) := by
  intro s
  have h := (unique_accounting 1 sceneEnv 1 10 (textReader sceneEnv sceneLimits) sceneLimits
    trackedAnalysis [[['1']], [['2']], [['1']]] sceneBuilder ['a'] (by decide)).2 (by decide)
  exact ⟨h.1, h.2.imp id fun htruncated => htruncated.2.1⟩

/-- An overlong value is refused and not compared, so its repetition is not counted. -/
theorem overlong_uncounted : ¬ ∀ (cap : ℕ) (rows : List (List Text)),
    ((scannedCells sceneEnv 1 10 trackedAnalysis.plan 0 rows).filterMap
      (nonNullKey (textReader sceneEnv sceneLimits) ['a'])).toFinset.card ≤ cap →
    ((Scan.start sceneBuilder).checkRowsAt cap sceneEnv 1 10 (textReader sceneEnv sceneLimits)
        sceneLimits trackedAnalysis rows).duplicateCounts ['a'] =
      ((scannedCells sceneEnv 1 10 trackedAnalysis.plan 0 rows).filterMap
        (nonNullKey (textReader sceneEnv sceneLimits) ['a'])).length -
      ((scannedCells sceneEnv 1 10 trackedAnalysis.plan 0 rows).filterMap
        (nonNullKey (textReader sceneEnv sceneLimits) ['a'])).toFinset.card := by
  intro h
  have hcount := h 1 [[overlongCell], [overlongCell]] (by decide)
  revert hcount
  decide

end Scene

end CampusQuest.Validators
