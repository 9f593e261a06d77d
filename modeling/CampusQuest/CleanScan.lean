import CampusQuest.RowScan

/-!
What a scan that ends without an error has seen. Each check that fails adds an error, and an error
is never lost to the bound of the sample. So the rows that were checked are clean, and the values
that the tracking remembers of a unique column are all of its first ones.
-/

namespace CampusQuest.Validators

open Tasks

theorem Builder.addErrors_eq_nil {b : Builder} {findings : List ValidationFinding}
    (h : (b.addErrors findings).errors = []) : b.errors = [] ∧ findings = [] := by
  cases findings with
  | nil => exact ⟨h, rfl⟩
  | cons finding findings =>
    have hprefix := (b.addError finding).errors_prefix_addErrors findings
    rw [show ((b.addError finding).addErrors findings).errors = [] from h, List.prefix_nil]
      at hprefix
    exact (b.addError_ne_nil finding hprefix).elim

/-! ### The keys of a column -/

def Distinct {κ : Type} (keys : List κ) : Prop :=
  ∀ i j key, i < j → i < uniqueTrackingCap → keys[i]? = some key → keys[j]? ≠ some key

theorem distinct_nil {κ : Type} : Distinct ([] : List κ) := by
  intro i j key _ _ h
  cases h

theorem Distinct.append {κ : Type} {keys : List κ} {key : κ} (hkeys : Distinct keys)
    (hnew : key ∉ keys.take uniqueTrackingCap) : Distinct (keys ++ [key]) := by
  intro i j k hij hi hfirst hsecond
  obtain ⟨hj, _⟩ := List.getElem?_eq_some_iff.mp hsecond
  rw [List.length_append, List.length_singleton] at hj
  rw [List.getElem?_append_left (by omega)] at hfirst
  by_cases hlast : j < keys.length
  · rw [List.getElem?_append_left hlast] at hsecond
    exact hkeys i j k hij hi hfirst hsecond
  · obtain rfl : j = keys.length := by omega
    rw [List.getElem?_concat_length] at hsecond
    obtain rfl := Option.some.inj hsecond
    refine hnew (List.mem_iff_getElem?.mpr ⟨i, ?_⟩)
    rw [List.getElem?_take_of_lt hi]
    exact hfirst

section Keys

variable {ν κ : Type} (reader : CellReader ν κ)

def keyOf (cell : ν) : Option κ :=
  if reader.isNull cell = true then none else some (reader.uniqueKey cell)

def keysAt (index : ℕ) (rows : List (List ν)) : List κ :=
  rows.filterMap fun cells => cells[index]?.bind (keyOf reader)

theorem keysAt_append {index : ℕ} {rows : List (List ν)} {cells : List ν} {cell : ν}
    (h : cells[index]? = some cell) :
    keysAt reader index (rows ++ [cells]) =
      keysAt reader index rows ++ (keyOf reader cell).toList := by
  unfold keysAt
  rw [List.filterMap_append, List.filterMap_cons, h, Option.bind_some, List.filterMap_nil]
  cases keyOf reader cell with
  | none => rfl
  | some key => rfl

end Keys

/-! ### Clean rows -/

structure CleanCell {ν κ : Type} (reader : CellReader ν κ) (rule : ColumnRule) (cell : ν) :
    Prop where
  short : ¬ reader.tooLong cell = true
  null : reader.isNull cell = true → rule.nullable = true
  typed : ¬ reader.isNull cell = true → reader.hasType cell rule.type = true

structure Tracks {κ : Type} (s : Scan κ) (name : Text) (keys : List κ) : Prop where
  seen : s.uniqueSeen name = (keys.take uniqueTrackingCap).reverse
  distinct : Distinct keys
  degraded : name ∈ s.degradedColumns → uniqueTrackingCap ≤ keys.length

section Clean

variable {ν κ : Type} {reader : CellReader ν κ} {limits : ValidationLimits}
  {s s' : Scan κ} {row : ℕ} {rule : ColumnRule} {cell : ν} {cells : List ν} {keys : List κ}
  {name : Text} {plan : List (ℕ × ColumnRule)}

structure SameTracking (s s' : Scan κ) (name : Text) : Prop where
  seen : s'.uniqueSeen name = s.uniqueSeen name
  degraded : name ∈ s'.degradedColumns → name ∈ s.degradedColumns

theorem SameTracking.refl : SameTracking s s name := ⟨rfl, fun h => h⟩

theorem SameTracking.trans {s'' : Scan κ} (h : SameTracking s s' name)
    (h' : SameTracking s' s'' name) : SameTracking s s'' name :=
  ⟨h'.seen.trans h.seen, fun hmem => h.degraded (h'.degraded hmem)⟩

theorem Tracks.same (h : Tracks s name keys) (hsame : SameTracking s s' name) :
    Tracks s' name keys :=
  ⟨hsame.seen.trans h.seen, h.distinct, fun hmem => h.degraded (hsame.degraded hmem)⟩

variable [DecidableEq κ]

theorem track_clean {key : κ} {display : Text}
    (hclean : (s.track rule row key display).builder.errors = []) : s.builder.errors = [] := by
  unfold Scan.track at hclean
  split at hclean
  · exact (Builder.addError_ne_nil _ _ hclean).elim
  · split at hclean
    · exact hclean
    · split at hclean
      · exact (Builder.addWarning_errors _ _).symm.trans hclean
      · exact hclean

/-- A value that is tracked without an error is new. -/
theorem Tracks.track {key : κ} {display : Text} (h : Tracks s rule.name keys)
    (hclean : (s.track rule row key display).builder.errors = []) :
    Tracks (s.track rule row key display) rule.name (keys ++ [key]) := by
  unfold Scan.track at hclean ⊢
  split at hclean
  next => exact (Builder.addError_ne_nil _ _ hclean).elim
  next hnew =>
    rw [if_neg hnew]
    rw [h.seen, List.mem_reverse] at hnew
    have hdistinct := h.distinct.append hnew
    have hlength : (keys ++ [key]).length = keys.length + 1 := List.length_append
    -- Behind the cap a further key is not remembered.
    have hfull : uniqueTrackingCap ≤ keys.length →
        s.uniqueSeen rule.name = ((keys ++ [key]).take uniqueTrackingCap).reverse := by
      intro hcap
      rw [List.take_append_of_le_length hcap]
      exact h.seen
    split
    next hdegraded =>
      have hcap := h.degraded hdegraded
      exact ⟨hfull hcap, hdistinct, fun _ => by omega⟩
    next hnot =>
      have hseen : (s.uniqueSeen rule.name).length = min uniqueTrackingCap keys.length := by
        rw [h.seen, List.length_reverse, List.length_take]
      split
      next hcap =>
        rw [hseen] at hcap
        exact ⟨hfull (by omega), hdistinct, fun _ => by omega⟩
      next hcap =>
        rw [hseen] at hcap
        have hshort : keys.length < uniqueTrackingCap := by omega
        refine ⟨?_, hdistinct, fun hmem => (hnot hmem).elim⟩
        change Function.update s.uniqueSeen rule.name _ rule.name = _
        rw [Function.update_self, h.seen, List.take_of_length_le hshort.le,
          List.take_of_length_le (by omega), List.reverse_append]
        rfl

theorem sameTracking_track {key : κ} {display : Text} (hne : name ≠ rule.name) :
    SameTracking s (s.track rule row key display) name := by
  unfold Scan.track
  split_ifs
  · exact ⟨rfl, fun h => h⟩
  · exact .refl
  · exact ⟨rfl, fun h => (List.mem_cons.mp h).resolve_left hne⟩
  · refine ⟨?_, fun h => h⟩
    change Function.update s.uniqueSeen rule.name _ name = _
    rw [Function.update_of_ne hne]

/-- What a cell leaves, when it adds no error. -/
theorem checkCell_clean (hclean : (s.checkCell reader limits row rule cell).builder.errors = []) :
    s.builder.errors = [] ∧ CleanCell reader rule cell := by
  unfold Scan.checkCell at hclean
  split at hclean
  next => exact (Builder.addError_ne_nil _ _ hclean).elim
  next hshort =>
    split at hclean
    next hnull =>
      unfold Scan.addNull at hclean
      dsimp only at hclean
      split at hclean
      next hnullable => exact ⟨hclean, hshort, fun _ => hnullable, fun h => (h hnull).elim⟩
      next => exact (Builder.addError_ne_nil _ _ hclean).elim
    next hvalue =>
      dsimp only at hclean
      -- An error of the type stays behind the tracking.
      have htyped : (if reader.hasType cell rule.type = true then s
          else s.addTypeError rule row (reader.display cell)).builder.errors = [] := by
        split at hclean
        · exact track_clean hclean
        · exact hclean
      split at htyped
      next htype => exact ⟨htyped, hshort, fun h => (hvalue h).elim, fun _ => htype⟩
      next => exact (Builder.addError_ne_nil _ _ htyped).elim

theorem checkCell_tracks (hclean : (s.checkCell reader limits row rule cell).builder.errors = [])
    (hunique : rule.unique = true) (h : Tracks s rule.name keys) :
    Tracks (s.checkCell reader limits row rule cell) rule.name
      (keys ++ (keyOf reader cell).toList) := by
  obtain ⟨_, hcell⟩ := checkCell_clean hclean
  unfold Scan.checkCell keyOf at *
  rw [if_neg hcell.short] at hclean ⊢
  split
  next hnull =>
    rw [Option.toList_none, List.append_nil]
    refine h.same ?_
    unfold Scan.addNull
    dsimp only
    split_ifs <;> exact ⟨rfl, fun h => h⟩
  next hvalue =>
    rw [if_neg hvalue] at hclean
    rw [if_pos (hcell.typed hvalue)] at hclean ⊢
    dsimp only at hclean
    rw [if_pos hunique] at hclean
    exact h.track hclean

theorem sameTracking_checkCell (hne : name ≠ rule.name) :
    SameTracking s (s.checkCell reader limits row rule cell) name := by
  unfold Scan.checkCell
  split
  · exact ⟨rfl, fun h => h⟩
  · split
    · unfold Scan.addNull
      dsimp only
      split_ifs <;> exact ⟨rfl, fun h => h⟩
    · have htyped : SameTracking s (if reader.hasType cell rule.type = true then s
          else s.addTypeError rule row (reader.display cell)) name := by
        split <;> exact ⟨rfl, fun h => h⟩
      dsimp only
      split
      · exact htyped.trans (sameTracking_track hne)
      · exact htyped

theorem errors_of_checkCells
    (hclean : (Scan.checkCells reader limits row cells plan s).builder.errors = []) :
    s.builder.errors = [] := by
  induction plan generalizing s with
  | nil => exact hclean
  | cons entry plan ih =>
    unfold Scan.checkCells at hclean
    split at hclean
    · exact hclean
    · exact (checkCell_clean (ih hclean)).1

theorem checkCells_clean (hwidth : ∀ entry ∈ plan, entry.1 < cells.length)
    (hclean : (Scan.checkCells reader limits row cells plan s).builder.errors = []) :
    ∀ entry ∈ plan, ∀ cell, cells[entry.1]? = some cell → CleanCell reader entry.2 cell := by
  induction plan generalizing s with
  | nil =>
    intro entry hentry
    cases hentry
  | cons entry plan ih =>
    obtain ⟨index, rule⟩ := entry
    obtain ⟨cell, hcell⟩ : ∃ cell, cells[index]? = some cell :=
      ⟨_, List.getElem?_eq_getElem (hwidth _ (List.mem_cons_self ..))⟩
    unfold Scan.checkCells at hclean
    rw [hcell] at hclean
    have hrest := ih (fun e he => hwidth e (List.mem_cons_of_mem _ he)) hclean
    intro e he cell' hcell'
    rcases List.mem_cons.mp he with rfl | he
    · obtain rfl := Option.some.inj (hcell.symm.trans hcell')
      exact (checkCell_clean (errors_of_checkCells hclean)).2
    · exact hrest e he cell' hcell'

theorem sameTracking_checkCells (hname : ∀ entry ∈ plan, name ≠ entry.2.name) :
    SameTracking s (Scan.checkCells reader limits row cells plan s) name := by
  induction plan generalizing s with
  | nil => exact .refl
  | cons entry plan ih =>
    unfold Scan.checkCells
    split
    · exact .refl
    · exact (sameTracking_checkCell (hname entry (List.mem_cons_self ..))).trans
        (ih fun e he => hname e (List.mem_cons_of_mem _ he))

/-- A row adds a key to the tracking of each column. -/
theorem checkCells_tracks {rows : List (List ν)}
    (hwidth : ∀ entry ∈ plan, entry.1 < cells.length)
    (hnames : (plan.map fun entry => entry.2.name).Nodup)
    (hclean : (Scan.checkCells reader limits row cells plan s).builder.errors = [])
    (h : ∀ entry ∈ plan, entry.2.unique = true →
      Tracks s entry.2.name (keysAt reader entry.1 rows)) :
    ∀ entry ∈ plan, entry.2.unique = true →
      Tracks (Scan.checkCells reader limits row cells plan s) entry.2.name
        (keysAt reader entry.1 (rows ++ [cells])) := by
  induction plan generalizing s with
  | nil =>
    intro entry hentry
    cases hentry
  | cons first plan ih =>
    have htail : ∀ e ∈ plan, e.1 < cells.length :=
      fun e he => hwidth e (List.mem_cons_of_mem _ he)
    obtain ⟨cell, hcell⟩ : ∃ cell, cells[first.1]? = some cell :=
      ⟨_, List.getElem?_eq_getElem (hwidth _ (List.mem_cons_self ..))⟩
    rw [List.map_cons, List.nodup_cons] at hnames
    have hother : ∀ e ∈ plan, first.2.name ≠ e.2.name := fun e he heq =>
      hnames.1 (heq ▸ List.mem_map_of_mem (f := fun entry => entry.2.name) he)
    unfold Scan.checkCells at hclean ⊢
    rw [hcell] at hclean ⊢
    have hfirst := errors_of_checkCells hclean
    intro entry hentry hunique
    rcases List.mem_cons.mp hentry with rfl | hentry
    · -- The later columns leave the keys of this one.
      rw [keysAt_append reader hcell]
      exact (checkCell_tracks hfirst hunique (h entry (List.mem_cons_self ..) hunique)).same
        (sameTracking_checkCells hother)
    · refine ih htail hnames.2 hclean (fun e he hu => ?_) entry hentry hunique
      exact (h e (List.mem_cons_of_mem _ he) hu).same
        (sameTracking_checkCell fun heq => hother e he heq.symm)

end Clean

/-! ### The rows of a scan -/

/-- A plan that reads within the header, and no column twice. -/
structure Planned (analysis : Analysis) : Prop where
  width : ∀ entry ∈ analysis.plan, entry.1 < analysis.headerCells.length
  names : (analysis.plan.map fun entry => entry.2.name).Nodup

structure CleanRow {ν κ : Type} (reader : CellReader ν κ) (analysis : Analysis) (cells : List ν) :
    Prop where
  width : cells.length = analysis.headerCells.length
  cells : ∀ entry ∈ analysis.plan, ∀ cell, cells[entry.1]? = some cell →
    CleanCell reader entry.2 cell

def TracksAll {ν κ : Type} (reader : CellReader ν κ) (plan : List (ℕ × ColumnRule)) (s : Scan κ)
    (rows : List (List ν)) : Prop :=
  ∀ entry ∈ plan, entry.2.unique = true → Tracks s entry.2.name (keysAt reader entry.1 rows)

structure Checked {ν κ : Type} (env : Environment) (period cap : ℕ) (reader : CellReader ν κ)
    (analysis : Analysis) (s s' : Scan κ) (before rows : List (List ν)) : Prop where
  rowCount : s'.rowCount = s.rowCount + rows.length
  unstopped : ∀ row, s.rowCount < row → row ≤ s.rowCount + rows.length → ¬ Stops env period cap row
  clean : ∀ cells ∈ rows, CleanRow reader analysis cells
  tracks : TracksAll reader analysis.plan s' (before ++ rows)

section Rows

variable {ν κ : Type} [DecidableEq κ] {env : Environment} {period cap : ℕ}
  {reader : CellReader ν κ} {limits : ValidationLimits} {analysis : Analysis} {s : Scan κ}
  {cells : List ν} {before rows : List (List ν)}

theorem errors_of_checkRow
    (hclean : (s.checkRow reader limits analysis cells).builder.errors = []) :
    s.builder.errors = [] := by
  unfold Scan.checkRow at hclean
  have hrow := errors_of_checkCells hclean
  split at hrow
  · exact hrow
  · exact (Builder.addError_ne_nil _ _ hrow).elim

theorem checkRow_clean (hplan : Planned analysis)
    (hclean : (s.checkRow reader limits analysis cells).builder.errors = [])
    (h : TracksAll reader analysis.plan s before) :
    CleanRow reader analysis cells ∧
      TracksAll reader analysis.plan (s.checkRow reader limits analysis cells)
        (before ++ [cells]) := by
  unfold Scan.checkRow at hclean ⊢
  split at hclean
  next hwidth =>
    rw [if_pos hwidth]
    have hplanned : ∀ entry ∈ analysis.plan, entry.1 < cells.length :=
      fun entry hentry => hwidth ▸ hplan.width entry hentry
    exact ⟨⟨hwidth, checkCells_clean hplanned hclean⟩,
      checkCells_tracks hplanned hplan.names hclean h⟩
  next => exact (Builder.addError_ne_nil _ _ (errors_of_checkCells hclean)).elim

omit [DecidableEq κ] in
theorem errors_of_countRow (hclean : (s.countRow env period cap).builder.errors = []) :
    s.builder.errors = [] := by
  unfold Scan.countRow at hclean
  dsimp only at hclean
  split_ifs at hclean
  · exact hclean
  · exact (Builder.addError_ne_nil _ _ hclean).elim
  · exact hclean

theorem errors_of_checkRows
    (hclean : (s.checkRows env period cap reader limits analysis rows).builder.errors = []) :
    s.builder.errors = [] := by
  induction rows generalizing s with
  | nil => exact hclean
  | cons cells rows ih =>
    unfold Scan.checkRows at hclean
    dsimp only at hclean
    split at hclean
    · exact errors_of_countRow hclean
    · exact errors_of_countRow (errors_of_checkRow (ih hclean))

omit [DecidableEq κ] in
/-- A row that does not stop the scan is counted and nothing else. -/
theorem countRow_eq (h : ¬ (s.countRow env period cap).scanIncomplete = true) :
    s.countRow env period cap = { s with rowCount := s.rowCount + 1 } := by
  unfold Scan.countRow at h ⊢
  dsimp only at h ⊢
  split_ifs at h ⊢ with hcap hlate
  · exact (h rfl).elim
  · exact (h rfl).elim
  · rfl

theorem checkRows_clean (hplan : Planned analysis) (hs : s.scanIncomplete = false)
    (hclean : (s.checkRows env period cap reader limits analysis rows).builder.errors = [])
    (hend : (s.checkRows env period cap reader limits analysis rows).scanIncomplete = false)
    (h : TracksAll reader analysis.plan s before) :
    Checked env period cap reader analysis s
      (s.checkRows env period cap reader limits analysis rows) before rows := by
  induction rows generalizing s before with
  | nil =>
    refine ⟨rfl, fun row hlow hhigh => absurd (hlow.trans_le hhigh) (Nat.lt_irrefl _),
      fun _ hmem => (by cases hmem), ?_⟩
    rw [List.append_nil]
    exact h
  | cons cells rows ih =>
    unfold Scan.checkRows at hclean hend ⊢
    dsimp only at hclean hend ⊢
    split at hclean
    next hstop =>
      rw [if_pos hstop, hstop] at hend
      cases hend
    next hgo =>
      rw [if_neg hgo] at hend ⊢
      have hnot := mt (s.countRow_incomplete hs).mpr hgo
      rw [countRow_eq hgo] at hclean hend ⊢
      have hsame := Scan.sameProgress_checkRow { s with rowCount := s.rowCount + 1 } reader limits
        analysis cells
      have hrow := errors_of_checkRows hclean
      obtain ⟨hcells, htracks⟩ := checkRow_clean hplan hrow fun entry hentry hunique =>
        (h entry hentry hunique).same ⟨rfl, fun hmem => hmem⟩
      have hrest := ih (hsame.scanIncomplete.trans hs) hclean hend htracks
      have hcount := hsame.rowCount
      dsimp only at hcount hnot
      have hlength : (cells :: rows).length = rows.length + 1 := List.length_cons
      refine ⟨?_, fun row hlow hhigh => ?_, fun cells' hmem => ?_, ?_⟩
      · rw [hrest.rowCount, hcount]
        omega
      · by_cases hnext : row = s.rowCount + 1
        · rw [hnext]
          exact hnot
        · exact hrest.unstopped row (by omega) (by omega)
      · rcases List.mem_cons.mp hmem with rfl | hmem
        · exact hcells
        · exact hrest.clean cells' hmem
      · have htracks' := hrest.tracks
        rw [List.append_assoc] at htracks'
        exact htracks'

/-- A scan that stops has passed its cap, or recorded why. -/
theorem checkRows_incomplete (hs : s.scanIncomplete = false)
    (hend : (s.checkRows env period cap reader limits analysis rows).scanIncomplete = true) :
    (s.checkRows env period cap reader limits analysis rows).builder.errors ≠ [] ∨
      cap < (s.checkRows env period cap reader limits analysis rows).rowCount := by
  induction rows generalizing s with
  | nil =>
    rw [show (s.checkRows env period cap reader limits analysis []).scanIncomplete =
      s.scanIncomplete from rfl, hs] at hend
    cases hend
  | cons cells rows ih =>
    unfold Scan.checkRows at hend ⊢
    dsimp only at hend ⊢
    split
    next hstop =>
      unfold Scan.countRow at hstop ⊢
      dsimp only at hstop ⊢
      split_ifs at hstop ⊢ with hcap hlate
      · exact .inr hcap
      · exact .inl (Builder.addError_ne_nil _ _)
      · rw [hs] at hstop
        cases hstop
    next hgo =>
      rw [if_neg hgo] at hend
      refine ih ?_ hend
      rw [(Scan.sameProgress_checkRow _ reader limits analysis cells).scanIncomplete]
      exact Bool.eq_false_of_not_eq_true hgo

end Rows

/-! ### The verdicts of the end -/

section Verdicts

variable {κ : Type} {env : Environment} {schema : SubmissionSchema} {limits : ValidationLimits}
  {header : Option Analysis} {s : Scan κ}

/-- A scan that stopped fails. -/
theorem finalize_incomplete (hs : s.scanIncomplete = true)
    (hwhy : s.builder.errors ≠ [] ∨ hardCap schema limits < s.rowCount) :
    (finalizeFindings env schema limits header s).errors ≠ [] := by
  unfold finalizeFindings
  rw [if_pos hs]
  intro hnil
  obtain ⟨hcapped, hmax⟩ := Builder.addErrors_eq_nil hnil
  split at hcapped
  next => exact Builder.addError_ne_nil _ _ hcapped
  next hrows =>
    rw [Builder.addWarning_errors] at hcapped
    have hcap := hwhy.resolve_left (not_not.mpr hcapped)
    unfold hardCap at hcap
    unfold maxRowsErrors at hmax
    split at hcap
    next => omega
    next maxRows heq =>
      rw [heq] at hmax
      dsimp only at hmax
      split at hmax
      next => cases hmax
      next => omega

/-- The end of a scan keeps its errors. -/
theorem errors_of_finalize (hclean : (finalizeFindings env schema limits header s).errors = []) :
    s.builder.errors = [] := by
  unfold finalizeFindings at hclean
  split at hclean
  · have hcapped := (Builder.addErrors_eq_nil hclean).1
    split at hcapped
    · exact (Builder.addError_ne_nil _ _ hcapped).elim
    · rw [Builder.addWarning_errors] at hcapped
      exact hcapped
  · exact (Builder.addErrors_eq_nil (Builder.addErrors_eq_nil (Builder.addErrors_eq_nil
      hclean).1).1).1

/-- A whole scan passes with rows, and within the bounds of the schema. -/
theorem finalize_complete (hs : s.scanIncomplete = false) (hheader : header.isSome = true)
    (hclean : (finalizeFindings env schema limits header s).errors = []) :
    0 < s.rowCount ∧ (∀ low ∈ schema.minRows, low.1 ≤ (s.rowCount : ℤ)) ∧
      ∀ high ∈ schema.maxRows, (s.rowCount : ℤ) ≤ high.1 := by
  unfold finalizeFindings at hclean
  rw [if_neg (by rw [hs]; exact Bool.false_ne_true)] at hclean
  obtain ⟨hrest, hmax⟩ := Builder.addErrors_eq_nil hclean
  obtain ⟨hdata, hmin⟩ := List.append_eq_nil_iff.mp (Builder.addErrors_eq_nil hrest).2
  refine ⟨?_, fun low hlow => ?_, fun high hhigh => ?_⟩
  · by_contra hnone
    rw [if_pos ⟨Nat.eq_zero_of_not_pos hnone, hheader⟩] at hdata
    cases hdata
  · rw [hlow] at hmin
    dsimp only at hmin
    split at hmin
    next => cases hmin
    next h => exact not_lt.mp h
  · unfold maxRowsErrors at hmax
    rw [hhigh] at hmax
    dsimp only at hmax
    split at hmax
    next => cases hmax
    next h => exact not_lt.mp h

end Verdicts

/-! ### The header of a clean scan -/

section Header

variable {schema : SubmissionSchema} {headerCells : List Text}

theorem column_name {name : Text} {rule : ColumnRule} (h : schema.column name = some rule) :
    rule.name = name := by
  have hname := List.find?_some h
  exact of_decide_eq_true hname

theorem repeated_eq_nil {seen names : List Text} (h : repeated seen names = []) :
    names.Nodup ∧ ∀ name ∈ names, name ∉ seen := by
  induction names generalizing seen with
  | nil => exact ⟨List.nodup_nil, fun _ h => (by cases h)⟩
  | cons name names ih =>
    unfold repeated at h
    split at h
    next => cases h
    next hnew =>
      obtain ⟨hnodup, hnames⟩ := ih h
      refine ⟨List.nodup_cons.mpr ⟨fun hmem => hnames name hmem (List.mem_cons_self ..), hnodup⟩,
        fun other hmem => ?_⟩
      rcases List.mem_cons.mp hmem with rfl | hmem
      · exact hnew
      · exact fun hseen => hnames other hmem (List.mem_cons_of_mem _ hseen)

def ColumnAt (schema : SubmissionSchema) (headerCells : List Text) (index : ℕ) (rule : ColumnRule) :
    Prop :=
  ∃ name, headerCells[index]? = some name ∧ schema.column name = some rule

theorem planFrom_cons {k : ℕ} {name : Text} {names : List Text} :
    planFrom schema k (name :: names) =
      ((schema.column name).map fun rule => (k, rule)).toList ++ planFrom schema (k + 1) names := by
  rw [planFrom]
  cases schema.column name with
  | none => rfl
  | some rule => rfl

/-- The plan holds the declared columns of the header and their positions. -/
theorem mem_planFrom {k : ℕ} {entry : ℕ × ColumnRule} :
    entry ∈ planFrom schema k headerCells ↔
      ∃ index, entry.1 = k + index ∧ ColumnAt schema headerCells index entry.2 := by
  induction headerCells generalizing k with
  | nil =>
    refine iff_of_false (fun h => by cases h) ?_
    rintro ⟨_, _, _, h, _⟩
    cases h
  | cons name names ih =>
    -- The positions of the rest, one further.
    have hrest : (∃ index, entry.1 = k + 1 + index ∧ ColumnAt schema names index entry.2) ↔
        ∃ index, entry.1 = k + (index + 1) ∧
          ColumnAt schema (name :: names) (index + 1) entry.2 := by
      simp only [ColumnAt, List.getElem?_cons_succ, Nat.add_assoc, Nat.add_comm 1]
    have hsplit : (∃ index, entry.1 = k + index ∧ ColumnAt schema (name :: names) index entry.2) ↔
        (entry.1 = k ∧ schema.column name = some entry.2) ∨
          ∃ index, entry.1 = k + (index + 1) ∧
            ColumnAt schema (name :: names) (index + 1) entry.2 := by
      constructor
      · rintro ⟨index, hindex, hcolumn⟩
        cases index with
        | zero =>
          obtain ⟨name', hname, hcolumn⟩ := hcolumn
          obtain rfl := Option.some.inj hname
          exact .inl ⟨hindex, hcolumn⟩
        | succ index => exact .inr ⟨index, hindex, hcolumn⟩
      · rintro (⟨hindex, hcolumn⟩ | ⟨index, hindex, hcolumn⟩)
        · exact ⟨0, hindex, name, rfl, hcolumn⟩
        · exact ⟨index + 1, hindex, hcolumn⟩
    rw [hsplit, ← hrest, ← ih, planFrom_cons, List.mem_append]
    refine or_congr_left ?_
    cases hcolumn : schema.column name with
    | none => exact iff_of_false (fun h => by cases h) fun h => (by cases h.2)
    | some rule =>
      rw [Option.map_some, Option.toList_some, List.mem_singleton]
      constructor
      · rintro rfl
        exact ⟨rfl, rfl⟩
      · rintro ⟨hindex, hsome⟩
        exact Prod.ext hindex (Option.some.inj hsome).symm

theorem planFrom_sublist {k : ℕ} :
    ((planFrom schema k headerCells).map fun entry => entry.2.name).Sublist headerCells := by
  induction headerCells generalizing k with
  | nil => exact List.Sublist.refl _
  | cons name names ih =>
    rw [planFrom_cons]
    cases hrule : schema.column name with
    | none => exact ih.cons name
    | some rule =>
      rw [Option.map_some, Option.toList_some, List.singleton_append, List.map_cons,
        column_name hrule]
      exact ih.cons_cons name

/-- A header that adds no error has each of its names once, and each required column. -/
theorem analyzeHeader_clean {limits : ValidationLimits} {b b' : Builder} {analysis : Analysis}
    (h : analyzeHeader headerCells schema limits b = (b', some analysis)) (hb' : b'.errors = []) :
    analysis.headerCells = headerCells ∧ analysis.plan = planFrom schema 0 headerCells ∧
      headerCells.length ≤ limits.maxColumns ∧ headerCells.Nodup ∧
      ∀ rule ∈ schema.requiredColumns, rule.name ∈ headerCells := by
  unfold analyzeHeader at h
  split at h
  next => cases h
  next hwidth =>
    obtain ⟨rfl, hanalysis⟩ := Prod.mk.inj h
    obtain rfl := Option.some.inj hanalysis
    obtain ⟨hheader, _⟩ := List.append_eq_nil_iff.mp (Builder.addErrors_eq_nil hb').2
    obtain ⟨hrepeated, hmissing⟩ := List.append_eq_nil_iff.mp hheader
    refine ⟨rfl, rfl, not_lt.mp hwidth, (repeated_eq_nil (List.map_eq_nil_iff.mp hrepeated)).1,
      fun rule hrule => ?_⟩
    by_contra hnot
    have hmem : rule.name ∈ missingColumns schema headerCells :=
      List.mem_filter.mpr ⟨List.mem_map_of_mem hrule, decide_eq_true hnot⟩
    rw [List.map_eq_nil_iff.mp hmissing] at hmem
    cases hmem

theorem planned {analysis : Analysis} (hcells : analysis.headerCells = headerCells)
    (hplan : analysis.plan = planFrom schema 0 headerCells) (hnodup : headerCells.Nodup) :
    Planned analysis := by
  constructor
  · intro entry hentry
    rw [hplan] at hentry
    obtain ⟨index, hindex, name, hname, _⟩ := mem_planFrom.mp hentry
    rw [hindex, Nat.zero_add, hcells]
    exact (List.getElem?_eq_some_iff.mp hname).1
  · rw [hplan]
    exact hnodup.sublist planFrom_sublist

end Header

/-! ### Clean scans -/

/-- A whole scan of these rows under this header, without a finding. -/
structure CleanScan {ν κ : Type} (env : Environment) (period : ℕ) (schema : SubmissionSchema)
    (limits : ValidationLimits) (reader : CellReader ν κ) (headerCells : List Text)
    (rows : List (List ν)) : Prop where
  columns : headerCells.length ≤ limits.maxColumns
  required : ∀ rule ∈ schema.requiredColumns, headerCells.count rule.name = 1
  nonempty : 0 < rows.length
  minRows : ∀ low ∈ schema.minRows, low.1 ≤ (rows.length : ℤ)
  maxRows : ∀ high ∈ schema.maxRows, (rows.length : ℤ) ≤ high.1
  unstopped : ∀ row, 0 < row → row ≤ rows.length → ¬ Stops env period (hardCap schema limits) row
  width : ∀ cells ∈ rows, cells.length = headerCells.length
  cells : ∀ cells ∈ rows, ∀ index rule cell, ColumnAt schema headerCells index rule →
    cells[index]? = some cell → CleanCell reader rule cell
  unique : ∀ index rule, ColumnAt schema headerCells index rule → rule.unique = true →
    Distinct (keysAt reader index rows)

section Passed

variable {ν κ : Type} [DecidableEq κ] {env : Environment} {period : ℕ} {schema : SubmissionSchema}
  {limits : ValidationLimits} {reader : CellReader ν κ} {headerCells : List Text}
  {rows : List (List ν)} {analysis : Analysis} {b b' : Builder} {s : Scan κ}

theorem analyzeHeader_none (h : analyzeHeader headerCells schema limits b = (b', none)) :
    b'.errors ≠ [] := by
  unfold analyzeHeader at h
  split at h
  next =>
    obtain ⟨rfl, _⟩ := Prod.mk.inj h
    exact Builder.addError_ne_nil _ _
  next => cases (Prod.mk.inj h).2

omit [DecidableEq κ] in
theorem analyzeHeader_cells
    (h : analyzeHeader headerCells schema limits b = (b', some analysis)) :
    analysis.headerCells = headerCells := by
  unfold analyzeHeader at h
  split at h
  · cases (Prod.mk.inj h).2
  · obtain rfl := Option.some.inj (Prod.mk.inj h).2
    rfl

/-- A scan without an error is whole and clean. -/
theorem cleanScan_of_passed
    (hheader : analyzeHeader headerCells schema limits b = (b', some analysis))
    (hs : s = (Scan.start b').checkRows env period (hardCap schema limits) reader limits analysis
      rows)
    (hclean : (finalizeFindings env schema limits (some analysis) s).errors = []) :
    CleanScan env period schema limits reader headerCells rows ∧ s.rowCount = rows.length ∧
      s.scanIncomplete = false := by
  have hend : s.scanIncomplete = false := by
    by_contra hstop
    rw [Bool.not_eq_false] at hstop
    refine finalize_incomplete hstop ?_ hclean
    rw [hs] at hstop ⊢
    exact checkRows_incomplete rfl hstop
  have herrors := errors_of_finalize hclean
  obtain ⟨hnonempty, hmin, hmax⟩ := finalize_complete hend rfl hclean
  have hheaderErrors : b'.errors = [] := by
    rw [hs] at herrors
    exact errors_of_checkRows herrors
  obtain ⟨hcells, hplan, hcolumns, hnodup, hrequired⟩ := analyzeHeader_clean hheader hheaderErrors
  have hchecked : Checked env period (hardCap schema limits) reader analysis (Scan.start b') s []
      rows := by
    rw [hs] at herrors hend ⊢
    refine checkRows_clean (planned hcells hplan hnodup) rfl herrors hend fun entry _ _ => ?_
    exact ⟨rfl, distinct_nil, fun hmem => (by cases hmem)⟩
  have hcount : s.rowCount = rows.length := hchecked.rowCount.trans (Nat.zero_add _)
  rw [hcount] at hnonempty hmin hmax
  have hentry : ∀ index rule, ColumnAt schema headerCells index rule →
      (index, rule) ∈ analysis.plan := by
    intro index rule hcolumn
    rw [hplan]
    exact mem_planFrom.mpr ⟨index, (Nat.zero_add _).symm, hcolumn⟩
  refine ⟨⟨hcolumns, fun rule hrule => ?_, hnonempty, hmin, hmax, fun row hlow hhigh => ?_,
    fun cells hmem => ?_, fun cells hmem index rule cell hcolumn hcell => ?_,
    fun index rule hcolumn hunique => ?_⟩, hcount, hend⟩
  · exact List.count_eq_one_of_mem hnodup (hrequired rule hrule)
  · refine hchecked.unstopped row hlow ?_
    change row ≤ 0 + rows.length
    rw [Nat.zero_add]
    exact hhigh
  · rw [(hchecked.clean cells hmem).width, hcells]
  · exact (hchecked.clean cells hmem).cells _ (hentry index rule hcolumn) cell hcell
  · exact (hchecked.tracks _ (hentry index rule hcolumn) hunique).distinct

/-- The end of a loop over rows: the shared loop, which had no fault behind it unless it stopped
before, or a fault. -/
def Ends (s checked : Scan κ) (faultless : Prop) : Prop :=
  (s = checked ∧ (faultless ∨ s.scanIncomplete = true)) ∨
    ∃ s' finding, s = { Scan.addError s' finding with scanIncomplete := true }

theorem clean_of_ends {faultless : Prop}
    (hends : Ends s ((Scan.start b').checkRows env period (hardCap schema limits) reader limits
      analysis rows) faultless)
    (hheader : analyzeHeader headerCells schema limits b = (b', some analysis))
    (hclean : (finalizeFindings env schema limits (some analysis) s).errors = []) :
    faultless ∧ s.rowCount = rows.length ∧
      CleanScan env period schema limits reader headerCells rows := by
  rcases hends with ⟨hs, hfault⟩ | ⟨s', finding, hs⟩
  · obtain ⟨hscan, hcount, hend⟩ := cleanScan_of_passed hheader hs hclean
    refine ⟨hfault.resolve_right ?_, hcount, hscan⟩
    rw [hend]
    exact Bool.false_ne_true
  · have herrors := errors_of_finalize hclean
    rw [hs] at herrors
    exact (Builder.addError_ne_nil _ _ herrors).elim

end Passed

end CampusQuest.Validators
