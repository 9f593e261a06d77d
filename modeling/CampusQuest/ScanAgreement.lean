import CampusQuest.CsvScan
import CampusQuest.WorksheetBounds

/-!
One grid of texts, scanned as the rows of a CSV reader and as the rows of a worksheet. Both scans
check the same rows unless a row holds nothing but white space: it is blank for the one and a row
for the other.
-/

namespace CampusQuest.Validators

open Tasks

def ContentRow (row : List Text) : Prop := ∃ text ∈ row, text ≠ []

instance (row : List Text) : Decidable (ContentRow row) :=
  inferInstanceAs (Decidable (∃ text ∈ row, text ≠ []))

def SpacesRow (row : List Text) : Prop := ContentRow row ∧ BlankRow row

instance (row : List Text) : Decidable (SpacesRow row) :=
  inferInstanceAs (Decidable (_ ∧ _))

/-- Cells that hold the texts of a row: an empty text is an absent cell or a cell without a text,
and absent cells pad the row to the declared width. -/
def Encodes (row : List Text) (cells : List Cell) : Prop :=
  ∃ front pad, cells = front ++ List.replicate pad .empty ∧ front.length ≤ row.length ∧
    padTo row.length (front.map Cell.text) = row

structure Agree (r r' : ValidationReport) : Prop where
  rowCount : r.aggregates.rowCount = r'.aggregates.rowCount
  nullCounts : r.aggregates.nullCounts = r'.aggregates.nullCounts
  typeErrorCounts : r.aggregates.typeErrorCounts = r'.aggregates.typeErrorCounts
  duplicateCounts : r.aggregates.duplicateCounts = r'.aggregates.duplicateCounts
  passed : r.passed ↔ r'.passed

section Cells

variable {limits : ValidationLimits} {row : List Text} {cells : List Cell} {n : ℕ}

theorem contentRow_of_not_blank (h : ¬ BlankRow row) : ContentRow row := by
  unfold BlankRow at h
  push Not at h
  obtain ⟨text, hmem, htext⟩ := h
  refine ⟨text, hmem, ?_⟩
  rintro rfl
  exact htext rfl

theorem padTo_concat_nil {texts : List Text} (h : texts.length < n) :
    padTo n (texts ++ [[]]) = padTo n texts := by
  unfold padTo
  rw [List.length_append, List.length_singleton, List.append_assoc]
  congr 1
  rw [List.singleton_append, ← List.replicate_succ]
  congr 1
  omega

/-- Absent cells at the end of a row are part of its padding. -/
theorem padTo_rdropWhile {front : List Cell} (h : front.length ≤ n) :
    padTo n ((front.rdropWhile (· = .empty)).map Cell.text) = padTo n (front.map Cell.text) := by
  induction front using List.reverseRecOn with
  | nil => rfl
  | append_singleton front cell ih =>
    rw [List.length_append, List.length_singleton] at h
    rw [List.rdropWhile_concat]
    split
    next hempty =>
      obtain rfl := of_decide_eq_true hempty
      rw [ih (by omega), List.map_append]
      refine (padTo_concat_nil ?_).symm
      rw [List.length_map]
      omega
    next => rfl

theorem rdropWhile_append_replicate {α : Type} {p : α → Bool} {l : List α} {x : α} (hx : p x = true)
    (k : ℕ) : (l ++ List.replicate k x).rdropWhile p = l.rdropWhile p := by
  induction k with
  | zero => rw [List.replicate_zero, List.append_nil]
  | succ k ih =>
    rw [List.replicate_succ', ← List.append_assoc, List.rdropWhile_concat_pos _ _ _ hx]
    exact ih

/-- The cells of a row hold its texts, up to the padding. -/
theorem Encodes.padTo_rowCells (h : Encodes row cells) (hwidth : row.length ≤ limits.maxColumns) :
    (rowCells limits cells).length ≤ row.length ∧
      padTo row.length ((rowCells limits cells).map Cell.text) = row := by
  obtain ⟨front, pad, rfl, hfront, hrow⟩ := h
  have hcells : rowCells limits (front ++ List.replicate pad .empty) =
      front.rdropWhile (· = .empty) := by
    unfold rowCells
    rw [List.take_append, List.take_of_length_le (by omega), List.take_replicate]
    exact rdropWhile_append_replicate (by simp) _
  rw [hcells]
  exact ⟨(List.rdropWhile_prefix _ _).length_le.trans hfront, (padTo_rdropWhile hfront).trans hrow⟩

theorem hasText_iff : HasText cells ↔ ContentRow (padTo n (cells.map Cell.text)) := by
  unfold HasText ContentRow padTo
  constructor
  · rintro ⟨cell, hmem, htext⟩
    exact ⟨cell.text, List.mem_append_left _ (List.mem_map_of_mem hmem), htext⟩
  · rintro ⟨text, hmem, htext⟩
    rcases List.mem_append.mp hmem with hmem | hmem
    · obtain ⟨cell, hcell, rfl⟩ := List.mem_map.mp hmem
      exact ⟨cell, hcell, htext⟩
    · exact absurd (List.eq_of_mem_replicate hmem) htext

theorem Encodes.hasText_iff (h : Encodes row cells) (hwidth : row.length ≤ limits.maxColumns) :
    HasText (rowCells limits cells) ↔ ContentRow row := by
  rw [Validators.hasText_iff (n := row.length), (h.padTo_rowCells hwidth).2]

/-- The header of a row: its texts stripped, without the blank ones at the end. -/
theorem Encodes.headerOf_eq (h : Encodes row cells) (hwidth : row.length ≤ limits.maxColumns) :
    headerOf (rowCells limits cells) = (row.map strip).rdropWhile (· = []) := by
  have hrow := (h.padTo_rowCells hwidth).2
  conv_rhs => rw [← hrow]
  unfold padTo headerOf
  rw [List.map_append, List.map_map, List.map_replicate]
  exact (rdropWhile_append_replicate (by decide) _).symm

end Cells

section Grid

variable {limits : ValidationLimits} {grid : List (List Text)} {sheet : List (List Cell)} {n : ℕ}

/-- Fewer rows without a text follow each other than the streak allows. -/
def WithinStreak (grid : List (List Text)) : Prop :=
  ∀ l, l <:+: grid → (∀ row ∈ l, ¬ ContentRow row) → l.length < maxEmptyRowStreak

/-- The same behind a number of rows without a text. -/
def WithinStreakFrom (streak : ℕ) (grid : List (List Text)) : Prop :=
  ∀ l, l <+: grid → (∀ row ∈ l, ¬ ContentRow row) → streak + l.length < maxEmptyRowStreak

theorem WithinStreak.tail {row : List Text} (h : WithinStreak (row :: grid)) : WithinStreak grid :=
  fun l hl => h l (hl.trans (List.suffix_cons row grid).isInfix)

theorem WithinStreak.from_zero (h : WithinStreak grid) : WithinStreakFrom 0 grid := by
  intro l hl hempty
  rw [Nat.zero_add]
  exact h l hl.isInfix hempty

theorem WithinStreakFrom.tail {streak : ℕ} {row : List Text} (hrow : ¬ ContentRow row)
    (h : WithinStreakFrom streak (row :: grid)) : WithinStreakFrom (streak + 1) grid := by
  intro l hl hempty
  have hcons := h (row :: l) ((List.prefix_cons_inj row).mpr hl) fun r hr => by
    rcases List.mem_cons.mp hr with rfl | hr
    · exact hrow
    · exact hempty r hr
  rw [List.length_cons] at hcons
  omega

theorem WithinStreakFrom.lt {streak : ℕ} {row : List Text} (hrow : ¬ ContentRow row)
    (h : WithinStreakFrom streak (row :: grid)) : ¬ streak + 1 ≥ maxEmptyRowStreak := by
  have hone := h [row] ⟨grid, rfl⟩ fun r hr => by
    rw [List.mem_singleton.mp hr]
    exact hrow
  exact not_le.mpr hone

/-- Behind the header the scan of the sheet sees the rows with a text. -/
theorem contentRows_eq {streak : ℕ} (hsheet : List.Forall₂ Encodes grid sheet)
    (hwidth : ∀ row ∈ grid, row.length = n) (hcolumns : n ≤ limits.maxColumns)
    (hstreak : WithinStreak grid) (hfrom : WithinStreakFrom streak grid) :
    (∀ cells ∈ contentRows limits streak sheet, cells.length ≤ n) ∧
    (contentRows limits streak sheet).map (fun cells => padTo n (cells.map Cell.text)) =
      grid.filter fun row => ContentRow row := by
  induction hsheet generalizing streak with
  | nil => exact ⟨fun _ h => (by cases h), rfl⟩
  | @cons row cells grid sheet hrow _ ih =>
    have hn := hwidth row (List.mem_cons_self ..)
    have htail : ∀ row ∈ grid, row.length = n := fun r hr => hwidth r (List.mem_cons_of_mem _ hr)
    have hcells := hrow.padTo_rowCells (hn.trans_le hcolumns)
    have htext := hrow.hasText_iff (hn.trans_le hcolumns)
    rw [hn] at hcells
    unfold contentRows
    by_cases hcontent : ContentRow row
    · have hrest := ih htail hstreak.tail hstreak.tail.from_zero
      rw [if_pos (htext.mpr hcontent), List.filter_cons_of_pos (by simpa using hcontent),
        List.map_cons, hcells.2, hrest.2]
      refine ⟨fun c hc => ?_, rfl⟩
      rcases List.mem_cons.mp hc with rfl | hc
      · exact hcells.1
      · exact hrest.1 c hc
    · rw [if_neg (mt htext.mp hcontent), if_neg (hfrom.lt hcontent),
        List.filter_cons_of_neg (by simpa using hcontent)]
      exact ih htail hstreak.tail (hfrom.tail hcontent)

end Grid

/-! ### The scan of the rows -/

section Rows

variable {env : Environment} {schema : SubmissionSchema} {limits : ValidationLimits}
  {analysis : Analysis} {ν κ : Type} [DecidableEq κ] {reader : CellReader ν κ} {cap : ℕ}

/-- Without a late check of the clock its period makes no difference. -/
theorem checkRows_period (hlate : ∀ row, env.late row = false) (period period' : ℕ)
    (rows : List (List ν)) (s : Scan κ) :
    s.checkRows env period cap reader limits analysis rows =
      s.checkRows env period' cap reader limits analysis rows := by
  have hcount : ∀ s : Scan κ, s.countRow env period cap = s.countRow env period' cap := by
    intro s
    have hno : ∀ (period row : ℕ), ¬ (row % period = 0 ∧ env.late row = true) := by
      rintro period row ⟨_, h⟩
      rw [hlate] at h
      cases h
    unfold Scan.countRow
    dsimp only
    rw [if_neg (hno period _), if_neg (hno period' _)]
  induction rows generalizing s with
  | nil => rfl
  | cons cells rows ih =>
    unfold Scan.checkRows
    dsimp only
    rw [hcount s, ih]

/-- Below the cap every row is counted. -/
theorem checkRows_rowCount (hlate : ∀ row, env.late row = false) {period : ℕ}
    {rows : List (List ν)} {s : Scan κ} (hs : s.scanIncomplete = false)
    (hcap : s.rowCount + rows.length ≤ cap) :
    (s.checkRows env period cap reader limits analysis rows).rowCount =
        s.rowCount + rows.length ∧
      (s.checkRows env period cap reader limits analysis rows).scanIncomplete = false := by
  induction rows generalizing s with
  | nil => exact ⟨rfl, hs⟩
  | cons cells rows ih =>
    rw [List.length_cons] at hcap
    have hgo : ¬ (s.countRow env period cap).scanIncomplete = true := by
      rw [s.countRow_incomplete hs]
      rintro (hover | ⟨_, h⟩)
      · omega
      · rw [hlate] at h
        cases h
    have hsame := (s.countRow env period cap).sameProgress_checkRow reader limits analysis cells
    unfold Scan.checkRows
    dsimp only
    rw [if_neg hgo]
    have hcount := hsame.rowCount.trans s.rowCount_countRow
    have hrest := ih (hsame.scanIncomplete.trans (Bool.eq_false_of_not_eq_true hgo))
      (by rw [hcount]; omega)
    rw [hcount] at hrest
    rw [List.length_cons]
    exact ⟨hrest.1.trans (by omega), hrest.2⟩

end Rows

/-! ### The header row -/

section Header

variable {env : Environment} {schema : SubmissionSchema} {limits : ValidationLimits}
  {grid pre rest : List (List Text)} {sheet : List (List Cell)} {b : Builder} {n : ℕ}

theorem blankRow_of_not_content {row : List Text} (h : ¬ ContentRow row) : BlankRow row := by
  by_contra hblank
  exact h (contentRow_of_not_blank hblank)

theorem consume_skip (hpre : ∀ row ∈ pre, BlankRow row) :
    consume env schema limits none (pre ++ rest) b = consume env schema limits none rest b := by
  induction pre with
  | nil => rfl
  | cons row pre ih =>
    rw [List.cons_append]
    unfold consume
    rw [if_pos (hpre row (List.mem_cons_self ..))]
    rw [ih fun r hr => hpre r (List.mem_cons_of_mem _ hr)]
    cases rest <;> rfl

theorem scanSheetFrom_skip {streak : ℕ} (hsheet : List.Forall₂ Encodes (pre ++ rest) sheet)
    (hwidth : ∀ row ∈ pre ++ rest, row.length = n) (hcolumns : n ≤ limits.maxColumns)
    (hfrom : WithinStreakFrom streak (pre ++ rest)) (hpre : ∀ row ∈ pre, ¬ ContentRow row) :
    List.Forall₂ Encodes rest (sheet.drop pre.length) ∧
      scanSheetFrom env schema limits streak sheet b =
        scanSheetFrom env schema limits (streak + pre.length) (sheet.drop pre.length) b := by
  induction pre generalizing streak sheet with
  | nil => exact ⟨hsheet, rfl⟩
  | cons row pre ih =>
    cases hsheet with
    | @cons _ cells _ sheet hrow hsheet =>
      have hempty := hpre row (List.mem_cons_self ..)
      have hn := hwidth row (List.mem_cons_self ..)
      obtain ⟨hsheet', hscan⟩ := ih hsheet (fun r hr => hwidth r (List.mem_cons_of_mem _ hr))
        (WithinStreakFrom.tail hempty hfrom) fun r hr => hpre r (List.mem_cons_of_mem _ hr)
      refine ⟨hsheet', ?_⟩
      rw [List.length_cons, List.drop_succ_cons, Nat.add_comm pre.length, ← Nat.add_assoc, ← hscan]
      conv_lhs => unfold scanSheetFrom
      dsimp only
      rw [if_neg (mt (hrow.hasText_iff (hn.trans_le hcolumns)).mp hempty),
        if_neg (WithinStreakFrom.lt hempty hfrom)]

/-- The rows before the first one with a text. -/
theorem exists_split (grid : List (List Text)) : ∃ pre rest, grid = pre ++ rest ∧
    (∀ row ∈ pre, ¬ ContentRow row) ∧ (rest = [] ∨ ∃ row post, rest = row :: post ∧
      ContentRow row) := by
  induction grid with
  | nil => exact ⟨[], [], rfl, fun _ h => (by cases h), .inl rfl⟩
  | cons row grid ih =>
    by_cases hcontent : ContentRow row
    · exact ⟨[], row :: grid, rfl, fun _ h => (by cases h), .inr ⟨row, grid, rfl, hcontent⟩⟩
    · obtain ⟨pre, rest, rfl, hpre, hrest⟩ := ih
      refine ⟨row :: pre, rest, rfl, fun r hr => ?_, hrest⟩
      rcases List.mem_cons.mp hr with rfl | hr
      · exact hcontent
      · exact hpre r hr

end Header

/-! ### The two scans -/

/-- A grid that is within every cap, with a header whose last cell is not blank. -/
structure Bounded (env : Environment) (schema : SubmissionSchema) (limits : ValidationLimits)
    (grid : List (List Text)) (n : ℕ) : Prop where
  late : ∀ row, env.late row = false
  width : ∀ row ∈ grid, row.length = n
  columns : n ≤ limits.maxColumns
  rows : grid.length ≤ hardCap schema limits
  streak : WithinStreak grid
  header : ∀ row, grid.find? (fun row => ¬ BlankRow row) = some row →
    ∀ last ∈ row.getLast?, strip last ≠ []

section Agreement

variable {env : Environment} {schema : SubmissionSchema} {limits : ValidationLimits}
  {grid : List (List Text)} {sheet : List (List Cell)} {b : Builder} {n : ℕ}

theorem Agree.refl (report : ValidationReport) : Agree report report := ⟨rfl, rfl, rfl, rfl, .rfl⟩

theorem filter_blank_eq (hplain : ∀ row ∈ grid, ¬ SpacesRow row) :
    grid.filter (fun row => ¬ BlankRow row) = grid.filter fun row => ContentRow row := by
  refine List.filter_congr fun row hrow => ?_
  rw [decide_eq_decide]
  refine ⟨contentRow_of_not_blank, fun hcontent hblank => ?_⟩
  exact hplain row hrow ⟨hcontent, hblank⟩

theorem filter_blank_lt (hspaces : ∃ row ∈ grid, SpacesRow row) :
    (grid.filter fun row => ¬ BlankRow row).length <
      (grid.filter fun row => ContentRow row).length := by
  obtain ⟨row, hrow, hcontent, hblank⟩ := hspaces
  have hsub : grid.filter (fun row => ¬ BlankRow row) =
      (grid.filter fun row => ContentRow row).filter fun row => ¬ BlankRow row := by
    rw [List.filter_filter]
    refine List.filter_congr fun r _ => ?_
    rw [← Bool.decide_and, decide_eq_decide]
    exact ⟨fun h => ⟨h, contentRow_of_not_blank h⟩, fun h => h.1⟩
  rw [hsub, List.length_filter_lt_length_iff_exists]
  exact ⟨row, List.mem_filter.mpr ⟨hrow, by simpa using hcontent⟩, by simpa using hblank⟩

theorem rdropWhile_header {row : List Text} (hlast : ∀ last ∈ row.getLast?, strip last ≠ []) :
    (row.map strip).rdropWhile (· = []) = row.map strip := by
  rw [List.rdropWhile_eq_self_iff]
  intro hne hblank
  rw [List.getLast_map] at hblank
  exact hlast _ (List.getLast_mem_getLast? _) (of_decide_eq_true hblank)

/-- With one header and the same rows behind it the two scans agree. -/
theorem agree_behind_header {row : List Text} {post : List (List Text)} {cells : List Cell}
    {sheet : List (List Cell)} (hbound : Bounded env schema limits (row :: post) n)
    (hrow : Encodes row cells) (hpost : List.Forall₂ Encodes post sheet)
    (hcontent : ContentRow row) (hplain : ∀ r ∈ row :: post, ¬ SpacesRow r) :
    ∃ report, scanSheet env schema limits (cells :: sheet) b = .ok report ∧
      Agree (consume env schema limits none (row :: post) b) report := by
  have hblank : ¬ BlankRow row := fun h => hplain row (List.mem_cons_self ..) ⟨hcontent, h⟩
  have hn := hbound.width row (List.mem_cons_self ..)
  have hcolumns := hn.trans_le hbound.columns
  have htext := (hrow.hasText_iff hcolumns).mpr hcontent
  have hlast := hbound.header row (List.find?_cons_of_pos (by simpa using hblank))
  have hheader : headerOf (rowCells limits cells) = row.map strip :=
    (hrow.headerOf_eq hcolumns).trans (rdropWhile_header hlast)
  have hlength : (row.map strip).length = n := (List.length_map _).trans hn
  obtain ⟨analysis, hanalysis, hcells, _⟩ := @analyzeHeader_within _ schema limits b
    (hlength.trans_le hbound.columns)
  generalize b.addErrors (headerErrors schema (row.map strip)) = b' at hanalysis
  have hwidth : ∀ r ∈ post, r.length = n := fun r hr => hbound.width r (List.mem_cons_of_mem _ hr)
  obtain ⟨hshort, hrows⟩ := @contentRows_eq limits _ _ _ _ hpost hwidth hbound.columns
    hbound.streak.tail hbound.streak.tail.from_zero
  have hover : ∀ r ∈ beforeStop env xlsxTimeoutRows (hardCap schema limits) 0
      (contentRows limits 0 sheet), ¬ Overhang analysis.headerCells r := by
    rintro r hr ⟨index, cell, hindex, hcell, _⟩
    have hlong := (List.getElem?_eq_some_iff.mp hcell).1
    have hle := hshort r (mem_of_mem_beforeStop hr)
    rw [hcells] at hindex
    omega
  obtain ⟨formulaNulls, hok⟩ := scanRows_ok (s := ⟨Scan.start b', []⟩) rfl hover
  -- The CSV scan checks the same rows.
  have hconsume : consume env schema limits none (row :: post) b =
      finalizeScan env schema limits (some analysis)
        ((Scan.start b').checkRows env xlsxTimeoutRows (hardCap schema limits)
          (textReader env limits) limits analysis (post.filter fun r => ContentRow r)) := by
    unfold consume
    rw [if_neg hblank, hanalysis]
    dsimp only
    rw [consumeRows_eq, filter_blank_eq fun r hr => hplain r (List.mem_cons_of_mem _ hr),
      checkRows_period hbound.late csvTimeoutRows xlsxTimeoutRows]
  rw [scanSheet_cons htext (by rw [hheader]; exact hanalysis), hok, hconsume]
  rw [hcells, hlength, hrows]
  refine ⟨_, rfl, rfl, rfl, rfl, rfl, ?_⟩
  unfold ValidationReport.passed
  have herrors := @errors_finalizeFindings_congr env schema limits (some analysis) _ _ _
    (errors_formulaWarnings ⟨(Scan.start b').checkRows env xlsxTimeoutRows
      (hardCap schema limits) (textReader env limits) limits analysis
      (post.filter fun r => ContentRow r), formulaNulls⟩)
  exact iff_of_eq (congrArg (· = []) herrors.symm)

theorem errors_finalize_ne_nil {κ : Type} {header : Option Analysis} {s : Scan κ}
    (hs : s.builder.errors ≠ []) (hcomplete : s.scanIncomplete = false) :
    (finalizeFindings env schema limits header s).errors ≠ [] := by
  unfold finalizeFindings
  rw [if_neg (by rw [hcomplete]; exact Bool.false_ne_true)]
  refine List.IsPrefix.ne_nil ?_ hs
  exact ((Builder.errors_prefix_addErrors _ _).trans (Builder.errors_prefix_addErrors _ _)).trans
    (Builder.errors_prefix_addErrors _ _)

/-- A header without rows fails. -/
theorem no_rows_fail {κ : Type} {analysis : Analysis} {b' : Builder} :
    (finalizeFindings env schema limits (some analysis) (@Scan.start κ b')).errors ≠ [] := by
  unfold finalizeFindings
  rw [if_neg (by exact Bool.false_ne_true)]
  refine List.IsPrefix.ne_nil (Builder.errors_prefix_addErrors _ _) ?_
  unfold completeErrors
  rw [if_pos ⟨rfl, rfl⟩]
  exact List.IsPrefix.ne_nil
    (Builder.errors_prefix_addErrors (Builder.addError _ (.file .noDataRows none)) _)
    (Builder.addError_ne_nil _ _)

/-- A row of white space that is the only row with a text: the one scan finds no header, the other
one no row behind it, and both fail without a count. -/
theorem agree_single_spaces {row : List Text} {post : List (List Text)} {cells : List Cell}
    {sheet : List (List Cell)} (hbound : Bounded env schema limits (row :: post) n)
    (hrow : Encodes row cells) (hpost : List.Forall₂ Encodes post sheet)
    (hspaces : SpacesRow row) (hempty : ∀ r ∈ post, ¬ ContentRow r) :
    ∃ report, scanSheet env schema limits (cells :: sheet) b = .ok report ∧
      Agree (consume env schema limits none (row :: post) b) report := by
  have hn := hbound.width row (List.mem_cons_self ..)
  have hcolumns := hn.trans_le hbound.columns
  have htext := (hrow.hasText_iff hcolumns).mpr hspaces.1
  have hheader : headerOf (rowCells limits cells) = [] := by
    rw [hrow.headerOf_eq hcolumns, List.rdropWhile_eq_nil_iff]
    intro text htext
    obtain ⟨cell, hcell, rfl⟩ := List.mem_map.mp htext
    exact decide_eq_true (hspaces.2 cell hcell)
  obtain ⟨⟨headerCells, plan, missing, extra⟩, hanalysis, _, hplan⟩ :=
    @analyzeHeader_within [] schema limits b (Nat.zero_le _)
  obtain rfl : plan = [] := hplan
  generalize b.addErrors (headerErrors schema []) = b' at hanalysis
  have hwidth : ∀ r ∈ post, r.length = n := fun r hr => hbound.width r (List.mem_cons_of_mem _ hr)
  have hrows := (@contentRows_eq limits _ _ _ _ hpost hwidth hbound.columns
    hbound.streak.tail hbound.streak.tail.from_zero).2
  rw [List.filter_eq_nil_iff.mpr fun r hr => by simpa using hempty r hr, List.map_eq_nil_iff] at hrows
  obtain ⟨formulaNulls, hok⟩ := @scanRows_ok env schema limits
    ⟨headerCells, [], missing, extra⟩ 0 sheet ⟨Scan.start b', []⟩ rfl (by
      rw [hrows]
      exact fun _ h => (by cases h))
  rw [hrows] at hok
  have hconsume : consume env schema limits none (row :: post) b =
      finalizeScan env schema limits none
        (@Scan.start Text (b.addError (.file .emptyFile none))) := by
    have hskip := @consume_skip env schema limits (row :: post) [] b fun r hr => by
        rcases List.mem_cons.mp hr with rfl | hr
        · exact hspaces.2
        · exact blankRow_of_not_content (hempty r hr)
    rw [List.append_nil] at hskip
    exact hskip
  rw [scanSheet_cons htext (by rw [hheader]; exact hanalysis), hok, hconsume]
  refine ⟨_, rfl, rfl, rfl, rfl, rfl, ?_⟩
  · unfold ValidationReport.passed
    refine iff_of_false ?_ ?_
    · exact errors_finalize_ne_nil (Builder.addError_ne_nil _ _) rfl
    · intro hpassed
      have herrors := @errors_finalizeFindings_congr env schema limits
        (some ⟨headerCells, [], missing, extra⟩) _ _ _
        (errors_formulaWarnings ⟨Scan.start b', formulaNulls⟩)
      exact no_rows_fail (herrors.symm.trans hpassed)

/-! ### Grids that tell the scans apart -/

def cellsOf (row : List Text) : List Cell :=
  row.map fun text => if text = [] then .empty else .present (some text)

def sheetOf (grid : List (List Text)) : List (List Cell) := grid.map cellsOf

theorem encodes_cellsOf (row : List Text) : Encodes row (cellsOf row) := by
  refine ⟨_, 0, (List.append_nil _).symm, (List.length_map _).le, ?_⟩
  have htexts : ∀ text : Text,
      (if text = [] then Cell.empty else .present (some text)).text = text := by
    intro text
    split
    next h => exact h.symm
    next => rfl
  unfold padTo cellsOf
  rw [List.map_map, List.length_map, Nat.sub_self, List.replicate_zero, List.append_nil]
  exact (List.map_congr_left fun text _ => htexts text).trans (List.map_id _)

theorem encodes_sheetOf (grid : List (List Text)) : List.Forall₂ Encodes grid (sheetOf grid) := by
  induction grid with
  | nil => exact .nil
  | cons row grid ih => exact .cons (encodes_cellsOf row) ih

theorem mem_contentRows {streak : ℕ} {cells : List Cell}
    (h : cells ∈ contentRows limits streak sheet) : ∃ row ∈ sheet, cells = rowCells limits row := by
  induction sheet generalizing streak with
  | nil => cases h
  | cons row sheet ih =>
    have hrest : ∀ {k}, cells ∈ contentRows limits k sheet →
        ∃ r ∈ row :: sheet, cells = rowCells limits r := by
      intro k hk
      obtain ⟨r, hr, hcells⟩ := ih hk
      exact ⟨r, List.mem_cons_of_mem _ hr, hcells⟩
    unfold contentRows at h
    split at h
    · rcases List.mem_cons.mp h with rfl | h
      · exact ⟨row, List.mem_cons_self .., rfl⟩
      · exact hrest h
    · split at h
      · cases h
      · exact hrest h

/-- The cells that are left have a text or are absent. -/
theorem not_overhang_sheetOf {streak : ℕ} {cells : List Cell} {headerCells : List Text}
    (h : cells ∈ contentRows limits streak (sheetOf grid)) : ¬ Overhang headerCells cells := by
  rintro ⟨index, cell, _, hcell, htext, hpresent⟩
  obtain ⟨row, hrow, rfl⟩ := mem_contentRows h
  obtain ⟨texts, _, rfl⟩ := List.mem_map.mp hrow
  have hmem : cell ∈ cellsOf texts :=
    List.mem_of_mem_take ((List.rdropWhile_prefix _ _).mem (List.mem_of_getElem? hcell))
  obtain ⟨text, _, rfl⟩ := List.mem_map.mp hmem
  by_cases hne : text = []
  · rw [if_pos hne] at hpresent
    exact hpresent rfl
  · rw [if_neg hne] at htext
    exact hne htext

theorem csv_rowCount_le (hbound : Bounded env schema limits grid n) :
    (consume env schema limits none grid b).aggregates.rowCount ≤
      (grid.filter fun row => ¬ BlankRow row).length - 1 := by
  have hlate := hbound.late
  have hcap := hbound.rows
  clear hbound
  induction grid with
  | nil => exact Nat.zero_le _
  | cons row grid ih =>
    rw [List.length_cons] at hcap
    unfold consume
    by_cases hblank : BlankRow row
    · rw [if_pos hblank, List.filter_cons_of_neg (by simpa using hblank)]
      exact ih (by omega)
    · rw [if_neg hblank, List.filter_cons_of_pos (by simpa using hblank), List.length_cons,
        Nat.add_sub_cancel]
      split
      · exact Nat.zero_le _
      next b' analysis _ =>
        have hle := List.length_filter_le (fun row => decide (¬ BlankRow row)) grid
        have hcount := @checkRows_rowCount env limits analysis _ _ _ (textReader env limits)
          (hardCap schema limits) hlate csvTimeoutRows (grid.filter fun row => ¬ BlankRow row)
          (Scan.start b') rfl (by
            change 0 + _ ≤ _
            omega)
        rw [consumeRows_eq]
        exact (hcount.1.trans (Nat.zero_add _)).le

/-- The header that a row with a text leaves is within the cap. -/
theorem length_headerOf_le {row : List Text} {cells : List Cell} (hrow : Encodes row cells)
    (hwidth : row.length ≤ limits.maxColumns) :
    (headerOf (rowCells limits cells)).length ≤ limits.maxColumns := by
  rw [hrow.headerOf_eq hwidth]
  refine (List.rdropWhile_prefix _ _).length_le.trans ?_
  rw [List.length_map]
  exact hwidth

theorem xlsx_rowCount {row : List Text} {post : List (List Text)}
    (hbound : Bounded env schema limits (row :: post) n) (hcontent : ContentRow row)
    {report : ValidationReport}
    (hreport : scanSheet env schema limits (sheetOf (row :: post)) b = .ok report) :
    report.aggregates.rowCount = (post.filter fun r => ContentRow r).length := by
  have hn := hbound.width row (List.mem_cons_self ..)
  have hcolumns := hn.trans_le hbound.columns
  have hcap := hbound.rows
  rw [List.length_cons] at hcap
  have hrow := encodes_cellsOf row
  have htext := (hrow.hasText_iff hcolumns).mpr hcontent
  obtain ⟨analysis, hanalysis, _⟩ := @analyzeHeader_within _ schema limits b
    (length_headerOf_le hrow hcolumns)
  generalize b.addErrors (headerErrors schema (headerOf (rowCells limits (cellsOf row)))) = b'
    at hanalysis
  have hwidth : ∀ r ∈ post, r.length = n := fun r hr => hbound.width r (List.mem_cons_of_mem _ hr)
  have hrows := congrArg List.length (@contentRows_eq limits _ _ _ _ (encodes_sheetOf post) hwidth
    hbound.columns hbound.streak.tail hbound.streak.tail.from_zero).2
  rw [List.length_map] at hrows
  obtain ⟨formulaNulls, hok⟩ := @scanRows_ok env schema limits analysis 0 (sheetOf post)
    ⟨Scan.start b', []⟩ rfl
    fun cells hcells => not_overhang_sheetOf (mem_of_mem_beforeStop hcells)
  have hle := List.length_filter_le (fun r => decide (ContentRow r)) post
  have hcount := (@checkRows_rowCount env limits analysis _ _ _ (textReader env limits)
    (hardCap schema limits) hbound.late xlsxTimeoutRows
    ((contentRows limits 0 (sheetOf post)).map fun cells =>
      padTo analysis.headerCells.length (cells.map Cell.text))
    (Scan.start b') rfl (by
      rw [List.length_map, hrows]
      change 0 + _ ≤ _
      omega)).1
  change scanSheet env schema limits (cellsOf row :: sheetOf post) b = _ at hreport
  rw [scanSheet_cons htext hanalysis, hok] at hreport
  obtain rfl := Except.ok.inj hreport
  refine hcount.trans ?_
  rw [List.length_map, hrows]
  exact Nat.zero_add _

theorem Bounded.skip {pre rest : List (List Text)}
    (hbound : Bounded env schema limits (pre ++ rest) n) (hpre : ∀ row ∈ pre, BlankRow row) :
    Bounded env schema limits rest n := by
  refine ⟨hbound.late, fun row hrow => hbound.width row (List.mem_append_right _ hrow),
    hbound.columns, ?_, ?_, ?_⟩
  · have hrows := hbound.rows
    rw [List.length_append] at hrows
    omega
  · exact fun l hl => hbound.streak l (hl.trans (List.suffix_append pre rest).isInfix)
  · intro row hrow
    refine hbound.header row ?_
    have hnone : pre.find? (fun row => ¬ BlankRow row) = none :=
      List.find?_eq_none.mpr fun row hrow => by simpa using hpre row hrow
    rw [List.find?_append, hnone, hrow]
    rfl

end Agreement

/-- The two scans of a grid agree, for every worksheet that holds it, exactly when no row of the
grid is white space only or such a row is the only one with a text. -/
theorem csv_xlsx_agree_iff (env : Environment) (schema : SubmissionSchema)
    (limits : ValidationLimits) (grid : List (List Text)) (n : ℕ) (b : Builder)
    (hbound : Bounded env schema limits grid n) :
    (∀ sheet, List.Forall₂ Encodes grid sheet →
      ∃ report, scanSheet env schema limits sheet b = .ok report ∧
        Agree (consume env schema limits none grid b) report) ↔
    (∀ row ∈ grid, ¬ SpacesRow row) ∨ (grid.filter fun row => ContentRow row).length ≤ 1 := by
  obtain ⟨pre, rest, rfl, hpre, hrest⟩ := exists_split grid
  have hblank : ∀ row ∈ pre, BlankRow row := fun row hrow => blankRow_of_not_content (hpre row hrow)
  have hbound' := hbound.skip hblank
  have hfilter : (pre ++ rest).filter (fun row => ContentRow row) =
      rest.filter fun row => ContentRow row := by
    rw [List.filter_append, List.filter_eq_nil_iff.mpr fun row hrow => by simpa using hpre row hrow]
    rfl
  rw [consume_skip hblank, hfilter]
  rcases hrest with rfl | ⟨row, post, rfl, hcontent⟩
  · refine iff_of_true (fun sheet hsheet => ?_) (.inr (Nat.zero_le _))
    obtain ⟨hsheet', hskip⟩ := @scanSheetFrom_skip env schema _ _ _ _ b _ _
      hsheet hbound.width hbound.columns hbound.streak.from_zero hpre
    generalize sheet.drop pre.length = sheet' at hsheet' hskip
    cases hsheet'
    exact ⟨_, hskip, .refl _⟩
  -- The sheet from its first row with a text on.
  have hscan : ∀ sheet, List.Forall₂ Encodes (pre ++ row :: post) sheet →
      List.Forall₂ Encodes (row :: post) (sheet.drop pre.length) ∧
        scanSheet env schema limits sheet b =
          scanSheet env schema limits (sheet.drop pre.length) b := by
    intro sheet hsheet
    obtain ⟨hsheet', hskip⟩ := @scanSheetFrom_skip env schema _ _ _ _ b _ _
      hsheet hbound.width hbound.columns hbound.streak.from_zero hpre
    refine ⟨hsheet', hskip.trans ?_⟩
    generalize sheet.drop pre.length = sheet' at hsheet'
    cases hsheet' with
    | cons hrow hpost =>
      have htext := (hrow.hasText_iff ((hbound'.width row (List.mem_cons_self ..)).trans_le
        hbound'.columns)).mpr hcontent
      unfold scanSheet scanSheetFrom
      dsimp only
      rw [if_pos htext, if_pos htext]
  have hone : ((row :: post).filter fun r => ContentRow r).length =
      (post.filter fun r => ContentRow r).length + 1 := by
    rw [List.filter_cons_of_pos (by simpa using hcontent), List.length_cons]
  constructor
  · intro hagree
    by_contra hnot
    rw [not_or, not_le] at hnot
    obtain ⟨hspaces, hmany⟩ := hnot
    obtain ⟨report, hreport, hsame⟩ := hagree _ (encodes_sheetOf _)
    rw [(hscan _ (encodes_sheetOf _)).2] at hreport
    have hdrop : (sheetOf (pre ++ row :: post)).drop pre.length = sheetOf (row :: post) := by
      unfold sheetOf
      rw [List.map_append, List.drop_left' (List.length_map _)]
    rw [hdrop] at hreport
    have hxlsx := xlsx_rowCount hbound' hcontent hreport
    have hcsv := csv_rowCount_le (b := b) hbound'
    have hfewer := @filter_blank_lt (row :: post) (by
      by_contra hnone
      refine hspaces fun r hr hs => ?_
      rcases List.mem_append.mp hr with hr | hr
      · exact hpre r hr hs.1
      · exact hnone ⟨r, hr, hs⟩)
    have hequal := hsame.rowCount
    omega
  · intro hcondition sheet hsheet
    obtain ⟨hsheet', hsame⟩ := hscan sheet hsheet
    rw [hsame]
    generalize sheet.drop pre.length = sheet' at hsheet'
    cases hsheet' with
    | cons hrow hpost =>
      by_cases hplain : ∀ r ∈ row :: post, ¬ SpacesRow r
      · exact agree_behind_header hbound' hrow hpost hcontent hplain
      have hfew := hcondition.resolve_left fun h => hplain fun r hr =>
        h r (List.mem_append_right _ hr)
      have hempty : ∀ r ∈ post, ¬ ContentRow r := by
        intro r hr hc
        have hmem : r ∈ post.filter fun r => ContentRow r :=
          List.mem_filter.mpr ⟨hr, by simpa using hc⟩
        have hpos := List.length_pos_of_mem hmem
        omega
      have hspaces : SpacesRow row := by
        by_contra hnot
        refine hplain fun r hr => ?_
        rcases List.mem_cons.mp hr with rfl | hr
        · exact hnot
        · exact fun h => hempty r hr h.1
      exact agree_single_spaces hbound' hrow hpost hspaces hempty

section Scene

def sceneGrid (text : Text) : List (List Text) := [["a".toList], [text]]

theorem scene_bounded (text : Text) :
    Bounded sceneEnv sceneSchema sceneLimits (sceneGrid text) 1 := by
  have hlength : (sceneGrid text).length = 2 := rfl
  refine ⟨fun _ => rfl, fun row hrow => ?_, by decide, ?_, fun l hl _ => ?_, fun row hrow => ?_⟩
  · rcases List.mem_cons.mp hrow with rfl | hrow
    · rfl
    · rw [List.mem_singleton.mp hrow]
      rfl
  · rw [hlength]
    decide
  · refine lt_of_le_of_lt hl.length_le ?_
    rw [hlength]
    decide
  · obtain rfl : ["a".toList] = row := Option.some.inj hrow
    intro last hlast
    obtain rfl : "a".toList = last := Option.some.inj hlast
    decide

end Scene

/-- A row of one blank: no row of the CSV file, the first data row of the worksheet. -/
theorem spaces_row_counted :
    ¬ ∀ (env : Environment) (schema : SubmissionSchema) (limits : ValidationLimits)
      (grid : List (List Text)) (n : ℕ) (b : Builder) (sheet : List (List Cell)),
      Bounded env schema limits grid n → List.Forall₂ Encodes grid sheet →
      ∃ report, scanSheet env schema limits sheet b = .ok report ∧
        Agree (consume env schema limits none grid b) report := by
  intro hall
  obtain ⟨report, hreport, hagree⟩ := hall sceneEnv sceneSchema sceneLimits (sceneGrid [' ']) 1
    sceneBuilder _ (scene_bounded [' ']) (encodes_sheetOf _)
  have hone : report.aggregates.rowCount = 1 :=
    xlsx_rowCount (scene_bounded [' ']) (by decide) hreport
  have hzero : (consume sceneEnv sceneSchema sceneLimits none (sceneGrid [' '])
      sceneBuilder).aggregates.rowCount = 0 := rfl
  rw [hagree.rowCount, hone] at hzero
  cases hzero

theorem filled_row_agrees : ∃ report,
    scanSheet sceneEnv sceneSchema sceneLimits (sheetOf (sceneGrid ['1'])) sceneBuilder =
      .ok report ∧
    Agree (consume sceneEnv sceneSchema sceneLimits none (sceneGrid ['1']) sceneBuilder) report :=
  (csv_xlsx_agree_iff sceneEnv sceneSchema sceneLimits (sceneGrid ['1']) 1 sceneBuilder
    (scene_bounded ['1'])).mpr (.inl (by decide)) _ (encodes_sheetOf _)

end CampusQuest.Validators
