import CampusQuest.Doubles
import CampusQuest.ZipPreflight

/-!
The archive preflight under any limits, and the roles that the manifest of an archive gives to its
parts. An archive that passes is within the limits. A part that is read whole has the cap of its
role under every name but those of the family of the shared strings.
-/

namespace CampusQuest.Validators

open Doubles

/-- The division of two integers, rounded to a nearest double. -/
structure TrueDivision where
  quotient : ℕ → ℕ → Double
  nearest : ∀ a b : ℕ, b ≠ 0 → ∀ d : Double,
    |(a : ℚ) / b - (quotient a b).value| ≤ |(a : ℚ) / b - d.value|

structure ZipLimits where
  maxEntries : ℕ
  maxTotalUncompressed : ℕ
  maxWholeReadPart : ℕ
  maxCompressionRatio : Double

def maxCompressionRatio : Double := ofInt 100 (by norm_num)

def defaultZipLimits : ZipLimits where
  maxEntries := maxArchiveEntries
  maxTotalUncompressed := maxTotalUncompressed
  maxWholeReadPart := maxWholeReadPart
  maxCompressionRatio := maxCompressionRatio

inductive ZipSafetyKind
  | tooManyEntries
  | suspiciousName
  | partTooLarge
  | compressionRatio
  | totalTooLarge
  | totalRatio
  deriving DecidableEq

structure ZipSafetyViolation where
  kind : ZipSafetyKind
  name : Text := []
  fileSize : ℕ := 0
  compressSize : ℕ := 0
  entries : ℕ := 0
  totalUncompressed : ℕ := 0

def ZipSafetyKind.code : ZipSafetyKind → Fault
  | tooManyEntries => .archiveTooLarge
  | suspiciousName => .suspiciousArchiveEntry
  | partTooLarge => .partTooLarge
  | compressionRatio => .suspiciousCompressionRatio
  | totalTooLarge => .archiveTooLarge
  | totalRatio => .suspiciousCompressionRatio

def cappedOutside (exemptPrefixes : List Text) (name : Text) : Bool :=
  ".rels".toList <:+ name ∨ ¬ ∃ exempt ∈ exemptPrefixes, exempt <+: name

section Limits

variable (div : TrueDivision) (limits : ZipLimits) (exemptPrefixes : List Text)

def TrueDivision.above (ratio : Double) (a b : ℕ) : Bool := ratio.value < (div.quotient a b).value

def infoViolation (info : ZipInfo) : Option ZipSafetyViolation :=
  if isSuspiciousName info.filename = true then
    some { kind := .suspiciousName, name := info.filename }
  else if cappedOutside exemptPrefixes info.filename = true ∧
      info.fileSize > limits.maxWholeReadPart then
    some { kind := .partTooLarge, name := info.filename, fileSize := info.fileSize }
  else if info.fileSize ≠ 0 ∧ (info.compressSize = 0 ∨
      div.above limits.maxCompressionRatio info.fileSize info.compressSize = true) then
    some { kind := .compressionRatio, name := info.filename, fileSize := info.fileSize,
           compressSize := info.compressSize }
  else none

def preflightWith (infos : List ZipInfo) : Option ZipSafetyViolation :=
  if infos.length > limits.maxEntries then some { kind := .tooManyEntries, entries := infos.length }
  else match infos.findSome? (infoViolation div limits exemptPrefixes) with
    | some violation => some violation
    | none =>
      if totalUncompressed infos > limits.maxTotalUncompressed then
        some { kind := .totalTooLarge, totalUncompressed := totalUncompressed infos }
      else if totalCompressed infos ≠ 0 ∧ div.above limits.maxCompressionRatio
          (totalUncompressed infos) (totalCompressed infos) = true then
        some { kind := .totalRatio, totalUncompressed := totalUncompressed infos,
               compressSize := totalCompressed infos }
      else none

end Limits

/-! ### Names that stay inside -/

/-- The parts of a name between slashes of either kind. -/
def components (name : Text) : List Text :=
  (name.map fun c => if c = '\\' then '/' else c).splitOn '/'

/-- The depth below a folder after a walk from it, and nothing when the walk leaves the folder. -/
def walk : ℕ → List Text → Option ℕ
  | depth, [] => some depth
  | depth, c :: rest =>
    if c = ['.', '.'] then (if depth = 0 then none else walk (depth - 1) rest)
    else if c = [] ∨ c = ['.'] then walk depth rest
    else walk (depth + 1) rest

theorem walk_inside {l : List Text} (h : ['.', '.'] ∉ l) (depth : ℕ) : walk depth l ≠ none := by
  induction l generalizing depth with
  | nil => exact Option.some_ne_none _
  | cons c rest ih =>
    obtain ⟨hc, hrest⟩ := not_or.mp fun hmem => h (List.mem_cons.mpr hmem)
    unfold walk
    rw [if_neg (Ne.symm hc)]
    split
    · exact ih hrest depth
    · exact ih hrest (depth + 1)

/-- The name can be extracted below a folder: neither absolute, nor on a drive, nor escaping. -/
structure SafeName (name : Text) : Prop where
  nonempty : name ≠ []
  relative : name.head? ≠ some '/' ∧ name.head? ≠ some '\\'
  noDrive : name[1]? ≠ some ':'
  inside : walk 0 (components name) ≠ none
  noParent : ['.', '.'] ∉ components name

theorem safeName_of_not_suspicious {name : Text} (h : ¬ isSuspiciousName name = true) :
    SafeName name := by
  unfold isSuspiciousName at h
  rw [decide_eq_true_eq, not_or, not_or, not_or, not_or] at h
  obtain ⟨hempty, hslash, hback, hdrive, hparent⟩ := h
  exact ⟨hempty, ⟨hslash, hback⟩, hdrive, walk_inside hparent 0, hparent⟩

/-! ### What an archive that passes keeps to -/

/-- The entries, their names, their sizes and their ratios are all within the limits. -/
structure WithinLimits (div : TrueDivision) (limits : ZipLimits) (exemptPrefixes : List Text)
    (infos : List ZipInfo) : Prop where
  entries : infos.length ≤ limits.maxEntries
  names : ∀ info ∈ infos, SafeName info.filename
  rels : ∀ info ∈ infos, ".rels".toList <:+ info.filename → info.fileSize ≤ limits.maxWholeReadPart
  parts : ∀ info ∈ infos, (∀ exempt ∈ exemptPrefixes, ¬ exempt <+: info.filename) →
    info.fileSize ≤ limits.maxWholeReadPart
  sizes : ∀ info ∈ infos, info.fileSize ≤ limits.maxTotalUncompressed
  ratios : ∀ info ∈ infos, info.fileSize ≠ 0 → info.compressSize ≠ 0 ∧
    (div.quotient info.fileSize info.compressSize).value ≤ limits.maxCompressionRatio.value
  total : totalUncompressed infos ≤ limits.maxTotalUncompressed
  totalRatio : totalUncompressed infos ≠ 0 → totalCompressed infos ≠ 0 ∧
    (div.quotient (totalUncompressed infos) (totalCompressed infos)).value ≤
      limits.maxCompressionRatio.value

variable {div : TrueDivision} {limits : ZipLimits} {exemptPrefixes : List Text}
  {infos : List ZipInfo} {info : ZipInfo}

theorem fileSize_le_total (h : info ∈ infos) : info.fileSize ≤ totalUncompressed infos :=
  List.le_sum_of_mem (List.mem_map_of_mem h)

theorem above_eq_false {ratio : Double} {a b : ℕ} :
    ¬ div.above ratio a b = true ↔ (div.quotient a b).value ≤ ratio.value := by
  unfold TrueDivision.above
  rw [decide_eq_true_eq, not_lt]

/-- The rules of an entry that has broken none of them. -/
theorem infoViolation_eq_none (h : infoViolation div limits exemptPrefixes info = none) :
    SafeName info.filename ∧
      (cappedOutside exemptPrefixes info.filename = true →
        info.fileSize ≤ limits.maxWholeReadPart) ∧
      (info.fileSize ≠ 0 → info.compressSize ≠ 0 ∧
        (div.quotient info.fileSize info.compressSize).value ≤
          limits.maxCompressionRatio.value) := by
  unfold infoViolation at h
  split_ifs at h with hname hpart hratio
  refine ⟨safeName_of_not_suspicious hname,
    fun hcapped => not_lt.mp fun hlarge => hpart ⟨hcapped, hlarge⟩, fun hsize => ?_⟩
  obtain ⟨hcompressed, hratio⟩ := not_or.mp (not_and.mp hratio hsize)
  exact ⟨hcompressed, above_eq_false.mp hratio⟩

theorem withinLimits_of_none (h : preflightWith div limits exemptPrefixes infos = none) :
    WithinLimits div limits exemptPrefixes infos := by
  unfold preflightWith at h
  split at h
  next => cases h
  next hentries =>
    split at h
    next => cases h
    next hfind =>
      split_ifs at h with htotal hratio
      have hinfos := fun info hmem =>
        infoViolation_eq_none (List.findSome?_eq_none_iff.mp hfind info hmem)
      exact
        { entries := not_lt.mp hentries
          names := fun info hmem => (hinfos info hmem).1
          rels := fun info hmem hrels =>
            (hinfos info hmem).2.1 (decide_eq_true (Or.inl hrels))
          parts := fun info hmem houtside => (hinfos info hmem).2.1
            (decide_eq_true (Or.inr fun ⟨exempt, hexempt, hname⟩ => houtside exempt hexempt hname))
          sizes := fun info hmem => (fileSize_le_total hmem).trans (not_lt.mp htotal)
          ratios := fun info hmem => (hinfos info hmem).2.2
          total := not_lt.mp htotal
          totalRatio := fun hsize => by
            have hcompressed : totalCompressed infos ≠ 0 := by
              intro hzero
              -- Nothing is stored, so nothing is declared either.
              refine hsize (List.sum_eq_zero fun size hmem => ?_)
              obtain ⟨info, hinfo, rfl⟩ := List.mem_map.mp hmem
              by_contra hdeclared
              exact ((hinfos info hinfo).2.2 hdeclared).1
                (List.sum_eq_zero_iff.mp hzero _ (List.mem_map_of_mem hinfo))
            exact ⟨hcompressed, above_eq_false.mp fun habove => hratio ⟨hcompressed, habove⟩⟩ }

/-- The submission validator runs the preflight with the defaults and its own exemptions. -/
theorem preflight_eq (infos : List ZipInfo) :
    preflight (div.above maxCompressionRatio) infos =
      (preflightWith div defaultZipLimits streamingExemptPrefixes infos).map fun v => v.kind.code := by
  have hentry : ∀ info, entryViolation (div.above maxCompressionRatio) info =
      (infoViolation div defaultZipLimits streamingExemptPrefixes info).map fun v => v.kind.code := by
    intro info
    unfold entryViolation infoViolation
    rw [apply_ite (Option.map _), apply_ite (Option.map _), apply_ite (Option.map _)]
    rfl
  have hfind : infos.findSome? (entryViolation (div.above maxCompressionRatio)) =
      (infos.findSome? (infoViolation div defaultZipLimits streamingExemptPrefixes)).map
        fun v => v.kind.code := by
    rw [List.map_findSome?]
    exact congrArg (List.findSome? · infos) (funext hentry)
  unfold preflight preflightWith
  rw [hfind, apply_ite (Option.map _)]
  cases infos.findSome? (infoViolation div defaultZipLimits streamingExemptPrefixes) with
  | some violation => rfl
  | none =>
    dsimp only [Option.map_none]
    rw [apply_ite (Option.map _), apply_ite (Option.map _)]
    rfl

/-- Within the default total, no entry is more than a hundred times as large as it is stored: the
quotients are too far apart for the rounding to hide one. -/
theorem le_hundred_of_quotient {a b : ℕ} (ha : a ≤ maxTotalUncompressed) (hb : b ≠ 0)
    (h : (div.quotient a b).value ≤ 100) : a ≤ 100 * b := by
  by_contra hlarge
  have hpos : (0 : ℚ) < b := by exact_mod_cast Nat.pos_of_ne_zero hb
  have hbound : (b : ℚ) ≤ 2 ^ 30 := by
    have hsmall : b ≤ 2 ^ 30 := by
      have htotal : maxTotalUncompressed = 2 ^ 29 := rfl
      omega
    exact_mod_cast hsmall
  have hnext : (100 : ℚ) * b + 1 ≤ a := by exact_mod_cast not_le.mp hlarge
  -- The double `100 + 2 ^ (-30)` would be nearer.
  let near : Double := ⟨100 + 2 ^ (-30 : ℤ), (100 * 2 ^ 30 + 1 : ℤ), -30, by norm_num [abs_lt],
    by norm_num, by norm_num, by norm_num⟩
  have hnear : near.value = 100 + 1 / 2 ^ 30 := by
    change (100 : ℚ) + 2 ^ (-30 : ℤ) = 100 + 1 / 2 ^ 30
    norm_num
  have hquotient : near.value ≤ (a : ℚ) / b := by
    rw [hnear, le_div_iff₀ hpos]
    have hunit : (1 : ℚ) / 2 ^ 30 * b ≤ 1 := by
      rw [div_mul_eq_mul_div, one_mul]
      exact (div_le_one (by norm_num)).mpr hbound
    linarith
  have hle := div.nearest a b hb near
  have hstep : (100 : ℚ) < near.value := by
    rw [hnear]
    norm_num
  rw [abs_of_nonneg (by linarith), abs_of_nonneg (by linarith)] at hle
  linarith

/-! ### Roles of the manifest -/

structure Override where
  partName : Text
  contentType : Text

def workbookType : Text :=
  "application/vnd.openxmlformats-officedocument.spreadsheetml.sheet.main+xml".toList

def sharedStringsType : Text :=
  "application/vnd.openxmlformats-officedocument.spreadsheetml.sharedStrings+xml".toList

def wholeReadRoleTypes : List Text := [workbookType, sharedStringsType]

def Override.target (o : Override) : Text := o.partName.dropWhile (· = '/')

/-- The override gives its part a role that is read whole. -/
def Override.WholeRead (o : Override) : Prop :=
  o.contentType ∈ wholeReadRoleTypes ∧ o.partName ≠ []

instance (o : Override) : Decidable o.WholeRead := inferInstanceAs (Decidable (_ ∧ _))

def manifestRoleTargets (overrides : Option (List Override)) : List Text :=
  ((overrides.getD []).filter fun o => o.WholeRead).map Override.target

/-- The string table under its own name. -/
def Override.Canonical (o : Override) : Prop :=
  o.contentType = sharedStringsType ∧ o.target = "xl/sharedStrings.xml".toList

instance (o : Override) : Decidable o.Canonical := inferInstanceAs (Decidable (_ ∧ _))

/-- The cap of a role: the streaming cap for the string table under its own name, and the default
for any other placement. -/
def roleCap (o : Override) : ℕ := if o.Canonical then maxSharedStringsXml else maxWholeReadPart

def RoleCaps (infos : List ZipInfo) (overrides : List Override) : Prop :=
  ∀ o ∈ overrides, o.WholeRead → declaredSize infos o.target ≤ roleCap o

theorem declaredSize_le {bound : ℕ} {target : Text}
    (h : ∀ info ∈ infos, info.filename = target → info.fileSize ≤ bound) :
    declaredSize infos target ≤ bound := by
  unfold declaredSize
  cases hfind : infos.reverse.find? fun info => info.filename = target with
  | none => exact Nat.zero_le _
  | some info =>
    have hname := List.find?_some hfind
    have hmem := List.mem_reverse.mp (List.mem_of_find?_eq_some hfind)
    exact h info hmem (of_decide_eq_true hname)

theorem sharedStrings_le {archive : Archive} {ratioAbove : ℕ → ℕ → Bool} {warnings : List Fault}
    (h : zipPreflight ratioAbove (some archive) = .ok warnings) :
    ∀ info ∈ archive.infos, sharedStrings <+: info.filename →
      info.fileSize ≤ maxSharedStringsXml := by
  unfold zipPreflight at h
  dsimp only at h
  split at h
  next => cases h
  next =>
    split at h
    next => cases h
    next hfamily =>
      exact fun info hmem hname => not_lt.mp fun hlarge => hfamily ⟨info, hmem, hname, hlarge⟩

theorem preflight_of_ok {archive : Archive} {ratioAbove : ℕ → ℕ → Bool} {warnings : List Fault}
    (h : zipPreflight ratioAbove (some archive) = .ok warnings) :
    preflight ratioAbove archive.infos = none := by
  unfold zipPreflight at h
  dsimp only at h
  split at h
  next => cases h
  next hsafe => exact hsafe

/-- The role caps of an archive that passes hold when nothing but the string table hides under the
names of the shared strings. -/
theorem roleCaps_iff {overrides : Option (List Override)} {warnings : List Fault}
    (h : zipPreflight (div.above maxCompressionRatio)
      (some ⟨infos, manifestRoleTargets overrides⟩) = .ok warnings) :
    RoleCaps infos (overrides.getD []) ↔ ∀ o ∈ overrides.getD [], o.WholeRead →
      sharedStrings <+: o.target → ¬ o.Canonical →
        declaredSize infos o.target ≤ maxWholeReadPart := by
  constructor
  · intro hcaps o ho hrole _ hplaced
    have hcap := hcaps o ho hrole
    unfold roleCap at hcap
    rwa [if_neg hplaced] at hcap
  · intro hplaced o ho hrole
    unfold roleCap
    split
    next hcanonical =>
      refine declaredSize_le fun info hmem hname => sharedStrings_le h info hmem ?_
      rw [hname, hcanonical.2]
      decide
    next hcanonical =>
      by_cases hfamily : sharedStrings <+: o.target
      · exact hplaced o ho hrole hfamily hcanonical
      · obtain ⟨_, heq, hsafe⟩ := safeArchive_of_ok h
        cases heq
        exact hsafe.targets o.target
          (List.mem_map_of_mem (List.mem_filter.mpr ⟨ho, decide_eq_true hrole⟩)) hfamily

/-- An archive that passes the preflight keeps to the limits, whichever they are, and at the
defaults its ratios are exact. The submission validator keeps every part within the cap of its
role exactly when no other part than the string table hides under the names of the shared strings
with more than the default cap. -/
theorem zip_preflight_sound (div : TrueDivision) :
    (∀ limits exemptPrefixes infos, preflightWith div limits exemptPrefixes infos = none →
      WithinLimits div limits exemptPrefixes infos) ∧
    (∀ exemptPrefixes infos, preflightWith div defaultZipLimits exemptPrefixes infos = none →
      ∀ info ∈ infos, info.fileSize ≤ 100 * info.compressSize) ∧
    ∀ infos overrides warnings, zipPreflight (div.above maxCompressionRatio)
        (some ⟨infos, manifestRoleTargets overrides⟩) = .ok warnings →
      ((WithinLimits div defaultZipLimits streamingExemptPrefixes infos ∧
          (∀ info ∈ infos, sharedStrings <+: info.filename →
            info.fileSize ≤ maxSharedStringsXml) ∧
          RoleCaps infos (overrides.getD [])) ↔
        ∀ o ∈ overrides.getD [], o.WholeRead → sharedStrings <+: o.target → ¬ o.Canonical →
          declaredSize infos o.target ≤ maxWholeReadPart) := by
  refine ⟨fun _ _ _ h => withinLimits_of_none h, fun exemptPrefixes infos h info hmem => ?_,
    fun infos overrides warnings h => ?_⟩
  · have hwithin := withinLimits_of_none h
    by_cases hsize : info.fileSize = 0
    · omega
    · obtain ⟨hcompressed, hratio⟩ := hwithin.ratios info hmem hsize
      exact le_hundred_of_quotient (hwithin.sizes info hmem) hcompressed
        (hratio.trans (le_of_eq (Int.cast_ofNat 100)))
  · have hsafe : preflightWith div defaultZipLimits streamingExemptPrefixes infos = none := by
      have hnone := preflight_of_ok h
      rw [preflight_eq] at hnone
      exact Option.map_eq_none_iff.mp hnone
    rw [← roleCaps_iff h]
    exact ⟨fun hall => hall.2.2,
      fun hroles => ⟨withinLimits_of_none hsafe, sharedStrings_le h, hroles⟩⟩

/-- A workbook of 64 MiB under a name of the shared strings, stored in one. -/
def hiddenWorkbook : List ZipInfo :=
  [⟨"[Content_Types].xml".toList, 640, 10⟩,
    ⟨"xl/sharedStringsBook.xml".toList, 67108864, 1048576⟩]

def hiddenManifest : List Override :=
  [⟨"/xl/sharedStringsBook.xml".toList, workbookType⟩]

theorem exists_trueDivision : Nonempty TrueDivision := by
  choose nearest hnearest using exists_nearest
  exact ⟨⟨fun a b => nearest ((a : ℚ) / b), fun a b _ d => hnearest ((a : ℚ) / b) d⟩⟩

/-- A quotient that is a double is not rounded. -/
theorem quotient_exact {k b : ℕ} (hb : b ≠ 0) (hk : k < 100) :
    ¬ div.above maxCompressionRatio (k * b) b = true := by
  have hexact : ((k * b : ℕ) : ℚ) / b = k := by
    have hne : (b : ℚ) ≠ 0 := by exact_mod_cast hb
    push_cast
    exact mul_div_cancel_right₀ _ hne
  have hle := div.nearest (k * b) b hb (ofInt k (by rw [abs_of_nonneg (by omega)]; omega))
  have hvalue : (ofInt k (by rw [abs_of_nonneg (by omega)]; omega)).value = (k : ℚ) :=
    Int.cast_natCast k
  rw [hexact, hvalue, sub_self, abs_zero] at hle
  have hzero := abs_eq_zero.mp (le_antisymm hle (abs_nonneg _))
  refine above_eq_false.mpr ?_
  rw [← sub_eq_zero.mp hzero]
  change (k : ℚ) ≤ ((100 : ℤ) : ℚ)
  exact_mod_cast hk.le

theorem hiddenWorkbook_passes {r : ℕ → ℕ → Bool} (hmanifest : ¬ r 640 10 = true)
    (hpart : ¬ r 67108864 1048576 = true) (htotal : ¬ r 67109504 1048586 = true) :
    zipPreflight r (some ⟨hiddenWorkbook, manifestRoleTargets (some hiddenManifest)⟩) = .ok [] := by
  have hsafe : preflight r hiddenWorkbook = none := by
    have hfirst : entryViolation r ⟨"[Content_Types].xml".toList, 640, 10⟩ = none := by
      unfold entryViolation
      rw [if_neg (by decide), if_neg (by decide), if_neg (by simp [hmanifest])]
    have hsecond : entryViolation r
        ⟨"xl/sharedStringsBook.xml".toList, 67108864, 1048576⟩ = none := by
      unfold entryViolation
      rw [if_neg (by decide), if_neg (by decide), if_neg (by simp [hpart])]
    have hfind : hiddenWorkbook.findSome? (entryViolation r) = none := by
      unfold hiddenWorkbook
      rw [List.findSome?_cons, hfirst, List.findSome?_cons, hsecond]
      rfl
    unfold preflight
    rw [if_neg (by decide), hfind]
    dsimp only
    rw [if_neg (by decide)]
    exact if_neg fun h => htotal h.2
  unfold zipPreflight
  dsimp only
  rw [hsafe]
  dsimp only
  rw [if_neg (by decide), if_neg (by decide), if_neg (by decide)]

/-- The workbook is read whole, with four times its cap. -/
theorem hiddenWorkbook_uncapped : ¬ ∀ (div : TrueDivision) infos overrides warnings,
    zipPreflight (div.above maxCompressionRatio)
      (some ⟨infos, manifestRoleTargets overrides⟩) = .ok warnings →
    RoleCaps infos (overrides.getD []) := by
  intro h
  obtain ⟨div⟩ := exists_trueDivision
  have hpasses := hiddenWorkbook_passes (r := div.above maxCompressionRatio)
    (quotient_exact (k := 64) (b := 10) (by decide) (by decide))
    (quotient_exact (k := 64) (b := 1048576) (by decide) (by decide))
    (quotient_exact (k := 64) (b := 1048586) (by decide) (by decide))
  have hcap := h div hiddenWorkbook (some hiddenManifest) [] hpasses _ List.mem_cons_self
    ⟨by decide, by decide⟩
  revert hcap
  decide

end CampusQuest.Validators
