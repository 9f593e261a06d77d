import CampusQuest.RowScan

/-!
The checks of an archive before any part of it is decompressed. They trust the sizes that its
directory declares and nothing else; the first rule that an archive breaks decides.
-/

namespace CampusQuest.Validators

def maxArchiveEntries : ℕ := 4096

def maxTotalUncompressed : ℕ := 512 * 1024 * 1024

def maxWholeReadPart : ℕ := 16 * 1024 * 1024

def maxSharedStringsXml : ℕ := 128 * 1024 * 1024

def sharedStrings : Text := "xl/sharedStrings".toList

def streamingExemptPrefixes : List Text :=
  ["xl/worksheets/".toList, sharedStrings, "xl/media/".toList, "xl/drawings/".toList]

structure ZipInfo where
  filename : Text
  fileSize : ℕ
  compressSize : ℕ

structure Archive where
  infos : List ZipInfo
  targets : List Text

def isSuspiciousName (name : Text) : Bool :=
  name = [] ∨ name.head? = some '/' ∨ name.head? = some '\\' ∨ name[1]? = some ':' ∨
    ['.', '.'] ∈ (name.map fun c => if c = '\\' then '/' else c).splitOn '/'

/-- The cap of a part that is read whole holds for it. A `.rels` part is never exempt. -/
def capped (name : Text) : Bool :=
  ".rels".toList <:+ name ∨ ¬ ∃ exempt ∈ streamingExemptPrefixes, exempt <+: name

section Preflight

/- `file_size / compress_size > MAX_COMPRESSION_RATIO`, in floating point. -/
variable (ratioAbove : ℕ → ℕ → Bool)

def entryViolation (info : ZipInfo) : Option Fault :=
  if isSuspiciousName info.filename = true then some .suspiciousArchiveEntry
  else if capped info.filename = true ∧ info.fileSize > maxWholeReadPart then some .partTooLarge
  else if info.fileSize ≠ 0 ∧
      (info.compressSize = 0 ∨ ratioAbove info.fileSize info.compressSize = true) then
    some .suspiciousCompressionRatio
  else none

def totalUncompressed (infos : List ZipInfo) : ℕ := (infos.map ZipInfo.fileSize).sum

def totalCompressed (infos : List ZipInfo) : ℕ := (infos.map ZipInfo.compressSize).sum

def preflight (infos : List ZipInfo) : Option Fault :=
  if infos.length > maxArchiveEntries then some .archiveTooLarge
  else match infos.findSome? (entryViolation ratioAbove) with
    | some fault => some fault
    | none =>
      if totalUncompressed infos > maxTotalUncompressed then some .archiveTooLarge
      else if totalCompressed infos ≠ 0 ∧
          ratioAbove (totalUncompressed infos) (totalCompressed infos) = true then
        some .suspiciousCompressionRatio
      else none

/-- `sizes.get(target, 0)`: of entries of one name the last one counts. -/
def declaredSize (infos : List ZipInfo) (target : Text) : ℕ :=
  (infos.reverse.find? fun info => info.filename = target).elim 0 ZipInfo.fileSize

/-- `_zip_preflight`, for the archive when its directory can be read: the fault, or the warnings. -/
def zipPreflight (archive : Option Archive) : Except Fault (List Fault) :=
  match archive with
  | none => .error .malformedXlsx
  | some archive =>
    match preflight ratioAbove archive.infos with
    | some fault => .error fault
    | none =>
      if ∃ info ∈ archive.infos,
          sharedStrings <+: info.filename ∧ info.fileSize > maxSharedStringsXml then
        .error .archiveTooLarge
      else if ∃ target ∈ archive.targets,
          ¬ sharedStrings <+: target ∧ declaredSize archive.infos target > maxWholeReadPart then
        .error .partTooLarge
      else .ok (if ∃ info ∈ archive.infos, "xl/externalLinks/".toList <+: info.filename then
        [.externalLink] else [])

structure SafeArchive (archive : Archive) : Prop where
  entries : archive.infos.length ≤ maxArchiveEntries
  names : ∀ info ∈ archive.infos, ¬ isSuspiciousName info.filename = true
  parts : ∀ info ∈ archive.infos, capped info.filename = true → info.fileSize ≤ maxWholeReadPart
  total : totalUncompressed archive.infos ≤ maxTotalUncompressed
  targets : ∀ target ∈ archive.targets, ¬ sharedStrings <+: target →
    declaredSize archive.infos target ≤ maxWholeReadPart

variable {ratioAbove}

theorem entryViolation_eq_none {info : ZipInfo} (h : entryViolation ratioAbove info = none) :
    ¬ isSuspiciousName info.filename = true ∧
      (capped info.filename = true → info.fileSize ≤ maxWholeReadPart) := by
  unfold entryViolation at h
  split_ifs at h with hname hpart
  exact ⟨hname, fun hcapped => not_lt.mp fun hlarge => hpart ⟨hcapped, hlarge⟩⟩

theorem preflight_eq_none {infos : List ZipInfo} (h : preflight ratioAbove infos = none) :
    infos.length ≤ maxArchiveEntries ∧
      (∀ info ∈ infos, ¬ isSuspiciousName info.filename = true ∧
        (capped info.filename = true → info.fileSize ≤ maxWholeReadPart)) ∧
      totalUncompressed infos ≤ maxTotalUncompressed := by
  unfold preflight at h
  split at h
  next => cases h
  next hentries =>
    split at h
    next => cases h
    next hfind =>
      split at h
      next => cases h
      next htotal =>
        exact ⟨not_lt.mp hentries, fun info hmem =>
          entryViolation_eq_none (List.findSome?_eq_none_iff.mp hfind info hmem),
          not_lt.mp htotal⟩

theorem safeArchive_of_ok {archive : Option Archive} {warnings : List Fault}
    (h : zipPreflight ratioAbove archive = .ok warnings) :
    ∃ a, archive = some a ∧ SafeArchive a := by
  unfold zipPreflight at h
  split at h
  next => cases h
  next a =>
    split at h
    next => cases h
    next hsafe =>
      split at h
      next => cases h
      next =>
        split at h
        next => cases h
        next htargets =>
          obtain ⟨hentries, hinfos, htotal⟩ := preflight_eq_none hsafe
          refine ⟨a, rfl, hentries, fun info hmem => (hinfos info hmem).1,
            fun info hmem => (hinfos info hmem).2, htotal, fun target hmem hname => ?_⟩
          exact not_lt.mp fun hlarge => htargets ⟨target, hmem, hname, hlarge⟩

end Preflight

end CampusQuest.Validators
