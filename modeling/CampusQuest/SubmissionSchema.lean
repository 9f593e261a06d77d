import CampusQuest.Guards
import CampusQuest.Json
import CampusQuest.LifecycleRows
import Mathlib.Data.Char
import Mathlib.Data.List.Lex
import Mathlib.Data.Finset.Dedup
import Mathlib.Data.Finset.Insert

/-!
The language of submission schemas and its strict parser. A parsed schema carries what the
parser has checked: its bounds are ordered and below the ceiling, it admits some format, and
no two of its columns share a name.
-/

namespace CampusQuest.Tasks

open Guards
open Lifecycle (FileType)

def maxRowsCeiling : ℤ := 10000000

def formatLiterals : List (Text × FileType) :=
  [("csv".toList, .csv), ("xlsx".toList, .xlsx), ("sqlite".toList, .sqlite)]

def everyFileType : Finset FileType := {.csv, .xlsx, .sqlite, .docx, .pdf}

def topLevelKeys : List Text :=
  ["allowed_formats".toList, "source_selector".toList, "min_rows".toList, "max_rows".toList,
    "required_columns".toList, "optional_columns".toList, "allow_extra_columns".toList]

def selectorKeys : List Text := ["table_name".toList, "sheet_name".toList]

def columnRuleKeys : List Text :=
  ["name".toList, "type".toList, "nullable".toList, "unique".toList, "max_null_ratio".toList]

inductive ColumnType
  | string
  | integer
  | number
  | boolean
  | datetime
  deriving DecidableEq, Repr

def columnTypes : List (Text × ColumnType) :=
  [("string".toList, .string), ("integer".toList, .integer), ("number".toList, .number),
    ("boolean".toList, .boolean), ("datetime".toList, .datetime)]

structure SourceSelector where
  tableName : Option Text
  sheetName : Option Text
  deriving DecidableEq

abbrev RowBound := { n : ℤ // 0 ≤ n ∧ n ≤ maxRowsCeiling }

abbrev Ratio := { q : ℚ // 0 ≤ q ∧ q ≤ 1 }

structure ColumnRule where
  name : Text
  type : ColumnType
  required : Bool
  nullable : Bool
  unique : Bool
  maxNullRatio : Option Ratio
  name_ne : name ≠ []

structure SubmissionSchema where
  allowedFormats : Finset FileType
  sourceSelector : Option SourceSelector
  minRows : Option RowBound
  maxRows : Option RowBound
  requiredColumns : List ColumnRule
  optionalColumns : List ColumnRule
  allowExtraColumns : Bool
  formats_nonempty : allowedFormats.Nonempty
  rows_ordered : ∀ low ∈ minRows, ∀ high ∈ maxRows, low.1 ≤ high.1
  names_nodup : ((requiredColumns ++ optionalColumns).map ColumnRule.name).Nodup

def SubmissionSchema.column (schema : SubmissionSchema) (name : Text) : Option ColumnRule :=
  (schema.requiredColumns ++ schema.optionalColumns).find? fun rule => rule.name = name

inductive SchemaFault
  | notObject
  | unknownTopLevel (first : Text)
  | formatsNotList
  | unknownFormat (item : Json)
  | selectorNotObject
  | selectorUnknown (first : Text)
  | selectorEmpty
  | selectorName (key : Text)
  | rowsNotNatural (key : Text)
  | rowsAboveCeiling (key : Text) (value : ℤ)
  | rowsCrossed (minRows maxRows : ℤ)
  | notBool (key : Text)
  | notArray (key : Text)
  | columnNotObject
  | columnRequiredKey
  | columnUnknown (first : Text)
  | columnName
  | columnType
  | ratioNotNumber
  | ratioOutOfRange (value : Json)
  | duplicateColumn (name firstList listKey : Text)

/-- `key` is the path of the offending key, or nothing when the schema is no object. -/
structure SchemaParseError where
  fault : SchemaFault
  key : Option Text

abbrev Parsed (α : Type) := Except SchemaParseError α

def schemaError {α : Type} (fault : SchemaFault) (key : Text) : Parsed α :=
  .error ⟨fault, some key⟩

/-- The alphabetically first key that is not among the known ones. -/
def firstUnknown (fields : List (Text × Json)) (known : List Text) : Option Text :=
  ((fields.map Prod.fst).filter (· ∉ known)).min?

def formatMember (item : Json) : Option FileType :=
  item.asStr.bind fun literal => formatLiterals.lookup literal

def parseFormatItem (item : Json) : Parsed FileType :=
  match formatMember item with
  | some format => .ok format
  | none => schemaError (.unknownFormat item) "allowed_formats".toList

theorem everyFileType_nonempty : everyFileType.Nonempty := ⟨.csv, by decide⟩

def parseAllowedFormats (raw : List (Text × Json)) : Parsed { s : Finset FileType // s.Nonempty } :=
  match Json.field raw "allowed_formats".toList with
  | none => .ok ⟨everyFileType, everyFileType_nonempty⟩
  | some (.arr (item :: items)) => do
    let first ← parseFormatItem item
    let rest ← items.mapM parseFormatItem
    return ⟨insert first rest.toFinset, Finset.insert_nonempty _ _⟩
  | some _ => schemaError .formatsNotList "allowed_formats".toList

def parseSelectorName (value : List (Text × Json)) (key : Text) : Parsed (Option Text) :=
  match Json.field value key with
  | none => .ok none
  | some (.str (c :: name)) => .ok (some (c :: name))
  | some _ => schemaError (.selectorName key) ("source_selector.".toList ++ key)

def parseSourceSelector (raw : List (Text × Json)) : Parsed (Option SourceSelector) :=
  match Json.field raw "source_selector".toList with
  | none => .ok none
  | some (.obj value) =>
    match firstUnknown value selectorKeys with
    | some first => schemaError (.selectorUnknown first) ("source_selector.".toList ++ first)
    | none => do
      let tableName ← parseSelectorName value "table_name".toList
      let sheetName ← parseSelectorName value "sheet_name".toList
      if tableName = none ∧ sheetName = none then
        schemaError .selectorEmpty "source_selector".toList
      else return some ⟨tableName, sheetName⟩
  | some _ => schemaError .selectorNotObject "source_selector".toList

def parseRowBound (raw : List (Text × Json)) (key : Text) : Parsed (Option RowBound) :=
  match Json.field raw key with
  | none => .ok none
  | some (.int value) =>
    if hneg : value < 0 then schemaError (.rowsNotNatural key) key
    else if habove : value > maxRowsCeiling then schemaError (.rowsAboveCeiling key value) key
    else .ok (some ⟨value, by omega, by omega⟩)
  | some _ => schemaError (.rowsNotNatural key) key

def parseBool (raw : List (Text × Json)) (key : Text) (default : Bool) : Parsed Bool :=
  match Json.field raw key with
  | none => .ok default
  | some (.bool b) => .ok b
  | some _ => schemaError (.notBool key) key

section Columns

def columnPath (listKey : Text) (index : ℕ) : Text :=
  listKey ++ '[' :: Nat.toDigits 10 index ++ [']']

def columnBool (entry : List (Text × Json)) (path key : Text) : Parsed Bool :=
  match Json.field entry key with
  | none => .ok false
  | some (.bool b) => .ok b
  | some _ => schemaError (.notBool key) (path ++ '.' :: key)

/-- A number in the unit interval; NaN and the infinities are outside. -/
def ratioIn (path : Text) (value : Json) (q : ℚ) : Parsed (Option Ratio) :=
  if h : 0 ≤ q ∧ q ≤ 1 then .ok (some ⟨q, h⟩)
  else schemaError (.ratioOutOfRange value) (path ++ ".max_null_ratio".toList)

def columnMaxNullRatio (entry : List (Text × Json)) (path : Text) : Parsed (Option Ratio) :=
  match Json.field entry "max_null_ratio".toList with
  | none => .ok none
  | some (.int n) => ratioIn path (.int n) n
  | some (.float (some q)) => ratioIn path (.float (some q)) q
  | some (.float none) =>
    schemaError (.ratioOutOfRange (.float none)) (path ++ ".max_null_ratio".toList)
  | some _ => schemaError .ratioNotNumber (path ++ ".max_null_ratio".toList)

def columnName (entry : List (Text × Json)) (path : Text) : Parsed { t : Text // t ≠ [] } :=
  match Json.field entry "name".toList with
  | some (.str (c :: name)) => .ok ⟨c :: name, by simp⟩
  | _ => schemaError .columnName (path ++ ".name".toList)

def columnType (entry : List (Text × Json)) (path : Text) : Parsed ColumnType :=
  match ((Json.field entry "type".toList).bind Json.asStr).bind fun literal =>
      columnTypes.lookup literal with
  | some type => .ok type
  | none => schemaError .columnType (path ++ ".type".toList)

def columnFields (listKey path : Text) (entry : List (Text × Json)) : Parsed ColumnRule := do
  let name ← columnName entry path
  let type ← columnType entry path
  let nullable ← columnBool entry path "nullable".toList
  let unique ← columnBool entry path "unique".toList
  let ratio ← columnMaxNullRatio entry path
  return ⟨name.1, type, listKey = "required_columns".toList, nullable, unique, ratio, name.2⟩

def parseColumn (listKey : Text) (index : ℕ) (entry : Json) : Parsed ColumnRule :=
  let path := columnPath listKey index
  match entry with
  | .obj fields =>
    match firstUnknown fields columnRuleKeys with
    | some first =>
      if first = "required".toList then
        schemaError .columnRequiredKey (path ++ ".required".toList)
      else schemaError (.columnUnknown first) (path ++ '.' :: first)
    | none => columnFields listKey path fields
  | _ => schemaError .columnNotObject path

/-- The entries of a list in their order; the first that is refused refuses the list. -/
def parseColumns (listKey : Text) : ℕ → List Json → Parsed (List ColumnRule)
  | _, [] => .ok []
  | index, entry :: entries => do
    let rule ← parseColumn listKey index entry
    let rules ← parseColumns listKey (index + 1) entries
    return rule :: rules

def parseColumnList (raw : List (Text × Json)) (key : Text) : Parsed (List ColumnRule) :=
  match Json.field raw key with
  | none => .ok []
  | some (.arr entries) => parseColumns key 0 entries
  | some _ => schemaError (.notArray key) key

/-- The walk over the columns of one list, after those that have been seen with their lists. -/
def rejectSeen (listKey : Text) :
    ℕ → List (Text × Text) → List ColumnRule → Parsed (List (Text × Text))
  | _, seen, [] => .ok seen
  | index, seen, rule :: rules =>
    match seen.lookup rule.name with
    | some firstList => schemaError (.duplicateColumn rule.name firstList listKey)
      (columnPath listKey index ++ ".name".toList)
    | none => rejectSeen listKey (index + 1) ((rule.name, listKey) :: seen) rules

def rejectDuplicateColumns (required optional : List ColumnRule) : Parsed (List (Text × Text)) := do
  let seen ← rejectSeen "required_columns".toList 0 [] required
  rejectSeen "optional_columns".toList 0 seen optional

end Columns

section Duplicates

variable {listKey : Text} {index : ℕ} {seen seen' : List (Text × Text)} {rules : List ColumnRule}

theorem not_mem_of_lookup {name : Text} (h : seen.lookup name = none) :
    name ∉ seen.map Prod.fst := by
  intro hmem
  obtain ⟨entry, hentry, hname⟩ := List.mem_map.mp hmem
  have hne := List.lookup_eq_none_iff.mp h entry hentry
  simp [hname] at hne

/-- A walk that is not refused remembers the names that it has met. -/
theorem rejectSeen_names (h : rejectSeen listKey index seen rules = .ok seen') (name : Text) :
    name ∈ seen'.map Prod.fst ↔ name ∈ seen.map Prod.fst ++ rules.map ColumnRule.name := by
  induction rules generalizing index seen with
  | nil =>
    cases h
    simp
  | cons rule rules ih =>
    unfold rejectSeen at h
    split at h
    next => cases h
    next =>
      rw [ih h]
      simp only [List.map_cons, List.cons_append, List.mem_cons, List.mem_append]
      tauto

/-- The names of a list that a walk did not refuse are new and differ from each other. -/
theorem rejectSeen_nodup (h : rejectSeen listKey index seen rules = .ok seen') :
    (rules.map ColumnRule.name).Nodup ∧
      ∀ rule ∈ rules, rule.name ∉ seen.map Prod.fst := by
  induction rules generalizing index seen with
  | nil => exact ⟨List.nodup_nil, fun rule hrule => absurd hrule List.not_mem_nil⟩
  | cons rule rules ih =>
    unfold rejectSeen at h
    split at h
    next => cases h
    next hlookup =>
      obtain ⟨hnodup, hnew⟩ := ih h
      simp only [List.map_cons, List.mem_cons, not_or] at hnew
      constructor
      · refine List.nodup_cons.mpr ⟨fun hmem => ?_, hnodup⟩
        obtain ⟨later, hlater, hname⟩ := List.mem_map.mp hmem
        exact (hnew later hlater).1 hname
      · intro later hlater
        rcases List.mem_cons.mp hlater with rfl | hlater
        · exact not_mem_of_lookup hlookup
        · exact (hnew later hlater).2

/-- No two columns of the two lists share a name. -/
theorem rejectDuplicateColumns_nodup {required optional : List ColumnRule}
    (h : rejectDuplicateColumns required optional = .ok seen') :
    ((required ++ optional).map ColumnRule.name).Nodup := by
  unfold rejectDuplicateColumns at h
  obtain ⟨seen, hrequired, hoptional⟩ := bind_ok.mp h
  obtain ⟨hnodup, hnew⟩ := rejectSeen_nodup hoptional
  rw [List.map_append]
  refine List.Nodup.append (rejectSeen_nodup hrequired).1 hnodup fun name hleft hright => ?_
  obtain ⟨rule, hrule, rfl⟩ := List.mem_map.mp hright
  exact hnew rule hrule ((rejectSeen_names hrequired rule.name).mpr (by simpa using hleft))

end Duplicates

def parseRowBounds (raw : List (Text × Json)) :
    Parsed { p : Option RowBound × Option RowBound //
      ∀ low ∈ p.1, ∀ high ∈ p.2, low.1 ≤ high.1 } := do
  let minRows ← parseRowBound raw "min_rows".toList
  let maxRows ← parseRowBound raw "max_rows".toList
  match minRows, maxRows with
  | some low, some high =>
    if h : low.1 ≤ high.1 then
      return ⟨(some low, some high), by rintro l ⟨⟩ u ⟨⟩; exact h⟩
    else schemaError (.rowsCrossed low.1 high.1) "min_rows".toList
  | none, maxRows => return ⟨(none, maxRows), by rintro l ⟨⟩⟩
  | minRows, none => return ⟨(minRows, none), by rintro l _ u ⟨⟩⟩

def SubmissionSchema.parse : Json → Parsed SubmissionSchema
  | .obj raw =>
    match firstUnknown raw topLevelKeys with
    | some first => schemaError (.unknownTopLevel first) first
    | none => do
      let formats ← parseAllowedFormats raw
      let selector ← parseSourceSelector raw
      let bounds ← parseRowBounds raw
      let allowExtra ← parseBool raw "allow_extra_columns".toList false
      let required ← parseColumnList raw "required_columns".toList
      let optional ← parseColumnList raw "optional_columns".toList
      match hnames : rejectDuplicateColumns required optional with
      | .error e => .error e
      | .ok _ => return {
          allowedFormats := formats.1
          sourceSelector := selector
          minRows := bounds.1.1
          maxRows := bounds.1.2
          requiredColumns := required
          optionalColumns := optional
          allowExtraColumns := allowExtra
          formats_nonempty := formats.2
          rows_ordered := bounds.2
          names_nodup := rejectDuplicateColumns_nodup hnames }
  | _ => .error ⟨.notObject, none⟩

end CampusQuest.Tasks
