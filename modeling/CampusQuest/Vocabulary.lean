import Mathlib.Data.Int.Notation
import Mathlib.Data.List.DropRight
import Mathlib.Data.Nat.Notation

/-!
Words that every service shares: instants, texts, accounts and the codes of business
errors. Instants count microseconds, so comparing two of them is exact; identifiers are
plain numbers, since no service looks inside one.
-/

namespace CampusQuest

abbrev Instant := ℤ

abbrev Duration := ℤ

def hours (n : ℤ) : Duration := n * 3600000000

abbrev UserId := ℕ
abbrev TaskId := ℕ
abbrev AssignmentId := ℕ
abbrev ClaimId := ℕ
abbrev SubmissionId := ℕ
abbrev IntentId := ℕ
abbrev ItemId := ℕ
abbrev RedemptionId := ℕ
abbrev OperationId := ℕ

abbrev Text := List Char

instance : LawfulBEq Text := inferInstance

/-- The characters that `str.strip` removes. -/
def isSpace (c : Char) : Bool :=
  let n := c.toNat
  (0x09 ≤ n && n ≤ 0x0d) || (0x1c ≤ n && n ≤ 0x20) || n == 0x85 || n == 0xa0 || n == 0x1680 ||
    (0x2000 ≤ n && n ≤ 0x200a) || n == 0x2028 || n == 0x2029 || n == 0x202f || n == 0x205f ||
    n == 0x3000

def strip (t : Text) : Text := (t.dropWhile isSpace).rdropWhile isSpace

/-- A stripped text has nothing left to strip. -/
theorem strip_strip (t : Text) : strip (strip t) = strip t := by
  have hleft : (strip t).dropWhile isSpace = strip t := by
    rw [List.dropWhile_eq_self_iff]
    intro hpos
    have hpre : strip t <+: t.dropWhile isSpace :=
      List.rdropWhile_prefix isSpace (t.dropWhile isSpace)
    have hlen : 0 < (t.dropWhile isSpace).length := lt_of_lt_of_le hpos hpre.length_le
    rw [hpre.getElem hpos]
    exact List.dropWhile_get_zero_not isSpace t hlen
  unfold strip at hleft ⊢
  rw [hleft, List.rdropWhile_idempotent]

/-- `reason.strip() if isinstance(reason, str) else ""`. -/
def strippedReason (reason : Option Text) : Text :=
  match reason with
  | some r => strip r
  | none => []

theorem strip_strippedReason (reason : Option Text) :
    strip (strippedReason reason) = strippedReason reason := by
  cases reason with
  | some r => exact strip_strip r
  | none => rfl

inductive Role
  | student
  | teacher
  | admin
  deriving DecidableEq, Repr

structure Actor where
  userId : UserId
  role : Role
  deriving DecidableEq, Repr

def isAdmin (role : Role) : Bool := role == .admin

inductive ErrorCode
  | validationError
  | permissionDenied
  | accountNotActive
  | taskNotClaimable
  | noAssignmentAvailable
  | assignmentLimitReached
  | taskActiveClaimExists
  | claimCutoffReached
  | abandonLimitReached
  | claimNotAbandonable
  | claimNotSubmittable
  | submissionWindowClosed
  | fileTooLarge
  | fileTypeNotAllowed
  | submissionValidationFailed
  | alreadyReviewed
  | insufficientPoints
  | rewardOutOfStock
  | redemptionLimitReached
  | conflict
  | internalError
  | notFound
  deriving DecidableEq, Repr

end CampusQuest
