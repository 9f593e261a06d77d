import CampusQuest.Groups
import CampusQuest.IdentityRows
import Mathlib.Tactic

/-!
Remembered devices. A browser keeps one cookie for each account that it has remembered; the
server keeps the digests. The probe lists the accounts whose cookies are alive, the login with
a cookie alone picks one of them, and the other logins ask whether any cookie belongs to the
account.
-/

namespace CampusQuest.Identity

open Groups Tables

def deviceCookiePrefix : Text := ['c', 'q', '_', 'd', 'e', 'v', '_']

def probeMaxEntries : ℕ := 5

inductive IdentifierKind
  | phone
  | email
  deriving DecidableEq, Repr

def canonicalIdentifier (user : User) : Option (Text × IdentifierKind) :=
  if user.phoneE164.getD [] ≠ [] then some (user.phoneE164.getD [], .phone)
  else if user.emailNormalized.getD [] ≠ [] then some (user.emailNormalized.getD [], .email)
  else if user.username ≠ [] ∧ '@' ∈ user.username then some (user.username, .email)
  else none

/-- `slots_from`: the jar is a dict from names to values. -/
def slotsFrom (cookies : List (Text × Text)) : List (Text × Text) :=
  (cookies.filter fun c => deviceCookiePrefix.isPrefixOf c.1).map fun c =>
    (c.1.drop deviceCookiePrefix.length, c.2)

def maskPhone (phone : Text) : Text :=
  if phone.length ≤ 8 then phone.take 2 ++ ['*', '*', '*', '*']
  else phone.take 3 ++ ['*', '*', '*', '*'] ++ phone.drop (phone.length - 4)

def maskEmail (email : Text) : Text :=
  let mailbox := email.takeWhile (· ≠ '@')
  if '@' ∉ email ∨ mailbox = [] then ['*', '*', '*']
  else mailbox.take 1 ++ ['*', '*', '*', '@'] ++ email.drop (mailbox.length + 1)

abbrev Devices := Table DeviceId RememberedDevice

def RememberedDevice.recency (row : RememberedDevice) : Instant := row.lastUsedAt.getD row.createdAt

/-- The entry of a slot: its row, and the account of the row. -/
structure RememberedEntry where
  slot : Text
  id : DeviceId
  row : RememberedDevice
  user : User
  deriving DecidableEq

section Reads

variable (digest : Text → Text) (users : Table UserId User) (devices : Devices) (now : Instant)

def resolveRow (value : Text) : Option (DeviceId × RememberedDevice) :=
  (devices.find fun _ d => d.tokenHash = digest value).filter fun r =>
    now < r.2.expiresAt

/-- The entry of a slot, where its value resolves and the account is there. -/
def presentedEntry (s : Text × Text) : Option RememberedEntry := do
  let (id, row) ← resolveRow digest devices now s.2
  let user ← users.get row.userId
  some ⟨s.1, id, row, user⟩

/-- The loop over the sorted entries: the first of an account wins. -/
def firstPerUser (seen : List UserId) : List RememberedEntry → List RememberedEntry
  | [] => []
  | e :: rest =>
    if e.row.userId ∈ seen then firstPerUser seen rest
    else e :: firstPerUser (e.row.userId :: seen) rest

def resolveRemembered (slots : List (Text × Text)) : List RememberedEntry :=
  firstPerUser [] (descending (fun e => e.row.recency) (slots.filterMap
    (presentedEntry digest users devices now)))

def bump (id : DeviceId) : Devices :=
  match devices.get id with
  | some row => devices.put id { row with lastUsedAt := some now }
  | none => devices

def anyValidFor (user : UserId) : List (Text × Text) → Bool × Devices
  | [] => (false, devices)
  | s :: rest =>
    match resolveRow digest devices now s.2 with
    | some (id, row) =>
      if row.userId = user then (true, bump devices now id) else anyValidFor user rest
    | none => anyValidFor user rest

def probeServes (user : User) : Bool :=
  if user.role = .student then user.status.admitted else user.status = .active

structure Face where
  identifierMasked : Text
  slot : Text
  deriving DecidableEq

def face (e : RememberedEntry) : Option Face :=
  if probeServes e.user then
    (canonicalIdentifier e.user).map fun c =>
      ⟨if c.2 = .phone then maskPhone c.1 else maskEmail c.1, e.slot⟩
  else none

def probeLoop (remembered : List Face) : List RememberedEntry → List Face
  | [] => remembered
  | e :: rest =>
    if probeMaxEntries ≤ remembered.length then remembered
    else
      match face e with
      | none => probeLoop remembered rest
      | some f => probeLoop (remembered ++ [f]) rest

def rememberedProbe (slots : List (Text × Text)) : List Face :=
  probeLoop [] (resolveRemembered digest users devices now slots)

/-- The answer of a login: an administrator still owes the second factor. -/
inductive CookieLogin
  | refused
  | totpRequired (user : UserId)
  | authenticated (user : UserId)
  deriving DecidableEq, Repr

def RememberedEntry.login (e : RememberedEntry) : CookieLogin :=
  if e.user.role = .admin then .totpRequired e.row.userId else .authenticated e.row.userId

def verifyOnCookieAlone (slots : List (Text × Text)) (target : Option Text) :
    CookieLogin × Devices :=
  let entries := resolveRemembered digest users devices now slots
  let wanted := strip (target.getD [])
  let chosen := if wanted ≠ [] then entries.find? fun e => e.slot = wanted else entries.head?
  match chosen with
  | none => (.refused, devices)
  | some e =>
    if e.user.status.admitted then (e.login, bump devices now e.id) else (.refused, devices)

end Reads

section Listing

variable {digest : Text → Text} {users : Table UserId User} {devices : Devices} {now : Instant}
  {seen : List UserId} {l : List RememberedEntry} {slots : List (Text × Text)}

theorem firstPerUser_sublist (seen : List UserId) (l : List RememberedEntry) :
    (firstPerUser seen l).Sublist l := by
  induction l generalizing seen with
  | nil => exact List.Sublist.slnil
  | cons e l ih =>
    unfold firstPerUser
    split
    · exact (ih seen).cons e
    · exact (ih _).cons_cons e

theorem not_seen_of_mem {e : RememberedEntry} (he : e ∈ firstPerUser seen l) :
    e.row.userId ∉ seen := by
  induction l generalizing seen with
  | nil => simp [firstPerUser] at he
  | cons e' l ih =>
    unfold firstPerUser at he
    split at he
    · exact ih he
    · rcases List.mem_cons.mp he with rfl | hrest
      · assumption
      · intro hmem
        exact ih hrest (List.mem_cons_of_mem _ hmem)

theorem nodup_firstPerUser (seen : List UserId) (l : List RememberedEntry) :
    ((firstPerUser seen l).map fun e => e.row.userId).Nodup := by
  induction l generalizing seen with
  | nil => simp [firstPerUser]
  | cons e l ih =>
    unfold firstPerUser
    split
    · exact ih seen
    · rw [List.map_cons, List.nodup_cons]
      refine ⟨fun hmem => ?_, ih _⟩
      obtain ⟨e', he', huser⟩ := List.mem_map.mp hmem
      apply not_seen_of_mem he'
      simp [huser]

/-- Of a sorted list every account keeps its greatest entry. -/
theorem exists_firstPerUser (hsorted : l.Pairwise fun a b => b.row.recency ≤ a.row.recency)
    {e : RememberedEntry} (he : e ∈ l) (hseen : e.row.userId ∉ seen) :
    ∃ e' ∈ firstPerUser seen l, e'.row.userId = e.row.userId ∧
      e.row.recency ≤ e'.row.recency := by
  induction l generalizing seen with
  | nil => simp at he
  | cons a l ih =>
    obtain ⟨hhead, htail⟩ := List.pairwise_cons.mp hsorted
    unfold firstPerUser
    rcases List.mem_cons.mp he with rfl | hrest
    · rw [if_neg hseen]
      exact ⟨e, List.mem_cons_self, rfl, le_refl _⟩
    · by_cases ha : a.row.userId ∈ seen
      · rw [if_pos ha]
        exact ih htail hrest hseen
      · rw [if_neg ha]
        by_cases hsame : a.row.userId = e.row.userId
        · exact ⟨a, List.mem_cons_self, hsame, hhead e hrest⟩
        · have hnew : e.row.userId ∉ a.row.userId :: seen := by
            simp [hseen, Ne.symm hsame]
          obtain ⟨e', he', huser, hle⟩ := ih htail hrest hnew
          exact ⟨e', List.mem_cons_of_mem _ he', huser, hle⟩

theorem sorted_descending (l : List RememberedEntry) :
    (descending (fun e => e.row.recency) l).Pairwise fun a b => b.row.recency ≤ a.row.recency :=
  List.pairwise_insertionSort (fun a b : RememberedEntry => b.row.recency ≤ a.row.recency) l

theorem presentedEntry_eq_some {s : Text × Text} {e : RememberedEntry} :
    presentedEntry digest users devices now s = some e ↔
      resolveRow digest devices now s.2 = some (e.id, e.row) ∧
        users.get e.row.userId = some e.user ∧ e.slot = s.1 := by
  unfold presentedEntry
  constructor
  · intro h
    obtain ⟨⟨id, row⟩, hrow, h⟩ := Option.bind_eq_some_iff.mp h
    obtain ⟨user, huser, h⟩ := Option.bind_eq_some_iff.mp h
    obtain rfl := Option.some.inj h
    exact ⟨hrow, huser, rfl⟩
  · rintro ⟨hrow, huser, hslot⟩
    rw [hrow]
    simp [huser, ← hslot]

theorem mem_resolved {e : RememberedEntry}
    (he : e ∈ resolveRemembered digest users devices now slots) :
    ∃ s ∈ slots, presentedEntry digest users devices now s = some e := by
  have hmem := (firstPerUser_sublist _ _).subset he
  exact List.mem_filterMap.mp (mem_descending.mp hmem)

/-- The accounts of the list are those with a live cookie in the jar, each once, with the most
recent of them first. -/
theorem resolved_of_slot {s : Text × Text} (hs : s ∈ slots) {e : RememberedEntry}
    (he : presentedEntry digest users devices now s = some e) :
    ∃ e' ∈ resolveRemembered digest users devices now slots, e'.row.userId = e.row.userId ∧
      e.row.recency ≤ e'.row.recency := by
  have hmem : e ∈ descending (fun e => e.row.recency)
      (slots.filterMap (presentedEntry digest users devices now)) :=
    mem_descending.mpr (List.mem_filterMap.mpr ⟨s, hs, he⟩)
  exact exists_firstPerUser (sorted_descending _) hmem (by simp)

theorem anyValidFor_iff {user : UserId} :
    (anyValidFor digest devices now user slots).1 = true ↔
      ∃ s ∈ slots, ∃ id row, resolveRow digest devices now s.2 = some (id, row) ∧
        row.userId = user := by
  induction slots with
  | nil => simp [anyValidFor]
  | cons s slots ih =>
    unfold anyValidFor
    cases hrow : resolveRow digest devices now s.2 with
    | none => simp [ih, hrow]
    | some found =>
      obtain ⟨id, row⟩ := found
      dsimp only
      by_cases huser : row.userId = user
      · simp [huser, hrow]
      · simp [huser, hrow, ih]

theorem nodup_slotsFrom {cookies : List (Text × Text)} (h : (cookies.map Prod.fst).Nodup) :
    ((slotsFrom cookies).map Prod.fst).Nodup := by
  unfold slotsFrom
  rw [List.map_map]
  have hnames : (cookies.filter fun c => deviceCookiePrefix.isPrefixOf c.1).Pairwise
      fun c c' => c.1 ≠ c'.1 :=
    (List.pairwise_map.mp h).sublist List.filter_sublist
  refine List.pairwise_map.mpr (hnames.imp_of_mem fun {c c'} hc hc' hne heq => hne ?_)
  obtain ⟨rest, hrest⟩ := List.isPrefixOf_iff_prefix.mp (List.mem_filter.mp hc).2
  obtain ⟨rest', hrest'⟩ := List.isPrefixOf_iff_prefix.mp (List.mem_filter.mp hc').2
  simp only [Function.comp_apply, ← hrest, ← hrest', List.drop_left] at heq
  rw [← hrest, ← hrest', heq]

/-- An entry of the list is the one that its slot picks. -/
theorem find_slot (hslots : (slots.map Prod.fst).Nodup) {e : RememberedEntry}
    (he : e ∈ resolveRemembered digest users devices now slots) :
    (resolveRemembered digest users devices now slots).find? (fun e' => e'.slot = e.slot) =
      some e := by
  cases hfind : (resolveRemembered digest users devices now slots).find?
      fun e' => e'.slot = e.slot with
  | none =>
    have := List.find?_eq_none.mp hfind e he
    simp at this
  | some e' =>
    have hslot : e'.slot = e.slot := by simpa using List.find?_some hfind
    obtain ⟨s, hs, hpresented⟩ := mem_resolved he
    obtain ⟨s', hs', hpresented'⟩ := mem_resolved (List.mem_of_find?_eq_some hfind)
    have hname : s'.1 = s.1 := by
      rw [← (presentedEntry_eq_some.mp hpresented).2.2, ← hslot]
      exact (presentedEntry_eq_some.mp hpresented').2.2.symm
    obtain rfl : s' = s := List.inj_on_of_nodup_map hslots hs' hs hname
    rw [hpresented] at hpresented'
    rw [Option.some.inj hpresented']

theorem probeLoop_eq (remembered : List Face) (l : List RememberedEntry)
    (hlength : remembered.length ≤ probeMaxEntries) :
    probeLoop remembered l = (remembered ++ l.filterMap face).take probeMaxEntries := by
  induction l generalizing remembered with
  | nil => simp [probeLoop, List.take_of_length_le hlength]
  | cons e l ih =>
    unfold probeLoop
    by_cases hfull : probeMaxEntries ≤ remembered.length
    · rw [if_pos hfull, List.take_append_of_le_length hfull, List.take_of_length_le hlength]
    · rw [if_neg hfull]
      cases hface : face e with
      | none => simp [hface, ih remembered hlength]
      | some f =>
        have hlength' : (remembered ++ [f]).length ≤ probeMaxEntries := by
          rw [List.length_append, List.length_singleton]
          omega
        simp [hface, ih _ hlength']

/-- Whom the probe shows the login with a cookie lets in. -/
theorem admitted_of_serves {user : User} (h : probeServes user = true) :
    user.status.admitted = true := by
  unfold probeServes at h
  split at h
  · exact h
  · rw [of_decide_eq_true h]
    rfl

/-- The banner and the logins agree on a jar. The list names each account once, the most recent
first; it names the accounts that a login would honour a cookie of the jar for, each by the most
recent of its live cookies. The probe shows the first five of the list that it serves, and
whoever it shows is let in when that face is picked, which writes nothing but the use of that
cookie. -/
structure BannerHonest (digest : Text → Text) (users : Table UserId User) (devices : Devices)
    (now : Instant) (slots : List (Text × Text)) (entries : List RememberedEntry) : Prop where
  once : (entries.map fun e => e.row.userId).Nodup
  recent_first : entries.Pairwise fun a b => b.row.recency ≤ a.row.recency
  honoured : ∀ user, (∃ e ∈ entries, e.row.userId = user) ↔
    (anyValidFor digest devices now user slots).1 = true ∧ users.get user ≠ none
  latest : ∀ e ∈ entries, ∀ s ∈ slots, ∀ id row,
    resolveRow digest devices now s.2 = some (id, row) → row.userId = e.row.userId →
      row.recency ≤ e.row.recency
  probe : rememberedProbe digest users devices now slots =
    (entries.filterMap face).take probeMaxEntries
  picked : ∀ f ∈ rememberedProbe digest users devices now slots, f.slot ≠ [] →
    strip f.slot = f.slot → ∃ e ∈ entries, face e = some f ∧
      verifyOnCookieAlone digest users devices now slots (some f.slot) =
        (e.login, bump devices now e.id)

end Listing

section Example

def rememberedTeacher : User :=
  ⟨['t'], none, ['T'], some ['+', '8', '6', '1', '3', '8', '0', '0'], none, none, .teacher, .active⟩

def teacherJar : List (Text × Text) :=
  [(deviceCookiePrefix ++ ['a'], ['x']), (['c', 's', 'r', 'f'], ['y'])]

def teachers : Table UserId User := Table.empty.put 1 rememberedTeacher

def oneDevice : Devices := Table.empty.put 7 ⟨1, ['x'], 100, none, 0⟩

end Example

end CampusQuest.Identity
