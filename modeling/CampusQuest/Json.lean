import CampusQuest.Vocabulary
import Mathlib.Data.Rat.Defs

/-!
JSON values as the services receive them. Python's `bool` is no `int` here, since every check
of the code tells the two apart. An object is a dictionary: its keys are taken to be distinct,
and a look-up finds the first.
-/

namespace CampusQuest

/-- A JSON value; a `float` without a value is NaN or an infinity. -/
inductive Json
  | null
  | bool (b : Bool)
  | int (n : ℤ)
  | float (q : Option ℚ)
  | str (s : Text)
  | arr (items : List Json)
  | obj (fields : List (Text × Json))

namespace Json

def field (fields : List (Text × Json)) (key : Text) : Option Json :=
  (fields.find? fun f => f.1 = key).map Prod.snd

def asStr : Json → Option Text
  | .str s => some s
  | _ => none

def asStrList : Json → Option (List Text)
  | .arr items => items.mapM asStr
  | _ => none

/-- A character in a JSON string, with `ensure_ascii=False`. -/
def dumpChar (c : Char) : Text :=
  if c = '"' then ['\\', '"']
  else if c = '\\' then ['\\', '\\']
  else if c = '\n' then ['\\', 'n']
  else if c = '\r' then ['\\', 'r']
  else if c = '\t' then ['\\', 't']
  else if c.toNat = 0x0c then ['\\', 'f']
  else if c.toNat = 0x08 then ['\\', 'b']
  else if c.toNat < 0x20 then
    ['\\', 'u', '0', '0', Nat.digitChar (c.toNat / 16), Nat.digitChar (c.toNat % 16)]
  else [c]

def dumpStr (s : Text) : Text := '"' :: s.flatMap dumpChar ++ ['"']

def dumpStrs (items : List Text) : Text :=
  '[' :: [',', ' '].intercalate (items.map dumpStr) ++ [']']

end Json

end CampusQuest
