/-
Questix.Lib.Json — JSON values, and the text Python's `json.dumps` writes for
them with `ensure_ascii=False` and no blanks.

A text is a list of characters, an object its members in their order. How a
finite double is written (`repr`) is a parameter. With `allowNan` a number that
is not finite is written as well, without it there is no text for it.
-/
import Questix.Lib.Dbl

namespace Questix.Lib

inductive Json where
  | null
  | bool (b : Bool)
  | int (n : ℤ)
  | float (x : Dbl)
  | str (s : List Char)
  | arr (items : List Json)
  | obj (members : List (List Char × Json))

namespace Json

/-- `value.get(key)`, of a dictionary. -/
def get (members : List (List Char × Json)) (key : List Char) : Json :=
  (members.lookup key).getD .null

def utf8Bytes (s : List Char) : ℕ := (s.map Char.utf8Size).sum

/-! ## Writing -/

def hexDigit (n : ℕ) : Char := Nat.digitChar n

/-- A character of a text: quotes, backslashes and control characters are
escaped. -/
def escape (c : Char) : List Char :=
  let backslash := Char.ofNat 92
  match c.toNat with
  | 8 => [backslash, 'b']
  | 9 => [backslash, 't']
  | 10 => [backslash, 'n']
  | 12 => [backslash, 'f']
  | 13 => [backslash, 'r']
  | 34 => [backslash, c]
  | 92 => [backslash, c]
  | n => if n < 32 then [backslash, 'u', '0', '0', hexDigit (n / 16), hexDigit (n % 16)] else [c]

def quoted (s : List Char) : List Char :=
  Char.ofNat 34 :: s.flatMap escape ++ [Char.ofNat 34]

def intText : ℤ → List Char
  | .ofNat n => Nat.toDigits 10 n
  | .negSucc n => '-' :: Nat.toDigits 10 (n + 1)

def floatText (repr : ℚ → List Char) (allowNan : Bool) : Dbl → Option (List Char)
  | .fin q => some (repr q)
  | .nan => if allowNan then some ['N', 'a', 'N'] else none
  | .pinf => if allowNan then some ['I', 'n', 'f', 'i', 'n', 'i', 't', 'y'] else none
  | .ninf => if allowNan then some ['-', 'I', 'n', 'f', 'i', 'n', 'i', 't', 'y'] else none

/-- The texts of the items of a list, or of an object. -/
def joined (first last : Char) (texts : List (List Char)) : List Char :=
  first :: (texts.intersperse [',']).flatten ++ [last]

mutual

/-- `json.dumps` -/
def dumps (repr : ℚ → List Char) (allowNan : Bool) : Json → Option (List Char)
  | .null => some ['n', 'u', 'l', 'l']
  | .bool true => some ['t', 'r', 'u', 'e']
  | .bool false => some ['f', 'a', 'l', 's', 'e']
  | .int n => some (intText n)
  | .float x => floatText repr allowNan x
  | .str s => some (quoted s)
  | .arr items => (dumpsItems repr allowNan items).map (joined '[' ']')
  | .obj members => (dumpsMembers repr allowNan members).map (joined (Char.ofNat 123) (Char.ofNat 125))
termination_by structural value => value

def dumpsItems (repr : ℚ → List Char) (allowNan : Bool) : List Json → Option (List (List Char))
  | [] => some []
  | item :: items => do
    let text ← dumps repr allowNan item
    return text :: (← dumpsItems repr allowNan items)
termination_by structural items => items

def dumpsMembers (repr : ℚ → List Char) (allowNan : Bool) :
    List (List Char × Json) → Option (List (List Char))
  | [] => some []
  | member :: members => do
    let text ← dumpsMember repr allowNan member
    return text :: (← dumpsMembers repr allowNan members)
termination_by structural members => members

def dumpsMember (repr : ℚ → List Char) (allowNan : Bool) : List Char × Json → Option (List Char)
  | (key, value) => do
    return quoted key ++ ':' :: (← dumps repr allowNan value)
termination_by structural member => member

end

end Json

end Questix.Lib
