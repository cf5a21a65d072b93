/-
Questix.Lib.Url — `urllib.parse`: the parts of a URL, and a text without its
percent escapes.

A text is the list of its code points: Python's hold lone surrogates too, which
are no characters. The table of compatibility forms (`unicodedata.normalize`) is
a parameter.
-/
import Mathlib.Data.List.DropRight
import Mathlib.Tactic.Common

namespace Questix.Lib

abbrev Points := List ℕ

def points (s : String) : Points := s.toList.map Char.toNat

/-- `str.lower`, of ASCII letters. -/
def asciiLower (s : Points) : Points := s.map fun c => if 65 ≤ c ∧ c ≤ 90 then c + 32 else c

/-- `str.isspace`, of one character. -/
def isSpacePoint (c : ℕ) : Bool :=
  (9 ≤ c && c ≤ 13) || (28 ≤ c && c ≤ 32) || c == 0x85 || c == 0xA0 || c == 0x1680 ||
    (0x2000 ≤ c && c ≤ 0x200A) || c == 0x2028 || c == 0x2029 || c == 0x202F || c == 0x205F ||
    c == 0x3000

/-- `str.strip` -/
def stripPoints (s : Points) : Points := (s.dropWhile isSpacePoint).rdropWhile isSpacePoint

namespace Url

def isHexDigit (c : ℕ) : Bool :=
  (48 ≤ c && c ≤ 57) || (65 ≤ c && c ≤ 70) || (97 ≤ c && c ≤ 102)

def isDigit (c : ℕ) : Bool := 48 ≤ c && c ≤ 57

def isLetter (c : ℕ) : Bool := (65 ≤ c && c ≤ 90) || (97 ≤ c && c ≤ 122)

/-- The value of a hexadecimal digit. -/
def hexValue (c : ℕ) : ℕ := if c ≤ 57 then c - 48 else if c ≤ 70 then c - 55 else c - 87

/-! ## Hosts in brackets -/

/-- What `IPv4Address._parse_octet` takes. -/
def octet (s : Points) : Bool :=
  !s.isEmpty && s.all isDigit && s.length ≤ 3 && (s == [48] || s.head? != some 48) &&
    s.foldl (fun n c => 10 * n + (c - 48)) 0 ≤ 255

/-- What `IPv4Address` takes. -/
def ipv4 (s : Points) : Bool := let octets := s.splitOn 46; octets.length == 4 && octets.all octet

/-- What `IPv6Address._parse_hextet` takes. -/
def hextet (s : Points) : Bool := !s.isEmpty && s.length ≤ 4 && s.all isHexDigit

/-- The parts of an address of version 6; where the last is one of version 4, the
two it stands for are in its place. -/
def ipv6Parts (s : Points) : Option (List Points) :=
  let parts := s.splitOn 58
  if parts.length < 3 then none
  else if 46 ∈ parts.getLastD [] then
    if ipv4 (parts.getLastD []) then some (parts.dropLast ++ [[48], [48]]) else none
  else some parts

/-- What `IPv6Address._ip_int_from_string` takes. -/
def ipv6Int (s : Points) : Bool :=
  match ipv6Parts s with
  | none => false
  | some parts =>
    let inner := parts.tail.dropLast
    if 9 < parts.length then false
    else match inner.count [] with
      | 0 => parts.length == 8 && parts.all hextet
      | 1 =>
        -- the two sides of `::`, each without what is empty at the end of the text
        let hi := parts.take (inner.idxOf [] + 1)
        let lo := parts.drop (inner.idxOf [] + 2)
        let high := if hi.head? = some [] then hi.tail else hi
        let low := if lo.getLast? = some [] then lo.dropLast else lo
        (hi.head? != some [] || high.isEmpty) && (lo.getLast? != some [] || low.isEmpty) &&
          high.length + low.length < 8 && high.all hextet && low.all hextet
      | _ => false

/-- What `ipaddress.IPv6Address` takes: an address, and a scope behind `%`. -/
def ipv6 (s : Points) : Bool :=
  match s.splitOn 37 with
  | [address] => ipv6Int address
  | [address, scope] => !scope.isEmpty && ipv6Int address
  | _ => false

/-- `v`, hexadecimal digits, a dot and something behind it -/
def ipvFuture (s : Points) : Bool :=
  let version := s.tail.takeWhile isHexDigit
  let rest := s.tail.dropWhile isHexDigit
  s.head? == some 118 && !version.isEmpty && rest.head? == some 46 && !rest.tail.isEmpty

/-- What `_check_bracketed_host` takes. -/
def bracketedHost (host : Points) : Bool :=
  if host.head? = some 118 then ipvFuture host else ipv6 host

/-! ## Parts of a URL -/

structure SplitResult where
  scheme : Points
  netloc : Points
  path : Points
  query : Points
  fragment : Points

def schemeChar (c : ℕ) : Bool := isLetter c || isDigit c || c == 43 || c == 45 || c == 46

/-- The scheme in front of a URL, and the rest. -/
def splitScheme (url : Points) : Points × Points :=
  let front := url.takeWhile (· != 58)
  if 58 ∈ url ∧ (front.head?.any isLetter) ∧ front.all schemeChar then
    (asciiLower front, url.drop (front.length + 1))
  else ([], url)

/-- `_splitnetloc`, of a URL that may not have one. -/
def splitNetloc (url : Points) : Points × Points :=
  if url.take 2 = [47, 47] then
    ((url.drop 2).takeWhile fun c => c != 47 && c != 63 && c != 35,
      (url.drop 2).dropWhile fun c => c != 47 && c != 63 && c != 35)
  else ([], url)

/-- Whether the brackets of a netloc are a pair, with an address between them. -/
def bracketsOk (netloc : Points) : Bool :=
  if 91 ∈ netloc ∧ 93 ∈ netloc then
    bracketedHost (((netloc.dropWhile (· != 91)).tail).takeWhile (· != 93))
  else !(91 ∈ netloc || 93 ∈ netloc)

/-- `_checknetloc`: no character that turns into a delimiter. -/
def netlocOk (nfkc : Points → Points) (netloc : Points) : Bool :=
  let n := netloc.filter fun c => !([64, 58, 35, 63].contains c)
  netloc.all (· < 128) || nfkc n == n || !([47, 63, 35, 64, 58].any fun c => (nfkc n).contains c)

/-- What stands in front of a character, and behind it. -/
def cut (c : ℕ) (s : Points) : Points × Points :=
  (s.takeWhile (· != c), (s.dropWhile (· != c)).tail)

/-- `urlsplit`; missing is a `ValueError`. -/
def urlsplit (nfkc : Points → Points) (target : Points) : Option SplitResult :=
  let url := (target.dropWhile (· ≤ 32)).filter fun c => !([9, 10, 13].contains c)
  let (scheme, url) := splitScheme url
  let (netloc, url) := splitNetloc url
  if bracketsOk netloc && netlocOk nfkc netloc then
    let (url, fragment) := cut 35 url
    let (path, query) := cut 63 url
    some { scheme, netloc, path, query, fragment }
  else none

/-! ## Percent escapes -/

/-- A character of UTF-8 that is not over: the code so far, how many bytes are to
come, and the bounds of the next. -/
structure Pending where
  code : ℕ
  left : ℕ
  least : ℕ
  greatest : ℕ

/-- What a first byte above 127 begins. -/
def lead (b : ℕ) : Option Pending :=
  if 0xC2 ≤ b ∧ b ≤ 0xDF then some ⟨b - 0xC0, 1, 0x80, 0xBF⟩
  else if b = 0xE0 then some ⟨0, 2, 0xA0, 0xBF⟩
  else if b = 0xED then some ⟨0xD, 2, 0x80, 0x9F⟩
  else if 0xE1 ≤ b ∧ b ≤ 0xEF then some ⟨b - 0xE0, 2, 0x80, 0xBF⟩
  else if b = 0xF0 then some ⟨0, 3, 0x90, 0xBF⟩
  else if b = 0xF4 then some ⟨4, 3, 0x80, 0x8F⟩
  else if 0xF1 ≤ b ∧ b ≤ 0xF3 then some ⟨b - 0xF0, 3, 0x80, 0xBF⟩
  else none

def decodeByte (b : ℕ) (rest : Option Pending → Points) : Points :=
  if b < 0x80 then b :: rest none
  else match lead b with
    | some p => rest (some p)
    | none => 0xFFFD :: rest none

/-- `bytes.decode('utf-8', 'replace')` -/
def decodeFrom : Option Pending → List ℕ → Points
  | none, [] => []
  | some _, [] => [0xFFFD]
  | none, b :: bytes => decodeByte b fun p => decodeFrom p bytes
  | some p, b :: bytes =>
    if p.least ≤ b ∧ b ≤ p.greatest then
      let code := 64 * p.code + (b - 0x80)
      if p.left = 1 then code :: decodeFrom none bytes
      else decodeFrom (some ⟨code, p.left - 1, 0x80, 0xBF⟩) bytes
    else 0xFFFD :: decodeByte b fun p => decodeFrom p bytes

/-- `unquote_to_bytes`, of ASCII -/
def unquoteToBytes : Points → List ℕ
  | 37 :: a :: b :: rest =>
    if isHexDigit a && isHexDigit b then (16 * hexValue a + hexValue b) :: unquoteToBytes rest
    else 37 :: unquoteToBytes (a :: b :: rest)
  | c :: rest => c :: unquoteToBytes rest
  | [] => []

/-- `unquote`: every run of ASCII is decoded by itself. -/
def unquote (s : Points) : Points :=
  if 37 ∈ s then
    ((s.splitBy fun a b => decide (a < 128) == decide (b < 128)).map fun part =>
      if part.all (· < 128) then decodeFrom none (unquoteToBytes part) else part).flatten
  else s

example : unquote (points "a%2Fb%E3%81%82%ff%") =
    points "a/b" ++ [0x3042, 0xFFFD] ++ points "%" := by
  decide

end Url

end Questix.Lib
