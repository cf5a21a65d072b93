/-
Questix.PwmGuard.Protocol — the text of a request: `parse_request` and
`decimal` of `protocol.hpp`, and the frame that `call_until` of `client.hpp`
sends.

A text is the list of its characters, each of them a byte of the frame. The
stream's `>>` for a string is `nextWord`, with the white space of the C locale.
`from_chars` is the library function for a decimal number without a sign: the
minus that it would take for an `int` has been refused before.
-/
import Questix.Lib.Words
import Questix.PwmGuard.Daemon

namespace Questix.PwmGuard.Protocol

open Questix.Lib

abbrev Text := List Char

/-- The request as `parse_request` fills it in. -/
structure Request where
  op : Text
  session : UInt64 := 0
  seq : UInt64 := 0
  pulse : Int := 0
  deriving DecidableEq

def UINT64_MAX : ℕ := 2 ^ 64 - 1
def INT_MAX : ℕ := 2 ^ 31 - 1

/-- `std::isspace` -/
def isspace (c : Char) : Bool := c = ' ' || (9 ≤ c.toNat && c.toNat ≤ 13)

/-! ## `decimal` -/

/-- `std::from_chars` for a number that is at most `limit`: the number, if there
are digits and it fits, and what the returned pointer points at. -/
def fromChars (limit : ℕ) (s : Text) : Option ℕ × Text :=
  match s.takeWhile Char.isDigit with
  | [] => (none, s)
  | digits =>
    let value := Nat.ofDigitChars 10 digits 0
    (if value ≤ limit then some value else none, s.dropWhile Char.isDigit)

/-- `decimal` -/
def decimal (limit : ℕ) (s : Text) : Option ℕ :=
  match s with
  | [] => none
  | c :: _ =>
    if c = '-' || c = '+' then none
    else
      match fromChars limit s with
      | (some value, []) => some value
      | _ => none

/-! ## `parse_request` -/

def operations : List Text :=
  ["STATUS".toList, "REPORT".toList, "LOW".toList, "ARM".toList, "COMPLETE".toList,
    "COMMAND".toList, "SHUTDOWN".toList, "STOP".toList]

/-- What the operation asks of the fields. -/
def Request.consistent (r : Request) : Bool :=
  if r.op = "REPORT".toList then r.session != 0 && r.seq == 0 && r.pulse == 0
  else if r.op = "STOP".toList || r.op = "SHUTDOWN".toList then r.pulse == 0
  else if r.op = "STATUS".toList || r.op = "LOW".toList || r.op = "ARM".toList then
    r.session == 0 && r.seq == 0 && r.pulse == 0
  else r.session != 0 && r.seq != 0 && (r.op = "COMMAND".toList || r.pulse == 0)

/-- The five fields of a frame, once they have been read. -/
def readFields (version op s q p : Text) : Option Request := do
  if version ≠ "1".toList then none
  let session ← decimal UINT64_MAX s
  let seq ← decimal UINT64_MAX q
  let pulse ← decimal INT_MAX p
  if op ∉ operations then none
  let r : Request := { op, session := .ofNat session, seq := .ofNat seq, pulse := pulse }
  if r.consistent then some r else none

/-- `parse_request` -/
def parseRequest (frame : Text) : Option Request := do
  let (version, rest) ← nextWord isspace frame
  let (op, rest) ← nextWord isspace rest
  let (s, rest) ← nextWord isspace rest
  let (q, rest) ← nextWord isspace rest
  let (p, rest) ← nextWord isspace rest
  if (nextWord isspace rest).isSome then none
  readFields version op s q p

/-! ## The client -/

/-- `std::to_string` -/
def toText (n : ℤ) : Text :=
  if n < 0 then '-' :: Nat.toDigits 10 n.natAbs else Nat.toDigits 10 n.natAbs

/-- The frame of `call_until`. -/
def Request.frame (r : Request) : Text :=
  "1 ".toList ++ r.op ++ " ".toList ++ toText r.session.toNat ++ " ".toList ++
    toText r.seq.toNat ++ " ".toList ++ toText r.pulse

end Questix.PwmGuard.Protocol

/-! A request comes back from its frame, and
nothing else does.

`parseRequest_eq` takes the stream apart: a frame is its words, and five of
them are read as fields. `decimal_eq_some_iff` is the whole of the decimal
reader; the frames of the client and the frames that are refused both follow
from the two. -/

namespace Questix.PwmGuard.Protocol

open Questix.Lib

/-! ## Numbers -/

/-- The digits are a number that is at most `limit`. -/
def IsNumber (limit : ℕ) (s : Text) : Prop :=
  s ≠ [] ∧ (∀ c ∈ s, c.isDigit = true) ∧ Nat.ofDigitChars 10 s 0 ≤ limit

theorem fromChars_digits {limit : ℕ} {s : Text} (hs : s ≠ [])
    (hdigits : ∀ c ∈ s, c.isDigit = true) :
    fromChars limit s =
      (if Nat.ofDigitChars 10 s 0 ≤ limit then some (Nat.ofDigitChars 10 s 0) else none, []) := by
  have htake : s.takeWhile Char.isDigit = s := List.takeWhile_eq_self_iff.2 hdigits
  have hdrop : s.dropWhile Char.isDigit = [] := List.dropWhile_eq_nil_iff.2 hdigits
  unfold fromChars
  rw [htake, hdrop]
  cases s with
  | nil => exact absurd rfl hs
  | cons c s => rfl

theorem fromChars_snd (limit : ℕ) (s : Text) :
    (fromChars limit s).2 = s.dropWhile Char.isDigit := by
  unfold fromChars
  split
  · rename_i hnone
    conv_lhs => rw [← List.takeWhile_append_dropWhile (p := Char.isDigit) (l := s), hnone]
    rfl
  · rfl

theorem isDigit_sign : ('-').isDigit = false ∧ ('+').isDigit = false := by decide

theorem decimal_eq_some_iff {limit n : ℕ} {s : Text} :
    decimal limit s = some n ↔ IsNumber limit s ∧ n = Nat.ofDigitChars 10 s 0 := by
  cases s with
  | nil => simp [decimal, IsNumber]
  | cons c s =>
    constructor
    · intro h
      simp only [decimal] at h
      split at h
      · cases h
      split at h
      · rename_i value heq
        have hrest : (c :: s).dropWhile Char.isDigit = [] := by
          rw [← fromChars_snd limit, heq]
        have hdigits := List.dropWhile_eq_nil_iff.1 hrest
        rw [fromChars_digits (List.cons_ne_nil c s) hdigits] at heq
        split at heq
        · rename_i hle
          simp only [Prod.mk.injEq, Option.some.injEq, and_true] at heq
          exact ⟨⟨List.cons_ne_nil c s, hdigits, hle⟩, by rw [heq, Option.some.inj h]⟩
        · cases heq
      · cases h
    · rintro ⟨⟨hne, hdigits, hle⟩, rfl⟩
      have hc := hdigits c List.mem_cons_self
      have hminus : c ≠ '-' := by
        rintro rfl
        exact absurd hc (by simp [isDigit_sign])
      have hplus : c ≠ '+' := by
        rintro rfl
        exact absurd hc (by simp [isDigit_sign])
      simp only [decimal, hminus, hplus, fromChars_digits hne hdigits, if_pos hle]
      rfl

/-! ## Frames -/

theorem parseRequest_eq (frame : Text) :
    parseRequest frame = match words isspace frame with
      | [version, op, s, q, p] => readFields version op s q p
      | _ => none := by
  unfold parseRequest
  simp only [Option.bind_eq_bind]
  rw [words_eq_nextWord frame]
  rcases nextWord isspace frame with - | ⟨version, rest⟩
  · rfl
  simp only [Option.bind_some]
  rw [words_eq_nextWord rest]
  rcases nextWord isspace rest with - | ⟨op, rest⟩
  · rfl
  simp only [Option.bind_some]
  rw [words_eq_nextWord rest]
  rcases nextWord isspace rest with - | ⟨s, rest⟩
  · rfl
  simp only [Option.bind_some]
  rw [words_eq_nextWord rest]
  rcases nextWord isspace rest with - | ⟨q, rest⟩
  · rfl
  simp only [Option.bind_some]
  rw [words_eq_nextWord rest]
  rcases nextWord isspace rest with - | ⟨p, rest⟩
  · rfl
  simp only [Option.bind_some]
  rw [words_eq_nextWord rest]
  rcases nextWord isspace rest with - | extra
  · rfl
  · rfl

/-- The request that the fields of a frame stand for. -/
def requestOf (op s q p : Text) : Request where
  op := op
  session := .ofNat (Nat.ofDigitChars 10 s 0)
  seq := .ofNat (Nat.ofDigitChars 10 q 0)
  pulse := Nat.ofDigitChars 10 p 0

theorem readFields_eq_some_iff {version op s q p : Text} {r : Request} :
    readFields version op s q p = some r ↔
      version = "1".toList ∧ IsNumber UINT64_MAX s ∧ IsNumber UINT64_MAX q ∧ IsNumber INT_MAX p ∧
        op ∈ operations ∧ r = requestOf op s q p ∧ r.consistent = true := by
  unfold readFields
  by_cases hversion : version = "1".toList
  · rw [if_neg (not_not.2 hversion)]
    constructor
    · intro h
      obtain ⟨session, hs, h⟩ := Option.bind_eq_some_iff.1 h
      obtain ⟨seq, hq, h⟩ := Option.bind_eq_some_iff.1 h
      obtain ⟨pulse, hp, h⟩ := Option.bind_eq_some_iff.1 h
      obtain ⟨hs', rfl⟩ := decimal_eq_some_iff.1 hs
      obtain ⟨hq', rfl⟩ := decimal_eq_some_iff.1 hq
      obtain ⟨hp', rfl⟩ := decimal_eq_some_iff.1 hp
      split at h
      · cases h
      rename_i hop
      dsimp only at h
      split at h
      · rename_i hconsistent
        obtain rfl := Option.some.inj h
        exact ⟨hversion, hs', hq', hp', not_not.1 hop, rfl, hconsistent⟩
      · cases h
    · rintro ⟨-, hs, hq, hp, hop, rfl, hconsistent⟩
      refine Option.bind_eq_some_iff.2 ⟨_, decimal_eq_some_iff.2 ⟨hs, rfl⟩, ?_⟩
      refine Option.bind_eq_some_iff.2 ⟨_, decimal_eq_some_iff.2 ⟨hq, rfl⟩, ?_⟩
      refine Option.bind_eq_some_iff.2 ⟨_, decimal_eq_some_iff.2 ⟨hp, rfl⟩, ?_⟩
      rw [if_neg (not_not.2 hop)]
      exact if_pos hconsistent
  · rw [if_pos hversion]
    exact ⟨nofun, fun h => absurd h.1 hversion⟩

theorem parseRequest_eq_some_iff {frame : Text} {r : Request} :
    parseRequest frame = some r ↔
      ∃ s q p, words isspace frame = ["1".toList, r.op, s, q, p] ∧
        IsNumber UINT64_MAX s ∧ IsNumber UINT64_MAX q ∧ IsNumber INT_MAX p ∧
        r.op ∈ operations ∧ r = requestOf r.op s q p ∧ r.consistent = true := by
  rw [parseRequest_eq]
  constructor
  · intro h
    split at h
    · rename_i version op s q p hwords
      obtain ⟨rfl, hs, hq, hp, hop, rfl, hr⟩ := readFields_eq_some_iff.1 h
      exact ⟨s, q, p, hwords, hs, hq, hp, hop, rfl, hr⟩
    · cases h
  · rintro ⟨s, q, p, hwords, hs, hq, hp, hop, hr, hconsistent⟩
    rw [hwords]
    exact readFields_eq_some_iff.2 ⟨rfl, hs, hq, hp, hop, hr, hconsistent⟩

/-! ## The frames of the client -/

theorem isspace_of_isDigit {c : Char} (h : c.isDigit = true) : isspace c = false := by
  simp only [Char.isDigit, Bool.and_eq_true, decide_eq_true_eq] at h
  have hle : 48 ≤ c.toNat := by simpa [UInt32.le_iff_toNat_le] using h.1
  have hspace : c ≠ ' ' := by
    rintro rfl
    exact absurd hle (by decide)
  simp only [isspace, hspace, decide_false, Bool.false_or, Bool.and_eq_false_iff,
    decide_eq_false_iff_not]
  omega

theorem isDigit_of_mem_toDigits {n : ℕ} {c : Char} (h : c ∈ Nat.toDigits 10 n) :
    c.isDigit = true :=
  Nat.isDigit_of_mem_toDigits (by decide) (by decide) h

theorem toText_ne_nil (n : ℤ) : toText n ≠ [] := by
  unfold toText
  split
  · exact List.cons_ne_nil _ _
  · exact Nat.toDigits_ne_nil

theorem toText_natCast (n : ℕ) : toText n = Nat.toDigits 10 n := by
  have hn : ¬ (n : ℤ) < 0 := by omega
  rw [toText, if_neg hn, Int.natAbs_natCast]

theorem isspace_of_mem_toText {n : ℤ} : ∀ c ∈ toText n, isspace c = false := by
  intro c hc
  unfold toText at hc
  split at hc
  · rcases List.mem_cons.1 hc with rfl | hc
    · decide
    · exact isspace_of_isDigit (isDigit_of_mem_toDigits hc)
  · exact isspace_of_isDigit (isDigit_of_mem_toDigits hc)

theorem operations_words : ∀ op ∈ operations, op ≠ [] ∧
    ∀ c ∈ op, isspace c = false ∧ c ≠ '+' ∧ c ≠ '-' := by
  have hall : operations.all (fun op => op ≠ [] && op.all fun c =>
      !isspace c && c != '+' && c != '-') = true := by decide
  intro op hop
  obtain ⟨hne, hletters⟩ := Bool.and_eq_true_iff.mp (List.all_eq_true.mp hall op hop)
  refine ⟨of_decide_eq_true hne, fun c hc => ?_⟩
  simpa [and_assoc] using List.all_eq_true.mp hletters c hc

theorem words_frame {r : Request} (hop : r.op ∈ operations) :
    words isspace r.frame =
      ["1".toList, r.op, toText r.session.toNat, toText r.seq.toNat, toText r.pulse] := by
  obtain ⟨hne, hletters⟩ := operations_words r.op hop
  have hframe : r.frame = List.intercalate [' ']
      ["1".toList, r.op, toText r.session.toNat, toText r.seq.toNat, toText r.pulse] := by
    have hone : "1 ".toList = "1".toList ++ [' '] := rfl
    have hblank : " ".toList = [' '] := rfl
    delta Request.frame
    simp [hone, hblank, List.intercalate]
  rw [hframe, words_intercalate rfl]
  · simp [toText_ne_nil, hne]
  · intro w hw c hc
    simp only [List.mem_cons, List.not_mem_nil, or_false] at hw
    rcases hw with rfl | rfl | rfl | rfl | rfl
    · obtain rfl : c = '1' := by simpa using hc
      decide
    · exact (hletters c hc).1
    · exact isspace_of_mem_toText c hc
    · exact isspace_of_mem_toText c hc
    · exact isspace_of_mem_toText c hc

theorem isNumber_toDigits {limit n : ℕ} (hn : n ≤ limit) : IsNumber limit (Nat.toDigits 10 n) :=
  ⟨Nat.toDigits_ne_nil, fun _ => isDigit_of_mem_toDigits, by rwa [Nat.ofDigitChars_ten_toDigits]⟩

theorem isNumber_toText_iff {limit : ℕ} {n : ℤ} :
    IsNumber limit (toText n) ↔ 0 ≤ n ∧ n ≤ limit := by
  constructor
  · rintro ⟨-, hdigits, hle⟩
    have hn : 0 ≤ n := by
      by_contra hneg
      have hminus := hdigits '-' (by rw [toText, if_pos (not_le.1 hneg)]; exact List.mem_cons_self)
      exact absurd hminus (by simp [isDigit_sign])
    obtain ⟨m, rfl⟩ := Int.eq_ofNat_of_zero_le hn
    rw [toText_natCast, Nat.ofDigitChars_ten_toDigits] at hle
    exact ⟨hn, by exact_mod_cast hle⟩
  · rintro ⟨hn, hle⟩
    obtain ⟨m, rfl⟩ := Int.eq_ofNat_of_zero_le hn
    rw [toText_natCast]
    exact isNumber_toDigits (by exact_mod_cast hle)

theorem requestOf_frame {r : Request} (hpulse : 0 ≤ r.pulse) :
    requestOf r.op (toText r.session.toNat) (toText r.seq.toNat) (toText r.pulse) = r := by
  obtain ⟨op, session, seq, pulse⟩ := r
  obtain ⟨n, rfl⟩ := Int.eq_ofNat_of_zero_le hpulse
  simp [requestOf, toText_natCast]

theorem isNumber_uint64 (n : UInt64) : IsNumber UINT64_MAX (toText n.toNat) := by
  have hlt : n.toNat < 2 ^ 64 := n.toNat_lt
  refine isNumber_toText_iff.2 ⟨by omega, ?_⟩
  have hle : n.toNat ≤ UINT64_MAX := by unfold UINT64_MAX; omega
  exact_mod_cast hle

theorem parseRequest_frame {r : Request} (hop : r.op ∈ operations) (hpulse : 0 ≤ r.pulse)
    (hint : r.pulse ≤ INT_MAX) :
    parseRequest r.frame = if r.consistent then some r else none := by
  have hreads : ∀ r', parseRequest r.frame = some r' ↔ r' = r ∧ r.consistent = true := by
    intro r'
    rw [parseRequest_eq_some_iff, words_frame hop]
    constructor
    · rintro ⟨s, q, p, hwords, -, -, -, -, hr, hconsistent⟩
      simp only [List.cons.injEq, and_true, true_and] at hwords
      obtain ⟨hop', rfl, rfl, rfl⟩ := hwords
      have heq : r' = r := by rw [hr, ← hop', requestOf_frame hpulse]
      exact ⟨heq, heq ▸ hconsistent⟩
    · rintro ⟨rfl, hconsistent⟩
      exact ⟨_, _, _, rfl, isNumber_uint64 _, isNumber_uint64 _,
        isNumber_toText_iff.2 ⟨hpulse, hint⟩, hop, (requestOf_frame hpulse).symm, hconsistent⟩
  split
  · rename_i hconsistent
    exact (hreads r).2 ⟨rfl, hconsistent⟩
  · rename_i hconsistent
    exact Option.eq_none_iff_forall_ne_some.2 fun r' h => hconsistent ((hreads r').1 h).2

/-! ## The frames that are refused -/

theorem not_sign_of_parse {frame : Text} {r : Request} (h : parseRequest frame = some r) {c : Char}
    (hc : c ∈ frame) : c ≠ '+' ∧ c ≠ '-' := by
  obtain ⟨s, q, p, hwords, ⟨-, hs, -⟩, ⟨-, hq, -⟩, ⟨-, hp, -⟩, hop, -, -⟩ :=
    parseRequest_eq_some_iff.1 h
  have hdigit : c.isDigit = true → c ≠ '+' ∧ c ≠ '-' := by
    intro hdigit
    constructor
    · rintro rfl
      exact absurd hdigit (by simp [isDigit_sign])
    · rintro rfl
      exact absurd hdigit (by simp [isDigit_sign])
  cases hspace : isspace c with
  | true =>
    constructor
    · rintro rfl
      exact absurd hspace (by decide)
    · rintro rfl
      exact absurd hspace (by decide)
  | false =>
    have hmem : c ∈ (words isspace frame).flatten := by
      rw [flatten_words]
      exact List.mem_filter.2 ⟨hc, by simp [hspace]⟩
    rw [hwords] at hmem
    obtain ⟨w, hw, hcw⟩ := List.mem_flatten.1 hmem
    simp only [List.mem_cons, List.not_mem_nil, or_false] at hw
    rcases hw with rfl | rfl | rfl | rfl | rfl
    · obtain rfl : c = '1' := by simpa using hcw
      decide
    · exact ((operations_words r.op hop).2 c hcw).2
    · exact hdigit (hs c hcw)
    · exact hdigit (hq c hcw)
    · exact hdigit (hp c hcw)

theorem length_words_of_parse {frame : Text} {r : Request} (h : parseRequest frame = some r) :
    (words isspace frame).length = 5 := by
  obtain ⟨s, q, p, hwords, -⟩ := parseRequest_eq_some_iff.1 h
  rw [hwords]
  rfl

theorem length_words_of_empty {fields : List Text}
    (hspace : ∀ w ∈ fields, ∀ c ∈ w, isspace c = false) (hempty : [] ∈ fields) :
    (words isspace (List.intercalate [' '] fields)).length < fields.length := by
  rw [words_intercalate rfl fields hspace]
  refine lt_of_le_of_ne (List.length_filter_le _ _) fun heq => ?_
  have hall := List.length_filter_eq_length_iff.1 heq
  exact absurd (hall [] hempty) (by simp)

/-- The frame of a request with a valid operation and a pulse that is not
negative is parsed as that request, if the session, the sequence and the pulse
are what the operation asks for, and is refused otherwise. A text is refused
that has a sign, or another number of fields than five, or an empty one, or a
number that is no decimal or too large, or an unknown operation, or fields that
are not what the operation asks for. -/
theorem parseRequest_client (r : Request) :
    (r.op ∈ operations → 0 ≤ r.pulse → r.pulse ≤ INT_MAX →
      parseRequest r.frame = if r.consistent then some r else none) ∧
    (∀ frame, '+' ∈ frame ∨ '-' ∈ frame → parseRequest frame = none) ∧
    (∀ frame, (words isspace frame).length ≠ 5 → parseRequest frame = none) ∧
    (∀ fields : List Text, fields.length = 5 → (∀ w ∈ fields, ∀ c ∈ w, isspace c = false) →
      [] ∈ fields → parseRequest (List.intercalate [' '] fields) = none) ∧
    ∀ frame version op s q p, words isspace frame = [version, op, s, q, p] →
      ¬ IsNumber UINT64_MAX s ∨ ¬ IsNumber UINT64_MAX q ∨ ¬ IsNumber INT_MAX p ∨
        op ∉ operations ∨ (requestOf op s q p).consistent = false →
      parseRequest frame = none := by
  have refused : ∀ frame, (∀ r', parseRequest frame = some r' → False) →
      parseRequest frame = none :=
    fun frame h => Option.eq_none_iff_forall_ne_some.2 h
  refine ⟨parseRequest_frame, ?_, ?_, ?_, ?_⟩
  · intro frame hsign
    refine refused frame fun r' h => ?_
    rcases hsign with hsign | hsign
    · exact (not_sign_of_parse h hsign).1 rfl
    · exact (not_sign_of_parse h hsign).2 rfl
  · intro frame hlength
    exact refused frame fun r' h => hlength (length_words_of_parse h)
  · intro fields hfive hspace hempty
    refine refused _ fun r' h => ?_
    have hshort := length_words_of_empty hspace hempty
    rw [length_words_of_parse h, hfive] at hshort
    exact lt_irrefl _ hshort
  · intro frame version op s q p hwords hbad
    refine refused frame fun r' h => ?_
    obtain ⟨s', q', p', hwords', hs, hq, hp, hop', hr, hconsistent⟩ :=
      parseRequest_eq_some_iff.1 h
    rw [hwords, List.cons.injEq, List.cons.injEq, List.cons.injEq, List.cons.injEq,
      List.cons.injEq] at hwords'
    obtain ⟨-, rfl, rfl, rfl, rfl, -⟩ := hwords'
    rw [hr] at hconsistent
    rcases hbad with hbad | hbad | hbad | hbad | hbad
    · exact hbad hs
    · exact hbad hq
    · exact hbad hp
    · exact hbad hop'
    · exact absurd (hconsistent.symm.trans hbad) (by simp)

/-- A command of the last session there is, with the last sequence number. -/
theorem parseRequest_client_command :
    parseRequest (Request.frame ⟨"COMMAND".toList, UINT64_MAX.toUInt64, UINT64_MAX.toUInt64, 2500⟩) =
      some ⟨"COMMAND".toList, UINT64_MAX.toUInt64, UINT64_MAX.toUInt64, 2500⟩ :=
  ((parseRequest_client ⟨"COMMAND".toList, UINT64_MAX.toUInt64, UINT64_MAX.toUInt64, 2500⟩).1
    (by decide) (by decide) (by decide)).trans (if_pos (by decide))

/-- A status request with a session is refused, though each field is a number
in its range. -/
theorem status_with_session_refused :
    "STATUS".toList ∈ operations ∧
      parseRequest (Request.frame ⟨"STATUS".toList, 5, 0, 0⟩) = none := by
  decide

/-! ## The daemon's requests -/

/-- The text of an operation that the daemon serves a robot. -/
def opText : RequestOp → Text
  | .arm => "ARM".toList
  | .complete => "COMPLETE".toList
  | .command => "COMMAND".toList
  | .shutdown => "SHUTDOWN".toList
  | .stop => "STOP".toList
  | .report => "REPORT".toList

theorem opText_mem (op : RequestOp) : opText op ∈ operations := by
  cases op <;> decide

/-- The request of the daemon, with the text of its operation. -/
def ofDaemon (r : PwmGuard.Request) : Request where
  op := opText r.op
  session := r.session
  seq := r.seq
  pulse := r.pulse

theorem consistent_ofDaemon (r : PwmGuard.Request) :
    r.parses = (decide (0 ≤ r.pulse) && (ofDaemon r).consistent) := by
  obtain ⟨op, session, seq, pulse⟩ := r
  cases op with
  | command =>
    have hcommand : (Request.mk "COMMAND".toList session seq pulse).consistent =
        (session != 0 && seq != 0) := by simp [Request.consistent]
    exact congrArg (decide (0 ≤ pulse) && ·) hcommand.symm
  | _ => rfl

theorem parses_iff (r : PwmGuard.Request) :
    r.parses = true ∧ r.pulse ≤ INT_MAX ↔
      parseRequest (ofDaemon r).frame = some (ofDaemon r) := by
  have hop : (ofDaemon r).op ∈ operations := opText_mem r.op
  rw [consistent_ofDaemon, Bool.and_eq_true, decide_eq_true_eq]
  constructor
  · rintro ⟨⟨hpulse, hconsistent⟩, hint⟩
    rw [parseRequest_frame hop hpulse hint, if_pos hconsistent]
  · intro h
    obtain ⟨s, q, p, hwords, -, -, hp, -, -, hconsistent⟩ := parseRequest_eq_some_iff.1 h
    rw [words_frame hop] at hwords
    simp only [List.cons.injEq, and_true, true_and] at hwords
    obtain ⟨-, -, rfl⟩ := hwords
    obtain ⟨hpulse, hint⟩ := isNumber_toText_iff.1 hp
    exact ⟨⟨hpulse, hconsistent⟩, hint⟩

end Questix.PwmGuard.Protocol
