/-
Questix.UartJoyDriver.JoyLineTheorems — which lines the parser takes for a
frame of the joystick.

A token is at most two bytes long, so what `strtoul` makes of it can be listed:
the bytes of the grammar (`HexByte`) and five spellings that are none
(`SloppyByte`). The rest is about splitting: a line that reads as seven such
tokens is one of the grammar unless a token is sloppy or a comma ends it.
-/
import Questix.Lib.Lines
import Questix.UartJoyDriver.JoyLineParser

namespace Questix.UartJoyDriver

open Questix.Lib

/-! ## Tokens -/

/-- A byte in hexadecimal: one digit or two; a blank may stand before a single
one, as `strtoul` skips it. -/
inductive HexByte : List UInt8 → UInt8 → Prop
  | one {d : UInt8} {n : ℕ} (hd : hexDigit d = some n) : HexByte [d] (UInt8.ofNat n)
  | two {d e : UInt8} {m n : ℕ} (hd : hexDigit d = some m) (he : hexDigit e = some n) :
      HexByte [d, e] (UInt8.ofNat (16 * m + n))
  | blank {b d : UInt8} {n : ℕ} (hb : isspace b = true) (hd : hexDigit d = some n) :
      HexByte [b, d] (UInt8.ofNat n)

/-- What else passes for a byte: NUL ends the C string early, and `strtoul`
takes a sign. -/
inductive SloppyByte : List UInt8 → UInt8 → Prop
  | nul : SloppyByte [0] 0
  | nulFirst (x : UInt8) : SloppyByte [0, x] 0
  | nulLast {d : UInt8} {n : ℕ} (hd : hexDigit d = some n) : SloppyByte [d, 0] (UInt8.ofNat n)
  | plus {d : UInt8} {n : ℕ} (hd : hexDigit d = some n) :
      SloppyByte [ascii '+', d] (UInt8.ofNat n)
  | minusZero : SloppyByte [ascii '-', ascii '0'] 0

section Tokens

variable {a b d v w : UInt8} {m n : ℕ} {t : List UInt8}

/-- What a digit is not. -/
structure Plain (d : UInt8) : Prop where
  nul : d ≠ 0
  blank : isspace d = false
  plus : d ≠ ascii '+'
  minus : d ≠ ascii '-'
  comma : d ≠ ascii ','
  colon : d ≠ ascii ':'

instance : Decidable (Plain d) := decidable_of_iff
  (d ≠ 0 ∧ isspace d = false ∧ d ≠ ascii '+' ∧ d ≠ ascii '-' ∧ d ≠ ascii ',' ∧ d ≠ ascii ':')
  ⟨fun ⟨h₁, h₂, h₃, h₄, h₅, h₆⟩ => ⟨h₁, h₂, h₃, h₄, h₅, h₆⟩,
    fun h => ⟨h.nul, h.blank, h.plus, h.minus, h.comma, h.colon⟩⟩

theorem plain_of_hexDigit (h : hexDigit d = some n) : Plain d ∧ n < 16 := by
  have hall : ∀ k : Fin 256, ∀ m ∈ hexDigit (UInt8.ofNat k), Plain (UInt8.ofNat k) ∧ m < 16 := by
    decide +kernel
  have hd := hall ⟨d.toNat, d.toNat_lt⟩ n
  simp only [UInt8.ofNat_toNat] at hd
  exact hd h

theorem eq_zero_of_hexDigit (h : hexDigit d = some 0) : d = ascii '0' := by
  have hall : ∀ k : Fin 256, hexDigit (UInt8.ofNat k) = some 0 → UInt8.ofNat k = ascii '0' := by
    decide +kernel
  have hd := hall ⟨d.toNat, d.toNat_lt⟩
  simp only [UInt8.ofNat_toNat] at hd
  exact hd h

theorem ne_zero_of_isspace (h : isspace b = true) : b ≠ 0 := by
  rintro rfl
  cases h

theorem hexDigit_of_isspace (h : isspace b = true) : hexDigit b = none := by
  by_contra hne
  obtain ⟨n, hn⟩ := Option.ne_none_iff_exists'.1 hne
  rw [(plain_of_hexDigit hn).1.blank] at h
  cases h

theorem mem_of_mem_takeSign (h : b ∈ (takeSign t).2) : b ∈ t := by
  cases t with
  | nil => simp [takeSign] at h
  | cons a t =>
    rw [takeSign] at h
    split_ifs at h
    · exact List.mem_cons_of_mem a h
    · exact List.mem_cons_of_mem a h
    · exact h

theorem mem_of_mem_dropHexMark (h : b ∈ dropHexMark t) : b ∈ t := by
  unfold dropHexMark at h
  split at h
  · split at h
    · exact List.mem_cons_of_mem _ (List.mem_cons_of_mem _ h)
    · exact h
  · exact h

theorem strtoul16_of_no_digit (h : ∀ b ∈ t, hexDigit b = none) : strtoul16 t = (0, t) := by
  have hdigits : (dropHexMark (takeSign (t.dropWhile isspace)).2).takeWhile isxdigit = [] := by
    cases hbody : dropHexMark (takeSign (t.dropWhile isspace)).2 with
    | nil => rfl
    | cons x xs =>
      have hmem : x ∈ t.dropWhile isspace := by
        apply mem_of_mem_takeSign
        apply mem_of_mem_dropHexMark
        rw [hbody]
        exact List.mem_cons_self
      have hx := h x ((List.dropWhile_suffix _).mem hmem)
      exact List.takeWhile_cons_of_neg (by simp [isxdigit, hx])
  rw [strtoul16, if_pos hdigits]

theorem parseHexByte_nul (h : t = [0] ∨ t = [0, b]) : parseHexByte t = some 0 := by
  rcases h with rfl | rfl <;> simp [parseHexByte, cStr, strtoul16, takeSign, dropHexMark]

theorem parseHexByte_of_no_digit (ha : a ≠ 0) (hno : ∀ x ∈ a :: t, hexDigit x = none) :
    parseHexByte (a :: t) = none := by
  have hc : cStr (a :: t) = a :: cStr t := by simp [cStr, ha]
  have hconv : strtoul16 (cStr (a :: t)) = (0, cStr (a :: t)) := by
    refine strtoul16_of_no_digit ?_
    intro x hx
    exact hno x (List.takeWhile_subset _ hx)
  rw [hc] at hconv
  simp [parseHexByte, hc, hconv]

theorem parseHexByte_one (hd : hexDigit a = some m) :
    parseHexByte [a] = some (UInt8.ofNat m) := by
  obtain ⟨hp, hm⟩ := plain_of_hexDigit hd
  have hbyte : ¬ 255 < m := by omega
  have hsmall : ¬ ULONG_MAX < m := by unfold ULONG_MAX; omega
  simp [parseHexByte, cStr, strtoul16, takeSign, dropHexMark, hp.nul, hp.blank, hp.plus, hp.minus,
    isxdigit, hd, hexValue, hbyte, hsmall]

theorem parseHexByte_digit (hd : hexDigit a = some m) :
    parseHexByte [a, b] =
      if b = 0 then some (UInt8.ofNat m)
      else (hexDigit b).map fun n => UInt8.ofNat (16 * m + n) := by
  obtain ⟨hp, hm⟩ := plain_of_hexDigit hd
  by_cases hb : b = 0
  · have hbyte : ¬ 255 < m := by omega
    have hsmall : ¬ ULONG_MAX < m := by unfold ULONG_MAX; omega
    simp [parseHexByte, cStr, strtoul16, takeSign, dropHexMark, hb, hp.nul, hp.blank, hp.plus,
      hp.minus, isxdigit, hd, hexValue, hsmall, hbyte]
  · cases he : hexDigit b with
    | none =>
      simp [parseHexByte, cStr, strtoul16, takeSign, dropHexMark, hb, hp.nul, hp.blank, hp.plus,
        hp.minus, isxdigit, hd, he]
    | some n =>
      have hn := (plain_of_hexDigit he).2
      have hbyte : ¬ 255 < 16 * m + n := by omega
      have hsmall : ¬ ULONG_MAX < 16 * m + n := by unfold ULONG_MAX; omega
      simp [parseHexByte, cStr, strtoul16, takeSign, dropHexMark, hb, hp.nul, hp.blank, hp.plus,
        hp.minus, isxdigit, hd, he, hexValue, hsmall, hbyte]

/-- A digit behind something else: `strtoul` skips a blank and takes a sign. -/
theorem parseHexByte_behind (ha : a ≠ 0) (hno : hexDigit a = none) (hd : hexDigit b = some n) :
    parseHexByte [a, b] =
      if isspace a = true ∨ a = ascii '+' then some (UInt8.ofNat n)
      else if a = ascii '-' ∧ n = 0 then some 0
      else none := by
  obtain ⟨hp, hn⟩ := plain_of_hexDigit hd
  have hbyte : ¬ 255 < n := by omega
  have hsmall : ¬ ULONG_MAX < n := by unfold ULONG_MAX; omega
  by_cases hs : isspace a = true
  · simp [parseHexByte, cStr, strtoul16, takeSign, dropHexMark, ha, hs, hp.nul, hp.blank, hp.plus,
      hp.minus, isxdigit, hd, hexValue, hsmall, hbyte]
  by_cases hplus : a = ascii '+'
  · have hsign : ascii '+' ≠ ascii '-' := by decide
    subst hplus
    simp [parseHexByte, cStr, strtoul16, takeSign, dropHexMark, ha, hs, hsign, hp.nul, isxdigit,
      hd, hexValue, hsmall, hbyte]
  by_cases hminus : a = ascii '-'
  · -- a minus wraps around, far above a byte
    have hsign : ascii '-' ≠ ascii '+' := by decide
    subst hminus
    by_cases h0 : n = 0
    · subst h0
      simp [parseHexByte, cStr, strtoul16, takeSign, dropHexMark, ha, hs, hsign, hp.nul, isxdigit,
        hd, hexValue, ULONG_MAX]
    · have hwrap : 255 < (ULONG_MAX + 1 - n) % (ULONG_MAX + 1) := by unfold ULONG_MAX; omega
      simp [parseHexByte, cStr, strtoul16, takeSign, dropHexMark, ha, hs, hsign, hp.nul, isxdigit,
        hd, hexValue, hsmall, hwrap, h0]
  · simp [parseHexByte, cStr, strtoul16, takeSign, dropHexMark, ha, hs, hplus, hminus, hp.nul,
      isxdigit, hno]

theorem parseHexByte_iff : parseHexByte t = some v ↔ HexByte t v ∨ SloppyByte t v := by
  constructor
  · intro h
    match t with
    | [] => cases h
    | [a] =>
      by_cases ha : a = 0
      · subst ha
        rw [parseHexByte_nul (b := 0) (Or.inl rfl)] at h
        cases h
        exact Or.inr .nul
      cases hd : hexDigit a with
      | none => simp [parseHexByte_of_no_digit ha (t := []) (by simpa using hd)] at h
      | some m =>
        rw [parseHexByte_one hd] at h
        cases h
        exact Or.inl (.one hd)
    | [a, b] =>
      by_cases ha : a = 0
      · subst ha
        rw [parseHexByte_nul (b := b) (Or.inr rfl)] at h
        cases h
        exact Or.inr (.nulFirst b)
      cases hd : hexDigit a with
      | some m =>
        rw [parseHexByte_digit hd] at h
        split_ifs at h with hb
        · cases h
          exact Or.inr (hb ▸ .nulLast hd)
        · obtain ⟨n, he, rfl⟩ := Option.map_eq_some_iff.1 h
          exact Or.inl (.two hd he)
      | none =>
        cases he : hexDigit b with
        | none => simp [parseHexByte_of_no_digit ha (t := [b]) (by simp [hd, he])] at h
        | some n =>
          rw [parseHexByte_behind ha hd he] at h
          split_ifs at h with hskip hminus
          · cases h
            rcases hskip with hs | rfl
            · exact Or.inl (.blank hs he)
            · exact Or.inr (.plus he)
          · obtain ⟨rfl, rfl⟩ := hminus
            cases h
            exact Or.inr (eq_zero_of_hexDigit he ▸ .minusZero)
    | a :: b :: c :: t => simp [parseHexByte] at h
  · rintro (h | h)
    · cases h with
      | one hd => exact parseHexByte_one hd
      | two hd he =>
        rw [parseHexByte_digit hd, if_neg (plain_of_hexDigit he).1.nul, he]
        rfl
      | blank hb hd =>
        rw [parseHexByte_behind (ne_zero_of_isspace hb) (hexDigit_of_isspace hb) hd,
          if_pos (Or.inl hb)]
    · cases h with
      | nul => exact parseHexByte_nul (b := 0) (Or.inl rfl)
      | nulFirst b => exact parseHexByte_nul (Or.inr rfl)
      | nulLast hd => rw [parseHexByte_digit hd, if_pos rfl]
      | plus hd => rw [parseHexByte_behind (by decide) (by decide) hd, if_pos (Or.inr rfl)]
      | minusZero => decide

theorem HexByte.ne_nil (h : HexByte t v) : t ≠ [] := by
  cases h <;> simp

theorem HexByte.plain (h : HexByte t v) (hb : b ∈ t) : b ≠ ascii ',' ∧ b ≠ ascii ':' := by
  have hdigit : ∀ {d n}, hexDigit d = some n → d ≠ ascii ',' ∧ d ≠ ascii ':' :=
    fun hd => ⟨(plain_of_hexDigit hd).1.comma, (plain_of_hexDigit hd).1.colon⟩
  cases h with
  | one hd =>
    rw [List.mem_singleton] at hb
    exact hb ▸ hdigit hd
  | two hd he =>
    rcases List.mem_pair.1 hb with rfl | rfl
    · exact hdigit hd
    · exact hdigit he
  | blank hs hd =>
    rcases List.mem_pair.1 hb with rfl | rfl
    · constructor <;> rintro rfl <;> cases hs
    · exact hdigit hd

theorem HexByte.not_sloppy (h : HexByte t v) : ¬ SloppyByte t w := by
  intro hs
  cases h with
  | one hd =>
    cases hs with
    | nul => cases hd
  | two hd he =>
    cases hs with
    | nulFirst => cases hd
    | nulLast => cases he
    | plus => cases hd
    | minusZero => cases hd
  | blank hb hd =>
    cases hs with
    | nulFirst => cases hb
    | nulLast => cases hd
    | plus => cases hb
    | minusZero => cases hb

end Tokens

/-! ## Lines -/

/-- Seven tokens, or the function id and seven tokens. -/
inductive Frame (F : List UInt8 → UInt8 → Prop) : List (List UInt8) → List UInt8 → Prop
  | plain {tokens : List (List UInt8)} {bytes : List UInt8} (seven : bytes.length = 7)
      (tokens_read : List.Forall₂ F tokens bytes) : Frame F tokens bytes
  | led {id : List UInt8} {tokens : List (List UInt8)} {bytes : List UInt8}
      (seven : bytes.length = 7) (id_read : F id kExpectedFunctionId)
      (tokens_read : List.Forall₂ F tokens bytes) : Frame F (id :: tokens) bytes

/-- The grammar: a frame of hexadecimal bytes, perhaps behind `key:`. -/
def ControllerLine (line bytes : List UInt8) : Prop :=
  ∃ tokens payload, Frame HexByte tokens bytes ∧ payload = [ascii ','].intercalate tokens ∧
    (line = payload ∨ ∃ key, ascii ':' ∉ key ∧ line = key ++ ascii ':' :: payload)

/-- The sticks point left and up for small bytes; the D-pad is one byte, the
buttons the bits of two. -/
def joyOf (bytes : List UInt8) (deadzone : Dbl) (joyMsg : Joy) : Joy :=
  let byte (i : ℕ) := bytes.getD i 0
  let stick (i : ℕ) := normalizeAxis (byte i) true deadzone
  { joyMsg with
    axes := [stick 3, stick 4, 0, stick 5, stick 6, 0,
      (dpadDirection (byte 2)).1, (dpadDirection (byte 2)).2]
    buttons := [0x01, 0x02, 0x04, 0x08, 0x10, 0x20, 0x40, 0x80].map (buttonOf (byte 0))
      ++ [0x01, 0x02, 0x04, 0x08, 0x10, 0x20].map (buttonOf (byte 1)) ++ [0, 0] }

/-- The line is one of the grammar whenever it is accepted, and the other way
round, and then gives the message of its bytes. -/
def MeetsGrammar (line : List UInt8) : Prop :=
  ∀ deadzone joyMsg joy, parseControllerLine line deadzone joyMsg = some joy ↔
    ∃ bytes, ControllerLine line bytes ∧ joy = joyOf bytes deadzone joyMsg

/-- What the parser makes of a token: a byte of the grammar or a sloppy one. -/
def LooseByte (t : List UInt8) (v : UInt8) : Prop := HexByte t v ∨ SloppyByte t v

/-- The tokens of a line as the parser sees them. -/
def lineTokens (line : List UInt8) : List (List UInt8) :=
  splitString (payloadOf line) (ascii ',')

/-- A frame, but a token is sloppy or a comma stands at the end. -/
def SloppyLine (line : List UInt8) : Prop :=
  (∃ bytes, Frame LooseByte (lineTokens line) bytes) ∧
    ((payloadOf line).getLast? = some (ascii ',') ∨
      ∃ token ∈ lineTokens line, ∃ v, SloppyByte token v)

section Lines

variable {line bytes payload key : List UInt8} {tokens payloadTokens : List (List UInt8)} {deadzone : Dbl}
  {joyMsg joy : Joy} {F G : List UInt8 → UInt8 → Prop}

theorem fillJoy_eq (b₀ b₁ b₂ b₃ b₄ b₅ b₆ : UInt8) :
    fillJoy b₀ b₁ b₂ b₃ b₄ b₅ b₆ deadzone joyMsg
      = joyOf [b₀, b₁, b₂, b₃, b₄, b₅, b₆] deadzone joyMsg := rfl

theorem forall₂_cons_parse {token : List UInt8} {P : List UInt8 → Prop} :
    (∃ bytes, List.Forall₂ LooseByte (token :: tokens) bytes ∧ P bytes) ↔
      ∃ v, parseHexByte token = some v ∧
        ∃ bytes, List.Forall₂ LooseByte tokens bytes ∧ P (v :: bytes) := by
  simp only [List.forall₂_cons_left_iff, parseHexByte_iff, LooseByte]
  constructor
  · rintro ⟨_, ⟨v, bytes, hv, hrest, rfl⟩, hP⟩
    exact ⟨v, hv, bytes, hrest, hP⟩
  · rintro ⟨v, hv, bytes, hrest, hP⟩
    exact ⟨_, ⟨v, bytes, hv, hrest, rfl⟩, hP⟩

theorem dataTokens_eq_some :
    dataTokens tokens = some payloadTokens ↔ payloadTokens.length = 7 ∧
      (tokens = payloadTokens ∨
        ∃ id, LooseByte id kExpectedFunctionId ∧ tokens = id :: payloadTokens) := by
  simp only [LooseByte, ← parseHexByte_iff]
  unfold dataTokens
  constructor
  · intro h
    split at h
    · rename_i height
      obtain ⟨id, rest, rfl⟩ := List.exists_cons_of_length_eq_add_one height
      obtain ⟨functionId, hid, hexpected⟩ := Option.bind_eq_some_iff.1 h
      split at hexpected
      · cases hexpected
      · rename_i heq
        cases hexpected
        refine ⟨by simpa using height, Or.inr ⟨id, ?_, rfl⟩⟩
        rw [← not_ne_iff.1 heq]
        exact hid
    · split at h
      · cases h
      · rename_i hseven
        cases h
        exact ⟨not_ne_iff.1 hseven, Or.inl rfl⟩
  · rintro ⟨hseven, rfl | ⟨id, hid, rfl⟩⟩
    · rw [if_neg (by omega), if_neg (by omega)]
    · rw [if_pos (by simp [hseven]), List.getD_cons_zero, hid]
      rfl

theorem sevenBytes_eq_some (hseven : tokens.length = 7) :
    (do
      let byte0 ← parseHexByte (tokens.getD 0 [])
      let byte1 ← parseHexByte (tokens.getD 1 [])
      let dpad ← parseHexByte (tokens.getD 2 [])
      let lx ← parseHexByte (tokens.getD 3 [])
      let ly ← parseHexByte (tokens.getD 4 [])
      let rx ← parseHexByte (tokens.getD 5 [])
      let ry ← parseHexByte (tokens.getD 6 [])
      some (fillJoy byte0 byte1 dpad lx ly rx ry deadzone joyMsg)) = some joy ↔
    ∃ bytes, List.Forall₂ LooseByte tokens bytes ∧ joy = joyOf bytes deadzone joyMsg := by
  match tokens, hseven with
  | [t₀, t₁, t₂, t₃, t₄, t₅, t₆], _ =>
    simp only [forall₂_cons_parse, List.forall₂_nil_left_iff, exists_eq_left, ← fillJoy_eq,
      eq_comm (a := joy), bind, Option.bind_eq_some_iff, Option.some.injEq, List.getD_cons_zero,
      List.getD_cons_succ]

theorem parseControllerLine_eq_some :
    parseControllerLine line deadzone joyMsg = some joy ↔
      ∃ bytes, Frame LooseByte (lineTokens line) bytes ∧ joy = joyOf bytes deadzone joyMsg := by
  have hbind : parseControllerLine line deadzone joyMsg = some joy ↔
      ∃ data, dataTokens (lineTokens line) = some data ∧
        ∃ bytes, List.Forall₂ LooseByte data bytes ∧ joy = joyOf bytes deadzone joyMsg := by
    unfold parseControllerLine
    refine Option.bind_eq_some_iff.trans (exists_congr fun data => and_congr_right ?_)
    intro hdata
    exact sevenBytes_eq_some (dataTokens_eq_some.1 hdata).1
  rw [hbind]
  constructor
  · rintro ⟨data, hdata, bytes, hread, hjoy⟩
    obtain ⟨hseven, htokens⟩ := dataTokens_eq_some.1 hdata
    have hbytes : bytes.length = 7 := hread.length_eq.symm.trans hseven
    refine ⟨bytes, ?_, hjoy⟩
    rcases htokens with h | ⟨id, hid, h⟩
    · exact h ▸ .plain hbytes hread
    · exact h ▸ .led hbytes hid hread
  · rintro ⟨bytes, hframe, hjoy⟩
    generalize htokens : lineTokens line = tokens at hframe
    cases hframe with
    | plain hbytes hread =>
      exact ⟨tokens, dataTokens_eq_some.2 ⟨hread.length_eq.trans hbytes, Or.inl rfl⟩, bytes, hread,
        hjoy⟩
    | led hbytes hid hread =>
      exact ⟨_, dataTokens_eq_some.2 ⟨hread.length_eq.trans hbytes, Or.inr ⟨_, hid, rfl⟩⟩, bytes,
        hread, hjoy⟩

/-! ### Splitting -/

theorem payloadOf_of_not_mem (h : ascii ':' ∉ line) : payloadOf line = line := if_neg h

theorem payloadOf_key (h : ascii ':' ∉ key) : payloadOf (key ++ ascii ':' :: payload) = payload := by
  have hkey : ∀ b ∈ key, decide (b ≠ ascii ':') = true :=
    fun b hb => decide_eq_true fun hcolon => h (hcolon ▸ hb)
  rw [payloadOf, if_pos (by simp), List.dropWhile_append_of_pos hkey,
    List.dropWhile_cons_of_neg (by simp)]
  rfl

theorem payloadOf_cases (line : List UInt8) : line = payloadOf line ∨
    ∃ key, ascii ':' ∉ key ∧ line = key ++ ascii ':' :: payloadOf line := by
  by_cases h : ascii ':' ∈ line
  · obtain ⟨key, payload, rfl, hkey⟩ := List.eq_append_cons_of_mem h
    exact Or.inr ⟨key, hkey, by rw [payloadOf_key hkey]⟩
  · exact Or.inl (payloadOf_of_not_mem h).symm

theorem splitString_eq_splitOn (hne : payload ≠ []) (hlast : payload.getLast? ≠ some (ascii ',')) :
    splitString payload (ascii ',') = payload.splitOn (ascii ',') := by
  have hunfinished : unfinished (ascii ',') payload ≠ [] := by
    rw [Ne, unfinished_eq_nil_iff]
    simp [hne, hlast]
  rw [splitString, if_neg]
  rw [splitOn_eq_append, List.getLast?_concat]
  simpa using hunfinished

theorem Frame.mono (hFG : ∀ t ∈ tokens, ∀ v, F t v → G t v) (h : Frame F tokens bytes) :
    Frame G tokens bytes := by
  have hread : ∀ {ts : List (List UInt8)} {bs : List UInt8}, (∀ t ∈ ts, ∀ v, F t v → G t v) →
      List.Forall₂ F ts bs → List.Forall₂ G ts bs := by
    intro ts bs hts hread
    induction hread with
    | nil => exact .nil
    | cons hv _ ih =>
      exact .cons (hts _ List.mem_cons_self _ hv) (ih fun t ht => hts t (List.mem_cons_of_mem _ ht))
  cases h with
  | plain hseven htokens => exact .plain hseven (hread hFG htokens)
  | led hseven hid htokens =>
    exact .led hseven (hFG _ List.mem_cons_self _ hid)
      (hread (fun t ht => hFG t (List.mem_cons_of_mem _ ht)) htokens)

theorem Frame.exists_of_mem (h : Frame F tokens bytes) {t : List UInt8} (ht : t ∈ tokens) :
    ∃ v, F t v := by
  have hread : ∀ {ts : List (List UInt8)} {bs : List UInt8}, List.Forall₂ F ts bs →
      t ∈ ts → ∃ v, F t v := by
    intro ts bs hread hts
    induction hread with
    | nil => cases hts
    | cons hv _ ih =>
      rcases List.mem_cons.1 hts with rfl | hts
      · exact ⟨_, hv⟩
      · exact ih hts
  cases h with
  | plain _ htokens => exact hread htokens ht
  | led _ hid htokens =>
    rcases List.mem_cons.1 ht with rfl | ht
    · exact ⟨_, hid⟩
    · exact hread htokens ht

theorem Frame.ne_nil (h : Frame F tokens bytes) : tokens ≠ [] := by
  rintro rfl
  cases h with
  | plain hseven htokens =>
    cases htokens
    cases hseven

/-- The grammar in terms of what the parser splits. -/
theorem controllerLine_iff : ControllerLine line bytes ↔
    Frame HexByte (lineTokens line) bytes ∧ (payloadOf line).getLast? ≠ some (ascii ',') := by
  constructor
  · rintro ⟨tokens, payload, hframe, hpayload, hline⟩
    have hplain : ∀ t ∈ tokens, t ≠ [] ∧ ∀ b ∈ t, b ≠ ascii ',' ∧ b ≠ ascii ':' := by
      intro t ht
      obtain ⟨v, hv⟩ := hframe.exists_of_mem ht
      exact ⟨hv.ne_nil, fun b hb => hv.plain hb⟩
    have hsplit : payload.splitOn (ascii ',') = tokens := by
      rw [hpayload]
      exact List.splitOn_intercalate (ascii ',') (fun t ht hb => ((hplain t ht).2 _ hb).1 rfl)
        hframe.ne_nil
    have hends : ¬ (payload = [] ∨ payload.getLast? = some (ascii ',')) := by
      rw [← unfinished_eq_nil_iff]
      exact (hplain _ (hsplit ▸ unfinished_mem_splitOn (ascii ',') payload)).1
    have hcolon : ascii ':' ∉ payload := by
      intro hmem
      rcases mem_intercalate (hpayload ▸ hmem) with h | ⟨t, ht, hb⟩
      · exact absurd h (by decide)
      · exact ((hplain t ht).2 _ hb).2 rfl
    have hkept : payloadOf line = payload := by
      rcases hline with rfl | ⟨key, hkey, rfl⟩
      · exact payloadOf_of_not_mem hcolon
      · exact payloadOf_key hkey
    rw [not_or] at hends
    rw [lineTokens, hkept, splitString_eq_splitOn hends.1 hends.2, hsplit]
    exact ⟨hframe, hends.2⟩
  · rintro ⟨hframe, hlast⟩
    have hne : payloadOf line ≠ [] := by
      intro h
      refine hframe.ne_nil ?_
      rw [lineTokens, h]
      rfl
    refine ⟨lineTokens line, payloadOf line, hframe, ?_, payloadOf_cases line⟩
    rw [lineTokens, splitString_eq_splitOn hne hlast, List.intercalate_splitOn]

theorem Frame.hexByte (h : Frame LooseByte tokens bytes)
    (hno : ∀ t ∈ tokens, ∀ v, ¬ SloppyByte t v) : Frame HexByte tokens bytes :=
  h.mono fun t ht v hv => hv.resolve_right (hno t ht v)

theorem Frame.loose (h : Frame HexByte tokens bytes) : Frame LooseByte tokens bytes :=
  h.mono fun _ _ _ hv => Or.inl hv

theorem not_sloppyLine (h : ControllerLine line bytes) : ¬ SloppyLine line := by
  obtain ⟨hframe, hlast⟩ := controllerLine_iff.1 h
  rintro ⟨-, hcomma | ⟨t, ht, v, hv⟩⟩
  · exact hlast hcomma
  · obtain ⟨w, hw⟩ := hframe.exists_of_mem ht
    exact hw.not_sloppy hv

theorem SloppyLine.not_meetsGrammar (h : SloppyLine line) : ¬ MeetsGrammar line := by
  intro hmeets
  obtain ⟨bytes, hframe⟩ := h.1
  have haccepted : parseControllerLine line 0 {} = some (joyOf bytes 0 {}) :=
    parseControllerLine_eq_some.2 ⟨bytes, hframe, rfl⟩
  obtain ⟨bytes', hline, -⟩ := (hmeets 0 {} _).1 haccepted
  exact not_sloppyLine hline h

theorem meetsGrammar_of_not_sloppy (h : ¬ SloppyLine line) : MeetsGrammar line := by
  intro deadzone joyMsg joy
  rw [parseControllerLine_eq_some]
  constructor
  · rintro ⟨bytes, hframe, hjoy⟩
    have hlast : (payloadOf line).getLast? ≠ some (ascii ',') :=
      fun hcomma => h ⟨⟨bytes, hframe⟩, Or.inl hcomma⟩
    have hno : ∀ t ∈ lineTokens line, ∀ v, ¬ SloppyByte t v :=
      fun t ht v hv => h ⟨⟨bytes, hframe⟩, Or.inr ⟨t, ht, v, hv⟩⟩
    exact ⟨bytes, controllerLine_iff.2 ⟨hframe.hexByte hno, hlast⟩, hjoy⟩
  · rintro ⟨bytes, hline, hjoy⟩
    exact ⟨bytes, (controllerLine_iff.1 hline).1.loose, hjoy⟩

/-- **The parser takes exactly the lines of the grammar, sloppy ones apart:**
a comma at the end, a token cut short by NUL, a plus sign, `-0`. -/
theorem parseControllerLine_exact_iff (line : List UInt8) :
    MeetsGrammar line ↔ ¬ SloppyLine line :=
  ⟨fun hmeets hsloppy => hsloppy.not_meetsGrammar hmeets, meetsGrammar_of_not_sloppy⟩

/-- `00,00,00,`, a NUL byte, `,80,80,80`: NUL passes for the byte 0, and the
left stick is pushed home. -/
theorem nul_is_no_byte :
    ¬ ∀ line : List UInt8, MeetsGrammar line := by
  intro h
  let line := "00,00,00,".toList.map ascii ++ 0 :: ",80,80,80".toList.map ascii
  have hread : List.Forall₂ LooseByte (lineTokens line) [0, 0, 0, 0, 0x80, 0x80, 0x80] := by
    unfold LooseByte
    simp only [← parseHexByte_iff]
    decide
  have hnul : [0] ∈ lineTokens line := by decide
  exact SloppyLine.not_meetsGrammar ⟨⟨_, .plain rfl hread⟩, Or.inr ⟨[0], hnul, 0, .nul⟩⟩ (h line)

end Lines

end Questix.UartJoyDriver
