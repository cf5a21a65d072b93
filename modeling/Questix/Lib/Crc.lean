/-
Questix.Lib.Crc — a reflected cyclic redundancy check and the bursts it notices.

The remainder takes one bit at a time, the lowest bit of each byte first. A step
is a bijection of the remainders when the top bit of the polynomial is set
(`shift_injective`), and as many bits as the remainder is wide can be read back
from it (`run_bits`): so two messages that differ only inside such a window leave
different remainders (`run_ne_of_burst`), whatever is before and behind it.
-/
import Mathlib.Data.List.Basic
import Mathlib.Algebra.Order.Group.Nat
import Mathlib.Tactic.Common

namespace Questix.Lib.Crc

variable {w : ℕ} (poly : BitVec w)

/-- One place down; the bit that falls out brings the polynomial in. -/
def shift (c : BitVec w) : BitVec w :=
  if c.getLsbD 0 then (c >>> 1) ^^^ poly else c >>> 1

def shifts : ℕ → BitVec w → BitVec w
  | 0, c => c
  | n + 1, c => shifts n (shift poly c)

def lowBit (b : Bool) : BitVec w := (BitVec.ofBool b).setWidth w

def feed (c : BitVec w) (b : Bool) : BitVec w := shift poly (c ^^^ lowBit b)

def run (c : BitVec w) (bs : List Bool) : BitVec w := bs.foldl (feed poly) c

/-- The lowest `n` bits, the lowest first. -/
def bits (n : ℕ) (d : BitVec w) : List Bool := (List.range n).map d.getLsbD

/-- Two messages of one length differ, and only within `n` bits that follow each other. -/
structure Burst (n : ℕ) (bs bs' : List Bool) : Prop where
  length : bs'.length = bs.length
  ne : bs' ≠ bs
  within : ∃ i, ∀ k, bs'[k]? ≠ bs[k]? → i ≤ k ∧ k < i + n

/-! ## One step -/

theorem and_one_ne_zero (hw : 0 < w) (c : BitVec w) : c &&& 1#w ≠ 0#w ↔ c.getLsbD 0 = true := by
  rw [BitVec.and_one_eq_setWidth_ofBool_getLsbD]
  cases c.getLsbD 0 with
  | false => simp
  | true =>
    refine iff_of_true (fun h => ?_) rfl
    have hbit := congrArg (BitVec.getLsbD · 0) h
    simp [hw] at hbit

theorem shift_eq_mask (hw : 0 < w) (c : BitVec w) :
    shift poly c = if c &&& 1#w ≠ 0#w then (c >>> 1) ^^^ poly else c >>> 1 :=
  if_congr (and_one_ne_zero hw c).symm rfl rfl

theorem shift_xor (a b : BitVec w) : shift poly (a ^^^ b) = shift poly a ^^^ shift poly b := by
  unfold shift
  rw [BitVec.getLsbD_xor, BitVec.ushiftRight_xor_distrib]
  cases a.getLsbD 0 <;> cases b.getLsbD 0
  · rfl
  · exact BitVec.xor_assoc ..
  · show (a >>> 1 ^^^ b >>> 1) ^^^ poly = (a >>> 1 ^^^ poly) ^^^ b >>> 1
    rw [BitVec.xor_assoc, BitVec.xor_assoc, BitVec.xor_comm poly]
  · show a >>> 1 ^^^ b >>> 1 = (a >>> 1 ^^^ poly) ^^^ (b >>> 1 ^^^ poly)
    rw [BitVec.xor_comm (b >>> 1) poly, BitVec.xor_assoc, ← BitVec.xor_assoc poly poly,
      BitVec.xor_self, BitVec.zero_xor]

theorem shifts_xor (n : ℕ) (a b : BitVec w) :
    shifts poly n (a ^^^ b) = shifts poly n a ^^^ shifts poly n b := by
  induction n generalizing a b with
  | zero => rfl
  | succ n ih =>
    unfold shifts
    rw [shift_xor, ih]

theorem shift_eq_zero (htop : poly.getLsbD (w - 1) = true) {c : BitVec w}
    (h : shift poly c = 0) : c = 0 := by
  unfold shift at h
  split at h
  · -- the top bit of the polynomial would be left
    have hbit := congrArg (BitVec.getLsbD · (w - 1)) h
    have hfree : (c >>> 1).getLsbD (w - 1) = false := by
      rw [BitVec.getLsbD_ushiftRight]
      exact BitVec.getLsbD_of_ge c _ (by omega)
    rw [BitVec.getLsbD_xor, hfree, htop] at hbit
    simp at hbit
  · rename_i hlow
    refine BitVec.eq_of_getLsbD_eq fun i _ => ?_
    rw [show (0 : BitVec w).getLsbD i = false from BitVec.getLsbD_zero]
    cases i with
    | zero => exact Bool.not_eq_true _ ▸ hlow
    | succ i =>
      have hbit := congrArg (BitVec.getLsbD · i) h
      rw [BitVec.getLsbD_ushiftRight, Nat.add_comm] at hbit
      rw [hbit]
      exact BitVec.getLsbD_zero

theorem shift_injective (htop : poly.getLsbD (w - 1) = true) :
    Function.Injective (shift poly) := by
  intro a b h
  have hzero : shift poly (a ^^^ b) = 0 := by
    rw [shift_xor, h]
    exact BitVec.xor_self
  exact BitVec.xor_eq_zero_iff.1 (shift_eq_zero poly htop hzero)

theorem shifts_injective (htop : poly.getLsbD (w - 1) = true) (n : ℕ) :
    Function.Injective (shifts poly n) := by
  induction n with
  | zero => exact fun a b h => h
  | succ n ih => exact fun a b h => shift_injective poly htop (ih h)

/-! ## Messages -/

theorem run_append (c : BitVec w) (bs bs' : List Bool) :
    run poly c (bs ++ bs') = run poly (run poly c bs) bs' := List.foldl_append

theorem run_injective (htop : poly.getLsbD (w - 1) = true) (bs : List Bool) :
    Function.Injective fun c => run poly c bs := by
  induction bs with
  | nil => exact fun a b h => h
  | cons b bs ih =>
    intro c c' h
    have hfeed := shift_injective poly htop (ih h)
    exact (BitVec.xor_left_inj _).1 hfeed

theorem bits_succ (n : ℕ) (d : BitVec w) : bits (n + 1) d = d.getLsbD 0 :: bits n (d >>> 1) := by
  unfold bits
  rw [List.range_succ_eq_map, List.map_cons, List.map_map]
  congr 1
  refine List.map_congr_left fun i _ => ?_
  rw [BitVec.getLsbD_ushiftRight, Nat.add_comm]
  rfl

theorem shift_split (d : BitVec w) :
    shift poly d = shift poly (lowBit (d.getLsbD 0)) ^^^ d >>> 1 := by
  cases hd : d.getLsbD 0 with
  | false =>
    have hzero : (lowBit false : BitVec w) = 0 := by
      unfold lowBit
      simp
    unfold shift
    rw [hd, hzero]
    simp
  | true =>
    have hw : 0 < w := Nat.pos_of_ne_zero fun hw => by
      rw [BitVec.getLsbD_of_ge d 0 (by omega)] at hd
      cases hd
    have hone : (lowBit true : BitVec w).getLsbD 0 = true := by
      unfold lowBit
      simp [hw]
    have hout : (lowBit true : BitVec w) >>> 1 = 0 := by
      refine BitVec.eq_of_getLsbD_eq fun i _ => ?_
      unfold lowBit
      simp
    unfold shift
    rw [hd, hone, hout]
    show d >>> 1 ^^^ poly = (0 ^^^ poly) ^^^ d >>> 1
    rw [BitVec.xor_comm]
    congr 1
    exact BitVec.zero_xor.symm

theorem run_bits_xor (n : ℕ) (c d : BitVec w) :
    shifts poly n (c ^^^ d) = run poly c (bits n d) ^^^ d >>> n := by
  induction n generalizing c d with
  | zero =>
    rw [BitVec.ushiftRight_zero]
    rfl
  | succ n ih =>
    have hhead : shift poly (c ^^^ d) = feed poly c (d.getLsbD 0) ^^^ d >>> 1 := by
      unfold feed
      rw [shift_xor, shift_xor, shift_split poly d, BitVec.xor_assoc]
    rw [shifts, hhead, ih, bits_succ, ← BitVec.shiftRight_add, Nat.add_comm 1 n]
    rfl

theorem run_bits {n : ℕ} {d : BitVec w} (h : d >>> n = 0) (c : BitVec w) :
    run poly c (bits n d) = shifts poly n (c ^^^ d) := by
  rw [run_bits_xor, h]
  exact BitVec.xor_zero.symm

theorem getElem?_bits (n : ℕ) (d : BitVec w) (i : ℕ) :
    (bits n d)[i]? = if i < n then some (d.getLsbD i) else none := by
  unfold bits
  rw [List.getElem?_map]
  split
  · rename_i hi
    rw [List.getElem?_range hi]
    rfl
  · rename_i hi
    rw [List.getElem?_eq_none (by rw [List.length_range]; omega)]
    rfl

theorem exists_bits {bs : List Bool} (h : bs.length ≤ w) :
    ∃ d : BitVec w, bits bs.length d = bs ∧ d >>> bs.length = 0 := by
  refine ⟨(BitVec.ofBoolListLE bs).setWidth w, ?_, ?_⟩
  · refine List.ext_getElem? fun i => ?_
    rw [getElem?_bits]
    split
    · rename_i hi
      rw [BitVec.getLsbD_setWidth, BitVec.getLsbD_ofBoolListLE, List.getD_eq_getElem?_getD,
        List.getElem?_eq_getElem hi]
      simp [hi.trans_le h]
    · rename_i hi
      rw [List.getElem?_eq_none (not_lt.1 hi)]
  · refine BitVec.eq_of_getLsbD_eq fun i _ => ?_
    rw [BitVec.getLsbD_ushiftRight, BitVec.getLsbD_setWidth, BitVec.getLsbD_of_ge _ _ (by omega)]
    simp

theorem run_window_injective (htop : poly.getLsbD (w - 1) = true) {c : BitVec w}
    {bs bs' : List Bool} (hlen : bs'.length = bs.length) (hw : bs.length ≤ w)
    (h : run poly c bs' = run poly c bs) : bs' = bs := by
  obtain ⟨d, hbits, hfits⟩ := exists_bits hw
  obtain ⟨d', hbits', hfits'⟩ := exists_bits (hlen ▸ hw : bs'.length ≤ w)
  rw [← hbits, ← hbits', run_bits poly hfits, run_bits poly hfits', hlen] at h
  have hd : d' = d := (BitVec.xor_right_inj c).1 (shifts_injective poly htop _ h)
  rw [← hbits, ← hbits', hd, hlen]

/-! ## Bursts -/

/-- Two messages around a burst: they are the same before it and behind it. -/
theorem Burst.split {n : ℕ} {bs bs' : List Bool} (h : Burst n bs bs') (hn : n ≤ bs.length) :
    ∃ front mid mid' back, bs = front ++ (mid ++ back) ∧ bs' = front ++ (mid' ++ back) ∧
      mid.length = n ∧ mid'.length = n := by
  obtain ⟨i, hwithin⟩ := h.within
  -- the window is moved to where it is inside the message
  obtain ⟨j, hj, hij, hji⟩ : ∃ j, j + n ≤ bs.length ∧ j ≤ i ∧ (i ≤ j ∨ j + n = bs.length) := by
    refine ⟨min i (bs.length - n), by omega, min_le_left _ _, ?_⟩
    omega
  have hlen := h.length
  have hsame : ∀ k, k < j ∨ j + n ≤ k → bs'[k]? = bs[k]? := by
    intro k hk
    by_contra hne
    have hin := hwithin k hne
    rcases hji with hji | hji
    · omega
    · rw [List.getElem?_eq_none (by omega), List.getElem?_eq_none (by omega)] at hne
      exact hne rfl
  have hfront : bs'.take j = bs.take j := by
    refine List.ext_getElem? fun k => ?_
    rw [List.getElem?_take, List.getElem?_take]
    split
    · rename_i hk
      exact hsame k (.inl hk)
    · rfl
  have hback : bs'.drop (j + n) = bs.drop (j + n) := by
    refine List.ext_getElem? fun k => ?_
    rw [List.getElem?_drop, List.getElem?_drop]
    exact hsame _ (.inr (Nat.le_add_right _ _))
  refine ⟨bs.take j, (bs.drop j).take n, (bs'.drop j).take n, bs.drop (j + n), ?_, ?_, ?_, ?_⟩
  · rw [← List.drop_drop, List.take_append_drop, List.take_append_drop]
  · rw [← hfront, ← hback, ← List.drop_drop, List.take_append_drop, List.take_append_drop]
  · rw [List.length_take, List.length_drop]
    omega
  · rw [List.length_take, List.length_drop]
    omega

theorem burst_append {n : ℕ} (front back : List Bool) {mid mid' : List Bool}
    (hlen : mid'.length = mid.length) (hn : mid.length ≤ n) (hne : mid' ≠ mid) :
    Burst n (front ++ (mid ++ back)) (front ++ (mid' ++ back)) where
  length := by simp only [List.length_append, hlen]
  ne := fun h => hne (List.append_cancel_right (List.append_cancel_left h))
  within := by
    refine ⟨front.length, fun k hk => ?_⟩
    by_contra hout
    rcases lt_or_ge k front.length with hlt | hge
    · rw [List.getElem?_append_left hlt, List.getElem?_append_left hlt] at hk
      exact hk rfl
    · rw [List.getElem?_append_right hge, List.getElem?_append_right hge,
        List.getElem?_append_right (by omega), List.getElem?_append_right (by omega), hlen] at hk
      exact hk rfl

theorem run_ne_of_burst (htop : poly.getLsbD (w - 1) = true) {bs bs' : List Bool}
    (h : Burst w bs bs') (hw : w ≤ bs.length) (c : BitVec w) : run poly c bs' ≠ run poly c bs := by
  intro heq
  obtain ⟨front, mid, mid', back, hbs, hbs', hlen, hlen'⟩ := h.split hw
  rw [hbs, hbs', run_append, run_append, run_append, run_append] at heq
  have hmid := run_window_injective poly htop (hlen'.trans hlen.symm) hlen.le
    (run_injective poly htop back heq)
  exact h.ne (by rw [hbs, hbs', hmid])

/-! ## Code words -/

theorem run_append_bits_eq_zero (htop : poly.getLsbD (w - 1) = true) (c r : BitVec w)
    (bs : List Bool) : run poly c (bs ++ bits w r) = 0 ↔ r = run poly c bs := by
  have hzero : shifts poly w 0 = 0 := by
    have hself := shifts_xor poly w 0 0
    rw [BitVec.xor_self, BitVec.xor_self] at hself
    exact hself
  rw [run_append, run_bits poly (BitVec.ushiftRight_eq_zero (Nat.le_refl w))]
  constructor
  · intro h
    have hxor := shifts_injective poly htop w (h.trans hzero.symm)
    exact (BitVec.xor_eq_zero_iff.1 hxor).symm
  · rintro rfl
    rw [BitVec.xor_self]
    exact hzero

/-! ## Bytes -/

/-- The bits of a message of bytes, in the order in which they are fed. -/
def byteBits (data : List UInt8) : List Bool := data.flatMap fun byte => bits 8 byte.toBitVec

theorem length_byteBits (data : List UInt8) : (byteBits data).length = 8 * data.length := by
  unfold byteBits bits
  induction data with
  | nil => rfl
  | cons byte data ih =>
    rw [List.flatMap_cons, List.length_append, ih, List.length_map, List.length_range,
      List.length_cons]
    omega

theorem byteBits_append (data data' : List UInt8) :
    byteBits (data ++ data') = byteBits data ++ byteBits data' := List.flatMap_append

theorem byteBits_cons (byte : UInt8) (data : List UInt8) :
    byteBits (byte :: data) = bits 8 byte.toBitVec ++ byteBits data := List.flatMap_cons

theorem bits_add (m n : ℕ) (d : BitVec w) : bits (m + n) d = bits m d ++ bits n (d >>> m) := by
  unfold bits
  rw [List.range_add, List.map_append, List.map_map]
  congr 1
  refine List.map_congr_left fun i _ => ?_
  rw [BitVec.getLsbD_ushiftRight]
  rfl

theorem bits_setWidth {v n : ℕ} (h : n ≤ v) (d : BitVec w) : bits n (d.setWidth v) = bits n d := by
  unfold bits
  refine List.map_congr_left fun i hi => ?_
  have hv : i < v := (List.mem_range.1 hi).trans_le h
  rw [BitVec.getLsbD_setWidth, decide_eq_true hv, Bool.true_and]

theorem run_byte (hw : 8 ≤ w) (c : BitVec w) (byte : UInt8) :
    run poly c (bits 8 byte.toBitVec) = shifts poly 8 (c ^^^ byte.toBitVec.setWidth w) := by
  have hfits : byte.toBitVec.setWidth w >>> 8 = 0 := by
    refine BitVec.eq_of_getLsbD_eq fun i _ => ?_
    rw [BitVec.getLsbD_ushiftRight, BitVec.getLsbD_setWidth,
      BitVec.getLsbD_of_ge byte.toBitVec _ (Nat.le_add_right 8 i), Bool.and_false]
    exact BitVec.getLsbD_zero.symm
  rw [← run_bits poly hfits, bits_setWidth hw]

theorem foldl_bytes (hw : 8 ≤ w) (c : BitVec w) (data : List UInt8) :
    data.foldl (fun c byte => shifts poly 8 (c ^^^ byte.toBitVec.setWidth w)) c
      = run poly c (byteBits data) := by
  induction data generalizing c with
  | nil => rfl
  | cons byte data ih =>
    rw [List.foldl_cons, ih, byteBits_cons, run_append, run_byte poly hw]

end Questix.Lib.Crc
