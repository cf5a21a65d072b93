/-
Questix.MotorControl.CrcTheorems — what the checks of the two motor buses notice.

`crc8Maxim` and `calculateCrc16` are runs of one reflected remainder over the
bits of their bytes (`crc8Maxim_eq_run`, `calculateCrc16_eq_run`). A frame passes
when the run over all of it, its check bytes too, leaves nothing: the low byte of
the sixteen bits comes first, so that they are fed in the order of the remainder.
A burst that is no longer than the check leaves something, wherever it is.
-/
import Questix.Lib.Crc
import Questix.MotorControl.DdtProtocol
import Questix.MotorControl.FeetechServo

namespace Questix.MotorControl.CrcTheorems

open Questix.Lib.Crc

/-! ## `crc8Maxim` -/

section Ddt

open DdtProtocol

theorem crc8_crcBit (c : UInt8) : (crcBit c).toBitVec = shift 0x8C#8 c.toBitVec := by
  rw [shift_eq_mask _ (by decide), crcBit, apply_ite UInt8.toBitVec]
  exact if_congr (not_congr UInt8.toBitVec_inj.symm) rfl rfl

theorem crc8_crcBits (n : ℕ) (c : UInt8) :
    (crcBits n c).toBitVec = shifts 0x8C#8 n c.toBitVec := by
  induction n generalizing c with
  | zero => rfl
  | succ n ih => rw [crcBits, shifts, ih, crc8_crcBit]

theorem crc8Maxim_eq_run (data : List UInt8) :
    (crc8Maxim data).toBitVec = run 0x8C#8 0 (byteBits data) := by
  have hfold (c : UInt8) : (data.foldl (fun crc byte => crcBits 8 (crc ^^^ byte)) c).toBitVec
      = run 0x8C#8 c.toBitVec (byteBits data) := by
    rw [← foldl_bytes 0x8C#8 (le_refl 8)]
    induction data generalizing c with
    | nil => rfl
    | cons byte data ih =>
      rw [List.foldl_cons, ih, crc8_crcBits, List.foldl_cons, BitVec.setWidth_eq]
      rfl
  exact hfold 0

theorem crc8Maxim_eq_iff (data : List UInt8) (crc : UInt8) :
    crc8Maxim data = crc ↔ run 0x8C#8 0 (byteBits (data ++ [crc])) = 0 := by
  have hbits : byteBits [crc] = bits 8 crc.toBitVec := List.append_nil _
  rw [byteBits_append, hbits, run_append_bits_eq_zero 0x8C#8 rfl, ← crc8Maxim_eq_run,
    UInt8.toBitVec_inj, eq_comm]

theorem parseFeedbackFrame_eq (id : UInt8) {data : List UInt8} (h : data.length = 9) (crc : UInt8) :
    (data.head? ≠ some id → parseFeedbackFrame id (data ++ [crc]) = .kIdMismatch) ∧
      (data.head? = some id → crc8Maxim data ≠ crc →
        parseFeedbackFrame id (data ++ [crc]) = .kCrcMismatch) ∧
      (data.head? = some id → crc8Maxim data = crc →
        ∃ out, parseFeedbackFrame id (data ++ [crc]) = .kOk out) := by
  match data, h with
  | [b0, b1, b2, b3, b4, b5, b6, b7, b8], _ =>
    simp only [List.cons_append, List.nil_append, parseFeedbackFrame, List.head?_cons,
      Option.some.injEq]
    refine ⟨fun hid => if_pos fun h => hid (congrArg some h), fun hid hcrc => ?_,
      fun hid hcrc => ?_⟩
    · rw [if_neg (not_not.2 hid), if_pos hcrc]
    · rw [if_neg (not_not.2 hid), if_neg (not_not.2 hcrc)]
      exact ⟨_, rfl⟩

/-- A frame with its check byte is taken for what it is, and a frame that a burst of at
most eight bits has made of it is refused, whoever it is for. -/
theorem feedbackFrame_burst (payload : List UInt8) (hlen : payload.length = 9) :
    (∀ id, payload.head? = some id →
        ∃ out, parseFeedbackFrame id (payload ++ [crc8Maxim payload]) = .kOk out) ∧
      (∀ id, parseFeedbackFrame id (payload ++ [crc8Maxim payload]) ≠ .kCrcMismatch) ∧
      ∀ frame, Burst 8 (byteBits (payload ++ [crc8Maxim payload])) (byteBits frame) →
        ∀ id, parseFeedbackFrame id frame
          = if frame.head? = some id then .kCrcMismatch else .kIdMismatch := by
  refine ⟨fun id hid => (parseFeedbackFrame_eq id hlen _).2.2 hid rfl, fun id => ?_,
    fun frame hburst id => ?_⟩
  · by_cases hid : payload.head? = some id
    · obtain ⟨out, hout⟩ := (parseFeedbackFrame_eq id hlen _).2.2 hid rfl
      rw [hout]
      exact ParseResult.noConfusion
    · rw [(parseFeedbackFrame_eq id hlen _).1 hid]
      exact ParseResult.noConfusion
  · -- the frame has ten bytes, and the run over them leaves something
    have hten : frame.length = 10 := by
      have hbits := hburst.length
      rw [length_byteBits, length_byteBits, List.length_append, hlen] at hbits
      simp only [List.length_singleton] at hbits
      omega
    have hleft : run 0x8C#8 0 (byteBits frame) ≠ 0 := by
      have hlong : 8 ≤ (byteBits (payload ++ [crc8Maxim payload])).length := by
        rw [length_byteBits, List.length_append, hlen]
        omega
      have hnone := (crc8Maxim_eq_iff payload (crc8Maxim payload)).1 rfl
      exact fun h => run_ne_of_burst 0x8C#8 rfl hburst hlong 0 (h.trans hnone.symm)
    obtain ⟨data, crc, rfl⟩ : ∃ data crc, frame = data ++ [crc] :=
      ⟨frame.dropLast, frame.getLast (List.ne_nil_of_length_pos (by omega)),
        (List.dropLast_append_getLast _).symm⟩
    have hnine : data.length = 9 := by
      rw [List.length_append, List.length_singleton] at hten
      omega
    have hhead : (data ++ [crc]).head? = data.head? :=
      List.head?_append_of_ne_nil _ (List.ne_nil_of_length_pos (by omega))
    rw [hhead]
    split
    · rename_i hid
      exact (parseFeedbackFrame_eq id hnine crc).2.1 hid (mt (crc8Maxim_eq_iff data crc).1 hleft)
    · rename_i hid
      exact (parseFeedbackFrame_eq id hnine crc).1 hid

/-- Five bits that lie across the last byte of the payload and the check byte. -/
theorem feedbackFrame_burst_across :
    (∃ out, parseFeedbackFrame 0 [0, 0, 0, 0, 0, 0, 0, 0, 0, 0] = .kOk out) ∧
      parseFeedbackFrame 0 [0, 0, 0, 0, 0, 0, 0, 0, 0x10, 1] = .kCrcMismatch := by
  have hcrc : crc8Maxim [0, 0, 0, 0, 0, 0, 0, 0, 0] = 0 := by
    have hzero : crcBits 8 (0 ^^^ 0) = 0 := by decide
    simp only [crc8Maxim, List.foldl_cons, List.foldl_nil, hzero]
  obtain ⟨hown, -, hother⟩ := feedbackFrame_burst [0, 0, 0, 0, 0, 0, 0, 0, 0] rfl
  rw [hcrc] at hown hother
  have hburst : Burst 8 (byteBits [0, 0, 0, 0, 0, 0, 0, 0, 0, 0])
      (byteBits [0, 0, 0, 0, 0, 0, 0, 0, 0x10, 1]) :=
    @burst_append 8 (byteBits [0, 0, 0, 0, 0, 0, 0, 0] ++ List.replicate 4 false)
      (List.replicate 7 false) (List.replicate 5 false) [true, false, false, false, true]
      rfl (by decide) (by decide)
  exact ⟨hown 0 rfl, hother _ hburst 0⟩

end Ddt

/-! ## `calculateCrc16` -/

section Feetech

open FeetechServo

theorem crc16_crcBit (c : UInt16) : (crcBit c).toBitVec = shift 0xA001#16 c.toBitVec := by
  rw [shift_eq_mask _ (by decide), crcBit, apply_ite UInt16.toBitVec]
  exact if_congr (not_congr UInt16.toBitVec_inj.symm) rfl rfl

theorem crc16_crcBits (n : ℕ) (c : UInt16) :
    (crcBits n c).toBitVec = shifts 0xA001#16 n c.toBitVec := by
  induction n generalizing c with
  | zero => rfl
  | succ n ih => rw [crcBits, shifts, ih, crc16_crcBit]

theorem calculateCrc16_eq_run (data : List UInt8) :
    (calculateCrc16 data).toBitVec = run 0xA001#16 0xFFFF#16 (byteBits data) := by
  have hfold (c : UInt16) :
      (data.foldl (fun crc byte => crcBits 8 (crc ^^^ byte.toUInt16)) c).toBitVec
        = run 0xA001#16 c.toBitVec (byteBits data) := by
    rw [← foldl_bytes 0xA001#16 (by decide)]
    induction data generalizing c with
    | nil => rfl
    | cons byte data ih =>
      rw [List.foldl_cons, ih, crc16_crcBits, List.foldl_cons]
      rfl
  exact hfold 0xFFFF

theorem bits_word (high low : UInt8) :
    byteBits [low, high] = bits 16 (word high low).toBitVec := by
  have hlow : (word high low).toBitVec.setWidth 8 = low.toBitVec := by
    unfold word
    refine BitVec.eq_of_getLsbD_eq fun i hi => ?_
    simp [hi]
  have hhigh : ((word high low).toBitVec >>> 8).setWidth 8 = high.toBitVec := by
    unfold word
    refine BitVec.eq_of_getLsbD_eq fun i hi => ?_
    have hhi : 8 + i < 16 := by omega
    have hlt : i < 16 := by omega
    simp [hi, hhi, hlt]
  calc byteBits [low, high]
      = bits 8 low.toBitVec ++ (bits 8 high.toBitVec ++ []) := rfl
    _ = bits 8 (word high low).toBitVec ++ bits 8 ((word high low).toBitVec >>> 8) := by
      rw [List.append_nil, ← hlow, ← hhigh, bits_setWidth (le_refl 8), bits_setWidth (le_refl 8)]
    _ = bits 16 (word high low).toBitVec := (bits_add 8 8 _).symm

theorem verifyChecksum_append (front : List UInt8) (low high : UInt8) :
    verifyChecksum (front ++ [low, high]) = true
      ↔ front ≠ [] ∧ word high low = calculateCrc16 front := by
  have hlen : (front ++ [low, high]).length = front.length + 2 := List.length_append
  have hpos : 0 < front.length ↔ front ≠ [] := List.length_pos_iff
  unfold verifyChecksum
  rw [hlen, ← hpos]
  split
  · exact iff_of_false Bool.false_ne_true fun h => by omega
  · have hhigh : (front ++ [low, high]).getD (front.length + 1) 0 = high := by
      simp [List.getD_eq_getElem?_getD]
    have hlow : (front ++ [low, high]).getD front.length 0 = low := by
      simp [List.getD_eq_getElem?_getD]
    simp only [Nat.add_sub_cancel, Nat.add_succ_sub_one, hhigh, hlow, List.take_left,
      decide_eq_true_eq]
    exact iff_and_self.2 fun _ => by omega

theorem verifyChecksum_iff (data : List UInt8) :
    verifyChecksum data = true ↔ 3 ≤ data.length ∧ run 0xA001#16 0xFFFF#16 (byteBits data) = 0 := by
  by_cases hshort : data.length < 3
  · unfold verifyChecksum
    rw [if_pos hshort]
    exact iff_of_false Bool.false_ne_true fun h => by omega
  · obtain ⟨front, low, high, rfl⟩ : ∃ front low high, data = front ++ [low, high] := by
      obtain ⟨init, high, rfl⟩ := List.eq_nil_or_concat data |>.resolve_left fun h => by
        subst h; exact hshort (by decide)
      obtain ⟨front, low, rfl⟩ := List.eq_nil_or_concat init |>.resolve_left fun h => by
        subst h; exact hshort (by simp)
      exact ⟨front, low, high, by simp⟩
    have hlen : (front ++ [low, high]).length = front.length + 2 := List.length_append
    have hpos : front ≠ [] ↔ 3 ≤ (front ++ [low, high]).length := by
      rw [hlen, ← List.length_pos_iff]
      omega
    rw [verifyChecksum_append, hpos, byteBits_append, bits_word,
      run_append_bits_eq_zero 0xA001#16 rfl, ← calculateCrc16_eq_run, UInt16.toBitVec_inj]

theorem word_bytes (v : UInt16) : word (highByte v) (lowByte v) = v := by
  have hlow : (lowByte v).toBitVec = v.toBitVec.setWidth 8 := rfl
  have hhigh : (highByte v).toBitVec = (v.toBitVec >>> 8).setWidth 8 := rfl
  have hword : (word (highByte v) (lowByte v)).toBitVec
      = (highByte v).toBitVec.setWidth 16 <<< 8 ||| (lowByte v).toBitVec.setWidth 16 := rfl
  rw [← UInt16.toBitVec_inj, hword, hlow, hhigh]
  refine BitVec.eq_of_getLsbD_eq fun i hi => ?_
  simp only [BitVec.getLsbD_or, BitVec.getLsbD_shiftLeft, BitVec.getLsbD_setWidth,
    BitVec.getLsbD_ushiftRight]
  by_cases hi8 : i < 8
  · simp [hi8, hi]
  · have hsub : 8 + (i - 8) = i := by omega
    have h8 : i - 8 < 8 := by omega
    have h16 : i - 8 < 16 := by omega
    simp [hi8, hi, hsub, h8, h16]

/-- A request that is made passes, and a frame that a burst of at most sixteen bits has made of
one that passes does not. -/
theorem modbusFrame_burst :
    (∀ slaveId functionCode address value,
      verifyChecksum (createModbusCommand slaveId functionCode address value) = true) ∧
    ∀ frame, verifyChecksum frame = true → ∀ frame', Burst 16 (byteBits frame) (byteBits frame') →
      verifyChecksum frame' = false := by
  constructor
  · intro slaveId functionCode address value
    unfold createModbusCommand
    rw [verifyChecksum_append]
    exact ⟨List.cons_ne_nil _ _, word_bytes _⟩
  · intro frame hpass frame' hburst
    obtain ⟨hlen, hnone⟩ := (verifyChecksum_iff frame).1 hpass
    have hlong : 16 ≤ (byteBits frame).length := by
      rw [length_byteBits]
      omega
    refine Bool.eq_false_iff.2 fun hpass' => ?_
    have hnone' := ((verifyChecksum_iff frame').1 hpass').2
    exact run_ne_of_burst 0xA001#16 rfl hburst hlong _ (hnone'.trans hnone.symm)

/-- Nine bits that lie across the two bytes of the value. -/
theorem modbusFrame_burst_value :
    verifyChecksum (createModbusCommand 1 6 128 2048) = true ∧
      verifyChecksum ([1, 6, 0, 0x80, 0x0B, 1] ++ (createModbusCommand 1 6 128 2048).drop 6)
        = false := by
  have hown := modbusFrame_burst.1 1 6 128 2048
  refine ⟨hown, modbusFrame_burst.2 _ hown _ ?_⟩
  have hburst := @burst_append 16 (byteBits [1, 6, 0, 0x80])
    (byteBits ((createModbusCommand 1 6 128 2048).drop 6)) (byteBits [8, 0]) (byteBits [0x0B, 1])
    rfl (by decide) (by decide)
  rw [← byteBits_append, ← byteBits_append, ← byteBits_append, ← byteBits_append] at hburst
  exact hburst

end Feetech

end Questix.MotorControl.CrcTheorems
