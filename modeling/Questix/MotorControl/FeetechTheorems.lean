/-
Questix.MotorControl.FeetechTheorems — which response a register transaction
takes, and how far the reads have a say in it.

How many bytes are expected is a function of the first three bytes that arrived
(`expectedOf`), whenever they arrived. But the last read may bring more than is
expected, and then all of it is the response: every prefix of the stream from
the expected length up to the size of the buffer can be the response, and no
other one (`received_cases`, `received_take`). So a transaction depends on its
stream alone if and only if these prefixes fare alike.
-/
import Questix.MotorControl.FeetechServo

namespace Questix.MotorControl.FeetechServo

/-! ## Specification -/

/-- The bytes start an error frame. -/
def isErrorFrame (b : List UInt8) : Bool := decide (2 ≤ b.length) && isError (b.getD 1 0)

/-- The expected length of a response that starts with the bytes `b`. -/
def expectedOf (functionCode : UInt8) (b : List UInt8) : ℕ :=
  if isErrorFrame b then 5
  else if functionCode = 3 then
    if 3 ≤ b.length then min (5 + (b.getD 2 0).toNat) 50 else 7
  else 8

/-- While the loop reads, each read gets some bytes, and no more than the
buffer has left. -/
def Fits (functionCode : UInt8) : List UInt8 → List (List UInt8) → Prop
  | _, [] => True
  | b, chunk :: reads =>
    chunk ≠ [] ∧ chunk.length ≤ maxResponseLength - b.length ∧
      ((b ++ chunk).length < expectedOf functionCode (b ++ chunk) →
        Fits functionCode (b ++ chunk) reads)

/-- The stream `s` arrives in these reads, before the deadline. -/
def Split (functionCode : UInt8) (s : List UInt8) (reads : List (List UInt8)) : Prop :=
  reads.flatten = s ∧ Fits functionCode [] reads

/-- A transaction of an open port with these reads. -/
def arrives (reads : List (List UInt8)) : Transaction where
  arrivals := reads.map .bytes

/-- The bytes a transaction receives. -/
def received (functionCode : UInt8) (reads : List (List UInt8)) : List UInt8 :=
  (receive functionCode (.start functionCode) (reads.map .bytes)).response

/-- A valid answer of the servo to a read. -/
def IsReadReply (servoId : UInt8) (value : UInt16) (b : List UInt8) : Prop :=
  verifyChecksum b = true ∧ ∃ high low crcLow crcHigh,
    b = [servoId, 3, 2, high, low, crcLow, crcHigh] ∧ word high low = value

/-- A valid answer of the servo to a write: the echo of address and value. -/
def IsWriteReply (servoId : UInt8) (address value : UInt16) (b : List UInt8) : Prop :=
  verifyChecksum b = true ∧ ∃ addrHigh addrLow high low crcLow crcHigh,
    b = [servoId, 6, addrHigh, addrLow, high, low, crcLow, crcHigh] ∧
      word addrHigh addrLow = address ∧ word high low = value

/-- A read of the register goes as it should over the stream `s`. -/
structure ReadExact (servoId : UInt8) (address : UInt16) (s : List UInt8) : Prop where
  reply : ∀ reads, Split 3 s reads → (readRegister servoId address (arrives reads)).2 ≠ -1 →
    ∃ value, IsReadReply servoId value (received 3 reads) ∧
      readRegister servoId address (arrives reads) = (TransactionResult.kOk, (value.toNat : ℤ))
  unsplit : ∀ reads reads', Split 3 s reads → Split 3 s reads' →
    readRegister servoId address (arrives reads) = readRegister servoId address (arrives reads')

/-- A write of the register goes as it should over the stream `s`. -/
structure WriteExact (servoId : UInt8) (address value : UInt16) (s : List UInt8) : Prop where
  reply : ∀ reads, Split 6 s reads →
    (writeRegister servoId address value (arrives reads)).2 = true →
      IsWriteReply servoId address value (received 6 reads)
  unsplit : ∀ reads reads', Split 6 s reads → Split 6 s reads' →
    writeRegister servoId address value (arrives reads) =
      writeRegister servoId address value (arrives reads')

def readHead (s : List UInt8) : Prop := s.getD 1 0 = 3 ∧ s.getD 2 0 = 2

def writeHead (address value : UInt16) (s : List UInt8) : Prop :=
  s.getD 1 0 = 6 ∧ word (s.getD 2 0) (s.getD 3 0) = address ∧
    word (s.getD 4 0) (s.getD 5 0) = value

/-- The lengths a response can have. -/
def Takes (functionCode : UInt8) (s : List UInt8) (p : ℕ) : Prop :=
  expectedOf functionCode s ≤ p ∧ p ≤ min maxResponseLength s.length

/-- Too short, or no response with a valid checksum, or all of them valid and
refused for their head, or nothing but a response of this servo. -/
def CleanStream (functionCode : UInt8) (head : List UInt8 → Prop) (servoId : UInt8)
    (s : List UInt8) : Prop :=
  s.length < expectedOf functionCode s ∨
    (∀ p, Takes functionCode s p → verifyChecksum (s.take p) = false) ∨
    (¬ head s ∧ ∀ p, Takes functionCode s p → verifyChecksum (s.take p) = true) ∨
    (s.length = expectedOf functionCode s ∧ s.head? = some servoId)

section Receive

variable {functionCode : UInt8} {b s chunk : List UInt8} {r : Receive}

theorem getD_append_left {i : ℕ} (h : i < b.length) :
    (b ++ chunk).getD i 0 = b.getD i 0 := by
  rw [List.getD_eq_getElem?_getD, List.getD_eq_getElem?_getD, List.getElem?_append_left h]

theorem le_expectedOf (functionCode : UInt8) (b : List UInt8) : 5 ≤ expectedOf functionCode b := by
  unfold expectedOf
  split_ifs <;> omega

theorem isErrorFrame_append (h : 2 ≤ b.length) : isErrorFrame (b ++ chunk) = isErrorFrame b := by
  have hlength : 2 ≤ (b ++ chunk).length := by
    rw [List.length_append]
    omega
  simp only [isErrorFrame, getD_append_left (show 1 < b.length by omega), h, hlength]

theorem isErrorFrame_of_short (h : b.length < 2) : isErrorFrame b = false := by
  simp [isErrorFrame, h]

theorem expectedOf_append (h : 3 ≤ b.length) :
    expectedOf functionCode (b ++ chunk) = expectedOf functionCode b := by
  have hlength : 3 ≤ (b ++ chunk).length := by
    rw [List.length_append]
    omega
  rw [expectedOf, isErrorFrame_append (by omega), getD_append_left (by omega)]
  simp only [hlength, h, if_true, expectedOf]

/-- The loop's expected length is that of its bytes. -/
structure Tracks (functionCode : UInt8) (r : Receive) : Prop where
  expectedLength : r.expectedLength = expectedOf functionCode r.response
  errorFrame : r.errorFrame = isErrorFrame r.response
  ioError : r.ioError = false

theorem tracks_start (functionCode : UInt8) : Tracks functionCode (.start functionCode) where
  expectedLength := by
    by_cases h : functionCode = 3 <;>
      simp [Receive.start, expectedOf, isErrorFrame, maxResponseLength, h]
  errorFrame := rfl
  ioError := rfl

theorem isErrorFrame_before (h : isErrorFrame b = true) : isErrorFrame (b ++ chunk) = true := by
  have hlength : ¬ b.length < 2 := by
    intro hshort
    rw [isErrorFrame_of_short hshort] at h
    cases h
  rw [isErrorFrame_append (not_lt.1 hlength), h]

theorem capped (n : ℕ) : (if 3 + n + 2 ≤ 50 then 3 + n + 2 else 50) = min (5 + n) 50 := by
  split_ifs <;> omega

theorem Tracks.take (h : Tracks functionCode r) (chunk : List UInt8) :
    Tracks functionCode (r.take functionCode chunk) := by
  obtain ⟨hexpected, herror, hio⟩ := h
  have hnew : (!r.errorFrame && decide (2 ≤ (r.response ++ chunk).length) &&
      isError ((r.response ++ chunk).getD 1 0)) =
        (!r.errorFrame && isErrorFrame (r.response ++ chunk)) := Bool.and_assoc ..
  have hlength : r.response.length ≤ (r.response ++ chunk).length := by simp
  unfold Receive.take
  simp only [hnew]
  cases hbefore : isErrorFrame r.response with
  | true =>
    have hafter : isErrorFrame (r.response ++ chunk) = true := isErrorFrame_before hbefore
    have hfive : r.expectedLength = 5 := hexpected.trans (if_pos hbefore)
    rw [herror, hbefore]
    constructor
    · simp [expectedOf, hafter, hfive]
    · simp [hafter]
    · exact hio
  | false =>
    rw [expectedOf, hbefore] at hexpected
    rw [herror, hbefore]
    cases hafter : isErrorFrame (r.response ++ chunk) with
    | true =>
      constructor
      · simp [expectedOf, hafter, maxResponseLength]
      · simp [hafter]
      · exact hio
    | false =>
      constructor
      · -- the third byte is there, or the first guess stands
        rw [expectedOf, hafter]
        by_cases hread : functionCode = 3
        · by_cases hthree : 3 ≤ (r.response ++ chunk).length
          · simp only [hread, hthree, maxResponseLength, Bool.not_false, Bool.and_true,
              decide_true, if_true, Bool.false_eq_true, if_false]
            exact capped _
          · simp only [hread, hthree, show ¬ 3 ≤ r.response.length by omega, hexpected,
              Bool.and_false, decide_false, if_true, Bool.false_eq_true, if_false]
        · simp only [hread, hexpected, Bool.and_false, Bool.false_and, decide_false,
            Bool.false_eq_true, if_false]
      · simp [hafter]
      · exact hio

/-- Over all reads: the response is a prefix of what arrives, long enough or all
of it. -/
theorem receive_spec : ∀ (reads : List (List UInt8)) (r : Receive), Tracks functionCode r →
    r.response.length ≤ maxResponseLength →
    (r.response.length < r.expectedLength → Fits functionCode r.response reads) →
      Tracks functionCode (receive functionCode r (reads.map .bytes)) ∧
      (receive functionCode r (reads.map .bytes)).response.length ≤ maxResponseLength ∧
      (receive functionCode r (reads.map .bytes)).response <+: r.response ++ reads.flatten ∧
      (expectedOf functionCode (receive functionCode r (reads.map .bytes)).response ≤
          (receive functionCode r (reads.map .bytes)).response.length ∨
        (receive functionCode r (reads.map .bytes)).response = r.response ++ reads.flatten) := by
  intro reads
  induction reads with
  | nil =>
    intro r htracks hlength _
    rw [List.map_nil, receive, List.flatten_nil, List.append_nil]
    exact ⟨htracks, hlength, List.prefix_refl _, Or.inr rfl⟩
  | cons chunk reads ih =>
    intro r htracks hlength hfits
    rw [List.map_cons, receive]
    split_ifs with hmore
    · obtain ⟨-, hroom, hrest⟩ := hfits hmore
      have htaken : (r.take functionCode chunk).response = r.response ++ chunk := rfl
      have hnext := ih (r.take functionCode chunk) (htracks.take chunk)
        (by rw [htaken, List.length_append]; omega)
        (fun hshort => hrest (by rwa [(htracks.take chunk).expectedLength, htaken] at hshort))
      rwa [htaken, List.append_assoc, ← List.flatten_cons] at hnext
    · refine ⟨htracks, hlength, List.prefix_append .., Or.inl ?_⟩
      rw [← htracks.expectedLength]
      exact not_lt.1 hmore

/-- What a split of the stream can make of it. -/
theorem received_cases {reads : List (List UInt8)} (h : Split functionCode s reads) :
    (s.length < expectedOf functionCode s ∧ received functionCode reads = s) ∨
      ∃ p, Takes functionCode s p ∧ received functionCode reads = s.take p := by
  obtain ⟨rfl, hfits⟩ := h
  obtain ⟨-, hlength, hprefix, hend⟩ := receive_spec reads (.start functionCode)
    (tracks_start functionCode) (Nat.zero_le _) (fun _ => hfits)
  change received functionCode reads <+: reads.flatten at hprefix
  change (received functionCode reads).length ≤ maxResponseLength at hlength
  change expectedOf functionCode (received functionCode reads) ≤
    (received functionCode reads).length ∨ received functionCode reads = reads.flatten at hend
  have htake : received functionCode reads =
      reads.flatten.take (received functionCode reads).length := List.prefix_iff_eq_take.1 hprefix
  rcases hend with hend | hall
  · have hthree : 3 ≤ (received functionCode reads).length :=
      le_trans (by omega) ((le_expectedOf functionCode _).trans hend)
    obtain ⟨rest, hrest⟩ := hprefix
    refine Or.inr ⟨_, ⟨?_, ?_⟩, htake⟩
    · rwa [← hrest, expectedOf_append hthree]
    · rw [← hrest, List.length_append]
      omega
  · by_cases hshort : reads.flatten.length < expectedOf functionCode reads.flatten
    · exact Or.inl ⟨hshort, hall⟩
    · refine Or.inr ⟨_, ⟨?_, ?_⟩, htake⟩
      · rw [hall]
        exact not_lt.1 hshort
      · rw [hall] at hlength ⊢
        omega

/-- Each of these prefixes is the response of some split. -/
theorem received_take {p : ℕ} (h : Takes functionCode s p) :
    ∃ reads, Split functionCode s reads ∧ received functionCode reads = s.take p := by
  obtain ⟨hexpected, hlength⟩ := h
  have hfive := le_expectedOf functionCode s
  have htaken : (s.take p).length = p := by
    rw [List.length_take]
    omega
  have hdone : ¬ (s.take p).length < expectedOf functionCode (s.take p) := by
    have hsame : expectedOf functionCode (s.take p ++ s.drop p) =
        expectedOf functionCode (s.take p) := expectedOf_append (by omega)
    rw [List.take_append_drop] at hsame
    omega
  refine ⟨[s.take p, s.drop p], ⟨?_, ?_, ?_, ?_⟩, ?_⟩
  · simp
  · intro hnil
    rw [hnil, List.length_nil] at htaken
    omega
  · rw [htaken, List.length_nil]
    omega
  · exact fun hshort => absurd hshort hdone
  · have hstart : (Receive.start functionCode).response.length <
        (Receive.start functionCode).expectedLength := by
      rw [(tracks_start functionCode).expectedLength]
      exact lt_of_lt_of_le (Nat.zero_lt_succ 4) (le_expectedOf functionCode _)
    have hstop : ¬ ((Receive.start functionCode).take functionCode (s.take p)).response.length <
        ((Receive.start functionCode).take functionCode (s.take p)).expectedLength := by
      rw [((tracks_start functionCode).take (s.take p)).expectedLength]
      exact hdone
    rw [received, List.map_cons, receive, if_pos hstart, List.map_cons]
    rw [receive, if_neg hstop]
    rfl

end Receive

/-! ## Transactions -/

/-- What `sendCommand` makes of the bytes it received. -/
def judged (functionCode : UInt8) (b : List UInt8) : TransactionResult × Option (List UInt8) :=
  if b.length = 0 then (.kNoResponse, none)
  else if b.length < expectedOf functionCode b then (.kIncomplete, none)
  else if verifyChecksum b then (.kOk, some b)
  else (.kChecksum, none)

section Transactions

variable {functionCode servoId : UInt8} {address value : UInt16} {s b : List UInt8}
  {reads reads' : List (List UInt8)} {p : ℕ}

theorem sendCommand_arrives (h : Split functionCode s reads) :
    sendCommand (createModbusCommand servoId functionCode address value) (arrives reads) =
      judged functionCode (received functionCode reads) := by
  obtain ⟨htracks, -⟩ := receive_spec reads (.start functionCode) (tracks_start functionCode)
    (Nat.zero_le _) (fun _ => h.2)
  have hcode : (createModbusCommand servoId functionCode address value).getD 1 0 = functionCode :=
    rfl
  unfold sendCommand judged received
  simp only [arrives, hcode, htracks.ioError, htracks.expectedLength, Bool.not_true,
    Bool.false_eq_true, if_false]

theorem getD_take {i : ℕ} (h : i < p) : (s.take p).getD i 0 = s.getD i 0 := by
  rw [List.getD_eq_getElem?_getD, List.getD_eq_getElem?_getD, List.getElem?_take_of_lt h]

theorem length_take_of_takes (h : Takes functionCode s p) : (s.take p).length = p := by
  rw [List.length_take]
  exact min_eq_left (h.2.trans (min_le_right _ _))

theorem judged_take (h : Takes functionCode s p) :
    judged functionCode (s.take p) =
      if verifyChecksum (s.take p) then (.kOk, some (s.take p)) else (.kChecksum, none) := by
  have hfive := le_expectedOf functionCode s
  have hlength := length_take_of_takes h
  have hp := h.1
  have hsame : expectedOf functionCode (s.take p ++ s.drop p) =
      expectedOf functionCode (s.take p) := expectedOf_append (by omega)
  rw [List.take_append_drop] at hsame
  rw [judged, if_neg (by omega), if_neg (by omega)]

theorem judged_short (h : s.length < expectedOf functionCode s) :
    (judged functionCode s).2 = none := by
  unfold judged
  rw [if_pos h]
  split_ifs <;> rfl

theorem received_short (hshort : s.length < expectedOf functionCode s)
    (h : Split functionCode s reads) : received functionCode reads = s := by
  rcases received_cases h with ⟨-, hall⟩ | ⟨p, hp, -⟩
  · exact hall
  · obtain ⟨hlow, hhigh⟩ := hp
    omega

/-- The outcomes over the responses a stream can give: `good`, `refused` for the
head, or `bad` for the checksum. -/
structure Fares {β : Type} (functionCode servoId : UInt8) (s : List UInt8) (head : Prop)
    (outcome : List UInt8 → β) (good refused bad : β) (reply : List UInt8 → Prop) : Prop where
  invalid : ∀ p, Takes functionCode s p → verifyChecksum (s.take p) = false →
    outcome (s.take p) = bad
  valid : ∀ p, Takes functionCode s p → verifyChecksum (s.take p) = true → head →
    outcome (s.take p) = good
  refuses : ∀ p, Takes functionCode s p → verifyChecksum (s.take p) = true → ¬ head →
    outcome (s.take p) = refused
  room : head → expectedOf functionCode s < maxResponseLength
  good_ne_bad : good ≠ bad
  good_ne_refused : good ≠ refused
  refused_ne_bad : refused ≠ bad
  /-- A response with the right head is a reply if it is one frame of this servo. -/
  replies : ∀ p, Takes functionCode s p → verifyChecksum (s.take p) = true → head →
    (reply (s.take p) ↔ p = expectedOf functionCode s ∧ s.head? = some servoId)

/-- **Every response that counts as good is a reply, and all fare alike, if and
only if the stream is clean.** -/
theorem Fares.iff_clean {β : Type} {head : List UInt8 → Prop} {outcome : List UInt8 → β}
    {good refused bad : β} {reply : List UInt8 → Prop}
    (h : Fares functionCode servoId s (head s) outcome good refused bad reply)
    (hlong : expectedOf functionCode s ≤ s.length) :
    ((∀ p, Takes functionCode s p → outcome (s.take p) = good → reply (s.take p)) ∧
      ∀ p p', Takes functionCode s p → Takes functionCode s p' →
        outcome (s.take p) = outcome (s.take p')) ↔
      CleanStream functionCode head servoId s := by
  constructor
  · rintro ⟨hreply, hsame⟩
    refine Or.inr ?_
    by_cases hnone : ∀ p, Takes functionCode s p → verifyChecksum (s.take p) = false
    · exact Or.inl hnone
    -- one of the responses has a valid checksum
    push Not at hnone
    obtain ⟨p, hp, hvalid⟩ := hnone
    rw [ne_eq, Bool.not_eq_false] at hvalid
    by_cases hhead : head s
    · have hgood := h.valid p hp hvalid hhead
      obtain ⟨hexact, hid⟩ := (h.replies p hp hvalid hhead).1 (hreply p hp hgood)
      refine Or.inr (Or.inr ⟨?_, hid⟩)
      by_contra hmore
      -- one byte more could be read with it
      have hnext : Takes functionCode s (p + 1) := by
        have hroom := h.room hhead
        constructor <;> omega
      have hgood' : outcome (s.take (p + 1)) = good := (hsame (p + 1) p hnext hp).trans hgood
      have hvalid' : verifyChecksum (s.take (p + 1)) = true := by
        by_contra hinvalid
        rw [h.invalid (p + 1) hnext (by simpa using hinvalid)] at hgood'
        exact h.good_ne_bad hgood'.symm
      have := ((h.replies (p + 1) hnext hvalid' hhead).1 (hreply (p + 1) hnext hgood')).1
      omega
    · refine Or.inr (Or.inl ⟨hhead, ?_⟩)
      intro p' hp'
      by_contra hinvalid
      rw [Bool.not_eq_true] at hinvalid
      have hboth := hsame p p' hp hp'
      rw [h.refuses p hp hvalid hhead, h.invalid p' hp' hinvalid] at hboth
      exact h.refused_ne_bad hboth
  · rintro (hshort | hnone | ⟨hhead, hall⟩ | ⟨hexact, hid⟩)
    · omega
    · constructor
      · intro p hp hgood
        rw [h.invalid p hp (hnone p hp)] at hgood
        exact absurd hgood.symm h.good_ne_bad
      · intro p p' hp hp'
        rw [h.invalid p hp (hnone p hp), h.invalid p' hp' (hnone p' hp')]
    · constructor
      · intro p hp hgood
        rw [h.refuses p hp (hall p hp) hhead] at hgood
        exact absurd hgood.symm h.good_ne_refused
      · intro p p' hp hp'
        rw [h.refuses p hp (hall p hp) hhead, h.refuses p' hp' (hall p' hp') hhead]
    · -- there is but one response
      have hone : ∀ p, Takes functionCode s p → p = expectedOf functionCode s := by
        intro p hp
        obtain ⟨hlow, hhigh⟩ := hp
        omega
      constructor
      · intro p hp hgood
        have hvalid : verifyChecksum (s.take p) = true := by
          by_contra hinvalid
          rw [h.invalid p hp (by simpa using hinvalid)] at hgood
          exact h.good_ne_bad hgood.symm
        have hhead : head s := by
          by_contra hhead
          rw [h.refuses p hp hvalid hhead] at hgood
          exact h.good_ne_refused hgood.symm
        exact (h.replies p hp hvalid hhead).2 ⟨hone p hp, hid⟩
      · intro p p' hp hp'
        rw [hone p hp, hone p' hp']

/-- The same of the splits of the stream. -/
theorem Fares.exact_iff {β : Type} {head : List UInt8 → Prop} {outcome : List UInt8 → β}
    {good refused bad : β} {reply : List UInt8 → Prop}
    (h : Fares functionCode servoId s (head s) outcome good refused bad reply)
    (hlong : expectedOf functionCode s ≤ s.length) {run : List (List UInt8) → β}
    (hrun : ∀ reads, Split functionCode s reads → run reads = outcome (received functionCode reads)) :
    ((∀ reads, Split functionCode s reads → run reads = good →
        reply (received functionCode reads)) ∧
      ∀ reads reads', Split functionCode s reads → Split functionCode s reads' →
        run reads = run reads') ↔
      CleanStream functionCode head servoId s := by
  rw [← h.iff_clean hlong]
  constructor
  · rintro ⟨hreply, hsame⟩
    constructor
    · intro p hp hgood
      obtain ⟨reads, hreads, hreceived⟩ := received_take hp
      rw [← hreceived] at hgood ⊢
      exact hreply reads hreads ((hrun reads hreads).trans hgood)
    · intro p p' hp hp'
      obtain ⟨reads, hreads, hreceived⟩ := received_take hp
      obtain ⟨reads', hreads', hreceived'⟩ := received_take hp'
      rw [← hreceived, ← hreceived', ← hrun reads hreads, ← hrun reads' hreads']
      exact hsame reads reads' hreads hreads'
  · rintro ⟨hreply, hsame⟩
    have htakes : ∀ reads, Split functionCode s reads →
        ∃ p, Takes functionCode s p ∧ received functionCode reads = s.take p := by
      intro reads hreads
      rcases received_cases hreads with ⟨hshort, -⟩ | htake
      · omega
      · exact htake
    constructor
    · intro reads hreads hgood
      obtain ⟨p, hp, hreceived⟩ := htakes reads hreads
      rw [hrun reads hreads, hreceived] at hgood
      rw [hreceived]
      exact hreply p hp hgood
    · intro reads reads' hreads hreads'
      obtain ⟨p, hp, hreceived⟩ := htakes reads hreads
      obtain ⟨p', hp', hreceived'⟩ := htakes reads' hreads'
      rw [hrun reads hreads, hrun reads' hreads', hreceived, hreceived']
      exact hsame p p' hp hp'

theorem Fares.cases {β : Type} {head : Prop} {outcome : List UInt8 → β}
    {good refused bad : β} {reply : List UInt8 → Prop}
    (h : Fares functionCode servoId s head outcome good refused bad reply)
    (hp : Takes functionCode s p) :
    outcome (s.take p) = good ∨ outcome (s.take p) = refused ∨ outcome (s.take p) = bad := by
  by_cases hvalid : verifyChecksum (s.take p) = true
  · by_cases hhead : head
    · exact Or.inl (h.valid p hp hvalid hhead)
    · exact Or.inr (Or.inl (h.refuses p hp hvalid hhead))
  · exact Or.inr (Or.inr (h.invalid p hp (by simpa using hvalid)))

end Transactions

/-! ## Reads -/

section Reads

variable {servoId : UInt8} {address value : UInt16} {s b : List UInt8}
  {reads reads' : List (List UInt8)} {p : ℕ}

/-- What a read makes of the bytes it received. -/
def readOutcome (b : List UInt8) : TransactionResult × ℤ :=
  readValue (judged 3 b).1 (judged 3 b).2

theorem readRegister_arrives (h : Split 3 s reads) :
    readRegister servoId address (arrives reads) = readOutcome (received 3 reads) := by
  rw [readRegister, sendCommand_arrives h]
  rfl

theorem readOutcome_of_valid (h : Takes 3 s p) (hvalid : verifyChecksum (s.take p) = true) :
    readOutcome (s.take p) = readValue .kOk (some (s.take p)) := by
  rw [readOutcome, judged_take h, if_pos hvalid]

/-- A response with another head is refused, as an error or as unexpected. -/
def readRefused (s : List UInt8) : TransactionResult × ℤ :=
  if isError (s.getD 1 0) then (.kErrorResponse, -1) else (.kUnexpected, -1)

theorem expectedOf_readHead (h : readHead s) (hlong : expectedOf 3 s ≤ s.length) :
    expectedOf 3 s = 7 := by
  have hfive := le_expectedOf 3 s
  have hcode : isErrorFrame s = false := by
    rw [isErrorFrame, h.1, show isError 3 = false by decide, Bool.and_false]
  rw [expectedOf, hcode, h.2]
  simp [show 3 ≤ s.length by omega]

theorem head?_eq_getD (h : 0 < s.length) : s.head? = some (s.getD 0 0) := by
  cases s with
  | nil => cases h
  | cons a s => rfl

theorem eq_of_length_seven (h : s.length = 7) :
    s = [s.getD 0 0, s.getD 1 0, s.getD 2 0, s.getD 3 0, s.getD 4 0, s.getD 5 0, s.getD 6 0] := by
  match s, h with
  | [a₀, a₁, a₂, a₃, a₄, a₅, a₆], _ => rfl

theorem fares_read (servoId : UInt8) (hlong : expectedOf 3 s ≤ s.length) :
    Fares 3 servoId s (readHead s) readOutcome
      (.kOk, ((word (s.getD 3 0) (s.getD 4 0)).toNat : ℤ)) (readRefused s) (.kChecksum, -1)
      (IsReadReply servoId (word (s.getD 3 0) (s.getD 4 0))) where
  invalid := by
    intro p hp hinvalid
    rw [readOutcome, judged_take hp, if_neg (by simp [hinvalid])]
    rfl
  valid := by
    intro p hp hvalid hhead
    have hfive : 5 ≤ p := (le_expectedOf 3 s).trans hp.1
    have hlength := length_take_of_takes hp
    rw [readOutcome_of_valid hp hvalid, readValue, getD_take (by omega), getD_take (by omega),
      getD_take (by omega), getD_take (by omega), if_pos ⟨by omega, hhead⟩]
  refuses := by
    intro p hp hvalid hhead
    have hfive : 5 ≤ p := (le_expectedOf 3 s).trans hp.1
    rw [readOutcome_of_valid hp hvalid, readValue, getD_take (by omega), getD_take (by omega),
      if_neg fun h => hhead h.2]
    rfl
  room := by
    intro hhead
    rw [expectedOf_readHead hhead hlong]
    decide
  good_ne_bad := by simp
  good_ne_refused := by
    unfold readRefused
    split_ifs <;> simp
  refused_ne_bad := by
    unfold readRefused
    split_ifs <;> simp
  replies := by
    intro p hp hvalid hhead
    have hseven := expectedOf_readHead hhead hlong
    have hlength := length_take_of_takes hp
    rw [hseven, head?_eq_getD (by omega)]
    constructor
    · rintro ⟨-, high, low, crcLow, crcHigh, hb, -⟩
      have hp7 : p = 7 := by rw [← hlength, hb]; rfl
      have hid : (s.take p).getD 0 0 = servoId := by rw [hb]; rfl
      rw [getD_take (by omega)] at hid
      exact ⟨hp7, congrArg some hid⟩
    · rintro ⟨rfl, hid⟩
      refine ⟨hvalid, s.getD 3 0, s.getD 4 0, s.getD 5 0, s.getD 6 0, ?_, rfl⟩
      have hb := eq_of_length_seven hlength
      simp only [getD_take (show 0 < 7 by omega), getD_take (show 1 < 7 by omega),
        getD_take (show 2 < 7 by omega), getD_take (show 3 < 7 by omega),
        getD_take (show 4 < 7 by omega), getD_take (show 5 < 7 by omega),
        getD_take (show 6 < 7 by omega), hhead.1, hhead.2, Option.some.inj hid] at hb
      exact hb

theorem readOutcome_short (hshort : s.length < expectedOf 3 s) : (readOutcome s).2 = -1 := by
  rw [readOutcome, judged_short hshort]
  rfl

theorem readExact_iff : ReadExact servoId address s ↔ CleanStream 3 readHead servoId s := by
  by_cases hlong : expectedOf 3 s ≤ s.length
  · have hfares := fares_read servoId hlong
    rw [← hfares.exact_iff hlong (fun reads hreads => readRegister_arrives hreads)]
    constructor
    · rintro ⟨hreply, hsame⟩
      refine ⟨?_, hsame⟩
      intro reads hreads hgood
      obtain ⟨value, hb, hvalue⟩ := hreply reads hreads (by rw [hgood]; simp)
      rw [hgood, Prod.mk.injEq, Nat.cast_inj, UInt16.toNat_inj] at hvalue
      exact hvalue.2 ▸ hb
    · rintro ⟨hreply, hsame⟩
      refine ⟨?_, hsame⟩
      intro reads hreads hvalue
      have hgood : readRegister servoId address (arrives reads) =
          (.kOk, ((word (s.getD 3 0) (s.getD 4 0)).toNat : ℤ)) := by
        rcases received_cases hreads with ⟨hshort, -⟩ | ⟨p, hp, hreceived⟩
        · omega
        rw [readRegister_arrives hreads, hreceived] at hvalue ⊢
        rcases hfares.cases hp with hgood | hrefused | hbad
        · exact hgood
        · rw [hrefused, readRefused] at hvalue
          split_ifs at hvalue <;> exact absurd rfl hvalue
        · rw [hbad] at hvalue
          exact absurd rfl hvalue
      exact ⟨_, hreply reads hreads hgood, hgood⟩
  · have hshort := not_le.1 hlong
    refine iff_of_true ⟨?_, ?_⟩ (Or.inl hshort)
    · intro reads hreads hvalue
      rw [readRegister_arrives hreads, received_short hshort hreads] at hvalue
      exact absurd (readOutcome_short hshort) hvalue
    · intro reads reads' hreads hreads'
      rw [readRegister_arrives hreads, readRegister_arrives hreads', received_short hshort hreads,
        received_short hshort hreads']

end Reads

/-! ## Writes -/

section Writes

variable {servoId : UInt8} {address value : UInt16} {s : List UInt8}
  {reads : List (List UInt8)} {p : ℕ}

/-- What a write makes of the bytes it received. -/
def writeOutcome (address value : UInt16) (b : List UInt8) : TransactionResult × Bool :=
  checkEcho address value (judged 6 b).1 (judged 6 b).2

theorem writeRegister_arrives (h : Split 6 s reads) :
    writeRegister servoId address value (arrives reads) =
      writeOutcome address value (received 6 reads) := by
  rw [writeRegister, sendCommand_arrives h]
  rfl

theorem writeOutcome_of_valid (h : Takes 6 s p) (hvalid : verifyChecksum (s.take p) = true) :
    writeOutcome address value (s.take p) = checkEcho address value .kOk (some (s.take p)) := by
  rw [writeOutcome, judged_take h, if_pos hvalid]

/-- A response with another head is refused, as an error or as unexpected. -/
def writeRefused (s : List UInt8) : TransactionResult × Bool :=
  if isError (s.getD 1 0) then (.kErrorResponse, false) else (.kUnexpected, false)

theorem expectedOf_writeCode (h : s.getD 1 0 = 6) : expectedOf 6 s = 8 := by
  have hcode : isErrorFrame s = false := by
    rw [isErrorFrame, h, show isError 6 = false by decide, Bool.and_false]
  rw [expectedOf, hcode]
  rfl

theorem eq_of_length_eight (h : s.length = 8) :
    s = [s.getD 0 0, s.getD 1 0, s.getD 2 0, s.getD 3 0, s.getD 4 0, s.getD 5 0, s.getD 6 0,
      s.getD 7 0] := by
  match s, h with
  | [a₀, a₁, a₂, a₃, a₄, a₅, a₆, a₇], _ => rfl

theorem fares_write (servoId : UInt8) (address value : UInt16) (hlong : expectedOf 6 s ≤ s.length) :
    Fares 6 servoId s (writeHead address value s) (writeOutcome address value)
      (.kOk, true) (writeRefused s) (.kChecksum, false)
      (IsWriteReply servoId address value) where
  invalid := by
    intro p hp hinvalid
    rw [writeOutcome, judged_take hp, if_neg (by simp [hinvalid])]
    rfl
  valid := by
    intro p hp hvalid hhead
    have height : 8 ≤ p := (expectedOf_writeCode hhead.1).symm.le.trans hp.1
    have hlength := length_take_of_takes hp
    rw [writeOutcome_of_valid hp hvalid, checkEcho]
    simp only [getD_take (show 1 < p by omega), getD_take (show 2 < p by omega),
      getD_take (show 3 < p by omega), getD_take (show 4 < p by omega),
      getD_take (show 5 < p by omega)]
    rw [if_pos ⟨by omega, hhead.1⟩, if_pos hhead.2]
  refuses := by
    intro p hp hvalid hhead
    have hfive : 5 ≤ p := (le_expectedOf 6 s).trans hp.1
    have hlength := length_take_of_takes hp
    rw [writeOutcome_of_valid hp hvalid, checkEcho, writeRefused]
    simp only [getD_take (show 1 < p by omega)]
    by_cases hcode : s.getD 1 0 = 6
    · -- the echo of something else
      have height : 8 ≤ p := (expectedOf_writeCode hcode).symm.le.trans hp.1
      simp only [getD_take (show 2 < p by omega), getD_take (show 3 < p by omega),
        getD_take (show 4 < p by omega), getD_take (show 5 < p by omega)]
      rw [if_pos ⟨by omega, hcode⟩, if_neg fun hecho => hhead ⟨hcode, hecho⟩, hcode]
      rfl
    · rw [if_neg fun h => hcode h.2]
  room := by
    intro hhead
    rw [expectedOf_writeCode hhead.1]
    decide
  good_ne_bad := by simp
  good_ne_refused := by
    unfold writeRefused
    split_ifs <;> simp
  refused_ne_bad := by
    unfold writeRefused
    split_ifs <;> simp
  replies := by
    intro p hp hvalid hhead
    have height := expectedOf_writeCode hhead.1
    have hlength := length_take_of_takes hp
    rw [height, head?_eq_getD (by omega)]
    constructor
    · rintro ⟨-, addrHigh, addrLow, high, low, crcLow, crcHigh, hb, -⟩
      have hp8 : p = 8 := by rw [← hlength, hb]; rfl
      have hid : (s.take p).getD 0 0 = servoId := by rw [hb]; rfl
      rw [getD_take (by omega)] at hid
      exact ⟨hp8, congrArg some hid⟩
    · rintro ⟨rfl, hid⟩
      refine ⟨hvalid, s.getD 2 0, s.getD 3 0, s.getD 4 0, s.getD 5 0, s.getD 6 0, s.getD 7 0, ?_,
        hhead.2⟩
      have hb := eq_of_length_eight hlength
      simp only [getD_take (show 0 < 8 by omega), getD_take (show 1 < 8 by omega),
        getD_take (show 2 < 8 by omega), getD_take (show 3 < 8 by omega),
        getD_take (show 4 < 8 by omega), getD_take (show 5 < 8 by omega),
        getD_take (show 6 < 8 by omega), getD_take (show 7 < 8 by omega), hhead.1,
        Option.some.inj hid] at hb
      exact hb

theorem writeOutcome_short (hshort : s.length < expectedOf 6 s) :
    (writeOutcome address value s).2 = false := by
  rw [writeOutcome, judged_short hshort]
  rfl

theorem writeExact_iff :
    WriteExact servoId address value s ↔ CleanStream 6 (writeHead address value) servoId s := by
  by_cases hlong : expectedOf 6 s ≤ s.length
  · have hfares := fares_write servoId address value hlong
    rw [← hfares.exact_iff hlong (fun reads hreads => writeRegister_arrives hreads)]
    constructor
    · rintro ⟨hreply, hsame⟩
      exact ⟨fun reads hreads hgood => hreply reads hreads (congrArg Prod.snd hgood), hsame⟩
    · rintro ⟨hreply, hsame⟩
      refine ⟨?_, hsame⟩
      intro reads hreads hvalue
      apply hreply reads hreads
      rcases received_cases hreads with ⟨hshort, -⟩ | ⟨p, hp, hreceived⟩
      · omega
      rw [writeRegister_arrives hreads, hreceived] at hvalue ⊢
      rcases hfares.cases hp with hgood | hrefused | hbad
      · exact hgood
      · rw [hrefused, writeRefused] at hvalue
        split_ifs at hvalue
      · rw [hbad] at hvalue
        cases hvalue
  · have hshort := not_le.1 hlong
    refine iff_of_true ⟨?_, ?_⟩ (Or.inl hshort)
    · intro reads hreads hvalue
      rw [writeRegister_arrives hreads, received_short hshort hreads, writeOutcome_short hshort]
        at hvalue
      cases hvalue
    · intro reads reads' hreads hreads'
      rw [writeRegister_arrives hreads, writeRegister_arrives hreads',
        received_short hshort hreads, received_short hshort hreads']

end Writes

/-- **A transaction takes the reply of its servo and nothing else, whatever the
split, exactly if its stream is clean.** -/
theorem transaction_exact_iff (servoId : UInt8) (address value : UInt16) (s : List UInt8) :
    (ReadExact servoId address s ↔ CleanStream 3 readHead servoId s) ∧
      (WriteExact servoId address value s ↔ CleanStream 6 (writeHead address value) servoId s) :=
  ⟨readExact_iff, writeExact_iff⟩

/-- Servo 11 is asked and servo 10 answers late: its value is taken. -/
theorem late_reply_taken :
    ¬ ((∀ (servoId : UInt8) (address : UInt16) (s : List UInt8), ReadExact servoId address s) ∧
      ∀ (servoId : UInt8) (address value : UInt16) (s : List UInt8),
        WriteExact servoId address value s) := by
  rintro ⟨h, -⟩
  let late : List UInt8 := [10, 3, 2, 8, 0, 26, 69]
  have hsplit : Split 3 late [late] := by
    refine ⟨rfl, by decide, by decide, ?_⟩
    intro _
    trivial
  obtain ⟨value, ⟨-, high, low, crcLow, crcHigh, hreply, -⟩, -⟩ :=
    (h 11 257 late).reply [late] hsplit (by decide +kernel)
  have hid : (received 3 [late]).head? = some 11 := by rw [hreply]; rfl
  exact absurd hid (by decide)

end Questix.MotorControl.FeetechServo
