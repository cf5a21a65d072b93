/-
Questix.LabPage.UsbProtocolTheorems — what the reader of the LiDAR's bytes
makes of a stream, however it comes.

The loop of `feed` is a cutter (`packetCutter`): every piece it takes is
decided by the piece's own bytes. So what a parser has done is a fold over the
pieces of the whole stream, and the scans are read off the pieces.
-/
import Questix.LabPage.UsbProtocol
import Questix.Lib.Chunks
import Mathlib.Data.List.Induction
import Mathlib.Tactic.NormNum

namespace Questix.LabPage.UsbProtocol

open Questix.Lib

variable {m : Maths}

/-! ## Bytes at a place -/

theorem byteAt_drop (bytes : Bytes) (offset i : Nat) :
    byteAt (bytes.drop offset) i = byteAt bytes (offset + i) := by
  simp [byteAt, List.getD_eq_getElem?_getD]

theorem byteAt_append {bytes : Bytes} {i : Nat} (h : i < bytes.length) (more : Bytes) :
    byteAt (bytes ++ more) i = byteAt bytes i := by
  simp [byteAt, List.getD_eq_getElem?_getD, List.getElem?_append_left h]

theorem byteAt_take {i n : Nat} (h : i < n) (bytes : Bytes) :
    byteAt (bytes.take n) i = byteAt bytes i := by
  simp [byteAt, List.getD_eq_getElem?_getD, List.getElem?_take_of_lt h]

theorem byteAt_le (bytes : Bytes) (i : Nat) : byteAt bytes i ≤ 255 := by
  have h := (bytes.getD i 0).toNat_lt
  unfold byteAt
  omega

/-- The `n` bytes of `xs` from `o` are those of `ys` from `o'`. -/
def Same (n : Nat) (xs : Bytes) (o : Nat) (ys : Bytes) (o' : Nat) : Prop :=
  ∀ i < n, byteAt xs (o + i) = byteAt ys (o' + i)

theorem Same.drop (n : Nat) (bytes : Bytes) (offset : Nat) :
    Same n bytes offset (bytes.drop offset) 0 := by
  intro i _
  rw [byteAt_drop, Nat.zero_add]

theorem Same.append {bytes : Bytes} {n : Nat} (h : n ≤ bytes.length) (more : Bytes) :
    Same n (bytes ++ more) 0 bytes 0 := by
  intro i hi
  rw [Nat.zero_add, byteAt_append (by omega)]

theorem Same.take (n : Nat) (bytes : Bytes) : Same n (bytes.take n) 0 bytes 0 := by
  intro i hi
  rw [Nat.zero_add, byteAt_take hi]

section Same

variable {n o o' : Nat} {xs ys : Bytes} (h : Same n xs o ys o')
include h

theorem Same.byte {i : Nat} (hi : i < n) : byteAt xs (o + i) = byteAt ys (o' + i) := h i hi

theorem Same.word {i : Nat} (hi : i + 1 < n) : word xs (o + i) = word ys (o' + i) := by
  unfold UsbProtocol.word
  rw [h.byte (by omega), Nat.add_assoc, Nat.add_assoc, h.byte hi]

theorem Same.distance {i : Nat} (hi : 10 + 3 * i + 2 < n) :
    UsbProtocol.word xs (o + 10 + 3 * i + 1) = UsbProtocol.word ys (o' + 10 + 3 * i + 1) := by
  have hword := h.word (i := 10 + 3 * i + 1) hi
  rwa [← Nat.add_assoc, ← Nat.add_assoc, ← Nat.add_assoc, ← Nat.add_assoc] at hword

theorem Same.validPacket (hn : HEADER_BYTES + SAMPLE_BYTES * byteAt ys (o' + 3) ≤ n) :
    validPacket xs o = validPacket ys o' := by
  have hten : 10 ≤ n := by unfold HEADER_BYTES at hn; omega
  have hstart : UsbProtocol.word xs o = UsbProtocol.word ys o' := h.word (i := 0) (by omega)
  have hsum : checksum xs o = checksum ys o' := by
    unfold checksum
    rw [h.byte (i := 3) (by omega), hstart, h.word (i := 2) (by omega), h.word (i := 4) (by omega),
      h.word (i := 6) (by omega)]
    apply List.foldl_ext
    intro sum i hi
    have hi := List.mem_range.mp hi
    unfold HEADER_BYTES SAMPLE_BYTES at *
    have hsample : byteAt xs (o + 10 + 3 * i) = byteAt ys (o' + 10 + 3 * i) := by
      rw [Nat.add_assoc, Nat.add_assoc]
      exact h.byte (by omega)
    simp only [hsample, h.distance (i := i) (by omega)]
  unfold UsbProtocol.validPacket
  rw [hsum, h.byte (i := 3) (by omega), h.byte (i := 4) (by omega), h.byte (i := 6) (by omega),
    h.word (i := 8) (by omega)]

theorem Same.acceptPacket (hn : HEADER_BYTES + SAMPLE_BYTES * byteAt ys (o' + 3) ≤ n)
    (p : TminiParser) : p.acceptPacket m xs o = p.acceptPacket m ys o' := by
  have hten : 10 ≤ n := by unfold HEADER_BYTES at hn; omega
  have hpoints : packetPoints m xs o = packetPoints m ys o' := by
    unfold packetPoints
    rw [h.byte (i := 3) (by omega), h.word (i := 4) (by omega), h.word (i := 6) (by omega)]
    apply List.filterMap_congr
    intro i hi
    have hi := List.mem_range.mp hi
    unfold HEADER_BYTES SAMPLE_BYTES at *
    simp only [h.distance (i := i) (by omega)]
  unfold TminiParser.acceptPacket
  rw [hpoints, h.byte (i := 2) (by omega)]

end Same

/-! ## The pieces of a stream -/

/-- What the reader takes off the stream at once. -/
inductive Piece where
  /-- A packet whose checksum is right. -/
  | packet (bytes : Bytes)
  /-- The first byte of a packet that failed its check. -/
  | bad (bytes : Bytes)
  /-- A timestamp block, or a byte that starts nothing. -/
  | other (bytes : Bytes)
  deriving DecidableEq

def Piece.spell : Piece → Bytes
  | .packet bytes | .bad bytes | .other bytes => bytes

def nextPiece (bytes : Bytes) : Option (Piece × Nat) :=
  if bytes.length ≤ 1 ∨ packetLength bytes 0 = 0 ∨ packetLength bytes 0 > bytes.length then none
  else if packetLength bytes 0 ≤ TIMESTAMP_BYTES then
    some (.other (bytes.take (packetLength bytes 0)), packetLength bytes 0)
  else if validPacket bytes 0 then
    some (.packet (bytes.take (packetLength bytes 0)), packetLength bytes 0)
  else some (.bad (bytes.take 1), 1)

theorem packetLength_le (bytes : Bytes) (offset : Nat) : packetLength bytes offset ≤ 775 := by
  have h := byteAt_le bytes (offset + 3)
  unfold packetLength TIMESTAMP_BYTES HEADER_BYTES SAMPLE_BYTES
  split_ifs <;> omega

theorem packetLength_of_long {bytes : Bytes} {offset : Nat}
    (h : packetLength bytes offset > TIMESTAMP_BYTES) :
    packetLength bytes offset = HEADER_BYTES + SAMPLE_BYTES * byteAt bytes (offset + 3) := by
  revert h
  unfold packetLength TIMESTAMP_BYTES
  split_ifs <;> simp

theorem packetLength_drop (bytes : Bytes) (offset : Nat) :
    packetLength bytes offset = packetLength (bytes.drop offset) 0 := by
  have hlen : offset + HEADER_BYTES > bytes.length
      ↔ 0 + HEADER_BYTES > (bytes.drop offset).length := by
    rw [List.length_drop]
    unfold HEADER_BYTES
    omega
  unfold packetLength
  simp only [byteAt_drop, hlen, Nat.zero_add, Nat.add_zero]

theorem packetLength_append {bytes : Bytes} (hlen : 1 < bytes.length)
    (h : packetLength bytes 0 ≠ 0) (more : Bytes) :
    packetLength (bytes ++ more) 0 = packetLength bytes 0 := by
  have hmore : (bytes ++ more).length = bytes.length + more.length := List.length_append
  revert h
  unfold packetLength HEADER_BYTES
  rw [byteAt_append (i := 0) (by omega), byteAt_append (i := 0 + 1) (by omega)]
  by_cases hthere : 0 + 10 > bytes.length
  · simp only [hthere, if_true]
    split_ifs <;> simp
  · have hthere' : ¬ 0 + 10 > (bytes ++ more).length := by omega
    rw [byteAt_append (i := 0 + 3) (by omega), if_neg hthere, if_neg hthere']
    exact fun _ => rfl

theorem whole_of_next {bytes : Bytes} {r : Piece × Nat} (h : nextPiece bytes = some r) :
    ¬ (bytes.length ≤ 1 ∨ packetLength bytes 0 = 0 ∨ packetLength bytes 0 > bytes.length) := by
  intro hwait
  unfold nextPiece at h
  rw [if_pos hwait] at h
  exact absurd h (by simp)

theorem nextPiece_bound {bytes : Bytes} {piece : Piece} {k : Nat}
    (h : nextPiece bytes = some (piece, k)) :
    (0 < k ∧ k ≤ bytes.length) ∧ piece.spell = bytes.take k := by
  have hwhole := whole_of_next h
  unfold nextPiece at h
  rw [if_neg hwhole] at h
  split_ifs at h
  all_goals
    simp only [Option.some.injEq, Prod.mk.injEq] at h
    obtain ⟨rfl, rfl⟩ := h
    refine ⟨?_, rfl⟩
    omega

theorem nextPiece_stable {bytes : Bytes} {r : Piece × Nat} (h : nextPiece bytes = some r)
    (more : Bytes) : nextPiece (bytes ++ more) = some r := by
  have hwhole := whole_of_next h
  have hlength := @packetLength_append bytes (by omega) (by omega) more
  have hlen : (bytes ++ more).length = bytes.length + more.length := List.length_append
  unfold nextPiece at h ⊢
  rw [hlength, if_neg (by omega)]
  rw [if_neg hwhole] at h
  rw [List.take_append_of_le_length (by omega), List.take_append_of_le_length (by omega)]
  by_cases hshort : packetLength bytes 0 ≤ TIMESTAMP_BYTES
  · rw [if_pos hshort] at h ⊢
    exact h
  · have hsame := (Same.append (n := packetLength bytes 0) (by omega) more).validPacket
      (packetLength_of_long (by omega)).ge
    rw [if_neg hshort] at h ⊢
    rw [hsame]
    exact h

/-- The reader as a cutter. -/
def packetCutter : Cutter UInt8 Piece where
  next := nextPiece
  bound h := (nextPiece_bound h).1
  stable h more := nextPiece_stable h more

/-- A piece that counts as a packet passes the check. -/
def Piece.Sound : Piece → Prop
  | .packet bytes => validPacket bytes 0 = true
  | .bad _ | .other _ => True

theorem nextPiece_sound {bytes : Bytes} {piece : Piece} {k : Nat}
    (h : nextPiece bytes = some (piece, k)) : piece.Sound := by
  have hwhole := whole_of_next h
  unfold nextPiece at h
  rw [if_neg hwhole] at h
  split_ifs at h with hshort hvalid
  all_goals
    simp only [Option.some.injEq, Prod.mk.injEq] at h
    obtain ⟨rfl, rfl⟩ := h
  · trivial
  · have hsame := (Same.take (packetLength bytes 0) bytes).validPacket
      (packetLength_of_long (by omega)).ge
    exact hsame.trans hvalid
  · trivial

/-! ## The loop is a fold over the pieces -/

namespace TminiParser

/-- What one piece does. -/
def take (m : Maths) (p : TminiParser) : Piece → TminiParser
  | .packet bytes => p.acceptPacket m bytes 0
  | .bad _ => { p with errors := p.errors + 1, badScan := true }
  | .other _ => p

theorem feedTurn_eq (bytes : Bytes) (p : TminiParser) (offset : Nat) :
    feedTurn m bytes (p, offset)
      = (nextPiece (bytes.drop offset)).map fun r => (p.take m r.1, offset + r.2) := by
  have hlen : (bytes.drop offset).length = bytes.length - offset := List.length_drop
  have hsame := fun n => Same.drop n bytes offset
  unfold feedTurn nextPiece
  simp only [packetLength_drop bytes offset]
  by_cases hwait : (bytes.drop offset).length ≤ 1 ∨ packetLength (bytes.drop offset) 0 = 0 ∨
      packetLength (bytes.drop offset) 0 > (bytes.drop offset).length
  · rw [if_pos hwait, Option.map_none]
    by_cases hmore : offset + 1 < bytes.length
    · rw [if_pos hmore, if_pos (by omega)]
    · rw [if_neg hmore]
  rw [if_neg hwait, if_pos (by omega), if_neg (by omega)]
  by_cases hshort : packetLength (bytes.drop offset) 0 ≤ TIMESTAMP_BYTES
  · rw [if_pos hshort, if_neg (by omega)]
    rfl
  · have hown := (@packetLength_of_long (bytes.drop offset) 0 (by omega)).ge
    rw [if_neg hshort, if_pos (by omega), (hsame _).validPacket hown]
    by_cases hvalid : validPacket (bytes.drop offset) 0
    · have htake := (Same.take (packetLength (bytes.drop offset) 0) (bytes.drop offset)).acceptPacket
        (m := m) hown p
      rw [if_pos hvalid, if_pos hvalid, (hsame _).acceptPacket hown, ← htake]
      rfl
    · rw [if_neg hvalid, if_neg hvalid]
      rfl

theorem feedLoop_eq (bytes : Bytes) (turns : Nat) (p : TminiParser) (offset : Nat) :
    feedLoop m bytes turns (p, offset)
      = ((packetCutter.cutFor turns (bytes.drop offset)).1.foldl (take m) p,
          offset + (packetCutter.cutFor turns (bytes.drop offset)).2) := by
  induction turns generalizing p offset with
  | zero => rfl
  | succ turns ih =>
    unfold feedLoop
    rw [feedTurn_eq]
    cases hnext : nextPiece (bytes.drop offset) with
    | none =>
      rw [Cutter.cutFor_of_wait (c := packetCutter) hnext]
      rfl
    | some r =>
      obtain ⟨piece, k⟩ := r
      rw [Cutter.cutFor_of_next (c := packetCutter) hnext, Option.map_some]
      dsimp only
      rw [ih, List.drop_drop, List.foldl_cons, Nat.add_assoc]

/-- The fields that say what is held and how much has come. -/
def holding (p : TminiParser) (buffer : Bytes) (bytes : Nat) : TminiParser :=
  { p with buffer, bytes }

theorem finishScan_holding (p : TminiParser) (buffer : Bytes) (bytes : Nat) :
    (p.holding buffer bytes).finishScan = p.finishScan.holding buffer bytes := by
  unfold finishScan holding
  dsimp only
  split_ifs <;> rfl

theorem take_holding (p : TminiParser) (buffer : Bytes) (bytes : Nat) (piece : Piece) :
    (p.holding buffer bytes).take m piece = (p.take m piece).holding buffer bytes := by
  cases piece with
  | packet packet =>
    have hbegun := finishScan_holding { p with packets := p.packets + 1 } buffer bytes
    unfold take acceptPacket
    unfold holding at hbegun ⊢
    dsimp only at hbegun ⊢
    rw [hbegun]
    split_ifs <;> rfl
  | bad | other => rfl

theorem foldl_holding (pieces : List Piece) (p : TminiParser) (buffer : Bytes) (bytes : Nat) :
    pieces.foldl (take m) (p.holding buffer bytes)
      = (pieces.foldl (take m) p).holding buffer bytes := by
  induction pieces generalizing p with
  | nil => rfl
  | cons piece pieces ih => rw [List.foldl_cons, take_holding, ih, List.foldl_cons]

theorem left_short (bytes : Bytes) : (packetCutter.left bytes).length ≤ 774 := by
  have hwait : nextPiece (packetCutter.left bytes) = none :=
    Cutter.next_left (c := packetCutter) bytes
  have hle := packetLength_le (packetCutter.left bytes) 0
  unfold nextPiece at hwait
  by_contra hlong
  have hhead : packetLength (packetCutter.left bytes) 0 ≠ 0 := by
    unfold packetLength HEADER_BYTES TIMESTAMP_BYTES
    split_ifs <;> omega
  rw [if_neg (by omega)] at hwait
  split_ifs at hwait

theorem feed_eq (p : TminiParser) (chunk : Bytes) :
    p.feed m chunk
      = ((packetCutter.pieces (p.buffer ++ chunk)).foldl (take m) p).holding
          (packetCutter.left (p.buffer ++ chunk)) (p.bytes + chunk.length) := by
  have hread := feedLoop_eq (m := m) (p.buffer ++ chunk) (p.buffer ++ chunk).length
    (p.holding p.buffer (p.bytes + chunk.length)) 0
  have hkept : (p.buffer ++ chunk).drop (packetCutter.taken (p.buffer ++ chunk))
      = packetCutter.left (p.buffer ++ chunk) := rfl
  have hstart : ({ p with bytes := p.bytes + chunk.length } : TminiParser)
      = p.holding p.buffer (p.bytes + chunk.length) := rfl
  have htaken : (packetCutter.cutFor (p.buffer ++ chunk).length (p.buffer ++ chunk)).2
      = packetCutter.taken (p.buffer ++ chunk) := rfl
  have hshort := left_short (p.buffer ++ chunk)
  rw [List.drop_zero, foldl_holding, Nat.zero_add, htaken] at hread
  unfold feed
  dsimp only
  rw [hstart, hread]
  dsimp only
  rw [hkept, if_neg (by unfold MAX_BUFFER_BYTES; omega)]
  rfl

theorem feedAll_eq (chunks : List Bytes) :
    feedAll m chunks
      = ((packetCutter.pieces chunks.flatten).foldl (take m) new).holding
          (packetCutter.left chunks.flatten) chunks.flatten.length := by
  induction chunks using List.reverseRecOn with
  | nil => rfl
  | append_singleton chunks chunk ih =>
    have hcut := Cutter.cut_append (c := packetCutter) chunks.flatten chunk
    have hall : feedAll m (chunks ++ [chunk]) = (feedAll m chunks).feed m chunk := by
      unfold feedAll
      rw [List.foldl_append]
      rfl
    have hflat : (chunks ++ [chunk]).flatten = chunks.flatten ++ chunk := by simp
    rw [hall, ih, feed_eq, hflat, hcut.1, hcut.2, List.length_append, List.foldl_append,
      foldl_holding]
    rfl

end TminiParser

/-- Less than one packet: at most a byte, or the beginning of a timestamp block
or of a packet whose end has not come. -/
def Incomplete (bytes : Bytes) : Prop :=
  bytes.length ≤ 1 ∨
    byteAt bytes 0 = 0xaa ∧
      (byteAt bytes 1 = 0x66 ∧ bytes.length < TIMESTAMP_BYTES ∨
        byteAt bytes 1 = 0x55 ∧
          (bytes.length < HEADER_BYTES ∨
            bytes.length < HEADER_BYTES + SAMPLE_BYTES * byteAt bytes 3))

theorem incomplete_of_wait {bytes : Bytes} (h : nextPiece bytes = none) : Incomplete bytes := by
  unfold Incomplete
  by_cases hshort : bytes.length ≤ 1
  · exact Or.inl hshort
  refine Or.inr ?_
  unfold nextPiece at h
  have hwait : packetLength bytes 0 = 0 ∨ packetLength bytes 0 > bytes.length := by
    by_contra hnot
    rw [if_neg (by omega)] at h
    split_ifs at h
  revert hwait
  unfold packetLength
  simp only [Nat.zero_add]
  split_ifs with haa hstamp hpacket hhead
  · intro hwait
    exact absurd (hwait.resolve_left id) (by omega)
  · intro hwait
    unfold TIMESTAMP_BYTES at hwait ⊢
    exact ⟨by omega, Or.inl ⟨hstamp, by omega⟩⟩
  · intro hwait
    exact absurd (hwait.resolve_left id) (by omega)
  · exact fun _ => ⟨by omega, Or.inr ⟨by omega, Or.inl hhead⟩⟩
  · intro hwait
    have hpos : 0 < HEADER_BYTES := by decide
    exact ⟨by omega, Or.inr ⟨by omega, Or.inr (by omega)⟩⟩

/-! ## Scans -/

/-- A packet that begins a turn of the scanner. -/
def Piece.StartsScan : Piece → Prop
  | .packet bytes => byteAt bytes 2 &&& 1 ≠ 0
  | .bad _ | .other _ => False

def Piece.IsBad : Piece → Prop
  | .bad _ => True
  | .packet _ | .other _ => False

def Piece.points (m : Maths) : Piece → List ScanPoint
  | .packet bytes => packetPoints m bytes 0
  | .bad _ | .other _ => []

/-- A scan is what came from one start of a turn to the next, and nothing that
came between failed its check. -/
def IsTurn (m : Maths) (pieces : List Piece) (scan : List ScanPoint) : Prop :=
  ∃ before first between last after,
    pieces = before ++ first :: between ++ last :: after ∧
      first.StartsScan ∧ last.StartsScan ∧
      (∀ piece ∈ between, ¬ piece.StartsScan ∧ ¬ piece.IsBad) ∧
      scan = (first :: between).flatMap (Piece.points m)

theorem IsTurn.append {pieces : List Piece} {scan : List ScanPoint} (h : IsTurn m pieces scan)
    (more : List Piece) : IsTurn m (pieces ++ more) scan := by
  obtain ⟨before, first, between, last, after, rfl, hturn⟩ := h
  exact ⟨before, first, between, last, after ++ more, by simp, hturn⟩

def InRange (point : ScanPoint) : Prop :=
  MIN_RANGE_METRES ≤ point.r ∧ point.r ≤ MAX_RANGE_METRES

theorem points_inRange (piece : Piece) : ∀ point ∈ piece.points m, InRange point := by
  intro point hpoint
  cases piece with
  | packet bytes =>
    unfold Piece.points packetPoints at hpoint
    obtain ⟨i, -, hi⟩ := List.mem_filterMap.mp hpoint
    dsimp only at hi
    -- the angle has a case split of its own
    split_ifs at hi with hmeasured
    all_goals
      obtain rfl := Option.some.inj hi
      exact hmeasured
  | bad | other => exact absurd hpoint (by simp [Piece.points])

theorem IsTurn.inRange {pieces : List Piece} {scan : List ScanPoint} (h : IsTurn m pieces scan) :
    ∀ point ∈ scan, InRange point := by
  obtain ⟨before, first, between, last, after, -, -, -, -, rfl⟩ := h
  intro point hpoint
  obtain ⟨piece, -, hpiece⟩ := List.mem_flatMap.mp hpoint
  exact points_inRange piece point hpiece

/-- What a parser knows after the pieces `done`. -/
structure Reads (m : Maths) (done : List Piece) (p : TminiParser) : Prop where
  told : ∀ scan ∈ p.emitted, IsTurn m done scan ∧
    MIN_SCAN_POINTS ≤ scan.length ∧ scan.length ≤ MAX_SCAN_POINTS
  counted : p.scans = p.emitted.length
  /-- In step with the scanner, it holds the points of the turn so far. -/
  turning : p.synced = true → ∃ before first between,
    done = before ++ first :: between ∧ first.StartsScan ∧
      (∀ piece ∈ between, ¬ piece.StartsScan) ∧
      (p.badScan = false → ∀ piece ∈ between, ¬ piece.IsBad) ∧
      p.points = (first :: between).flatMap (Piece.points m)

namespace Reads

variable {done : List Piece} {p : TminiParser}

theorem told_append (h : Reads m done p) (piece : Piece) :
    ∀ scan ∈ p.emitted, IsTurn m (done ++ [piece]) scan ∧
      MIN_SCAN_POINTS ≤ scan.length ∧ scan.length ≤ MAX_SCAN_POINTS :=
  fun scan hscan => ⟨(h.told scan hscan).1.append [piece], (h.told scan hscan).2⟩

theorem turning_append (h : Reads m done p) {piece : Piece} (hno : ¬ piece.StartsScan)
    (hsynced : p.synced = true) :
    ∃ before first between, done ++ [piece] = before ++ first :: between ∧ first.StartsScan ∧
      (∀ piece ∈ between, ¬ piece.StartsScan) ∧
      (p.badScan = false → ¬ piece.IsBad → ∀ piece ∈ between, ¬ piece.IsBad) ∧
      p.points ++ piece.points m = (first :: between).flatMap (Piece.points m) := by
  obtain ⟨before, first, between, hdone, hfirst, hbetween, hbad, hpoints⟩ := h.turning hsynced
  refine ⟨before, first, between ++ [piece], by simp [hdone], hfirst, ?_, ?_, by simp [hpoints]⟩
  · intro other hother
    rcases List.mem_append.mp hother with hother | hother
    · exact hbetween other hother
    · rw [List.mem_singleton.mp hother]
      exact hno
  · intro hgood hpiece other hother
    rcases List.mem_append.mp hother with hother | hother
    · exact hbad hgood other hother
    · rw [List.mem_singleton.mp hother]
      exact hpiece

theorem finishScan (h : Reads m done p) {piece : Piece} (hstart : piece.StartsScan) :
    (∀ scan ∈ p.finishScan.emitted, IsTurn m (done ++ [piece]) scan ∧
        MIN_SCAN_POINTS ≤ scan.length ∧ scan.length ≤ MAX_SCAN_POINTS) ∧
      p.finishScan.scans = p.finishScan.emitted.length := by
  have htold := h.told_append piece
  unfold TminiParser.finishScan
  dsimp only
  split_ifs with hsynced hgood
  · obtain ⟨before, first, between, hdone, hfirst, hbetween, hbad, hpoints⟩ := h.turning hsynced
    have hclean := hbad (by simpa using hgood.1)
    have hturn : IsTurn m (done ++ [piece]) p.points :=
      ⟨before, first, between, piece, [], by simp [hdone], hfirst, hstart,
        fun other hother => ⟨hbetween other hother, hclean other hother⟩, hpoints⟩
    constructor
    · intro scan hscan
      rcases List.mem_append.mp hscan with hscan | hscan
      · exact htold scan hscan
      · rw [List.mem_singleton.mp hscan]
        exact ⟨hturn, hgood.2⟩
    · rw [List.length_append, List.length_singleton, ← h.counted]
  · exact ⟨htold, h.counted⟩
  · exact ⟨htold, h.counted⟩

theorem take (h : Reads m done p) (piece : Piece) : Reads m (done ++ [piece]) (p.take m piece) := by
  have htold := h.told_append piece
  cases piece with
  | other bytes =>
    refine ⟨htold, h.counted, fun hsynced => ?_⟩
    obtain ⟨before, first, between, hdone, hfirst, hbetween, hbad, hpoints⟩ :=
      @Reads.turning_append _ _ _ h (.other bytes) (fun hstart => hstart) hsynced
    have hpoints' : p.points = (first :: between).flatMap (Piece.points m) := by
      rwa [show Piece.points m (.other bytes) = [] from rfl, List.append_nil] at hpoints
    exact ⟨before, first, between, hdone, hfirst, hbetween, fun hgood => hbad hgood id, hpoints'⟩
  | bad bytes =>
    refine ⟨htold, h.counted, fun hsynced => ?_⟩
    obtain ⟨before, first, between, hdone, hfirst, hbetween, -, hpoints⟩ :=
      @Reads.turning_append _ _ _ h (.bad bytes) (fun hstart => hstart) hsynced
    have hpoints' : p.points = (first :: between).flatMap (Piece.points m) := by
      rwa [show Piece.points m (.bad bytes) = [] from rfl, List.append_nil] at hpoints
    exact ⟨before, first, between, hdone, hfirst, hbetween,
      fun hgood => absurd hgood (by simp [TminiParser.take]), hpoints'⟩
  | packet bytes =>
    have hcounted : Reads m done { p with packets := p.packets + 1 } :=
      ⟨h.told, h.counted, h.turning⟩
    unfold TminiParser.take TminiParser.acceptPacket
    by_cases hstart : byteAt bytes (0 + 2) &&& 1 ≠ 0
    · have hfinish := @Reads.finishScan _ _ _ hcounted (.packet bytes) hstart
      have hpoints : (TminiParser.finishScan { p with packets := p.packets + 1 }).points = [] := rfl
      simp only [if_pos hstart]
      split_ifs
      · exact ⟨hfinish.1, hfinish.2, fun hsynced => nomatch hsynced⟩
      · refine ⟨hfinish.1, hfinish.2, fun _ => ⟨done, .packet bytes, [], rfl, hstart, ?_, ?_, ?_⟩⟩
        · simp
        · simp
        · dsimp only
          rw [hpoints, List.nil_append]
          simp [Piece.points]
    · simp only [if_neg hstart]
      split_ifs
      · exact ⟨htold, h.counted, fun hsynced => nomatch hsynced⟩
      · refine ⟨htold, h.counted, fun hsynced => ?_⟩
        obtain ⟨before, first, between, hdone, hfirst, hbetween, hbad, hpoints⟩ :=
          @Reads.turning_append _ _ _ h (.packet bytes) hstart hsynced
        exact ⟨before, first, between, hdone, hfirst, hbetween, fun hgood => hbad hgood id, hpoints⟩

end Reads

theorem reads_foldl (m : Maths) (pieces : List Piece) :
    Reads m pieces (pieces.foldl (TminiParser.take m) TminiParser.new) := by
  induction pieces using List.reverseRecOn with
  | nil => exact ⟨by simp [TminiParser.new], rfl, fun hsynced => nomatch hsynced⟩
  | append_singleton pieces piece ih =>
    rw [List.foldl_append]
    exact ih.take piece

/-- However a stream is divided, the parser does what it does with the whole of
it at once; every scan it tells is one turn of the scanner, made of packets that
passed their check; and each chunk is read to its end but for less than a
packet. -/
theorem chunks_make_no_difference (m : Maths) (chunks : List Bytes) :
    TminiParser.feedAll m chunks = TminiParser.new.feed m chunks.flatten ∧
      (∀ scan ∈ (TminiParser.feedAll m chunks).emitted,
        MIN_SCAN_POINTS ≤ scan.length ∧ scan.length ≤ MAX_SCAN_POINTS ∧
          (∀ point ∈ scan, InRange point) ∧
          IsTurn m (packetCutter.pieces chunks.flatten) scan) ∧
      (packetCutter.pieces chunks.flatten).flatMap Piece.spell
          ++ packetCutter.left chunks.flatten = chunks.flatten ∧
      (∀ piece ∈ packetCutter.pieces chunks.flatten, piece.Sound) ∧
      (TminiParser.feedAll m chunks).scans = (TminiParser.feedAll m chunks).emitted.length ∧
      ∀ chunk : Bytes,
        let p := TminiParser.feedAll m chunks
        let bytes := p.buffer ++ chunk
        let start := ({ p with bytes := p.bytes + chunk.length }, 0)
        TminiParser.feedTurn m bytes (TminiParser.feedLoop m bytes bytes.length start) = none ∧
          Incomplete (p.feed m chunk).buffer ∧ (p.feed m chunk).buffer <:+ bytes := by
  have hall := TminiParser.feedAll_eq (m := m) chunks
  have hreads := reads_foldl m (packetCutter.pieces chunks.flatten)
  refine ⟨?_, ?_, Cutter.pieces_spell (c := packetCutter) (fun h => (nextPiece_bound h).2) _,
    Cutter.forall_pieces (c := packetCutter) nextPiece_sound _, ?_, ?_⟩
  · rw [hall, TminiParser.feed_eq]
    simp [TminiParser.new]
  · intro scan hscan
    rw [hall] at hscan
    obtain ⟨hturn, hlength⟩ := hreads.told scan hscan
    exact ⟨hlength.1, hlength.2, hturn.inRange, hturn⟩
  · rw [hall]
    exact hreads.counted
  · intro chunk p bytes start
    have hleft : nextPiece (packetCutter.left bytes) = none :=
      Cutter.next_left (c := packetCutter) bytes
    have hbuffer : (p.feed m chunk).buffer = packetCutter.left bytes := by
      rw [TminiParser.feed_eq]
      rfl
    rw [hbuffer]
    refine ⟨?_, incomplete_of_wait hleft, List.drop_suffix _ _⟩
    rw [TminiParser.feedLoop_eq, TminiParser.feedTurn_eq, List.drop_zero, Nat.zero_add]
    change Option.map _ (nextPiece (packetCutter.left bytes)) = none
    rw [hleft]
    rfl

end Questix.LabPage.UsbProtocol
