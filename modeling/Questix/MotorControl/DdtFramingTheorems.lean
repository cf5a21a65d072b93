/-
Questix.MotorControl.DdtFramingTheorems — the response that is found in the
bytes of the motor bus.

What the specification finds is said of the whole stream (`leftmostFrame`), and
does not know of reads. The loop holds back an unfinished frame; whatever may
follow, the stream has the same leftmost response as the held bytes alone
(`pushByte_pending`). So no byte is given up that a response could start with,
and where the stream is cut plays no role.
-/
import Questix.MotorControl.DdtTransport

namespace Questix.MotorControl.DdtMotorLib

open Questix.Lib

/-! ## The specification -/

/-- A response of the motor: ten bytes, its id first, a valid CRC last. -/
def IsFrame (id : UInt8) (w : List UInt8) : Prop :=
  w.length = 10 ∧ w.head? = some id ∧ DdtProtocol.crc8Maxim (w.take 9) = w.getD 9 0

instance (id : UInt8) (w : List UInt8) : Decidable (IsFrame id w) :=
  inferInstanceAs (Decidable (_ ∧ _ ∧ _))

/-- The first response in a stream. -/
def leftmostFrame (id : UInt8) : List UInt8 → Option (List UInt8)
  | [] => none
  | b :: bs =>
    if IsFrame id ((b :: bs).take 10) then some ((b :: bs).take 10) else leftmostFrame id bs

/-- No read gets more than it asks for. -/
def Fits (expected : UInt8) : List UInt8 → List (List UInt8) → Prop
  | _, [] => True
  | frame, bytes :: reads =>
    bytes.length ≤ 10 - frame.length ∧
      ((pushBytes expected frame bytes).1 = false →
        Fits expected (pushBytes expected frame bytes).2 reads)

section Frames

variable {id : UInt8} {w frame bytes rest : List UInt8}

theorem leftmostFrame_cons_of_ne {b : UInt8} (h : b ≠ id) :
    leftmostFrame id (b :: rest) = leftmostFrame id rest := by
  rw [leftmostFrame, if_neg]
  rintro ⟨-, hhead, -⟩
  simp only [List.take_succ_cons, List.head?_cons, Option.some.injEq] at hhead
  exact h hhead

theorem leftmostFrame_append (h : IsFrame id w) : leftmostFrame id (w ++ rest) = some w := by
  obtain ⟨b, bs, rfl⟩ := List.exists_cons_of_length_eq_add_one h.1
  have htake : ((b :: bs) ++ rest).take 10 = b :: bs := by
    rw [← h.1]
    exact List.take_left
  rw [List.cons_append] at htake ⊢
  rw [leftmostFrame, htake, if_pos h]

theorem leftmostFrame_append_of_not (hlength : w.length = 10) (h : ¬ IsFrame id w) :
    leftmostFrame id (w ++ rest) = leftmostFrame id (w.drop 1 ++ rest) := by
  obtain ⟨b, bs, rfl⟩ := List.exists_cons_of_length_eq_add_one hlength
  have htake : ((b :: bs) ++ rest).take 10 = b :: bs := by
    rw [← hlength]
    exact List.take_left
  rw [List.cons_append] at htake ⊢
  rw [leftmostFrame, htake, if_neg h]
  rfl

theorem leftmostFrame_dropWhile :
    leftmostFrame id (w.dropWhile (· ≠ id) ++ rest) = leftmostFrame id (w ++ rest) := by
  induction w with
  | nil => rfl
  | cons b bs ih =>
    by_cases hb : b = id
    · rw [List.dropWhile_cons_of_neg (by simpa using hb)]
    · rw [List.dropWhile_cons_of_pos (by simpa using hb), ih, List.cons_append,
        leftmostFrame_cons_of_ne hb]

theorem leftmostFrame_of_short (h : w.length < 10) : leftmostFrame id w = none := by
  induction w with
  | nil => rfl
  | cons b bs ih =>
    rw [leftmostFrame, if_neg]
    · exact ih (by rw [List.length_cons] at h; omega)
    · rintro ⟨hlength, -⟩
      rw [List.length_take] at hlength
      omega

/-! ## The loop -/

/-- What the loop may hold back: nothing, or the start of a response. -/
def Pending (id : UInt8) (frame : List UInt8) : Prop :=
  frame.length < 10 ∧ (frame = [] ∨ frame.head? = some id)

theorem pending_nil : Pending id [] := ⟨by decide, .inl rfl⟩

theorem pending_dropWhile (h : w.length < 10) : Pending id (w.dropWhile (· ≠ id)) := by
  refine ⟨(List.dropWhile_sublist _).length_le.trans_lt h, ?_⟩
  cases hdrop : w.dropWhile (· ≠ id) with
  | nil => exact .inl rfl
  | cons b bs =>
    right
    have hb := List.head?_dropWhile_not (fun b => decide (b ≠ id)) w
    rw [hdrop] at hb
    simpa using hb

/-- What the loop makes of a byte. -/
inductive Pushes (id : UInt8) (frame : List UInt8) (b : UInt8) : Bool × List UInt8 → Prop
  | skips (hframe : frame = []) (hb : b ≠ id) : Pushes id frame b (false, [])
  | grows (hpending : Pending id (frame ++ [b])) : Pushes id frame b (false, frame ++ [b])
  | finds (hfound : IsFrame id (frame ++ [b])) : Pushes id frame b (true, frame ++ [b])
  | slides (hlength : (frame ++ [b]).length = 10) (hnot : ¬ IsFrame id (frame ++ [b])) :
    Pushes id frame b (false, ((frame ++ [b]).drop 1).dropWhile (· ≠ id))

theorem pushByte_pushes (b : UInt8) (hpending : Pending id frame) :
    Pushes id frame b (pushByte id frame b) := by
  obtain ⟨hlength, hstart⟩ := hpending
  unfold pushByte
  dsimp only
  split_ifs with hskip hfull hcrc
  · obtain ⟨rfl, hb⟩ := hskip
    exact .skips rfl hb
  · refine .finds ⟨?_, ?_, hcrc⟩
    · rw [List.length_append, List.length_singleton] at hfull ⊢
      omega
    · rcases hstart with rfl | hstart
      · simp at hfull
      · rw [List.head?_append, hstart]
        rfl
  · refine .slides ?_ fun hframe => hcrc hframe.2.2
    rw [List.length_append, List.length_singleton] at hfull ⊢
    omega
  · refine .grows ⟨not_le.1 hfull, .inr ?_⟩
    rcases hstart with rfl | hstart
    · have hb : b = id := not_not.1 fun hb => hskip ⟨rfl, hb⟩
      rw [hb]
      rfl
    · rw [List.head?_append, hstart]
      rfl

theorem pushBytes_spec (rest : List UInt8) : ∀ (bytes frame : List UInt8), Pending id frame →
    ((pushBytes id frame bytes).1 = true →
      leftmostFrame id (frame ++ (bytes ++ rest)) = some (pushBytes id frame bytes).2) ∧
    ((pushBytes id frame bytes).1 = false →
      Pending id (pushBytes id frame bytes).2 ∧
        leftmostFrame id (frame ++ (bytes ++ rest)) =
          leftmostFrame id ((pushBytes id frame bytes).2 ++ rest)) := by
  intro bytes
  induction bytes with
  | nil => exact fun frame hpending => ⟨nofun, fun _ => ⟨hpending, rfl⟩⟩
  | cons b bytes ih =>
    intro frame hpending
    have hcons : frame ++ (b :: bytes ++ rest) = (frame ++ [b]) ++ (bytes ++ rest) := by simp
    have hpushes := pushByte_pushes b hpending
    rw [pushBytes, hcons]
    generalize pushByte id frame b = result at hpushes
    cases hpushes with
    | skips hframe hb =>
      subst hframe
      rw [List.nil_append, List.singleton_append, leftmostFrame_cons_of_ne hb]
      exact ih [] pending_nil
    | grows hgrown => exact ih _ hgrown
    | finds hfound => exact ⟨fun _ => leftmostFrame_append hfound, nofun⟩
    | slides hlength hnot =>
      have hshort : ((frame ++ [b]).drop 1).length < 10 := by
        rw [List.length_drop]
        omega
      rw [leftmostFrame_append_of_not hlength hnot, ← leftmostFrame_dropWhile]
      exact ih _ (pending_dropWhile hshort)

theorem collectFrame_pending : ∀ (reads : List (List UInt8)) (frame : List UInt8),
    Pending id frame → Fits id frame reads →
      collectFrame id reads frame = leftmostFrame id (frame ++ reads.flatten) := by
  intro reads
  induction reads with
  | nil =>
    intro frame hpending _
    rw [List.flatten_nil, List.append_nil, leftmostFrame_of_short hpending.1]
    rfl
  | cons bytes reads ih =>
    intro frame hpending hfits
    obtain ⟨hlength, hrest⟩ := hfits
    have hspec := pushBytes_spec reads.flatten bytes frame hpending
    rw [collectFrame, List.take_of_length_le hlength, List.flatten_cons]
    cases hresult : pushBytes id frame bytes with
    | mk found frame' =>
      rw [hresult] at hspec hrest
      cases found with
      | true => exact (hspec.1 rfl).symm
      | false =>
        obtain ⟨hpending', hsame⟩ := hspec.2 rfl
        rw [hsame]
        exact ih frame' hpending' (hrest rfl)

end Frames

/-! ## The result -/

/-- The result is the leftmost response of the stream, or there is none. -/
def Leftmost (id : UInt8) (stream : List UInt8) : Option (List UInt8) → Prop
  | some w => ∃ x y, stream = x ++ w ++ y ∧ IsFrame id w ∧
      ∀ x' w' y', stream = x' ++ w' ++ y' → IsFrame id w' → x.length ≤ x'.length
  | none => ∀ x w y, stream = x ++ w ++ y → ¬ IsFrame id w

theorem leftmost_leftmostFrame (id : UInt8) (stream : List UInt8) :
    Leftmost id stream (leftmostFrame id stream) := by
  induction stream with
  | nil =>
    intro x w y hsplit hframe
    have hlength := congrArg List.length hsplit
    simp only [List.length_append, List.length_nil, hframe.1] at hlength
    omega
  | cons b bs ih =>
    rw [leftmostFrame]
    split_ifs with hfirst
    · refine ⟨[], (b :: bs).drop 10, ?_, hfirst, fun x' _ _ _ _ => Nat.zero_le _⟩
      rw [List.nil_append, List.take_append_drop]
    · -- a response further on
      have htail : ∀ x w y, b :: bs = x ++ w ++ y → IsFrame id w →
          ∃ x₁, x = b :: x₁ ∧ bs = x₁ ++ w ++ y := by
        intro x w y hsplit hframe
        cases x with
        | nil =>
          refine absurd ?_ hfirst
          rw [hsplit, List.nil_append, ← hframe.1, List.take_left]
          exact hframe
        | cons c x₁ =>
          rw [List.cons_append, List.cons_append, List.cons.injEq] at hsplit
          exact ⟨x₁, by rw [hsplit.1], hsplit.2⟩
      cases hrest : leftmostFrame id bs with
      | none =>
        rw [hrest] at ih
        intro x w y hsplit hframe
        obtain ⟨x₁, -, hbs⟩ := htail x w y hsplit hframe
        exact ih x₁ w y hbs hframe
      | some w =>
        rw [hrest] at ih
        obtain ⟨x, y, hbs, hframe, hleftmost⟩ := ih
        refine ⟨b :: x, y, by rw [hbs]; rfl, hframe, ?_⟩
        intro x' w' y' hsplit hframe'
        obtain ⟨x₁, rfl, hbs'⟩ := htail x' w' y' hsplit hframe'
        exact Nat.succ_le_succ (hleftmost x₁ w' y' hbs' hframe')

/-- The response that is found is the leftmost one of the stream, if there is
any; how the stream is split into reads plays no role. -/
theorem readFeedbackFrame_leftmost (lib : DdtMotorLib) (motorId : Int)
    (reads : List (List UInt8)) (later : List (List (List UInt8)))
    (hopen : lib.serialOpen = true) (hport : lib.port.received = reads :: later)
    (hfits : Fits (wireId motorId) [] reads) :
    (readFeedbackFrame motorId lib).1 = leftmostFrame (wireId motorId) reads.flatten ∧
      Leftmost (wireId motorId) reads.flatten (readFeedbackFrame motorId lib).1 := by
  have hcollect : (readFeedbackFrame motorId lib).1 = collectFrame (wireId motorId) reads [] := by
    simp [readFeedbackFrame, answer, Port.nextReceived, nextAnswer, hopen, hport, bind, get,
      getThe, MonadStateOf.get, pure]
  rw [hcollect, collectFrame_pending reads [] pending_nil hfits, List.nil_append]
  exact ⟨rfl, leftmost_leftmostFrame _ _⟩

/-- A byte of noise, a false start, and the response behind it, in three reads. -/
theorem readFeedbackFrame_leftmost_resync :
    leftmostFrame 1 [7, 1, 9, 1, 2, 0, 0, 0, 1, 0, 0, 0, 0xAD] =
        some [1, 2, 0, 0, 0, 1, 0, 0, 0, 0xAD] ∧
      (readFeedbackFrame 1
        { serialOpen := true
          port :=
            { received := [[[7, 1, 9, 1, 2, 0, 0], [0, 1, 0, 0], [0, 0xAD]]] } }).1 =
        leftmostFrame 1 [7, 1, 9, 1, 2, 0, 0, 0, 1, 0, 0, 0, 0xAD] :=
  ⟨by decide +kernel, (readFeedbackFrame_leftmost _ 1
    [[7, 1, 9, 1, 2, 0, 0], [0, 1, 0, 0], [0, 0xAD]] [] rfl rfl
    ⟨by decide, fun _ => ⟨by decide +kernel, fun _ => ⟨by decide +kernel, fun _ => trivial⟩⟩⟩).1⟩

end Questix.MotorControl.DdtMotorLib
