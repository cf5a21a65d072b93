/-
Questix.EscMotorControl.PwmCommand — the pulses of the ESC: `pwm_command.hpp`.

The backend is a parameter: a type `B` of its states and the calls of
`pwm_backend.hpp` that `PwmCommand` makes on it (`PwmBackend`). What is proved
over every `B` holds for every pattern of accepted and failed calls, and
whatever the backend does between two requests (`Event.backend`).

A request is a computation that lets out its calls on the backend with their
results, and its log lines.
-/
import Questix.Lib.Act
import Questix.Lib.Dbl

namespace Questix.EscMotorControl

open Questix.Lib

/-- The calls made on a backend; the `Bool` of a call is whether it was
accepted. -/
class PwmBackend (B : Type) where
  setServoPulse : B → ℤ → ℤ → B × Bool
  stopSignal : B → ℤ → B × Bool
  lastError : B → ℤ
  terminal : B → Bool
  name : B → String

structure PwmCommand where
  pwmFault : Bool := false
  terminalLow : Bool := false
  /-- Unknown until a backend operation succeeds. -/
  appliedPulseUs : ℤ := -1
  requestedPulseUs : ℤ := -1
  deriving DecidableEq

/-- What a request lets out. -/
inductive PwmNote where
  | setServoPulse (pin pulseUs : ℤ) (accepted : Bool)
  | stopSignal (pin : ℤ) (accepted : Bool)
  | changed (before after : ℤ) (speed : Dbl)
  | error (code : ℤ)
  deriving DecidableEq

/-- The commands and the backend they go to. -/
structure PwmOwner (B : Type) where
  command : PwmCommand := {}
  backend : B

namespace PwmCommand

variable {B : Type} [PwmBackend B]

def EINVAL : ℤ := 22

def validPulse (pulseUs : ℤ) : Bool := pulseUs = 0 || (500 ≤ pulseUs && pulseUs ≤ 2500)

def modifyCommand (f : PwmCommand → PwmCommand) : Act (PwmOwner B) PwmNote Unit :=
  modify fun s => { s with command := f s.command }

def attempt (pin pulseUs : ℤ) : Act (PwmOwner B) PwmNote Bool := do
  let s ← get
  let (backend, accepted) := PwmBackend.setServoPulse s.backend pin pulseUs
  set { s with backend := backend }
  Act.emit (.setServoPulse pin pulseUs accepted)
  if accepted then
    modifyCommand fun c => { c with appliedPulseUs := pulseUs }
    return true
  else
    modifyCommand fun c => { c with pwmFault := true }
    Act.emit (.error (PwmBackend.lastError backend))
    return false

/-- The fallback: the signal is stopped for good. -/
def stopFailedNeutral (pin : ℤ) : Act (PwmOwner B) PwmNote Unit := do
  let s ← get
  let (backend, accepted) := PwmBackend.stopSignal s.backend pin
  set { s with backend := backend }
  Act.emit (.stopSignal pin accepted)
  if accepted then
    modifyCommand fun c => { c with appliedPulseUs := 0, terminalLow := true }
  else Act.emit (.error (PwmBackend.lastError backend))

def send (pin pulseUs : ℤ) (speed : Dbl) : Act (PwmOwner B) PwmNote Bool := do
  let s ← get
  if (PwmBackend.terminal s.backend || s.command.terminalLow) && pulseUs ≠ 0 then
    modifyCommand fun c => { c with pwmFault := true }
    return false
  else if s.command.pwmFault && !Dbl.eq speed 0 then return false
  else if !validPulse pulseUs then
    modifyCommand fun c => { c with pwmFault := true }
    Act.emit (.error (-EINVAL))
    stopFailedNeutral pin
    return false
  else
    if s.command.requestedPulseUs ≠ pulseUs then
      Act.emit (.changed s.command.requestedPulseUs pulseUs speed)
      modifyCommand fun c => { c with requestedPulseUs := pulseUs }
    let sent ← attempt pin pulseUs
    let s ← get
    if sent then return true
    else if PwmBackend.name s.backend = "rp1_hw" || !Dbl.eq speed 0 then
      stopFailedNeutral pin
      return false
    else
      -- one immediate retry for a stop or arm request
      let resent ← attempt pin pulseUs
      if resent then return true
      else
        stopFailedNeutral pin
        return false

def initializePwm (pin neutralUs : ℤ) : Act (PwmOwner B) PwmNote Bool := do
  let sent ← send pin neutralUs 0
  let s ← get
  return sent && !s.command.pwmFault

def latchFault : Act (PwmOwner B) PwmNote Unit :=
  modifyCommand fun c => { c with pwmFault := true }

/-! ## Runs -/

/-- What the owner asks for; `backend` is the backend going on by itself. -/
inductive Event (B : Type) where
  | send (pin pulseUs : ℤ) (speed : Dbl)
  | arm (pin neutralUs : ℤ)
  | latchFault
  | backend (b : B)

def run : Event B → Act (PwmOwner B) PwmNote Unit
  | .send pin pulseUs speed => do
    let _ ← send pin pulseUs speed
  | .arm pin neutralUs => do
    let _ ← initializePwm pin neutralUs
  | .latchFault => latchFault
  | .backend b => modify fun s => { s with backend := b }

end PwmCommand

end Questix.EscMotorControl

/-! The pulses fail closed.

What the calls so far imply for the state (`Latched`) is kept by every request:
a failed call has latched the fault, an accepted stop the terminal low, and the
applied pulse is the last accepted one. A request of a nonzero speed after a
fault makes no call at all (`send_silent`). -/

namespace Questix.EscMotorControl

open Questix.Lib

namespace PwmNote

/-- A call on the backend, rather than a log line. -/
def isCall : PwmNote → Bool
  | .setServoPulse _ _ _ => true
  | .stopSignal _ _ => true
  | _ => false

/-- The backend has failed. -/
def failed : PwmNote → Bool
  | .setServoPulse _ _ accepted => !accepted
  | .stopSignal _ accepted => !accepted
  | _ => false

/-- The terminal low. -/
def lowers : PwmNote → Bool
  | .stopSignal _ accepted => accepted
  | _ => false

/-- No pulse but 0. -/
def quiet : PwmNote → Bool
  | .setServoPulse _ pulseUs _ => pulseUs = 0
  | _ => true

def valid : PwmNote → Bool
  | .setServoPulse _ pulseUs _ => PwmCommand.validPulse pulseUs
  | _ => true

/-- The pulse that is applied after the note, if `before` was. -/
def applied (before : ℤ) : PwmNote → ℤ
  | .setServoPulse _ pulseUs true => pulseUs
  | .stopSignal _ true => 0
  | _ => before

end PwmNote

namespace PwmCommand

variable {B : Type} {past : List PwmNote} {s : PwmOwner B} {pin pulseUs : ℤ} {speed : Dbl}

def accepted (past : List PwmNote) : ℤ := past.foldl PwmNote.applied (-1)

/-- What the calls so far imply. -/
structure Latched (past : List PwmNote) (s : PwmOwner B) : Prop where
  applied : s.command.appliedPulseUs = accepted past
  fault : (∃ n ∈ past, n.failed = true) → s.command.pwmFault = true
  low : (∃ n ∈ past, n.lowers = true) → s.command.terminalLow = true
  valid : ∀ n ∈ past, n.valid = true
  quiet : past.Pairwise fun n m => n.lowers = true → m.quiet = true

theorem Latched.emit {s' : PwmOwner B} {n : PwmNote} (h : Latched past s)
    (happlied : s'.command.appliedPulseUs = n.applied s.command.appliedPulseUs)
    (hfault : (s.command.pwmFault = true ∨ n.failed = true) → s'.command.pwmFault = true)
    (hlow : (s.command.terminalLow = true ∨ n.lowers = true) → s'.command.terminalLow = true)
    (hvalid : n.valid = true) (hquiet : s.command.terminalLow = true → n.quiet = true) :
    Latched (past ++ [n]) s' where
  applied := by rw [happlied, h.applied, accepted, accepted, List.foldl_append]; rfl
  fault := by
    rintro ⟨m, hm, hfailed⟩
    rcases List.mem_append.1 hm with hm | hm
    · exact hfault (.inl (h.fault ⟨m, hm, hfailed⟩))
    · rw [List.mem_singleton] at hm
      exact hfault (.inr (hm ▸ hfailed))
  low := by
    rintro ⟨m, hm, hlowers⟩
    rcases List.mem_append.1 hm with hm | hm
    · exact hlow (.inl (h.low ⟨m, hm, hlowers⟩))
    · rw [List.mem_singleton] at hm
      exact hlow (.inr (hm ▸ hlowers))
  valid := by
    intro m hm
    rcases List.mem_append.1 hm with hm | hm
    · exact h.valid m hm
    · rw [List.mem_singleton] at hm
      exact hm ▸ hvalid
  quiet := by
    refine List.pairwise_append.2 ⟨h.quiet, List.pairwise_singleton _ _, ?_⟩
    intro m hm m' hm' hlowers
    rw [List.mem_singleton] at hm'
    exact hm' ▸ hquiet (h.low ⟨m, hm, hlowers⟩)

theorem Latched.state {s' : PwmOwner B} (h : Latched past s)
    (happlied : s'.command.appliedPulseUs = s.command.appliedPulseUs)
    (hfault : s.command.pwmFault = true → s'.command.pwmFault = true)
    (hlow : s.command.terminalLow = true → s'.command.terminalLow = true) : Latched past s' :=
  ⟨happlied.trans h.applied, fun hn => hfault (h.fault hn), fun hn => hlow (h.low hn), h.valid,
    h.quiet⟩

theorem Latched.log {n : PwmNote} (h : Latched past s) (hn : n.isCall = false) :
    Latched (past ++ [n]) s := by
  cases n with
  | setServoPulse pin pulseUs accepted => cases hn
  | stopSignal pin accepted => cases hn
  | changed before after speed =>
    exact h.emit rfl (fun hf => hf.resolve_right nofun) (fun hl => hl.resolve_right nofun) rfl
      fun _ => rfl
  | error code =>
    exact h.emit rfl (fun hf => hf.resolve_right nofun) (fun hl => hl.resolve_right nofun) rfl
      fun _ => rfl

/-! ## The requests -/

/-- The pulse may go out: it is valid, and 0 after the terminal low. -/
def Allowed (pulseUs : ℤ) (s : PwmOwner B) : Prop :=
  validPulse pulseUs = true ∧ (s.command.terminalLow = true → pulseUs = 0)

theorem wp_modifyCommand {Q : Unit → List PwmNote → PwmOwner B → Prop}
    (f : PwmCommand → PwmCommand) :
    Act.wp (modifyCommand f) Q past s ↔ Q () past { s with command := f s.command } :=
  Act.wp_modify _

variable [PwmBackend B]

/-- One attempt, accepted or failed. -/
theorem wp_attempt {Q : Bool → List PwmNote → PwmOwner B → Prop}
    (accepted : ∀ backend, Q true (past ++ [.setServoPulse pin pulseUs true])
      ⟨{ s.command with appliedPulseUs := pulseUs }, backend⟩)
    (failed : ∀ backend code, Q false
      (past ++ [.setServoPulse pin pulseUs false] ++ [.error code])
      ⟨{ s.command with pwmFault := true }, backend⟩) :
    Act.wp (attempt pin pulseUs) Q past s := by
  cases hok : (PwmBackend.setServoPulse s.backend pin pulseUs).2 with
  | true =>
    have hrun : (attempt pin pulseUs : Act (PwmOwner B) PwmNote Bool) s =
        (true, ⟨{ s.command with appliedPulseUs := pulseUs },
          (PwmBackend.setServoPulse s.backend pin pulseUs).1⟩,
          [.setServoPulse pin pulseUs true]) := by
      simp [attempt, bind, pure, get, getThe, MonadStateOf.get, set, MonadStateOf.set, Act.emit,
        modifyCommand, modify, modifyGet, MonadStateOf.modifyGet, hok]
    rw [Act.wp, hrun]
    exact accepted _
  | false =>
    have hrun : (attempt pin pulseUs : Act (PwmOwner B) PwmNote Bool) s =
        (false, ⟨{ s.command with pwmFault := true },
          (PwmBackend.setServoPulse s.backend pin pulseUs).1⟩,
          [.setServoPulse pin pulseUs false,
            .error (PwmBackend.lastError (PwmBackend.setServoPulse s.backend pin pulseUs).1)]) := by
      simp [attempt, bind, pure, get, getThe, MonadStateOf.get, set, MonadStateOf.set, Act.emit,
        modifyCommand, modify, modifyGet, MonadStateOf.modifyGet, hok]
    rw [Act.wp, hrun]
    simpa using failed (PwmBackend.setServoPulse s.backend pin pulseUs).1
      (PwmBackend.lastError (PwmBackend.setServoPulse s.backend pin pulseUs).1)

/-- The fallback, accepted or failed. -/
theorem wp_stopFailedNeutral {Q : Unit → List PwmNote → PwmOwner B → Prop}
    (accepted : ∀ backend, Q () (past ++ [.stopSignal pin true])
      ⟨{ s.command with appliedPulseUs := 0, terminalLow := true }, backend⟩)
    (failed : ∀ backend code, Q () (past ++ [.stopSignal pin false] ++ [.error code])
      ⟨s.command, backend⟩) :
    Act.wp (stopFailedNeutral pin) Q past s := by
  cases hok : (PwmBackend.stopSignal s.backend pin).2 with
  | true =>
    have hrun : (stopFailedNeutral pin : Act (PwmOwner B) PwmNote Unit) s =
        ((), ⟨{ s.command with appliedPulseUs := 0, terminalLow := true },
          (PwmBackend.stopSignal s.backend pin).1⟩, [.stopSignal pin true]) := by
      simp [stopFailedNeutral, bind, get, getThe, MonadStateOf.get, set, MonadStateOf.set,
        Act.emit, modifyCommand, modify, modifyGet, MonadStateOf.modifyGet, hok]
    rw [Act.wp, hrun]
    exact accepted _
  | false =>
    have hrun : (stopFailedNeutral pin : Act (PwmOwner B) PwmNote Unit) s =
        ((), ⟨s.command, (PwmBackend.stopSignal s.backend pin).1⟩,
          [.stopSignal pin false,
            .error (PwmBackend.lastError (PwmBackend.stopSignal s.backend pin).1)]) := by
      simp [stopFailedNeutral, bind, get, getThe, MonadStateOf.get, set, MonadStateOf.set,
        Act.emit, hok]
    rw [Act.wp, hrun]
    simpa using failed (PwmBackend.stopSignal s.backend pin).1
      (PwmBackend.lastError (PwmBackend.stopSignal s.backend pin).1)

theorem attempt_latched (pin pulseUs : ℤ) :
    Act.Triple (fun past (s : PwmOwner B) => Latched past s ∧ Allowed pulseUs s)
      (attempt pin pulseUs)
      (fun sent past s => Latched past s ∧ Allowed pulseUs s ∧
        (sent = false → s.command.pwmFault = true)) := by
  rintro past s ⟨h, hvalid, hzero⟩
  have hquiet : ∀ ok, s.command.terminalLow = true →
      (PwmNote.setServoPulse pin pulseUs ok).quiet = true :=
    fun _ hlow => decide_eq_true (hzero hlow)
  refine wp_attempt ?_ ?_
  · intro backend
    refine ⟨?_, ⟨hvalid, hzero⟩, nofun⟩
    exact h.emit rfl (fun hf => hf.resolve_right nofun) (fun hl => hl.resolve_right nofun)
      hvalid (hquiet true)
  · intro backend code
    refine ⟨?_, ⟨hvalid, hzero⟩, fun _ => rfl⟩
    refine Latched.log ?_ rfl
    exact h.emit rfl (fun _ => rfl) (fun hl => hl.resolve_right nofun) hvalid (hquiet false)

theorem stopFailedNeutral_latched (pin : ℤ) :
    Act.Triple (fun past (s : PwmOwner B) => Latched past s ∧ s.command.pwmFault = true)
      (stopFailedNeutral pin) fun _ past s => Latched past s := by
  rintro past s ⟨h, hfault⟩
  refine wp_stopFailedNeutral ?_ ?_
  · intro backend
    exact h.emit rfl (fun _ => hfault) (fun _ => rfl) rfl fun _ => rfl
  · intro backend code
    refine Latched.log ?_ rfl
    exact h.emit rfl (fun _ => hfault) (fun hl => hl.resolve_right nofun) rfl fun _ => rfl

theorem send_latched (pin pulseUs : ℤ) (speed : Dbl) :
    Act.Triple (Latched (B := B)) (send pin pulseUs speed) fun _ past s => Latched past s := by
  intro past s h
  -- the attempts, once the request has passed the checks
  have htries : ∀ past (s : PwmOwner B), Latched past s → Allowed pulseUs s →
      Act.wp (attempt pin pulseUs) (fun sent past s =>
        if sent = true then Latched past s
        else if (decide (PwmBackend.name s.backend = "rp1_hw") || !speed.eq 0) = true then
          Act.wp (stopFailedNeutral pin) (fun _ past s => Latched past s) past s
        else Act.wp (attempt pin pulseUs) (fun resent past s =>
          if resent = true then Latched past s
          else Act.wp (stopFailedNeutral pin) (fun _ past s => Latched past s) past s) past s)
        past s := by
    intro past s h hallowed
    refine Act.wp_mono (attempt_latched pin pulseUs past s ⟨h, hallowed⟩) ?_
    rintro sent past s ⟨h, hallowed, hfault⟩
    split
    · exact h
    · rename_i hsent
      have hfault := hfault (Bool.eq_false_iff.2 hsent)
      split
      · exact stopFailedNeutral_latched pin past s ⟨h, hfault⟩
      · refine Act.wp_mono (attempt_latched pin pulseUs past s ⟨h, hallowed⟩) ?_
        rintro resent past s ⟨h, -, hfault⟩
        split
        · exact h
        · rename_i hresent
          exact stopFailedNeutral_latched pin past s ⟨h, hfault (Bool.eq_false_iff.2 hresent)⟩
  unfold send
  simp only [Act.wp_bind, Act.wp_get, Act.wp_ite, Act.wp_pure, Act.wp_emit, wp_modifyCommand]
  split
  · exact h.state rfl (fun _ => rfl) id
  · rename_i hterminal
    split
    · exact h
    · split
      · refine stopFailedNeutral_latched pin _ _ ⟨Latched.log ?_ rfl, rfl⟩
        exact h.state rfl (fun _ => rfl) id
      · rename_i hinvalid
        have hallowed : Allowed pulseUs s := by
          refine ⟨by simpa using hinvalid, ?_⟩
          intro hlow
          by_contra hpulse
          simp [hlow, hpulse] at hterminal
        split
        · refine htries _ _ ?_ hallowed
          exact (h.log rfl).state rfl id id
        · exact htries _ _ h hallowed

theorem send_silent (pin pulseUs : ℤ) (hfault : s.command.pwmFault = true)
    (hspeed : Dbl.eq speed 0 = false) : (send pin pulseUs speed s).2.2 = [] := by
  have hsilent : Act.wp (send pin pulseUs speed) (fun _ past _ => past = []) [] s := by
    unfold send
    simp only [Act.wp_bind, Act.wp_get, Act.wp_ite, Act.wp_pure, wp_modifyCommand]
    split
    · trivial
    · rw [if_pos (by simp [hfault, hspeed])]
      trivial
  simpa [Act.wp] using hsilent

theorem run_latched (e : Event B) :
    Act.Triple (Latched (B := B)) (run e) fun _ past s => Latched past s := by
  intro past s h
  cases e with
  | send pin pulseUs speed =>
    simp only [run, Act.wp_bind, Act.wp_pure]
    exact send_latched pin pulseUs speed past s h
  | arm pin neutralUs =>
    simp only [run, initializePwm, Act.wp_bind, Act.wp_get, Act.wp_pure]
    exact send_latched pin neutralUs 0 past s h
  | latchFault =>
    simp only [run, latchFault, wp_modifyCommand]
    exact h.state rfl (fun _ => rfl) id
  | backend b =>
    simp only [run, Act.wp_modify]
    exact h.state rfl id id

/-! ## Runs -/

/-- Everything that is let out over the requests. -/
def notes (b : B) (es : List (Event B)) : List PwmNote :=
  (trace (Act.machine run) ⟨{}, b⟩ es).flatMap Step.out

theorem latched_run (b : B) (es : List (Event B)) :
    Latched (notes b es) (final (Act.machine run) ⟨{}, b⟩ es) := by
  have hstart : Latched [] (⟨{}, b⟩ : PwmOwner B) :=
    ⟨rfl, nofun, nofun, nofun, List.Pairwise.nil⟩
  have hstep : ∀ e past (s : PwmOwner B), Latched past s → True →
      Act.wp (run e) (fun _ => Latched) past s := fun e past s h _ => run_latched e past s h
  exact (Act.outputs_invariant hstep es [] ⟨{}, b⟩ hstart fun _ _ => trivial).1

/-- Over every sequence of requests: after the first failure no request of a
nonzero speed reaches the backend; no invalid pulse does; after the terminal
low no pulse but 0 does; and the reported pulse is the last accepted one. -/
theorem pwm_fail_closed (b : B) (es : List (Event B)) :
    (∀ x t y, trace (Act.machine run) ⟨{}, b⟩ es = x ++ t :: y →
      (∃ n ∈ x.flatMap Step.out, n.failed = true) →
        ∀ pin pulseUs speed, t.event = .send pin pulseUs speed → Dbl.eq speed 0 = false →
          ∀ n ∈ t.out, n.isCall = false) ∧
      (∀ pin pulseUs accepted, PwmNote.setServoPulse pin pulseUs accepted ∈ notes b es →
        pulseUs = 0 ∨ 500 ≤ pulseUs ∧ pulseUs ≤ 2500) ∧
      ((notes b es).Pairwise fun n m => n.lowers = true → m.quiet = true) ∧
      (final (Act.machine run) ⟨{}, b⟩ es).command.appliedPulseUs = accepted (notes b es) := by
  have hlatched := latched_run b es
  refine ⟨?_, ?_, hlatched.quiet, hlatched.applied⟩
  · intro x t y hsplit hfailed pin pulseUs speed hevent hspeed n hn
    obtain ⟨es₁, e, es₂, -, rfl, rfl, -⟩ := trace_split hsplit
    have hevent : e = .send pin pulseUs speed := hevent
    subst hevent
    have hfault := (latched_run b es₁).fault hfailed
    have hout : (Act.machine run (final (Act.machine run) ⟨{}, b⟩ es₁)
        (.send pin pulseUs speed)).2 = [] := by
      have hsilent := send_silent pin pulseUs hfault hspeed
      show (send pin pulseUs speed _).2.2 ++ [] = []
      rw [hsilent]
      rfl
    have hn : n ∈ (Act.machine run (final (Act.machine run) ⟨{}, b⟩ es₁)
        (.send pin pulseUs speed)).2 := hn
    rw [hout] at hn
    cases hn
  · intro pin pulseUs accepted hmem
    have hvalid : validPulse pulseUs = true := hlatched.valid _ hmem
    simpa [validPulse] using hvalid

end PwmCommand

end Questix.EscMotorControl
