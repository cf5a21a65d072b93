/-
Questix.EscMotorControl.Rp1Theorems — what a terminal backend can still make
the guard do.

`Kept` is the assertion every member function keeps: the daemon is sound, the
core has an owner only while the client is connected, and each step of the
core so far is `Good`. A request needs no more than that the pulses it may
cause are permitted at the time (`Permits`).
-/
import Questix.PwmGuard.DaemonTheorems
import Questix.EscMotorControl.Rp1HardwareBackend

namespace Questix.EscMotorControl

open Questix.Lib Questix.Lib.Act Questix.PwmGuard

/-! ## Good steps of the core -/

/-- A step of the core whose pulses, once the backend is terminal, are those of
an arm or of a shutdown, and none at all where the call is silent. -/
structure Good (silent : Bool) (w : Traced) : Prop where
  silent : silent = true → pulsesOf w.note.step = []
  neutral : w.terminal = true → ∀ p ∈ pulsesOf w.note.step, p.call = .writePulse 1000 ∧
    (w.note.cause = some .shutdown ∨ w.note.cause = some .arm)
  dropped : w.note.step.event.op = .disconnected → Lowered w.note.step.post ∨
    w.note.step.pre.state = .draining ∧ DrainingNeutral w.note.step.post

/-- The pulses a request may cause are permitted. -/
def Permits (silent terminal : Bool) (op : RequestOp) (pulse : Int) : Prop :=
  ∀ call, Request.MayPulse { op := op, pulse := pulse } call → silent = false ∧
    (terminal = true → call = .writePulse 1000 ∧ (op = .shutdown ∨ op = .arm))

section Good

variable {silent terminal : Bool} {n : Note}

theorem good_of_no_pulse (h : pulsesOf n.step = [])
    (hdrop : n.step.event.op = .disconnected → Lowered n.step.post ∨
      n.step.pre.state = .draining ∧ DrainingNeutral n.step.post) :
    Good silent ⟨terminal, n⟩ where
  silent _ := h
  neutral _ p hp := by
    rw [h] at hp
    cases hp
  dropped := hdrop

theorem good_of_isTick (h : Daemon.IsTick n) : Good silent ⟨terminal, n⟩ := by
  refine good_of_no_pulse h.2.2 ?_
  rw [h.2.1]
  intro heq
  cases heq

theorem good_of_isDrop (h : Daemon.IsDrop n) : Good silent ⟨terminal, n⟩ :=
  good_of_no_pulse h.1 fun _ => h.2

theorem good_of_isServed {op : RequestOp} {session seq : UInt64} {pulse : Int}
    (hop : Permits silent terminal op pulse)
    (h : Daemon.IsServed ⟨op, session, seq, pulse⟩ n) : Good silent ⟨terminal, n⟩ where
  silent hsilent := by
    refine List.eq_nil_iff_forall_not_mem.2 ?_
    intro p hp
    rw [(hop p.call (h.pulses p hp).2).1] at hsilent
    cases hsilent
  neutral hterminal p hp := by
    obtain ⟨hcause, hmay⟩ := h.pulses p hp
    obtain ⟨hcall, hop⟩ := (hop p.call hmay).2 hterminal
    refine ⟨hcall, ?_⟩
    rcases hop with rfl | rfl
    · exact .inl hcause
    · exact .inr hcause
  dropped heq := absurd heq h.kept

theorem permits_of_no_pulse {op : RequestOp} {pulse : Int}
    (h : ∀ call, ¬ Request.MayPulse { op := op, pulse := pulse } call) :
    Permits silent terminal op pulse := fun call hmay => absurd hmay (h call)

end Good

/-! ## What the member functions keep -/

/-- What is promised of a call: that the terminal flag stays set, that no pulse
goes out. -/
structure Promise where
  latched : Bool
  silent : Bool
  isLatched : silent = true → latched = true

/-- Sound, with an owner only while connected. -/
structure Linked (s : Rp1) : Prop where
  sound : s.daemon.Sound
  owned : s.daemon.owner = true → s.connected = true

structure Kept (m : Promise) (past : List Traced) (s : Rp1) : Prop extends Linked s where
  terminal : m.latched = true → s.backend.terminal = true
  good : ∀ w ∈ past, Good m.silent w

namespace Rp1HardwareBackend

variable {m : Promise} {b : Rp1HardwareBackend} {past : List Traced} {s : Rp1}

/-! ### The client's calls leave the backend as it is -/

def Frame (m : Promise) (b : Rp1HardwareBackend) (past : List Traced) (s : Rp1) : Prop :=
  Kept m past s ∧ s.backend = b

theorem Frame.channel (h : Frame m b past s) (channel : Channel) :
    Frame m b past { s with channel := channel } :=
  ⟨⟨⟨h.1.sound, h.1.owned⟩, h.1.terminal, h.1.good⟩, h.2⟩

theorem frame_withDaemon {α : Type} {f : Daemon → Daemon × α × List Note}
    (hback : s.backend = b) (hterminal : m.latched = true → s.backend.terminal = true)
    (hgood : ∀ w ∈ past, Good m.silent w) (hsound : (f s.daemon).1.Sound)
    (howned : (f s.daemon).1.owner = true → s.connected = true)
    (hnotes : ∀ n ∈ (f s.daemon).2.2, Good m.silent ⟨s.backend.terminal, n⟩) :
    wp (withDaemon f) (fun _ past' s' => Frame m b past' s' ∧
      s'.connected = s.connected ∧ s'.daemon = (f s.daemon).1) past s := by
  refine ⟨⟨⟨⟨hsound, howned⟩, hterminal, ?_⟩, hback⟩, rfl, rfl⟩
  intro w hw
  rcases List.mem_append.1 hw with hw | hw
  · exact hgood w hw
  · obtain ⟨n, hn, rfl⟩ := List.mem_map.1 hw
    exact hnotes n hn

theorem frame_drop {i : Instant} {connected : Bool} (h : Frame m b past s) :
    wp (withDaemon fun d => ((d.drop i).1, (), (d.drop i).2))
      (fun _ past' s' => Frame m b past' s' ∧ s'.daemon.owner = false) past
      { s with connected := connected } := by
  obtain ⟨hsound, howner, hnotes⟩ := Daemon.drop_sound h.1.sound i
  refine wp_mono (frame_withDaemon h.2 h.1.terminal h.1.good hsound ?_
    fun n hn => good_of_isDrop (hnotes n hn)) ?_
  · intro howned
    rw [howner] at howned
    cases howned
  · intro _ past' s' ⟨h', _, hdaemon⟩
    exact ⟨h', hdaemon ▸ howner⟩

/-- A client that closed has no core. -/
def Closed (m : Promise) (b : Rp1HardwareBackend) (past : List Traced) (s : Rp1) : Prop :=
  Frame m b past s ∧ s.daemon.owner = false

theorem closed_closeAt {i : Instant} :
    Triple (Frame m b) (closeAt i) fun _ => Closed m b := by
  intro past s h
  simp only [closeAt, wp_bind, wp_get, wp_ite, wp_pure, wp_modify]
  split
  · exact frame_drop h
  · rename_i hconnected
    exact ⟨h, Bool.eq_false_iff.2 fun howned => hconnected (h.1.owned howned)⟩

theorem closed_close : Triple (Frame m b) close fun _ => Closed m b := by
  intro past s h
  simp only [close, nextDrop, wp_bind, wp_get, wp_modify, wp_pure]
  exact closed_closeAt past _ (h.channel _)

theorem frame_connect : Triple (Frame m b) connect fun _ => Frame m b := by
  intro past s h
  simp only [connect, wp_bind]
  refine wp_mono (closed_close past s h) ?_
  intro _ past s ⟨h, howner⟩
  simp only [nextConnect, wp_bind, wp_get, wp_modify, wp_pure]
  refine ⟨⟨⟨h.1.sound, ?_⟩, h.1.terminal, h.1.good⟩, h.2⟩
  intro howned
  exact absurd (howned.symm.trans howner) Bool.noConfusion

theorem frame_ticks {is : List Instant} (h : Frame m b past s) :
    wp (withDaemon fun d => ((d.ticks is).1, (), (d.ticks is).2))
      (fun _ past' s' => Frame m b past' s' ∧ s'.connected = s.connected) past s := by
  obtain ⟨hsound, howner, hnotes⟩ := Daemon.ticks_sound is h.1.sound
  refine wp_mono (frame_withDaemon h.2 h.1.terminal h.1.good hsound ?_
    fun n hn => good_of_isTick (hnotes n hn)) ?_
  · intro howned
    exact h.1.owned (howner.symm.trans howned)
  · intro _ past' s' ⟨h', hconnected, _⟩
    exact ⟨h', hconnected⟩

theorem frame_serve {x : Serve} {op : RequestOp} {session seq : UInt64} {pulse : Int}
    (hop : Permits m.silent b.terminal op pulse) (h : Frame m b past s)
    (hconnected : s.connected = true) :
    wp (withDaemon fun d => d.serve x ⟨op, session, seq, pulse⟩) (fun _ => Frame m b) past s := by
  obtain ⟨hsound, hnotes⟩ := Daemon.serve_sound h.1.sound x ⟨op, session, seq, pulse⟩
  refine wp_mono (frame_withDaemon h.2 h.1.terminal h.1.good hsound (fun _ => hconnected) ?_)
    fun _ _ _ h' => h'.1
  intro n hn
  rcases hnotes n hn with htick | hserved
  · exact good_of_isTick htick
  · rw [h.2]
    exact good_of_isServed hop hserved

theorem frame_call {op : RequestOp} {session seq : UInt64} {pulse : Int}
    (hop : Permits m.silent b.terminal op pulse) :
    Triple (Frame m b) (call op session seq pulse) fun _ => Frame m b := by
  intro past s h
  simp only [call, nextExchange, wp_bind, wp_get, wp_ite, wp_modify, wp_pure]
  split
  · exact h
  · rename_i hconnected
    have hconnected : s.connected = true := by simpa using hconnected
    generalize s.channel.exchanges.headD Exchange.silence = x
    refine wp_mono (frame_ticks (h.channel _)) ?_
    intro _ past s ⟨h, hsame⟩
    replace hconnected : s.connected = true := hsame.trans hconnected
    cases x.delivery with
    | lost timedOut =>
      simp only [wp_bind, wp_pure]
      refine wp_mono (closed_closeAt past s h) ?_
      exact fun _ _ _ h => h.1
    | unanswered timedOut =>
      simp only [wp_bind, wp_pure]
      refine wp_mono (frame_serve hop h hconnected) ?_
      intro _ past s h
      refine wp_mono (closed_closeAt past s h) ?_
      exact fun _ _ _ h => h.1
    | answered =>
      simp only [wp_bind, wp_ite, wp_pure]
      refine wp_mono (frame_serve hop h hconnected) ?_
      intro r past s h
      split
      · exact h
      · refine wp_mono (closed_closeAt past s h) ?_
        exact fun _ _ _ h => h.1

/-! ### The member functions -/

theorem kept_modifyBackend {f : Rp1HardwareBackend → Rp1HardwareBackend} (h : Kept m past s)
    (hf : s.backend.terminal = true → (f s.backend).terminal = true) :
    wp (modifyBackend f) (fun _ past' s' => Kept m past' s' ∧ s'.backend = f s.backend)
      past s := by
  rw [modifyBackend, wp_modify]
  exact ⟨⟨⟨h.sound, h.owned⟩, fun hs => hf (h.terminal hs), h.good⟩, rfl⟩

theorem kept_of_frame {α : Type} {x : Esc α}
    (hx : Triple (Frame m s.backend) x fun _ => Frame m s.backend)
    (h : Kept m past s) :
    wp x (fun _ past' s' => Kept m past' s' ∧ s'.backend = s.backend) past s :=
  hx past s ⟨h, rfl⟩

theorem kept_fail {code : Int} : Triple (Kept m) (fail code) fun _ => Kept m := by
  intro past s h
  simp only [fail, wp_bind, wp_pure]
  exact wp_mono (kept_modifyBackend h fun ht => ht) fun _ _ _ h => h.1

theorem kept_close : Triple (Kept m) close fun _ => Kept m := by
  intro past s h
  refine wp_mono (closed_close past s ⟨h, rfl⟩) ?_
  exact fun _ _ _ h => h.1.1

theorem kept_accept {r : Reply} : Triple (Kept m) (accept r) fun _ => Kept m := by
  intro past s h
  simp only [accept, wp_bind, wp_get, wp_ite, wp_pure]
  split
  · refine wp_mono (kept_close past s h) ?_
    intro _ past s h
    refine wp_mono (kept_modifyBackend h fun _ => rfl) ?_
    intro _ past s h
    exact kept_fail past s h.1
  · split
    · exact wp_mono (kept_modifyBackend h fun _ => rfl) fun _ _ _ h => h.1
    · exact wp_mono (kept_modifyBackend h fun ht => ht) fun _ _ _ h => h.1

theorem kept_request {op : RequestOp} {pulse : Int} (h : Kept m past s)
    (hop : Permits m.silent s.backend.terminal op pulse) :
    wp (request op pulse) (fun _ => Kept m) past s := by
  simp only [request, wp_bind, wp_get]
  refine wp_mono (kept_modifyBackend h fun ht => ht) ?_
  intro _ past s' ⟨h', hback⟩
  refine wp_mono (frame_call (b := s'.backend) ?_ past s' ⟨h', rfl⟩) ?_
  · rw [hback]
    exact hop
  · exact fun _ _ _ h => h.1

theorem kept_exchange {op : RequestOp} {pulse : Int} (h : Kept m past s)
    (hop : Permits m.silent s.backend.terminal op pulse) :
    wp (request op pulse) (fun r past s => wp (accept r) (fun _ => Kept m) past s) past s := by
  refine wp_mono (kept_request h hop) ?_
  exact fun _ past s h => kept_accept past s h

theorem permits_stop {terminal : Bool} : Permits m.silent terminal .stop 0 :=
  permits_of_no_pulse fun _ h => h

theorem kept_stopSignal {pin : Int} :
    Triple (Kept m) (stopSignal pin) fun _ => Kept m := by
  intro past s h
  simp only [stopSignal, wp_bind, wp_get, wp_ite]
  refine wp_mono (kept_modifyBackend h fun _ => rfl) ?_
  intro _ past s ⟨h, _⟩
  split
  · exact kept_fail past s h
  · exact kept_exchange h permits_stop

theorem kept_cleanup : Triple (Kept m) cleanup fun _ => Kept m := by
  have hclose : Triple (Kept m) (do
      close
      modifyBackend fun b => { b with ready := false, terminal := true }) fun _ => Kept m := by
    intro past s h
    simp only [wp_bind]
    refine wp_mono (kept_close past s h) ?_
    intro _ past s h
    exact wp_mono (kept_modifyBackend h fun _ => rfl) fun _ _ _ h => h.1
  intro past s h
  simp only [cleanup, wp_bind, wp_get, wp_ite]
  split
  · refine wp_mono (kept_stopSignal past s h) ?_
    intro _ past s h
    simpa only [wp_bind] using hclose past s h
  · simpa only [wp_bind] using hclose past s h

theorem kept_initializePin {pin : Int} (hm : m.silent = false) :
    Triple (Kept m) (initializePin pin) fun _ => Kept m := by
  intro past s h
  simp only [initializePin, wp_bind, wp_ite, wp_pure]
  split
  · exact kept_fail past s h
  · refine wp_mono (kept_of_frame frame_connect h) ?_
    intro connected past s ⟨h, _⟩
    split
    · exact kept_fail past s h
    · have harm : Permits m.silent s.backend.terminal .arm 0 :=
        fun call hmay => ⟨hm, fun _ => ⟨hmay, .inr rfl⟩⟩
      refine wp_mono (kept_of_frame (frame_call harm) h) ?_
      intro r past s ⟨h, _⟩
      refine wp_mono (kept_accept past s h) ?_
      intro ok past s h
      split
      · exact kept_cleanup past s h
      · exact wp_mono (kept_modifyBackend h fun ht => ht) fun _ _ _ h => h.1

theorem kept_completeArm : Triple (Kept m) completeArm fun _ => Kept m := by
  intro past s h
  simp only [completeArm, wp_bind, wp_get, wp_ite, wp_pure]
  split
  · exact kept_fail past s h
  · exact kept_exchange h (permits_of_no_pulse fun _ h => h)

theorem kept_setServoPulse {pin us : Int} :
    Triple (Kept m) (setServoPulse pin us) fun _ => Kept m := by
  intro past s h
  simp only [setServoPulse, wp_bind, wp_get, wp_ite, wp_pure]
  split
  · exact kept_fail past s h
  · rename_i hrefused
    split
    · exact kept_fail past s h
    · have hcommand : Permits m.silent s.backend.terminal .command us := by
        -- a non-zero pulse is refused on a terminal backend
        intro call hus
        have hlive : s.backend.terminal ≠ true := fun ht => hrefused (.inr (.inr ⟨ht, hus⟩))
        refine ⟨?_, fun ht => absurd ht hlive⟩
        exact Bool.eq_false_iff.2 fun hs => hlive (h.terminal (m.isLatched hs))
      refine wp_mono (kept_request h hcommand) ?_
      intro r past s h
      refine wp_mono (kept_accept past s h) ?_
      intro ok past s h
      split
      · exact wp_mono (kept_modifyBackend h fun _ => rfl) fun _ _ _ h => h.1
      · exact h

theorem kept_awaitDrained : ∀ polls : ℕ,
    Triple (Kept m) (awaitDrained polls) fun _ => Kept m
  | 0 => kept_fail
  | polls + 1 => by
      intro past s h
      simp only [awaitDrained, wp_bind, wp_get, wp_ite, wp_pure]
      have hreport : Permits m.silent s.backend.terminal .report 0 :=
        permits_of_no_pulse fun _ h => h
      refine wp_mono (kept_of_frame (frame_call hreport) h) ?_
      intro r past s ⟨h, _⟩
      refine wp_mono (kept_accept past s h) ?_
      intro ok past s h
      split
      · exact h
      · split
        · exact kept_fail past s h
        · split
          · exact h
          · split
            · exact kept_fail past s h
            · exact kept_awaitDrained polls past s h

theorem kept_gracefulShutdown :
    Triple (Kept m) gracefulShutdown fun _ => Kept m := by
  intro past s h
  simp only [gracefulShutdown, wp_bind, wp_get, wp_ite, wp_pure]
  split
  · exact h
  · split
    · exact kept_exchange h permits_stop
    · rename_i hlive
      have hnotSilent : m.silent = false := Bool.eq_false_iff.2 fun hs => hlive (h.terminal (m.isLatched hs))
      have hshutdown : ∀ terminal, Permits m.silent terminal .shutdown 0 :=
        fun _ call hmay => ⟨hnotSilent, fun _ => ⟨hmay, .inl rfl⟩⟩
      refine wp_mono (kept_modifyBackend h fun _ => rfl) ?_
      intro _ past s ⟨h, _⟩
      refine wp_mono (kept_request h (hshutdown _)) ?_
      intro r past s h
      refine wp_mono (kept_accept past s h) ?_
      intro ok past s h
      split
      · exact h
      · exact kept_awaitDrained _ past s h

end Rp1HardwareBackend

/-! ## Runs -/

namespace Rp1

open Rp1HardwareBackend

def IsInitialize (e : Rp1Event) : Prop := ∃ pin channel, e = .call (.initializePin pin) channel

/-- What a step does, as long as the backend may be terminal. -/
structure Failsafe (t : Step Rp1 Rp1Event (List Traced)) : Prop where
  latched : t.pre.backend.terminal = true → t.post.backend.terminal = true
  silent : t.pre.backend.terminal = true → ¬ IsInitialize t.event →
    ∀ w ∈ t.out, pulsesOf w.note.step = []
  neutral : ∀ w ∈ t.out, w.terminal = true → ∀ p ∈ pulsesOf w.note.step,
    p.call = .writePulse 1000 ∧ (w.note.cause = some .shutdown ∨ w.note.cause = some .arm)
  dropped : ∀ w ∈ t.out, w.note.step.event.op = .disconnected → Lowered w.note.step.post ∨
    w.note.step.pre.state = .draining ∧ DrainingNeutral w.note.step.post
  closed : t.post.connected = false ∨ t.post.daemon.owner = false →
    Lowered t.post.daemon.core ∨ DrainingNeutral t.post.daemon.core

variable {m : Promise} {s : Rp1}

theorem kept_runCall {c : Rp1Call} (hm : m.silent = true → ∀ pin, c ≠ .initializePin pin) :
    Triple (Kept m) (runCall c) fun _ => Kept m := by
  intro past s h
  cases c with
  | initializePin pin =>
    simp only [runCall, wp_bind, wp_pure]
    exact kept_initializePin (Bool.eq_false_iff.2 fun hs => hm hs pin rfl) past s h
  | completeArm =>
    simp only [runCall, wp_bind, wp_pure]
    exact kept_completeArm past s h
  | setServoPulse pin us =>
    simp only [runCall, wp_bind, wp_pure]
    exact kept_setServoPulse past s h
  | stopSignal pin =>
    simp only [runCall, wp_bind, wp_pure]
    exact kept_stopSignal past s h
  | gracefulShutdown =>
    simp only [runCall, wp_bind, wp_pure]
    exact kept_gracefulShutdown past s h
  | cleanup => exact kept_cleanup past s h

theorem kept_run {e : Rp1Event} (hm : m.silent = true → ¬ IsInitialize e) :
    Triple (Kept m) (run e) fun _ => Kept m := by
  intro past s h
  have hf : Frame m s.backend past s := ⟨h, rfl⟩
  cases e with
  | call c channel =>
    simp only [run, wp_bind, wp_modify]
    refine kept_runCall ?_ past _ (hf.channel channel).1
    rintro hs pin rfl
    exact hm hs ⟨pin, channel, rfl⟩
  | tick i =>
    obtain ⟨hsound, howner, hnotes⟩ := Daemon.tick_sound h.sound i
    have howned : (s.daemon.tick i).1.owner = true → s.connected = true :=
      fun howned => h.owned (howner.symm.trans howned)
    rw [run]
    exact wp_mono (frame_withDaemon rfl h.terminal h.good hsound howned
      fun n hn => good_of_isTick (hnotes n hn)) fun _ _ _ h => h.1.1
  | emergencyLow i =>
    have hsound := @Daemon.apply_sound s.daemon h.sound none .emergencyLow i (by simp)
    have hgood : ∀ n ∈ (s.daemon.apply none .emergencyLow i).2.2,
        Good m.silent ⟨s.backend.terminal, n⟩ := by
      intro n hn
      obtain rfl := List.mem_singleton.1 hn
      refine good_of_no_pulse (no_pulse h.sound.consistent fun _ hmay => hmay) ?_
      intro heq
      cases heq
    rw [run]
    exact wp_mono (frame_withDaemon rfl h.terminal h.good hsound h.owned hgood) fun _ _ _ h => h.1.1
  | hangup i =>
    rw [run]
    exact wp_mono (frame_drop hf) fun _ _ _ h => h.1.1

theorem kept_step {e : Rp1Event} (h : Linked s)
    (hlatched : m.latched = true → s.backend.terminal = true)
    (hm : m.silent = true → ¬ IsInitialize e) : Kept m (step s e).2 (step s e).1 :=
  kept_run hm [] s ⟨h, hlatched, by simp⟩

theorem failsafe_step (h : Linked s) (e : Rp1Event) : Failsafe (stepOf step s e) := by
  have hkept : Kept ⟨s.backend.terminal, false, by simp⟩ (step s e).2 (step s e).1 :=
    kept_step h (fun ht => ht) (by simp)
  refine ⟨hkept.terminal, ?_, ?_, ?_, ?_⟩
  · intro hterminal hinit w hw
    have hsilent : Kept ⟨true, true, fun ht => ht⟩ (step s e).2 (step s e).1 :=
      kept_step h (fun _ => hterminal) (fun _ => hinit)
    exact (hsilent.good w hw).silent rfl
  · exact fun w hw => (hkept.good w hw).neutral
  · exact fun w hw => (hkept.good w hw).dropped
  · intro hclosed
    have howner : (step s e).1.daemon.owner = false := by
      rcases hclosed with hconnected | howner
      · refine Bool.eq_false_iff.2 ?_
        intro howned
        exact absurd ((hkept.owned howned).symm.trans hconnected) Bool.noConfusion
      · exact howner
    exact hkept.sound.consistent.lowered (hkept.sound.idle howner)

theorem linked_start (config : Config) (env : Env) : Linked (start config env) where
  sound := ⟨consistent_start config env, fun _ =>
    isLive_eq_false_of_isDown (Guard.low_isDown env { core := { config := config } } false)⟩
  owned := by simp [start]

def FailsafeRun (run : List (Step Rp1 Rp1Event (List Traced))) : Prop := ∀ t ∈ run, Failsafe t

/-- Every step of every run, whatever the calls, the channel and the output. -/
theorem failsafe (config : Config) (env : Env) (es : List Rp1Event) :
    FailsafeRun (trace step (start config env) es) := by
  intro t ht
  have hlinked : Linked t.pre := by
    refine (trace_invariant Linked ?_ es _ (linked_start config env) t ht).1
    intro s e h
    exact (kept_step (m := ⟨false, false, fun ht => ht⟩) h (by simp) (by simp)).toLinked
  rw [eq_stepOf_of_mem_trace ht]
  exact failsafe_step hlinked _

/-! ### A shutdown writes the neutral pulse -/

/-- A request that is answered, at time `now`. -/
def answered (now : Int) : Exchange where
  delivery := .answered
  serve := ⟨now, neverFails, neverFails, 7⟩
  drop := ⟨now, neverFails⟩

def shutdownRun : List Rp1Event :=
  [.call (.initializePin 13) { connects := [true], exchanges := [answered 0] },
   .call .completeArm { exchanges := [answered 100] },
   .call (.setServoPulse 13 1800) { exchanges := [answered 200] },
   .call .gracefulShutdown { exchanges := [answered 300] }]

/-- The backend of this run is terminal when the shutdown's neutral pulse goes
out. -/
theorem shutdown_pulses :
    ¬ ∀ t ∈ trace step (start Config.default neverFails) shutdownRun, ∀ w ∈ t.out,
      w.terminal = true → pulsesOf w.note.step = [] := by
  decide

end Rp1

end Questix.EscMotorControl
