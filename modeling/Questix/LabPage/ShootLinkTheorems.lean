/-
Questix.LabPage.ShootLinkTheorems — one safety tick for each disc
(`shoot-link.js`).

The page fires only with the tick set, in a session of its own that the bridge
has named it the owner of, never while it waits for an earlier fire, and not
again after its disc until the learner has ticked again (`one_tick_per_disc`).
This holds of every run whose steps are in turn (`InTurn`): the session that ends
after a shot ends some time later, and until then the button may be on
(`second_disc_on_one_tick`); a button counts down from the frames of an older
session; and a disc may be reported when no session is left to end.

Every step is a change of one thing (`Touch`), and then something that keeps
what the rest is about (`Quiet`): a session goes on, ends or begins, and a fire
is given up.
-/
import Questix.LabPage.ShootLink
import Questix.Lib.Trace

namespace Questix.LabPage

open Questix.Lib

abbrev PageStep := Lib.Step Page Event (List Output)

variable {s s' s'' : Page} {r : Effect} {now : ℚ} {id : ℕ}

/-! ## What a run shows -/

/-- The page sends a fire. -/
def Fires (t : PageStep) : Prop := ∃ confirm, Output.frame (.fire confirm) ∈ t.out

def Ticks (t : PageStep) : Prop := t.event.action = .tick true

/-- The bridge names the page the owner, while session `id` runs. -/
def NamesOwner (id : ℕ) (t : PageStep) : Prop :=
  ∃ state, t.event.action = .shootState state ∧ state.active = true ∧
    state.owner = t.pre.link.session ∧ t.pre.current = some id

/-- How many more discs of the lab a status shows than the last one did. -/
def newLabDiscs (before : Option ℤ) (shot : ShotStatus) : ℕ :=
  match shot.firedCount, before with
  | some count, some known => if shot.lastFireSource = some .lab then (count - known).toNat else 0
  | _, _ => 0

def labDiscs (t : PageStep) : ℕ :=
  match t.event.action with
  | .shot shot => newLabDiscs t.pre.tracker.count shot
  | _ => 0

def RefusesFire (t : PageStep) : Prop :=
  ∃ refused, t.event.action = .refused refused ∧ refused.request = .fire

instance (t : PageStep) : Decidable (RefusesFire t) :=
  match h : t.event.action with
  | .refused refused =>
    if hfire : refused.request = .fire then .isTrue ⟨refused, h, hfire⟩
    else .isFalse fun ⟨_, h', hfire'⟩ => hfire (by rw [h] at h'; cases h'; exact hfire')
  | .tick _ | .rollerPercent _ | .spin | .tilt _ | .fire | .stopLauncher | .stopOwn _ | .escape
  | .hide | .shootState _ | .shot _ | .roller | .link _ | .reopen | .socket _ | .heartbeat _
  | .tiltTimer => .isFalse fun ⟨_, h', _⟩ => by rw [h] at h'; cases h'

def isFire : Output → Bool
  | .frame (.fire _) => true
  | _ => false

/-- The fires of the page that were neither refused nor followed by a disc. -/
def owed (past : List PageStep) : ℕ :=
  past.foldl (fun n t =>
    if t.out.any isFire then n + 1
    else if RefusesFire t then n - 1
    else n - labDiscs t) 0

/-- A disc the page has asked for is reported as fired. -/
def ReportsOwnDisc (past : List PageStep) (t : PageStep) : Prop :=
  0 < labDiscs t ∧ 0 < owed past

/-- The page gives a fire up. -/
def GivesUp (u t : PageStep) : Prop :=
  t.pre.tracker.pending.isSome ∧ t.post.tracker.pending = none ∧
    fireConfirmMs < t.event.at_ - u.event.at_

/-- An answer to the fire of step `u`: it is refused, a disc is fired, or it is given up. -/
def Answers (u t : PageStep) : Prop := RefusesFire t ∨ 0 < labDiscs t ∨ GivesUp u t

/-- The learner has ticked after every report of a disc the page had asked for. -/
def TickedSinceReport (past : List PageStep) : Prop :=
  ∀ a t b, past = a ++ t :: b → ReportsOwnDisc a t → ∃ u ∈ b, Ticks u

/-- What is asked of step `t`, after the steps `past`. -/
structure OneTickPerDisc (past : List PageStep) (t : PageStep) : Prop where
  ticked : Fires t → t.pre.confirmed = true
  owner : Fires t → ∃ id, t.pre.current = some id ∧ (t.pre.sessions id).mode = .spin ∧
    ∃ u ∈ past, NamesOwner id u
  answered : Fires t → ∀ a u b, past = a ++ u :: b → Fires u → ∃ v ∈ b, Answers u v
  ticked_again : Fires t → TickedSinceReport past
  /-- no heartbeat of a session that was over before -/
  ended : ∀ id power, Output.frame (.roller id power) ∈ t.out → ∀ u ∈ past,
    id < u.post.nextSession → u.post.current = some id

/-- The running session has been started, and may have fired its disc. -/
def Page.started (s : Page) : Bool := s.session?.any (·.started)
def Page.discFired (s : Page) : Bool := s.session?.any (·.stopAfter.isSome)

/-- When step `t` comes in turn. -/
structure InTurn (past : List PageStep) (t : PageStep) : Prop where
  /-- Where the button is on, it is pressed in a session the bridge has named, with no fire left
  that has no answer, and not between a disc and the end of its session on the same tick. -/
  fire : t.event.action = .fire → t.pre.mayFire t.event.at_ = true →
    t.pre.started = true ∧ t.pre.tracker.pending = none ∧
      (t.pre.discFired = true → TickedSinceReport past)
  /-- A disc of the page is reported without the tick set, or to a page that waits for it, in a
  session the bridge has named. -/
  report : ReportsOwnDisc past t → t.pre.confirmed = false ∨
    t.pre.tracker.pending.isSome ∧ t.pre.started = true

/-! ## What sessions and timers keep -/

/-- Only the running session has an interval, and it is an old number. -/
structure Alone (s : Page) : Prop where
  interval : ∀ id ∈ s.intervals, s.current = some id
  bound : ∀ id, s.current = some id → id < s.nextSession

/-- What a session is to the tick. -/
structure SameFlags (a b : Session) : Prop where
  started : b.started = a.started
  shots : b.shots = a.shots
  stopAfter : b.stopAfter = a.stopAfter

theorem SameFlags.refl (a : Session) : SameFlags a a := ⟨rfl, rfl, rfl⟩

theorem SameFlags.trans {a b c : Session} (h : SameFlags a b) (h' : SameFlags b c) :
    SameFlags a c :=
  ⟨h'.started.trans h.started, h'.shots.trans h.shots, h'.stopAfter.trans h.stopAfter⟩

/-- A session goes on, ends or begins; a fire may be given up; the tick may be taken. -/
structure Quiet (now : ℚ) (s : Page) (r : Effect) : Prop where
  alone : Alone r.1
  next : s.nextSession ≤ r.1.nextSession
  kept : ∀ id, r.1.current = some id → id < s.nextSession →
    s.current = some id ∧ SameFlags (s.sessions id) (r.1.sessions id)
  fresh : ∀ id, r.1.current = some id → s.nextSession ≤ id → (r.1.sessions id).started = false
  confirmed : r.1.confirmed = true → s.confirmed = true
  spent : r.1.confirmed = true → ∀ id < s.nextSession, s.current = some id →
    (s.sessions id).started = true → 0 < (s.sessions id).shots → r.1.current = some id
  pending : r.1.tracker.pending = s.tracker.pending ∨
    ∃ p, s.tracker.pending = some p ∧ r.1.tracker.pending = none ∧ fireConfirmMs < now - p.at_
  no_fire : ∀ confirm, Output.frame (.fire confirm) ∉ r.2
  beats : ∀ id power, Output.frame (.roller id power) ∈ r.2 →
    s.current = some id ∨ s.nextSession ≤ id

theorem Quiet.andThen {f : Page → Effect} (h : Quiet now s r) (h' : Quiet now r.1 (f r.1)) :
    Quiet now s (r.andThen f) where
  alone := h'.alone
  next := h.next.trans h'.next
  kept id hid hold := by
    obtain ⟨hmid, hflags'⟩ := h'.kept id hid (hold.trans_le h.next)
    obtain ⟨hfirst, hflags⟩ := h.kept id hmid hold
    exact ⟨hfirst, hflags.trans hflags'⟩
  fresh id hid hnew := by
    by_cases hold : id < r.1.nextSession
    · obtain ⟨hmid, hflags⟩ := h'.kept id hid hold
      exact hflags.started.trans (h.fresh id hmid hnew)
    · exact h'.fresh id hid (Nat.not_lt.mp hold)
  confirmed hc := h.confirmed (h'.confirmed hc)
  spent hc id hold hid hstarted hshots := by
    have hmid := h.spent (h'.confirmed hc) id hold hid hstarted hshots
    obtain ⟨-, hflags⟩ := h.kept id hmid hold
    exact h'.spent hc id (hold.trans_le h.next) hmid (hflags.started.trans hstarted)
      (hflags.shots ▸ hshots)
  pending := by
    rcases h'.pending with hsame' | ⟨p, hp, hnone, hlate⟩
    · rcases h.pending with hsame | ⟨p, hp, hnone, hlate⟩
      · exact .inl (hsame'.trans hsame)
      · exact .inr ⟨p, hp, hsame'.trans hnone, hlate⟩
    · rcases h.pending with hsame | ⟨p', hp', hnone', hlate'⟩
      · exact .inr ⟨p, hsame ▸ hp, hnone, hlate⟩
      · rw [hnone'] at hp
        cases hp
  no_fire confirm hmem := by
    rcases List.mem_append.mp hmem with hmem | hmem
    · exact h.no_fire confirm hmem
    · exact h'.no_fire confirm hmem
  beats id power hmem := by
    rcases List.mem_append.mp hmem with hmem | hmem
    · exact h.beats id power hmem
    · rcases h'.beats id power hmem with hmid | hnew
      · by_cases hold : id < s.nextSession
        · exact .inl (h.kept id hmid hold).1
        · exact .inr (Nat.not_lt.mp hold)
      · exact .inr (h.next.trans hnew)

/-- What the rest is about has not changed. -/
structure SameCore (s s' : Page) : Prop where
  current : s'.current = s.current
  sessions : ∀ id, SameFlags (s.sessions id) (s'.sessions id)
  nextSession : s'.nextSession = s.nextSession
  intervals : s'.intervals = s.intervals
  confirmed : s'.confirmed = s.confirmed
  pending : s'.tracker.pending = s.tracker.pending

theorem SameCore.alone (h : SameCore s s') (hs : Alone s) : Alone s' where
  interval id hid := by
    rw [h.current]
    exact hs.interval id (h.intervals ▸ hid)
  bound id hid := by
    rw [h.nextSession]
    exact hs.bound id (h.current ▸ hid)

theorem SameCore.refl (s : Page) : SameCore s s :=
  ⟨rfl, fun _ => .refl _, rfl, rfl, rfl, rfl⟩

theorem SameCore.quiet {out : List Output} (h : SameCore s s') (hs : Alone s)
    (hfire : ∀ confirm, Output.frame (.fire confirm) ∉ out)
    (hbeat : ∀ id power, Output.frame (.roller id power) ∉ out) : Quiet now s (s', out) where
  alone := h.alone hs
  next := h.nextSession.ge
  kept id hid _ := ⟨h.current ▸ hid, h.sessions id⟩
  fresh id hid hnew := absurd (hs.bound id (h.current ▸ hid)) (Nat.not_lt.mpr hnew)
  confirmed hc := h.confirmed ▸ hc
  spent _ _ _ hid _ _ := h.current.trans hid
  pending := .inl h.pending
  no_fire := hfire
  beats id power hmem := absurd hmem (hbeat id power)

theorem SameCore.still (h : SameCore s s') (hs : Alone s) : Quiet now s (s', []) :=
  h.quiet hs (by simp) (by simp)

theorem Quiet.first (h : Quiet now s (s', [])) (h' : Quiet now s' r) : Quiet now s r :=
  h.andThen (f := fun _ => r) h'

theorem sameCore_mapCurrent {f : Session → Session} (hf : ∀ a, SameFlags a (f a)) :
    SameCore s (s.mapCurrent f) := by
  unfold Page.mapCurrent
  split
  next => exact .refl s
  next id hid =>
    refine ⟨rfl, fun other => ?_, rfl, rfl, rfl, rfl⟩
    by_cases hother : other = id
    · subst hother
      simpa using hf (s.sessions other)
    · simp [hother, SameFlags.refl]

/-! ## Ends and heartbeats -/

theorem no_fire_send (frame : Frame) (hframe : ∀ confirm, frame ≠ .fire confirm) (confirm : Bool) :
    Output.frame (.fire confirm) ∉ s.send frame := by
  unfold Page.send
  split
  · simpa using (hframe confirm).symm
  · simp

theorem no_roller_send (frame : Frame) (hframe : ∀ id power, frame ≠ .roller id power) (id : ℕ)
    (power : ℚ) : Output.frame (.roller id power) ∉ s.send frame := by
  unfold Page.send
  split
  · simpa using (hframe id power).symm
  · simp

theorem quiet_finishSession (hs : Alone s) (reason : EndReason) :
    Quiet now s (s.finishSession id reason) := by
  unfold Page.finishSession
  split
  next => exact (SameCore.refl s).still hs
  next hcurrent =>
    have hcurrent : s.current = some id := not_not.mp hcurrent
    dsimp only
    refine
      { alone := ⟨fun other hother => ?_, fun other hother => ?_⟩
        next := Nat.le_refl _
        kept := fun other hother => ?_
        fresh := fun other hother => ?_
        confirmed := fun hc => ?_
        spent := fun hc other _ hother hstarted hshots => ?_
        pending := .inl rfl
        no_fire := fun confirm hmem => ?_
        beats := fun other power hmem => ?_ }
    · obtain ⟨hmem, hne⟩ := List.mem_filter.mp hother
      have hsame : id = other := Option.some.inj (hcurrent.symm.trans (hs.interval other hmem))
      exact absurd hsame.symm (by simpa using hne)
    · cases hother
    · cases hother
    · cases hother
    · dsimp only at hc
      split at hc
      · cases hc
      · exact hc
    · have hsame : id = other := Option.some.inj (hcurrent.symm.trans hother)
      subst hsame
      simp [hstarted, hshots] at hc
    · rcases List.mem_append.mp hmem with hmem | hmem
      · split at hmem
        · exact no_fire_send .rollerStop (by simp) confirm hmem
        · cases hmem
      · split at hmem <;> simp at hmem
    · rcases List.mem_append.mp hmem with hmem | hmem
      · split at hmem
        · exact absurd hmem (no_roller_send .rollerStop (by simp) other power)
        · cases hmem
      · split at hmem <;> simp at hmem

theorem quiet_finish (hs : Alone s) (reason : EndReason) : Quiet now s (s.finish reason) := by
  unfold Page.finish
  split
  · exact quiet_finishSession hs reason
  · exact (SameCore.refl s).still hs

theorem quiet_giveUp (hs : Alone s) (reason : Option String) {out : List Output}
    (hfire : ∀ confirm, Output.frame (.fire confirm) ∉ out)
    (hbeat : ∀ id power, Output.frame (.roller id power) ∈ out → s.current = some id) :
    Quiet now s (s.giveUp now reason, out) := by
  have hstill : Quiet now s (s, out) :=
    { @SameCore.still _ _ now (SameCore.refl s) hs with
      no_fire := hfire
      beats := fun id power hmem => .inl (hbeat id power hmem) }
  unfold Page.giveUp expireFire
  cases hp : s.tracker.pending with
  | none => exact hstill
  | some p =>
    by_cases hlate : now - p.at_ ≤ fireConfirmMs
    · simp only [hlate, if_true]
      exact hstill
    · simp only [hlate, if_false]
      exact
        { alone := ⟨hs.interval, hs.bound⟩
          next := Nat.le_refl _
          kept := fun id hid _ => ⟨hid, .refl _⟩
          fresh := hstill.fresh
          confirmed := fun hc => hc
          spent := fun _ id _ hid _ _ => hid
          pending := .inr ⟨p, hp, rfl, not_le.mp hlate⟩
          no_fire := hfire
          beats := hstill.beats }

theorem quiet_heartbeat (hs : Alone s) (hid : s.current = some id) :
    Quiet now s (s.heartbeat now id) := by
  unfold Page.heartbeat
  split
  next => exact quiet_finishSession hs _
  next =>
    dsimp only
    have hbeat : SameCore s
        { s with sessions := Function.update s.sessions id { s.sessions id with beatAt := now } } := by
      refine ⟨rfl, fun other => ?_, rfl, rfl, rfl, rfl⟩
      by_cases hother : other = id
      · subst hother
        simp only [Function.update_self]
        exact ⟨rfl, rfl, rfl⟩
      · simp [hother, SameFlags.refl]
    have hs' := hbeat.alone hs
    refine (hbeat.still hs).first ?_
    split
    next => exact quiet_finishSession hs' _
    next =>
      split
      next => exact quiet_finishSession hs' _
      next =>
        split
        next => exact quiet_finishSession hs' _
        next =>
          split
          next => exact quiet_finishSession hs' _
          next =>
            refine quiet_giveUp hs' _ (by simp) fun other power hmem => ?_
            have hsame : other = id := by
              simp only [List.mem_singleton, Output.frame.injEq, Frame.roller.injEq] at hmem
              exact hmem.1
            rw [hsame]
            exact hid

theorem quiet_startSession (hs : Alone s) (mode : Mode) :
    Quiet now s (s.startSession now mode) := by
  unfold Page.startSession
  split
  next => exact (SameCore.refl s).still hs
  next hnone =>
    have hbegins : Quiet now s
        ({ s with
            current := some s.nextSession
            sessions := Function.update s.sessions s.nextSession
              (newSession mode (s.chosenPercent now) now)
            nextSession := s.nextSession + 1
            intervals := s.nextSession :: s.intervals
            note := none }, []) :=
      { alone :=
          { interval := fun id hid => by
              rcases List.mem_cons.mp hid with rfl | hid
              · rfl
              · rw [hs.interval id hid] at hnone
                cases hnone
            bound := fun id hid => by
              cases hid
              exact Nat.lt_succ_self _ }
        next := Nat.le_succ _
        kept := fun id hid hold => by
          cases hid
          exact absurd hold (Nat.lt_irrefl _)
        fresh := fun id hid _ => by
          cases hid
          simp [newSession]
        confirmed := fun hc => hc
        spent := fun _ id _ hid => by
          rw [hnone] at hid
          cases hid
        pending := .inl rfl
        no_fire := by simp
        beats := by simp }
    exact hbegins.first (quiet_heartbeat hbegins.alone rfl)

/-! ## What a step touches -/

/-- The one change an event makes before the session goes on, ends or begins. -/
structure Touch (e : Event) (s s₁ : Page) : Prop where
  current : s₁.current = s.current
  nextSession : s₁.nextSession = s.nextSession
  intervals : s₁.intervals = s.intervals
  started : ∀ id, (s₁.sessions id).started = true →
    (s.sessions id).started = true ∨ NamesOwner id (stepOf step s e)
  keeps_started : ∀ id, (s.sessions id).started = true → (s₁.sessions id).started = true
  shots : ∀ id, 0 < (s.sessions id).shots → 0 < (s₁.sessions id).shots
  stopAfter : ∀ id, (s.sessions id).stopAfter.isSome → (s₁.sessions id).stopAfter.isSome
  confirmed : s₁.confirmed = true → s.confirmed = true ∨ e.action = .tick true
  asked : e.action = .fire → s.mayFire e.at_ = true →
    ∃ p, s₁.tracker.pending = some p ∧ p.at_ = e.at_
  pending : (e.action = .fire ∧ s.mayFire e.at_ = true) ∨
    s₁.tracker.pending = s.tracker.pending ∨
    s₁.tracker.pending = none ∧
      (RefusesFire (stepOf step s e) ∨ 0 < labDiscs (stepOf step s e))
  fired : 0 < labDiscs (stepOf step s e) → s.tracker.pending.isSome → ∀ id, s.current = some id →
    0 < (s₁.sessions id).shots ∧ (s₁.sessions id).stopAfter.isSome

theorem Touch.alone {e : Event} {s₁ : Page} (h : Touch e s s₁) (hs : Alone s) : Alone s₁ where
  interval id hid := by
    rw [h.current]
    exact hs.interval id (h.intervals ▸ hid)
  bound id hid := by
    rw [h.nextSession]
    exact hs.bound id (h.current ▸ hid)

theorem touch_self {e : Event} (h : labDiscs (stepOf step s e) = 0)
    (hfire : e.action = .fire → s.mayFire e.at_ = true → False) : Touch e s s where
  current := rfl
  nextSession := rfl
  intervals := rfl
  started _ h := .inl h
  keeps_started _ h := h
  shots _ h := h
  stopAfter _ h := h
  confirmed h := .inl h
  asked haction hmay := (hfire haction hmay).elim
  pending := .inr (.inl rfl)
  fired hdiscs := absurd h hdiscs.ne'

/-- What a status makes of a fire that waits: its disc, nothing, or an end of the wait. -/
theorem ingestShot_cases (tracker : Tracker) (shot : ShotStatus) (now : ℚ) :
    (∃ row, (ingestShot tracker shot now).2 = some (.fired row) ∧
      (ingestShot tracker shot now).1.pending = none ∧ 0 < newLabDiscs tracker.count shot) ∨
    ((∀ row, (ingestShot tracker shot now).2 ≠ some (.fired row)) ∧
      (0 < newLabDiscs tracker.count shot → tracker.pending = none) ∧
      ((ingestShot tracker shot now).1.pending = tracker.pending ∨
        ∃ p, tracker.pending = some p ∧ (ingestShot tracker shot now).1.pending = none ∧
          fireConfirmMs < now - p.at_)) := by
  have hexpire : ∀ (tracker : Tracker) (reason : Option String),
      (∀ row, (expireFire tracker now reason).2 ≠ some (.fired row)) ∧
        ((expireFire tracker now reason).1.pending = tracker.pending ∨
          ∃ p, tracker.pending = some p ∧ (expireFire tracker now reason).1.pending = none ∧
            fireConfirmMs < now - p.at_) := by
    intro tracker reason
    unfold expireFire
    cases hp : tracker.pending with
    | none => simp [hp]
    | some p =>
      by_cases hlate : now - p.at_ ≤ fireConfirmMs
      · simp [hlate, hp]
      · simp [hlate, not_le.mp hlate]
  unfold ingestShot newLabDiscs
  cases hcount : shot.firedCount with
  | none => exact .inr ⟨(hexpire tracker _).1, by simp, (hexpire tracker _).2⟩
  | some count =>
    dsimp only
    by_cases hold : tracker.count.all (count ≤ ·) = true
    · rw [if_pos hold]
      refine .inr ⟨(hexpire _ _).1, fun hdiscs => ?_, (hexpire _ _).2⟩
      cases hknown : tracker.count with
      | none => simp [hknown] at hdiscs
      | some known =>
        rw [hknown] at hold hdiscs
        simp only [Option.all_some, decide_eq_true_eq] at hold
        dsimp only at hdiscs
        split at hdiscs <;> omega
    · rw [if_neg hold]
      cases hknown : tracker.count with
      | none => simp [hknown] at hold
      | some known =>
        rw [hknown] at hold
        simp only [Option.all_some, decide_eq_true_eq, not_le] at hold
        cases hp : tracker.pending with
        | none => exact .inr ⟨by simp, by simp, .inl (by simp)⟩
        | some p =>
          by_cases hlab : shot.lastFireSource = some .lab
          · simp only [if_pos hlab]
            exact .inl ⟨_, rfl, by simp, by omega⟩
          · simp only [if_neg hlab]
            exact .inr ⟨by simp, by simp, .inl (by simp)⟩

theorem sameCore_followTilt (deg : ℚ) : SameCore s (s.followTilt now deg) := by
  unfold Page.followTilt
  dsimp only
  split <;> split <;> exact ⟨rfl, fun _ => .refl _, rfl, rfl, rfl, rfl⟩

/-! ## Steps -/

/-- What a step does: it touches the page, sends a fire if the page may fire, and the session goes
on, ends or begins. -/
structure Moves (e : Event) (s : Page) : Prop where
  touch : ∃ s₁, Touch e s s₁ ∧ Quiet e.at_ s₁ ((step s e).1, (step s e).2.filter (!isFire ·))
  fires : ∀ confirm, Output.frame (.fire confirm) ∈ (step s e).2 →
    e.action = .fire ∧ s.mayFire e.at_ = true

theorem Quiet.moves {e : Event} {s₁ : Page} (h : Quiet e.at_ s₁ (step s e)) (ht : Touch e s s₁) :
    Moves e s where
  touch := by
    have hfilter : (step s e).2.filter (!isFire ·) = (step s e).2 := by
      rw [List.filter_eq_self]
      intro output hmem
      match output with
      | .frame (.fire confirm) => exact absurd hmem (h.no_fire confirm)
      | .frame (.roller _ _) | .frame .rollerStop | .frame (.tilt _) => rfl
      | .sessionStart | .sessionEnd _ _ | .shotFired _ => rfl
    rw [hfilter]
    exact ⟨s₁, ht, h⟩
  fires confirm hmem := absurd hmem (h.no_fire confirm)

theorem quiet_setTilt (hs : Alone s) (deg : Option ℚ) : Quiet now s (s.setTilt now deg) := by
  unfold Page.setTilt
  split
  next => exact (SameCore.refl s).still hs
  next =>
    dsimp only
    have hwanted : SameCore s { s with tilt := some (clampTilt deg (s.readiness now).limits) } :=
      ⟨rfl, fun _ => .refl _, rfl, rfl, rfl, rfl⟩
    have hs' := hwanted.alone hs
    refine (hwanted.still hs).first ((quiet_startSession hs' .tilt).andThen ?_)
    have hstarted := (@quiet_startSession _ now hs' .tilt).alone
    split
    next => exact (SameCore.refl _).still hstarted
    next =>
      have htilted := sameCore_mapCurrent
        (s := ({ s with tilt := some (clampTilt deg (s.readiness now).limits) }.startSession now
          .tilt).1) (f := fun session => { session with lastTiltAt := now }) fun a => ⟨rfl, rfl, rfl⟩
      exact SameCore.still
        ⟨htilted.current, htilted.sessions, htilted.nextSession, htilted.intervals,
          htilted.confirmed, htilted.pending⟩ hstarted

theorem quiet_sendTilt (hs : Alone s) : Quiet now s (s.sendTilt now) := by
  unfold Page.sendTilt
  dsimp only
  split
  next => exact SameCore.still ⟨rfl, fun _ => .refl _, rfl, rfl, rfl, rfl⟩ hs
  next =>
    have htilted := sameCore_mapCurrent
      (s := { s with tiltTimer := false, tiltSentAt := some now })
      (f := fun session => { session with lastTiltAt := now }) fun a => ⟨rfl, rfl, rfl⟩
    have hcore : SameCore s ({ s with tiltTimer := false, tiltSentAt := some now }.mapCurrent
        fun session => { session with lastTiltAt := now }) :=
      ⟨htilted.current, htilted.sessions, htilted.nextSession, htilted.intervals,
        htilted.confirmed, htilted.pending⟩
    split
    · refine @SameCore.quiet _ { Page.mapCurrent _ _ with tiltAwaiting := _ } _ _ ?_ hs (by simp)
        (by simp)
      exact ⟨hcore.current, hcore.sessions, hcore.nextSession, hcore.intervals, hcore.confirmed,
        hcore.pending⟩
    · exact hcore.still hs

theorem quiet_startRoller (hs : Alone s) : Quiet now s (s.startRoller now) := by
  unfold Page.startRoller
  dsimp only
  split
  next => exact (SameCore.refl s).still hs
  next =>
    split
    · have hspin : ∀ a : Session,
          SameFlags a { a with mode := .spin, percent := s.chosenPercent now } :=
        fun a => ⟨rfl, rfl, rfl⟩
      exact (sameCore_mapCurrent hspin).still hs
    · exact quiet_startSession hs _

theorem quiet_setRollerPercent (hs : Alone s) (percent : Option ℚ) :
    Quiet now s (s.setRollerPercent now percent) := by
  unfold Page.setRollerPercent
  dsimp only
  have hchosen : Quiet now s ({ s with percent := clampPercent percent (s.readiness now).limits }, []) :=
    SameCore.still ⟨rfl, fun _ => .refl _, rfl, rfl, rfl, rfl⟩ hs
  have hspinning : ∀ a : Session, SameFlags a
      (if a.mode = .spin then { a with percent := clampPercent percent (s.readiness now).limits }
      else a) := by
    intro a
    split
    · exact ⟨rfl, rfl, rfl⟩
    · exact .refl a
  exact hchosen.first ((sameCore_mapCurrent hspinning).still hchosen.alone)

theorem quiet_stopLauncher (hs : Alone s) : Quiet now s s.stopLauncher := by
  refine Quiet.andThen ((SameCore.refl s).quiet hs ?_ ?_) (quiet_finish hs .stopped)
  · exact no_fire_send .rollerStop (by simp)
  · exact no_roller_send .rollerStop (by simp)

theorem quiet_onLink (hs : Alone s) (link : Link) : Quiet now s (s.onLink link) := by
  have hlinked : Quiet now s ({ s with link := link }, []) :=
    SameCore.still ⟨rfl, fun _ => .refl _, rfl, rfl, rfl, rfl⟩ hs
  unfold Page.onLink
  dsimp only
  split
  · exact hlinked
  · exact hlinked.first (quiet_finish hlinked.alone .lost)

theorem moves_tick (hs : Alone s) (value : Bool) : Moves ⟨now, .tick value⟩ s := by
  have htick : Touch ⟨now, .tick value⟩ s { s with confirmed := value } :=
    { touch_self (s := s) (e := ⟨now, .tick value⟩) rfl (by simp) with
      confirmed := fun h => .inr (by rw [show value = true from h]) }
  refine Quiet.moves ?_ htick
  exact SameCore.still (s := { s with confirmed := value })
    ⟨rfl, fun _ => .refl _, rfl, rfl, rfl, rfl⟩ (htick.alone hs)

theorem touch_named {state : ShootState} (hcurrent : s.current = some id)
    (hactive : state.active = true) (howner : state.owner = s.link.session) :
    Touch ⟨now, .shootState state⟩ s
      { s with sessions := Function.update s.sessions id { s.sessions id with started := true } } :=
  { touch_self (s := s) (e := ⟨now, .shootState state⟩) rfl (by simp) with
    started := fun other hother => by
      by_cases hsame : other = id
      · exact .inr ⟨state, rfl, hactive, howner, hsame ▸ hcurrent⟩
      · exact .inl (by simpa [hsame] using hother)
    keeps_started := fun other hother => by
      by_cases hsame : other = id
      · simp [hsame]
      · simpa [hsame] using hother
    shots := fun other hother => by
      by_cases hsame : other = id
      · subst hsame
        simpa using hother
      · simpa [hsame] using hother
    stopAfter := fun other hother => by
      by_cases hsame : other = id
      · subst hsame
        simpa using hother
      · simpa [hsame] using hother
    fired := fun hdiscs => absurd hdiscs (Nat.lt_irrefl 0) }

theorem moves_shootState (hs : Alone s) (state : ShootState) :
    Moves ⟨now, .shootState state⟩ s := by
  have hheard : SameCore s { s with shootState := some state, shootStateAt := now } :=
    ⟨rfl, fun _ => .refl _, rfl, rfl, rfl, rfl⟩
  have hspec : ∃ s₁, Touch ⟨now, .shootState state⟩ s s₁ ∧
      Quiet now s₁ (s.onShootState now state) := by
    unfold Page.onShootState
    dsimp only
    split
    next => exact ⟨s, touch_self rfl (by simp), hheard.still hs⟩
    next id hcurrent =>
      split
      next hnamed =>
        simp only [Bool.and_eq_true, decide_eq_true_eq] at hnamed
        have htouch := @touch_named _ now _ _ hcurrent hnamed.1.1 hnamed.1.2
        refine ⟨_, htouch, SameCore.quiet ?_ (htouch.alone hs) (by simp) (by simp)⟩
        simp only [Page.mapCurrent, hcurrent]
        exact ⟨rfl, fun _ => .refl _, rfl, rfl, rfl, rfl⟩
      next =>
        refine ⟨s, touch_self rfl (by simp), ?_⟩
        split
        · exact (hheard.still hs).first (quiet_finish (hheard.alone hs) .bridge)
        · exact hheard.still hs
  obtain ⟨s₁, htouch, hquiet⟩ := hspec
  exact Quiet.moves hquiet htouch

theorem moves_refused (hs : Alone s) (refused : Refused) : Moves ⟨now, .refused refused⟩ s := by
  have hnoted : ∀ {s₁ : Page}, Alone s₁ →
      Quiet now s₁ ({ s₁ with note := some (.refused refused) }, []) :=
    fun hs => SameCore.still ⟨rfl, fun _ => .refl _, rfl, rfl, rfl, rfl⟩ hs
  by_cases hfire : refused.request = .fire
  · have htouch : Touch ⟨now, .refused refused⟩ s
        { s with firePending := none, tracker := { s.tracker with pending := none } } :=
      { touch_self (s := s) (e := ⟨now, .refused refused⟩) rfl (by simp) with
        asked := fun h => by cases h
        pending := .inr (.inr ⟨rfl, .inl ⟨refused, rfl, hfire⟩⟩)
        fired := fun hdiscs => absurd hdiscs (Nat.lt_irrefl 0) }
    refine Quiet.moves ?_ htouch
    simp only [step, Page.onRefused, hfire, if_true, ne_eq, not_true, decide_false, Bool.and_false,
      Bool.false_eq_true, if_false]
    exact hnoted (htouch.alone hs)
  · refine @Quiet.moves _ _ s ?_ (touch_self rfl (by simp))
    simp only [step, Page.onRefused, hfire, if_false]
    split
    · exact (hnoted hs).first (quiet_finish (hnoted hs).alone .refused)
    · exact hnoted hs

/-- A disc of the page has been fired: the session that runs ends some time later. -/
theorem touch_fired {shot : ShotStatus} {count : Option ℤ}
    (hdiscs : 0 < newLabDiscs s.tracker.count shot) :
    Touch ⟨now, .shot shot⟩ s
      ({ s with tracker := { count := count, pending := none } }.mapCurrent fun session =>
        { session with shots := session.shots + 1, stopAfter := some (now + afterShotMs) }) := by
  have hlab : 0 < labDiscs (stepOf step s ⟨now, .shot shot⟩) := hdiscs
  unfold Page.mapCurrent
  dsimp only
  split
  next hcurrent =>
    exact
      { current := rfl
        nextSession := rfl
        intervals := rfl
        started := fun _ h => .inl h
        keeps_started := fun _ h => h
        shots := fun _ h => h
        stopAfter := fun _ h => h
        confirmed := fun h => .inl h
        asked := fun h => by cases h
        pending := .inr (.inr ⟨rfl, .inr hlab⟩)
        fired := fun _ _ id hid => by
          rw [hcurrent] at hid
          cases hid }
  next running hcurrent =>
    refine
      { current := rfl
        nextSession := rfl
        intervals := rfl
        started := fun id h => ?_
        keeps_started := fun id h => ?_
        shots := fun id h => ?_
        stopAfter := fun id h => ?_
        confirmed := fun h => .inl h
        asked := fun h => by cases h
        pending := .inr (.inr ⟨rfl, .inr hlab⟩)
        fired := fun _ _ id hid => ?_ }
    · by_cases hsame : id = running
      · subst hsame
        exact .inl (by simpa using h)
      · exact .inl (by simpa [hsame] using h)
    · by_cases hsame : id = running
      · subst hsame
        simpa using h
      · simpa [hsame] using h
    · by_cases hsame : id = running
      · simp [hsame]
      · simpa [hsame] using h
    · by_cases hsame : id = running
      · simp [hsame]
      · simpa [hsame] using h
    · rw [hcurrent] at hid
      cases hid
      simp

theorem SameCore.mapCurrent {f : Session → Session} (h : SameCore s s')
    (hf : ∀ a b, SameFlags a b → SameFlags (f a) (f b)) :
    SameCore (s.mapCurrent f) (s'.mapCurrent f) := by
  unfold Page.mapCurrent
  rw [h.current]
  cases hcurrent : s.current with
  | none => exact ⟨h.current, h.sessions, h.nextSession, h.intervals, h.confirmed, h.pending⟩
  | some id =>
    refine ⟨rfl, fun other => ?_, h.nextSession, h.intervals, h.confirmed, h.pending⟩
    by_cases hsame : other = id
    · subst hsame
      simpa using hf _ _ (h.sessions other)
    · simpa [hsame] using h.sessions other

theorem tracker_followTilt (deg : ℚ) : (s.followTilt now deg).tracker = s.tracker := by
  unfold Page.followTilt
  dsimp only
  split <;> split <;> rfl

theorem onShot_heard (s : Page) (now : ℚ) (shot : ShotStatus) :
    ∃ s₀, SameCore s s₀ ∧ s₀.tracker = s.tracker ∧
      s.onShot now shot = match ingestShot s₀.tracker shot now with
        | (tracker, some (.fired row)) =>
          ({ s₀ with
              tracker := tracker
              firePending := none
              shotsThisPage := s₀.shotsThisPage + 1
              note := some (.fired row) }.mapCurrent fun session =>
              { session with shots := session.shots + 1, stopAfter := some (now + afterShotMs) },
            [.shotFired row])
        | (tracker, some (.notFired reason)) => ({ s₀ with tracker := tracker }.missed reason, [])
        | (tracker, _) => ({ s₀ with tracker := tracker }, []) := by
  refine ⟨_, ?_, ?_, rfl⟩
  all_goals split
  · have h := @sameCore_followTilt { s with shot := some shot, shotAt := now } now ‹ℚ›
    exact ⟨h.current, h.sessions, h.nextSession, h.intervals, h.confirmed, h.pending⟩
  · exact ⟨rfl, fun _ => .refl _, rfl, rfl, rfl, rfl⟩
  · exact tracker_followTilt _
  · rfl

theorem moves_shot (hs : Alone s) (shot : ShotStatus) : Moves ⟨now, .shot shot⟩ s := by
  obtain ⟨s₀, hcore, htracker, hshot⟩ := onShot_heard s now shot
  have hcases := ingestShot_cases s.tracker shot now
  rw [htracker] at hshot
  cases hingest : ingestShot s.tracker shot now with
  | mk tracker result =>
    rw [hingest] at hshot hcases
    rcases hcases with ⟨row, hrow, hnone, hdiscs⟩ | ⟨hnot, hwaits, hpending⟩
    · dsimp only at hrow hnone
      subst hrow
      have htouch := @touch_fired s now _ tracker.count hdiscs
      refine Quiet.moves ?_ htouch
      simp only [step, hshot]
      refine SameCore.quiet (SameCore.mapCurrent ?_ ?_) (htouch.alone hs) (by simp) (by simp)
      · exact ⟨hcore.current, hcore.sessions, hcore.nextSession, hcore.intervals, hcore.confirmed,
          hnone⟩
      · intro a b hab
        exact ⟨hab.started, congrArg (· + 1) hab.shots, rfl⟩
    · have htouch : Touch ⟨now, .shot shot⟩ s s :=
        { current := rfl
          nextSession := rfl
          intervals := rfl
          started := fun _ h => .inl h
          keeps_started := fun _ h => h
          shots := fun _ h => h
          stopAfter := fun _ h => h
          confirmed := fun h => .inl h
          asked := fun h => by cases h
          pending := .inr (.inl rfl)
          fired := fun hdiscs hwaiting => by
            rw [hwaits hdiscs] at hwaiting
            cases hwaiting }
      refine @Quiet.moves _ _ s ?_ htouch
      have hquiet : ∀ s' : Page, SameCore s { s' with tracker := s.tracker } →
          s'.tracker = tracker → Quiet now s (s', []) := by
        intro s' hsame htr
        have hstill := @SameCore.still _ _ now hsame hs
        exact
          { hstill with
            alone := ⟨hstill.alone.interval, hstill.alone.bound⟩
            pending := by
              rw [← htr] at hpending
              exact hpending }
      simp only [step, hshot]
      match result with
      | none | some (.otherFired _) | some (.notFired _) =>
        refine hquiet _ ?_ rfl
        exact ⟨hcore.current, hcore.sessions, hcore.nextSession, hcore.intervals, hcore.confirmed,
          rfl⟩
      | some (.fired row) => exact absurd rfl (hnot row)

theorem moves_fire (hs : Alone s) : Moves ⟨now, .fire⟩ s := by
  by_cases hmay : s.mayFire now = true
  · obtain ⟨p, s', hp, hcore, hfire⟩ : ∃ (p : PendingFire) (s' : Page), p.at_ = now ∧
        SameCore { s with tracker := { s.tracker with pending := some p } } s' ∧
        s.fireOne now =
          if s'.sends then (s', [.frame (.fire s'.confirmed)]) else s'.finish .lost := by
      let p : PendingFire :=
        { at_ := now
          percent := clampPercent (s.session?.map fun session => (session.percent : ℚ))
            (s.readiness now).limits
          tilt := s.shownTilt now }
      refine ⟨p, { s with
        firePending := some now
        tracker := { s.tracker with pending := some p }
        note := none }, rfl, ?_, ?_⟩
      · exact ⟨rfl, fun _ => .refl _, rfl, rfl, rfl, rfl⟩
      · unfold Page.fireOne
        rw [if_neg (by simp [hmay])]
    have htouch : Touch ⟨now, .fire⟩ s { s with tracker := { s.tracker with pending := some p } } :=
      { current := rfl
        nextSession := rfl
        intervals := rfl
        started := fun _ h => .inl h
        keeps_started := fun _ h => h
        shots := fun _ h => h
        stopAfter := fun _ h => h
        confirmed := fun h => .inl h
        asked := fun _ _ => ⟨p, rfl, hp⟩
        pending := .inl ⟨rfl, hmay⟩
        fired := fun hdiscs => absurd hdiscs (Nat.lt_irrefl 0) }
    refine ⟨⟨_, htouch, ?_⟩, fun _ _ => ⟨rfl, hmay⟩⟩
    have hs₁ := htouch.alone hs
    simp only [step, hfire]
    split
    · exact hcore.still hs₁
    · have hlost : Quiet now s' (s'.finish .lost) := quiet_finish (hcore.alone hs₁) .lost
      exact (hcore.still hs₁).first
        { hlost with
          no_fire := fun confirm hmem => hlost.no_fire confirm (List.mem_of_mem_filter hmem)
          beats := fun id power hmem => hlost.beats id power (List.mem_of_mem_filter hmem) }
  · refine @Quiet.moves _ _ s ?_ (touch_self rfl fun _ h => hmay h)
    simp only [step, Page.fireOne, hmay]
    exact (SameCore.refl s).still hs

theorem moves (hs : Alone s) (e : Event) : Moves e s := by
  obtain ⟨now, action⟩ := e
  cases action with
  | tick value => exact moves_tick hs value
  | rollerPercent percent => exact Quiet.moves (quiet_setRollerPercent hs percent) (touch_self rfl (by simp))
  | spin => exact Quiet.moves (quiet_startRoller hs) (touch_self rfl (by simp))
  | tilt deg => exact Quiet.moves (quiet_setTilt hs deg) (touch_self rfl (by simp))
  | fire => exact moves_fire hs
  | stopLauncher => exact Quiet.moves (quiet_stopLauncher hs) (touch_self rfl (by simp))
  | stopOwn left => exact Quiet.moves (quiet_finish hs _) (touch_self rfl (by simp))
  | escape => exact Quiet.moves (quiet_finish hs _) (touch_self rfl (by simp))
  | hide => exact Quiet.moves (quiet_finish hs _) (touch_self rfl (by simp))
  | shootState state => exact moves_shootState hs state
  | refused refused => exact moves_refused hs refused
  | shot shot => exact moves_shot hs shot
  | roller => exact Quiet.moves ((SameCore.refl s).still hs) (touch_self rfl (by simp))
  | link link => exact Quiet.moves (quiet_onLink hs link) (touch_self rfl (by simp))
  | reopen =>
    have hcleared : Quiet now s ({ s with shootState := none, shot := none }, []) :=
      SameCore.still ⟨rfl, fun _ => .refl _, rfl, rfl, rfl, rfl⟩ hs
    refine @Quiet.moves _ _ s ?_ (touch_self rfl (by simp))
    simp only [step, Page.onReopen]
    exact hcleared.first (quiet_onLink hcleared.alone _)
  | socket isOpen =>
    have hset : Quiet now s ({ s with socketOpen := isOpen }, []) :=
      SameCore.still ⟨rfl, fun _ => .refl _, rfl, rfl, rfl, rfl⟩ hs
    exact Quiet.moves hset (touch_self rfl (by simp))
  | heartbeat id =>
    refine @Quiet.moves _ _ s ?_ (touch_self rfl (by simp))
    simp only [step]
    split
    next hid => exact quiet_heartbeat hs (hs.interval id hid)
    next => exact (SameCore.refl s).still hs
  | tiltTimer =>
    refine @Quiet.moves _ _ s ?_ (touch_self rfl (by simp))
    simp only [step]
    split
    · exact quiet_sendTilt hs
    · exact (SameCore.refl s).still hs

/-! ## Runs -/

/-- How the page stands after the steps `past`. -/
structure Follows (past : List PageStep) (s : Page) : Prop where
  alone : Alone s
  next : ∀ u ∈ past, u.post.nextSession ≤ s.nextSession
  ended : ∀ u ∈ past, ∀ id < u.post.nextSession, s.current = some id → u.post.current = some id
  named : ∀ id, s.current = some id → (s.sessions id).started = true →
    ∃ u ∈ past, NamesOwner id u
  /-- A disc has taken the tick, or its session is still to end. -/
  spent : ¬ TickedSinceReport past → s.confirmed = true → ∃ id, s.current = some id ∧
    (s.sessions id).started = true ∧ 0 < (s.sessions id).shots ∧
      (s.sessions id).stopAfter.isSome
  answered : ∀ a u b, past = a ++ u :: b → Fires u → (∃ v ∈ b, Answers u v) ∨
    ∃ p, s.tracker.pending = some p ∧ p.at_ = u.event.at_

theorem follows_start : Follows [] Page.loaded where
  alone := ⟨by simp [Page.loaded], by simp [Page.loaded]⟩
  next := by simp
  ended := by simp
  named _ h := by cases h
  spent h := absurd (by
    intro a t b hsplit
    simp at hsplit) h
  answered a u b h := by simp at h

theorem exists_session {p : Session → Bool} (h : s.session?.any p = true) :
    ∃ id, s.current = some id ∧ p (s.sessions id) = true := by
  unfold Page.session? at h
  cases hcurrent : s.current with
  | none => simp [hcurrent] at h
  | some id => exact ⟨id, rfl, by simpa [hcurrent] using h⟩

theorem not_ticked_snoc {past : List PageStep} {t : PageStep}
    (h : ¬ TickedSinceReport (past ++ [t])) :
    ReportsOwnDisc past t ∨ ¬ Ticks t ∧ ¬ TickedSinceReport past := by
  by_contra hno
  obtain ⟨hreport, hother⟩ := not_or.mp hno
  refine h fun a r b hsplit hown => ?_
  rcases snoc_eq_append_cons hsplit with ⟨-, rfl, rfl⟩ | ⟨b', rfl, hpast⟩
  · exact absurd hown hreport
  · by_cases hticks : Ticks t
    · exact ⟨t, by simp, hticks⟩
    · have hpast' : TickedSinceReport past := by
        by_contra hnot
        exact hother ⟨hticks, hnot⟩
      obtain ⟨u, hu, htick⟩ := hpast' a r b' hpast hown
      exact ⟨u, by simp [hu], htick⟩

theorem Touch.spent {e : Event} {s₁ : Page} {past : List PageStep} (htouch : Touch e s s₁)
    (h : Follows past s) (hin : InTurn past (stepOf step s e))
    (hnot : ¬ TickedSinceReport (past ++ [stepOf step s e])) (hconfirmed : s₁.confirmed = true) :
    ∃ id, s.current = some id ∧ (s₁.sessions id).started = true ∧ 0 < (s₁.sessions id).shots ∧
      (s₁.sessions id).stopAfter.isSome := by
  rcases not_ticked_snoc hnot with hreport | ⟨hticks, hpast⟩
  · rcases hin.report hreport with hoff | ⟨hwaits, hstarted⟩
    · rcases htouch.confirmed hconfirmed with hon | htick
      · rw [show s.confirmed = false from hoff] at hon
        cases hon
      · have hnone : labDiscs (stepOf step s e) = 0 := by
          simp [labDiscs, stepOf, htick]
        exact absurd hreport.1 (by omega)
    · obtain ⟨id, hid, hflag⟩ := exists_session hstarted
      have hdisc := htouch.fired hreport.1 hwaits id hid
      exact ⟨id, hid, htouch.keeps_started id hflag, hdisc.1, hdisc.2⟩
  · rcases htouch.confirmed hconfirmed with hon | htick
    · obtain ⟨id, hid, hstarted, hshots, hstop⟩ := h.spent hpast hon
      exact ⟨id, hid, htouch.keeps_started id hstarted, htouch.shots id hshots,
        htouch.stopAfter id hstop⟩
    · exact absurd htick hticks

theorem follows_step {e : Event} {past : List PageStep} (h : Follows past s)
    (hin : InTurn past (stepOf step s e)) :
    Follows (past ++ [stepOf step s e]) (step s e).1 := by
  obtain ⟨⟨s₁, htouch, hquiet⟩, hfires⟩ := moves h.alone e
  have hs₁ := htouch.alone h.alone
  have hnext : s.nextSession ≤ (step s e).1.nextSession := htouch.nextSession ▸ hquiet.next
  have hold : ∀ id, (step s e).1.current = some id → id < s.nextSession →
      s.current = some id ∧ SameFlags (s₁.sessions id) ((step s e).1.sessions id) := by
    intro id hid hlt
    obtain ⟨hcurrent, hflags⟩ := hquiet.kept id hid (htouch.nextSession ▸ hlt)
    exact ⟨htouch.current ▸ hcurrent, hflags⟩
  refine
    { alone := hquiet.alone
      next := fun u hu => ?_
      ended := fun u hu id hlt hid => ?_
      named := fun id hid hstarted => ?_
      spent := fun hnot hconfirmed => ?_
      answered := fun a u b hsplit hu => ?_ }
  · rcases List.mem_append.mp hu with hu | hu
    · exact (h.next u hu).trans hnext
    · rw [List.mem_singleton.mp hu]
      exact Nat.le_refl _
  · rcases List.mem_append.mp hu with hu | hu
    · exact h.ended u hu id hlt (hold id hid (hlt.trans_le (h.next u hu))).1
    · rw [List.mem_singleton.mp hu]
      exact hid
  · by_cases hlt : id < s.nextSession
    · obtain ⟨hcurrent, hflags⟩ := hold id hid hlt
      rcases htouch.started id (hflags.started ▸ hstarted) with hbefore | hnames
      · obtain ⟨u, hu, hnames⟩ := h.named id hcurrent hbefore
        exact ⟨u, List.mem_append_left _ hu, hnames⟩
      · exact ⟨_, by simp, hnames⟩
    · have hnew := hquiet.fresh id hid (htouch.nextSession ▸ Nat.not_lt.mp hlt)
      rw [show ((step s e).1.sessions id).started = false from hnew] at hstarted
      cases hstarted
  · obtain ⟨id, hid, hstarted, hshots, hstop⟩ :=
      htouch.spent h hin hnot (hquiet.confirmed hconfirmed)
    have hlt : id < s₁.nextSession := htouch.nextSession ▸ h.alone.bound id hid
    have hcurrent := hquiet.spent hconfirmed id hlt (htouch.current ▸ hid) hstarted hshots
    have hflags := (hold id hcurrent (htouch.nextSession ▸ hlt)).2
    exact ⟨id, hcurrent, hflags.started.trans hstarted, hflags.shots ▸ hshots,
      hflags.stopAfter ▸ hstop⟩
  · have hkept : ∀ p, s₁.tracker.pending = some p →
        (step s e).1.tracker.pending = some p ∨
          (step s e).1.tracker.pending = none ∧ fireConfirmMs < e.at_ - p.at_ := by
      intro p hp
      rcases hquiet.pending with hsame | ⟨p', hp', hnone, hlate⟩
      · exact .inl (hsame.trans hp)
      · cases hp.symm.trans hp'
        exact .inr ⟨hnone, hlate⟩
    rcases snoc_eq_append_cons hsplit with ⟨-, rfl, rfl⟩ | ⟨b', rfl, hpast⟩
    · -- the fire of this step waits
      obtain ⟨confirm, hmem⟩ := hu
      obtain ⟨haction, hmay⟩ := hfires confirm hmem
      obtain ⟨p, hp, hat⟩ := htouch.asked haction hmay
      rcases hkept p hp with hwaits | ⟨-, hlate⟩
      · exact .inr ⟨p, hwaits, hat⟩
      · rw [hat, sub_self] at hlate
        exact absurd hlate (by unfold fireConfirmMs; norm_num)
    · rcases h.answered a u b' hpast hu with ⟨v, hv, hanswers⟩ | ⟨p, hp, hat⟩
      · exact .inl ⟨v, List.mem_append_left _ hv, hanswers⟩
      · rcases htouch.pending with ⟨haction, hmay⟩ | hsame | ⟨-, hanswer⟩
        · have hnone := (hin.fire haction hmay).2.1
          rw [show s.tracker.pending = none from hnone] at hp
          cases hp
        · rcases hkept p (hsame.trans hp) with hwaits | ⟨hnone, hlate⟩
          · exact .inr ⟨p, hwaits, hat⟩
          · refine .inl ⟨_, List.mem_append_right _ (List.mem_singleton_self _), .inr (.inr ?_)⟩
            exact ⟨by simp [stepOf, hp], hnone, hat ▸ hlate⟩
        · refine .inl ⟨_, List.mem_append_right _ (List.mem_singleton_self _), ?_⟩
          rcases hanswer with hrefused | hdiscs
          · exact .inl hrefused
          · exact .inr (.inl hdiscs)

theorem spinning_of_fireControl {r : Readiness} {page : Local} (h : fireControl r page = none) :
    page.spinning = true := by
  unfold fireControl at h
  split at h
  · cases h
  · split at h
    · cases h
    · rename_i hspinning
      simpa using hspinning

/-- In a run that has come to `s` in turn, a step in turn does what is asked of it. -/
theorem Follows.oneTickPerDisc {e : Event} {past : List PageStep} (h : Follows past s)
    (hin : InTurn past (stepOf step s e)) : OneTickPerDisc past (stepOf step s e) := by
  obtain ⟨⟨s₁, htouch, hquiet⟩, hfires⟩ := moves h.alone e
  have hmay : Fires (stepOf step s e) → e.action = .fire ∧ s.mayFire e.at_ = true :=
    fun ⟨confirm, hmem⟩ => hfires confirm hmem
  have hconfirmed : s.mayFire e.at_ = true → s.confirmed = true := by
    intro hmay
    simp only [Page.mayFire, Bool.and_eq_true] at hmay
    exact hmay.1.1
  refine
    { ticked := fun hf => hconfirmed (hmay hf).2
      owner := fun hf => ?_
      answered := fun hf a u b hsplit hu => ?_
      ticked_again := fun hf => ?_
      ended := fun id power hmem u hu hlt => ?_ }
  · obtain ⟨haction, hmay⟩ := hmay hf
    obtain ⟨hstarted, -, -⟩ := hin.fire haction hmay
    obtain ⟨id, hid, hflag⟩ := exists_session hstarted
    refine ⟨id, hid, ?_, h.named id hid hflag⟩
    simp only [Page.mayFire, Bool.and_eq_true, Option.isNone_iff_eq_none] at hmay
    have hspinning := @spinning_of_fireControl _ (s.local_ e.at_) hmay.1.2
    obtain ⟨id', hid', hspin⟩ := exists_session (s := s) hspinning
    cases hid.symm.trans hid'
    have hmode : (s.sessions id).mode = .spin := by simpa using hspin
    exact hmode
  · rcases h.answered a u b hsplit hu with hanswered | ⟨p, hp, -⟩
    · exact hanswered
    · have hnone := (hin.fire (hmay hf).1 (hmay hf).2).2.1
      rw [show s.tracker.pending = none from hnone] at hp
      cases hp
  · by_contra hnot
    obtain ⟨id, hid, -, -, hstop⟩ := h.spent hnot (hconfirmed (hmay hf).2)
    refine hnot ((hin.fire (hmay hf).1 (hmay hf).2).2.2 ?_)
    simpa [Page.discFired, Page.session?, stepOf, hid] using hstop
  · have hbeat := hquiet.beats id power (List.mem_filter.mpr ⟨hmem, rfl⟩)
    rcases hbeat with hcurrent | hnew
    · exact h.ended u hu id hlt (htouch.current ▸ hcurrent)
    · have := h.next u hu
      rw [htouch.nextSession] at hnew
      omega

/-- In every run in turn, the page fires only with the tick set, in a session of its own that the
bridge has named it the owner of, with every earlier fire answered, and not again after its disc
until the learner has ticked again; and no session that is over beats. -/
theorem one_tick_per_disc (es : List Event)
    (hin : ∀ a t b, trace step Page.loaded es = a ++ t :: b → InTurn a t) :
    ∀ a t b, trace step Page.loaded es = a ++ t :: b → OneTickPerDisc a t := by
  intro a t b hsplit
  obtain ⟨es₁, e, es₂, rfl, rfl, rfl, -⟩ := trace_split hsplit
  have hbefore : Follows (trace step Page.loaded es₁) (final step Page.loaded es₁) := by
    refine trace_history InTurn follows_start (fun past s e h hin => follows_step h hin) es₁ ?_
    intro a t b h
    refine hin a t (b ++ trace step (final step Page.loaded es₁) (e :: es₂)) ?_
    rw [trace_append, h]
    simp
  exact hbefore.oneTickPerDisc (hin _ _ _ hsplit)

/-- A step that is in turn whatever came before. -/
def careful (t : PageStep) : Bool :=
  (match t.event.action with
    | .fire => !t.pre.mayFire t.event.at_ ||
      (t.pre.started && t.pre.tracker.pending.isNone && !t.pre.discFired)
    | _ => true) &&
  (labDiscs t == 0 || !t.pre.confirmed || (t.pre.tracker.pending.isSome && t.pre.started))

theorem inTurn_of_careful {past : List PageStep} {t : PageStep} (h : careful t = true) :
    InTurn past t := by
  unfold careful at h
  rw [Bool.and_eq_true] at h
  constructor
  · intro haction hmay
    have hfire := h.1
    simp only [haction, hmay, Bool.not_true, Bool.false_or, Bool.and_eq_true,
      Option.isNone_iff_eq_none, Bool.not_eq_true'] at hfire
    refine ⟨hfire.1.1, hfire.1.2, fun hdisc => ?_⟩
    rw [hdisc] at hfire
    cases hfire.2
  · intro hreport
    have hdiscs := h.2
    simp only [Bool.or_eq_true, beq_iff_eq, Nat.pos_iff_ne_zero.mp hreport.1, false_or,
      Bool.not_eq_true', Bool.and_eq_true] at hdiscs
    exact hdiscs

theorem fires_of_any {t : PageStep} (h : t.out.any isFire = true) : Fires t := by
  obtain ⟨output, hmem, hfire⟩ := List.any_eq_true.mp h
  match output with
  | .frame (.fire confirm) => exact ⟨confirm, hmem⟩
  | .frame (.roller _ _) | .frame .rollerStop | .frame (.tilt _) => cases hfire
  | .sessionStart | .sessionEnd _ _ | .shotFired _ => cases hfire

/-! Page 7 on a robot that fires again after a tenth of a second. -/

def shortInterval : SomeLimits := { fireIntervalSec := some (1 / 10) }

def ownedState (nextFireInSec : ℚ) : ShootState where
  allowed := true
  active := true
  owner := some 7
  blockers := []
  rollerPower := some (1 / 2)
  tiltDeg := none
  readyToFire := decide (nextFireInSec = 0)
  nextFireInSec := some nextFireInSec
  spinReadyInSec := some 0
  sessionSec := some 0
  fired := some 0
  limits := shortInterval
  lastStop := none

def countedShot (count : ℤ) : ShotStatus where
  tiltDeg := some 30
  firedCount := some count
  shooting := false
  lastFireSource := some .lab
  estop := false
  labRefused := none

def untilDisc : List Event :=
  [⟨0, .link { isOpen := true, session := some 7, shoot := some { allowed := true } }⟩,
    ⟨0, .socket true⟩,
    ⟨10, .shootState { ownedState 0 with active := false, owner := none }⟩,
    ⟨20, .shot (countedShot 3)⟩,
    ⟨30, .tick true⟩,
    ⟨100, .spin⟩,
    ⟨150, .shootState (ownedState 0)⟩,
    ⟨160, .fire⟩,
    ⟨170, .shootState (ownedState (1 / 10))⟩,
    ⟨200, .heartbeat 0⟩,
    ⟨300, .heartbeat 0⟩,
    ⟨300, .shot (countedShot 4)⟩,
    ⟨310, .shootState (ownedState 0)⟩]

/-- The session ends after the shot, and the learner ticks again for the next disc. -/
def tickedAgain : List Event :=
  untilDisc ++
    [⟨400, .heartbeat 0⟩, ⟨500, .heartbeat 0⟩, ⟨700, .heartbeat 0⟩, ⟨1000, .heartbeat 0⟩,
      ⟨1100, .heartbeat 0⟩, ⟨1200, .shootState { ownedState 0 with owner := none }⟩,
      ⟨2000, .tick true⟩, ⟨2100, .spin⟩, ⟨2150, .shootState (ownedState 0)⟩, ⟨2200, .fire⟩]

theorem one_tick_per_disc_ticked :
    (trace step Page.loaded tickedAgain).countP (fun t => t.out.any isFire) = 2 ∧
      ∀ a t b, trace step Page.loaded tickedAgain = a ++ t :: b → OneTickPerDisc a t := by
  refine ⟨by decide +kernel, one_tick_per_disc _ fun a t b h => inTurn_of_careful ?_⟩
  have hall : (trace step Page.loaded tickedAgain).all careful = true := by
    decide +kernel
  rw [h, List.all_append, List.all_cons] at hall
  simp only [Bool.and_eq_true] at hall
  exact hall.2.1

/-- The button is on again before the session of the first disc has ended. -/
theorem second_disc_on_one_tick :
    ¬ ∀ a t b, trace step Page.loaded (untilDisc ++ [⟨320, .fire⟩]) = a ++ t :: b →
      OneTickPerDisc a t := by
  intro h
  let reported := final step Page.loaded (untilDisc.take 11)
  have hsplit : trace step Page.loaded (untilDisc ++ [⟨320, .fire⟩]) =
      trace step Page.loaded untilDisc ++
        stepOf step (final step Page.loaded untilDisc) ⟨320, .fire⟩ :: [] :=
    trace_append _ _ _
  have hfires : Fires (stepOf step (final step Page.loaded untilDisc) ⟨320, .fire⟩) :=
    fires_of_any (by decide +kernel)
  have hagain := (h _ _ _ hsplit).ticked_again hfires
  have hdisc : trace step Page.loaded untilDisc = trace step Page.loaded (untilDisc.take 11) ++
      stepOf step reported ⟨300, .shot (countedShot 4)⟩ ::
        [stepOf step (step reported ⟨300, .shot (countedShot 4)⟩).1
          ⟨310, .shootState (ownedState 0)⟩] :=
    trace_append (f := step) (s := Page.loaded) (untilDisc.take 11)
      [⟨300, .shot (countedShot 4)⟩, ⟨310, .shootState (ownedState 0)⟩]
  have hown : ReportsOwnDisc (trace step Page.loaded (untilDisc.take 11))
      (stepOf step reported ⟨300, .shot (countedShot 4)⟩) :=
    ⟨by decide +kernel, by decide +kernel⟩
  obtain ⟨u, hu, htick⟩ := hagain _ _ _ hdisc hown
  rw [List.mem_singleton.mp hu] at htick
  cases htick

end Questix.LabPage
