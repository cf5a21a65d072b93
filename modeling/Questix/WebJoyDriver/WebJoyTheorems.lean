/-
Questix.WebJoyDriver.WebJoyTheorems — the operator's input is held only while
it is the operator's, and recent.

`Effect` says what a step of the server does to the hold and to the role: it
leaves both alone, releases the hold, gives the operator's frame to it, or
takes a snapshot. Every change of the role, every stop and the operator's
disconnect release the hold, so that the latch of the hold blocks until the
operator of the time has sent an exactly neutral frame.
-/
import Questix.WebJoyDriver.HoldTheorems
import Questix.WebJoyDriver.WsServer

namespace Questix.WebJoyDriver

open Questix.Lib

namespace WebJoy

variable {s : WebJoy} {e : WebEvent} {ws : ℕ}

/-! ## The role -/

/-- The operator, if there is one, is connected. -/
def OwnerLive (s : WebJoy) : Prop := ∀ ws, s.owner = some ws → s.live ws = true

theorem live_iff : s.live ws = true ↔ ∃ c ∈ s.clients, c.1 = ws := by
  rw [live, List.lookup_isSome_iff]
  refine exists_congr fun c => and_congr_right fun _ => ?_
  rw [beq_iff_eq, eq_comm]

theorem live_setRequestedAt {other : ℕ} {requestedAt : Option ℚ}
    (h : s.live ws = true) : (s.setRequestedAt other requestedAt).live ws = true := by
  obtain ⟨c, hc, hws⟩ := live_iff.1 h
  refine live_iff.2 ⟨_, List.mem_map_of_mem hc, ?_⟩
  split <;> exact hws

theorem claim_cases (s : WebJoy) (ws : ℕ) :
    (s.claim ws).1 = s ∨ (s.live ws = true ∧ (s.claim ws).1 = s.setOwner (some ws)) := by
  unfold claim
  cases hclient : s.clients.lookup ws with
  | none => exact .inl rfl
  | some client =>
    have hlive : s.live ws = true := by rw [live, hclient]; rfl
    simp only
    split
    · exact .inr ⟨hlive, rfl⟩
    · split
      · exact .inl rfl
      · split
        · exact .inl rfl
        · split
          · exact .inr ⟨hlive, rfl⟩
          · exact .inl rfl

theorem handoverTarget_live {to_ : Option Value} {now : ℚ}
    (h : s.handoverTarget to_ now = some ws) : s.live ws = true := by
  unfold handoverTarget at h
  split at h
  · obtain ⟨c, hfind, hws⟩ := Option.map_eq_some_iff.1 h
    exact live_iff.2 ⟨c, List.mem_of_find?_eq_some hfind, hws⟩
  · cases h

/-! ## What a step does -/

/-- A stop pressed on a connected page. -/
def IsStop (s : WebJoy) (e : WebEvent) : Prop :=
  ∃ ws payload now, e = .message ws (some payload) now ∧ payload.hasType "stop" = true ∧
    s.live ws = true

/-- The operator's connection ends. -/
def IsOwnerGone (s : WebJoy) (e : WebEvent) : Prop := ∃ ws, e = .disconnect ws ∧ s.owner = some ws

inductive Effect (s : WebJoy) (e : WebEvent) (s' : WebJoy) (out : Out) : Prop where
  | idle (hhold : s'.hold = s.hold) (howner : s'.owner = s.owner) (hout : out = .quiet)
      (hstop : ¬ IsStop s e) (hgone : ¬ IsOwnerGone s e)
  | released (reason : String) (hhold : s'.hold = s.hold.release reason) (hout : out = .quiet)
  | framed (ws : ℕ) (payload : Value) (now : ℚ) (hevent : e = .message ws (some payload) now)
      (htype : payload.hasType "joy" = true) (hws : s.owner = some ws)
      (howner : s'.owner = s.owner) (hhold : s'.hold = (s.hold.accept payload now).1)
      (hout : out = .frame (s.hold.accept payload now).2)
  | shown (now : ℚ) (hevent : e = .snapshot now) (howner : s'.owner = s.owner)
      (hhold : s'.hold = (s.hold.snapshot now).1)
      (hout : out = .shown (s.hold.snapshot now).2)

theorem Effect.of_same {s' : WebJoy} (hstop : ¬ IsStop s e) (hgone : ¬ IsOwnerGone s e)
    (h : (s'.hold = s.hold ∧ s'.owner = s.owner) ∨ s'.hold = s.hold.release "owner_change") :
    Effect s e s' .quiet := by
  rcases h with ⟨hhold, howner⟩ | hhold
  · exact .idle hhold howner rfl hstop hgone
  · exact .released _ hhold rfl

theorem effect_claim (hstop : ¬ IsStop s e) (hgone : ¬ IsOwnerGone s e) {s₀ : WebJoy}
    (hhold : s₀.hold = s.hold) (howner : s₀.owner = s.owner) :
    Effect s e (s₀.claim ws).1 .quiet := by
  refine .of_same hstop hgone ?_
  rcases claim_cases s₀ ws with hsame | ⟨-, hset⟩
  · rw [hsame]
    exact .inl ⟨hhold, howner⟩
  · rw [hset]
    exact .inr (congrArg (JoyHold.release · "owner_change") hhold)

theorem hasType_unique {payload : Value} {a b : String} (ha : payload.hasType a = true)
    (hb : payload.hasType b = true) : a = b := by
  unfold Value.hasType at ha
  split at ha
  · rename_i kind hkind
    rw [Value.hasType, hkind] at hb
    exact (eq_of_beq ha).symm.trans (eq_of_beq hb)
  · cases ha

theorem not_isStop {payload : Value} {kind : String} {now : ℚ}
    (htype : payload.hasType kind = true) (hne : kind ≠ "stop") :
    ¬ IsStop s (.message ws (some payload) now) := by
  rintro ⟨_, _, _, heq, hstop, -⟩
  cases heq
  exact hne (hasType_unique htype hstop)

theorem not_isOwnerGone_message {payload : Option Value} {now : ℚ} :
    ¬ IsOwnerGone s (.message ws payload now) := by
  rintro ⟨_, heq, -⟩
  cases heq

theorem effect_release {to_ : Option Value} {now : ℚ} :
    (s.release to_ now).hold = s.hold.release "owner_change" := by
  unfold release
  split <;> rfl

theorem effect_requestHandover {client : Client} {now : ℚ} (hstop : ¬ IsStop s e)
    (hgone : ¬ IsOwnerGone s e) : Effect s e (s.requestHandover ws client now) .quiet := by
  unfold requestHandover
  split
  · exact effect_claim hstop hgone rfl rfl
  · split
    · exact .idle rfl rfl rfl hstop hgone
    · split
      · exact .idle rfl rfl rfl hstop hgone
      · exact .idle rfl rfl rfl hstop hgone

theorem onFrame_spec (s : WebJoy) (payload : Value) (now : ℚ) :
    (s.onFrame payload now).1.hold = (s.hold.accept payload now).1 ∧
    (s.onFrame payload now).1.owner = s.owner ∧
    (s.onFrame payload now).1.clients = s.clients ∧
    (s.onFrame payload now).2 = .frame (s.hold.accept payload now).2 := by
  unfold onFrame
  rcases s.hold.accept payload now with ⟨hold, _ | _⟩ <;> exact ⟨rfl, rfl, rfl, rfl⟩

theorem effect_dispatch {client : Client} {payload : Value} {now : ℚ} :
    Effect s (.message ws (some payload) now) (s.dispatch ws client payload now).1
      (s.dispatch ws client payload now).2 := by
  have hgone : ¬ IsOwnerGone s (.message ws (some payload) now) := not_isOwnerGone_message
  unfold dispatch
  split
  · rename_i hjoy
    have hstop : ¬ IsStop s (.message ws (some payload) now) := not_isStop hjoy (by decide)
    split
    · rename_i howner
      obtain ⟨hhold, hsame, -, hout⟩ := onFrame_spec s payload now
      exact .framed ws payload now rfl hjoy howner hsame hhold hout
    · exact .idle rfl rfl rfl hstop hgone
  · split
    · exact .released _ rfl rfl
    · rename_i hnostop
      have hstop : ¬ IsStop s (.message ws (some payload) now) := by
        rintro ⟨_, _, _, heq, hisStop, -⟩
        cases heq
        exact hnostop hisStop
      split
      · exact effect_claim hstop hgone rfl rfl
      · split
        · refine .of_same hstop hgone ?_
          split
          · exact .inr effect_release
          · exact .inl ⟨rfl, rfl⟩
        · split
          · exact effect_requestHandover hstop hgone
          · exact .idle rfl rfl rfl hstop hgone

theorem effect_message {payload : Option Value} {now : ℚ} :
    Effect s (.message ws payload now) (s.message ws payload now).1
      (s.message ws payload now).2 := by
  have hgone : ¬ IsOwnerGone s (.message ws payload now) := not_isOwnerGone_message
  unfold message
  split
  · rename_i hlookup
    refine .idle rfl rfl rfl ?_ hgone
    rintro ⟨_, _, _, heq, -, hlive⟩
    cases heq
    rw [live, hlookup] at hlive
    cases hlive
  · split
    · exact effect_dispatch
    · rename_i hdict
      refine .idle rfl rfl rfl ?_ hgone
      rintro ⟨_, stop, _, heq, htype, -⟩
      cases heq
      cases stop with
      | dict fields => exact hdict fields rfl
      | null => cases htype
      | bool b => cases htype
      | int i => cases htype
      | float x => cases htype
      | str t => cases htype
      | list items => cases htype

theorem effect_step (s : WebJoy) (e : WebEvent) : Effect s e (step s e).1 (step s e).2 := by
  cases e with
  | connect query =>
    have hstop : ¬ IsStop s (.connect query) := by
      rintro ⟨_, _, _, heq, -, -⟩
      cases heq
    have hgone : ¬ IsOwnerGone s (.connect query) := by
      rintro ⟨_, heq, -⟩
      cases heq
    simp only [step, connect]
    split
    · exact .idle rfl rfl rfl hstop hgone
    · split
      · exact effect_claim hstop hgone rfl rfl
      · exact .idle rfl rfl rfl hstop hgone
  | message ws payload now => exact effect_message
  | disconnect ws =>
    simp only [step, disconnect]
    split
    · exact .released _ rfl rfl
    · rename_i howner
      refine .idle rfl rfl rfl ?_ ?_
      · rintro ⟨_, _, _, heq, -, -⟩
        cases heq
      · rintro ⟨_, heq, hws⟩
        cases heq
        exact howner hws
  | snapshot now => exact .shown now rfl rfl rfl rfl

/-! ### The role is a client's -/

theorem ownerLive_setOwner {s₀ : WebJoy} {owner : Option ℕ}
    (h : ∀ ws, owner = some ws → s₀.live ws = true) : OwnerLive (s₀.setOwner owner) := h

theorem ownerLive_claim (h : OwnerLive s) : OwnerLive (s.claim ws).1 := by
  rcases claim_cases s ws with hsame | ⟨hlive, hset⟩
  · rw [hsame]
    exact h
  · rw [hset]
    refine ownerLive_setOwner ?_
    intro other hother
    cases hother
    exact hlive

theorem OwnerLive.of_live {s' : WebJoy} (h : OwnerLive s) (howner : s'.owner = s.owner)
    (hlive : ∀ ws, s.live ws = true → s'.live ws = true) : OwnerLive s' := by
  intro ws hws
  exact hlive ws (h ws (howner.symm.trans hws))

theorem ownerLive_connect (h : OwnerLive s) (query : List (String × String)) :
    OwnerLive (s.connect query) := by
  unfold connect
  simp only
  split
  · exact h
  · have hadded : ∀ client : Client, OwnerLive { s with
        clients := s.clients ++ [(s.nextId, client)], nextId := s.nextId + 1 } := by
      intro client
      refine h.of_live rfl ?_
      intro ws hlive
      obtain ⟨c, hc, hws⟩ := live_iff.1 hlive
      exact live_iff.2 ⟨c, List.mem_append_left _ hc, hws⟩
    split
    · exact ownerLive_claim (hadded _)
    · exact hadded _

theorem ownerLive_disconnect (h : OwnerLive s) (ws : ℕ) : OwnerLive (s.disconnect ws) := by
  unfold disconnect
  simp only
  split
  · exact ownerLive_setOwner (by simp)
  · rename_i hother
    intro owner howner
    obtain ⟨c, hc, hkey⟩ := live_iff.1 (h owner howner)
    refine live_iff.2 ⟨c, List.mem_filter.2 ⟨hc, ?_⟩, hkey⟩
    -- the connection that ends is not the operator's
    rw [bne_iff_ne, hkey]
    rintro rfl
    exact hother howner

theorem ownerLive_release (to_ : Option Value) (now : ℚ) : OwnerLive (s.release to_ now) := by
  unfold release
  split
  · rename_i target htarget
    refine ownerLive_setOwner ?_
    intro other hother
    cases hother
    exact live_setRequestedAt (handoverTarget_live htarget)
  · exact ownerLive_setOwner (by simp)

theorem ownerLive_requestHandover (h : OwnerLive s) {client : Client} {now : ℚ} :
    OwnerLive (s.requestHandover ws client now) := by
  unfold requestHandover
  split
  · exact ownerLive_claim h
  · split
    · exact h
    · split
      · exact h
      · exact h.of_live rfl fun _ => live_setRequestedAt

theorem ownerLive_dispatch (h : OwnerLive s) {client : Client} {payload : Value} {now : ℚ} :
    OwnerLive (s.dispatch ws client payload now).1 := by
  unfold dispatch
  split
  · split
    · obtain ⟨-, howner, hclients, -⟩ := onFrame_spec s payload now
      refine h.of_live howner ?_
      intro other hlive
      rw [live, hclients]
      exact hlive
    · exact h
  · split
    · exact h
    · split
      · exact ownerLive_claim h
      · split
        · simp only
          split
          · exact ownerLive_release _ _
          · exact h
        · split
          · exact ownerLive_requestHandover h
          · exact h

theorem ownerLive_step (s : WebJoy) (e : WebEvent) (h : OwnerLive s) : OwnerLive (step s e).1 := by
  cases e with
  | connect query => exact ownerLive_connect h query
  | message ws payload now =>
    simp only [step, message]
    split
    · exact h
    · split
      · exact ownerLive_dispatch h
      · exact h
  | disconnect ws => exact ownerLive_disconnect h ws
  | snapshot now => exact h

/-! ## Runs -/

/-- The driver when it starts. -/
def start (token : String) (numAxes numButtons : ℤ) (timeoutSec deadzone : Dbl) : WebJoy where
  hold := { numAxes, numButtons, timeoutSec, deadzone }
  token := token

abbrev WebStep := Step WebJoy WebEvent Out

/-- A frame of `ws` is accepted. -/
def Accepts (t : WebStep) (ws : ℕ) (payload : Value) (now : ℚ) : Prop :=
  t.event = .message ws (some payload) now ∧ ∃ changed, t.out = .frame (.ok ⟨true, changed⟩)

/-- An exactly neutral frame of the operator is accepted. -/
def Rearms (t : WebStep) : Prop :=
  ∃ ws payload now, Accepts t ws payload now ∧ t.pre.owner = some ws ∧
    isNeutralFrame payload = true

/-- A snapshot that is not neutral. -/
def Moves (t : WebStep) : Prop :=
  ∃ snapshot, t.out = .shown snapshot ∧ ¬ IsNeutral snapshot.axes snapshot.buttons

/-- The role changes, a connected page stops, or the operator's connection
ends. -/
def Disarms (t : WebStep) : Prop :=
  t.post.owner ≠ t.pre.owner ∨ IsStop t.pre t.event ∨ IsOwnerGone t.pre t.event

/-- The hold reads the clock: a snapshot, or a frame it is given. -/
def ReadsClock (t : WebStep) (now : ℚ) : Prop :=
  t.event = .snapshot now ∨
    ∃ ws payload result, t.event = .message ws payload now ∧ t.out = .frame result

/-! ### The latch -/

/-- The hold is latched, or latches in this step since its frame is overdue. -/
def Blocks (s : WebJoy) (e : WebEvent) : Prop :=
  s.hold.stopLatched = true ∨
    ∃ now, ReadsClock (stepOf step s e) now ∧ s.hold.overdue now = true

theorem blocks_message {payload : Value} {now : ℚ} (h : Blocks s (.message ws (some payload) now)) :
    s.hold.stopLatched = true ∨ s.hold.overdue now = true := by
  rcases h with hlatched | ⟨_, hread | ⟨_, _, _, hread, -⟩, hover⟩
  · exact .inl hlatched
  · cases hread
  · cases hread
    exact .inr hover

theorem blocks_snapshot {now : ℚ} (h : Blocks s (.snapshot now)) :
    s.hold.stopLatched = true ∨ s.hold.overdue now = true := by
  rcases h with hlatched | ⟨_, hread | ⟨_, _, _, hread, -⟩, hover⟩
  · exact .inl hlatched
  · cases hread
    exact .inr hover
  · cases hread

theorem latched_of_quiet (h : Blocks s e) (hquiet : (step s e).2 = .quiet) :
    s.hold.stopLatched = true := by
  rcases h with hlatched | ⟨_, hread | ⟨_, _, _, -, hframe⟩, -⟩
  · exact hlatched
  · change e = .snapshot _ at hread
    rw [hread] at hquiet
    cases hquiet
  · rw [show (step s e).2 = _ from hframe] at hquiet
    cases hquiet

theorem keep_latched (h : Blocks s e) (hno : ¬ Rearms (stepOf step s e)) :
    (step s e).1.hold.stopLatched = true := by
  cases effect_step s e with
  | idle hhold _ hquiet _ _ =>
    rw [hhold]
    exact latched_of_quiet h hquiet
  | released reason hhold _ => rw [hhold, JoyHold.release_stopLatched]
  | framed ws payload now hevent _ hws _ hhold hout =>
    subst hevent
    have hlatched := JoyHold.expire_latched (blocks_message h)
    rw [hhold]
    generalize hr : s.hold.accept payload now = r at hout
    have haccepts : JoyHold.Accepts s.hold payload now r := hr ▸ s.hold.accepts payload now
    cases haccepts with
    | refused result _ => exact hlatched
    | taken axes buttons changed _ hrearm =>
      exact absurd ⟨ws, payload, now, ⟨rfl, changed, hout⟩, hws, hrearm hlatched⟩ hno
  | shown now hevent _ hhold _ =>
    subst hevent
    rw [hhold, (s.hold.snapshot_spec now).1]
    exact JoyHold.expire_latched (blocks_snapshot h)

theorem safe_latched (h : Blocks s e) : ¬ Moves (stepOf step s e) := by
  rintro ⟨snapshot, hout, hmoves⟩
  change (step s e).2 = .shown snapshot at hout
  cases effect_step s e with
  | idle _ _ hquiet _ _ =>
    rw [hquiet] at hout
    cases hout
  | released _ _ hquiet =>
    rw [hquiet] at hout
    cases hout
  | framed _ _ _ _ _ _ _ _ hframe =>
    rw [hframe] at hout
    cases hout
  | shown now hevent _ _ hshown =>
    rw [hshown] at hout
    cases hout
    subst hevent
    have hlatched := JoyHold.expire_latched (blocks_snapshot h)
    rcases (s.hold.snapshot_spec now).2 with ⟨-, hneutral⟩ | ⟨hopen, -⟩
    · exact hmoves hneutral
    · rw [hlatched] at hopen
      cases hopen

theorem set_latched (h : Disarms (stepOf step s e)) : (step s e).1.hold.stopLatched = true := by
  have hchange : (step s e).1.owner ≠ s.owner ∨ IsStop s e ∨ IsOwnerGone s e := h
  cases effect_step s e with
  | idle _ howner _ hstop hgone =>
    rcases hchange with hne | hisStop | hisGone
    · exact absurd howner hne
    · exact absurd hisStop hstop
    · exact absurd hisGone hgone
  | released reason hhold _ => rw [hhold, JoyHold.release_stopLatched]
  | framed ws payload now hevent htype _ howner _ _ =>
    subst hevent
    rcases hchange with hne | hisStop | hisGone
    · exact absurd howner hne
    · exact absurd hisStop (not_isStop htype (by decide))
    · exact absurd hisGone not_isOwnerGone_message
  | shown now hevent howner _ _ =>
    subst hevent
    rcases hchange with hne | ⟨_, _, _, heq, -⟩ | ⟨_, heq, -⟩
    · exact absurd howner hne
    · cases heq
    · cases heq

/-! ### The frame held -/

/-- The parameters of the hold do not change. -/
def SameConfig (s₀ s : WebJoy) : Prop :=
  s.hold.numAxes = s₀.hold.numAxes ∧ s.hold.numButtons = s₀.hold.numButtons ∧
    s.hold.timeoutSec = s₀.hold.timeoutSec ∧ s.hold.deadzone = s₀.hold.deadzone

theorem sameConfig_expire (s : JoyHold) (now : ℚ) :
    (s.expireLocked now).1.numAxes = s.numAxes ∧
    (s.expireLocked now).1.numButtons = s.numButtons ∧
    (s.expireLocked now).1.timeoutSec = s.timeoutSec ∧
    (s.expireLocked now).1.deadzone = s.deadzone := by
  rcases JoyHold.expire_cases s now with ⟨hsame, -⟩ | hexpired
  · rw [hsame]
    exact ⟨rfl, rfl, rfl, rfl⟩
  · rw [hexpired]
    exact ⟨rfl, rfl, rfl, rfl⟩

theorem sameConfig_step (s : WebJoy) (e : WebEvent) : SameConfig s (step s e).1 := by
  cases effect_step s e with
  | idle hhold _ _ _ _ =>
    rw [SameConfig, hhold]
    exact ⟨rfl, rfl, rfl, rfl⟩
  | released reason hhold _ =>
    rw [SameConfig, hhold]
    exact ⟨rfl, rfl, rfl, rfl⟩
  | framed ws payload now _ _ _ _ hhold _ =>
    rw [SameConfig, hhold]
    generalize hr : s.hold.accept payload now = r
    have haccepts : JoyHold.Accepts s.hold payload now r := hr ▸ s.hold.accepts payload now
    cases haccepts with
    | refused result _ => exact sameConfig_expire s.hold now
    | taken axes buttons changed _ _ => exact ⟨rfl, rfl, rfl, rfl⟩
  | shown now _ _ hhold _ =>
    rw [SameConfig, hhold, (s.hold.snapshot_spec now).1]
    exact sameConfig_expire s.hold now

/-- The frame held, while the hold is open: none yet, or the last one accepted,
from the operator, who has been so since. -/
structure Held (s₀ : WebJoy) (past : List WebStep) (s : WebJoy) : Prop where
  config : SameConfig s₀ s
  empty : s.hold.stopLatched = false → s.hold.lastUpdate = none →
    IsNeutral s.hold.axes s.hold.buttons
  frame : s.hold.stopLatched = false → ∀ update, s.hold.lastUpdate = some update →
    ∃ x f y ws payload, past = x ++ f :: y ∧ Accepts f ws payload update ∧
      f.pre.owner = some ws ∧ s.owner = some ws ∧ (∀ r ∈ y, r.post.owner = some ws) ∧
      parseFrame payload s₀.hold.numAxes s₀.hold.numButtons s₀.hold.deadzone =
        .ok (s.hold.axes, s.hold.buttons)

theorem SameConfig.trans {s₀ s₁ s₂ : WebJoy} (h : SameConfig s₀ s₁) (h' : SameConfig s₁ s₂) :
    SameConfig s₀ s₂ :=
  ⟨h'.1.trans h.1, h'.2.1.trans h.2.1, h'.2.2.1.trans h.2.2.1, h'.2.2.2.trans h.2.2.2⟩

theorem Held.of_same {s₀ : WebJoy} {past : List WebStep} (h : Held s₀ past s) {t : WebStep}
    {s' : WebJoy} (ht : t.post = s') (hconfig : SameConfig s s') (howner : s'.owner = s.owner)
    (hhold : s'.hold.stopLatched = true ∨ s'.hold = s.hold) : Held s₀ (past ++ [t]) s' := by
  rcases hhold with hlatched | hhold
  · refine ⟨h.config.trans hconfig, ?_, ?_⟩
    · intro hopen
      rw [hlatched] at hopen
      cases hopen
    · intro hopen
      rw [hlatched] at hopen
      cases hopen
  · refine ⟨h.config.trans hconfig, hhold ▸ h.empty, ?_⟩
    rw [hhold]
    intro hopen update hupdate
    obtain ⟨x, f, y, ws, payload, rfl, haccepts, hws, hs, hsince, hparse⟩ :=
      h.frame hopen update hupdate
    refine ⟨x, f, y ++ [t], ws, payload, by simp, haccepts, hws, howner.trans hs, ?_, hparse⟩
    intro r hr
    rcases List.mem_append.1 hr with hr | hr
    · exact hsince r hr
    · obtain rfl := List.mem_singleton.1 hr
      rw [ht]
      exact howner.trans hs

theorem held_start (token : String) (numAxes numButtons : ℤ) (timeoutSec deadzone : Dbl) :
    Held (start token numAxes numButtons timeoutSec deadzone) []
      (start token numAxes numButtons timeoutSec deadzone) where
  config := ⟨rfl, rfl, rfl, rfl⟩
  empty _ _ :=
    @JoyHold.isNeutral_neutral (start token numAxes numButtons timeoutSec deadzone).hold
  frame _ update hupdate := by cases hupdate

theorem expire_same (s : JoyHold) (now : ℚ) :
    (s.expireLocked now).1.stopLatched = true ∨ (s.expireLocked now).1 = s := by
  rcases JoyHold.expire_cases s now with ⟨hsame, -⟩ | hexpired
  · exact .inr hsame
  · rw [hexpired]
    exact .inl rfl

theorem held_step {s₀ : WebJoy} {past : List WebStep} (h : Held s₀ past s) (e : WebEvent) :
    Held s₀ (past ++ [stepOf step s e]) (step s e).1 := by
  have hconfig := sameConfig_step s e
  cases effect_step s e with
  | idle hhold howner _ _ _ => exact h.of_same rfl hconfig howner (.inr hhold)
  | released reason hhold _ =>
    refine ⟨h.config.trans hconfig, ?_, ?_⟩
    · intro hopen
      rw [hhold] at hopen
      cases hopen
    · intro hopen
      rw [hhold] at hopen
      cases hopen
  | framed ws payload now hevent _ hws howner hhold hout =>
    generalize hr : s.hold.accept payload now = r at hhold hout
    have haccepts : JoyHold.Accepts s.hold payload now r := hr ▸ s.hold.accepts payload now
    cases haccepts with
    | refused result _ =>
      refine h.of_same rfl hconfig howner ?_
      rw [hhold]
      exact expire_same s.hold now
    | taken axes buttons changed hparse _ =>
      refine ⟨h.config.trans hconfig, ?_, ?_⟩
      · intro _ hnone
        rw [hhold] at hnone
        cases hnone
      · intro _ update hupdate
        rw [hhold] at hupdate ⊢
        cases hupdate
        rw [h.config.1, h.config.2.1, h.config.2.2.2] at hparse
        exact ⟨past, stepOf step s e, [], ws, payload, rfl, ⟨hevent, changed, hout⟩, hws,
          howner.trans hws, by simp, hparse⟩
  | shown now _ howner hhold _ =>
    refine h.of_same rfl hconfig howner ?_
    rw [hhold, (s.hold.snapshot_spec now).1]
    exact expire_same s.hold now

/-! ### A gap between frames -/

def AcceptsAny (t : WebStep) : Prop := ∃ ws payload now, Accepts t ws payload now

/-- The last frame was accepted at `update`, unless the hold has latched
since. -/
def UpdatedAt (update : ℚ) (s : WebJoy) : Prop :=
  s.hold.stopLatched = true ∨ s.hold.lastUpdate = some update

theorem updatedAt_of_accepts {payload : Value} {now : ℚ}
    (h : Accepts (stepOf step s e) ws payload now) : UpdatedAt now (step s e).1 := by
  obtain ⟨hevent, changed, hframe⟩ := h
  change e = _ at hevent
  change (step s e).2 = _ at hframe
  cases effect_step s e with
  | idle _ _ hquiet _ _ =>
    rw [hquiet] at hframe
    cases hframe
  | released _ _ hquiet =>
    rw [hquiet] at hframe
    cases hframe
  | shown _ _ _ _ hshown =>
    rw [hshown] at hframe
    cases hframe
  | framed _ _ _ hevent' _ _ _ hhold hout =>
    subst hevent
    cases hevent'
    rw [hout] at hframe
    generalize hr : s.hold.accept payload now = r at hhold hframe
    have haccepts : JoyHold.Accepts s.hold payload now r := hr ▸ s.hold.accepts payload now
    cases haccepts with
    | refused result hno =>
      cases hframe
      exact absurd rfl (hno changed)
    | taken axes buttons changed _ _ => exact .inr (congrArg JoyHold.lastUpdate hhold)

theorem updatedAt_step {update : ℚ} (h : UpdatedAt update s)
    (hno : ¬ AcceptsAny (stepOf step s e)) : UpdatedAt update (step s e).1 := by
  have hexpire : ∀ now, UpdatedAt update { s with hold := (s.hold.expireLocked now).1 } := by
    intro now
    rcases expire_same s.hold now with hlatched | hsame
    · exact .inl hlatched
    · rw [hsame]
      exact h
  cases effect_step s e with
  | idle hhold _ _ _ _ =>
    rw [UpdatedAt, hhold]
    exact h
  | released reason hhold _ =>
    rw [UpdatedAt, hhold]
    exact .inl rfl
  | shown now _ _ hhold _ =>
    rw [UpdatedAt, hhold, (s.hold.snapshot_spec now).1]
    exact hexpire now
  | framed ws payload now hevent _ _ _ hhold hout =>
    rw [UpdatedAt, hhold]
    generalize hr : s.hold.accept payload now = r at hout
    have haccepts : JoyHold.Accepts s.hold payload now r := hr ▸ s.hold.accepts payload now
    cases haccepts with
    | refused result _ => exact hexpire now
    | taken axes buttons changed _ _ =>
      exact absurd ⟨ws, payload, now, hevent, changed, hout⟩ hno

theorem not_moves_of_latched {es : List WebEvent} {p q : List WebStep} {u : WebStep}
    (h : s.hold.stopLatched = true) (hsplit : trace step s es = p ++ u :: q)
    (hno : ∀ r ∈ p, ¬ Rearms r) : ¬ Moves u := by
  obtain ⟨es₁, e, es₂, -, hp, hu, -⟩ := trace_split hsplit
  have hlatched : (final step s es₁).hold.stopLatched = true := by
    refine final_of_no_release (L := fun s => s.hold.stopLatched = true) Rearms es₁ s h ?_ ?_
    · intro t ht hpre hrearms
      rw [eq_stepOf_of_mem_trace ht] at hrearms ⊢
      exact keep_latched (.inl hpre) hrearms
    · rw [← hp]
      exact hno
  rw [hu]
  exact safe_latched (.inl hlatched)

/-- What the hold shows changes to anything but neutral by an accepted frame of
the operator only. -/
theorem held_change (s : WebJoy) (e : WebEvent)
    (hneutral : ¬ IsNeutral (step s e).1.hold.axes (step s e).1.hold.buttons) :
    ((step s e).1.hold.axes = s.hold.axes ∧ (step s e).1.hold.buttons = s.hold.buttons) ∨
      ∃ ws payload now, Accepts (stepOf step s e) ws payload now ∧ s.owner = some ws := by
  have hexpire : ∀ now, (step s e).1.hold = (s.hold.expireLocked now).1 →
      (step s e).1.hold.axes = s.hold.axes ∧ (step s e).1.hold.buttons = s.hold.buttons := by
    intro now hhold
    rw [hhold] at hneutral ⊢
    rcases JoyHold.expire_cases s.hold now with ⟨hsame, -⟩ | hexpired
    · rw [hsame]
      exact ⟨rfl, rfl⟩
    · rw [hexpired] at hneutral
      exact absurd JoyHold.isNeutral_neutral hneutral
  cases effect_step s e with
  | idle hhold _ _ _ _ =>
    rw [hhold]
    exact .inl ⟨rfl, rfl⟩
  | released reason hhold _ =>
    rw [hhold] at hneutral
    exact absurd JoyHold.isNeutral_neutral hneutral
  | shown now _ _ hhold _ => exact .inl (hexpire now (hhold.trans (s.hold.snapshot_spec now).1))
  | framed ws payload now hevent _ hws _ hhold hout =>
    generalize hr : s.hold.accept payload now = r at hhold hout
    have haccepts : JoyHold.Accepts s.hold payload now r := hr ▸ s.hold.accepts payload now
    cases haccepts with
    | refused result _ => exact .inl (hexpire now hhold)
    | taken axes buttons changed _ _ =>
      exact .inr ⟨ws, payload, now, ⟨hevent, changed, hout⟩, hws⟩

theorem snapshot_open {now : ℚ}
    (hneutral : ¬ IsNeutral (s.hold.snapshot now).2.axes (s.hold.snapshot now).2.buttons) :
    s.hold.stopLatched = false ∧ s.hold.overdue now = false ∧
      (s.hold.snapshot now).2.axes = s.hold.axes ∧
      (s.hold.snapshot now).2.buttons = s.hold.buttons := by
  rcases (s.hold.snapshot_spec now).2 with ⟨-, hzero⟩ | ⟨hopen, haxes, hbuttons⟩
  · exact absurd hzero hneutral
  · rcases JoyHold.expire_cases s.hold now with ⟨hsame, hno⟩ | hexpired
    · rw [hsame] at hopen haxes hbuttons
      rcases hno with hlatched | hfresh
      · rw [hlatched] at hopen
        cases hopen
      · exact ⟨hopen, hfresh, haxes, hbuttons⟩
    · rw [hexpired] at hopen
      cases hopen

/-! ### The main result -/

/-- With a timeout: where `f` is the last frame accepted, at `update`, and the
hold finds it overdue at `g`, nothing moves from `g` on before the operator
rearms. -/
def TimedOut (s₀ : WebJoy) (run : List WebStep) : Prop :=
  0 < s₀.hold.timeoutSec → ∀ x f y g z ws payload update now,
    run = x ++ f :: (y ++ g :: z) → Accepts f ws payload update →
    (∀ r ∈ y, ¬ AcceptsAny r) → ReadsClock g now → s₀.hold.timeoutSec < .fin (now - update) →
    ∀ p u q, g :: z = p ++ u :: q → Moves u → ∃ r ∈ p, Rearms r

/-- What a snapshot that is not neutral shows: a frame accepted from the
operator, who has been so since, within the timeout if there is one. -/
def Fresh (s₀ : WebJoy) (run : List WebStep) : Prop :=
  ∀ a t b snapshot now, run = a ++ t :: b → t.event = .snapshot now → t.out = .shown snapshot →
    ¬ IsNeutral snapshot.axes snapshot.buttons →
    ∃ x f y ws payload update, a = x ++ f :: y ∧ Accepts f ws payload update ∧
      f.pre.owner = some ws ∧ t.pre.owner = some ws ∧ (∀ r ∈ y, r.post.owner = some ws) ∧
      parseFrame payload s₀.hold.numAxes s₀.hold.numButtons s₀.hold.deadzone =
        .ok (snapshot.axes, snapshot.buttons) ∧
      (0 < s₀.hold.timeoutSec → .fin (now - update) ≤ s₀.hold.timeoutSec)

/-- What a run keeps of the operator's input. -/
structure InputHeld (s₀ : WebJoy) (run : List WebStep) : Prop where
  ownerLive : ∀ t ∈ run, OwnerLive t.pre ∧ OwnerLive t.post
  othersIgnored : ∀ t ∈ run, ∀ ws payload now, t.event = .message ws (some payload) now →
    payload.hasType "joy" = true → t.pre.owner ≠ some ws → t.post = t.pre
  ownerOnly : ∀ t ∈ run, ¬ IsNeutral t.post.hold.axes t.post.hold.buttons →
    (t.post.hold.axes = t.pre.hold.axes ∧ t.post.hold.buttons = t.pre.hold.buttons) ∨
      ∃ ws payload now, Accepts t ws payload now ∧ t.pre.owner = some ws
  rearmed : BlockedUntil Disarms Moves Rearms run
  timedOut : TimedOut s₀ run
  fresh : Fresh s₀ run

theorem step_of_other {payload : Value} {now : ℚ} (htype : payload.hasType "joy" = true)
    (hother : s.owner ≠ some ws) : (step s (.message ws (some payload) now)).1 = s := by
  cases payload with
  | dict fields =>
    simp only [step, message]
    split
    · rfl
    · simp only [dispatch, htype, hother, if_true, if_false]
  | null => cases htype
  | bool b => cases htype
  | int i => cases htype
  | float x => cases htype
  | str t => cases htype
  | list items => cases htype

theorem le_timeout {timeoutSec : Dbl} {age : ℚ} (hpos : 0 < timeoutSec)
    (h : ¬ timeoutSec < .fin age) : .fin age ≤ timeoutSec := by
  cases timeoutSec with
  | nan => cases hpos
  | ninf => cases hpos
  | pinf => rfl
  | fin q => exact Dbl.fin_le_fin.2 (not_lt.1 fun hlt => h (Dbl.fin_lt_fin.2 hlt))

section Run

variable (token : String) (numAxes numButtons : ℤ) (timeoutSec deadzone : Dbl)
  (es : List WebEvent)

theorem held_run : Held (start token numAxes numButtons timeoutSec deadzone)
    (trace step (start token numAxes numButtons timeoutSec deadzone) es)
    (final step (start token numAxes numButtons timeoutSec deadzone) es) :=
  trace_history (fun _ _ => True) (held_start token numAxes numButtons timeoutSec deadzone)
    (fun _ _ e h _ => held_step h e) es (fun _ _ _ _ => trivial)

theorem overdue_iff {h : JoyHold} {update now : ℚ} (hupdate : h.lastUpdate = some update) :
    h.overdue now = true ↔ 0 < h.timeoutSec ∧ h.timeoutSec < .fin (now - update) := by
  rw [JoyHold.overdue, hupdate]
  simp

/-- The overdue step and those after it move nothing before the operator
rearms. -/
theorem timedOut_run : TimedOut (start token numAxes numButtons timeoutSec deadzone)
    (trace step (start token numAxes numButtons timeoutSec deadzone) es) := by
  intro hpos x f y g z ws payload update now hrun haccepts hno hread hover p u q hsplit hmoves
  by_contra hcon
  push Not at hcon
  obtain ⟨es₁, e, es₂, -, -, hf, hrest⟩ := trace_split hrun
  obtain ⟨es₃, e', es₄, -, hy, hg, hz⟩ := trace_split hrest.symm
  have hupdated : UpdatedAt update (final step f.post es₃) := by
    refine final_of_no_release (L := UpdatedAt update) AcceptsAny es₃ f.post ?_ ?_ ?_
    · rw [hf] at haccepts ⊢
      exact updatedAt_of_accepts haccepts
    · intro t ht hpre hrefused
      rw [eq_stepOf_of_mem_trace ht] at hrefused ⊢
      exact updatedAt_step hpre hrefused
    · rw [← hy]
      exact hno
  have hconfig : (final step f.post es₃).hold.timeoutSec = timeoutSec := by
    have hheld := held_run token numAxes numButtons timeoutSec deadzone (es₁ ++ e :: es₃)
    rw [final_append, final_cons] at hheld
    rw [hf]
    exact hheld.config.2.2.1
  have hblocks : Blocks (final step f.post es₃) e' := by
    rcases hupdated with hlatched | hupdate
    · exact .inl hlatched
    · refine .inr ⟨now, hg ▸ hread, (overdue_iff hupdate).2 ?_⟩
      rw [hconfig]
      exact ⟨hpos, hover⟩
  cases p with
  | nil =>
    obtain ⟨rfl, -⟩ := List.cons.inj hsplit
    rw [hg] at hmoves
    exact safe_latched hblocks hmoves
  | cons r p =>
    obtain ⟨rfl, hz'⟩ := List.cons.inj hsplit
    have hlatched : g.post.hold.stopLatched = true := by
      have hrefused := hcon g (by simp)
      rw [hg] at hrefused ⊢
      exact keep_latched hblocks hrefused
    exact not_moves_of_latched hlatched (hz.symm.trans hz') (fun r hr => hcon r (by simp [hr])) hmoves

theorem fresh_run : Fresh (start token numAxes numButtons timeoutSec deadzone)
    (trace step (start token numAxes numButtons timeoutSec deadzone) es) := by
  intro a t b snapshot now hrun hevent hout hneutral
  obtain ⟨es₁, e, es₂, -, ha, ht, -⟩ := trace_split hrun
  have hheld := held_run token numAxes numButtons timeoutSec deadzone es₁
  rw [← ha] at hheld
  generalize final step (start token numAxes numButtons timeoutSec deadzone) es₁ = s at ht hheld
  subst ht
  change e = .snapshot now at hevent
  subst hevent
  obtain rfl : (s.hold.snapshot now).2 = snapshot := Out.shown.inj hout
  obtain ⟨hopen, hfresh, haxes, hbuttons⟩ := snapshot_open hneutral
  cases hupdate : s.hold.lastUpdate with
  | none =>
    rw [haxes, hbuttons] at hneutral
    exact absurd (hheld.empty hopen hupdate) hneutral
  | some update =>
    obtain ⟨x, f, y, ws, payload, hpast, haccepts, hws, howner, hsince, hparse⟩ :=
      hheld.frame hopen update hupdate
    refine ⟨x, f, y, ws, payload, update, hpast, haccepts, hws, howner, hsince, ?_, ?_⟩
    · rw [haxes, hbuttons]
      exact hparse
    · intro hpos
      refine le_timeout hpos ?_
      intro hover
      rw [← hheld.config.2.2.1] at hpos hover
      rw [(overdue_iff hupdate).2 ⟨hpos, hover⟩] at hfresh
      cases hfresh

theorem input_held : InputHeld (start token numAxes numButtons timeoutSec deadzone)
    (trace step (start token numAxes numButtons timeoutSec deadzone) es) := by
  have hstep : ∀ t ∈ trace step (start token numAxes numButtons timeoutSec deadzone) es,
      t = stepOf step t.pre t.event := fun t ht => eq_stepOf_of_mem_trace ht
  refine ⟨?_, ?_, ?_, ?_, ?_, ?_⟩
  · exact trace_invariant OwnerLive ownerLive_step es _ (by intro ws hws; cases hws)
  · intro t ht ws payload now hevent htype hother
    rw [hstep t ht, hevent]
    exact step_of_other htype hother
  · intro t ht
    rw [hstep t ht]
    exact held_change t.pre t.event
  · refine blockedUntil_trace (fun s => s.hold.stopLatched = true) ?_ ?_ ?_
    · intro t ht hdisarms
      rw [hstep t ht] at hdisarms ⊢
      exact set_latched hdisarms
    · intro t ht hlatched hno
      rw [hstep t ht] at hno ⊢
      exact keep_latched (.inl hlatched) hno
    · intro t ht hlatched
      rw [hstep t ht]
      exact safe_latched (.inl hlatched)
  · exact timedOut_run token numAxes numButtons timeoutSec deadzone es
  · exact fresh_run token numAxes numButtons timeoutSec deadzone es

end Run

/-! ### A viewer that leaves, and no timeout -/

def joyFrame (axes : List ℤ) : Value :=
  .dict [("type", .str "joy"), ("axes", .list (axes.map .int))]

/-- The operator holds a stick. -/
def holding : List WebEvent :=
  [.connect [], .message 1 (some (joyFrame [0])) 0, .message 1 (some (joyFrame [1])) 0]

def viewed : List WebEvent := holding ++ [.connect [("claim", "0")]]

def watched : WebJoy := start "" 8 14 (.fin (1 / 2)) 0

def unwatched : WebJoy := start "" 8 14 0 0

theorem moves_snapshot {now : ℚ}
    (h : ¬ IsNeutral (s.hold.snapshot now).2.axes (s.hold.snapshot now).2.buttons) :
    Moves (stepOf step s (.snapshot now)) := ⟨_, rfl, h⟩

/-- The end of a viewer's connection does not stop the operator, and without a
timeout a frame is held for ever. -/
theorem viewer_left_no_timeout :
    ¬ BlockedUntil (fun t : WebStep => ∃ ws, t.event = .disconnect ws ∧ t.pre.live ws = true)
        Moves Rearms (trace step watched (viewed ++ [.disconnect 2, .snapshot 0])) ∧
    ¬ ∀ t ∈ trace step unwatched (holding ++ [.snapshot 1000]), ∀ now,
        t.event = .snapshot now → Moves t →
        ∃ f ∈ trace step unwatched (holding ++ [.snapshot 1000]),
          ∃ ws payload update, Accepts f ws payload update ∧
            Dbl.fin (now - update) ≤ t.pre.hold.timeoutSec := by
  constructor
  · intro h
    have hsplit : trace step watched (viewed ++ [.disconnect 2, .snapshot 0]) =
        trace step watched viewed ++ stepOf step (final step watched viewed) (.disconnect 2) ::
          ([] ++ stepOf step ((final step watched viewed).disconnect 2) (.snapshot 0) :: []) :=
      trace_append viewed [.disconnect 2, .snapshot 0] watched
    have hlive : (final step watched viewed).live 2 = true := by decide +kernel
    have hmoves : Moves (stepOf step ((final step watched viewed).disconnect 2) (.snapshot 0)) :=
      moves_snapshot (by decide +kernel)
    generalize final step watched viewed = s at hsplit hlive hmoves
    obtain ⟨r, hr, -⟩ := h _ _ [] _ [] hsplit ⟨2, rfl, hlive⟩ hmoves
    cases hr
  · intro h
    have hlast : stepOf step (final step unwatched holding) (.snapshot 1000) ∈
        trace step unwatched (holding ++ [.snapshot 1000]) := by
      rw [trace_append]
      exact List.mem_append_right _ (List.mem_singleton_self _)
    have hmoves : Moves (stepOf step (final step unwatched holding) (.snapshot 1000)) :=
      moves_snapshot (by decide)
    have htimeout : (final step unwatched holding).hold.timeoutSec = 0 := by decide
    generalize final step unwatched holding = s at hlast hmoves htimeout
    obtain ⟨f, hf, ws, payload, update, ⟨hevent, -⟩, hage⟩ := h _ hlast 1000 rfl hmoves
    have hupdate : update = 0 := by
      have hmem := List.mem_map_of_mem (f := Step.event) hf
      rw [map_event_trace, hevent] at hmem
      have hcases : ws = 1 ∧ payload = joyFrame [0] ∧ update = 0 ∨
          ws = 1 ∧ payload = joyFrame [1] ∧ update = 0 := by simpa [holding] using hmem
      rcases hcases with ⟨-, -, hzero⟩ | ⟨-, -, hzero⟩ <;> exact hzero
    change Dbl.fin (1000 - update) ≤ s.hold.timeoutSec at hage
    rw [hupdate, htimeout] at hage
    exact absurd hage (by decide +kernel)

end WebJoy

end Questix.WebJoyDriver
