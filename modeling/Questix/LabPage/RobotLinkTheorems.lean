/-
Questix.LabPage.RobotLinkTheorems — the link to a robot stays consistent.

`Sound` holds between any two turns. What ends a connection takes the link
`Down` first, and from there it is opened, tried again or left alone; what
happens on a connection only `Keeps` it.
-/
import Questix.LabPage.RobotLink
import Mathlib.Data.List.Induction

namespace Questix.LabPage.RobotLink

open Questix.Lib

variable {env : Surroundings}

namespace Link

/-! ## Promises and timers -/

def Settled (link : Link) (id : SaveId) : Prop := id ∈ link.settled.map Prod.fst

/-- Timers have handles of their own. -/
def Handles (link : Link) : Prop :=
  (link.pending.map Prod.fst).Nodup ∧ ∀ timer ∈ link.pending, timer.1 < link.nextHandle

/-- A retry that is set has the handle the link remembers. -/
def Retries (link : Link) : Prop :=
  ∀ handle url delay, (handle, Timer.retry url, delay) ∈ link.pending → link.retryTimer = handle

theorem settle_spec (link : Link) (id : SaveId) (result : SaveResult) :
    ∃ settled, link.settle id result = { link with settled } ∧
      (∀ other, link.Settled other → other ∈ settled.map Prod.fst) ∧
        id ∈ settled.map Prod.fst := by
  unfold settle
  by_cases h : id ∈ link.settled.map Prod.fst
  · rw [if_pos h]
    exact ⟨link.settled, rfl, fun _ hother => hother, h⟩
  · rw [if_neg h]
    refine ⟨_, rfl, fun other hother => ?_, by simp⟩
    rw [List.map_append]
    exact List.mem_append_left _ hother

/-- Everything that a loss of saves can do: clear timers and settle promises. -/
theorem loseSaves_spec (saves : List PendingSave) (link : Link) :
    ∃ pending settled, saves.foldl loseSave link = { link with pending, settled } ∧
      pending.Sublist link.pending ∧
      (∀ other, link.Settled other → other ∈ settled.map Prod.fst) ∧
        ∀ save ∈ saves, save.timedOut = false → save.id ∈ settled.map Prod.fst := by
  induction saves generalizing link with
  | nil => exact ⟨link.pending, link.settled, rfl, List.Sublist.refl _, fun _ h => h, by simp⟩
  | cons save saves ih =>
    obtain ⟨settled, hsettle, hgrows, hsettled⟩ :=
      settle_spec (link.clearTimeout save.timer) save.id .lost
    cases htimed : save.timedOut with
    | true =>
      have hlose : link.loseSave save = link.clearTimeout save.timer := by
        unfold loseSave
        rw [htimed]
        rfl
      obtain ⟨pending, settled', heq, hsub, hgrows', hall⟩ := ih (link.clearTimeout save.timer)
      rw [List.foldl_cons, hlose, heq]
      refine ⟨pending, settled', rfl, hsub.trans List.filter_sublist, hgrows', ?_⟩
      intro other hother hlive
      rcases List.mem_cons.mp hother with rfl | hother
      · rw [htimed] at hlive
        exact absurd hlive (by simp)
      · exact hall other hother hlive
    | false =>
      have hlose : link.loseSave save = { link.clearTimeout save.timer with settled } := by
        unfold loseSave
        rw [htimed]
        exact hsettle
      obtain ⟨pending, settled', heq, hsub, hgrows', hall⟩ :=
        ih { link.clearTimeout save.timer with settled }
      rw [List.foldl_cons, hlose, heq]
      refine ⟨pending, settled', rfl, hsub.trans List.filter_sublist,
        fun other h => hgrows' other (hgrows other h), ?_⟩
      intro other hother hlive
      rcases List.mem_cons.mp hother with rfl | hother
      · exact hgrows' _ hsettled
      · exact hall other hother hlive

theorem Handles.of_sublist {link link' : Link} (h : link.Handles)
    (hsub : link'.pending.Sublist link.pending) (hnext : link'.nextHandle = link.nextHandle) :
    link'.Handles := by
  refine ⟨h.1.sublist (hsub.map _), fun timer htimer => ?_⟩
  rw [hnext]
  exact h.2 timer (hsub.subset htimer)

theorem Handles.setTimeout {link : Link} (h : link.Handles) (timer : Timer) (delay : ℕ) :
    (link.setTimeout timer delay).Handles := by
  constructor
  · change ((link.pending ++ [(link.nextHandle, timer, delay)]).map Prod.fst).Nodup
    rw [List.map_append]
    refine List.nodup_append.mpr ⟨h.1, by simp, ?_⟩
    intro handle hhandle other hother
    obtain ⟨set, hset, rfl⟩ := List.mem_map.mp hhandle
    rw [List.map_singleton, List.mem_singleton] at hother
    rw [hother]
    exact (h.2 set hset).ne
  · intro set hset
    rcases List.mem_append.mp hset with hset | hset
    · exact (h.2 set hset).trans (Nat.lt_succ_self _)
    · rw [List.mem_singleton.mp hset]
      exact Nat.lt_succ_self _

theorem stopTimers_spec (link : Link) (hretries : link.Retries) :
    ∃ pending, link.stopTimers = { link with
        pending, retryTimer := 0, connectTimer := 0, silenceTimer := 0 } ∧
      pending.Sublist link.pending ∧
        ∀ handle url delay, (handle, Timer.retry url, delay) ∉ pending := by
  refine ⟨_, rfl, ?_, ?_⟩
  · exact (List.filter_sublist.trans List.filter_sublist).trans List.filter_sublist
  · intro handle url delay hmem
    obtain ⟨hmem, -⟩ := List.mem_filter.mp hmem
    obtain ⟨hmem, -⟩ := List.mem_filter.mp hmem
    obtain ⟨hmem, hne⟩ := List.mem_filter.mp hmem
    exact absurd (hretries handle url delay hmem).symm (by simpa using hne)

theorem dropSocket_spec (link : Link) :
    ∃ alive pending settled, link.dropSocket = { link with
        socket := none, saves := [], alive, pending, settled } ∧
      (∀ s ∈ alive, s ∈ link.alive ∧ link.socket ≠ some s) ∧
      pending.Sublist link.pending ∧
      (∀ other, link.Settled other → other ∈ settled.map Prod.fst) ∧
        ∀ save ∈ link.saves, save.timedOut = false → save.id ∈ settled.map Prod.fst := by
  obtain ⟨pending, settled, heq, hspec⟩ :=
    loseSaves_spec link.saves { link with socket := none, saves := [] }
  have hdrop : { link with socket := none }.dropSaves
      = { link with socket := none, saves := [], pending, settled } := heq
  unfold dropSocket
  cases hsocket : link.socket with
  | none =>
    dsimp only
    rw [hdrop]
    exact ⟨link.alive, pending, settled, rfl, fun s hs => ⟨hs, by simp⟩, hspec⟩
  | some old =>
    dsimp only
    rw [hdrop]
    refine ⟨_, pending, settled, rfl, fun s hs => ?_, hspec⟩
    obtain ⟨hs, hne⟩ := List.mem_filter.mp hs
    have hne : s ≠ old := by simpa using hne
    exact ⟨hs, fun hold => hne (Option.some.inj hold).symm⟩

/-! ## Between two turns -/

/-- What holds even within a turn. -/
structure Loose (link : Link) : Prop where
  alive : ∀ s ∈ link.alive, link.socket = some s
  handles : link.Handles
  retries : link.Retries
  /-- A save that is not settled waits on the connection it was sent on. -/
  sent : ∀ id s, (id, s) ∈ link.sent → link.Settled id ∨
    link.socket = some s ∧ ∃ save ∈ link.saves, save.id = id ∧ save.timedOut = false

/-- What holds between two turns of the page. -/
structure Sound (link : Link) : Prop extends Loose link where
  wants : ∀ s, link.socket = some s → link.wanted = true
  /-- A retry is set only while a connection is wanted and there is none. -/
  retrying : ∀ handle url delay, (handle, Timer.retry url, delay) ∈ link.pending →
    link.wanted = true ∧ link.socket = none

/-- No connection, and nothing left of the last one. -/
structure Down (link : Link) : Prop where
  socket : link.socket = none
  alive : link.alive = []
  handles : link.Handles
  retries : link.Retries
  sent : ∀ id s, (id, s) ∈ link.sent → link.Settled id

/-- No retry is set. -/
def Calm (link : Link) : Prop :=
  ∀ handle url delay, (handle, Timer.retry url, delay) ∉ link.pending

theorem sound_start : Sound {} where
  alive s h := absurd h (by simp)
  handles := ⟨List.nodup_nil, by simp⟩
  retries handle url delay h := absurd h (by simp)
  sent id s h := absurd h (by simp)
  wants s h := absurd h (by simp)
  retrying handle url delay h := absurd h (by simp)

theorem Down.sound {link : Link} (h : link.Down) (hretrying : link.Calm ∨ link.wanted = true) :
    link.Sound where
  alive s hs := absurd hs (by simp [h.alive])
  handles := h.handles
  retries := h.retries
  sent id s hmem := Or.inl (h.sent id s hmem)
  wants s hs := absurd hs (by simp [h.socket])
  retrying handle url delay hmem :=
    ⟨hretrying.elim (fun hcalm => absurd hmem (hcalm handle url delay)) id, h.socket⟩

theorem Loose.down {link : Link} (h : link.Loose) {alive : List SocketId}
    {pending : List (Handle × Timer × ℕ)} {settled : List (SaveId × SaveResult)}
    (halive : ∀ s ∈ alive, s ∈ link.alive ∧ link.socket ≠ some s)
    (hsub : pending.Sublist link.pending)
    (hgrows : ∀ other, link.Settled other → other ∈ settled.map Prod.fst)
    (hall : ∀ save ∈ link.saves, save.timedOut = false → save.id ∈ settled.map Prod.fst) :
    Down { link with socket := none, saves := [], alive, pending, settled } where
  socket := rfl
  alive := List.eq_nil_iff_forall_not_mem.mpr fun s hs =>
    (halive s hs).2 (h.alive s (halive s hs).1)
  handles := h.handles.of_sublist hsub rfl
  retries handle url delay hmem := h.retries handle url delay (hsub.subset hmem)
  sent id s hmem := by
    rcases h.sent id s hmem with hsettled | ⟨-, save, hsave, rfl, hlive⟩
    · exact hgrows id hsettled
    · exact hall save hsave hlive

theorem Loose.dropSocket {link : Link} (h : link.Loose) :
    link.dropSocket.Down ∧ link.dropSocket.wanted = link.wanted ∧
      (link.Calm → link.dropSocket.Calm) := by
  obtain ⟨alive, pending, settled, heq, halive, hsub, hgrows, hall⟩ := link.dropSocket_spec
  rw [heq]
  exact ⟨h.down halive hsub hgrows hall, rfl,
    fun hcalm handle url delay hmem => hcalm handle url delay (hsub.subset hmem)⟩

theorem Loose.stopTimers {link : Link} (h : link.Loose) :
    link.stopTimers.Loose ∧ link.stopTimers.Calm := by
  obtain ⟨pending, heq, hsub, hcalm⟩ := link.stopTimers_spec h.retries
  rw [heq]
  exact ⟨⟨h.alive, h.handles.of_sublist hsub rfl,
    fun handle url delay hmem => absurd hmem (hcalm handle url delay), h.sent⟩, hcalm⟩

theorem Down.stopTimers {link : Link} (h : link.Down) :
    link.stopTimers.Down ∧ link.stopTimers.Calm := by
  obtain ⟨pending, heq, hsub, hcalm⟩ := link.stopTimers_spec h.retries
  rw [heq]
  exact ⟨⟨h.socket, h.alive, h.handles.of_sublist hsub rfl,
    fun handle url delay hmem => absurd hmem (hcalm handle url delay), h.sent⟩, hcalm⟩

theorem Down.setState {link : Link} (h : link.Down) (state : LinkState) :
    (link.setState state).Down :=
  ⟨h.socket, h.alive, h.handles, h.retries, h.sent⟩

/-! ## What ends and begins a connection -/

theorem Down.failed {link : Link} (h : link.Down) (hwanted : link.wanted = true) (url : Url)
    (problem : Problem) (closeCode : Option ℕ) : (link.failed env url problem closeCode).Sound := by
  obtain ⟨hdown, hcalm⟩ := h.stopTimers
  have hwanted' : link.stopTimers.wanted = true := hwanted
  unfold Link.failed
  dsimp only
  refine Down.sound ⟨hdown.socket, hdown.alive, hdown.handles.setTimeout _ _, ?_, hdown.sent⟩
    (Or.inr hwanted')
  -- the retry that is set now is the only one
  intro handle url' delay hmem
  rcases List.mem_append.mp hmem with hmem | hmem
  · exact absurd hmem (hcalm handle url' delay)
  · exact (congrArg Prod.fst (List.mem_singleton.mp hmem)).symm

theorem Down.openLink {link : Link} (h : link.Down) (hwanted : link.wanted = true) (url : Url)
    (starts : Bool) : (link.openLink env url starts).Sound := by
  obtain ⟨hdown, hcalm⟩ := h.stopTimers
  cases starts with
  | false =>
    have hcalm' : (link.openLink env url false).Calm := hcalm
    exact Down.sound ⟨hdown.socket, hdown.alive, hdown.handles, hdown.retries, hdown.sent⟩
      (Or.inl hcalm')
  | true =>
    have hnone : ∀ handle url' delay, (handle, Timer.retry url', delay) ∉
        (link.openLink env url true).pending := by
      intro handle url' delay hmem
      rcases List.mem_append.mp hmem with hmem | hmem
      · exact hcalm handle url' delay hmem
      · exact absurd (List.mem_singleton.mp hmem) (by simp)
    constructor
    · constructor
      · intro s hs
        have halive : (link.openLink env url true).alive = [link.made] := by
          change link.stopTimers.alive ++ [link.made] = [link.made]
          rw [hdown.alive]
          rfl
        rw [halive, List.mem_singleton] at hs
        rw [hs]
        rfl
      · exact hdown.handles.setTimeout _ _
      · exact fun handle url' delay hmem => absurd hmem (hnone handle url' delay)
      · exact fun id s hmem => Or.inl (hdown.sent id s hmem)
    · exact fun _ _ => hwanted
    · exact fun handle url' delay hmem => absurd hmem (hnone handle url' delay)

theorem Loose.connectRobot {link : Link} (h : link.Loose) (url : Url) (starts : Bool) :
    (link.connectRobot env url starts).Sound := by
  have hloose : Loose { link with wanted := true } := ⟨h.alive, h.handles, h.retries, h.sent⟩
  obtain ⟨hdown, hwanted, -⟩ := hloose.dropSocket
  unfold Link.connectRobot
  dsimp only
  refine Down.openLink ?_ ?_ url starts
  · exact ⟨hdown.socket, hdown.alive, hdown.handles, hdown.retries, hdown.sent⟩
  · exact hwanted

theorem Loose.retire {link : Link} (h : link.Loose) (state : LinkState) :
    ({ link with wanted := false }.stopTimers.dropSocket.setState state).Sound := by
  have hloose : Loose { link with wanted := false } := ⟨h.alive, h.handles, h.retries, h.sent⟩
  obtain ⟨hstopped, hcalm⟩ := hloose.stopTimers
  obtain ⟨hdown, -, hcalms⟩ := hstopped.dropSocket
  exact (hdown.setState state).sound (Or.inl (hcalms hcalm))

theorem Sound.closed {link : Link} (h : link.Sound) (socket : SocketId) (code : ℕ) :
    (link.closed env socket code).Sound := by
  unfold Link.closed
  dsimp only
  by_cases hcurrent : link.socket ≠ some socket
  · rw [if_pos hcurrent]
    exact ⟨⟨fun s hs => h.alive s (List.mem_filter.mp hs).1, h.handles, h.retries, h.sent⟩,
      h.wants, h.retrying⟩
  · rw [if_neg hcurrent]
    have hsocket := not_not.mp hcurrent
    obtain ⟨pending, settled, heq, hsub, hgrows, hall⟩ := loseSaves_spec link.saves
      { link with
        alive := link.alive.filter (· ≠ socket), socket := none, saves := [] }
    have hdrop : { link with alive := link.alive.filter (· ≠ socket), socket := none }.dropSaves
        = { link with
            socket := none, saves := [], alive := link.alive.filter (· ≠ socket), pending,
            settled } := heq
    rw [hdrop]
    refine Down.failed (h.down ?_ hsub hgrows hall) (h.wants socket hsocket) _ _ _
    intro s hs
    obtain ⟨hs, hne⟩ := List.mem_filter.mp hs
    refine ⟨hs, fun hsame => ?_⟩
    have hne : s ≠ socket := by simpa using hne
    rw [hsocket] at hsame
    exact hne (Option.some.inj hsame).symm

/-! ## What happens on a connection -/

/-- What a turn on a connection leaves as it was: timers may end, new ones are
no retries, and a save that waits goes on waiting or is settled. -/
structure Keeps (a b : Link) : Prop where
  socket : b.socket = a.socket
  wanted : b.wanted = a.wanted
  alive : b.alive = a.alive
  retryTimer : b.retryTimer = a.retryTimer
  sent : b.sent = a.sent
  handles : a.Handles → b.Handles
  retries : ∀ handle url delay, (handle, Timer.retry url, delay) ∈ b.pending →
    (handle, Timer.retry url, delay) ∈ a.pending
  settled : ∀ id, a.Settled id → b.Settled id
  saves : ∀ save ∈ a.saves, save.timedOut = false →
    b.Settled save.id ∨ ∃ save' ∈ b.saves, save'.id = save.id ∧ save'.timedOut = false

theorem Keeps.refl (a : Link) : Keeps a a where
  socket := rfl
  wanted := rfl
  alive := rfl
  retryTimer := rfl
  sent := rfl
  handles h := h
  retries _ _ _ h := h
  settled _ h := h
  saves save hsave hlive := Or.inr ⟨save, hsave, rfl, hlive⟩

theorem Keeps.trans {a b c : Link} (h : Keeps a b) (h' : Keeps b c) : Keeps a c where
  socket := h'.socket.trans h.socket
  wanted := h'.wanted.trans h.wanted
  alive := h'.alive.trans h.alive
  retryTimer := h'.retryTimer.trans h.retryTimer
  sent := h'.sent.trans h.sent
  handles hhandles := h'.handles (h.handles hhandles)
  retries handle url delay hmem := h.retries _ _ _ (h'.retries handle url delay hmem)
  settled id hid := h'.settled id (h.settled id hid)
  saves save hsave hlive := by
    rcases h.saves save hsave hlive with hsettled | ⟨save', hsave', hid, hlive'⟩
    · exact Or.inl (h'.settled _ hsettled)
    · rw [← hid]
      exact h'.saves save' hsave' hlive'

theorem Keeps.sound {a b : Link} (h : Keeps a b) (ha : a.Sound) : b.Sound where
  alive s hs := by
    rw [h.socket]
    exact ha.alive s (h.alive ▸ hs)
  handles := h.handles ha.handles
  retries handle url delay hmem := by
    rw [h.retryTimer]
    exact ha.retries handle url delay (h.retries handle url delay hmem)
  sent id s hmem := by
    rcases ha.sent id s (h.sent ▸ hmem) with hsettled | ⟨hsocket, save, hsave, rfl, hlive⟩
    · exact Or.inl (h.settled id hsettled)
    · rcases h.saves save hsave hlive with hsettled | hwaits
      · exact Or.inl hsettled
      · exact Or.inr ⟨h.socket.trans hsocket, hwaits⟩
  wants s hs := by
    rw [h.wanted]
    exact ha.wants s (h.socket ▸ hs)
  retrying handle url delay hmem := by
    rw [h.wanted, h.socket]
    exact ha.retrying handle url delay (h.retries handle url delay hmem)

theorem keeps_clearTimeout (link : Link) (handle : Handle) :
    Keeps link (link.clearTimeout handle) :=
  { Keeps.refl link with
    handles := fun h => h.of_sublist List.filter_sublist rfl
    retries := fun _ _ _ hmem => (List.mem_filter.mp hmem).1 }

theorem keeps_settle (link : Link) (id : SaveId) (result : SaveResult) :
    Keeps link (link.settle id result) := by
  obtain ⟨settled, heq, hgrows, -⟩ := settle_spec link id result
  rw [heq]
  exact { Keeps.refl link with
    settled := hgrows
    saves := fun save hsave hlive => Or.inr ⟨save, hsave, rfl, hlive⟩ }

theorem keeps_armSilence (link : Link) : Keeps link link.armSilence := by
  unfold armSilence
  split_ifs
  · exact Keeps.refl link
  · refine { Keeps.refl link with handles := fun h => h.setTimeout _ _, retries := ?_ }
    intro handle url delay hmem
    rcases List.mem_append.mp hmem with hmem | hmem
    · exact hmem
    · exact absurd (List.mem_singleton.mp hmem) (by simp)

theorem keeps_setState (link : Link) (state : LinkState) : Keeps link (link.setState state) :=
  { Keeps.refl link with }

theorem keeps_emit (link : Link) (message : Message) : Keeps link (link.emit message) :=
  { Keeps.refl link with }

theorem keeps_answerSave (link : Link) (result : SaveResult) :
    Keeps link (link.answerSave result) := by
  unfold answerSave
  cases hsaves : link.saves with
  | nil => exact Keeps.refl link
  | cons save rest =>
    dsimp only
    have hrest : ∀ {b : Link}, b.saves = rest → (save.timedOut = false → b.Settled save.id) →
        ∀ other ∈ link.saves, other.timedOut = false → b.Settled other.id ∨
          ∃ save' ∈ b.saves, save'.id = other.id ∧ save'.timedOut = false := by
      intro b hb hhead other hother hlive
      rw [hsaves] at hother
      rcases List.mem_cons.mp hother with rfl | hother
      · exact Or.inl (hhead hlive)
      · exact Or.inr ⟨other, hb ▸ hother, rfl, hlive⟩
    cases htimed : save.timedOut with
    | true =>
      refine { Keeps.refl link with saves := hrest rfl fun hlive => ?_ }
      rw [htimed] at hlive
      exact absurd hlive (by simp)
    | false =>
      obtain ⟨settled, heq, hgrows, hsettled⟩ :=
        settle_spec ({ link with saves := rest }.clearTimeout save.timer) save.id result
      simp only [Bool.false_eq_true, if_false]
      rw [heq]
      exact { Keeps.refl link with
        handles := fun h => h.of_sublist List.filter_sublist rfl
        retries := fun _ _ _ hmem => (List.mem_filter.mp hmem).1
        settled := hgrows
        saves := hrest rfl fun _ => hsettled }

theorem keeps_receiveStatus (link : Link) (rates : Rates) :
    Keeps link (link.receiveStatus rates) := by
  unfold receiveStatus
  dsimp only
  refine Keeps.trans ?_ (keeps_emit _ _)
  split_ifs
  · exact { keeps_clearTimeout link link.silenceTimer with }
  · exact (keeps_armSilence link).trans (keeps_setState _ _)

theorem keeps_saveTimeout (link : Link) (starts : Bool) (id : SaveId) :
    Keeps link (link.fire env starts (.save id)) := by
  obtain ⟨settled, heq, hgrows, hsettled⟩ := settle_spec
    { link with
      saves := link.saves.map fun save =>
        if save.id = id then { save with timedOut := true } else save } id .timeout
  unfold fire
  dsimp only
  rw [heq]
  refine { Keeps.refl link with settled := hgrows, saves := fun save hsave hlive => ?_ }
  by_cases hid : save.id = id
  · rw [hid]
    exact Or.inl hsettled
  · refine Or.inr ⟨save, List.mem_map.mpr ⟨save, hsave, ?_⟩, rfl, hlive⟩
    rw [if_neg hid]

/-- Calling `saveRecordOnRobot`. -/
theorem Sound.saveRecord {link : Link} (h : link.Sound) (ready : Bool) (frameBytes : ℕ) :
    (link.saveRecord ready frameBytes).Sound := by
  have hcalled : Keeps link { link with calls := link.calls + 1 } := { Keeps.refl link with }
  have hrefused (result : SaveResult) :
      ({ link with calls := link.calls + 1 }.settle link.calls result).Sound :=
    (hcalled.trans (keeps_settle _ _ _)).sound h
  unfold Link.saveRecord
  dsimp only
  split
  next socket hrefusal hsocket =>
    have htimed := h.handles.setTimeout (.save link.calls) SAVE_TIMEOUT_MS
    have hretry : ∀ handle url delay, (handle, Timer.retry url, delay) ∈
        (link.setTimeout (.save link.calls) SAVE_TIMEOUT_MS).pending →
          (handle, Timer.retry url, delay) ∈ link.pending := by
      intro handle url delay hmem
      rcases List.mem_append.mp hmem with hmem | hmem
      · exact hmem
      · exact absurd (List.mem_singleton.mp hmem) (by simp)
    constructor
    · refine ⟨h.alive, htimed,
        fun handle url delay hmem => h.retries handle url delay (hretry handle url delay hmem), ?_⟩
      intro id s hmem
      rcases List.mem_append.mp hmem with hmem | hmem
      · refine (h.sent id s hmem).imp (fun hsettled => hsettled) ?_
        rintro ⟨hs, save, hsave, hid, hlive⟩
        exact ⟨hs, save, List.mem_append_left _ hsave, hid, hlive⟩
      · obtain ⟨rfl, rfl⟩ := Prod.mk.inj (List.mem_singleton.mp hmem)
        exact Or.inr ⟨hsocket, _, List.mem_append_right _ (List.mem_singleton_self _), rfl, rfl⟩
    · exact h.wants
    · exact fun handle url delay hmem => h.retrying handle url delay (hretry handle url delay hmem)
  next => exact hrefused _
  next => exact hrefused _

theorem Sound.receive {link : Link} (h : link.Sound) (message : Message) :
    (link.receive env message).Sound := by
  cases message with
  | hello hello =>
    change (link.welcome env hello).Sound
    unfold Link.welcome
    by_cases hprotocol : hello.protocol ≠ some PROTOCOL
    · rw [if_pos hprotocol]
      exact h.toLoose.retire _
    · rw [if_neg hprotocol]
      have hcleared : Keeps link { link.clearTimeout link.connectTimer with connectTimer := 0 } :=
        { keeps_clearTimeout link link.connectTimer with }
      exact ((hcleared.trans (keeps_setState _ _)).trans (keeps_armSilence _)).sound h
  | status rates => exact (keeps_receiveStatus link rates).sound h
  | session id => exact (keeps_setState link _).sound h
  | recordSaved id => exact (keeps_answerSave link _).sound h
  | recordError text => exact (keeps_answerSave link _).sound h
  | shootRefused text => exact (keeps_emit link _).sound h
  | stream name payload =>
    have hlatest : Keeps link { link with latest := link.latest.put name payload } :=
      { Keeps.refl link with }
    exact (hlatest.trans (keeps_emit _ _)).sound h
  | other => exact h

theorem Loose.down_of_none {link : Link} (h : link.Loose) (hsocket : link.socket = none) :
    link.Down where
  socket := hsocket
  alive := List.eq_nil_iff_forall_not_mem.mpr fun s hs => by
    have hs := h.alive s hs
    rw [hsocket] at hs
    exact absurd hs (by simp)
  handles := h.handles
  retries := h.retries
  sent id s hmem := (h.sent id s hmem).resolve_right fun hwaits => by
    rw [hsocket] at hwaits
    exact absurd hwaits.1 (by simp)

theorem Sound.fire {link : Link} (h : link.Sound) {handle : Handle} {timer : Timer} {delay : ℕ}
    (hmem : (handle, timer, delay) ∈ link.pending) (starts : Bool) :
    ((link.clearTimeout handle).fire env starts timer).Sound := by
  have hcleared : (link.clearTimeout handle).Sound := (keeps_clearTimeout link handle).sound h
  cases timer with
  | retry url =>
    obtain ⟨hwanted, hsocket⟩ := h.retrying handle url delay hmem
    have hdown : (link.clearTimeout handle).Down := hcleared.toLoose.down_of_none hsocket
    have hfire : (link.clearTimeout handle).wanted = true := hwanted
    unfold Link.fire
    dsimp only
    rw [if_pos hfire]
    exact hdown.openLink hwanted url starts
  | connect socket url =>
    unfold Link.fire
    dsimp only
    by_cases hcurrent : (link.clearTimeout handle).socket ≠ some socket
    · rw [if_pos hcurrent]
      exact hcleared
    · rw [if_neg hcurrent]
      obtain ⟨hdown, hwanted, -⟩ := hcleared.toLoose.dropSocket
      have hwants : link.wanted = true := h.wants socket (not_not.mp hcurrent)
      exact hdown.failed (hwanted.trans hwants) url _ none
  | silence =>
    unfold Link.fire
    dsimp only
    split_ifs
    · exact Keeps.sound { Keeps.refl (link.clearTimeout handle) with } hcleared
    · exact Keeps.sound { Keeps.refl (link.clearTimeout handle) with } hcleared
  | save id => exact (keeps_saveTimeout _ starts id).sound hcleared

theorem mem_of_lookup {α : Type*} {timers : List (Handle × α)} {handle : Handle} {timer : α}
    (h : timers.lookup handle = some timer) : (handle, timer) ∈ timers := by
  induction timers with
  | nil => exact absurd h (by simp)
  | cons head rest ih =>
    obtain ⟨key, value⟩ := head
    rw [List.lookup_cons] at h
    by_cases hkey : handle = key
    · subst hkey
      simp only [beq_self_eq_true] at h
      obtain rfl := Option.some.inj h
      exact List.mem_cons_self
    · rw [beq_eq_false_iff_ne.mpr hkey] at h
      exact List.mem_cons_of_mem _ (ih h)

theorem Sound.step {link : Link} (h : link.Sound) (e : Event) : (step env link e).Sound := by
  cases e with
  | connect url starts =>
    cases url with
    | none => exact h
    | some url => exact h.toLoose.connectRobot url starts
  | disconnect => exact h.toLoose.retire _
  | opened socket => exact h
  | message socket message =>
    unfold RobotLink.step
    dsimp only
    split_ifs
    · exact h.receive message
    · exact h
  | closed socket code => exact h.closed socket code
  | timer handle starts =>
    unfold RobotLink.step
    dsimp only
    cases hlookup : link.pending.lookup handle with
    | none => exact h
    | some timer => exact @Sound.fire _ _ h _ _ timer.2 (mem_of_lookup hlookup) starts
  | save ready frameBytes => exact h.saveRecord ready frameBytes

/-! ## The phase -/

theorem armSilence_state (link : Link) : link.armSilence.state = link.state := by
  unfold armSilence
  split_ifs <;> rfl

theorem settle_state (link : Link) (id : SaveId) (result : SaveResult) :
    (link.settle id result).state = link.state := by
  unfold settle
  split_ifs <;> rfl

theorem receive_phase {message : Message} (hno : ∀ hello, message ≠ .hello hello) (link : Link) :
    (link.receive env message).state.phase = link.state.phase ∧
      (link.receive env message).socket = link.socket := by
  cases message with
  | hello hello => exact absurd rfl (hno hello)
  | status rates =>
    refine ⟨?_, (keeps_receiveStatus link rates).socket⟩
    unfold Link.receive receiveStatus
    dsimp only
    split_ifs
    · rfl
    · change link.armSilence.state.phase = link.state.phase
      rw [armSilence_state]
  | recordSaved | recordError =>
    refine ⟨?_, (keeps_answerSave link _).socket⟩
    unfold Link.receive answerSave
    dsimp only
    split
    · rfl
    · split_ifs
      · rfl
      · rw [settle_state]
        rfl
  | session | shootRefused | stream | other => exact ⟨rfl, rfl⟩

/-- The phase becomes or stays open only on the current socket. -/
theorem phase_open {link : Link} (h : link.Sound) {e : Event}
    (hopen : (step env link e).state.phase = .open) :
    (∃ s hello, e = .message s (.hello hello) ∧ hello.protocol = some PROTOCOL ∧
        link.socket = some s ∧ (step env link e).socket = some s) ∨
      link.state.phase = .open ∧ (step env link e).socket = link.socket := by
  cases e with
  | connect url starts =>
    cases url with
    | none => exact Or.inr ⟨hopen, rfl⟩
    | some url => cases starts <;> exact absurd hopen Phase.noConfusion
  | disconnect => exact absurd hopen Phase.noConfusion
  | opened socket => exact Or.inr ⟨hopen, rfl⟩
  | message socket message =>
    unfold RobotLink.step at hopen ⊢
    dsimp only at hopen ⊢
    by_cases hcurrent : link.socket = some socket
    · rw [if_pos hcurrent] at hopen ⊢
      by_cases hhello : ∃ hello, message = .hello hello
      · obtain ⟨hello, rfl⟩ := hhello
        change (link.welcome env hello).state.phase = .open at hopen
        by_cases hprotocol : hello.protocol ≠ some PROTOCOL
        · unfold Link.welcome at hopen
          rw [if_pos hprotocol] at hopen
          exact absurd hopen Phase.noConfusion
        · have hsocket : (link.welcome env hello).socket = some socket := by
            unfold Link.welcome
            rw [if_neg hprotocol]
            exact (keeps_armSilence _).socket.trans hcurrent
          exact Or.inl ⟨socket, hello, rfl, not_not.mp hprotocol, hcurrent, hsocket⟩
      · obtain ⟨hphase, hsocket⟩ := @receive_phase env _
          (fun hello heq => hhello ⟨hello, heq⟩) link
        exact Or.inr ⟨hphase.symm.trans hopen, hsocket⟩
    · rw [if_neg hcurrent] at hopen ⊢
      exact Or.inr ⟨hopen, rfl⟩
  | closed socket code =>
    unfold RobotLink.step Link.closed at hopen ⊢
    dsimp only at hopen ⊢
    by_cases hcurrent : link.socket ≠ some socket
    · rw [if_pos hcurrent] at hopen ⊢
      exact Or.inr ⟨hopen, rfl⟩
    · rw [if_neg hcurrent] at hopen
      exact absurd hopen Phase.noConfusion
  | timer handle starts =>
    unfold RobotLink.step at hopen ⊢
    dsimp only at hopen ⊢
    cases hlookup : link.pending.lookup handle with
    | none =>
      rw [hlookup] at hopen
      exact Or.inr ⟨hopen, rfl⟩
    | some timer =>
      obtain ⟨timer, delay⟩ := timer
      rw [hlookup] at hopen
      dsimp only at hopen ⊢
      cases timer with
      | retry url =>
        obtain ⟨hwanted, -⟩ := h.retrying handle url delay (mem_of_lookup hlookup)
        have hfire : (link.clearTimeout handle).wanted = true := hwanted
        unfold Link.fire at hopen
        dsimp only at hopen
        rw [if_pos hfire] at hopen
        cases starts <;> exact absurd hopen Phase.noConfusion
      | connect socket url =>
        unfold Link.fire at hopen ⊢
        dsimp only at hopen ⊢
        by_cases hcurrent : (link.clearTimeout handle).socket ≠ some socket
        · rw [if_pos hcurrent] at hopen ⊢
          exact Or.inr ⟨hopen, rfl⟩
        · rw [if_neg hcurrent] at hopen
          exact absurd hopen Phase.noConfusion
      | silence =>
        unfold Link.fire at hopen ⊢
        dsimp only at hopen ⊢
        by_cases hphase : (link.clearTimeout handle).state.phase = .open
        · rw [if_pos hphase]
          exact Or.inr ⟨hphase, rfl⟩
        · rw [if_neg hphase] at hopen
          exact absurd hopen hphase
      | save id =>
        refine Or.inr ⟨?_, (keeps_saveTimeout _ starts id).socket⟩
        unfold Link.fire at hopen
        rw [settle_state] at hopen
        exact hopen
  | save ready frameBytes =>
    unfold RobotLink.step Link.saveRecord at hopen ⊢
    dsimp only at hopen ⊢
    split
    next socket hrefusal hsocket =>
      rw [hrefusal, hsocket] at hopen
      exact Or.inr ⟨hopen, rfl⟩
    next result hrefusal =>
      rw [hrefusal] at hopen
      dsimp only at hopen
      rw [settle_state] at hopen
      exact Or.inr ⟨hopen, (keeps_settle _ _ _).socket⟩
    next hrefusal hsocket =>
      rw [hrefusal, hsocket] at hopen
      dsimp only at hopen
      rw [settle_state] at hopen
      exact Or.inr ⟨hopen, (keeps_settle _ _ _).socket⟩

theorem Sound.late {link : Link} (h : link.Sound) {socket : SocketId}
    (hlate : link.socket ≠ some socket) :
    RobotLink.step env link (.opened socket) = link ∧
      (∀ message, RobotLink.step env link (.message socket message) = link) ∧
        ∀ code, RobotLink.step env link (.closed socket code) = link := by
  refine ⟨rfl, fun message => if_neg hlate, fun code => ?_⟩
  have halive : link.alive.filter (· ≠ socket) = link.alive := by
    refine List.filter_eq_self.mpr fun s hs => ?_
    have hs := h.alive s hs
    exact decide_eq_true fun heq => hlate (heq ▸ hs)
  unfold RobotLink.step Link.closed
  dsimp only
  rw [if_pos hlate, halive]

end Link

/-! ## Runs -/

theorem run_snoc (env : Surroundings) (es : List Event) (e : Event) :
    run env (es ++ [e]) = step env (run env es) e := List.foldl_append

theorem sound_run (env : Surroundings) (es : List Event) : (run env es).Sound := by
  induction es using List.reverseRecOn with
  | nil => exact Link.sound_start
  | append_singleton es e ih =>
    rw [run_snoc]
    exact ih.step e

/-- A hello of protocol 1 came on a socket that was current then, and is since. -/
def Welcomed (env : Surroundings) (es : List Event) : Prop :=
  ∃ before s hello after, es = before ++ .message s (.hello hello) :: after ∧
    hello.protocol = some PROTOCOL ∧ (run env before).socket = some s ∧
      ∀ later, later <+: after →
        (run env (before ++ .message s (.hello hello) :: later)).socket = some s

theorem welcomed_run (env : Surroundings) (es : List Event) :
    (run env es).state.phase = .open → Welcomed env es := by
  induction es using List.reverseRecOn with
  | nil => exact fun hopen => absurd hopen Phase.noConfusion
  | append_singleton es e ih =>
    intro hopen
    rw [run_snoc] at hopen
    rcases Link.phase_open (sound_run env es) hopen with
      ⟨s, hello, rfl, hprotocol, hbefore, hafter⟩ | ⟨hphase, hsame⟩
    · refine ⟨es, s, hello, [], rfl, hprotocol, hbefore, fun later hlater => ?_⟩
      rw [List.prefix_nil.mp hlater, run_snoc]
      exact hafter
    · obtain ⟨before, s, hello, after, rfl, hprotocol, hbefore, hsince⟩ := ih hphase
      refine ⟨before, s, hello, after ++ [e], by simp, hprotocol, hbefore, fun later hlater => ?_⟩
      rcases List.prefix_concat_iff.mp hlater with rfl | hlater
      · have hwhole : before ++ .message s (.hello hello) :: (after ++ [e])
            = (before ++ .message s (.hello hello) :: after) ++ [e] := by simp
        rw [hwhole, run_snoc, hsame]
        exact hsince after (List.prefix_refl _)
      · exact hsince later hlater

def isRetry (timer : Handle × Timer × ℕ) : Bool :=
  match timer.2.1 with
  | .retry _ => true
  | _ => false

/-- The retries that are set. -/
def retriesOf (link : Link) : List (Handle × Timer × ℕ) := link.pending.filter isRetry

theorem mem_retriesOf {link : Link} {timer : Handle × Timer × ℕ} (h : timer ∈ retriesOf link) :
    ∃ url, (timer.1, Timer.retry url, timer.2.2) ∈ link.pending := by
  obtain ⟨hmem, hretry⟩ := List.mem_filter.mp h
  obtain ⟨handle, kind, delay⟩ := timer
  cases kind with
  | retry url => exact ⟨url, hmem⟩
  | connect | silence | save => exact absurd hretry (by simp [isRetry])

theorem retriesOf_length {link : Link} (h : link.Sound) : (retriesOf link).length ≤ 1 := by
  have hnodup : ((retriesOf link).map Prod.fst).Nodup :=
    h.handles.1.sublist (List.filter_sublist.map _)
  have hsame : ∀ timer ∈ retriesOf link, link.retryTimer = timer.1 := by
    intro timer htimer
    obtain ⟨url, hmem⟩ := mem_retriesOf htimer
    exact h.retries _ url _ hmem
  revert hnodup hsame
  cases retriesOf link with
  | nil => exact fun _ _ => Nat.zero_le _
  | cons first rest =>
    cases rest with
    | nil => exact fun _ _ => Nat.le_refl _
    | cons second rest =>
      intro hnodup hsame
      have heq : first.1 = second.1 := (hsame first (by simp)).symm.trans (hsame second (by simp))
      rw [List.map_cons, List.map_cons, List.nodup_cons] at hnodup
      exact absurd (heq ▸ List.mem_cons_self) hnodup.1

/-- Whatever happens to a page, and in whatever order: a socket that is not
closed is the current one; one retry at most is set, and none while no
connection is wanted; the phase is open only where a hello of protocol 1 came on
the socket that has been current since; the promise of a save whose connection
is over is settled; and what comes of any other socket changes nothing. -/
theorem link_consistent (env : Surroundings) (es : List Event) :
    (∀ s ∈ (run env es).alive, (run env es).socket = some s) ∧
      (retriesOf (run env es)).length ≤ 1 ∧
      ((run env es).wanted = false → retriesOf (run env es) = []) ∧
      ((run env es).state.phase = .open → Welcomed env es) ∧
      (∀ id s, (id, s) ∈ (run env es).sent → (run env es).socket ≠ some s →
        (run env es).Settled id) ∧
      ∀ s, (run env es).socket ≠ some s →
        step env (run env es) (.opened s) = run env es ∧
          (∀ message, step env (run env es) (.message s message) = run env es) ∧
            ∀ code, step env (run env es) (.closed s code) = run env es := by
  have hsound := sound_run env es
  refine ⟨hsound.alive, retriesOf_length hsound, fun hunwanted => ?_, welcomed_run env es,
    fun id s hmem hover => (hsound.sent id s hmem).resolve_right fun hwaits => hover hwaits.1,
    fun s hlate => hsound.late hlate⟩
  refine List.eq_nil_iff_forall_not_mem.mpr fun timer htimer => ?_
  obtain ⟨url, hmem⟩ := mem_retriesOf htimer
  have hwanted := (hsound.retrying _ url _ hmem).1
  rw [hunwanted] at hwanted
  exact absurd hwanted (by simp)

end Questix.LabPage.RobotLink
