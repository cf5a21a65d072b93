/-
Questix.RobotManager.RequestTheorems — the permissions follow the saved mode,
where the requests do.

A mode, service or stop-all request takes everything back before it does
anything else, so while a switch is on none of them is past that point
(`Sound.on`), and the mode that the switch was checked against is still the
saved one. What breaks it is a request that switches on after one of them has
taken everything back, on a look at the mode from before: the check is made
before the lock is taken (`Timely` is what this asks of the order).
-/
import Questix.Lib.Trace
import Questix.RobotManager.ActuationTheorems
import Questix.RobotManager.Requests

namespace Questix.RobotManager

open Questix.Lib

/-! ## The requests under way -/

namespace Work

/-- A mode, service or stop-all request that has taken everything back. -/
def hasRevoked : Work → Bool
  | .readMode _ => true
  | .writeMode _ _ => true
  | .takeLab _ => true
  | .lookBridge => true
  | .finish _ => true
  | _ => false

/-- When the request began, where it matters. -/
def began : Work → Option ℕ
  | .authority _ _ began => some began
  | .authorityMode _ _ began => some began
  | .authorityOn _ _ began => some began
  | .lab _ began => some began
  | .labRunning _ began => some began
  | .labMode _ _ began => some began
  | .labReap _ _ began => some began
  | .labSet _ _ began => some began
  | _ => none

/-- The request has found lesson to be the saved mode. -/
def looked : Work → Option ℕ
  | .authorityOn _ _ began => some began
  | _ => none

/-- The move switches a switch or a permission on. -/
def goesOn (m : Manager) (luck : Luck) : Work → Bool
  | .authorityOn kind running _ => m.authorityGoesOn kind running luck.chance
  | .labSet kind allow _ => m.labGoesOn kind allow luck.chance
  | _ => false

theorem began_of_looked {w : Work} {b : ℕ} (h : b ∈ w.looked) : b ∈ w.began := by
  cases w with
  | authorityOn kind running began => exact h
  | _ => cases h

end Work

namespace Manager

/-- No request that takes everything back has done so and is not over, or was
over only after this one began. -/
def OnTime (p : Pool Manager Work) (began : ℕ) : Prop :=
  (∀ n ∈ p.shared.revoked, n < began) ∧ ∀ w ∈ p.threads, w.hasRevoked = false

/-- A request that switches on does so in time. -/
def Timely (p : Pool Manager Work) : PoolEvent ManagerEvent Work Luck → Prop
  | .arrive _ => True
  | .advance w luck =>
    w ∈ p.threads → w.goesOn p.shared luck = true → ∀ b ∈ w.began, OnTime p b

instance (p : Pool Manager Work) (began : ℕ) : Decidable (OnTime p began) :=
  inferInstanceAs (Decidable (_ ∧ _))

instance (p : Pool Manager Work) : ∀ x, Decidable (Timely p x)
  | .arrive _ => .isTrue trivial
  | .advance _ _ => inferInstanceAs (Decidable (_ → _ → ∀ b ∈ Work.began _, OnTime p b))

/-- Another request took everything back after this one began. -/
def Late (m : Manager) (l : Multiset Work) (b : ℕ) : Prop :=
  (∃ n ∈ m.revoked, b < n) ∨ ∃ w ∈ l, w.hasRevoked = true

structure Sound (m : Manager) (l : Multiset Work) : Prop where
  told : m.actuation.Told
  begun : ∀ w ∈ l, ∀ b ∈ w.began, b < m.clock
  looked : ∀ w ∈ l, ∀ b ∈ w.looked, m.mode = modes.LESSON ∨ Late m l b
  on : ∀ kind, m.actuation.authority kind = true → m.mode = modes.LESSON ∧
    (∀ n ∈ m.revoked, n < m.since kind) ∧ ∀ w ∈ l, w.hasRevoked = false
  lab : ∀ kind, m.actuation.lab kind = true → ∀ n ∈ m.revoked, n < m.labSince kind

variable {m : Manager} {w : Work} {l : Multiset Work} {a : Actuation}

theorem Sound.off (h : Sound m l) (hw : w ∈ l) (hrevoked : w.hasRevoked = true) (kind : Kind) :
    m.actuation.authority kind = false := by
  cases hkind : m.actuation.authority kind with
  | false => rfl
  | true =>
    have hnone := (h.on kind hkind).2.2 w hw
    rw [hrevoked] at hnone
    cases hnone

theorem Sound.lower (h : Sound m l) (hlower : m.actuation.Lowers a) :
    Sound { m with actuation := a } l where
  told := hlower.told
  begun := h.begun
  looked := h.looked
  on kind hkind := h.on kind (hlower.authority kind hkind)
  lab kind hkind := h.lab kind (hlower.lab kind hkind)

theorem Sound.goes_on {u : Work} (h : Sound m (w ::ₘ l)) (hrevoked : u.hasRevoked = w.hasRevoked)
    (hbegan : ∀ b ∈ u.began, b ∈ w.began) (hlooked : u.looked = none) : Sound m (u ::ₘ l) where
  told := h.told
  begun v hv b hb := by
    rcases Multiset.mem_cons.1 hv with rfl | hv
    · exact h.begun w (Multiset.mem_cons_self w l) b (hbegan b hb)
    · exact h.begun v (Multiset.mem_cons_of_mem hv) b hb
  looked v hv b hb := by
    rcases Multiset.mem_cons.1 hv with rfl | hv
    · rw [hlooked] at hb
      cases hb
    · rcases h.looked v (Multiset.mem_cons_of_mem hv) b hb with hmode | hended | ⟨x, hx, hxr⟩
      · exact .inl hmode
      · exact .inr (.inl hended)
      · rcases Multiset.mem_cons.1 hx with rfl | hx
        · exact .inr (.inr ⟨u, Multiset.mem_cons_self u l, hrevoked.trans hxr⟩)
        · exact .inr (.inr ⟨x, Multiset.mem_cons_of_mem hx, hxr⟩)
  on kind hkind := by
    obtain ⟨hmode, hsince, hnone⟩ := h.on kind hkind
    refine ⟨hmode, hsince, ?_⟩
    intro v hv
    rcases Multiset.mem_cons.1 hv with rfl | hv
    · exact hrevoked.trans (hnone w (Multiset.mem_cons_self w l))
    · exact hnone v (Multiset.mem_cons_of_mem hv)
  lab := h.lab

theorem Sound.over (h : Sound m (w ::ₘ l)) (hrevoked : w.hasRevoked = false) : Sound m l where
  told := h.told
  begun v hv := h.begun v (Multiset.mem_cons_of_mem hv)
  looked v hv b hb := by
    rcases h.looked v (Multiset.mem_cons_of_mem hv) b hb with hmode | hended | ⟨x, hx, hxr⟩
    · exact .inl hmode
    · exact .inr (.inl hended)
    · rcases Multiset.mem_cons.1 hx with rfl | hx
      · rw [hrevoked] at hxr
        cases hxr
      · exact .inr (.inr ⟨x, hx, hxr⟩)
  on kind hkind := by
    obtain ⟨hmode, hsince, hnone⟩ := h.on kind hkind
    exact ⟨hmode, hsince, fun v hv => hnone v (Multiset.mem_cons_of_mem hv)⟩
  lab := h.lab

theorem Sound.revoked {m' : Manager} {u : Work} (h : Sound m (w ::ₘ l))
    (hoff : m'.actuation.AllOff) (hbegan : ∀ b, b ∉ u.began)
    (hclock : m'.clock = m.clock) (hrevoked : u.hasRevoked = true) : Sound m' (u ::ₘ l) where
  told := hoff.told
  begun v hv b hb := by
    rw [hclock]
    rcases Multiset.mem_cons.1 hv with rfl | hv
    · exact absurd hb (hbegan b)
    · exact h.begun v (Multiset.mem_cons_of_mem hv) b hb
  looked v hv b hb := .inr (.inr ⟨u, Multiset.mem_cons_self u l, hrevoked⟩)
  on kind hkind := by
    rw [hoff.1] at hkind
    cases hkind
  lab kind hkind := by
    rw [hoff.2] at hkind
    cases hkind

theorem Sound.allOff (h : Sound m (w ::ₘ l)) (hrevoked : w.hasRevoked = true) :
    m.actuation.AllOff := by
  have hauthority : ∀ kind, m.actuation.authority kind = false :=
    h.off (Multiset.mem_cons_self w l) hrevoked
  refine ⟨funext hauthority, ?_⟩
  funext kind
  refine Bool.eq_false_iff.2 fun hkind => ?_
  have hon := h.told.permitted kind hkind
  rw [hauthority kind] at hon
  cases hon

theorem Sound.finish (h : Sound m (w ::ₘ l)) (hrevoked : w.hasRevoked = true) :
    Sound { m with clock := m.clock + 1, revoked := some m.clock } l where
  told := h.told
  begun v hv b hb := (h.begun v (Multiset.mem_cons_of_mem hv) b hb).trans (Nat.lt_succ_self _)
  looked v hv b hb := by
    have hbegun := h.begun v (Multiset.mem_cons_of_mem hv) b (Work.began_of_looked hb)
    exact .inr (.inl ⟨m.clock, rfl, hbegun⟩)
  on kind hkind := by
    rw [show m.actuation.authority kind = false from
      h.off (Multiset.mem_cons_self w l) hrevoked kind] at hkind
    cases hkind
  lab kind hkind := by
    rw [show m.actuation.lab kind = false from congrFun (h.allOff hrevoked).2 kind] at hkind
    cases hkind

theorem lesson_of_available {kind : Kind} {running : Option String}
    (h : Actuation.unavailable kind m.mode running = none) : m.mode = modes.LESSON := by
  unfold Actuation.unavailable at h
  split at h
  · cases h
  · rename_i hmode
    simpa [modes.usesTeacherPermission] using hmode

theorem Sound.look {kind : Kind} {running : Option String} {began : ℕ}
    (h : Sound m (.authorityMode kind running began ::ₘ l))
    (havailable : Actuation.unavailable kind m.mode running = none) :
    Sound m (.authorityOn kind running began ::ₘ l) where
  told := h.told
  begun v hv b hb := by
    rcases Multiset.mem_cons.1 hv with rfl | hv
    · exact h.begun _ (Multiset.mem_cons_self _ l) b hb
    · exact h.begun v (Multiset.mem_cons_of_mem hv) b hb
  looked _ _ _ _ := .inl (lesson_of_available havailable)
  on kind hkind := by
    obtain ⟨hmode, hsince, hnone⟩ := h.on kind hkind
    refine ⟨hmode, hsince, ?_⟩
    intro v hv
    rcases Multiset.mem_cons.1 hv with rfl | hv
    · rfl
    · exact hnone v (Multiset.mem_cons_of_mem hv)
  lab := h.lab

theorem since_cases {since : Kind → ℕ} {goes : Bool} {kind k : Kind} {began : ℕ} {P : ℕ → Prop}
    (hold : k ≠ kind ∨ goes = false → P (since k)) (hnew : k = kind → goes = true → P began) :
    P ((if goes = true then Function.update since kind began else since) k) := by
  cases goes with
  | false => exact hold (.inr rfl)
  | true =>
    rw [if_pos rfl]
    by_cases hk : k = kind
    · subst hk
      rw [Function.update_self]
      exact hnew rfl rfl
    · rw [Function.update_of_ne hk]
      exact hold (.inl hk)

theorem Sound.lesson {b : ℕ} (h : Sound m l) (hw : w ∈ l) (hlooked : b ∈ w.looked)
    (htime : OnTime ⟨m, l⟩ b) : m.mode = modes.LESSON := by
  rcases h.looked w hw b hlooked with hmode | ⟨n, hn, hlt⟩ | ⟨u, hu, hrevoked⟩
  · exact hmode
  · exact absurd (htime.1 n hn) hlt.not_gt
  · rw [htime.2 u hu] at hrevoked
    cases hrevoked

/-- The switch goes on, in time. -/
theorem Sound.authorityOn {kind : Kind} {running : Option String} {began : ℕ} {chance : Chance}
    (h : Sound m (.authorityOn kind running began ::ₘ l))
    (htimely : m.authorityGoesOn kind running chance = true →
      OnTime ⟨m, .authorityOn kind running began ::ₘ l⟩ began) :
    Sound { m with
      actuation := (m.actuation.authorityOn kind running m.reads chance).1
      since := if m.authorityGoesOn kind running chance = true then
        Function.update m.since kind began else m.since } l := by
  have hraises : m.actuation.Raises (fun k => k = kind) (fun _ => False)
      (m.actuation.authorityOn kind running m.reads chance) :=
    Actuation.raises_authorityOn h.told running m.reads
  have hover : Sound m l := h.over rfl
  -- a switch that was not switched on here was on before, also when the heartbeat has exited
  have hwas : ∀ k, (m.actuation.authorityOn kind running m.reads chance).1.authority k = true →
      k ≠ kind ∨ m.authorityGoesOn kind running chance = false →
      m.actuation.authority k = true := by
    intro k hk hcase
    rcases hraises.authority k hk with hon | hsame
    · exact hon
    · have hsame : k = kind := hsame
      subst hsame
      have hgoes := hcase.resolve_left (fun hne => hne rfl)
      rw [authorityGoesOn, hk, Bool.and_true, Bool.not_eq_false'] at hgoes
      exact (Actuation.lowers_reap h.told).authority k hgoes
  have hnow : ∀ k, k = kind → m.authorityGoesOn kind running chance = true →
      m.mode = modes.LESSON ∧ (∀ n ∈ m.revoked, n < began) ∧ ∀ w ∈ l, w.hasRevoked = false := by
    rintro k - hgoes
    have htime := htimely hgoes
    exact ⟨h.lesson (Multiset.mem_cons_self _ l) rfl htime, htime.1,
      fun w hw => htime.2 w (Multiset.mem_cons_of_mem hw)⟩
  exact {
    told := hraises.told
    begun := hover.begun
    looked := hover.looked
    on := by
      intro k hk
      exact since_cases (P := fun since => m.mode = modes.LESSON ∧ (∀ n ∈ m.revoked, n < since) ∧
        ∀ w ∈ l, w.hasRevoked = false) (fun hcase => hover.on k (hwas k hk hcase)) (hnow k)
    lab := by
      intro k hk
      exact hover.lab k ((hraises.lab k hk).resolve_right id) }

/-- The lesson permission goes on or off, in time. -/
theorem Sound.setLab {kind : Kind} {allow : Bool} {began : ℕ} {chance : Chance}
    (h : Sound m (.labSet kind allow began ::ₘ l))
    (htimely : m.labGoesOn kind allow chance = true →
      OnTime ⟨m, .labSet kind allow began ::ₘ l⟩ began) :
    Sound { m with
      actuation := (m.actuation.setLab kind.key allow chance).1
      labSince := if m.labGoesOn kind allow chance = true then
        Function.update m.labSince kind began else m.labSince } l := by
  have hraises : m.actuation.Raises (fun _ => False)
      (fun k => kindOf kind.key = some k ∧ allow = true)
      (m.actuation.setLab kind.key allow chance) :=
    Actuation.raises_setLab h.told kind.key allow
  have hover : Sound m l := h.over rfl
  have hwas : ∀ k, (m.actuation.setLab kind.key allow chance).1.lab k = true →
      k ≠ kind ∨ m.labGoesOn kind allow chance = false → m.actuation.lab k = true := by
    intro k hk hcase
    rcases hraises.lab k hk with hon | ⟨hsame, -⟩
    · exact hon
    · rw [kindOf_key, Option.some.injEq] at hsame
      subst hsame
      have hgoes := hcase.resolve_left (fun hne => hne rfl)
      rw [labGoesOn, hk, Bool.and_true, Bool.not_eq_false'] at hgoes
      exact (Actuation.lowers_reap h.told).lab kind hgoes
  exact {
    told := hraises.told
    begun := hover.begun
    looked := hover.looked
    on := by
      intro k hk
      exact hover.on k ((hraises.authority k hk).resolve_right id)
    lab := by
      intro k hk
      exact since_cases (P := fun since => ∀ n ∈ m.revoked, n < since)
        (fun hcase => hover.lab k (hwas k hk hcase)) (fun _ hgoes => (htimely hgoes).1) }

theorem Sound.join (h : Sound m l) (hbegan : ∀ b ∈ w.began, b < m.clock)
    (hlooked : w.looked = none) (hrevoked : w.hasRevoked = false) : Sound m (w ::ₘ l) where
  told := h.told
  begun v hv b hb := by
    rcases Multiset.mem_cons.1 hv with rfl | hv
    · exact hbegan b hb
    · exact h.begun v hv b hb
  looked v hv b hb := by
    rcases Multiset.mem_cons.1 hv with rfl | hv
    · rw [hlooked] at hb
      cases hb
    · rcases h.looked v hv b hb with hmode | hended | ⟨x, hx, hxr⟩
      · exact .inl hmode
      · exact .inr (.inl hended)
      · exact .inr (.inr ⟨x, Multiset.mem_cons_of_mem hx, hxr⟩)
  on kind hkind := by
    obtain ⟨hmode, hsince, hnone⟩ := h.on kind hkind
    refine ⟨hmode, hsince, ?_⟩
    intro v hv
    rcases Multiset.mem_cons.1 hv with rfl | hv
    · exact hrevoked
    · exact hnone v hv
  lab := h.lab

theorem Sound.tick (h : Sound m l) : Sound { m with clock := m.clock + 1 } l where
  told := h.told
  begun v hv b hb := (h.begun v hv b hb).trans (Nat.lt_succ_self _)
  looked := h.looked
  on := h.on
  lab := h.lab

theorem lowers_reapBridge (h : m.actuation.Told) (luck : Luck) :
    ∃ a, m.reapBridge luck = { m with actuation := a } ∧ m.actuation.Lowers a := by
  unfold reapBridge
  split
  · exact ⟨_, rfl, Actuation.lowers_revokeLab h⟩
  · exact ⟨_, rfl, .refl h⟩

theorem Sound.arrive (h : Sound m l) (e : ManagerEvent) :
    Sound (arrive m e).1 ((arrive m e).2.1 + l) := by
  cases e with
  | request r =>
    cases r with
    | revoker r => exact h.tick.join nofun rfl rfl
    | authority kind allow =>
      refine h.tick.join ?_ rfl rfl
      rintro b ⟨⟩
      exact Nat.lt_succ_self _
    | lab kind allow =>
      have hnow : ∀ b ∈ some m.clock, b < m.clock + 1 := by
        rintro b ⟨⟩
        exact Nat.lt_succ_self _
      cases allow with
      | false => exact h.tick.join hnow rfl rfl
      | true => exact h.tick.join hnow rfl rfl
  | running mode =>
    simp only [Manager.arrive, Multiset.coe_nil, Multiset.zero_add]
    exact ⟨h.told, h.begun, h.looked, h.on, h.lab⟩
  | heartbeatExits code =>
    simp only [Manager.arrive, Multiset.coe_nil, Multiset.zero_add]
    exact ⟨Actuation.told_exits h.told code, h.begun, h.looked, h.on, h.lab⟩

theorem Sound.run {luck : Luck} (h : Sound m (w ::ₘ l))
    (htimely : w.goesOn m luck = true → ∀ b ∈ w.began, OnTime ⟨m, w ::ₘ l⟩ b) :
    Sound (run m w luck).1 ((run m w luck).2.1 + l) := by
  cases w with
  | ask r => exact h.goes_on rfl nofun rfl
  | revoke r running =>
    refine h.revoked (Actuation.allOff_revokeAll running m.reads) ?_ rfl ?_
    · cases r <;> nofun
    · cases r <;> rfl
  | readMode req => exact h.goes_on rfl nofun rfl
  | writeMode req previous =>
    have hoff := h.allOff rfl
    simp only [Manager.run]
    split
    · exact h.goes_on rfl nofun rfl
    · refine h.revoked hoff ?_ rfl ?_
      · unfold afterMode
        split
        · nofun
        · split <;> nofun
      · unfold afterMode
        split
        · rfl
        · split <;> rfl
  | takeLab look =>
    have hlower : Sound { m with actuation := (m.actuation.revokeLab luck.chance).1 } _ :=
      h.lower (Actuation.lowers_revokeLab h.told)
    cases look with
    | false => exact hlower.goes_on rfl nofun rfl
    | true => exact hlower.goes_on rfl nofun rfl
  | lookBridge =>
    obtain ⟨a, ha, hlowers⟩ := lowers_reapBridge h.told luck
    simp only [Manager.run, ha]
    exact (h.lower hlowers).goes_on rfl nofun rfl
  | finish error =>
    simp only [Manager.run, Multiset.coe_nil, Multiset.zero_add]
    exact h.finish rfl
  | authority kind allow began =>
    cases allow with
    | false => exact h.goes_on rfl nofun rfl
    | true => exact h.goes_on rfl (fun b hb => hb) rfl
  | authorityMode kind running began =>
    simp only [Manager.run]
    split
    · simp only [Multiset.coe_nil, Multiset.zero_add]
      exact h.over rfl
    · rename_i havailable
      exact h.look havailable
  | authorityOn kind running began =>
    simp only [Manager.run, Multiset.coe_nil, Multiset.zero_add]
    exact h.authorityOn fun hgoes => htimely hgoes began rfl
  | authorityOff kind running =>
    simp only [Manager.run, Multiset.coe_nil, Multiset.zero_add]
    exact (h.lower (Actuation.lowers_authorityOff h.told running m.reads)).over rfl
  | lab kind began =>
    simp only [Manager.run]
    split
    · exact h.goes_on rfl (fun b hb => hb) rfl
    · exact h.goes_on rfl nofun rfl
  | labUnavailable kind =>
    simp only [Manager.run, Multiset.coe_nil, Multiset.zero_add]
    exact h.over rfl
  | labRunning kind began => exact h.goes_on rfl (fun b hb => hb) rfl
  | labMode kind running began =>
    simp only [Manager.run]
    split
    · exact h.goes_on rfl (fun b hb => hb) rfl
    · simp only [Multiset.coe_nil, Multiset.zero_add]
      exact h.over rfl
  | labReap kind allow began =>
    obtain ⟨a, ha, hlowers⟩ := lowers_reapBridge h.told luck
    simp only [Manager.run, ha]
    exact (h.lower hlowers).goes_on rfl (fun b hb => hb) rfl
  | labSet kind allow began =>
    have hset := h.setLab fun hgoes => htimely hgoes began rfl
    simp only [Manager.run]
    rcases hanswer : m.actuation.setLab kind.key allow luck.chance with ⟨a, error | lab⟩
    · rw [hanswer] at hset
      simpa using hset
    · rw [hanswer] at hset
      exact hset.join nofun rfl rfl
  | labPayload =>
    obtain ⟨a, ha, hlowers⟩ := lowers_reapBridge h.told luck
    simp only [Manager.run, ha]
    exact (h.lower hlowers).goes_on rfl nofun rfl
  | labAvailable => exact h.goes_on rfl nofun rfl
  | labPermissions available => exact (h.lower (Actuation.lowers_reap h.told)).goes_on rfl nofun rfl
  | labAllowed looks permissions =>
    cases looks with
    | zero =>
      simp only [Manager.run, Multiset.coe_nil, Multiset.zero_add]
      exact h.over rfl
    | succ looks => exact (h.lower (Actuation.lowers_reap h.told)).goes_on rfl nofun rfl

theorem sound_step {p : Pool Manager Work} {x : PoolEvent ManagerEvent Work Luck}
    (h : Sound p.shared p.threads) (htimely : Timely p x) :
    Sound (program.step p x).1.shared (program.step p x).1.threads := by
  refine Program.step_invariant h ?_ ?_
  · rintro e rfl
    exact h.arrive e
  · rintro w l luck rfl hl
    rw [hl] at h
    refine h.run fun hgoes b hb => ?_
    have htime := htimely (hl ▸ Multiset.mem_cons_self w l) hgoes b hb
    exact ⟨htime.1, hl ▸ htime.2⟩

/-! ## Runs -/

/-- With no request in progress, what is on is on in lesson mode, and no mode,
service or stop-all request ended after the request began that switched it on. -/
def Follows (p : Pool Manager Work) : Prop :=
  p.threads = 0 → ∀ kind,
    (p.shared.actuation.authority kind = true → p.shared.mode = modes.LESSON ∧
      ∀ n ∈ p.shared.revoked, n < p.shared.since kind) ∧
    (p.shared.actuation.lab kind = true → p.shared.mode = modes.LESSON ∧
      ∀ n ∈ p.shared.revoked, n < p.shared.labSince kind)

theorem Sound.follows {p : Pool Manager Work} (h : Sound p.shared p.threads) : Follows p := by
  intro _ kind
  constructor
  · intro hkind
    obtain ⟨hmode, hsince, -⟩ := h.on kind hkind
    exact ⟨hmode, hsince⟩
  · intro hkind
    exact ⟨(h.on kind (h.told.permitted kind hkind)).1, h.lab kind hkind⟩

theorem sound_start (mode : String) (running : Option String) :
    Sound (start mode running).shared (start mode running).threads where
  told := Actuation.told_start
  begun := nofun
  looked := nofun
  on := nofun
  lab := nofun

/-- In every run in which what is switched on is switched on in time. -/
theorem permissions_follow_mode (mode : String) (running : Option String)
    (es : List (PoolEvent ManagerEvent Work Luck))
    (h : ∀ t ∈ trace program.step (start mode running) es, Timely t.pre t.event) :
    ∀ t ∈ trace program.step (start mode running) es, Follows t.post := by
  intro t ht
  have hsound := trace_invariant_ok (fun p : Pool Manager Work => Sound p.shared p.threads)
    (fun _ _ hp hx => sound_step hp hx) es _ (sound_start mode running) h t ht
  exact hsound.2.follows

/-! Two requests: the switch for driving and the change to practice mode. -/

/-- The switch goes on up to the look at the saved mode. -/
def checkRun (began : ℕ) : List (PoolEvent ManagerEvent Work Luck) :=
  [.arrive (.request (.authority .drive true)), .advance (.authority .drive true began) {},
    .advance (.authorityMode .drive (some "lesson") began) {}]

def takeBackRun : List (PoolEvent ManagerEvent Work Luck) :=
  [.arrive (.request (.revoker (.mode .practice))), .advance (.ask (.mode .practice)) {},
    .advance (.revoke (.mode .practice) (some "lesson")) {}]

def practiceRun : List (PoolEvent ManagerEvent Work Luck) :=
  [.advance (.readMode .practice) {}, .advance (.writeMode .practice "lesson") {},
    .advance (.takeLab true) {}, .advance .lookBridge {}, .advance (.finish none) {}]

/-- The mode changes between the check and the switch. -/
def staleCheck : List (PoolEvent ManagerEvent Work Luck) :=
  checkRun 0 ++ takeBackRun ++ practiceRun ++ [.advance (.authorityOn .drive (some "lesson") 0) {}]

/-- The switch goes on between the taking back and the write of the mode file. -/
def lateSwitch : List (PoolEvent ManagerEvent Work Luck) :=
  takeBackRun ++ checkRun 1 ++ .advance (.authorityOn .drive (some "lesson") 1) {} :: practiceRun

/-- The switch goes on, then the mode changes. -/
def switchThenMode : List (PoolEvent ManagerEvent Work Luck) :=
  checkRun 0 ++ .advance (.authorityOn .drive (some "lesson") 0) {} :: takeBackRun ++ practiceRun

theorem permissions_follow_mode_run :
    (∀ t ∈ trace program.step (start "lesson" (some "lesson")) switchThenMode, Follows t.post) ∧
      (final program.step (start "lesson" (some "lesson")) switchThenMode).shared.mode =
        modes.PRACTICE :=
  ⟨permissions_follow_mode _ _ switchThenMode (by decide), by decide⟩

theorem permissions_outlive_mode :
    ¬ Follows (final program.step (start "lesson" (some "lesson")) staleCheck) ∧
      ¬ Follows (final program.step (start "lesson" (some "lesson")) lateSwitch) := by
  constructor
  · intro h
    have hmode := ((h (by decide) .drive).1 (by decide)).1
    revert hmode
    decide
  · intro h
    have hmode := ((h (by decide) .drive).1 (by decide)).1
    revert hmode
    decide

end Manager

end Questix.RobotManager
