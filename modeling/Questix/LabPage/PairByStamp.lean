/-
Questix.LabPage.PairByStamp — one sample per message of a stream, with the
latest message of other streams (`pairByStamp` of `recording-core.js`).

The page goes over the streams once, with a cursor in each that only moves on.
`cursor_of_le` is why that gives what a search from the start gives
(`partner`): at the next message no cursor is past the place that a search
would find, and it is moved to just there.
-/
import Mathlib.Data.List.Forall2
import Questix.Lib.Dbl
import Questix.LabPage.RecordingCore

namespace Questix.LabPage.RecordingCore

open Questix.Lib

/-- `recording.streams[name] ?? []` -/
def Recording.messages (recording : Recording) (name : Stream) : List Js :=
  (recording.streams.lookup name).getD []

/-- The members of a sample: a message, or `null`. -/
abbrev Sample := Stream → Option (Option Js)

/-- The cursor moves on while its message is not after `message`. -/
def advance (list : List Js) (message : Js) (cursor : Nat) : Nat :=
  if h : cursor < list.length then
    if stampLe list[cursor] message then advance list message (cursor + 1) else cursor
  else cursor
  termination_by list.length - cursor

/-- `list[cursor - 1]` -/
def behind (list : List Js) : Nat → Option Js
  | 0 => none
  | cursor + 1 => list[cursor]?

/-- `message.stamp - latest.stamp <= freshSeconds` -/
def isFresh (message : Js) (freshSeconds : Dbl) (latest : Js) : Bool :=
  .fin ((stamp message).getD 0 - (stamp latest).getD 0) ≤ freshSeconds

/-- One partner: its cursor moves on, and what is behind it is attached. -/
def attach (recording : Recording) (message : Js) (freshSeconds : Dbl)
    (s : (Stream → Nat) × Sample) (name : Stream) : (Stream → Nat) × Sample :=
  let list := recording.messages name
  let cursor := advance list message (s.1 name)
  (Function.update s.1 name cursor,
    Function.update s.2 name (some ((behind list cursor).filter (isFresh message freshSeconds))))

def sampleOf (trigger : Stream) (message : Js) : Sample :=
  Function.update (fun _ => none) trigger (some (some message))

/-- One message of the trigger, with all its partners. -/
def pairMessage (recording : Recording) (trigger : Stream) (pair : List Stream)
    (freshSeconds : Dbl) (s : (Stream → Nat) × List Sample) (message : Js) :
    (Stream → Nat) × List Sample :=
  let paired := pair.foldl (attach recording message freshSeconds) (s.1, sampleOf trigger message)
  (paired.1, s.2 ++ [paired.2])

def pairByStamp (recording : Recording) (trigger : Stream) (pair : List Stream)
    (freshSeconds : Dbl) : List Sample :=
  ((recording.messages trigger).foldl (pairMessage recording trigger pair freshSeconds)
    (fun _ => 0, [])).2

/-! ## Each stream searched afresh -/

/-- The last message of `list` that is not after `message`, if it is fresh. -/
def partner (list : List Js) (message : Js) (freshSeconds : Dbl) : Option Js :=
  ((list.filter fun m => stampLe m message).getLast?).filter (isFresh message freshSeconds)

def sampleAfresh (recording : Recording) (trigger : Stream) (pair : List Stream)
    (freshSeconds : Dbl) (message : Js) : Sample := fun name =>
  if name ∈ pair then some (partner (recording.messages name) message freshSeconds)
  else if name = trigger then some (some message)
  else none

/-- Every message has a stamp, and none is after the next one. -/
structure SortedByStamp (list : List Js) : Prop where
  stamped : ∀ m ∈ list, (stamp m).isSome = true
  sorted : list.Pairwise fun a b => stampLe a b = true

/-! ## Streams are sorted -/

theorem stampLe_iff {a b : Js} :
    stampLe a b = true ↔ (stamp a).getD 0 ≤ (stamp b).getD 0 :=
  decide_eq_true_iff

theorem stampLe_trans {a b c : Js} (hab : stampLe a b = true) (hbc : stampLe b c = true) :
    stampLe a c = true :=
  stampLe_iff.2 (le_trans (stampLe_iff.1 hab) (stampLe_iff.1 hbc))

theorem stampLe_total (a b : Js) : (stampLe a b || stampLe b a) = true := by
  rw [Bool.or_eq_true, stampLe_iff, stampLe_iff]
  exact le_total ((stamp a).getD 0) ((stamp b).getD 0)

theorem sorted_sortedByStamp (list : List Js) : SortedByStamp (sortedByStamp list) where
  stamped := by simp [sortedByStamp]
  sorted := List.pairwise_mergeSort (fun a b c => @stampLe_trans a b c) stampLe_total _

theorem sorted_kept (streams : Js) (kept : List Stream) (name : Stream) :
    SortedByStamp (((kept.filterMap (keptStream streams)).lookup name).getD []) := by
  induction kept with
  | nil => exact ⟨by simp, by simp⟩
  | cons stream kept ih =>
    rw [List.filterMap_cons]
    cases hkept : keptStream streams stream with
    | none => exact ih
    | some entry =>
      dsimp only
      rw [List.lookup_cons]
      split
      · unfold keptStream at hkept
        split at hkept <;> cases hkept
        exact sorted_sortedByStamp _
      · exact ih

/-! ## One cursor -/

section Cursor

variable {list : List Js} {message next : Js} {cursor : Nat}

/-- Where a search of `list` finds the first message after `message`. -/
def reach (list : List Js) (message : Js) : Nat :=
  list.findIdx fun m => !stampLe m message

theorem reach_le_length : reach list message ≤ list.length :=
  List.findIdx_le_length

theorem lt_reach_of_stampLe (h : cursor ≤ reach list message) (hlt : cursor < list.length)
    (hle : stampLe list[cursor] message = true) : cursor < reach list message := by
  refine lt_of_le_of_ne h fun heq => ?_
  subst heq
  have hafter := @List.findIdx_getElem _ (fun m => !stampLe m message) list hlt
  rw [Bool.not_eq_true'] at hafter
  exact Bool.false_ne_true (hafter.symm.trans hle)

theorem stampLe_of_lt_reach (h : cursor < reach list message) (hlt : cursor < list.length) :
    stampLe list[cursor] message = true := by
  have hbefore := List.not_of_lt_findIdx h
  simpa using hbefore

theorem cursor_of_le (h : cursor ≤ reach list message) :
    advance list message cursor = reach list message := by
  fun_induction advance list message cursor with
  | case1 cursor hlt hle ih => exact ih (lt_reach_of_stampLe h hlt hle)
  | case2 cursor hlt hafter =>
    refine le_antisymm h (not_lt.1 fun hbefore => ?_)
    exact hafter (stampLe_of_lt_reach hbefore hlt)
  | case3 cursor hend => exact le_antisymm h (reach_le_length.trans (not_lt.1 hend))

theorem reach_mono (h : stampLe message next = true) : reach list message ≤ reach list next := by
  by_contra hback
  have hlt : reach list next < list.length := (not_le.1 hback).trans_le reach_le_length
  have hle := stampLe_trans (stampLe_of_lt_reach (not_le.1 hback) hlt) h
  exact absurd (lt_reach_of_stampLe le_rfl hlt hle) (lt_irrefl _)

theorem filter_eq_take (hsorted : list.Pairwise fun a b => stampLe a b = true) :
    (list.filter fun m => stampLe m message) = list.take (reach list message) := by
  unfold reach
  induction list with
  | nil => rfl
  | cons a list ih =>
    rw [List.pairwise_cons] at hsorted
    rw [List.filter_cons, List.findIdx_cons]
    cases hle : stampLe a message with
    | true => simp only [if_true, Bool.not_true, cond_false, List.take_succ_cons, ih hsorted.2]
    | false =>
      simp only [Bool.false_eq_true, if_false, Bool.not_false, cond_true, List.take_zero,
        List.filter_eq_nil_iff]
      intro b hb hbefore
      exact Bool.false_ne_true (hle.symm.trans (stampLe_trans (hsorted.1 b hb) hbefore))

theorem behind_reach (hsorted : list.Pairwise fun a b => stampLe a b = true) :
    behind list (reach list message) = (list.filter fun m => stampLe m message).getLast? := by
  have hlen : reach list message ≤ list.length := reach_le_length
  rw [filter_eq_take hsorted]
  cases hreach : reach list message with
  | zero => rfl
  | succ k =>
    rw [List.getLast?_take, if_neg (Nat.succ_ne_zero k), Nat.add_sub_cancel,
      List.getElem?_eq_getElem (by omega), Option.some_or, behind,
      List.getElem?_eq_getElem (by omega)]

end Cursor

/-! ## All cursors -/

section Pairs

variable {recording : Recording} {trigger : Stream} {pair : List Stream} {freshSeconds : Dbl}
  {message : Js} {s : (Stream → Nat) × Sample}

/-- No cursor is past its place at `message`. -/
def Behind (recording : Recording) (message : Js) (cursors : Stream → Nat) : Prop :=
  ∀ name, cursors name ≤ reach (recording.messages name) message

theorem Behind.attach (h : Behind recording message s.1) (name : Stream) :
    Behind recording message (attach recording message freshSeconds s name).1 := by
  intro name'
  unfold RecordingCore.attach
  dsimp only
  by_cases heq : name' = name
  · subst heq
    rw [Function.update_self, cursor_of_le (h name')]
  · rw [Function.update_of_ne heq]
    exact h name'

theorem attach_sample (hsorted : ∀ name, SortedByStamp (recording.messages name))
    (h : Behind recording message s.1) (name : Stream) :
    (attach recording message freshSeconds s name).2 =
      Function.update s.2 name
        (some (partner (recording.messages name) message freshSeconds)) := by
  simp only [attach, cursor_of_le (h name), behind_reach (hsorted name).sorted, partner]

theorem attach_all (hsorted : ∀ name, SortedByStamp (recording.messages name))
    (pair : List Stream) (h : Behind recording message s.1) :
    Behind recording message (pair.foldl (attach recording message freshSeconds) s).1 ∧
      ∀ name, (pair.foldl (attach recording message freshSeconds) s).2 name =
        if name ∈ pair then some (partner (recording.messages name) message freshSeconds)
        else s.2 name := by
  induction pair generalizing s with
  | nil => exact ⟨h, fun name => (if_neg List.not_mem_nil).symm⟩
  | cons first pair ih =>
    obtain ⟨hbehind, hsample⟩ := ih (h.attach first)
    refine ⟨hbehind, fun name => ?_⟩
    rw [List.foldl_cons, hsample, attach_sample hsorted h]
    by_cases hmem : name ∈ pair
    · rw [if_pos hmem, if_pos (List.mem_cons_of_mem first hmem)]
    · rw [if_neg hmem]
      by_cases heq : name = first
      · subst heq
        rw [Function.update_self, if_pos List.mem_cons_self]
      · rw [Function.update_of_ne heq, if_neg]
        exact fun hcons => (List.mem_cons.1 hcons).elim heq hmem

theorem pairMessage_eq (hsorted : ∀ name, SortedByStamp (recording.messages name))
    {cursors : Stream → Nat} (samples : List Sample) (h : Behind recording message cursors) :
    Behind recording message
        (pairMessage recording trigger pair freshSeconds (cursors, samples) message).1 ∧
      (pairMessage recording trigger pair freshSeconds (cursors, samples) message).2 =
        samples ++ [sampleAfresh recording trigger pair freshSeconds message] := by
  have hall := @attach_all recording freshSeconds message (cursors, sampleOf trigger message)
    hsorted pair h
  refine ⟨hall.1, ?_⟩
  have hsample : (pair.foldl (attach recording message freshSeconds)
      (cursors, sampleOf trigger message)).2 =
        sampleAfresh recording trigger pair freshSeconds message := by
    funext name
    rw [hall.2, sampleAfresh]
    by_cases hmem : name ∈ pair
    · rw [if_pos hmem, if_pos hmem]
    · rw [if_neg hmem, if_neg hmem]
      exact Function.update_apply (fun _ => none) trigger (some (some message)) name
  unfold pairMessage
  dsimp only
  rw [hsample]

theorem foldl_pairMessage (hsorted : ∀ name, SortedByStamp (recording.messages name))
    (list : List Js) (hlist : list.Pairwise fun a b => stampLe a b = true)
    {cursors : Stream → Nat} (samples : List Sample)
    (h : ∀ message ∈ list, Behind recording message cursors) :
    (list.foldl (pairMessage recording trigger pair freshSeconds) (cursors, samples)).2 =
      samples ++ list.map (sampleAfresh recording trigger pair freshSeconds) := by
  induction list generalizing cursors samples with
  | nil => exact (List.append_nil samples).symm
  | cons message list ih =>
    rw [List.pairwise_cons] at hlist
    obtain ⟨hbehind, hsample⟩ := @pairMessage_eq recording trigger pair freshSeconds message
      hsorted cursors samples (h message List.mem_cons_self)
    have hpair : pairMessage recording trigger pair freshSeconds (cursors, samples) message =
        ((pairMessage recording trigger pair freshSeconds (cursors, samples) message).1,
          samples ++ [sampleAfresh recording trigger pair freshSeconds message]) :=
      Prod.ext rfl hsample
    rw [List.foldl_cons, hpair, ih hlist.2, List.map_cons, List.append_assoc,
      List.singleton_append]
    intro next hnext name
    exact (hbehind name).trans (reach_mono (hlist.1 next hnext))

/-- One sample per message, and in it what a search of every stream finds. -/
theorem pairs_afresh (hsorted : ∀ name, SortedByStamp (recording.messages name)) :
    pairByStamp recording trigger pair freshSeconds =
      (recording.messages trigger).map (sampleAfresh recording trigger pair freshSeconds) := by
  rw [pairByStamp, foldl_pairMessage hsorted _ (hsorted trigger).sorted]
  · rfl
  · exact fun _ _ _ => Nat.zero_le _

/-- What a sample may hold of a stream: its latest message that is not after
`message`, or `null` where no such message is fresh. -/
def Latest (list : List Js) (message : Js) (freshSeconds : Dbl) : Option Js → Prop
  | some found => found ∈ list ∧ stampLe found message ∧ isFresh message freshSeconds found ∧
      ∀ m ∈ list, stampLe m message → stampLe m found
  | none => ∀ m ∈ list, stampLe m message → ¬ isFresh message freshSeconds m

theorem isFresh_of_stampLe {m found : Js} (hle : stampLe m found)
    (hfresh : isFresh message freshSeconds m) : isFresh message freshSeconds found := by
  simp only [isFresh, decide_eq_true_eq] at hfresh ⊢
  have hle' := stampLe_iff.1 hle
  cases freshSeconds with
  | fin seconds =>
    rw [Dbl.fin_le_fin] at hfresh ⊢
    linarith
  | nan | ninf | pinf => exact hfresh

theorem latest_partner {list : List Js} (hsorted : list.Pairwise fun a b => stampLe a b = true) :
    Latest list message freshSeconds (partner list message freshSeconds) := by
  unfold partner
  cases hlast : (list.filter fun m => stampLe m message).getLast? with
  | none =>
    intro m hm hle
    rw [List.getLast?_eq_none_iff, List.filter_eq_nil_iff] at hlast
    exact absurd hle (hlast m hm)
  | some found =>
    obtain ⟨before, hbefore⟩ := List.getLast?_eq_some_iff.1 hlast
    have hmem : ∀ m, m ∈ list ∧ stampLe m message ↔ m ∈ before ++ [found] := by
      simp [← hbefore]
    have hle : ∀ m ∈ list, stampLe m message → stampLe m found := by
      intro m hm hle
      have hpairs := List.pairwise_append.1 (hbefore ▸ hsorted.filter _)
      rcases List.mem_append.1 ((hmem m).1 ⟨hm, hle⟩) with hm | hm
      · exact hpairs.2.2 m hm found (by simp)
      · simp [stampLe_iff, List.mem_singleton.1 hm]
    obtain ⟨hfound, hnot_after⟩ := (hmem found).2 (by simp)
    cases hfresh : isFresh message freshSeconds found with
    | true =>
      simp only [Option.filter_some, hfresh, if_true]
      exact ⟨hfound, hnot_after, hfresh, hle⟩
    | false =>
      simp only [Option.filter_some, hfresh, Bool.false_eq_true, if_false]
      intro m hm hbefore hfresh'
      simp [isFresh_of_stampLe (hle m hm hbefore) hfresh'] at hfresh

/-- However the messages of the streams came, with or without stamps and in
whatever order: of every partner a sample holds the latest. -/
theorem pairByStamp_latest (host : Host) (parts : Parts) :
    List.Forall₂ (fun message sample => ∀ name ∈ pair, ∃ found, sample name = some found ∧
        Latest ((makeRecording host parts).messages name) message freshSeconds found)
      ((makeRecording host parts).messages trigger)
      (pairByStamp (makeRecording host parts) trigger pair freshSeconds) := by
  have hsorted : ∀ name, SortedByStamp ((makeRecording host parts).messages name) :=
    sorted_kept parts.streams RECORDING_STREAMS
  rw [pairByStamp, foldl_pairMessage hsorted _ (hsorted trigger).sorted _
    (fun _ _ _ => Nat.zero_le _), List.nil_append, List.forall₂_map_right_iff,
    List.forall₂_same]
  intro message _ name hname
  exact ⟨_, if_pos hname, latest_partner (hsorted name).sorted⟩

end Pairs

def stamped (seconds : ℚ) : Js := .obj [(units "stamp", .num (.fin seconds))]

/-- Two odometry messages at one time, a scan then and one much later. -/
def scanRun : Recording where
  source := .undefined
  name := .undefined
  recordedAt := .undefined
  wheelRadius := .undefined
  wheelSeparation := .undefined
  topics := .undefined
  streams := [(.scan, [stamped 2, stamped 9]), (.odom, [stamped 1, stamped 2, stamped 2])]
  info := ⟨none, none, none, none, none⟩

theorem sorted_stamped (l : List ℚ) (h : l.Pairwise (· ≤ ·)) :
    SortedByStamp (l.map stamped) where
  stamped := by
    intro m hm
    obtain ⟨seconds, -, rfl⟩ := List.mem_map.1 hm
    rfl
  sorted := by
    rw [List.pairwise_map]
    exact h.imp fun hle => stampLe_iff.2 hle

theorem pairs_afresh_scanRun :
    pairByStamp scanRun .scan [.odom, .twist] 5 =
      [stamped 2, stamped 9].map (sampleAfresh scanRun .scan [.odom, .twist] 5) := by
  refine pairs_afresh fun name => ?_
  cases name with
  | scan => exact sorted_stamped [2, 9] (by decide)
  | odom => exact sorted_stamped [1, 2, 2] (by decide)
  | _ => exact sorted_stamped [] List.Pairwise.nil

end Questix.LabPage.RecordingCore
