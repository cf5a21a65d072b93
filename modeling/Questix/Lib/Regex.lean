/-
Questix.Lib.Regex — regular expressions as Python's `re` reads and matches
them, for expressions without the characters `? { \ ^ $`: literals, `.`,
sets, groups, alternation, `*` and `+`, and these with a `+` behind them, which
makes them possessive.

`compile` reads an expression from left to right, with a frame for every group
that is open, and fails where `re.compile` raises `re.error`. A match goes by
`results`: what is left of the text after each way the expression has to match
at its beginning, in the order in which they are tried. So `fullmatch` is one
that leaves nothing.

Reading goes on in a group, or after a bar, as at the beginning of an
expression (`run_embed`): expressions that compile may be joined by bars
(`compile_intercalate`) and put in a group (`compile_group`), and match what
one of them matches. The converse fails: two expressions neither of which
compiles may, joined by a bar, be one that does.
-/
import Mathlib.Data.List.Basic
import Mathlib.Tactic.Common

namespace Questix.Lib

/-! ## Expressions and what they match -/

inductive Re where
  | eps
  /-- Any character but the end of a line. -/
  | any
  /-- A character in one of the ranges. -/
  | set (ranges : List (Char × Char))
  | cat (a b : Re)
  | alt (a b : Re)
  /-- `*`, or `+` with `atLeastOne`. -/
  | rep (atLeastOne possessive : Bool) (r : Re)

namespace Re

/-- Iterate as long as possible, and skip. An iteration that took nothing is the
last one. -/
def star (f : List Char → List (List Char)) : ℕ → List Char → List (List Char)
  | 0, s => [s]
  | n + 1, s => ((f s).flatMap fun s' => if s'.length < s.length then star f n s' else [s']) ++ [s]

/-- At least one iteration. -/
def plus (f : List Char → List (List Char)) (s : List Char) : List (List Char) :=
  (f s).flatMap fun s' => if s'.length < s.length then star f s'.length s' else [s']

/-- What is left after each way to match at the beginning, in the order they are
tried; a possessive repetition keeps to the first way it found. -/
def results : Re → List Char → List (List Char)
  | eps, s => [s]
  | any, c :: s => if c = '\n' then [] else [s]
  | set ranges, c :: s => if ranges.any fun r => r.1 ≤ c && c ≤ r.2 then [s] else []
  | any, [] => []
  | set _, [] => []
  | cat a b, s => (a.results s).flatMap b.results
  | alt a b, s => a.results s ++ b.results s
  | rep atLeastOne possessive r, s =>
    let all := if atLeastOne then plus r.results s else star r.results s.length s
    if possessive then all.take 1 else all

/-- `Pattern.fullmatch` -/
def fullmatch (r : Re) (s : List Char) : Bool := (r.results s).contains []

/-- The alternation of a list. -/
def alts : List Re → Re
  | [] => eps
  | [r] => r
  | r :: rs => alt r (alts rs)

theorem results_alts : ∀ {rs : List Re} (s : List Char), rs ≠ [] →
    (alts rs).results s = rs.flatMap fun r => r.results s
  | [], _, h => absurd rfl h
  | [r], s, _ => by simp [alts]
  | r :: r' :: rs, s, _ => by
      have hrest : (alts (r' :: rs)).results s = (r' :: rs).flatMap fun r => r.results s :=
        results_alts s (by simp)
      show r.results s ++ (alts (r' :: rs)).results s = _
      simp only [hrest, List.flatMap_cons]

end Re

/-! ## Reading -/

namespace Regex

/-- The last item of a sequence, which a quantifier would be about. -/
inductive Item where
  | single (r : Re)
  | repeated (atLeastOne possessive : Bool) (r : Re)

def Item.re : Item → Re
  | single r => r
  | repeated atLeastOne possessive r => .rep atLeastOne possessive r

/-- An open group: the alternatives that are complete, and the one being read, of
which `last` is the last item. -/
structure Frame where
  alts : List Re := []
  front : Re := .eps
  last : Option Item := none

namespace Frame

variable (f : Frame)

def seq : Re := f.last.elim f.front fun item => .cat f.front item.re

def whole : Re := Re.alts (f.alts ++ [f.seq])

def add (r : Re) : Frame := { f with front := f.seq, last := some (.single r) }

def bar : Frame := { alts := f.alts ++ [f.seq] }

/-- A quantifier is about the last item. It may not be about one that is
repeated, but a `+` makes a repetition possessive. -/
def quantify (atLeastOne : Bool) : Option Frame :=
  match f.last with
  | none => none
  | some (.single r) => some { f with last := some (.repeated atLeastOne false r) }
  | some (.repeated first false r) =>
    if atLeastOne then some { f with last := some (.repeated first true r) } else none
  | some (.repeated _ true _) => none

end Frame

/-- Where a set is being read: before an item, after the character `a`, or after
`a-`. -/
inductive Pending where
  | item
  | char (a : Char)
  | dash (a : Char)

/-- Outside of a set, or in one with the ranges read so far. -/
inductive Lex where
  | plain
  | set (ranges : List (Char × Char)) (pending : Pending)

/-- The groups that are open, the innermost apart; the outermost is the
expression itself. -/
structure State where
  lex : Lex := .plain
  frame : Frame := {}
  outer : List Frame := []

def State.setFrame (st : State) (frame : Frame) : State := { st with frame := frame }

def State.closeSet (st : State) (ranges : List (Char × Char)) : State :=
  { st with lex := .plain, frame := st.frame.add (.set ranges) }

def stepSet (st : State) (ranges : List (Char × Char)) : Pending → Char → Option State
  | .item, c =>
    if c = ']' ∧ ranges ≠ [] then some (st.closeSet ranges)
    else some { st with lex := .set ranges (.char c) }
  | .char a, c =>
    if c = '-' then some { st with lex := .set ranges (.dash a) }
    else if c = ']' then some (st.closeSet (ranges ++ [(a, a)]))
    else some { st with lex := .set (ranges ++ [(a, a)]) (.char c) }
  | .dash a, c =>
    if c = ']' then some (st.closeSet (ranges ++ [(a, a), ('-', '-')]))
    else if c < a then none
    else some { st with lex := .set (ranges ++ [(a, c)]) .item }

def stepPlain (st : State) (c : Char) : Option State :=
  if c = '(' then some { st with frame := {}, outer := st.frame :: st.outer }
  else if c = ')' then
    match st.outer with
    | [] => none
    | f :: outer => some { st with frame := f.add st.frame.whole, outer := outer }
  else if c = '|' then some (st.setFrame st.frame.bar)
  else if c = '*' then (st.frame.quantify false).map st.setFrame
  else if c = '+' then (st.frame.quantify true).map st.setFrame
  else if c = '[' then some { st with lex := .set [] .item }
  else if c = '.' then some (st.setFrame (st.frame.add .any))
  else some (st.setFrame (st.frame.add (.set [(c, c)])))

def step (st : State) (c : Char) : Option State :=
  match st.lex with
  | .plain => stepPlain st c
  | .set ranges pending => stepSet st ranges pending c

def run (st : State) (s : List Char) : Option State := s.foldlM step st

/-- The expression, where no set and no group is open. -/
def State.finish (st : State) : Option Re :=
  match st.lex, st.outer with
  | .plain, [] => some st.frame.whole
  | _, _ => none

/-- `re.compile`: `none` where it raises `re.error`. -/
def compile (s : List Char) : Option Re := (run {} s).bind State.finish

/-- `re.compile(s).fullmatch(t)`, where `s` compiles. -/
def matchesWhole (s t : List Char) : Bool := (compile s).any fun r => r.fullmatch t

/-! ## Reading in a context -/

/-- The alternatives `as` in front of those of a group. -/
def Frame.under (as : List Re) (f : Frame) : Frame := { f with alts := as ++ f.alts }

/-- What is open when the outermost group follows the alternatives `as` in a
group that has `rest` around it. -/
def embedFrames (as : List Re) (rest : List Frame) : Frame → List Frame → Frame × List Frame
  | f, [] => (f.under as, rest)
  | f, g :: gs => (f, (embedFrames as rest g gs).1 :: (embedFrames as rest g gs).2)

def State.embed (as : List Re) (rest : List Frame) (st : State) : State where
  lex := st.lex
  frame := (embedFrames as rest st.frame st.outer).1
  outer := (embedFrames as rest st.frame st.outer).2

section Embed

variable {as : List Re} {rest : List Frame} {st st' : State} {c : Char}

theorem under_add (f : Frame) (r : Re) : (f.under as).add r = (f.add r).under as := rfl

theorem under_bar (f : Frame) : (f.under as).bar = f.bar.under as := by
  simp [Frame.bar, Frame.under, Frame.seq]

theorem under_quantify (f : Frame) (atLeastOne : Bool) :
    (f.under as).quantify atLeastOne = (f.quantify atLeastOne).map (Frame.under as) := by
  obtain ⟨alts, front, _ | _ | ⟨first, possessive, r⟩⟩ := f
  · rfl
  · rfl
  · cases possessive <;> cases atLeastOne <;> rfl

theorem embed_frame (change : Frame → Frame) (lex : Lex)
    (h : ∀ f, change (f.under as) = (change f).under as) :
    { st.embed as rest with lex := lex, frame := change (st.embed as rest).frame } =
      ({ st with lex := lex, frame := change st.frame } : State).embed as rest := by
  obtain ⟨lex, frame, _ | ⟨g, gs⟩⟩ := st
  · simp [State.embed, embedFrames, h]
  · rfl

theorem embed_quantify {atLeastOne : Bool}
    (h : (st.frame.quantify atLeastOne).map st.setFrame = some st') :
    ((st.embed as rest).frame.quantify atLeastOne).map (st.embed as rest).setFrame =
      some (st'.embed as rest) := by
  obtain ⟨lex, frame, _ | ⟨g, gs⟩⟩ := st
  · obtain ⟨f, hf, rfl⟩ := Option.map_eq_some_iff.1 h
    have hunder : ((State.mk lex frame []).embed as rest).frame.quantify atLeastOne =
        some (f.under as) := by
      show (frame.under as).quantify atLeastOne = _
      rw [under_quantify, hf]
      rfl
    rw [hunder]
    rfl
  · obtain ⟨f, hf, rfl⟩ := Option.map_eq_some_iff.1 h
    have hunder : ((State.mk lex frame (g :: gs)).embed as rest).frame.quantify atLeastOne =
        some f := hf
    rw [hunder]
    rfl

theorem stepPlain_embed (h : stepPlain st c = some st') :
    stepPlain (st.embed as rest) c = some (st'.embed as rest) := by
  unfold stepPlain at h ⊢
  split_ifs at h ⊢
  · obtain rfl := Option.some.inj h
    rfl
  · obtain ⟨lex, frame, _ | ⟨g, _ | ⟨g', gs⟩⟩⟩ := st
    · cases h
    · obtain rfl := Option.some.inj h
      rfl
    · obtain rfl := Option.some.inj h
      rfl
  · obtain rfl := Option.some.inj h
    exact congrArg some (embed_frame Frame.bar st.lex under_bar)
  · exact embed_quantify h
  · exact embed_quantify h
  · obtain rfl := Option.some.inj h
    rfl
  · obtain rfl := Option.some.inj h
    exact congrArg some (embed_frame (Frame.add · .any) st.lex fun f => under_add f _)
  · obtain rfl := Option.some.inj h
    exact congrArg some
      (embed_frame (Frame.add · (.set [(c, c)])) st.lex fun f => under_add f _)

theorem closeSet_embed (ranges : List (Char × Char)) :
    (st.embed as rest).closeSet ranges = (st.closeSet ranges).embed as rest :=
  embed_frame (Frame.add · (.set ranges)) .plain fun f => under_add f _

theorem stepSet_embed {ranges : List (Char × Char)} {pending : Pending}
    (h : stepSet st ranges pending c = some st') :
    stepSet (st.embed as rest) ranges pending c = some (st'.embed as rest) := by
  cases pending with
  | item | char a | dash a =>
    simp only [stepSet] at h ⊢
    split_ifs at h ⊢ <;>
    · obtain rfl := Option.some.inj h
      first | rfl | rw [closeSet_embed]

theorem step_embed (h : step st c = some st') :
    step (st.embed as rest) c = some (st'.embed as rest) := by
  obtain ⟨lex, frame, outer⟩ := st
  cases lex with
  | plain => exact stepPlain_embed h
  | set ranges pending => exact stepSet_embed h

theorem run_embed {s : List Char} : ∀ {st : State}, run st s = some st' →
    run (st.embed as rest) s = some (st'.embed as rest) := by
  induction s with
  | nil =>
    intro st h
    obtain rfl := Option.some.inj h
    rfl
  | cons c s ih =>
    intro st h
    obtain ⟨next, hstep, hrest⟩ := Option.bind_eq_some_iff.1 h
    exact Option.bind_eq_some_iff.2 ⟨_, step_embed hstep, ih hrest⟩

end Embed

/-! ## Joining expressions -/

/-- `s` is an expression, read as the alternatives of `f`. -/
def Reads (s : List Char) (f : Frame) : Prop := run {} s = some { frame := f }

theorem reads_of_compile {s : List Char} {r : Re} (h : compile s = some r) :
    ∃ f, Reads s f ∧ f.whole = r := by
  obtain ⟨⟨lex, f, outer⟩, hrun, hfinish⟩ := Option.bind_eq_some_iff.1 h
  cases lex with
  | set ranges pending => cases hfinish
  | plain =>
    cases outer with
    | cons g gs => cases hfinish
    | nil => exact ⟨f, hrun, Option.some.inj hfinish⟩

theorem compile_of_reads {s : List Char} {f : Frame} (h : Reads s f) :
    compile s = some f.whole := by
  rw [compile, h]
  rfl

theorem run_append (st : State) (s t : List Char) :
    run st (s ++ t) = (run st s).bind fun st' => run st' t := by
  simp [run, List.foldlM_append]

theorem reads_bar {s t : List Char} {f g : Frame} (hs : Reads s f) (ht : Reads t g) :
    Reads (s ++ '|' :: t) (g.under f.bar.alts) := by
  have hbar : step { frame := f } '|' = some (({} : State).embed f.bar.alts []) := by
    simp [step, stepPlain, State.setFrame, State.embed, embedFrames, Frame.bar, Frame.under]
  rw [Reads, run_append, hs]
  show (step { frame := f } '|').bind (fun st => run st t) = _
  rw [hbar]
  exact run_embed ht

theorem results_whole (f : Frame) (s : List Char) :
    f.whole.results s = f.bar.alts.flatMap fun r => r.results s :=
  Re.results_alts s (by simp)

theorem results_under (f g : Frame) (s : List Char) :
    (g.under f.bar.alts).whole.results s = f.whole.results s ++ g.whole.results s := by
  rw [results_whole, results_whole, results_whole, ← List.flatMap_append]
  congr 1
  simp [Frame.bar, Frame.under, Frame.seq]

theorem compile_group {s : List Char} {r : Re} (h : compile s = some r) :
    ∃ r', compile ('(' :: s ++ [')']) = some r' ∧ ∀ t, r'.fullmatch t = r.fullmatch t := by
  obtain ⟨f, hf, rfl⟩ := reads_of_compile h
  have hopen : step {} '(' = some (({} : State).embed [] [{}]) := rfl
  have hgroup : Reads ('(' :: s ++ [')']) (({} : Frame).add (f.under []).whole) := by
    show (step {} '(').bind (fun st => run st (s ++ [')'])) = _
    rw [hopen]
    show run _ (s ++ [')']) = _
    rw [run_append, run_embed hf]
    rfl
  refine ⟨_, compile_of_reads hgroup, ?_⟩
  intro t
  have hresults : (({} : Frame).add (f.under []).whole).whole.results t = f.whole.results t := by
    simp [results_whole, Frame.bar, Frame.add, Frame.seq, Re.results, Item.re, Frame.under]
  rw [Re.fullmatch, hresults, Re.fullmatch]

theorem compile_intercalate : ∀ {ss : List (List Char)}, ss ≠ [] →
    (∀ s ∈ ss, (compile s).isSome) →
    ∃ r, compile (['|'].intercalate ss) = some r ∧
      ∀ t, r.fullmatch t = true ↔ ∃ s ∈ ss, matchesWhole s t = true
  | [], h, _ => absurd rfl h
  | [s], _, hall => by
      obtain ⟨r, hr⟩ := Option.isSome_iff_exists.1 (hall s (by simp))
      refine ⟨r, by simpa [List.intercalate] using hr, ?_⟩
      intro t
      simp [matchesWhole, hr]
  | s :: s' :: ss, _, hall => by
      obtain ⟨r, hr⟩ := Option.isSome_iff_exists.1 (hall s (by simp))
      have hrest : ∀ u ∈ s' :: ss, (compile u).isSome := fun u hu =>
        hall u (List.mem_cons_of_mem _ hu)
      obtain ⟨r', hr', hmatch⟩ := compile_intercalate (List.cons_ne_nil s' ss) hrest
      obtain ⟨f, hf, rfl⟩ := reads_of_compile hr
      obtain ⟨g, hg, rfl⟩ := reads_of_compile hr'
      have hjoin : ['|'].intercalate (s :: s' :: ss) = s ++ '|' :: ['|'].intercalate (s' :: ss) := by
        simp [List.intercalate]
      rw [hjoin]
      refine ⟨_, compile_of_reads (reads_bar hf hg), ?_⟩
      intro t
      have hs : matchesWhole s t = f.whole.fullmatch t := by simp [matchesWhole, hr]
      rw [List.exists_mem_cons_iff, ← hmatch t, hs]
      simp only [Re.fullmatch, results_under, List.contains_iff_mem, List.mem_append]

end Regex

end Questix.Lib
