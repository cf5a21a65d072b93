/-
Questix.Lib.FileTree — files, directories and symbolic links, how the system
finds them (`stat`, `lstat`), and how Python resolves a path (`Path.resolve`).

A path is the list of its names from the top. The system follows links, up to 40
of them; Python walks the path name by name and replaces each link it meets by
what the link names, remembering the links it has met. Where it meets a link
again that it has not done with, it leaves the rest as it stands.

What Python has resolved holds no link (`joinRealPath_resolved`), and the system
finds such a path where it stands (`stat_of_resolved`). Of a path that was left
behind a loop nothing of the kind holds.
-/
import Mathlib.Algebra.GroupWithZero.Nat
import Questix.Lib.Url

namespace Questix.Lib

/-! ## Trees -/

structure File where
  bytes : List UInt8
  mtimeNs : ℤ
  deriving DecidableEq

inductive Node where
  | dir (searchable : Bool)
  | file (readable : Bool) (data : File)
  | link (target : Points)
  /-- a socket, a pipe, a device -/
  | special
  deriving DecidableEq

def Node.isDir : Node → Bool
  | .dir _ => true
  | _ => false

def Node.isFile : Node → Bool
  | .file _ _ => true
  | _ => false

abbrev FilePath := List Points

abbrev FileTree := List (FilePath × Node)

namespace FileTree

variable (t : FileTree)

def node (p : FilePath) : Option Node := if p = [] then some (.dir true) else t.lookup p

/-- What the system answers where it finds nothing. -/
inductive Errno where
  | noent
  | notdir
  | acces
  | loop
  | nametoolong
  deriving DecidableEq

/-- The length of a text in the system's encoding. A surrogate that stands for a
byte is that byte. -/
def encodedLength (s : Points) : ℕ :=
  (s.map fun c =>
    if c < 0x80 then 1 else if c < 0x800 then 2
    else if 0xDC80 ≤ c ∧ c ≤ 0xDCFF then 1
    else if c < 0x10000 then 3 else 4).sum

/-- Whether `os.fsencode` takes a text, and the system what it makes of it: no NUL,
and no surrogate but those that stand for a byte. -/
def encodable (s : Points) : Bool :=
  s.all fun c => c != 0 && (c < 0xD800 || 0xE000 ≤ c || (0xDC80 ≤ c && c ≤ 0xDCFF))

/-- `/`, `.` and `..` -/
def sep : ℕ := 47
def curdir : Points := [46]
def pardir : Points := [46, 46]

def isAbs (s : Points) : Bool := s.head? == some sep

/-! ## The system's walk -/

/-- The walk down the names of a path. `onLink` goes on behind a link: from where,
and with which names. -/
def walkFrom (followLast : Bool) (onLink : FilePath → List Points → Except Errno FilePath) :
    FilePath → List Points → Except Errno FilePath
  | cur, [] => .ok cur
  | cur, name :: rest =>
    match t.node cur with
    | some (.dir searchable) =>
      if name = [] then walkFrom followLast onLink cur rest
      else if !searchable then .error .acces
      else if name = curdir then walkFrom followLast onLink cur rest
      else if name = pardir then walkFrom followLast onLink cur.dropLast rest
      else if 255 < encodedLength name then .error .nametoolong
      else match t.node (cur ++ [name]) with
        | none => .error .noent
        | some (.link target) =>
          if rest.isEmpty && !followLast then .ok (cur ++ [name])
          else onLink (if isAbs target then [] else cur) (target.splitOn sep ++ rest)
        | some _ => walkFrom followLast onLink (cur ++ [name]) rest
    | _ => .error .notdir

/-- The walk, with as many links to follow as are given. -/
def walk (followLast : Bool) : ℕ → FilePath → List Points → Except Errno FilePath
  | 0 => walkFrom t followLast fun _ _ => .error .loop
  | n + 1 => walkFrom t followLast (walk followLast n)

/-- The bytes of a path's text. -/
def pathLength (p : FilePath) : ℕ := (p.map fun name => encodedLength name + 1).sum

/-- Where a path leads, and what stands there. -/
def find (followLast : Bool) (p : FilePath) : Except Errno (FilePath × Node) :=
  if 4096 ≤ pathLength p then .error .nametoolong
  else match t.walk followLast 40 [] p with
    | .error e => .error e
    | .ok q => match t.node q with
      | some n => .ok (q, n)
      | none => .error .noent

/-! ## Python's calls -/

/-- What ends a call. -/
inductive Raised where
  | valueError
  | osError (e : Errno)
  | runtimeError
  | recursionError
  deriving DecidableEq

def call (followLast : Bool) (p : FilePath) : Except Raised (FilePath × Node) :=
  if p.all encodable then (t.find followLast p).mapError .osError else .error .valueError

/-- `os.stat` -/
def stat (p : FilePath) : Except Raised (FilePath × Node) := t.call true p

/-- `os.lstat` -/
def lstat (p : FilePath) : Except Raised (FilePath × Node) := t.call false p

def pathText (p : FilePath) : Points := sep :: [sep].intercalate p

/-- `os.path.join` of an absolute path and what is given of a rest -/
def join (a b : Points) : Points :=
  if isAbs b then b else if a.getLast? = some sep then a ++ b else a ++ sep :: b

abbrev Seen := List (FilePath × Option FilePath)

inductive Joined where
  | done (path : FilePath) (seen : Seen)
  /-- A link behind itself: the text is left as it stands. -/
  | loop (text : Points)
  | raised (e : Raised)

/-- The loop of `_joinrealpath`; `onLink` is the call for a link's target. -/
def joinRealPathFrom (onLink : Seen → FilePath → List Points → Joined) :
    Seen → FilePath → List Points → Joined
  | seen, path, [] => .done path seen
  | seen, path, name :: rest =>
    if name = [] ∨ name = curdir then joinRealPathFrom onLink seen path rest
    else if name = pardir then joinRealPathFrom onLink seen path.dropLast rest
    else
      let newpath := path ++ [name]
      match t.lstat newpath with
      | .error .valueError => .raised .valueError
      | .ok (_, .link target) =>
        match seen.lookup newpath with
        | some (some known) => joinRealPathFrom onLink seen known rest
        | some none => .loop (join (pathText newpath) ([sep].intercalate rest))
        | none =>
          match onLink ((newpath, none) :: seen) (if isAbs target then [] else path)
              (target.splitOn sep) with
          | .done reached seen => joinRealPathFrom onLink ((newpath, some reached) :: seen) reached rest
          | .loop text => .loop (join text ([sep].intercalate rest))
          | .raised e => .raised e
      | _ => joinRealPathFrom onLink seen newpath rest

/-- `_joinrealpath`, with as many calls of itself as the interpreter has room for. -/
def joinRealPath : ℕ → Seen → FilePath → List Points → Joined
  | 0 => fun _ _ _ => .raised .recursionError
  | frames + 1 => joinRealPathFrom t (joinRealPath frames)

/-- A path of Python: one that begins with two slashes is another than with one. -/
structure PurePath where
  doubleSlash : Bool
  parts : FilePath
  deriving DecidableEq

/-- `os.path.normpath`, of an absolute text -/
def normPath (text : Points) : PurePath where
  doubleSlash := text.take 2 == [sep, sep] && text.take 3 != [sep, sep, sep]
  parts := (text.splitOn sep).foldl (fun parts name =>
    if name = [] ∨ name = curdir then parts
    else if name = pardir then parts.dropLast
    else parts ++ [name]) []

/-- `os.path.realpath` -/
def realPath (frames : ℕ) (p : FilePath) : Except Raised PurePath :=
  match t.joinRealPath frames [] [] p with
  | .done path _ => .ok { doubleSlash := false, parts := path }
  | .loop text => .ok (normPath text)
  | .raised e => .error e

/-- `Path.resolve` -/
def resolve (frames : ℕ) (p : FilePath) : Except Raised PurePath :=
  match t.realPath frames p with
  | .error e => .error e
  | .ok path =>
    match t.stat path.parts with
    | .error (.osError .loop) => .error .runtimeError
    | .error .valueError => .error .valueError
    | _ => .ok path

/-- What `_ignore_error` lets pass. -/
def ignored (e : Errno) : Bool := e == .noent || e == .notdir || e == .loop

/-- `Path.is_dir` and `Path.is_file`, by what they look for -/
def isKind (kind : Node → Bool) (p : PurePath) : Except Raised Bool :=
  match t.stat p.parts with
  | .ok (_, n) => .ok (kind n)
  | .error (.osError e) => if ignored e then .ok false else .error (.osError e)
  | .error _ => .ok false

/-- The parts of a relative path, `.` left out -/
def parts (relative : Points) : FilePath :=
  (relative.splitOn sep).filter fun name => name != [] && name != curdir

/-- `path / name` -/
def PurePath.child (p : PurePath) (name : Points) : PurePath := { p with parts := p.parts ++ [name] }

/-- `Path.suffix` -/
def PurePath.suffix (p : PurePath) : Points :=
  let name := p.parts.getLastD []
  let ending := name.rtakeWhile (· != 46)
  if 46 ∈ name ∧ ending.length + 1 < name.length ∧ ending ≠ [] then 46 :: ending else []

/-- `root in path.parents` -/
def Inside (root : FilePath) (p : PurePath) : Prop :=
  p.doubleSlash = false ∧ root <+: p.parts ∧ root ≠ p.parts

instance (root : FilePath) (p : PurePath) : Decidable (Inside root p) :=
  inferInstanceAs (Decidable (_ ∧ _ ∧ _))

/-! ## Resolved paths -/

/-- No name of the path is `.` or `..`, and the system shows no link on its way. -/
structure Resolved (p : FilePath) : Prop where
  names : ∀ name ∈ p, name ≠ [] ∧ name ≠ curdir ∧ name ≠ pardir
  no_link : ∀ q, q <+: p → ∀ at_ target, t.lstat q ≠ .ok (at_, .link target)

variable {t} {p q : FilePath} {onLink : FilePath → List Points → Except Errno FilePath}

theorem resolved_nil : t.Resolved [] where
  names := by simp
  no_link q hq at_ target := by
    rw [List.prefix_nil.mp hq]
    intro h
    have hroot : t.lstat [] = .ok ([], .dir true) := rfl
    rw [hroot] at h
    cases h

theorem Resolved.shorter (h : t.Resolved p) (hq : q <+: p) : t.Resolved q where
  names name hname := h.names name (hq.subset hname)
  no_link r hr := h.no_link r (hr.trans hq)

theorem Resolved.snoc {name : Points} (h : t.Resolved p)
    (hname : name ≠ [] ∧ name ≠ curdir ∧ name ≠ pardir)
    (hlink : ∀ at_ target, t.lstat (p ++ [name]) ≠ .ok (at_, .link target)) :
    t.Resolved (p ++ [name]) where
  names other hother := by
    rcases List.mem_append.mp hother with hmem | hmem
    · exact h.names other hmem
    · rw [List.mem_singleton.mp hmem]
      exact hname
  no_link q hq := by
    rcases List.prefix_concat_iff.mp hq with rfl | hq
    · exact hlink
    · exact h.no_link q hq

/-- The links that are done with led to resolved paths. -/
def SeenResolved (t : FileTree) (seen : Seen) : Prop :=
  ∀ link reached, seen.lookup link = some (some reached) → t.Resolved reached

theorem SeenResolved.cons {seen : Seen} {link : FilePath} {reached : Option FilePath}
    (h : SeenResolved t seen) (hreached : ∀ r ∈ reached, t.Resolved r) :
    SeenResolved t ((link, reached) :: seen) := by
  intro other r hr
  rw [List.lookup_cons] at hr
  split at hr
  · exact hreached r (Option.some.inj hr)
  · exact h other r hr

/-- What a call answers of resolved paths. -/
def Answers (t : FileTree) (onLink : Seen → FilePath → List Points → Joined) : Prop :=
  ∀ seen path names, SeenResolved t seen → t.Resolved path →
    ∀ reached seen', onLink seen path names = .done reached seen' →
      t.Resolved reached ∧ SeenResolved t seen'

theorem answers_from {onLink : Seen → FilePath → List Points → Joined} (hcall : Answers t onLink) :
    Answers t (joinRealPathFrom t onLink) := by
  intro seen path names
  induction names generalizing seen path with
  | nil =>
    intro hseen hpath reached seen' h
    cases h
    exact ⟨hpath, hseen⟩
  | cons name rest ih =>
    intro hseen hpath reached seen' h
    unfold joinRealPathFrom at h
    split at h
    next => exact ih seen path hseen hpath reached seen' h
    next hdot =>
      split at h
      next => exact ih seen _ hseen (hpath.shorter (List.dropLast_prefix path)) reached seen' h
      next hup =>
        dsimp only at h
        split at h
        next => cases h
        next at_ target hlink =>
          split at h
          next known hknown => exact ih seen known hseen (hseen _ _ hknown) reached seen' h
          next => cases h
          next =>
            split at h
            next r seen₁ hr =>
              have htarget : t.Resolved (if isAbs target = true then [] else path) := by
                split
                · exact resolved_nil
                · exact hpath
              have hdone := hcall _ _ _ (hseen.cons (by simp)) htarget r seen₁ hr
              exact ih _ r (hdone.2.cons (by simpa using hdone.1)) hdone.1 reached seen' h
            next => cases h
            next => cases h
        next hno =>
          have hname : name ≠ [] ∧ name ≠ curdir ∧ name ≠ pardir :=
            ⟨fun h => hdot (.inl h), fun h => hdot (.inr h), hup⟩
          exact ih seen _ hseen (hpath.snoc hname fun at_ target h => hno at_ target h)
            reached seen' h

theorem joinRealPath_resolved (frames : ℕ) : Answers t (t.joinRealPath frames) := by
  induction frames with
  | zero =>
    intro seen path names _ _ reached seen' h
    cases h
  | succ frames ih => exact answers_from ih

/-! ## Finding a resolved path -/

theorem pathLength_append (p q : FilePath) : pathLength (p ++ q) = pathLength p + pathLength q := by
  simp [pathLength]

theorem walkFrom_name {followLast : Bool} {cur : FilePath} {name : Points} {rest : List Points}
    {searchable : Bool} (hcur : t.node cur = some (.dir searchable))
    (hname : name ≠ [] ∧ name ≠ curdir ∧ name ≠ pardir) :
    walkFrom t followLast onLink cur (name :: rest) =
      if !searchable then .error .acces
      else if 255 < encodedLength name then .error .nametoolong
      else match t.node (cur ++ [name]) with
        | none => .error .noent
        | some (.link target) =>
          if rest.isEmpty && !followLast then .ok (cur ++ [name])
          else onLink (if isAbs target then [] else cur) (target.splitOn sep ++ rest)
        | some _ => walkFrom t followLast onLink (cur ++ [name]) rest := by
  conv_lhs => unfold walkFrom
  simp only [hcur, hname.1, hname.2.1, hname.2.2, if_false]

/-- A walk that keeps the last link passes through `cur` on its way further down. -/
def Reaches (t : FileTree) (cur : FilePath) : Prop :=
  ∀ tail ≠ [], t.walk false 40 [] (cur ++ tail) =
    walkFrom t false (t.walk false 39) cur tail

theorem Reaches.snoc {cur : FilePath} {name : Points} {n : Node} (h : Reaches t cur)
    (hcur : t.node cur = some (.dir true)) (hname : name ≠ [] ∧ name ≠ curdir ∧ name ≠ pardir)
    (hshort : encodedLength name ≤ 255) (hn : t.node (cur ++ [name]) = some n)
    (hlink : ∀ target, n ≠ .link target) : Reaches t (cur ++ [name]) := by
  intro tail htail
  have hstep : t.walk false 40 [] (cur ++ name :: tail) =
      walkFrom t false (t.walk false 39) cur (name :: tail) := h _ (by simp)
  rw [List.append_assoc, List.singleton_append, hstep, walkFrom_name hcur hname, hn]
  cases n with
  | link target => exact absurd rfl (hlink target)
  | _ => simp [Nat.not_lt.mpr hshort]

theorem Reaches.lstat_link {cur : FilePath} {name target : Points} (h : Reaches t cur)
    (hcur : t.node cur = some (.dir true)) (hname : name ≠ [] ∧ name ≠ curdir ∧ name ≠ pardir)
    (hshort : encodedLength name ≤ 255) (hn : t.node (cur ++ [name]) = some (.link target))
    (henc : (cur ++ [name]).all encodable = true) (hlen : pathLength (cur ++ [name]) < 4096) :
    t.lstat (cur ++ [name]) = .ok (cur ++ [name], .link target) := by
  have hwalk : t.walk false 40 [] (cur ++ [name]) = .ok (cur ++ [name]) := by
    rw [h [name] (by simp), walkFrom_name hcur hname, hn]
    simp [Nat.not_lt.mpr hshort]
  have hfind : t.find false (cur ++ [name]) = .ok (cur ++ [name], .link target) := by
    simp only [find, Nat.not_le.mpr hlen, if_false, hwalk, hn]
  simp only [lstat, call, henc, if_true, hfind]
  rfl

theorem walkFrom_resolved {rest : List Points} {cur : FilePath} (hp : t.Resolved (cur ++ rest))
    (henc : (cur ++ rest).all encodable = true) (hlen : pathLength (cur ++ rest) < 4096)
    (hreach : Reaches t cur) (h : walkFrom t true onLink cur rest = .ok q) : q = cur ++ rest := by
  induction rest generalizing cur with
  | nil =>
    unfold walkFrom at h
    rw [List.append_nil, Except.ok.inj h]
  | cons name rest ih =>
    have hname := hp.names name (by simp)
    have happend : cur ++ name :: rest = (cur ++ [name]) ++ rest := by simp
    rw [happend] at hp henc hlen ⊢
    match hcur : t.node cur with
    | some (.dir searchable) =>
      rw [walkFrom_name hcur hname] at h
      cases searchable with
      | false => cases h
      | true =>
        rw [if_neg (by simp)] at h
        split at h
        next => cases h
        next hshort =>
          have hshort : encodedLength name ≤ 255 := Nat.not_lt.mp hshort
          match hn : t.node (cur ++ [name]) with
          | none => simp [hn] at h
          | some (.link target) =>
            rw [List.all_append, Bool.and_eq_true] at henc
            rw [pathLength_append] at hlen
            have hshown := hreach.lstat_link hcur hname hshort hn henc.1 (by omega)
            exact absurd hshown (hp.no_link _ (List.prefix_append _ _) _ _)
          | some (.dir s) | some (.file r d) | some .special =>
            simp only [hn] at h
            exact ih hp henc hlen (hreach.snoc hcur hname hshort hn (by simp)) h
    | some (.file _ _) | some (.link _) | some .special | none =>
      unfold walkFrom at h
      simp [hcur] at h

theorem stat_of_resolved {n : Node} (hp : t.Resolved p) (h : t.stat p = .ok (q, n)) : q = p := by
  unfold stat call at h
  split at h
  next henc =>
    have hfind : t.find true p = .ok (q, n) := by
      match hf : t.find true p with
      | .ok found =>
        rw [hf] at h
        rw [Except.ok.inj h]
      | .error e =>
        rw [hf] at h
        cases h
    unfold find at hfind
    split at hfind
    next => cases hfind
    next hlen =>
      split at hfind
      next => cases hfind
      next reached hwalk =>
        have hreached : reached = [] ++ p :=
          @walkFrom_resolved _ _ _ _ [] hp henc (Nat.not_le.mp hlen) (fun tail _ => rfl) hwalk
        split at hfind
        next => rw [← (Prod.mk.inj (Except.ok.inj hfind)).1, hreached, List.nil_append]
        next => cases hfind
  next => cases h

end FileTree

end Questix.Lib
