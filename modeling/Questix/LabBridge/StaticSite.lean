/-
Questix.LabBridge.StaticSite — the teaching material served over plain HTTP
(`static_site.py`).

What the host brings along is a parameter: the table of compatibility forms,
its own table of content types, the compression, and how deep the interpreter
may still call. The request's headers are a mapping. How the site's directory is
looked for (`find_lab_dir`) is left out.
-/
import Mathlib.Data.List.Infix
import Questix.Lib.FileTree

namespace Questix.LabBridge.StaticSite

open Questix.Lib Questix.Lib.FileTree

structure Host where
  /-- `unicodedata.normalize('NFKC', text)` -/
  nfkc : Points → Points
  /-- `mimetypes.guess_type(name)[0]` -/
  guessType : Points → Option Points
  /-- `gzip.compress(body, _GZIP_LEVEL, mtime=0)` -/
  compress : List UInt8 → List UInt8
  /-- calls of itself left to `_joinrealpath` before a `RecursionError` -/
  frames : ℕ

abbrev RequestHeaders := Points → Option Points

abbrev Headers := List (Points × Points)

structure Response where
  status : ℕ
  headers : Headers
  body : List UInt8
  deriving DecidableEq

def contentTypes : List (Points × Points) :=
  [(points ".html", points "text/html; charset=utf-8"),
    (points ".js", points "text/javascript; charset=utf-8"),
    (points ".mjs", points "text/javascript; charset=utf-8"),
    (points ".css", points "text/css; charset=utf-8"),
    (points ".svg", points "image/svg+xml"),
    (points ".json", points "application/json"),
    (points ".md", points "text/markdown; charset=utf-8"),
    (points ".txt", points "text/plain; charset=utf-8"),
    (points ".bin", points "application/octet-stream")]

def compressible : List Points :=
  [".html", ".js", ".mjs", ".css", ".svg", ".json", ".md", ".txt"].map points

def maxCachedBodies : ℕ := 512

def noSiteText : String :=
  "QUESTiX LAB bridge: this port is the read-only WebSocket for the teaching material.\n" ++
  "The material itself was not found on this machine, so there is no page to show here.\n" ++
  "Set the \"lab_dir\" parameter to the directory that contains its index.html\n" ++
  "(scripts/robot_manager/static/lab in the QUESTiX repository), or open the material\n" ++
  "from robot_manager (http://localhost:8888/lab/) and connect to ws://<this host>:<port>.\n"

def headersOf (contentType : Points) : Headers :=
  [(points "Content-Type", contentType),
    (points "X-Content-Type-Options", points "nosniff"),
    (points "Cache-Control", points "no-cache")]

def text (status : ℕ) (text : String) : Response where
  status := status
  headers := headersOf (points "text/plain; charset=utf-8")
  body := text.toUTF8.data.toList

/-! ## Versions of a file -/

/-- `'%x' % n` -/
def hex (n : ℤ) : Points :=
  (if n < 0 then [45] else []) ++ (Nat.toDigits 16 n.natAbs).map Char.toNat

/-- A file's version: its size and when it was modified. -/
def etag (f : File) : Points := [34] ++ hex f.bytes.length ++ [45] ++ hex f.mtimeNs ++ [34]

def etagMatches (header tag : Points) : Bool :=
  (header.splitOn 44).any fun entry =>
    let entry := stripPoints entry
    !entry.isEmpty && (entry == tag || entry == [42])

def acceptsGzip (headers : RequestHeaders) : Bool :=
  decide (points "gzip" <:+: asciiLower ((headers (points "Accept-Encoding")).getD []))

/-- `_gzip_cache`: by path and version, what a file of that version compresses to. -/
structure GzipCache (host : Host) where
  bodies : List ((PurePath × Points) × List UInt8)
  bounded : bodies.length ≤ maxCachedBodies
  versions : ∀ e ∈ bodies, ∃ f : File, e.1.2 = etag f ∧ e.2 = host.compress f.bytes

variable {host : Host}

def GzipCache.empty : GzipCache host where
  bodies := []
  bounded := Nat.zero_le _
  versions := by simp

/-- The cache with one body more; a full one is emptied first. -/
def GzipCache.keep (cache : GzipCache host) (path : PurePath) (f : File) : GzipCache host where
  bodies := ((path, etag f), host.compress f.bytes) ::
    if maxCachedBodies ≤ cache.bodies.length then [] else cache.bodies
  bounded := by
    split
    · simp [maxCachedBodies]
    · rw [List.length_cons]
      omega
  versions e he := by
    rcases List.mem_cons.mp he with rfl | he
    · exact ⟨f, rfl, rfl⟩
    · split at he
      · cases he
      · exact cache.versions e he

/-- `_compressed`, of a file's version and bytes -/
def compressed (cache : GzipCache host) (path : PurePath) (f : File) :
    GzipCache host × List UInt8 :=
  match cache.bodies.lookup (path, etag f) with
  | some body => (cache, body)
  | none => (cache.keep path f, host.compress f.bytes)

/-! ## Requests -/

variable (host)

/-- The file a target asks for, if there is one inside the site. -/
def locate (t : FileTree) (root : FilePath) (target : Points) : Except Raised (Option PurePath) :=
  match Url.urlsplit host.nfkc target with
  | none => .error .valueError
  | some url =>
    let relative := (Url.unquote url.path).dropWhile (· == sep)
    match t.resolve host.frames (root ++ parts relative) with
    | .error e => .error e
    | .ok path =>
      match t.isKind Node.isDir path with
      | .error e => .error e
      | .ok dir =>
        let path := if dir then path.child (points "index.html") else path
        if Inside root path then
          match t.isKind Node.isFile path with
          | .error e => .error e
          | .ok file => .ok (if file then some path else none)
        else .ok none

def contentType (path : PurePath) : Points :=
  match contentTypes.lookup (asciiLower path.suffix) with
  | some known => known
  | none => (host.guessType (path.parts.getLastD [])).getD (points "application/octet-stream")

variable {host}

/-- The answer about a file of the site. -/
def fileResponse (t : FileTree) (headers : RequestHeaders) (cache : GzipCache host)
    (path : PurePath) : Except Raised (GzipCache host × Response) :=
  match t.stat path.parts with
  | .error e => .error e
  | .ok (_, .file readable f) =>
    let answer := headersOf (contentType host path) ++ [(points "ETag", etag f)]
    if etagMatches ((headers (points "If-None-Match")).getD []) (etag f) then
      .ok (cache, { status := 304, headers := answer, body := [] })
    -- `read_bytes`
    else if !readable then .error (.osError .acces)
    else if compressible.contains (asciiLower path.suffix) && acceptsGzip headers then
      let (cache, body) := compressed cache path f
      let answer := answer ++
        [(points "Content-Encoding", points "gzip"), (points "Vary", points "Accept-Encoding")]
      .ok (cache, { status := 200, headers := answer, body := body })
    else .ok (cache, { status := 200, headers := answer, body := f.bytes })
  -- `is_file` has just seen a file here
  | .ok _ => .error (.osError .notdir)

def staticResponse (t : FileTree) (root : Option FilePath) (target : Points)
    (headers : RequestHeaders) (cache : GzipCache host) :
    Except Raised (GzipCache host × Response) :=
  match root with
  | none => .ok (cache, text 404 noSiteText)
  | some root =>
    match locate host t root target with
    | .error e => .error e
    | .ok none => .ok (cache, text 404 "Not found.\n")
    | .ok (some path) => fileResponse t headers cache path

end Questix.LabBridge.StaticSite

/-! What the site answers, and from where
(`static_site.py`).

A request is answered with a file inside the site or with a 404, and with
nothing else, under the condition `Answerable` (`staticResponse_contained_iff`).
What has to be asked for: a target that can be split, a path that can be resolved
and looked at, and no link that leads out of the site in the page of a directory
or in what a loop of links has left unresolved. A path that was resolved, and is
no directory, needs no such condition: it is inside where its text is
(`resolve_stays`). -/

namespace Questix.LabBridge.StaticSite

open Questix.Lib Questix.Lib.FileTree

variable {host : Host} {t : FileTree} {root : FilePath} {target tag : Points}
  {headers : RequestHeaders} {path : PurePath} {e : Raised}

/-! ## What has to hold of an answer -/

def Under (root q : FilePath) : Prop := root <+: q ∧ root ≠ q

/-- The list of versions the browser has names this one, or any. -/
def Names (headers : RequestHeaders) (tag : Points) : Prop :=
  ∃ header, headers (points "If-None-Match") = some header ∧
    ∃ entry ∈ header.splitOn 44, stripPoints entry = tag ∨ stripPoints entry = points "*"

/-- The bytes of a file, or what a file of this version compresses to. -/
def BodyOf (host : Host) (f : File) (body : List UInt8) : Prop :=
  body = f.bytes ∨ ∃ g : File, etag g = etag f ∧ body = host.compress g.bytes

/-- An answer about the file `path` leads to, which lies under the root. -/
def AnswersFile (host : Host) (t : FileTree) (root : FilePath) (headers : RequestHeaders)
    (path : PurePath) (answer : Response) : Prop :=
  ∃ q readable f, t.stat path.parts = .ok (q, .file readable f) ∧ Under root q ∧
    (points "ETag", etag f) ∈ answer.headers ∧
    (Names headers (etag f) → answer.status = 304 ∧ answer.body = []) ∧
    (¬ Names headers (etag f) → answer.status = 200 ∧ BodyOf host f answer.body)

/-- No exception, and a file of the site or a 404. -/
def Contained (t : FileTree) (root : Option FilePath) (target : Points) (headers : RequestHeaders)
    (cache : GzipCache host) : Prop :=
  ∃ cache' answer, staticResponse t root target headers cache = .ok (cache', answer) ∧
    (answer = text 404 noSiteText ∨ answer = text 404 "Not found.\n" ∨
      ∃ r ∈ root, ∃ path, locate host t r target = .ok (some path) ∧
        AnswersFile host t r headers path answer)

/-! ## When it holds -/

/-- A look at the path ends in an exception. -/
def Refuses (t : FileTree) (path : PurePath) : Prop :=
  ∃ e, t.stat path.parts = .error (.osError e) ∧ ignored e = false

def IsDirectory (t : FileTree) (path : PurePath) : Prop :=
  ∃ q searchable, t.stat path.parts = .ok (q, .dir searchable)

/-- The page of a directory is its `index.html`. -/
def page (t : FileTree) (path : PurePath) : PurePath :=
  match t.stat path.parts with
  | .ok (_, .dir _) => path.child (points "index.html")
  | _ => path

/-- A link on the path, which is inside by its text, leads to a file outside. -/
def LeadsOut (t : FileTree) (root : FilePath) (path : PurePath) : Prop :=
  Inside root path ∧ ∃ q readable f, t.stat path.parts = .ok (q, .file readable f) ∧ ¬ Under root q

/-- Resolving met a link behind itself. -/
def Loops (host : Host) (t : FileTree) (names : FilePath) : Prop :=
  ∃ left, t.joinRealPath host.frames [] [] names = .loop left

/-- The names of the path a URL asks for. -/
def askedFor (root : FilePath) (url : Url.SplitResult) : FilePath :=
  root ++ parts ((Url.unquote url.path).dropWhile (· == sep))

/-- What the path named has to be for an answer. -/
structure Opens (t : FileTree) (root : FilePath) (headers : RequestHeaders) (loops : Prop)
    (path : PurePath) : Prop where
  seen : ¬ Refuses t path
  page_seen : Inside root (page t path) → ¬ Refuses t (page t path)
  stays : loops ∨ IsDirectory t path → ¬ LeadsOut t root (page t path)
  readable : Inside root (page t path) → ∀ q f, t.stat (page t path).parts = .ok (q, .file false f) →
    Names headers (etag f)

/-- What a request has to be for an answer. -/
def Answerable (host : Host) (t : FileTree) (root : FilePath) (target : Points)
    (headers : RequestHeaders) : Prop :=
  ∃ url path, Url.urlsplit host.nfkc target = some url ∧
    t.resolve host.frames (askedFor root url) = .ok path ∧
    Opens t root headers (Loops host t (askedFor root url)) path

/-! ## Versions -/

theorem etag_ne_nil (f : File) : etag f ≠ [] := by
  simp [etag]

theorem etagMatches_iff (htag : tag ≠ []) :
    etagMatches ((headers (points "If-None-Match")).getD []) tag = true ↔ Names headers tag := by
  have hstar : points "*" = [42] := rfl
  unfold etagMatches Names
  rw [List.any_eq_true, hstar]
  cases hget : headers (points "If-None-Match") with
  | none =>
    constructor
    · rintro ⟨entry, hentry, hmatch⟩
      have hentry : entry = [] := by simpa using hentry
      subst hentry
      simp [stripPoints] at hmatch
    · rintro ⟨header, hheader, _⟩
      cases hheader
  | some header =>
    constructor
    · rintro ⟨entry, hentry, hmatch⟩
      simp only [Bool.and_eq_true, Bool.or_eq_true, beq_iff_eq] at hmatch
      exact ⟨header, rfl, entry, hentry, hmatch.2⟩
    · rintro ⟨_, hheader, entry, hentry, hmatch⟩
      cases hheader
      refine ⟨entry, hentry, ?_⟩
      rcases hmatch with hmatch | hmatch <;> simp [hmatch, htag]

theorem compressed_version (cache : GzipCache host) (path : PurePath) (f : File) :
    BodyOf host f (compressed cache path f).2 := by
  unfold compressed
  split
  next body hbody =>
    have hmem := List.lookup_eq_some_iff.mp hbody
    obtain ⟨front, back, hsplit, _⟩ := hmem
    obtain ⟨g, hg, hgz⟩ := cache.versions ((path, etag f), body) (by rw [hsplit]; simp)
    exact .inr ⟨g, hg.symm, hgz⟩
  next => exact .inr ⟨f, rfl, rfl⟩

/-! ## Looking at a path -/

theorem isKind_error_iff {kind : Node → Bool} :
    (∃ e, t.isKind kind path = .error e) ↔ Refuses t path := by
  unfold isKind Refuses
  constructor
  · rintro ⟨e, he⟩
    split at he
    next => cases he
    next errno hstat =>
      split at he
      next => cases he
      next hign => exact ⟨errno, hstat, Bool.eq_false_iff.mpr hign⟩
    next => cases he
  · rintro ⟨errno, hstat, hign⟩
    simp [hstat, hign]

theorem isKind_isFile_iff :
    t.isKind Node.isFile path = .ok true ↔
      ∃ q readable f, t.stat path.parts = .ok (q, .file readable f) := by
  unfold isKind
  constructor
  · intro h
    match hstat : t.stat path.parts with
    | .ok (q, .file readable f) => exact ⟨q, readable, f, rfl⟩
    | .ok (q, .dir s) | .ok (q, .link l) | .ok (q, .special) =>
      rw [hstat] at h
      cases h
    | .error (.osError errno) =>
      rw [hstat] at h
      dsimp only at h
      split at h <;> cases h
    | .error .valueError | .error .runtimeError | .error .recursionError =>
      rw [hstat] at h
      cases h
  · rintro ⟨q, readable, f, hstat⟩
    simp [hstat, Node.isFile]

theorem page_of_isKind {dir : Bool} (h : t.isKind Node.isDir path = .ok dir) :
    (if dir then path.child (points "index.html") else path) = page t path := by
  unfold isKind at h
  unfold page
  match hstat : t.stat path.parts with
  | .ok (q, .dir s) | .ok (q, .file _ _) | .ok (q, .link l) | .ok (q, .special) =>
    rw [hstat] at h
    cases h
    rfl
  | .error (.osError errno) =>
    rw [hstat] at h
    dsimp only at h
    split at h
    · cases h
      rfl
    · cases h
  | .error .valueError | .error .runtimeError | .error .recursionError =>
    rw [hstat] at h
    cases h
    rfl

theorem page_of_not_directory (h : ¬ IsDirectory t path) : page t path = path := by
  unfold page
  split
  next q searchable hstat => exact absurd ⟨q, searchable, hstat⟩ h
  next => rfl

/-! ## Staying inside -/

theorem resolve_stays {names : FilePath} (h : t.resolve host.frames names = .ok path)
    (hloop : ¬ Loops host t names) : ¬ LeadsOut t root path := by
  rintro ⟨hinside, q, readable, f, hstat, hout⟩
  have hpath : t.realPath host.frames names = .ok path := by
    unfold resolve at h
    split at h
    next => cases h
    next p hp =>
      split at h
      next => cases h
      next => cases h
      next => rw [hp, Except.ok.inj h]
  unfold realPath at hpath
  split at hpath
  next reached seen hdone =>
    have hempty : SeenResolved t [] := by
      intro link reached hlink
      cases hlink
    have hresolved := (joinRealPath_resolved host.frames [] [] names hempty resolved_nil
      reached seen hdone).1
    rw [← Except.ok.inj hpath] at hstat hinside
    rw [stat_of_resolved hresolved hstat] at hout
    exact hout hinside.2
  next left hleft => exact hloop ⟨left, hleft⟩
  next => cases hpath

theorem Opens.within {loops : Prop} {names : FilePath} (h : Opens t root headers loops path)
    (hpath : t.resolve host.frames names = .ok path) (hloops : loops = Loops host t names) :
    ¬ LeadsOut t root (page t path) := by
  by_cases hspecial : loops ∨ IsDirectory t path
  · exact h.stays hspecial
  · obtain ⟨hloop, hdir⟩ := not_or.mp hspecial
    rw [page_of_not_directory hdir]
    exact resolve_stays hpath (hloops ▸ hloop)

/-! ## Answers -/

theorem locate_eq {url : Url.SplitResult} (hurl : Url.urlsplit host.nfkc target = some url)
    (hpath : t.resolve host.frames (askedFor root url) = .ok path) (hseen : ¬ Refuses t path) :
    locate host t root target =
      if Inside root (page t path) then
        match t.isKind Node.isFile (page t path) with
        | .error e => .error e
        | .ok file => .ok (if file then some (page t path) else none)
      else .ok none := by
  unfold locate
  unfold askedFor at hpath
  simp only [hurl, hpath]
  cases hdir : t.isKind Node.isDir path with
  | error e => exact absurd (isKind_error_iff.mp ⟨e, hdir⟩) hseen
  | ok dir =>
    exact page_of_isKind hdir ▸ rfl

theorem fileResponse_answers (cache : GzipCache host) {q : FilePath} {readable : Bool} {f : File}
    (hstat : t.stat path.parts = .ok (q, .file readable f)) (hunder : Under root q)
    (hread : readable = false → Names headers (etag f)) :
    ∃ cache' answer, fileResponse t headers cache path = .ok (cache', answer) ∧
      AnswersFile host t root headers path answer := by
  have hnames : etagMatches ((headers (points "If-None-Match")).getD []) (etag f) = true ↔
      Names headers (etag f) := etagMatches_iff (etag_ne_nil f)
  unfold fileResponse
  simp only [hstat]
  by_cases hnamed : Names headers (etag f)
  · rw [if_pos (hnames.mpr hnamed)]
    refine ⟨_, _, rfl, q, readable, f, hstat, hunder, by simp, fun _ => ⟨rfl, rfl⟩, ?_⟩
    exact fun hnot => absurd hnamed hnot
  · have hreadable : readable = true := by
      cases readable with
      | false => exact absurd (hread rfl) hnamed
      | true => rfl
    rw [if_neg (mt hnames.mp hnamed), if_neg (by simp [hreadable])]
    split
    · refine ⟨_, _, rfl, q, readable, f, hstat, hunder, by simp, ?_, fun _ => ⟨rfl, ?_⟩⟩
      · exact fun h => absurd h hnamed
      · exact compressed_version cache path f
    · refine ⟨_, _, rfl, q, readable, f, hstat, hunder, by simp, ?_, fun _ => ⟨rfl, .inl rfl⟩⟩
      exact fun h => absurd h hnamed

theorem contained_of_answerable (cache : GzipCache host)
    (h : Answerable host t root target headers) : Contained t (some root) target headers cache := by
  obtain ⟨url, path, hurl, hpath, hopens⟩ := h
  have hlocate := locate_eq hurl hpath hopens.seen
  unfold Contained
  by_cases hinside : Inside root (page t path)
  · rw [if_pos hinside] at hlocate
    cases hfile : t.isKind Node.isFile (page t path) with
    | error e => exact absurd (isKind_error_iff.mp ⟨e, hfile⟩) (hopens.page_seen hinside)
    | ok file =>
      rw [hfile] at hlocate
      cases file with
      | false => exact ⟨cache, _, by simp [staticResponse, hlocate], .inr (.inl rfl)⟩
      | true =>
        obtain ⟨q, readable, f, hstat⟩ := isKind_isFile_iff.mp hfile
        have hunder : Under root q := by
          by_contra hout
          exact hopens.within hpath rfl ⟨hinside, q, readable, f, hstat, hout⟩
        obtain ⟨cache', answer, hanswer, hfileAnswer⟩ :=
          @fileResponse_answers _ _ _ headers _ cache _ _ _ hstat hunder fun hunread =>
            hopens.readable hinside q f (hunread ▸ hstat)
        refine ⟨cache', answer, ?_, .inr (.inr ⟨root, rfl, _, hlocate, hfileAnswer⟩)⟩
        simp only [staticResponse, hlocate, if_true, hanswer]
  · rw [if_neg hinside] at hlocate
    exact ⟨cache, _, by simp [staticResponse, hlocate], .inr (.inl rfl)⟩

theorem fileResponse_status {cache cache' : GzipCache host} {answer : Response}
    (h : fileResponse t headers cache path = .ok (cache', answer)) : answer.status ≠ 404 := by
  unfold fileResponse at h
  split at h
  next => cases h
  next =>
    dsimp only at h
    split at h
    · cases h
      simp
    · split at h
      · cases h
      · split at h
        all_goals
          cases h
          simp
  next => cases h

theorem fileResponse_unreadable {cache cache' : GzipCache host} {answer : Response} {q : FilePath}
    {f : File} (hstat : t.stat path.parts = .ok (q, .file false f))
    (h : fileResponse t headers cache path = .ok (cache', answer)) : Names headers (etag f) := by
  by_contra hnot
  unfold fileResponse at h
  simp only [hstat] at h
  rw [if_neg (mt (etagMatches_iff (etag_ne_nil f)).mp hnot), if_pos (by simp)] at h
  cases h

theorem Contained.about {cache : GzipCache host}
    (h : Contained t (some root) target headers cache)
    (hlocate : locate host t root target = .ok (some path)) :
    ∃ cache' answer, fileResponse t headers cache path = .ok (cache', answer) ∧
      AnswersFile host t root headers path answer := by
  obtain ⟨cache', answer, hresponse, hanswer⟩ := h
  simp only [staticResponse, hlocate] at hresponse
  have hstatus := fileResponse_status hresponse
  rcases hanswer with rfl | rfl | ⟨r, hr, path', hpath', habout⟩
  · exact absurd rfl hstatus
  · exact absurd rfl hstatus
  · cases hr
    rw [hlocate] at hpath'
    cases hpath'
    exact ⟨cache', answer, hresponse, habout⟩

theorem Contained.located {cache : GzipCache host}
    (h : Contained t (some root) target headers cache) :
    ∃ found, locate host t root target = .ok found := by
  obtain ⟨cache', answer, hresponse, _⟩ := h
  cases hlocate : locate host t root target with
  | error e => simp [staticResponse, hlocate] at hresponse
  | ok found => exact ⟨found, rfl⟩

theorem path_of_located {found : Option PurePath}
    (h : locate host t root target = .ok found) :
    ∃ url path, Url.urlsplit host.nfkc target = some url ∧
      t.resolve host.frames (askedFor root url) = .ok path ∧ ¬ Refuses t path := by
  unfold locate at h
  split at h
  next => cases h
  next url hurl =>
    dsimp only at h
    split at h
    next => cases h
    next path hpath =>
      refine ⟨url, path, hurl, hpath, fun hrefused => ?_⟩
      obtain ⟨e, he⟩ := (@isKind_error_iff _ _ Node.isDir).mpr hrefused
      simp [he] at h

theorem answerable_of_contained {cache : GzipCache host}
    (h : Contained t (some root) target headers cache) :
    Answerable host t root target headers := by
  obtain ⟨found, hfound⟩ := h.located
  obtain ⟨url, path, hurl, hpath, hseen⟩ := path_of_located hfound
  have hlocate := locate_eq hurl hpath hseen
  have hfile : ∀ q readable f, Inside root (page t path) →
      t.stat (page t path).parts = .ok (q, .file readable f) →
      locate host t root target = .ok (some (page t path)) := by
    intro q readable f hinside hstat
    rw [hlocate, if_pos hinside, isKind_isFile_iff.mpr ⟨q, readable, f, hstat⟩]
    rfl
  refine ⟨url, path, hurl, hpath, hseen, ?_, ?_, ?_⟩
  · intro hinside hrefused
    obtain ⟨e, he⟩ := (@isKind_error_iff _ _ Node.isFile).mpr hrefused
    rw [hlocate, if_pos hinside, he] at hfound
    cases hfound
  · rintro - ⟨hinside, q, readable, f, hstat, hout⟩
    obtain ⟨_, answer, _, q', _, _, hstat', hunder, _⟩ := h.about (hfile q readable f hinside hstat)
    rw [hstat] at hstat'
    cases hstat'
    exact hout hunder
  · intro hinside q f hstat
    obtain ⟨_, answer, hanswer, _⟩ := h.about (hfile q false f hinside hstat)
    exact fileResponse_unreadable hstat hanswer

/-- A request is answered with a file inside the site or a 404, and without an exception, just
when there is no site, or the target, the path and the page it names are as `Answerable` says. -/
theorem staticResponse_contained_iff (host : Host) (t : FileTree) (root : Option FilePath)
    (target : Points) (headers : RequestHeaders) (cache : GzipCache host) :
    Contained t root target headers cache ↔
      ∀ r ∈ root, Answerable host t r target headers := by
  cases root with
  | none =>
    have hcontained : Contained t none target headers cache :=
      ⟨cache, text 404 noSiteText, rfl, .inl rfl⟩
    simp [hcontained]
  | some r =>
    constructor
    · intro h r' hr'
      cases hr'
      exact answerable_of_contained h
    · intro h
      exact contained_of_answerable cache (h r rfl)

/-- A host whose tables are empty. -/
def plainHost : Host where
  nfkc := id
  guessType _ := none
  compress := id
  frames := 100

/-- A site with a page that is a link out of it. -/
def siteWithLink : FileTree :=
  [([points "lab"], .dir true),
    ([points "lab", points "js"], .dir true),
    ([points "lab", points "js", points "index.html"], .link (points "/secret.txt")),
    ([points "secret.txt"], .file true { bytes := [110, 111], mtimeNs := 0 })]

/-- The page of a directory is served from outside; a NUL and a bracket end in an exception. -/
theorem linked_page_leaves_site :
    ¬ Contained siteWithLink (some [points "lab"]) (points "/js/") (fun _ => none)
      (.empty : GzipCache plainHost) ∧
    ¬ Contained siteWithLink (some [points "lab"]) (points "/a%00") (fun _ => none)
      (.empty : GzipCache plainHost) ∧
    ¬ Contained siteWithLink (some [points "lab"]) (points "//[") (fun _ => none)
      (.empty : GzipCache plainHost) := by
  refine ⟨fun h => ?_, fun h => ?_, fun h => ?_⟩
  · have hlocate : locate plainHost siteWithLink [points "lab"] (points "/js/") =
        .ok (some ⟨false, [points "lab", points "js", points "index.html"]⟩) := by
      decide
    have hstat : siteWithLink.stat [points "lab", points "js", points "index.html"] =
        .ok ([points "secret.txt"], .file true { bytes := [110, 111], mtimeNs := 0 }) := by
      decide
    obtain ⟨_, answer, _, q, readable, f, hq, hunder, _⟩ := h.about hlocate
    rw [hstat] at hq
    cases hq
    exact absurd hunder.1 (by decide)
  · obtain ⟨found, hfound⟩ := h.located
    have hlocate : locate plainHost siteWithLink [points "lab"] (points "/a%00") =
        .error .valueError := by
      decide
    rw [hlocate] at hfound
    cases hfound
  · obtain ⟨found, hfound⟩ := h.located
    have hlocate : locate plainHost siteWithLink [points "lab"] (points "//[") =
        .error .valueError := by
      decide
    rw [hlocate] at hfound
    cases hfound

end Questix.LabBridge.StaticSite
