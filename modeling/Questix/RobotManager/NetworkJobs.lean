/-
Questix.RobotManager.NetworkJobs — the changes of the access point: `_submit`
and the job threads of `wifi_ap.py`, and the root helper of `network_admin.py`.

A change is accepted under the lock of the job, in one move; its thread then
has `systemctl` start the helper, waits, looks at the status file, reports the
end and removes the request. The helper is a party of its own: it reads the
request, removes it, and writes the status. `systemctl` starts it when it does
not run already (systemd runs one at a time, so its lock is free), and comes
back at any time, with any result; the helper may be killed at any point.

Ids are numbers that do not repeat. Left out are the settings and their checks
(a refused request is taken as refused), what the helper does to the network,
and the hint of where the browser controller opens.
-/
import Questix.Lib.Pool
import Questix.RobotManager.Actuation

namespace Questix.RobotManager.WifiAp

open Questix.Lib

/-! ## Requests, statuses and jobs -/

/-- `ACTIONS` -/
inductive Action where
  | start
  | stop
  | configure
  | regeneratePassword
  deriving DecidableEq, Repr

/-- The keys of `MESSAGES`. -/
inductive Code where
  | started
  | stopped
  | configured
  | configuredApplied
  | passwordRegenerated
  | badRequest
  | invalidSettings
  | settingsUnreadable
  | settingsUntrusted
  | notConfigured
  | addressConflict
  | noFreeAddress
  | noInterface
  | networkmanagerMissing
  | networkmanagerNotRunning
  | applyFailed
  | apUpFailed
  | apDownFailed
  | busy
  | notInstalled
  | notPermitted
  | helperFailed
  | timeout
  | requestFailed
  deriving DecidableEq, Repr

/-- `MESSAGES` -/
def Code.message : Code → String
  | .started => "QUESTiX Local を開始しました。"
  | .stopped => "QUESTiX Local を停止しました。保存済みの Wi-Fi があれば自動で接続します。"
  | .configured => "設定を保存しました。"
  | .configuredApplied => "設定を保存し、QUESTiX Local に反映しました。"
  | .passwordRegenerated => "新しいパスワードにしました。接続中の端末はつなぎ直してください。"
  | .badRequest => "要求の形式が正しくありません。"
  | .invalidSettings => "設定の値が正しくありません。"
  | .settingsUnreadable =>
    "保存されている設定を読み取れません（sudo scripts/wifi-ap.sh status で確認してください）。"
  | .settingsUntrusted =>
    "保存されている設定のファイルを信頼できません（root 以外が作り直した可能性があります）。" ++
      "管理者が確認し、sudo scripts/wifi-ap.sh up で作り直してください。"
  | .notConfigured => "QUESTiX Local はまだ設定されていません。"
  | .addressConflict => "指定したアドレスは、このロボットの別のネットワークと重なっています。"
  | .noFreeAddress => "空いているアドレスが見つかりません。詳細設定でアドレスを指定してください。"
  | .noInterface => "Wi-Fi の装置が見つかりません。"
  | .networkmanagerMissing => "NetworkManager が見つかりません。"
  | .networkmanagerNotRunning => "NetworkManager が動いていません。"
  | .applyFailed => "設定を書き込めませんでした。"
  | .apUpFailed => "QUESTiX Local を開始できませんでした（設定は保存済みです）。"
  | .apDownFailed => "QUESTiX Local を停止できませんでした。"
  | .busy => "ほかの切り替えが実行中です。"
  | .notInstalled => "この機体には、画面から切り替えるための部品がまだありません" ++
      "（sudo scripts/update-robot-manager.sh を実行してください）。"
  | .notPermitted => "この機体では、画面から切り替える許可がまだ設定されていません" ++
      "（sudo scripts/update-robot-manager.sh を実行してください）。"
  | .helperFailed =>
    "切り替えに失敗しました（journalctl -u questix_network_admin で理由を確認できます）。"
  | .timeout => "切り替えが時間内に終わりませんでした。状態を確認してください。"
  | .requestFailed => "切り替えの要求を書き込めませんでした。"

/-- What `_start_lab` gives. -/
inductive LabResult where
  | started
  | running
  | competition
  | notLesson
  | autostartOff
  | failed
  deriving DecidableEq, Repr

/-- `LAB_MESSAGES` -/
def LabResult.message : LabResult → String
  | .started => "教材の配信を開始しました。"
  | .running => "教材の配信は動作中です。"
  | .competition => "大会モードのため、教材は配信しません。"
  | .notLesson => "練習モードのため、教材は配信しません（教材モードで配信できます）。"
  | .autostartOff => "教材の自動開始がオフのため、配信は開始していません（教材タブから開始できます）。"
  | .failed => "教材の配信を開始できませんでした（教材タブで確認してください）。"

inductive JobState where
  | running
  | succeeded
  | failed
  deriving DecidableEq, Repr

/-- The file `network_request.json`. -/
structure NetworkRequest where
  id : ℕ
  action : Action
  deriving DecidableEq

/-- The file `network_status.json`. -/
structure Status where
  id : Option ℕ
  action : Option Action
  state : JobState
  code : Option Code
  deriving DecidableEq

/-- `_job` -/
structure Job where
  id : ℕ
  action : Action
  state : JobState := .running
  code : Option Code := none
  lab : Option LabResult := none
  deriving DecidableEq

/-! ## The helper -/

/-- What a run of the helper does next. -/
inductive HelperStage where
  | read
  | unlink (request : NetworkRequest)
  | accept (request : NetworkRequest)  -- the status says that it runs
  | handle (request : NetworkRequest)
  | report (id : Option ℕ) (action : Option Action) (state : JobState) (code : Code)
  deriving DecidableEq

/-- A run of the helper, with the job for which it was started. -/
structure HelperRun where
  job : ℕ
  stage : HelperStage
  deriving DecidableEq

/-- What the environment decides in a move of the helper: the code of what goes
wrong (`applyFailed` for an operating system error), and whether the access
point is up afterwards. -/
structure HelperLuck where
  trouble : Option Code := none
  up : Bool := true

/-- The code of a change that went well. -/
def doneCode (action : Action) (up : Bool) : Code :=
  match action with
  | .start => .started
  | .stop => .stopped
  | .regeneratePassword => .passwordRegenerated
  | .configure => if up then .configuredApplied else .configured

/-! ## The manager -/

/-- How `systemctl start` ended; `stderr` is in lower case. -/
structure CompletedProcess where
  returncode : ℤ
  stderr : String
  deriving DecidableEq

/-- What a job thread does next. -/
inductive JobWork where
  | systemctl (id : ℕ) (action : Action)
  | wait (id : ℕ) (action : Action)
  | look (id : ℕ) (action : Action) (result : Option CompletedProcess)
  | startLab (id : ℕ) (code : Code)
  | finish (id : ℕ) (state : JobState) (code : Code) (lab : Option LabResult)
  | remove (id : ℕ)
  deriving DecidableEq

/-- What the environment decides in a move of a job: whether `systemctl`
reaches the helper, how it ends, an unexpected exception, what becomes of the
lessons, and whether the request cannot be removed. -/
structure JobLuck where
  starts : Bool := true
  result : Option CompletedProcess := none
  raises : Bool := false
  lab : LabResult := .started
  undeletable : Bool := false

/-- A change that is asked for, with what its checks find. -/
structure Submit where
  action : Action
  invalid : Option Code := none
  available : Bool := true
  configured : Bool := true
  unwritable : Bool := false

/-- The files, the helper and the job; `accepted`, `ended` and `finals` (the
final statuses that the helper has written) are what has happened. -/
structure Network where
  request : Option NetworkRequest := none
  status : Option Status := none
  helper : Option HelperRun := none
  job : Option Job := none
  accepted : List ℕ := []
  ended : List Job := []
  finals : List Status := []

inductive Answer where
  | nothing
  | raised (error : HttpError)
  | accepted (job : Job)

def containsText (text word : String) : Bool := (text.splitOn word).length ≠ 1

/-- The code of a job for which the helper has left no final status. -/
def failureCode : Option CompletedProcess → Code
  | none => .timeout
  | some result =>
    if result.returncode ≠ 0 then
      if containsText result.stderr "not found" || containsText result.stderr "not loaded" then
        .notInstalled
      else if containsText result.stderr "authentication" ||
          containsText result.stderr "access denied" || containsText result.stderr "authoriz" then
        .notPermitted
      else .helperFailed
    else .helperFailed

namespace Network

def running (n : Network) : Bool := n.job.any fun job => job.state = .running

/-- `_submit` -/
def arrive (n : Network) (s : Submit) : Network × List JobWork × Answer :=
  match s.invalid with
  | some code => (n, [], .raised ⟨422, code.message⟩)
  | none =>
    if n.running then (n, [], .raised ⟨409, "切り替え中です。終わるまでお待ちください。"⟩)
    else if !s.available then (n, [], .raised ⟨503, Code.notInstalled.message⟩)
    else if (s.action = .stop || s.action = .regeneratePassword) && !s.configured then
      (n, [], .raised ⟨409, Code.notConfigured.message⟩)
    else if s.unwritable then (n, [], .raised ⟨500, Code.requestFailed.message⟩)
    else
      let id := n.accepted.length
      let job : Job := { id := id, action := s.action }
      ({ n with
          request := some ⟨id, s.action⟩
          job := some job
          accepted := n.accepted ++ [id] },
        [.systemctl id s.action], .accepted job)

/-- `_read_status`, if the status is final. -/
def finalStatus (n : Network) (id : ℕ) : Option (JobState × Code) :=
  match n.status with
  | none => none
  | some status =>
    if status.id = some id ∧ status.state ≠ .running then
      some (status.state, status.code.getD .helperFailed)
    else none

/-- `_finish` -/
def finish (n : Network) (id : ℕ) (state : JobState) (code : Code) (lab : Option LabResult) :
    Network :=
  match n.job with
  | none => n
  | some job =>
    if job.id = id then
      let job := { job with state := state, code := some code, lab := lab }
      { n with job := some job, ended := n.ended ++ [job] }
    else n

/-- The next move of `_run_job`. -/
def run (n : Network) (w : JobWork) (luck : JobLuck) : Network × List JobWork × Answer :=
  match w with
  | .systemctl id action =>
    (if luck.starts && n.helper.isNone then { n with helper := some ⟨id, .read⟩ } else n,
      [.wait id action], .nothing)
  | .wait id action =>
    (n, [if luck.raises then .finish id .failed .helperFailed none else .look id action luck.result],
      .nothing)
  | .look id action result =>
    match n.finalStatus id with
    | some (state, code) =>
      (n, [if state = .succeeded ∧ action = .start then .startLab id code
        else .finish id state code none], .nothing)
    | none => (n, [.finish id .failed (failureCode result) none], .nothing)
  | .startLab id code =>
    (n, [if luck.raises then .finish id .failed .helperFailed none
      else .finish id .succeeded code (some luck.lab)], .nothing)
  | .finish id state code lab => (n.finish id state code lab, [.remove id], .nothing)
  | .remove _ => (if luck.undeletable then n else { n with request := none }, [], .nothing)

def program : Program Network JobWork Submit JobLuck Answer := ⟨arrive, run⟩

/-- `write_status` with a final state, the end of the run. -/
def writeFinal (n : Network) (status : Status) : Network :=
  { n with status := some status, helper := none, finals := n.finals ++ [status] }

/-- The next move of the helper. -/
def runHelper (n : Network) (luck : HelperLuck) : Network :=
  match n.helper with
  | none => n
  | some ⟨job, stage⟩ =>
    let goTo (stage : HelperStage) (n : Network) : Network := { n with helper := some ⟨job, stage⟩ }
    match stage, luck.trouble with
    | .read, some code => goTo (.report none none .failed code) n
    | .read, none =>
      match n.request with
      | none => goTo (.report none none .failed .badRequest) n
      | some request => goTo (.unlink request) n
    | .unlink _, some code => goTo (.report none none .failed code) n
    | .unlink request, none => goTo (.accept request) { n with request := none }
    | .accept request, some code =>
      goTo (.report (some request.id) (some request.action) .failed code) n
    | .accept request, none =>
      goTo (.handle request)
        { n with status := some ⟨some request.id, some request.action, .running, none⟩ }
    | .handle request, some code =>
      goTo (.report (some request.id) (some request.action) .failed code) n
    | .handle request, none =>
      goTo (.report (some request.id) (some request.action) .succeeded
        (doneCode request.action luck.up)) n
    | .report id action state code, none => n.writeFinal ⟨id, action, state, some code⟩
    | .report id action .succeeded _, some _ => goTo (.report id action .failed .applyFailed) n
    | .report _ _ _ _, some _ => { n with helper := none }

end Network

/-! ## All together -/

inductive Event where
  | manager (x : PoolEvent Submit JobWork JobLuck)
  | helper (luck : HelperLuck)
  | helperDies

def step (p : Pool Network JobWork) : Event → Pool Network JobWork × Option Answer
  | .manager x => Network.program.step p x
  | .helper luck => (⟨p.shared.runHelper luck, p.threads⟩, none)
  | .helperDies => (⟨{ p.shared with helper := none }, p.threads⟩, none)

end Questix.RobotManager.WifiAp
