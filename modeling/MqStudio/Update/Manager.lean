import MqStudio.Lib.Transition
import MqStudio.Update.Release

/-!
# The updater

`internal/update/manager.go` and `download.go`, with every call a thread.  A
step is a section between a lock and its release, one file operation, or one
answer of the network; the values the environment decides (which policy is in
force, what a mirror sends, whether a file operation succeeds, which locked
section comes next) are in the label of the step.

A thread is a call, and a call runs in a thread of its own.  A package is known
by its name in the download directory, and no package by the empty name.  The
memory file is kept apart from the packages; a write of it may land, leave the
file as it was, or leave a file that cannot be read.  A new session kills every
call and starts from what is on disk.

`sha256` is the digest of a package in hexadecimal.  `checked` and `declined`
record what has happened and are read by no step: the manifests that some check
accepted, and the versions the user asked not to hear of that no check the user
pressed for has taken back.
-/

namespace MqStudio.Update

open Lib

/-! ### Data -/

structure Policy where
  value : String
deriving DecidableEq

def Policy.off : Policy := ⟨"off"⟩
def Policy.notify : Policy := ⟨"notify"⟩
def Policy.download : Policy := ⟨"download"⟩
def Policy.auto : Policy := ⟨"auto"⟩

def Policy.downloads (p : Policy) : Bool := p = .download || p = .auto

inductive Phase where
  | idle
  | checking
  | available
  | downloading
  | ready
  | installing
  | error
deriving DecidableEq

inductive FailedStep where
  | none
  | check
  | download
  | install
deriving DecidableEq

/-- Nanoseconds. -/
abbrev Time := Int

def second : Int := 10 ^ 9

/-- RFC 3339 keeps whole seconds. -/
def rfc3339 (t : Time) : Int := t / second

/-- What the renderer draws, but for what never changes in a session. -/
structure State where
  phase : Phase := .idle
  latestVersion : String := ""
  notes : String := ""
  publishedAt : String := ""
  releaseURL : String := ""
  downloaded : Int := 0
  total : Int := -1
  mirror : String := ""
  outcome : Option Status := none
  checkedAt : Option Int := none
  skipped : String := ""
  error : Option Error := none
  failedStep : FailedStep := .none
deriving DecidableEq

/-- What survives a restart. -/
structure Memory where
  checkedAt : Option Int := none
  skipped : String := ""
  readyVersion : String := ""
  readyPath : String := ""
  preferredMirror : String := ""
  mirrorMeasured : Option Int := none
  learnedMirrors : List Mirror := []
deriving DecidableEq

abbrev Content := List UInt8

/-- What a write of the memory file comes to. -/
inductive Write where
  | landed
  | kept
  | lost
deriving DecidableEq

/-- What a call returns. -/
inductive Return where
  | state (state : State) (policy : Policy) (err : Option Error)
  | done (err : Option Error)
  | installed (installed : Bool) (err : Option Error)

/-! ### Calls -/

/-- Where `runCheck` is. -/
inductive RunCheck where
  | plan
  /-- Asking the remembered winner alone. -/
  | quick (mirrors : List Mirror) (preferred : Mirror)
  | full (mirrors : List Mirror)
  | remember (result : Result)
  | done (outcome : Except Error Result)

/-- What the check is for. -/
inductive Purpose where
  | check (manual : Bool)
  | download

/-- A download in flight. -/
structure Job where
  release : Result
  /-- Started by a check. -/
  auto : Bool
  cancelled : Bool

/-- One mirror's turn at a package. -/
structure Attempt where
  name : String
  file : ManifestFile
  mirror : Mirror
  rest : List Mirror
  failure : Error

/-- Where `fetch` is. -/
inductive Fetch where
  | resolve
  | sweeping (name : String) (file : ManifestFile) (entries : List String)
  | next (name : String) (file : ManifestFile) (mirrors : List Mirror) (failure : Error)
  | getting (a : Attempt)
  | streaming (a : Attempt) (total : Int) (received : Content) (sinceReport : Nat)
  | removing (a : Attempt)
  | replacing (a : Attempt)
  | cleanup (a : Attempt) (err : Option Error)
  | done (outcome : Except Error String)

/-- A package on its way to `Apply`, with the version recorded for it. -/
structure Package where
  path : String
  version : String
  /-- Read by `InstallOnQuit`. -/
  quit : Bool

/-- Where a call is. -/
inductive Thread where
  | idle
  | checking (purpose : Purpose) (run : RunCheck)
  | begin (release : Result) (auto : Bool)
  | fetching (job : Job) (stage : Fetch)
  | releasing (err : Option Error)
  | cancelling (target : Option Nat)
  /-- `Apply` has been called; `opened` once it has found the file. -/
  | applying (package : Package) (opened : Bool)
  | applied (quit : Bool) (err : Option Error)
  | relaunching
  | returned (result : Return)

def Thread.isIdle : Thread → Bool
  | .idle => true
  | _ => false

/-- A session and the directory it works on. -/
structure Updater where
  version : String
  host : Host
  state : State
  memory : Memory
  busy : Bool
  cancel : Option Nat
  threads : Nat → Thread
  files : Std.ExtTreeMap String Content compare
  stored : Option Memory
  checked : List Manifest
  declined : List String

namespace Updater

def location (u : Updater) : Location := locate u.host

def setThread (u : Updater) (tid : Nat) (th : Thread) : Updater :=
  { u with threads := Function.update u.threads tid th }

/-- `os.Remove`, which may fail. -/
def remove (u : Updater) (removed : Bool) (name : String) : Updater :=
  { u with files := if removed then u.files.erase name else u.files }

def writeMemory (u : Updater) (w : Write) : Updater :=
  { u with stored := match w with
    | .landed => some u.memory
    | .kept => u.stored
    | .lost => none }

def setError (u : Updater) (step : FailedStep) (err : Error) : Updater :=
  { u with state := { u.state with
    phase := .error, failedStep := step, error := some (present err) } }

/-- Drop the finished package from the state and the disk. -/
def forgetReady (u : Updater) (removed : Bool) (w : Write) : Updater :=
  let u := u.remove removed u.memory.readyPath
  let u := { u with memory := { u.memory with readyPath := "", readyVersion := "" } }.writeMemory w
  { u with state := { u.state with phase := .idle, downloaded := 0, total := -1 } }

/-! ### Sessions -/

/-- Pick a finished download back up, or clear it; `found` is whether `os.Stat` finds a file that
is there. -/
def restoreReady (u : Updater) (found removed : Bool) (w : Write) : Updater :=
  if u.memory.readyPath = "" then u
  else if found && u.files.contains u.memory.readyPath &&
      decide (Newer u.version u.memory.readyVersion) then
    { u with state := { u.state with phase := .ready, latestVersion := u.memory.readyVersion } }
  else
    let u := u.remove removed u.memory.readyPath
    { u with memory := { u.memory with readyPath := "", readyVersion := "" } }.writeMemory w

/-- `New` on a directory; `readable` is whether the memory file can be read. -/
def restart (u : Updater) (version : String) (host : Host) (readable found removed : Bool)
    (w : Write) : Updater :=
  let memory := if readable then u.stored.getD {} else {}
  restoreReady
    { u with
      version := version
      host := host
      memory := memory
      state := { checkedAt := memory.checkedAt, skipped := memory.skipped }
      busy := false
      cancel := none
      threads := fun _ => .idle }
    found removed w

/-- The first session, on an empty directory. -/
def new (version : String) (host : Host) : Updater where
  version := version
  host := host
  state := {}
  memory := {}
  busy := false
  cancel := none
  threads := fun _ => .idle
  files := ∅
  stored := none
  checked := []
  declined := []

/-! ### Resolving a release -/

def mirrorPreferenceTTL : Int := 7 * 24 * 3600 * second

/-- The mirrors to try, and the one to try first on its own. -/
def plan (u : Updater) (now : Time) : List Mirror × Option Mirror :=
  let mirrors := mergeMirrors bootstrapMirrors u.memory.learnedMirrors
  if u.memory.preferredMirror = "" ∨ mirrors.length < 2 then (mirrors, none)
  else match u.memory.mirrorMeasured with
    | none => (mirrors, none)
    | some measured =>
        if mirrorPreferenceTTL ≤ now - measured * second then (mirrors, none)
        else (mirrors, findMirror mirrors u.memory.preferredMirror)

def planned (u : Updater) (tid : Nat) (purpose : Purpose) (now : Time) : Updater :=
  u.setThread tid (.checking purpose (match u.plan now with
    | (mirrors, some preferred) => .quick mirrors preferred
    | (mirrors, none) => .full mirrors))

/-- `m.check`, and what follows where it fails. -/
def ask (u : Updater) (tid : Nat) (purpose : Purpose) (mirrors : List Mirror)
    (arrivals : List (Mirror × Answer)) (otherwise : Error → RunCheck) : Updater :=
  match checkLatest u.version mirrors arrivals with
  | .ok result =>
      { u with checked := result.manifest :: u.checked }.setThread tid
        (.checking purpose (.remember result))
  | .error err => u.setThread tid (.checking purpose (otherwise err))

def rememberMirror (u : Updater) (result : Result) (now : Time) (w : Write) : Updater :=
  let memory := if result.mirror.name ≠ "" then
      { u.memory with
        preferredMirror := result.mirror.name, mirrorMeasured := some (rfc3339 now) }
    else u.memory
  let memory := if result.manifest.mirrors ≠ [] then
      { memory with
        learnedMirrors := mergeMirrors memory.learnedMirrors result.manifest.mirrors }
    else memory
  { u with memory := memory }.writeMemory w

/-! ### Check -/

def check (u : Updater) (tid : Nat) (manual : Bool) (policy : Policy) : Updater :=
  if isDevelopmentBuild u.version then
    u.setThread tid (.returned (.state u.state policy (some (.new
      ("this is a development build (" ++ u.version ++
        "), which has no release to compare against")))))
  else if u.busy then u.setThread tid (.returned (.state u.state policy none))
  else
    { u with
      busy := true
      state := { u.state with phase := .checking, error := none, failedStep := .none }
    }.setThread tid (.checking (.check manual) .plan)

/-- The lock is taken again. -/
def noteCheck (u : Updater) (now : Time) : Updater :=
  { u with
    busy := false
    memory := { u.memory with checkedAt := some (rfc3339 now) }
    state := { u.state with checkedAt := some (rfc3339 now) } }

/-- A check the user pressed for takes the release back off the skip list. -/
def takesBack (u : Updater) (manual : Bool) (result : Result) : Bool :=
  manual && result.status = .available && u.memory.skipped = result.latestVersion

def takeBack (u : Updater) (manual : Bool) (result : Result) : Updater :=
  let back := u.takesBack manual result
  { u with
    memory := { u.memory with skipped := if back then "" else u.memory.skipped }
    state := { u.state with skipped := if back then "" else u.state.skipped }
    declined := if back then u.declined.filter (· ≠ result.latestVersion) else u.declined }

/-- Fold a result into the state, up to the write of the memory file. -/
def noteResult (u : Updater) (manual : Bool) (result : Result) (now : Time) (w : Write) :
    Updater :=
  let u := u.noteCheck now
  let u := { u with state := { u.state with
    releaseURL := result.releaseURL, outcome := some result.status } }
  (u.takeBack manual result).writeMemory w

def autoDownload (u : Updater) (policy : Policy) (result : Result) : Bool :=
  policy.downloads && u.location.canInstall && result.latestVersion ≠ u.memory.skipped

/-- The last section of `Check`.  `policy` decides about the download, which runs as `spawn`;
`shown` is the one in the state that is returned. -/
def checkFinish (u : Updater) (tid : Nat) (manual : Bool) (outcome : Except Error Result)
    (policy shown : Policy) (now : Time) (w : Write) (spawn : Nat) : Updater :=
  match outcome with
  | .error err =>
      let u := ((u.noteCheck now).writeMemory w).setError .check err
      u.setThread tid (.returned (.state u.state shown (some (present err))))
  | .ok result =>
      let u := u.noteResult manual result now w
      if result.status ≠ .available then
        -- Nothing newer: drop any release the state was still carrying.
        let u := { u with state := { u.state with
          phase := .idle, latestVersion := "", notes := "", publishedAt := "" } }
        u.setThread tid (.returned (.state u.state shown none))
      else
        let u := { u with state := { u.state with
          latestVersion := result.latestVersion
          notes := result.notes
          publishedAt := result.publishedAt } }
        if u.state.phase = .ready ∧ u.memory.readyVersion = result.latestVersion then
          u.setThread tid (.returned (.state u.state shown none))
        else
          let u := { u with state := { u.state with phase := .available } }
          let u' := u.setThread tid (.returned (.state u.state shown none))
          if u.autoDownload policy result then u'.setThread spawn (.begin result true) else u'

/-! ### Download -/

/-- What a download without a release does with the check it makes first. -/
def recheckFinish (u : Updater) (tid : Nat) (outcome : Except Error Result) : Updater :=
  match outcome with
  | .error err => (u.setError .download err).setThread tid (.returned (.done (some (present err))))
  | .ok result =>
      if result.status ≠ .available then u.setThread tid (.returned (.done none))
      else u.setThread tid (.begin result false)

def notInstallable (u : Updater) : Error :=
  .errorf "" errNotInstallable (" (" ++ u.location.blocker.key ++ ")")

/-- The first section of `Download` for a release. -/
def begin (u : Updater) (tid : Nat) (release : Result) (auto : Bool) : Updater :=
  if u.busy then u.setThread tid (.returned (.done none))
  else if !u.location.canInstall then
    (u.setError .download u.notInstallable).setThread tid
      (.returned (.done (some (present u.notInstallable))))
  else
    { u with
      busy := true
      cancel := some tid
      state := { u.state with
        phase := .downloading
        latestVersion := release.latestVersion
        notes := release.notes
        publishedAt := release.publishedAt
        downloaded := 0
        total := -1
        error := none
        failedStep := .none }
    }.setThread tid (.fetching ⟨release, auto, false⟩ .resolve)

/-- The package of a release this build installs from. -/
def packageName (u : Updater) (release : Result) : String :=
  u.location.target.packageName release.latestVersion

def memoryFile : String := "update.json"

/-- The first turn of a package. -/
def firstTurn (job : Job) (name : String) (file : ManifestFile) : Fetch :=
  .next name file
    (if job.release.order = [] then [job.release.mirror] else job.release.order)
    (.mirrorFailure (name ++ " could not be downloaded"))

/-- Resolve the package, and read the directory that is to be swept. -/
def resolve (u : Updater) (tid : Nat) (job : Job) (readDir : Bool) : Updater :=
  let name := u.packageName job.release
  match job.release.manifest.files[name]? with
  | none =>
      u.setThread tid (.fetching job (.done (.error (.new ("release " ++ job.release.latestVersion ++
        " has no package for this platform (" ++ name ++ ")")))))
  | some file =>
      if readDir then
        u.setThread tid (.fetching job (.sweeping name file
          (u.files.keys.filter fun entry => entry ≠ name && entry ≠ memoryFile)))
      else u.setThread tid (.fetching job (firstTurn job name file))

/-- Remove one abandoned package, or turn to the mirrors. -/
def sweep (u : Updater) (tid : Nat) (job : Job) (name : String) (file : ManifestFile)
    (entries : List String) (removed : Bool) : Updater :=
  match entries with
  | entry :: entries =>
      (u.remove removed entry).setThread tid (.fetching job (.sweeping name file entries))
  | [] => u.setThread tid (.fetching job (firstTurn job name file))

def attempt (u : Updater) (tid : Nat) (job : Job) (name : String) (file : ManifestFile)
    (mirrors : List Mirror) (failure : Error) : Updater :=
  match mirrors with
  | [] => u.setThread tid (.fetching job (.done (.error failure)))
  | mirror :: rest =>
      { u with state := { u.state with mirror := mirror.name, downloaded := 0, total := -1 }
      }.setThread tid (.fetching job (.getting ⟨name, file, mirror, rest, failure⟩))

/-- What follows where a mirror's turn has failed. -/
def Attempt.failed (a : Attempt) (err : Error) : Fetch :=
  if err.is .canceled then .done (.error err)
  else .next a.name a.file a.rest (.tried a.failure a.mirror.name err)

/-- A failure of a file or of the network; one that the cancelled context caused is told apart. -/
inductive Fault where
  | canceled
  | external (text : String)

def Fault.error : Fault → Error
  | .canceled => .canceled
  | .external text => .external text

/-- Open the request and the partial file; the answer is the content length. -/
def get (u : Updater) (tid : Nat) (job : Job) (a : Attempt) (response : Except Fault Int) :
    Updater :=
  if a.file.sha256.utf8ByteSize ≠ hexSHA256 then
    u.setThread tid (.fetching job (Attempt.failed a (.new
      ("refusing to download " ++ a.name ++ " without a published checksum"))))
  else match response with
    | .error fault => u.setThread tid (.fetching job (Attempt.failed a fault.error))
    | .ok total =>
        { u with files := u.files.insert (partialName a.name) [] }.setThread tid
          (.fetching job (.streaming a total [] 0))

def progressInterval : Nat := 200 * 1024

def reportProgress (u : Updater) (done : Nat) (total : Int) : Updater :=
  { u with state := { u.state with downloaded := done, total := total } }

/-- One turn of the copy loop. -/
def chunk (u : Updater) (tid : Nat) (job : Job) (a : Attempt) (total : Int) (received : Content)
    (sinceReport : Nat) (bytes : Content) : Updater :=
  let received := received ++ bytes
  let sinceReport := sinceReport + bytes.length
  let u := { u with files := u.files.insert (partialName a.name) received }
  if progressInterval ≤ sinceReport then
    (u.reportProgress received.length total).setThread tid
      (.fetching job (.streaming a total received 0))
  else u.setThread tid (.fetching job (.streaming a total received sinceReport))

/-- The end of the body: the file is closed and its digest compared. -/
def eof (sha256 : Content → String) (u : Updater) (tid : Nat) (job : Job) (a : Attempt)
    (total : Int) (received : Content) (close : Option Fault) : Updater :=
  let u := u.reportProgress received.length total
  match close with
  | some fault => u.setThread tid (.fetching job (.cleanup a (some fault.error)))
  | none =>
      if Text.equalFold (sha256 received) a.file.sha256 then
        u.setThread tid (.fetching job (.removing a))
      else
        u.setThread tid (.fetching job (.cleanup a (some (.errorf "" errChecksumMismatch
          (": " ++ a.name ++ " (" ++ toString received.length ++ " bytes)")))))

/-- Rename the verified file into place. -/
def rename (u : Updater) (tid : Nat) (job : Job) (a : Attempt) (fault : Option Fault) : Updater :=
  match fault, u.files[partialName a.name]? with
  | some fault, _ => u.setThread tid (.fetching job (.cleanup a (some fault.error)))
  | none, none =>
      u.setThread tid (.fetching job (.cleanup a (some (.external "no such file or directory"))))
  | none, some content =>
      { u with files := (u.files.erase (partialName a.name)).insert a.name content }.setThread tid
        (.fetching job (.cleanup a none))

/-- The deferred removal of the partial file. -/
def cleanup (u : Updater) (tid : Nat) (job : Job) (a : Attempt) (err : Option Error)
    (removed : Bool) : Updater :=
  (u.remove removed (partialName a.name)).setThread tid (.fetching job (match err with
    | none => .done (.ok a.name)
    | some err => Attempt.failed a err))

/-- A verified package is recorded. -/
def recordReady (u : Updater) (version path : String) (w : Write) : Updater :=
  let u := { u with memory := { u.memory with
    readyVersion := version, readyPath := path } }.writeMemory w
  { u with state := { u.state with phase := .ready } }

/-- The last section of `Download`, before its deferred one. -/
def downloadFinish (u : Updater) (tid : Nat) (job : Job) (outcome : Except Error String)
    (w : Write) : Updater :=
  match outcome with
  | .error err =>
      if err.is .canceled then
        { u with state := { u.state with phase := .available, downloaded := 0, total := -1 }
        }.setThread tid (.releasing none)
      else (u.setError .download err).setThread tid (.releasing (some (present err)))
  | .ok path =>
      (u.recordReady job.release.latestVersion path w).setThread tid (.releasing none)

/-- The deferred section: the busy flag is given back. -/
def release (u : Updater) (tid : Nat) (err : Option Error) : Updater :=
  { u with busy := false, cancel := none }.setThread tid (.returned (.done err))

/-- The cancel function that was read is called. -/
def cancelFire (u : Updater) (tid : Nat) (target : Option Nat) : Updater :=
  let u := u.setThread tid (.returned (.done none))
  match target with
  | none => u
  | some d => match u.threads d with
    | .fetching job stage => u.setThread d (.fetching { job with cancelled := true } stage)
    | _ => u

/-! ### Install -/

def isReady (u : Updater) : Bool := u.state.phase = .ready && u.memory.readyPath ≠ ""

def readyPackage (u : Updater) (quit : Bool) : Package :=
  ⟨u.memory.readyPath, u.memory.readyVersion, quit⟩

def errNotReady : Error := .new "no downloaded update is ready to install"

def install (u : Updater) (tid : Nat) : Updater :=
  if u.isReady then
    { u with state := { u.state with phase := .installing } }.setThread tid
      (.applying (u.readyPackage false) false)
  else u.setThread tid (.returned (.done (some errNotReady)))

def installOnQuit (u : Updater) (tid : Nat) (policy : Policy) : Updater :=
  if !u.isReady || policy ≠ .auto then u.setThread tid (.returned (.installed false none))
  else u.setThread tid (.applying (u.readyPackage true) false)

/-- `Apply` up to the routine of the platform. -/
def apply (u : Updater) (tid : Nat) (package : Package) (found : Bool) : Updater :=
  if !u.location.canInstall then
    u.setThread tid (.applied package.quit (some u.notInstallable))
  else if !(found && u.files.contains package.path) then
    u.setThread tid (.applied package.quit (some (.errorf "the downloaded update is missing: "
      (.external "no such file or directory") "")))
  else match u.location.kind with
    | .appBundle | .appImage | .installer => u.setThread tid (.applying package true)
    | kind => u.setThread tid (.applied package.quit (some
        (.errorf "" errNotInstallable (" (" ++ kind.key ++ ")"))))

/-- The last section of `Install` or `InstallOnQuit`. -/
def installFinish (u : Updater) (tid : Nat) (quit : Bool) (err : Option Error) (removed : Bool)
    (w : Write) : Updater :=
  match err with
  | some err =>
      if quit then u.setThread tid (.returned (.installed false (some (present err))))
      else (u.setError .install err).setThread tid (.returned (.done (some (present err))))
  | none =>
      let u := u.forgetReady removed w
      if quit then u.setThread tid (.returned (.installed true none))
      else u.setThread tid .relaunching

/-! ### Skip -/

def skip (u : Updater) (version : String) (w : Write) : Updater :=
  { u with
    memory := { u.memory with skipped := version }
    state := { u.state with skipped := version }
    declined := version :: u.declined }.writeMemory w

end Updater

/-! ### Steps -/

open Updater (Fault)

/-- What happens to a call that is running. -/
inductive Event where
  | plan (now : Time)
  | answer (arrivals : List (Mirror × Answer))
  | remember (now : Time) (w : Write)
  | checkFinish (policy shown : Policy) (now : Time) (w : Write) (spawn : Nat)
  | recheckFinish
  | begin
  | resolve (readDir : Bool)
  | sweep (removed : Bool)
  | attempt
  | get (response : Except Fault Int)
  | chunk (bytes : Content)
  | eof (close : Option Fault)
  | abort (fault : Fault)
  | removeOld (removed : Bool)
  | rename (fault : Option Fault)
  | cleanup (removed : Bool)
  | downloadFinish (w : Write)
  | release
  | cancelFire
  | apply (found : Bool)
  | applied (err : Option String)
  | installFinish (removed : Bool) (w : Write)
  | relaunch (err : Option String)

inductive Label where
  | restart (version : String) (host : Host) (readable found removed : Bool) (w : Write)
  | check (tid : Nat) (manual : Bool) (policy : Policy)
  | download (tid : Nat)
  | install (tid : Nat)
  | installOnQuit (tid : Nat) (policy : Policy)
  | cancel (tid : Nat)
  | skip (version : String) (w : Write)
  | run (tid : Nat) (event : Event)

/-- The context of a download fails only where it was cancelled. -/
def Job.permits (job : Job) : Fault → Bool
  | .canceled => job.cancelled
  | .external _ => true

variable (sha256 : Content → String)

def stepCheck (u : Updater) (tid : Nat) (purpose : Purpose) : RunCheck → Event → Option Updater
  | .plan, .plan now => some (u.planned tid purpose now)
  | .quick mirrors preferred, .answer arrivals =>
      some (u.ask tid purpose [preferred] arrivals fun _ => .full mirrors)
  | .full mirrors, .answer arrivals =>
      some (u.ask tid purpose mirrors arrivals fun err => .done (.error err))
  | .remember result, .remember now w =>
      some ((u.rememberMirror result now w).setThread tid (.checking purpose (.done (.ok result))))
  | .done outcome, .checkFinish policy shown now w spawn =>
      match purpose with
      | .check manual =>
          if (u.threads spawn).isIdle then
            some (u.checkFinish tid manual outcome policy shown now w spawn)
          else none
      | .download => none
  | .done outcome, .recheckFinish =>
      match purpose with
      | .check _ => none
      | .download => some (u.recheckFinish tid outcome)
  | _, _ => none

def stepFetch (u : Updater) (tid : Nat) (job : Job) : Fetch → Event → Option Updater
  | .resolve, .resolve readDir => some (u.resolve tid job readDir)
  | .sweeping name file entries, .sweep removed =>
      some (u.sweep tid job name file entries removed)
  | .next name file mirrors failure, .attempt =>
      some (u.attempt tid job name file mirrors failure)
  | .getting a, .get (.error fault) =>
      if job.permits fault then some (u.get tid job a (.error fault)) else none
  | .getting a, .get (.ok total) => some (u.get tid job a (.ok total))
  | .streaming a total received since, .chunk bytes =>
      some (u.chunk tid job a total received since bytes)
  | .streaming a total received _, .eof close => some (u.eof sha256 tid job a total received close)
  | .streaming a _ _ _, .abort fault =>
      if job.permits fault then
        some (u.setThread tid (.fetching job (.cleanup a (some fault.error))))
      else none
  | .removing a, .removeOld removed =>
      some ((u.remove removed a.name).setThread tid (.fetching job (.replacing a)))
  | .replacing a, .rename fault => some (u.rename tid job a fault)
  | .cleanup a err, .cleanup removed => some (u.cleanup tid job a err removed)
  | .done outcome, .downloadFinish w => some (u.downloadFinish tid job outcome w)
  | _, _ => none

def stepThread (u : Updater) (tid : Nat) : Thread → Event → Option Updater
  | .checking purpose run, event => stepCheck u tid purpose run event
  | .begin release auto, .begin => some (u.begin tid release auto)
  | .fetching job stage, event => stepFetch sha256 u tid job stage event
  | .releasing err, .release => some (u.release tid err)
  | .cancelling target, .cancelFire => some (u.cancelFire tid target)
  | .applying package false, .apply found => some (u.apply tid package found)
  | .applying package true, .applied err =>
      some (u.setThread tid (.applied package.quit (err.map .external)))
  | .applied quit err, .installFinish removed w => some (u.installFinish tid quit err removed w)
  | .relaunching, .relaunch err =>
      some (u.setThread tid (.returned (.done (err.map .external))))
  | _, _ => none

def step (u : Updater) : Label → Option Updater
  | .restart version host readable found removed w =>
      some (u.restart version host readable found removed w)
  | .check tid manual policy =>
      if (u.threads tid).isIdle then some (u.check tid manual policy) else none
  | .download tid =>
      if (u.threads tid).isIdle then some (u.setThread tid (.checking .download .plan)) else none
  | .install tid => if (u.threads tid).isIdle then some (u.install tid) else none
  | .installOnQuit tid policy =>
      if (u.threads tid).isIdle then some (u.installOnQuit tid policy) else none
  | .cancel tid =>
      if (u.threads tid).isIdle then some (u.setThread tid (.cancelling u.cancel)) else none
  | .skip version w => some (u.skip version w)
  | .run tid event => stepThread sha256 u tid (u.threads tid) event

/-- The updater, from the first session on an empty directory. -/
def updater : Transition.System Updater Label where
  Init u := ∃ version host, u = Updater.new version host
  Step u label v := step sha256 u label = some v

end MqStudio.Update
