import MqStudio.Update.Version

/-!
# Releases

What a check finds out, and what it may do with it: `present.go`, `target.go`,
`mirror.go` and `CheckLatest` of `internal/update`.

The path library and the file system answer through `Host`, a mirror through an
`Answer`: an error, or the manifest `json.Unmarshal` made of its reply.  The
answers of a race arrive in the order the network decides.

* `newer_of_checkLatest`: a release reported as available is newer than the
  running build.
* `not_isPartial_packageName`: a package never has the name of a partial file.
-/

namespace MqStudio.Update

open Lib

/-! ### Failures -/

/-- An error of the updater, as the tree its messages are built from. -/
inductive Error where
  /-- `errors.New(text)`. -/
  | new (text : String)
  /-- An error of the file system, the network or the operating system. -/
  | external (text : String)
  /-- `context.Canceled`, wrapped by whatever noticed it. -/
  | canceled
  /-- `fmt.Errorf("before%wafter", cause)`. -/
  | errorf (before : String) (cause : Error) (after : String)
  /-- `newMirrorFailure(what)`. -/
  | mirrorFailure (what : String)
  /-- `failure.add(mirror, err)`. -/
  | tried (failure : Error) (mirror : String) (err : Error)
  /-- A failure shown under a translation key. -/
  | presented (key : String) (err : Error)
deriving DecidableEq

/-- `errors.Is(err, target)`. -/
def Error.is : Error → Error → Bool
  | .errorf before cause after, target =>
      .errorf before cause after = target || cause.is target
  | .tried failure mirror err, target =>
      .tried failure mirror err = target || failure.is target || err.is target
  | .presented key err, target => .presented key err = target || err.is target
  | err, target => err = target

def errChecksumMismatch : Error := .new "downloaded file does not match its published checksum"
def errNotInstallable : Error := .new "this installation cannot be updated in place"
def errElevationDeclined : Error := .new "the update was not given permission to install"
def errSchemaTooNew : Error := .new "this build is too old to read the release index"

def reasonKeys : List (Error × String) :=
  [(errElevationDeclined, "update.error.elevationDeclined"),
   (errNotInstallable, "update.error.notInstallable"),
   (errSchemaTooNew, "update.error.schemaTooNew")]

def reasonKey (err : Error) : Option String :=
  (reasonKeys.find? fun candidate => err.is candidate.1).map Prod.snd

/-- Whether a failure is under a key already. -/
def Error.isPresented : Error → Bool
  | .presented _ _ => true
  | .errorf _ cause _ => cause.isPresented
  | .tried failure _ err => failure.isPresented || err.isPresented
  | _ => false

/-- Swap a known failure's message for its key. -/
def present (err : Error) : Error :=
  if err.isPresented then err
  else match reasonKey err with
    | some key => .presented key err
    | none => err

/-! ### Where the running build lives -/

inductive Kind where
  | appBundle
  | installer
  | appImage
  | managed
  | unknown
deriving DecidableEq

def Kind.key : Kind → String
  | .appBundle => "appBundle"
  | .installer => "installer"
  | .appImage => "appImage"
  | .managed => "managed"
  | .unknown => "unknown"

inductive Blocker where
  | none
  | packageManager
  | readOnly
  | notPackaged
  | unsupported
deriving DecidableEq

def Blocker.key : Blocker → String
  | .none => ""
  | .packageManager => "packageManager"
  | .readOnly => "readOnly"
  | .notPackaged => "notPackaged"
  | .unsupported => "unsupported"

structure Target where
  os : String
  arch : String
  ext : String
deriving DecidableEq

def Target.packageName (t : Target) (version : String) : String :=
  "mq-studio-" ++ Text.trimPrefix version "v" ++ "-" ++ t.os ++ "-" ++ t.arch ++ "." ++ t.ext

structure Location where
  kind : Kind
  target : Target := ⟨"", "", ""⟩
  root : String := ""
  blocker : Blocker := .none
deriving DecidableEq

def Location.canInstall (l : Location) : Bool := l.blocker = .none

def releaseArch (goarch : String) : Option String :=
  if goarch = "amd64" ∨ goarch = "arm64" then some goarch else none

/-- What `locate` is told: the platform, the executable with the bundle `bundleRoot` finds it in,
the image it was started from, and whether the path to be replaced is writable. -/
structure Host where
  goos : String
  goarch : String
  executable : String
  bundleRoot : String
  appImage : String
  writable : Bool
deriving DecidableEq

def locate (host : Host) : Location :=
  match releaseArch host.goarch with
  | none => { kind := .unknown, blocker := .unsupported }
  | some arch =>
      if host.goos = "darwin" then
        if host.bundleRoot = "" then
          { kind := .unknown, target := ⟨"mac", arch, "dmg"⟩, blocker := .notPackaged }
        else
          { kind := .appBundle, target := ⟨"mac", arch, "dmg"⟩, root := host.bundleRoot
            blocker := if host.writable then .none else .readOnly }
      else if host.goos = "windows" then
        if host.executable = "" then
          { kind := .unknown, target := ⟨"windows", arch, "exe"⟩, blocker := .notPackaged }
        else { kind := .installer, target := ⟨"windows", arch, "exe"⟩, root := host.executable }
      else if host.goos = "linux" then
        if host.appImage = "" then
          { kind := .managed, target := ⟨"linux", arch, "deb"⟩, blocker := .packageManager }
        else
          { kind := .appImage, target := ⟨"linux", arch, "AppImage"⟩, root := host.appImage
            blocker := if host.writable then .none else .readOnly }
      else { kind := .unknown, blocker := .unsupported }

/-! ### Mirrors -/

structure Mirror where
  name : String
  manifestURL : String
  assetBase : String
deriving DecidableEq

def Mirror.valid (m : Mirror) : Bool :=
  m.name ≠ "" && Text.hasPrefix m.manifestURL "https://" && Text.hasPrefix m.assetBase "https://"

def bootstrapMirrors : List Mirror :=
  [{ name := "r2"
     manifestURL := "https://dl.amigoer.com/mq-studio/latest.json"
     assetBase := "https://dl.amigoer.com/mq-studio" },
   { name := "github"
     manifestURL := "https://github.com/amigoer/mq-studio/releases/latest/download/manifest.json"
     assetBase := "https://github.com/amigoer/mq-studio/releases/download" }]

/-- Fold a list of mirrors into the ones already known. -/
def mergeMirrors (known learned : List Mirror) : List Mirror :=
  (known ++ learned).foldl (fun merged mirror =>
    if mirror.valid && !merged.any (·.name = mirror.name) then merged ++ [mirror] else merged) []

def findMirror (mirrors : List Mirror) (name : String) : Option Mirror :=
  mirrors.find? (·.name = name)

/-- The winner first, the rest in preference order. -/
def orderFrom (mirrors : List Mirror) (winner : Mirror) : List Mirror :=
  winner :: mirrors.filter (·.name ≠ winner.name)

/-! ### Manifests -/

structure ManifestFile where
  path : String
  sha256 : String

structure Manifest where
  schema : Int
  version : String
  publishedAt : String
  releaseURL : String
  notes : String
  mirrors : List Mirror
  files : Std.ExtTreeMap String ManifestFile compare

def supportedSchema : Int := 1

/-- The digest length in hexadecimal. -/
def hexSHA256 : Nat := 64

/-- The file entry that a manifest is refused for. -/
def badFile (entry : String × ManifestFile) : Option Error :=
  if entry.2.path = "" then some (.new (entry.1 ++ " has no path in the release index"))
  else if entry.2.sha256.utf8ByteSize ≠ hexSHA256 then
    some (.new (entry.1 ++ " has no usable checksum in the release index"))
  else none

/-- The checks on a manifest that was unmarshalled. -/
def parseManifest (manifest : Manifest) : Except Error Manifest :=
  if supportedSchema < manifest.schema then
    .error (.errorf "" errSchemaTooNew
      (" (schema " ++ String.ofList (Json.intLit manifest.schema) ++
        "); download it from https://mq-studio.amigoer.com/#download"))
  else if manifest.schema < 1 then
    .error (.new "the release index does not say which schema it uses")
  else match parseStableVersion manifest.version with
    | none => .error (.new ("the release index names no stable version: \"" ++ manifest.version ++ "\""))
    | some _ =>
        if manifest.files.isEmpty then .error (.new "the release index lists no packages")
        else match manifest.files.toList.findSome? badFile with
          | some err => .error err
          | none => .ok manifest

/-- What a mirror answered: a failure, or a manifest still to be checked. -/
abbrev Answer := Except Error Manifest

def fetchManifest (answer : Answer) : Except Error Manifest := answer.bind parseManifest

structure Fetched where
  manifest : Manifest
  mirror : Mirror
  order : List Mirror

/-- The first manifest to arrive wins, and one this build cannot read ends the race. -/
def raceFrom (usable : List Mirror) : Error → List (Mirror × Answer) → Except Error Fetched
  | failure, [] => .error failure
  | failure, (mirror, answer) :: rest =>
      match fetchManifest answer with
      | .ok manifest => .ok ⟨manifest, mirror, orderFrom usable mirror⟩
      | .error err =>
          if err.is errSchemaTooNew then .error err
          else raceFrom usable (.tried failure mirror.name err) rest

/-- Race the usable mirrors; `arrivals` are the answers in the order they came. -/
def raceManifest (mirrors : List Mirror) (arrivals : List (Mirror × Answer)) :
    Except Error Fetched :=
  let usable := mirrors.filter Mirror.valid
  if usable = [] then .error (.new "no usable mirror is configured")
  else raceFrom usable (.mirrorFailure "no mirror could be reached")
    (arrivals.filter fun arrival => usable.contains arrival.1)

/-! ### Checking -/

inductive Status where
  | available
  | current
  | ahead
deriving DecidableEq

def statusFromComparison (comparison : Int) : Status :=
  if comparison < 0 then .available else if 0 < comparison then .ahead else .current

structure Result where
  status : Status
  currentVersion : String
  latestVersion : String
  notes : String
  publishedAt : String
  releaseURL : String
  manifest : Manifest
  mirror : Mirror
  order : List Mirror

def invalidVersion (value : String) : Error := .new ("invalid stable SemVer: " ++ value)

/-- Race the mirrors and compare what the winner reports to the running build. -/
def checkLatest (currentVersion : String) (mirrors : List Mirror)
    (arrivals : List (Mirror × Answer)) : Except Error Result :=
  match parseStableVersion currentVersion with
  | none => .error (invalidVersion currentVersion)
  | some current =>
      match raceManifest (if mirrors = [] then bootstrapMirrors else mirrors) arrivals with
      | .error err => .error err
      | .ok fetched =>
          match parseStableVersion fetched.manifest.version with
          | none => .error (invalidVersion fetched.manifest.version)
          | some latest =>
              match compareStable current.normalized latest.normalized with
              | none => .error (invalidVersion current.normalized)
              | some comparison =>
                  .ok
                    { status := statusFromComparison comparison
                      currentVersion := current.normalized
                      latestVersion := latest.normalized
                      notes := Text.trimSpace fetched.manifest.notes
                      publishedAt := Text.trimSpace fetched.manifest.publishedAt
                      releaseURL := Text.trimSpace fetched.manifest.releaseURL
                      manifest := fetched.manifest
                      mirror := fetched.mirror
                      order := fetched.order }

theorem statusFromComparison_eq_available {c : Int} :
    statusFromComparison c = .available ↔ c < 0 := by
  unfold statusFromComparison
  split
  · simp [*]
  · split <;> simp [*]

/-- **A release reported as available is newer than the running build.** -/
theorem newer_of_checkLatest {version : String} {mirrors : List Mirror}
    {arrivals : List (Mirror × Answer)} {result : Result}
    (h : checkLatest version mirrors arrivals = .ok result) (ha : result.status = .available) :
    Newer version result.latestVersion := by
  unfold checkLatest at h
  split at h
  · cases h
  rename_i current hcurrent
  split at h
  · cases h
  split at h
  · cases h
  rename_i latest hlatest
  split at h
  · cases h
  rename_i comparison hcomparison
  obtain rfl := Except.ok.inj h
  refine ⟨comparison, ?_, statusFromComparison_eq_available.mp ha⟩
  rw [← hcomparison, compareStable_normalized hcurrent]

/-! ### Package names -/

/-- The name a package has while it is being written. -/
def partialName (name : String) : String := name ++ ".part"

def IsPartial (name : String) : Prop := ∃ package, name = partialName package

/-- **A build that can update itself never installs from a partial file.** -/
theorem not_isPartial_packageName {host : Host} (h : (locate host).canInstall) (version : String) :
    ¬ IsPartial ((locate host).target.packageName version) := by
  have hext : (locate host).target.ext ∈ ["dmg", "exe", "AppImage"] := by
    unfold locate at h ⊢
    split at h
    · simp [Location.canInstall] at h
    · split at h
      · split at h <;> simp_all [Location.canInstall]
      · split at h
        · split at h <;> simp_all [Location.canInstall]
        · split at h
          · split at h <;> simp_all [Location.canInstall]
          · simp [Location.canInstall] at h
  rintro ⟨package, hp⟩
  unfold Target.packageName partialName at hp
  have hlast := congrArg (fun s => s.toList.reverse.head?) hp
  simp only [List.mem_cons, List.not_mem_nil, or_false] at hext
  rcases hext with he | he | he <;> simp [he] at hlast

end MqStudio.Update
