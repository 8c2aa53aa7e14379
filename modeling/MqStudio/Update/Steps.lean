import MqStudio.Lib.Lock
import MqStudio.Update.Manager

/-!
# What a step of the updater does

Most steps move one thread and touch nothing else but what the renderer draws;
they are a `Move`, and the rest of the state stays as it is (`Quiet`).  The
others are listed one by one in `Does`.

* `does_of_step`: **what any step of the updater does.**
* `Updater.checkFinish_cases`: how a check ends.
* `oneAtATime_of_reachable`: one call at a time holds the busy flag.
* `resting_of_reachable`: while a check or a download is at work, nothing is
  ready.
-/

namespace MqStudio.Update

open Lib Lib.Transition Lib.Lock
open Updater (Fault)

theorem Thread.isIdle_iff {th : Thread} : th.isIdle = true ↔ th = .idle := by
  cases th <;> simp [Thread.isIdle]

@[simp] theorem Updater.setThread_self (u : Updater) (tid : Nat) (th : Thread) :
    (u.setThread tid th).threads tid = th := by
  simp [Updater.setThread]

theorem Updater.setThread_of_ne (u : Updater) {tid i : Nat} (th : Thread) (h : i ≠ tid) :
    (u.setThread tid th).threads i = u.threads i := by
  simp [Updater.setThread, h]

theorem Updater.restoreReady_threads (u : Updater) (found removed : Bool) (w : Write) :
    (u.restoreReady found removed w).threads = u.threads := by
  unfold Updater.restoreReady
  split
  · rfl
  · split <;> rfl

@[simp] theorem Updater.restart_threads (u : Updater) (version : String) (host : Host)
    (readable found removed : Bool) (w : Write) :
    (u.restart version host readable found removed w).threads = fun _ => .idle :=
  Updater.restoreReady_threads _ _ _ _

/-- The mirrors have nothing to do with what is ready or skipped. -/
theorem Updater.rememberMirror_memory (u : Updater) (result : Result) (now : Time) (w : Write) :
    let v := u.rememberMirror result now w
    v.memory.readyPath = u.memory.readyPath ∧ v.memory.readyVersion = u.memory.readyVersion ∧
      v.memory.skipped = u.memory.skipped := by
  unfold Updater.rememberMirror
  split <;> split <;> exact ⟨rfl, rfl, rfl⟩

/-- A call between taking the busy flag and giving it back. -/
def Thread.Holds : Thread → Prop
  | .checking (.check _) _ => True
  | .fetching _ _ => True
  | .releasing _ => True
  | _ => False

/-- A check or a download that has not come to its end. -/
def Thread.Working : Thread → Prop
  | .checking (.check _) _ => True
  | .fetching _ _ => True
  | _ => False

theorem Thread.Working.holds {th : Thread} (h : th.Working) : th.Holds := by
  cases th with
  | checking purpose run => cases purpose <;> exact h
  | fetching => trivial
  | _ => exact h.elim

/-- What a check run has found. -/
def RunCheck.result? : RunCheck → Option Result
  | .remember result => some result
  | .done (.ok result) => some result
  | _ => none

/-! ### Moves -/

section Moves

variable (sha256 : Content → String) (u : Updater)

/-- The stages of `fetch` that change nothing on disk. -/
inductive Advance (job : Job) : Fetch → Fetch → Prop
  | missing {err} (h : job.release.manifest.files[u.packageName job.release]? = none) :
      Advance job .resolve (.done (.error err))
  | sweep {file entries}
      (h : job.release.manifest.files[u.packageName job.release]? = some file) :
      Advance job .resolve (.sweeping (u.packageName job.release) file entries)
  | unswept {file} (h : job.release.manifest.files[u.packageName job.release]? = some file) :
      Advance job .resolve (Updater.firstTurn job (u.packageName job.release) file)
  | swept {name file} : Advance job (.sweeping name file []) (Updater.firstTurn job name file)
  | exhausted {name file failure} : Advance job (.next name file [] failure) (.done (.error failure))
  | turn {name file mirror rest failure} :
      Advance job (.next name file (mirror :: rest) failure)
        (.getting ⟨name, file, mirror, rest, failure⟩)
  | refused {a err} : Advance job (.getting a) (Updater.Attempt.failed a err)
  | verified {a total received since} (h : Text.equalFold (sha256 received) a.file.sha256 = true) :
      Advance job (.streaming a total received since) (.removing a)
  | broken {a total received since err} :
      Advance job (.streaming a total received since) (.cleanup a (some err))
  | unrenamed {a err} : Advance job (.replacing a) (.cleanup a (some err))

/-- The moves of a call that change nothing but the call and what is drawn. -/
inductive Move : Thread → Thread → Prop
  | returned {th result} (h : ¬ th.Holds) : Move th (.returned result)
  | download : Move .idle (.checking .download .plan)
  | cancel {target} : Move .idle (.cancelling target)
  | checking {purpose run run'} (h : run'.result? = none) :
      Move (.checking purpose run) (.checking purpose run')
  | recheck {result} (h : result.status = .available) :
      Move (.checking .download (.done (.ok result))) (.begin result false)
  | fetch {job stage stage'} (h : Advance sha256 u job stage stage') :
      Move (.fetching job stage) (.fetching job stage')
  | failed {job err ret} : Move (.fetching job (.done (.error err))) (.releasing ret)
  | opened {package} : Move (.applying package false) (.applying package true)
  | applied {package opened err} : Move (.applying package opened) (.applied package.quit err)

variable {sha256 u}

theorem Move.holds {th th' : Thread} (h : Move sha256 u th th') : th'.Holds → th.Holds := by
  cases h with
  | @checking purpose run run' h => cases purpose <;> exact id
  | fetch | failed => exact fun _ => trivial
  | _ => exact False.elim

theorem Move.working {th th' : Thread} (h : Move sha256 u th th') : th'.Working → th.Working := by
  cases h with
  | @checking purpose run run' h => cases purpose <;> exact id
  | fetch => exact fun _ => trivial
  | _ => exact False.elim

end Moves

/-- One thread has moved, the renderer may draw something else, and nothing has become ready. -/
structure Quiet (u v : Updater) (tid : Nat) (th : Thread) : Prop where
  threads : v.threads = Function.update u.threads tid th
  version : v.version = u.version
  host : v.host = u.host
  memory : v.memory = u.memory
  busy : v.busy = u.busy
  files : v.files = u.files
  stored : v.stored = u.stored
  checked : v.checked = u.checked
  declined : v.declined = u.declined
  phase : v.state.phase = .ready → u.state.phase = .ready

theorem Quiet.setThread (u : Updater) (tid : Nat) (th : Thread) :
    Quiet u (u.setThread tid th) tid th :=
  ⟨rfl, rfl, rfl, rfl, rfl, rfl, rfl, rfl, rfl, id⟩

theorem Quiet.draw (u : Updater) (tid : Nat) (th : Thread) {state : State}
    (h : state.phase = .ready → u.state.phase = .ready) :
    Quiet u ({ u with state := state }.setThread tid th) tid th :=
  ⟨rfl, rfl, rfl, rfl, rfl, rfl, rfl, rfl, rfl, h⟩

theorem Quiet.setError (u : Updater) (tid : Nat) (th : Thread) (step : FailedStep) (err : Error) :
    Quiet u ((u.setError step err).setThread tid th) tid th :=
  Quiet.draw u tid th (fun h => by cases h)

/-- A thread has taken the busy flag. -/
structure Acquires (u v : Updater) (tid : Nat) (th : Thread) : Prop where
  free : u.busy = false
  busy : v.busy = true
  threads : v.threads = Function.update u.threads tid th
  version : v.version = u.version
  host : v.host = u.host
  memory : v.memory = u.memory
  files : v.files = u.files
  stored : v.stored = u.stored
  checked : v.checked = u.checked
  declined : v.declined = u.declined
  phase : v.state.phase ≠ .ready

/-- The stages of `fetch` that remove a file. -/
inductive Removes : Fetch → Fetch → String → Prop
  | sweep {name file entry entries} :
      Removes (.sweeping name file (entry :: entries)) (.sweeping name file entries) entry
  | removeOld {a} : Removes (.removing a) (.replacing a) a.name
  | renamed {a} : Removes (.cleanup a none) (.done (.ok a.name)) (partialName a.name)
  | failed {a err} :
      Removes (.cleanup a (some err)) (Updater.Attempt.failed a err) (partialName a.name)

/-- The stages of `fetch` that write to the partial file. -/
inductive Writes : Fetch → Attempt → Prop
  | create {a} : Writes (.getting a) a
  | append {a total received since} : Writes (.streaming a total received since) a

/-! ### The end of a check -/

/-- What the last section of a check leaves of the state, but for its own thread. -/
structure Concluded (u : Updater) (manual : Bool) (outcome : Except Error Result)
    (v : Updater) : Prop where
  version : v.version = u.version
  host : v.host = u.host
  files : v.files = u.files
  checked : v.checked = u.checked
  threads : v.threads = u.threads
  busy : v.busy = false
  readyPath : v.memory.readyPath = u.memory.readyPath
  readyVersion : v.memory.readyVersion = u.memory.readyVersion
  stored : v.stored = u.stored ∨ v.stored = some v.memory ∨ v.stored = none
  phase : v.state.phase = .ready → u.state.phase = .ready
  skipped : (v.memory.skipped = u.memory.skipped ∧ v.declined = u.declined) ∨
    ∃ result, outcome = .ok result ∧ manual = true ∧ u.memory.skipped = result.latestVersion ∧
      v.memory.skipped = "" ∧ v.declined = u.declined.filter (· ≠ result.latestVersion)

theorem Updater.writeMemory_cases (u : Updater) (w : Write) :
    (u.writeMemory w).stored = u.stored ∨ (u.writeMemory w).stored = some u.memory ∨
      (u.writeMemory w).stored = none := by
  cases w with
  | landed => exact Or.inr (Or.inl rfl)
  | kept => exact Or.inl rfl
  | lost => exact Or.inr (Or.inr rfl)

theorem Updater.noteResult_skipped (u : Updater) (manual : Bool) (result : Result) (now : Time)
    (w : Write) :
    ((u.noteResult manual result now w).memory.skipped = u.memory.skipped ∧
        (u.noteResult manual result now w).declined = u.declined) ∨
      (manual = true ∧ u.memory.skipped = result.latestVersion ∧
        (u.noteResult manual result now w).memory.skipped = "" ∧
        (u.noteResult manual result now w).declined =
          u.declined.filter (· ≠ result.latestVersion)) := by
  by_cases hb : u.takesBack manual result = true
  · have hb' : ((u.noteCheck now).takesBack manual result) = true := hb
    simp only [takesBack, Bool.and_eq_true, decide_eq_true_eq] at hb
    refine Or.inr ⟨hb.1.1, hb.2, ?_, ?_⟩
    · exact if_pos hb'
    · exact if_pos hb'
  · have hb' : ¬ ((u.noteCheck now).takesBack manual result) = true := hb
    exact Or.inl ⟨if_neg hb', if_neg hb'⟩

/-- A check ends quietly, or, where it may, with a download in a thread of its own. -/
theorem Updater.checkFinish_cases (u : Updater) (tid : Nat) (manual : Bool)
    (outcome : Except Error Result) (policy shown : Policy) (now : Time) (w : Write)
    (spawn : Nat) :
    (∃ v ret, Concluded u manual outcome v ∧
      u.checkFinish tid manual outcome policy shown now w spawn = v.setThread tid (.returned ret)) ∨
    ∃ v ret result, outcome = .ok result ∧ result.status = .available ∧
      v.state.phase = .available ∧ v.autoDownload policy result = true ∧
      Concluded u manual outcome v ∧
      u.checkFinish tid manual outcome policy shown now w spawn =
        (v.setThread tid (.returned ret)).setThread spawn (.begin result true) := by
  cases outcome with
  | error err =>
    refine Or.inl ⟨((u.noteCheck now).writeMemory w).setError .check err, _, ?_, rfl⟩
    exact ⟨rfl, rfl, rfl, rfl, rfl, rfl, rfl, rfl, (u.noteCheck now).writeMemory_cases w,
      (fun h => by cases h), Or.inl ⟨rfl, rfl⟩⟩
  | ok result =>
    have hnoted : ∀ st : State, (st.phase = .ready → u.state.phase = .ready) →
        Concluded u manual (.ok result)
          { u.noteResult manual result now w with state := st } := by
      intro st hst
      refine ⟨rfl, rfl, rfl, rfl, rfl, rfl, rfl, rfl, ?_, hst, ?_⟩
      · exact Updater.writeMemory_cases _ w
      · rcases u.noteResult_skipped manual result now w with h | ⟨hm, hs, hv, hd⟩
        · exact Or.inl h
        · exact Or.inr ⟨result, rfl, hm, hs, hv, hd⟩
    unfold checkFinish
    dsimp only
    split
    · exact Or.inl ⟨_, _, hnoted _ (fun h => by cases h), rfl⟩
    · rename_i hstatus
      split
      · refine Or.inl ⟨_, _, hnoted _ ?_, rfl⟩
        exact id
      · split
        · rename_i hauto
          exact Or.inr ⟨_, _, result, rfl, not_not.mp hstatus, rfl, hauto,
            hnoted _ (fun h => by cases h), rfl⟩
        · exact Or.inl ⟨_, _, hnoted _ (fun h => by cases h), rfl⟩

/-! ### Every step -/

/-- What a step does. -/
inductive Does (sha256 : Content → String) (u : Updater) : Label → Updater → Prop
  | quiet {label tid th v} (hm : Move sha256 u (u.threads tid) th) (hq : Quiet u v tid th) :
      Does sha256 u label v
  | restart {version host readable found removed w} :
      Does sha256 u (.restart version host readable found removed w)
        (u.restart version host readable found removed w)
  | check {tid manual policy v} (h : u.threads tid = .idle)
      (ha : Acquires u v tid (.checking (.check manual) .plan)) :
      Does sha256 u (.check tid manual policy) v
  | begin {tid release auto v} (h : u.threads tid = .begin release auto)
      (hi : u.location.canInstall = true)
      (ha : Acquires u v tid (.fetching ⟨release, auto, false⟩ .resolve)) :
      Does sha256 u (.run tid .begin) v
  | install {tid v} (h : u.threads tid = .idle) (hr : u.isReady = true)
      (hq : Quiet u v tid (.applying (u.readyPackage false) false))
      (hp : v.state.phase = .installing) : Does sha256 u (.install tid) v
  | installOnQuit {tid v} (h : u.threads tid = .idle) (hr : u.isReady = true)
      (hq : Quiet u v tid (.applying (u.readyPackage true) false)) :
      Does sha256 u (.installOnQuit tid .auto) v
  | skip {version w} : Does sha256 u (.skip version w) (u.skip version w)
  | answered {label tid purpose run mirrors arrivals result}
      (h : u.threads tid = .checking purpose run)
      (hc : checkLatest u.version mirrors arrivals = .ok result) :
      Does sha256 u label ({ u with checked := result.manifest :: u.checked }.setThread tid
        (.checking purpose (.remember result)))
  | remember {label tid purpose result now w}
      (h : u.threads tid = .checking purpose (.remember result)) :
      Does sha256 u label ((u.rememberMirror result now w).setThread tid
        (.checking purpose (.done (.ok result))))
  | checkFinish {tid manual outcome policy shown now w spawn}
      (h : u.threads tid = .checking (.check manual) (.done outcome))
      (hs : u.threads spawn = .idle) :
      Does sha256 u (.run tid (.checkFinish policy shown now w spawn))
        (u.checkFinish tid manual outcome policy shown now w spawn)
  | removes {label tid job stage stage' name removed} (h : u.threads tid = .fetching job stage)
      (hr : Removes stage stage' name) :
      Does sha256 u label ((u.remove removed name).setThread tid (.fetching job stage'))
  | writes {label tid job stage a content total since state}
      (h : u.threads tid = .fetching job stage) (hw : Writes stage a)
      (hp : state.phase = u.state.phase) :
      Does sha256 u label
        ({ u with files := u.files.insert (partialName a.name) content, state := state }.setThread
          tid (.fetching job (.streaming a total content since)))
  | rename {label tid job a content} (h : u.threads tid = .fetching job (.replacing a))
      (hc : u.files[partialName a.name]? = some content) :
      Does sha256 u label
        ({ u with files := (u.files.erase (partialName a.name)).insert a.name content }.setThread
          tid (.fetching job (.cleanup a none)))
  | downloaded {label tid job path w} (h : u.threads tid = .fetching job (.done (.ok path))) :
      Does sha256 u label
        ((u.recordReady job.release.latestVersion path w).setThread tid (.releasing none))
  | release {tid err} (h : u.threads tid = .releasing err) :
      Does sha256 u (.run tid .release) (u.release tid err)
  | cancelFire {tid d job stage} (h : u.threads tid = .cancelling (some d))
      (hd : u.threads d = .fetching job stage) :
      Does sha256 u (.run tid .cancelFire) ((u.setThread tid (.returned (.done none))).setThread d
        (.fetching { job with cancelled := true } stage))
  | installed {label tid quit removed w th} (h : u.threads tid = .applied quit none)
      (hth : (∃ result, th = .returned result) ∨ th = .relaunching) :
      Does sha256 u label ((u.forgetReady removed w).setThread tid th)

variable {sha256 : Content → String} {u : Updater} {label : Label} {tid : Nat}

/-- A move of a thread in a known state. -/
theorem Does.move {v : Updater} {th th' : Thread} (h : u.threads tid = th')
    (hm : Move sha256 u th' th) (hq : Quiet u v tid th) : Does sha256 u label v :=
  .quiet (by rw [h]; exact hm) hq

/-- A move that leaves even the drawing alone. -/
theorem Does.stay {th th' : Thread} (h : u.threads tid = th') (hm : Move sha256 u th' th) :
    Does sha256 u label (u.setThread tid th) :=
  .move h hm (Quiet.setThread u tid th)

theorem does_check {manual : Bool} {policy : Policy} (h : u.threads tid = .idle) :
    Does sha256 u (.check tid manual policy) (u.check tid manual policy) := by
  unfold Updater.check
  split
  · exact .stay h (.returned id)
  · split
    · exact .stay h (.returned id)
    · rename_i hb
      refine .check h ?_
      exact ⟨Bool.eq_false_iff.mpr hb, rfl, rfl, rfl, rfl, rfl, rfl, rfl, rfl, rfl, by
        simp [Updater.setThread]⟩

theorem does_install (h : u.threads tid = .idle) :
    Does sha256 u (.install tid) (u.install tid) := by
  unfold Updater.install
  split
  · rename_i hr
    exact .install h hr (Quiet.draw u tid _ fun h => by cases h) rfl
  · exact .stay h (.returned id)

theorem does_installOnQuit {policy : Policy} (h : u.threads tid = .idle) :
    Does sha256 u (.installOnQuit tid policy) (u.installOnQuit tid policy) := by
  unfold Updater.installOnQuit
  split
  · exact .stay h (.returned id)
  · rename_i hr
    simp only [Bool.or_eq_true, Bool.not_eq_true', decide_eq_true_eq, not_or, Bool.not_eq_false,
      ne_eq, not_not] at hr
    obtain ⟨hr, rfl⟩ := hr
    exact .installOnQuit h hr (Quiet.setThread u tid _)

theorem does_ask {purpose : Purpose} {run : RunCheck} {mirrors : List Mirror}
    {arrivals : List (Mirror × Answer)} {otherwise : Error → RunCheck}
    (h : u.threads tid = .checking purpose run) (ho : ∀ err, (otherwise err).result? = none) :
    Does sha256 u label (u.ask tid purpose mirrors arrivals otherwise) := by
  unfold Updater.ask
  split
  · rename_i hc
    exact .answered h hc
  · exact .stay h (.checking (ho _))

theorem does_planned {purpose : Purpose} {now : Time}
    (h : u.threads tid = .checking purpose .plan) :
    Does sha256 u label (u.planned tid purpose now) := by
  unfold Updater.planned
  refine .stay h (.checking ?_)
  split <;> rfl

theorem does_recheckFinish {outcome : Except Error Result}
    (h : u.threads tid = .checking .download (.done outcome)) :
    Does sha256 u label (u.recheckFinish tid outcome) := by
  unfold Updater.recheckFinish
  split
  · exact .move h (.returned id) (Quiet.setError u tid _ _ _)
  · split
    · exact .stay h (.returned id)
    · rename_i hs
      exact .stay h (.recheck (not_not.mp hs))

theorem does_begin {release : Result} {auto : Bool} (h : u.threads tid = .begin release auto) :
    Does sha256 u (.run tid .begin) (u.begin tid release auto) := by
  unfold Updater.begin
  split
  · exact .stay h (.returned id)
  · rename_i hb
    split
    · exact .move h (.returned id) (Quiet.setError u tid _ _ _)
    · rename_i hi
      simp only [Bool.not_eq_true', Bool.not_eq_false] at hi
      refine .begin h hi ?_
      exact ⟨Bool.eq_false_iff.mpr hb, rfl, rfl, rfl, rfl, rfl, rfl, rfl, rfl, rfl, by
        simp [Updater.setThread]⟩

theorem does_resolve {job : Job} {readDir : Bool} (h : u.threads tid = .fetching job .resolve) :
    Does sha256 u label (u.resolve tid job readDir) := by
  unfold Updater.resolve
  dsimp only
  split
  · rename_i hf
    exact .stay h (.fetch (.missing hf))
  · rename_i hf
    split
    · exact .stay h (.fetch (.sweep hf))
    · exact .stay h (.fetch (.unswept hf))

theorem does_sweep {job : Job} {name : String} {file : ManifestFile} {entries : List String}
    {removed : Bool} (h : u.threads tid = .fetching job (.sweeping name file entries)) :
    Does sha256 u label (u.sweep tid job name file entries removed) := by
  unfold Updater.sweep
  split
  · exact .removes h .sweep
  · exact .stay h (.fetch .swept)

theorem does_attempt {job : Job} {name : String} {file : ManifestFile} {mirrors : List Mirror}
    {failure : Error} (h : u.threads tid = .fetching job (.next name file mirrors failure)) :
    Does sha256 u label (u.attempt tid job name file mirrors failure) := by
  unfold Updater.attempt
  split
  · exact .stay h (.fetch .exhausted)
  · exact .move h (.fetch .turn) (Quiet.draw u tid _ id)

theorem does_get {job : Job} {a : Attempt} {response : Except Fault Int}
    (h : u.threads tid = .fetching job (.getting a)) :
    Does sha256 u label (u.get tid job a response) := by
  unfold Updater.get
  split
  · exact .stay h (.fetch .refused)
  · split
    · exact .stay h (.fetch .refused)
    · exact .writes h .create rfl

theorem does_chunk {job : Job} {a : Attempt} {total : Int} {received bytes : Content} {since : Nat}
    (h : u.threads tid = .fetching job (.streaming a total received since)) :
    Does sha256 u label (u.chunk tid job a total received since bytes) := by
  unfold Updater.chunk
  dsimp only
  split
  · exact .writes h .append rfl
  · exact .writes h .append rfl

theorem does_eof {job : Job} {a : Attempt} {total : Int} {received : Content} {since : Nat}
    {close : Option Fault}
    (h : u.threads tid = .fetching job (.streaming a total received since)) :
    Does sha256 u label (u.eof sha256 tid job a total received close) := by
  unfold Updater.eof
  dsimp only
  split
  · exact .move h (.fetch .broken) (Quiet.draw u tid _ id)
  · split
    · rename_i hd
      exact .move h (.fetch (.verified hd)) (Quiet.draw u tid _ id)
    · exact .move h (.fetch .broken) (Quiet.draw u tid _ id)

theorem does_rename {job : Job} {a : Attempt} {fault : Option Fault}
    (h : u.threads tid = .fetching job (.replacing a)) :
    Does sha256 u label (u.rename tid job a fault) := by
  unfold Updater.rename
  split
  · exact .stay h (.fetch .unrenamed)
  · exact .stay h (.fetch .unrenamed)
  · rename_i hc
    exact .rename h hc

theorem does_cleanup {job : Job} {a : Attempt} {err : Option Error} {removed : Bool}
    (h : u.threads tid = .fetching job (.cleanup a err)) :
    Does sha256 u label (u.cleanup tid job a err removed) := by
  cases err with
  | none => exact .removes h .renamed
  | some err => exact .removes h .failed

theorem does_downloadFinish {job : Job} {outcome : Except Error String} {w : Write}
    (h : u.threads tid = .fetching job (.done outcome)) :
    Does sha256 u label (u.downloadFinish tid job outcome w) := by
  unfold Updater.downloadFinish
  split
  · split
    · exact .move h .failed (Quiet.draw u tid _ fun h => by cases h)
    · exact .move h .failed (Quiet.setError u tid _ _ _)
  · exact .downloaded h

theorem does_cancelFire {target : Option Nat} (h : u.threads tid = .cancelling target) :
    Does sha256 u (.run tid .cancelFire) (u.cancelFire tid target) := by
  have hstay : Does sha256 u (.run tid .cancelFire) (u.setThread tid (.returned (.done none))) :=
    .stay h (.returned (by exact id))
  unfold Updater.cancelFire
  dsimp only
  split
  · exact hstay
  · rename_i d
    split
    · rename_i job stage hd
      have hne : d ≠ tid := by
        rintro rfl
        rw [Updater.setThread_self] at hd
        cases hd
      rw [Updater.setThread_of_ne _ _ hne] at hd
      exact .cancelFire h hd
    · exact hstay

theorem does_apply {package : Package} {found : Bool}
    (h : u.threads tid = .applying package false) :
    Does sha256 u label (u.apply tid package found) := by
  unfold Updater.apply
  split
  · exact .stay h .applied
  · split
    · exact .stay h .applied
    · split <;> first | exact .stay h .opened | exact .stay h .applied

theorem does_installFinish {quit : Bool} {err : Option Error} {removed : Bool} {w : Write}
    (h : u.threads tid = .applied quit err) :
    Does sha256 u label (u.installFinish tid quit err removed w) := by
  unfold Updater.installFinish
  split
  · split
    · exact .stay h (.returned id)
    · exact .move h (.returned id) (Quiet.setError u tid _ _ _)
  · dsimp only
    split
    · exact .installed h (Or.inl ⟨_, rfl⟩)
    · exact .installed h (Or.inr rfl)

/-- **What any step of the updater does.** -/
theorem does_of_step {v : Updater} (h : step sha256 u label = some v) : Does sha256 u label v := by
  have hidle : ∀ {tid : Nat} {w : Updater},
      (if (u.threads tid).isIdle then some w else none) = some v →
      u.threads tid = .idle ∧ w = v := by
    intro tid w hw
    split at hw
    · rename_i hi
      exact ⟨Thread.isIdle_iff.mp hi, Option.some.inj hw⟩
    · cases hw
  have hrun : ∀ {tid : Nat} {th : Thread} {event : Event}, u.threads tid = th →
      stepThread sha256 u tid th event = some v → Does sha256 u (.run tid event) v := by
    intro tid th event ht hw
    unfold stepThread at hw
    split at hw
    · unfold stepCheck at hw
      split at hw
      · exact Option.some.inj hw ▸ does_planned ht
      · exact Option.some.inj hw ▸ does_ask ht fun _ => rfl
      · exact Option.some.inj hw ▸ does_ask ht fun _ => rfl
      · exact Option.some.inj hw ▸ .remember ht
      · split at hw
        · split at hw
          · rename_i hs
            exact Option.some.inj hw ▸ .checkFinish ht (Thread.isIdle_iff.mp hs)
          · cases hw
        · cases hw
      · split at hw
        · cases hw
        · exact Option.some.inj hw ▸ does_recheckFinish ht
      · cases hw
    · exact Option.some.inj hw ▸ does_begin ht
    · unfold stepFetch at hw
      split at hw
      · exact Option.some.inj hw ▸ does_resolve ht
      · exact Option.some.inj hw ▸ does_sweep ht
      · exact Option.some.inj hw ▸ does_attempt ht
      · split at hw
        · exact Option.some.inj hw ▸ does_get ht
        · cases hw
      · exact Option.some.inj hw ▸ does_get ht
      · exact Option.some.inj hw ▸ does_chunk ht
      · exact Option.some.inj hw ▸ does_eof ht
      · split at hw
        · exact Option.some.inj hw ▸ .stay ht (.fetch .broken)
        · cases hw
      · exact Option.some.inj hw ▸ .removes ht .removeOld
      · exact Option.some.inj hw ▸ does_rename ht
      · exact Option.some.inj hw ▸ does_cleanup ht
      · exact Option.some.inj hw ▸ does_downloadFinish ht
      · cases hw
    · exact Option.some.inj hw ▸ .release ht
    · exact Option.some.inj hw ▸ does_cancelFire ht
    · exact Option.some.inj hw ▸ does_apply ht
    · exact Option.some.inj hw ▸ .stay ht .applied
    · exact Option.some.inj hw ▸ does_installFinish ht
    · exact Option.some.inj hw ▸ .stay ht (.returned id)
    · cases hw
  cases label with
  | restart => exact Option.some.inj h ▸ .restart
  | check tid manual policy =>
    obtain ⟨ht, rfl⟩ := hidle h
    exact does_check ht
  | download tid =>
    obtain ⟨ht, rfl⟩ := hidle h
    exact .stay ht .download
  | install tid =>
    obtain ⟨ht, rfl⟩ := hidle h
    exact does_install ht
  | installOnQuit tid policy =>
    obtain ⟨ht, rfl⟩ := hidle h
    exact does_installOnQuit ht
  | cancel tid =>
    obtain ⟨ht, rfl⟩ := hidle h
    exact .stay ht .cancel
  | skip => exact Option.some.inj h ▸ .skip
  | run tid event => exact hrun rfl h

/-! ### The busy flag -/

/-- One call at a time holds the busy flag. -/
def OneAtATime (u : Updater) : Prop := Guarded Thread.Holds u.busy u.threads

theorem OneAtATime.does {v : Updater} (h : OneAtATime u) (hd : Does sha256 u label v) :
    OneAtATime v := by
  have hkeep : ∀ {w : Updater} {i : Nat} {th th' : Thread}, OneAtATime w → w.threads i = th' →
      (th.Holds → th'.Holds) → OneAtATime (w.setThread i th) :=
    fun hw ht hh => Guarded.keep hw fun hx => by rw [ht]; exact hh hx
  have hquiet : ∀ {w : Updater} {i : Nat} {th : Thread}, Quiet u w i th →
      (th.Holds → (u.threads i).Holds) → OneAtATime w := by
    intro w i th hq hh
    rw [OneAtATime, hq.busy, hq.threads]
    exact Guarded.keep h hh
  have hacquire : ∀ {w : Updater} {i : Nat} {th : Thread}, Acquires u w i th → OneAtATime w := by
    intro w i th ha
    rw [OneAtATime, ha.busy, ha.threads]
    rw [OneAtATime, ha.free] at h
    exact h.acquire
  cases hd with
  | quiet hm hq => exact hquiet hq hm.holds
  | restart =>
    rw [OneAtATime, Updater.restart_threads]
    exact Guarded.none fun _ => id
  | check _ ha => exact hacquire ha
  | begin _ _ ha => exact hacquire ha
  | install _ _ hq => exact hquiet hq False.elim
  | installOnQuit _ _ hq => exact hquiet hq False.elim
  | skip => exact h
  | @answered _ tid purpose _ _ _ result ht _ =>
    exact hkeep (w := { u with checked := result.manifest :: u.checked }) h ht
      (by cases purpose <;> exact id)
  | @remember _ tid purpose _ _ _ ht =>
    exact hkeep (w := u.rememberMirror _ _ _) h ht (by cases purpose <;> exact id)
  | @checkFinish tid manual outcome policy shown now w spawn ht hs =>
    have hi : (u.threads tid).Holds := by rw [ht]; trivial
    have hdone : ∀ result, Guarded Thread.Holds false
        (Function.update u.threads tid (.returned result)) := fun _ => h.release hi id _
    rcases u.checkFinish_cases tid manual outcome policy shown now w spawn with
      ⟨x, ret, hx, he⟩ | ⟨x, ret, result, -, -, -, -, hx, he⟩
    · rw [he, OneAtATime, Updater.setThread, hx.busy, hx.threads]
      exact hdone _
    · -- The download that is spawned does not hold the flag yet.
      rw [he, OneAtATime, Updater.setThread, Updater.setThread, hx.busy, hx.threads]
      exact Guarded.keep (hdone _) False.elim
  | removes ht _ => exact hkeep (w := u.remove _ _) h ht id
  | writes ht _ _ => exact hkeep (w := { u with files := _, state := _ }) h ht id
  | rename ht _ => exact hkeep (w := { u with files := _ }) h ht id
  | downloaded ht => exact hkeep (w := u.recordReady _ _ _) h ht id
  | release ht => exact h.release (by rw [ht]; trivial) id _
  | @cancelFire tid d job stage ht hd' =>
    have h' : OneAtATime (u.setThread tid (.returned (.done none))) := hkeep h ht id
    have hne : d ≠ tid := by
      rintro rfl
      rw [ht] at hd'
      cases hd'
    exact hkeep h' ((u.setThread_of_ne _ hne).trans hd') id
  | installed ht hth =>
    rcases hth with ⟨result, rfl⟩ | rfl
    · exact hkeep (w := u.forgetReady _ _) h ht id
    · exact hkeep (w := u.forgetReady _ _) h ht id

/-- **One call at a time holds the busy flag**, in every run. -/
theorem oneAtATime_of_reachable (h : Reachable (updater sha256) u) : OneAtATime u := by
  refine h.inv (P := OneAtATime) ?_ fun u label v hu hs => hu.does (does_of_step hs)
  rintro u ⟨version, host, rfl⟩
  exact Guarded.none fun _ => id

/-! ### What is at work, and what is ready -/

/-- Where a package is ready, nothing is at work. -/
def Resting (u : Updater) : Prop := u.state.phase = .ready → ∀ i, ¬ (u.threads i).Working

theorem Resting.keep {v : Updater} {th th' : Thread} (h : Resting u) (ht : u.threads tid = th')
    (hv : v.threads = Function.update u.threads tid th)
    (hp : v.state.phase = .ready → u.state.phase = .ready) (hw : th.Working → th'.Working) :
    Resting v := by
  intro hphase i hi
  rw [hv] at hi
  by_cases hit : i = tid
  · subst hit
    rw [Function.update_self] at hi
    exact h (hp hphase) i (by rw [ht]; exact hw hi)
  · rw [Function.update_of_ne hit] at hi
    exact h (hp hphase) i hi

theorem Resting.does {v : Updater} (h : Resting u) (hu : OneAtATime u)
    (hd : Does sha256 u label v) : Resting v := by
  cases hd with
  | quiet hm hq => exact h.keep rfl hq.threads hq.phase hm.working
  | restart =>
    intro _ i hi
    rw [Updater.restart_threads] at hi
    exact hi
  | check _ ha => exact fun hr => absurd hr ha.phase
  | begin _ _ ha => exact fun hr => absurd hr ha.phase
  | install ht _ hq => exact h.keep ht hq.threads hq.phase id
  | installOnQuit ht _ hq => exact h.keep ht hq.threads hq.phase id
  | skip => exact h
  | @answered _ tid purpose _ _ _ _ ht => exact h.keep ht rfl id (by cases purpose <;> exact id)
  | @remember _ tid purpose _ _ _ ht => exact h.keep ht rfl id (by cases purpose <;> exact id)
  | @checkFinish tid manual outcome policy shown now w spawn ht hs =>
    rcases u.checkFinish_cases tid manual outcome policy shown now w spawn with
      ⟨x, ret, hx, he⟩ | ⟨x, ret, result, -, -, hp, -, hx, he⟩
    · rw [he]
      exact h.keep ht (by rw [← hx.threads]; rfl) hx.phase False.elim
    · rw [he]
      intro hr
      cases hp.symm.trans hr
  | removes ht _ => exact h.keep ht rfl id id
  | writes ht _ hp => exact h.keep ht rfl (fun hr => hp.symm.trans hr) id
  | rename ht _ => exact h.keep ht rfl id id
  | @downloaded _ tid job path w ht =>
    -- The package is ready, and the download was the only call at work.
    intro _ i hi
    by_cases hit : i = tid
    · subst hit
      rw [Updater.setThread_self] at hi
      exact hi
    · rw [Updater.setThread_of_ne _ _ hit] at hi
      exact hu.not_holds_of_ne (by rw [ht]; trivial) hit hi.holds
  | release ht => exact h.keep ht rfl id id
  | @cancelFire tid d job stage ht hd' =>
    have h' : Resting (u.setThread tid (.returned (.done none))) := h.keep ht rfl id id
    have hne : d ≠ tid := by
      rintro rfl
      rw [ht] at hd'
      cases hd'
    exact h'.keep ((u.setThread_of_ne _ hne).trans hd') rfl id id
  | installed ht _ => exact fun hr => by cases hr

/-- **While a check or a download is at work nothing is ready**, in every run. -/
theorem resting_of_reachable (h : Reachable (updater sha256) u) : Resting u := by
  refine h.inv_of (Q := OneAtATime) oneAtATime_of_reachable ?_
    fun u label v hu hr hs => hr.does hu (does_of_step hs)
  rintro u ⟨version, host, rfl⟩
  exact fun _ _ => id

end MqStudio.Update
