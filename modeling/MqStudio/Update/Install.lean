import MqStudio.Update.Verified

/-!
# What a check and a download do to a ready package

`Check` writes its own phase over `ready` before it asks whether the phase is
still `ready`, and `Install` does not take the busy flag.

* `check_never_keeps_ready`: a check that reports the very release that is ready
  always loses it.
* `untouched_of_undisturbed`: `Apply` has its file to itself in every run in which
  no download of a listed package takes the busy flag while it works.
-/

namespace MqStudio.Update

open Lib Lib.Transition Lib.Lock

variable {sha256 : Content → String} {u v : Updater} {label : Label} {tid : Nat}

/-! ### A check loses what is ready -/

/-- The verified package of a version is recorded, on disk, and ready. -/
structure ReadyFor (u : Updater) (version : String) : Prop where
  phase : u.state.phase = .ready
  recorded : u.memory.readyVersion = version
  path : u.memory.readyPath ≠ ""
  onDisk : ∃ content, u.files[u.memory.readyPath]? = some content

/-- A check that was started in `u` and reports a release as the newest, from `s` to `t`. -/
structure Reports (sha256 : Content → String) (u s t : Updater) (tid spawn : Nat)
    (version : String) : Prop where
  started : ∃ manual policy labels, Path (updater sha256) u (.check tid manual policy :: labels) s
  found : ∃ manual result, s.threads tid = .checking (.check manual) (.done (.ok result)) ∧
    result.status = .available ∧ result.latestVersion = version
  finished : ∃ policy shown now w,
    step sha256 s (.run tid (.checkFinish policy shown now w spawn)) = some t

/-- The ready package has survived: it is ready, nothing is downloaded, and `Install` applies it. -/
structure Survived (t : Updater) (spawn : Nat) : Prop where
  phase : t.state.phase = .ready
  quiet : t.threads spawn = .idle
  installs : ∀ i, t.threads i = .idle → ∃ package, (t.install i).threads i = .applying package false

theorem checkFinish_available {manual : Bool} {result : Result} {policy shown : Policy} {now : Time}
    {w : Write} {spawn : Nat} (hp : u.state.phase ≠ .ready) (hs : result.status = .available) :
    (u.checkFinish tid manual (.ok result) policy shown now w spawn).state.phase = .available := by
  unfold Updater.checkFinish
  dsimp only
  rw [if_neg (not_not.mpr hs), if_neg fun h => hp h.1]
  split <;> rfl

/-- **A check never keeps what is ready**: where it reports a release, be it the one whose package
was ready when it started, nothing is ready afterwards, whatever else runs in between. -/
theorem check_never_keeps_ready {s t : Updater} {spawn : Nat} {version : String}
    (hu : Reachable (updater sha256) u) (hr : Reports sha256 u s t tid spawn version) :
    ¬ Survived t spawn := by
  obtain ⟨manual, policy, labels, hpath⟩ := hr.started
  obtain ⟨manual', result, ht, hs, -⟩ := hr.found
  obtain ⟨policy', shown, now, w, hf⟩ := hr.finished
  -- The check itself is at work, so nothing is ready when it comes to its end.
  have hphase : s.state.phase ≠ .ready := fun hp =>
    resting_of_reachable (hpath.reachable hu) hp tid (by rw [ht]; trivial)
  have hstep : step sha256 s (.run tid (.checkFinish policy' shown now w spawn)) =
      if (s.threads spawn).isIdle then
        some (s.checkFinish tid manual' (.ok result) policy' shown now w spawn)
      else none := by
    rw [step, ht]
    rfl
  rw [hstep] at hf
  split at hf
  · obtain rfl := Option.some.inj hf
    intro hsurv
    have havail : (s.checkFinish tid manual' (.ok result) policy' shown now w spawn).state.phase =
        .available := checkFinish_available hphase hs
    cases havail.symm.trans hsurv.phase
  · cases hf

/-- What a call has found to be available. -/
def Updater.reported (u : Updater) (tid : Nat) : Option String :=
  match u.threads tid with
  | .checking (.check _) (.done (.ok result)) =>
      if result.status = .available then some result.latestVersion else none
  | _ => none

theorem reported_eq_some {version : String} (h : u.reported tid = some version) :
    ∃ manual result, u.threads tid = .checking (.check manual) (.done (.ok result)) ∧
      result.status = .available ∧ result.latestVersion = version := by
  unfold Updater.reported at h
  split at h
  · rename_i manual result ht
    split at h
    · rename_i hs
      exact ⟨manual, result, ht, hs, Option.some.inj h⟩
    · cases h
  · cases h

/-- The file that is ready for a version. -/
def Updater.readyContent (u : Updater) (version : String) : Option Content :=
  if u.state.phase = .ready ∧ u.memory.readyVersion = version ∧ u.memory.readyPath ≠ "" then
    u.files[u.memory.readyPath]?
  else none

theorem readyFor_of_readyContent {version : String} {content : Content}
    (h : u.readyContent version = some content) : ReadyFor u version := by
  unfold Updater.readyContent at h
  split at h
  · rename_i hr
    exact ⟨hr.1, hr.2.1, hr.2.2, content, h⟩
  · cases h

/-- A scheduled check of the release that is ready. -/
theorem reports_sample : ∃ u s t, Reachable (updater sampleSha256) u ∧ ReadyFor u "9.9.9" ∧
    Reports sampleSha256 u s t 2 3 "9.9.9" ∧ t.state.phase = .available := by
  have hrun : ((sampleRun (checkFor 0 1 false .download ++ fetchBy 1)).bind fun u =>
      (runSteps (step sampleSha256) u ((checkFor 2 3 false .download).take 4)).bind fun s =>
      (step sampleSha256 s (.run 2 (.checkFinish .notify .notify 0 .landed 3))).map fun t =>
        (u.readyContent "9.9.9", s.reported 2, t.state.phase)) =
      some (some abc, some "9.9.9", .available) := by decide +kernel
  obtain ⟨u, hu, h⟩ := Option.bind_eq_some_iff.mp hrun
  obtain ⟨s, hs, h⟩ := Option.bind_eq_some_iff.mp h
  obtain ⟨t, ht, h⟩ := Option.map_eq_some_iff.mp h
  simp only [Prod.mk.injEq] at h
  obtain ⟨hready, hrep, ht'⟩ := h
  refine ⟨u, s, t, reachable_sampleRun hu, readyFor_of_readyContent hready, ?_, ht'⟩
  exact ⟨⟨false, .download, _, Path.of_runSteps (S := updater sampleSha256) id hs⟩,
    reported_eq_some hrep, ⟨_, _, _, _, ht⟩⟩

theorem check_loses_ready_sample : ∃ u s t, Reachable (updater sampleSha256) u ∧
    ReadyFor u "9.9.9" ∧ Reports sampleSha256 u s t 2 3 "9.9.9" ∧ ¬ Survived t 3 := by
  obtain ⟨u, s, t, hu, hready, hr, -⟩ := reports_sample
  exact ⟨u, s, t, hu, hready, hr, check_never_keeps_ready hu hr⟩

theorem ready_lost_to_check :
    ¬ ∀ (u s t : Updater) (tid spawn : Nat) (version : String),
      Reachable (updater sampleSha256) u → ReadyFor u version →
      Reports sampleSha256 u s t tid spawn version → Survived t spawn := by
  intro h
  obtain ⟨u, s, t, hu, hready, hr, hp⟩ := reports_sample
  cases hp.symm.trans (h u s t 2 3 "9.9.9" hu hready hr).phase

/-! ### An installation has its file to itself -/

/-- `Apply` has been called and has not returned. -/
def Thread.Applying : Thread → Prop
  | .applying _ _ => True
  | _ => False

/-- An installation that has not recorded how it ended. -/
def Thread.Installing : Thread → Prop
  | .applying _ _ => True
  | .applied _ _ => True
  | _ => False

theorem Thread.Applying.installing {th : Thread} (h : th.Applying) : th.Installing := by
  cases th with
  | applying => trivial
  | _ => exact h.elim

/-- `Install`, `Check` and `Download` are called, and one `Install` at a time. -/
def OneInstall (u : Updater) : Label → Prop
  | .install _ => ∀ i, ¬ (u.threads i).Installing
  | .installOnQuit _ _ => False
  | _ => True

/-- A download of the release takes the busy flag, and has a package to fetch. -/
def Fetches (u : Updater) (release : Result) : Prop :=
  u.busy = false ∧ u.location.canInstall = true ∧
    release.manifest.files[u.packageName release]? ≠ none

/-- No download that has a package to fetch takes the busy flag while `Apply` works. -/
def Undisturbed (u : Updater) : Label → Prop
  | .run tid .begin => (∃ i, (u.threads i).Applying) → ∀ release auto,
      u.threads tid = .begin release auto → ¬ Fetches u release
  | _ => True

/-- Installations one at a time, checks, and downloads that leave `Apply` alone. -/
def undisturbed (sha256 : Content → String) : System Updater Label :=
  (updater sha256).guard fun u label => OneInstall u label ∧ Undisturbed u label

/-- A stage of `fetch` that has no package and touches no file. -/
def Fetch.Empty (u : Updater) (release : Result) : Fetch → Prop
  | .resolve => release.manifest.files[u.packageName release]? = none
  | .done (.error _) => True
  | _ => False

theorem Advance.empty {job : Job} {stage stage' : Fetch} (h : Advance sha256 u job stage stage')
    (hs : stage.Empty u job.release) : stage'.Empty u job.release := by
  cases h with
  | missing => trivial
  | sweep hf | unswept hf => exact nomatch hs.symm.trans hf
  | _ => exact hs.elim

/-- One installation at a time, and while `Apply` works nothing is ready and nothing is fetched. -/
structure Alone (u : Updater) : Prop where
  unique : Guarded Thread.Installing true u.threads
  unready : (∃ i, (u.threads i).Applying) → u.state.phase ≠ .ready
  empty : (∃ i, (u.threads i).Applying) → ∀ i job stage, u.threads i = .fetching job stage →
    stage.Empty u job.release

theorem Move.applying {th th' : Thread} (h : Move sha256 u th th') :
    th'.Applying → th.Applying := by
  cases h with
  | opened => exact id
  | _ => exact False.elim

theorem Move.installing {th th' : Thread} (h : Move sha256 u th th') :
    th'.Installing → th.Installing := by
  cases h with
  | opened | applied => exact fun _ => trivial
  | _ => exact False.elim

/-- One thread moves, and the installations stay as they are. -/
theorem Alone.keep {th th' : Thread} (h : Alone u) (ht : u.threads tid = th')
    (hv : v.threads = Function.update u.threads tid th) (hh : v.host = u.host)
    (hi : th.Installing → th'.Installing) (ha : th.Applying → th'.Applying)
    (hp : v.state.phase = .ready → u.state.phase = .ready)
    (he : (∃ i, (u.threads i).Applying) → ∀ job stage, th = .fetching job stage →
      stage.Empty u job.release) : Alone v := by
  have hback : (∃ i, (v.threads i).Applying) → ∃ i, (u.threads i).Applying := by
    rintro ⟨i, hx⟩
    rw [hv] at hx
    by_cases hit : i = tid
    · subst hit
      rw [Function.update_self] at hx
      exact ⟨i, by rw [ht]; exact ha hx⟩
    · rw [Function.update_of_ne hit] at hx
      exact ⟨i, hx⟩
  have hempty : ∀ {release : Result} {stage : Fetch}, stage.Empty u release →
      stage.Empty v release := by
    intro release stage hs
    cases stage with
    | resolve =>
      change release.manifest.files[v.packageName release]? = none
      rw [Updater.packageName, Updater.location, hh]
      exact hs
    | done outcome => cases outcome <;> exact hs
    | _ => exact hs
  refine ⟨?_, fun hx hr => h.unready (hback hx) (hp hr), fun hx i job stage hf => hempty ?_⟩
  · rw [hv]
    exact h.unique.keep fun hx => by rw [ht]; exact hi hx
  · rw [hv] at hf
    by_cases hit : i = tid
    · subst hit
      rw [Function.update_self] at hf
      exact he (hback hx) job stage hf
    · rw [Function.update_of_ne hit] at hf
      exact h.empty (hback hx) i job stage hf

/-- A download that is past the listing of its package excludes any installation. -/
theorem Alone.not_applying {job : Job} {stage : Fetch} (h : Alone u)
    (ht : u.threads tid = .fetching job stage) (hs : ¬ stage.Empty u job.release) (i : Nat) :
    ¬ (u.threads i).Applying :=
  fun hi => hs (h.empty ⟨i, hi⟩ tid job stage ht)

/-- Where nothing is applied, one thread that does not apply either may do anything else. -/
theorem Alone.of_not_applying {th th' : Thread} (h : Alone u) (ht : u.threads tid = th')
    (hv : v.threads = Function.update u.threads tid th) (hi : th.Installing → th'.Installing)
    (hth : ¬ th.Applying) (hn : ∀ i ≠ tid, ¬ (u.threads i).Applying) : Alone v := by
  have hnone : ¬ ∃ i, (v.threads i).Applying := by
    rintro ⟨i, hx⟩
    rw [hv] at hx
    by_cases hit : i = tid
    · subst hit
      rw [Function.update_self] at hx
      exact hth hx
    · rw [Function.update_of_ne hit] at hx
      exact hn i hit hx
  refine ⟨?_, fun hx => absurd hx hnone, fun hx => absurd hx hnone⟩
  rw [hv]
  exact h.unique.keep fun hx => by rw [ht]; exact hi hx

theorem Removes.not_empty {release : Result} {stage stage' : Fetch} {name : String}
    (h : Removes stage stage' name) : ¬ stage.Empty u release := by
  cases h <;> exact id

theorem Writes.not_empty {release : Result} {stage : Fetch} {a : Attempt}
    (h : Writes stage a) : ¬ stage.Empty u release := by
  cases h <;> exact id

theorem Alone.does (h : Alone u) (hu : Resting u) (hd : Does sha256 u label v)
    (hone : OneInstall u label) (hundisturbed : Undisturbed u label) : Alone v := by
  cases hd with
  | @quiet _ tid th _ hm hq =>
    refine h.keep rfl hq.threads hq.host hm.installing hm.applying hq.phase fun hx job stage he => ?_
    subst he
    generalize hth : u.threads tid = th' at hm
    cases hm with
    | fetch hadv => exact hadv.empty (h.empty hx tid _ _ hth)
  | @restart version host readable found removed w =>
    have hidle : ∀ i, ¬ ((u.restart version host readable found removed w).threads i).Installing := by
      intro i
      rw [Updater.restart_threads]
      exact id
    exact ⟨Guarded.none hidle, fun ⟨i, hi⟩ => absurd hi.installing (hidle i),
      fun ⟨i, hi⟩ => absurd hi.installing (hidle i)⟩
  | check ht ha =>
    exact h.keep ht ha.threads ha.host id id (fun hr => absurd hr ha.phase)
      fun _ _ _ he => by cases he
  | @begin tid release auto _ ht hi ha =>
    refine h.keep ht ha.threads ha.host id id (fun hr => absurd hr ha.phase) fun hx job stage he => ?_
    obtain ⟨rfl, rfl⟩ := Thread.fetching.inj he
    by_contra hn
    exact hundisturbed hx release auto ht ⟨ha.free, hi, hn⟩
  | @install tid _ ht hr hq hp =>
    simp only [Updater.isReady, Bool.and_eq_true, decide_eq_true_eq] at hr
    refine ⟨?_, (fun _ hr' => by cases hp.symm.trans hr'), fun _ i job stage hf => ?_⟩
    · have hnone : Guarded Thread.Installing false u.threads := Guarded.none hone
      rw [hq.threads]
      exact hnone.acquire
    · -- Something was ready, so nothing was at work.
      rw [hq.threads] at hf
      by_cases hit : i = tid
      · subst hit
        rw [Function.update_self] at hf
        cases hf
      · rw [Function.update_of_ne hit] at hf
        exact absurd (by rw [hf]; trivial) (hu hr.1 i)
  | installOnQuit => exact hone.elim
  | skip => exact ⟨h.unique, h.unready, h.empty⟩
  | @answered _ tid purpose _ _ _ result ht _ =>
    exact h.keep ht rfl rfl id id id fun _ _ _ he => by cases he
  | @remember _ tid purpose _ _ _ ht =>
    exact h.keep ht rfl rfl id id id fun _ _ _ he => by cases he
  | @checkFinish tid manual outcome policy shown now w spawn ht hs =>
    have hstay : ∀ {x ret}, Concluded u manual outcome x → Alone (x.setThread tid (.returned ret)) := by
      intro x ret hx
      exact h.keep ht (by rw [← hx.threads]; rfl) hx.host False.elim False.elim hx.phase
        fun _ _ _ he => by cases he
    rcases u.checkFinish_cases tid manual outcome policy shown now w spawn with
      ⟨x, ret, hx, he⟩ | ⟨x, ret, result, -, -, -, -, hx, he⟩
    · rw [he]
      exact hstay hx
    · rw [he]
      exact (hstay hx).keep rfl rfl rfl False.elim False.elim id fun _ _ _ he => by cases he
  | removes ht hr =>
    exact h.of_not_applying ht rfl id id fun i _ => h.not_applying ht hr.not_empty i
  | writes ht hw _ =>
    exact h.of_not_applying ht rfl id id fun i _ => h.not_applying ht hw.not_empty i
  | rename ht _ =>
    exact h.of_not_applying ht rfl id id fun i _ => h.not_applying ht id i
  | downloaded ht =>
    exact h.of_not_applying ht rfl id id fun i _ => h.not_applying ht id i
  | release ht => exact h.keep ht rfl rfl id id id fun _ _ _ he => by cases he
  | @cancelFire tid d job stage ht hd' =>
    have h' : Alone (u.setThread tid (.returned (.done none))) :=
      h.keep ht rfl rfl id id id fun _ _ _ he => by cases he
    have hne : d ≠ tid := by
      rintro rfl
      rw [ht] at hd'
      cases hd'
    have hd'' := (u.setThread_of_ne (.returned (.done none)) hne).trans hd'
    refine h'.keep hd'' rfl rfl id id id fun hx job' stage' he => ?_
    obtain ⟨rfl, rfl⟩ := Thread.fetching.inj he
    exact h'.empty hx d job stage hd''
  | @installed _ tid quit removed w th ht hth =>
    -- The installation that ends is the only one.
    have hn : ∀ i ≠ tid, ¬ (u.threads i).Applying := fun i hi hx =>
      h.unique.not_holds_of_ne (i := tid) (by rw [ht]; trivial) hi hx.installing
    rcases hth with ⟨result, rfl⟩ | rfl
    · exact h.of_not_applying ht rfl False.elim id hn
    · exact h.of_not_applying ht rfl False.elim id hn

/-- A step of the session, as opposed to the start of the next one. -/
def Label.inSession : Label → Bool
  | .restart .. => false
  | _ => true

theorem Alone.files_eq (h : Alone u) (hd : Does sha256 u label v) (hs : label.inSession = true)
    (hx : ∃ i, (u.threads i).Applying) : v.files = u.files := by
  obtain ⟨i, hi⟩ := hx
  cases hd with
  | quiet _ hq => exact hq.files
  | restart => cases hs
  | check _ ha => exact ha.files
  | begin _ _ ha => exact ha.files
  | install _ _ hq => exact hq.files
  | installOnQuit _ _ hq => exact hq.files
  | checkFinish =>
    rcases u.checkFinish_cases _ _ _ _ _ _ _ _ with
      ⟨x, ret, hx, he⟩ | ⟨x, ret, result, -, -, -, -, hx, he⟩ <;> rw [he] <;> exact hx.files
  | removes ht hr => exact absurd hi (h.not_applying ht hr.not_empty i)
  | writes ht hw _ => exact absurd hi (h.not_applying ht hw.not_empty i)
  | rename ht _ => exact absurd hi (h.not_applying ht id i)
  | @installed _ tid _ _ _ _ ht _ =>
    have : i = tid := h.unique.unique i tid hi.installing (by rw [ht]; trivial)
    subst this
    rw [ht] at hi
    exact hi.elim
  | _ => rfl

/-- `Apply` runs once at a time, and while it runs no step of the session removes or rewrites the
file at its path, and none is about to rename another file onto it. -/
structure Untouched (sha256 : Content → String) (u : Updater) : Prop where
  once : ∀ i j, (u.threads i).Applying → (u.threads j).Applying → i = j
  kept : ∀ i package opened, u.threads i = .applying package opened → ∀ label v,
    label.inSession = true → step sha256 u label = some v →
    v.files[package.path]? = u.files[package.path]?
  unreplaced : ∀ i package opened, u.threads i = .applying package opened → ∀ j job a,
    u.threads j = .fetching job (.replacing a) → a.name ≠ package.path

theorem Alone.untouched (h : Alone u) : Untouched sha256 u := by
  refine ⟨fun i j hi hj => h.unique.unique i j hi.installing hj.installing, ?_, ?_⟩
  · intro i package opened hi label v hs hv
    rw [h.files_eq (does_of_step hv) hs ⟨i, by rw [hi]; trivial⟩]
  · intro i package opened hi j job a hj
    exact absurd (by rw [hi]; trivial) (h.not_applying hj id i)

theorem alone_of_reachable (h : Reachable (undisturbed sha256) u) : Alone u := by
  refine h.inv_of (Q := fun u => Reachable (updater sha256) u) Reachable.of_guard ?_ ?_
  · rintro u ⟨version, host, rfl⟩
    exact ⟨Guarded.none fun _ => id, fun ⟨_, hi⟩ => hi.elim, fun ⟨_, hi⟩ => hi.elim⟩
  · intro u label v hu ha hs
    exact ha.does (resting_of_reachable hu) (does_of_step hs.1) hs.2.1 hs.2.2

/-- **`Apply` has its file to itself** in every run of installations one at a time, checks and
downloads in which no download that has a package to fetch takes the busy flag while `Apply`
works. -/
theorem untouched_of_undisturbed (h : Reachable (undisturbed sha256) u) : Untouched sha256 u :=
  (alone_of_reachable h).untouched

/-- Whether a label calls `Install` or `InstallOnQuit`. -/
def Label.installs : Label → Bool
  | .install _ => true
  | .installOnQuit _ _ => true
  | _ => false

/-- No installation begins but by a call of it. -/
theorem Does.no_installing (hd : Does sha256 u label v) (h : ∀ i, ¬ (u.threads i).Installing)
    (hl : label.installs = false) (i : Nat) : ¬ (v.threads i).Installing := by
  have hkeep : ∀ {x y : Updater} {tid : Nat} {th : Thread}, (∀ i, ¬ (x.threads i).Installing) →
      y.threads = Function.update x.threads tid th → ¬ th.Installing →
      ∀ i, ¬ (y.threads i).Installing := by
    intro x y tid th hx hy hth i
    rw [hy]
    by_cases hit : i = tid
    · subst hit
      rwa [Function.update_self]
    · rw [Function.update_of_ne hit]
      exact hx i
  cases hd with
  | quiet hm hq => exact hkeep h hq.threads (fun hx => h _ (hm.installing hx)) i
  | restart =>
    rw [Updater.restart_threads]
    exact id
  | check _ ha => exact hkeep h ha.threads id i
  | begin _ _ ha => exact hkeep h ha.threads id i
  | install => cases hl
  | installOnQuit => cases hl
  | skip => exact h i
  | checkFinish =>
    rcases u.checkFinish_cases _ _ _ _ _ _ _ _ with
      ⟨x, ret, hx, he⟩ | ⟨x, ret, result, -, -, -, -, hx, he⟩
    · rw [he]
      exact hkeep (by rw [hx.threads]; exact h) rfl id i
    · rw [he]
      exact hkeep (hkeep (by rw [hx.threads]; exact h) rfl id) rfl id i
  | cancelFire => exact hkeep (hkeep h rfl id) rfl id i
  | installed ht _ => exact absurd (by rw [ht]; trivial) (h _)
  | _ => exact hkeep h rfl id i

theorem undisturbed_of_no_installing (h : ∀ i, ¬ (u.threads i).Installing)
    (hl : label.installs = false) : OneInstall u label ∧ Undisturbed u label := by
  constructor
  · cases label with
    | install | installOnQuit => cases hl
    | _ => trivial
  · cases label with
    | run tid event =>
      cases event with
      | begin => exact fun ⟨i, hi⟩ => absurd hi.installing (h i)
      | _ => trivial
    | _ => trivial

/-- While nothing is installed, every run without an installation is undisturbed. -/
theorem Path.undisturbed {labels : List Label} (h : Path (updater sha256) u labels v)
    (hu : ∀ i, ¬ (u.threads i).Installing) (hl : ∀ label ∈ labels, label.installs = false) :
    Path (undisturbed sha256) u labels v ∧ ∀ i, ¬ (v.threads i).Installing :=
  h.guard hu (fun _ label hm _ hx hs => (does_of_step hs).no_installing hx (hl label hm))
    fun _ label hm hx => undisturbed_of_no_installing hx (hl label hm)

/-- `Install` reads the path of the package that is ready. -/
theorem untouched_sample : ∃ u package, Reachable (undisturbed sampleSha256) u ∧
    u.threads 2 = .applying package false ∧ Untouched sampleSha256 u := by
  have hrun : (sampleRun (checkFor 0 1 false .download ++ fetchBy 1)).map
      (fun u => (u.isReady, (u.threads 2).isIdle)) = some (true, true) := by decide +kernel
  obtain ⟨u, hu, h⟩ := Option.map_eq_some_iff.mp hrun
  obtain ⟨hready, hidle⟩ := Prod.mk.inj h
  obtain ⟨hpath, hnone⟩ := Path.undisturbed (Path.of_runSteps (S := updater sampleSha256) id hu)
    (fun _ => id) (by decide)
  have hreach := hpath.reachable (.init ⟨_, _, rfl⟩)
  have hstep : step sampleSha256 u (.install 2) = some (u.install 2) := if_pos hidle
  have hinstall : Reachable (undisturbed sampleSha256) (u.install 2) :=
    hreach.step ⟨hstep, hnone, trivial⟩
  refine ⟨u.install 2, u.readyPackage false, hinstall, ?_, untouched_of_undisturbed hinstall⟩
  rw [Updater.install, if_pos hready, Updater.setThread_self]

/-- A download the user presses for, up to the removal of the file that is in its way. -/
def redownloadBy (tid : Nat) : List Label :=
  [.download tid, .run tid (.plan 0), .run tid (.answer [(sampleMirror, .ok sampleManifest)]),
    .run tid (.remember 0 .landed), .run tid .recheckFinish] ++ (fetchBy tid).take 7

/-- A run without an installation is a run with one at a time. -/
theorem Path.oneInstall {labels : List Label} (h : Path (updater sha256) u labels v)
    (hl : ∀ label ∈ labels, label.installs = false) :
    Path ((updater sha256).guard OneInstall) u labels v := by
  refine (h.guard (P := fun _ => True) trivial (fun _ _ _ _ _ _ => trivial) ?_).1
  intro u label hm _
  have := hl label hm
  cases label with
  | install | installOnQuit => cases this
  | _ => trivial

/-- A download of the release that is being applied removes the file under it. -/
theorem applied_file_removed :
    ¬ ∀ u, Reachable ((updater sampleSha256).guard OneInstall) u → Untouched sampleSha256 u := by
  intro hall
  have hrun : ((sampleRun (checkFor 0 1 false .download ++ fetchBy 1)).bind fun u =>
      (runSteps (step sampleSha256) (u.install 2) (.run 2 (.apply true) :: redownloadBy 3)).bind
        fun v => (step sampleSha256 v (.run 3 (.removeOld true))).map fun w =>
          ((u.threads 2).isIdle, (v.applies 2).map (·.1), v.files.contains macPackage,
            w.files.contains macPackage)) =
      some (true, some macPackage, true, false) := by
    decide +kernel
  obtain ⟨u, hu, h⟩ := Option.bind_eq_some_iff.mp hrun
  obtain ⟨v, hv, h⟩ := Option.bind_eq_some_iff.mp h
  obtain ⟨w, hw, h⟩ := Option.map_eq_some_iff.mp h
  simp only [Prod.mk.injEq] at h
  obtain ⟨hidle, happlies, hthere, hgone⟩ := h
  have hu' := Path.of_runSteps (S := updater sampleSha256) id hu
  have hv' := Path.of_runSteps (S := updater sampleSha256) id hv
  -- One installation in the whole run, and nothing is installed before it.
  have hstep : step sampleSha256 u (.install 2) = some (u.install 2) := if_pos hidle
  have hreach : Reachable ((updater sampleSha256).guard OneInstall) v :=
    (Path.oneInstall hv' (by decide)).reachable
      (((Path.oneInstall hu' (by decide)).reachable (.init ⟨_, _, rfl⟩)).step
        ⟨hstep, (Path.undisturbed hu' (fun _ => id) (by decide)).2⟩)
  unfold Updater.applies at happlies
  split at happlies
  · rename_i package opened ht
    have hpath : package.path = macPackage := Option.some.inj happlies
    have hkept := (hall v hreach).kept 2 package opened ht _ w rfl hw
    rw [hpath] at hkept
    rw [Std.ExtTreeMap.contains_eq_isSome_getElem?, hkept,
      ← Std.ExtTreeMap.contains_eq_isSome_getElem?] at hgone
    exact absurd (hthere.symm.trans hgone) (by decide)
  · cases happlies

end MqStudio.Update
