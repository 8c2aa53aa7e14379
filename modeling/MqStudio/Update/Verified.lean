import MqStudio.Lib.Maps
import MqStudio.Update.Steps

/-!
# Only a verified newer package is applied

The invariant `Verified` of every run, sessions and restarts included: a file
that is not a partial one has the digest some accepted manifest lists for its
name, what is recorded as ready is newer than the running build, and each call
holds what its place in the code has made sure of (`Thread.Sound`).  A call
that reads or writes a partial file holds the busy flag, so no other call
touches it.

* `verified_of_reachable`: the invariant.
* `applies_verified_newer`: whenever `Apply` is called or running, the file at
  its path, if there is one, is attested, and the recorded version is newer.
-/

namespace MqStudio.Update

open Lib Lib.Transition

variable (sha256 : Content → String)

/-- Some accepted manifest lists the digest of a package under its name. -/
def Attests (checked : List Manifest) (name : String) (content : Content) : Prop :=
  ∃ manifest ∈ checked, ∃ file, manifest.files[name]? = some file ∧
    Text.equalFold (sha256 content) file.sha256 = true

/-- A result that a check has found. -/
structure Found (u : Updater) (result : Result) : Prop where
  checked : result.manifest ∈ u.checked
  newer : result.status = .available → Newer u.version result.latestVersion

/-- The package a download is for. -/
structure Turned (release : Result) (name : String) (file : ManifestFile) : Prop where
  listed : release.manifest.files[name]? = some file
  whole : ¬ IsPartial name

/-- The partial file has the digest that is listed. -/
def Digested (u : Updater) (a : Attempt) : Prop :=
  ∃ content, u.files[partialName a.name]? = some content ∧
    Text.equalFold (sha256 content) a.file.sha256 = true

/-- What a stage of `fetch` has made sure of. -/
def Fetch.Sound (u : Updater) (release : Result) : Fetch → Prop
  | .resolve => True
  | .sweeping name file _ => Turned release name file
  | .next name file _ _ => Turned release name file
  | .getting a => Turned release a.name a.file
  | .streaming a _ received _ =>
      Turned release a.name a.file ∧ u.files[partialName a.name]? = some received
  | .removing a => Turned release a.name a.file ∧ Digested sha256 u a
  | .replacing a => Turned release a.name a.file ∧ Digested sha256 u a
  | .cleanup a _ => Turned release a.name a.file
  | .done (.ok path) => ¬ IsPartial path
  | .done (.error _) => True

/-- What a call has made sure of. -/
def Thread.Sound (u : Updater) : Thread → Prop
  | .checking _ run => ∀ result, run.result? = some result → Found u result
  | .begin release _ => Found u release ∧ release.status = .available
  | .fetching job stage => u.location.canInstall = true ∧ Found u job.release ∧
      job.release.status = .available ∧ stage.Sound sha256 u job.release
  | .applying package _ => ¬ IsPartial package.path ∧ Newer u.version package.version
  | _ => True

/-- The invariant of every run. -/
structure Verified (u : Updater) : Prop where
  files : ∀ name content, u.files[name]? = some content → ¬ IsPartial name →
    Attests sha256 u.checked name content
  ready : u.memory.readyPath ≠ "" → ¬ IsPartial u.memory.readyPath ∧
    Newer u.version u.memory.readyVersion
  stored : ∀ memory, u.stored = some memory → memory.readyPath ≠ "" →
    ¬ IsPartial memory.readyPath
  threads : ∀ tid, (u.threads tid).Sound sha256 u

variable {sha256} {u v : Updater} {tid : Nat} {th : Thread}

/-! ### What a call has made sure of stays so -/

theorem Found.mono {result : Result} (h : Found u result) (hv : v.version = u.version)
    (hc : u.checked ⊆ v.checked) : Found v result :=
  ⟨hc h.checked, fun ha => by rw [hv]; exact h.newer ha⟩

theorem Fetch.Sound.mono {release : Result} {stage : Fetch} (h : stage.Sound sha256 u release)
    (hf : ∀ name, v.files[partialName name]? = u.files[partialName name]?) :
    stage.Sound sha256 v release := by
  cases stage with
  | streaming a total received since => exact ⟨h.1, (hf a.name).trans h.2⟩
  | removing a => exact ⟨h.1, by rw [Digested, hf]; exact h.2⟩
  | replacing a => exact ⟨h.1, by rw [Digested, hf]; exact h.2⟩
  | done outcome => cases outcome <;> exact h
  | _ => exact h

/-- A call keeps what it has made sure of while the session lasts and, if it holds the busy flag,
while nobody touches a partial file. -/
theorem Thread.Sound.mono (h : th.Sound sha256 u) (hv : v.version = u.version)
    (hh : v.host = u.host) (hc : u.checked ⊆ v.checked)
    (hf : th.Holds → ∀ name, v.files[partialName name]? = u.files[partialName name]?) :
    th.Sound sha256 v := by
  cases th with
  | checking purpose run => exact fun result hr => (h result hr).mono hv hc
  | begin release auto => exact ⟨h.1.mono hv hc, h.2⟩
  | fetching job stage =>
    obtain ⟨hi, hfound, ha, hs⟩ := h
    refine ⟨?_, hfound.mono hv hc, ha, hs.mono (hf trivial)⟩
    rw [Updater.location, hh]
    exact hi
  | applying package opened => exact ⟨h.1, by rw [hv]; exact h.2⟩
  | _ => trivial

/-! ### One call moves -/

theorem Attempt.failed_sound {release : Result} {a : Attempt} {err : Error}
    (h : Turned release a.name a.file) :
    (Updater.Attempt.failed a err).Sound sha256 u release := by
  unfold Updater.Attempt.failed
  split
  · trivial
  · exact h

theorem Advance.sound {job : Job} {stage stage' : Fetch} (h : Advance sha256 u job stage stage')
    (hi : u.location.canInstall = true) (hs : stage.Sound sha256 u job.release) :
    stage'.Sound sha256 u job.release := by
  have hwhole : ¬ IsPartial (u.packageName job.release) := not_isPartial_packageName hi _
  cases h with
  | missing => trivial
  | sweep h => exact ⟨h, hwhole⟩
  | unswept h => exact ⟨h, hwhole⟩
  | swept => exact hs
  | exhausted => trivial
  | turn => exact hs
  | refused => exact Attempt.failed_sound hs
  | verified h => exact ⟨hs.1, _, hs.2, h⟩
  | broken => exact hs.1
  | unrenamed => exact hs.1

theorem Move.sound {th' : Thread} (h : Move sha256 u th th') (hs : th.Sound sha256 u) :
    th'.Sound sha256 u := by
  cases h with
  | checking h =>
    intro result hr
    rw [h] at hr
    cases hr
  | download =>
    intro result hr
    cases hr
  | recheck h => exact ⟨hs _ rfl, h⟩
  | fetch h => exact ⟨hs.1, hs.2.1, hs.2.2.1, h.sound hs.1 hs.2.2.2⟩
  | opened => exact hs
  | _ => trivial

/-- One call has moved: what it has made sure of, and what has become of the disk and the
record. -/
theorem Verified.keep (h : Verified sha256 u) (ht : v.threads = Function.update u.threads tid th)
    (hv : v.version = u.version) (hh : v.host = u.host) (hc : u.checked ⊆ v.checked)
    (hth : th.Sound sha256 v)
    (hothers : ∀ i ≠ tid, (u.threads i).Holds → ∀ name,
      v.files[partialName name]? = u.files[partialName name]?)
    (hfiles : ∀ name content, v.files[name]? = some content → ¬ IsPartial name →
      u.files[name]? = some content ∨ Attests sha256 v.checked name content)
    (hready : v.memory.readyPath ≠ "" → ¬ IsPartial v.memory.readyPath ∧
      Newer v.version v.memory.readyVersion)
    (hstored : v.stored = u.stored ∨ v.stored = some v.memory ∨ v.stored = none) :
    Verified sha256 v := by
  refine ⟨?_, hready, ?_, ?_⟩
  · intro name content hn hp
    rcases hfiles name content hn hp with hu | ha
    · obtain ⟨manifest, hm, hx⟩ := h.files name content hu hp
      exact ⟨manifest, hc hm, hx⟩
    · exact ha
  · intro memory hm hp
    rcases hstored with hs | hs | hs
    · exact h.stored memory (hs ▸ hm) hp
    · obtain rfl := Option.some.inj (hs.symm.trans hm)
      exact (hready hp).1
    · cases hs.symm.trans hm
  · intro i
    rw [ht]
    by_cases hi : i = tid
    · subst hi
      rw [Function.update_self]
      exact hth
    · rw [Function.update_of_ne hi]
      exact (h.threads i).mono hv hh hc (hothers i hi)

/-- As `Verified.keep`, where neither the disk nor the record changes. -/
theorem Verified.stay (h : Verified sha256 u) (ht : v.threads = Function.update u.threads tid th)
    (hv : v.version = u.version) (hh : v.host = u.host) (hc : u.checked ⊆ v.checked)
    (hth : th.Sound sha256 v) (hf : v.files = u.files)
    (hp : v.memory.readyPath = u.memory.readyPath)
    (hr : v.memory.readyVersion = u.memory.readyVersion)
    (hstored : v.stored = u.stored ∨ v.stored = some v.memory ∨ v.stored = none) :
    Verified sha256 v := by
  refine h.keep ht hv hh hc hth (fun _ _ _ name => by rw [hf]) ?_ ?_ hstored
  · intro name content hn _
    exact Or.inl (hf ▸ hn)
  · rw [hp, hr, hv]
    exact h.ready

theorem Verified.quiet (h : Verified sha256 u) (hq : Quiet u v tid th)
    (hth : th.Sound sha256 u) : Verified sha256 v :=
  h.stay hq.threads hq.version hq.host (by rw [hq.checked]; exact fun _ => id)
    (hth.mono hq.version hq.host (by rw [hq.checked]; exact fun _ => id)
      fun _ name => by rw [hq.files])
    hq.files (by rw [hq.memory]) (by rw [hq.memory]) (Or.inl hq.stored)

theorem Verified.acquires (h : Verified sha256 u) (ha : Acquires u v tid th)
    (hth : th.Sound sha256 u) : Verified sha256 v :=
  h.stay ha.threads ha.version ha.host (by rw [ha.checked]; exact fun _ => id)
    (hth.mono ha.version ha.host (by rw [ha.checked]; exact fun _ => id)
      fun _ name => by rw [ha.files])
    ha.files (by rw [ha.memory]) (by rw [ha.memory]) (Or.inl ha.stored)

/-! ### The disk changes -/

theorem partialName_ne {name : String} (h : ¬ IsPartial name) (other : String) :
    partialName other ≠ name := by
  rintro rfl
  exact h ⟨other, rfl⟩

theorem Removes.sound {release : Result} {stage stage' : Fetch} {name : String}
    (h : Removes stage stage' name) (hs : stage.Sound sha256 u release) (removed : Bool) :
    stage'.Sound sha256 (u.remove removed name) release := by
  cases h with
  | sweep => exact hs
  | @removeOld a =>
    refine ⟨hs.1, ?_⟩
    obtain ⟨content, hc, hd⟩ := hs.2
    refine ⟨content, ?_, hd⟩
    cases removed with
    | false => exact hc
    | true =>
      change (u.files.erase a.name)[partialName a.name]? = some content
      rw [Maps.getElem?_erase, if_neg (partialName_ne hs.1.whole _).symm]
      exact hc
  | renamed => exact hs.whole
  | failed => exact Attempt.failed_sound hs

theorem getElem?_remove {removed : Bool} {name other : String} {content : Content}
    (h : (u.remove removed name).files[other]? = some content) :
    u.files[other]? = some content := by
  cases removed with
  | false => exact h
  | true =>
    change (u.files.erase name)[other]? = some content at h
    rw [Maps.getElem?_erase] at h
    split at h
    · cases h
    · exact h

/-- The call that holds the busy flag has moved, and changed the disk. -/
theorem Verified.work (h : Verified sha256 u) (hu : OneAtATime u) {job : Job} {stage : Fetch}
    (ht : u.threads tid = .fetching job stage)
    (hv : v.threads = Function.update u.threads tid th) (hversion : v.version = u.version)
    (hhost : v.host = u.host) (hchecked : v.checked = u.checked) (hmemory : v.memory = u.memory)
    (hstored : v.stored = u.stored) (hth : th.Sound sha256 v)
    (hfiles : ∀ name content, v.files[name]? = some content → ¬ IsPartial name →
      u.files[name]? = some content ∨ Attests sha256 v.checked name content) :
    Verified sha256 v := by
  refine h.keep hv hversion hhost (by rw [hchecked]; exact fun _ => id) hth ?_ hfiles ?_
    (Or.inl hstored)
  · intro i hi hholds
    exact absurd hholds (hu.not_holds_of_ne (by rw [ht]; trivial) hi)
  · rw [hmemory, hversion]
    exact h.ready

/-- What a session starts with: the record of the last one, if it is of a newer package that is
there. -/
theorem Updater.restoreReady_facts (u : Updater) (found removed : Bool) (w : Write) :
    let v := u.restoreReady found removed w
    v.version = u.version ∧ v.checked = u.checked ∧
      (∀ (name : String) (content : Content), v.files[name]? = some content →
        u.files[name]? = some content) ∧
      (v.memory.readyPath ≠ "" → v.memory.readyPath = u.memory.readyPath ∧
        Newer v.version v.memory.readyVersion) ∧
      (v.stored = u.stored ∨ v.stored = some v.memory ∨ v.stored = none) := by
  unfold restoreReady
  split
  · rename_i hp
    exact ⟨rfl, rfl, fun _ _ => id, fun h => absurd hp h, Or.inl rfl⟩
  · split
    · rename_i hr
      simp only [Bool.and_eq_true, decide_eq_true_eq] at hr
      exact ⟨rfl, rfl, fun _ _ => id, fun _ => ⟨rfl, hr.2⟩, Or.inl rfl⟩
    · refine ⟨rfl, rfl, fun _ _ h => getElem?_remove h, fun h => absurd rfl h, ?_⟩
      exact Updater.writeMemory_cases _ w

theorem Verified.restart (h : Verified sha256 u) (version : String) (host : Host)
    (readable found removed : Bool) (w : Write) :
    Verified sha256 (u.restart version host readable found removed w) := by
  set memory : Memory := if readable then u.stored.getD {} else {} with hmemory
  have hpath : memory.readyPath ≠ "" → ¬ IsPartial memory.readyPath := by
    intro hp
    rw [hmemory] at hp ⊢
    cases readable with
    | false => exact absurd rfl hp
    | true =>
      cases hs : u.stored with
      | none =>
        rw [hs] at hp
        exact absurd rfl hp
      | some m =>
        rw [hs] at hp
        exact h.stored m hs hp
  obtain ⟨hv, hc, hf, hr, hs⟩ := Updater.restoreReady_facts
    { u with
      version := version
      host := host
      memory := memory
      state := { checkedAt := memory.checkedAt, skipped := memory.skipped }
      busy := false
      cancel := none
      threads := fun _ => .idle } found removed w
  have hready : (u.restart version host readable found removed w).memory.readyPath ≠ "" →
      ¬ IsPartial (u.restart version host readable found removed w).memory.readyPath ∧
      Newer (u.restart version host readable found removed w).version
        (u.restart version host readable found removed w).memory.readyVersion := by
    intro hp
    obtain ⟨he, hn⟩ := hr hp
    refine ⟨?_, hn⟩
    have he' : (u.restart version host readable found removed w).memory.readyPath =
        memory.readyPath := he
    rw [he'] at hp ⊢
    exact hpath hp
  refine ⟨?_, hready, ?_, ?_⟩
  · intro name content hn hp
    have hc' : (u.restart version host readable found removed w).checked = u.checked := hc
    rw [hc']
    exact h.files name content (hf name content hn) hp
  · intro m hm hp
    rcases hs with hs | hs | hs
    · exact h.stored m (hs.symm.trans hm) hp
    · obtain rfl := Option.some.inj (hs.symm.trans hm)
      exact (hready hp).1
    · cases hs.symm.trans hm
  · intro tid
    rw [Updater.restart_threads]
    trivial

/-! ### Every step -/

theorem Verified.does {label : Label} (h : Verified sha256 u) (hu : OneAtATime u)
    (hd : Does sha256 u label v) : Verified sha256 v := by
  have hsound : ∀ {tid th}, u.threads tid = th → th.Sound sha256 u := by
    rintro tid _ rfl
    exact h.threads tid
  cases hd with
  | quiet hm hq => exact h.quiet hq (hm.sound (h.threads _))
  | restart => exact h.restart _ _ _ _ _ _
  | check _ ha => exact h.acquires ha fun _ hr => by cases hr
  | begin ht hi ha =>
    obtain ⟨hfound, hav⟩ := hsound ht
    exact h.acquires ha ⟨hi, hfound, hav, trivial⟩
  | install _ hr hq =>
    simp only [Updater.isReady, Bool.and_eq_true, decide_eq_true_eq] at hr
    exact h.quiet hq (h.ready hr.2)
  | installOnQuit _ hr hq =>
    simp only [Updater.isReady, Bool.and_eq_true, decide_eq_true_eq] at hr
    exact h.quiet hq (h.ready hr.2)
  | @skip version w =>
    refine ⟨h.files, h.ready, ?_, fun tid => (h.threads tid).mono rfl rfl (fun _ => id)
      fun _ _ => rfl⟩
    intro memory hm hp
    cases w with
    | landed =>
      obtain rfl := Option.some.inj hm
      exact (h.ready hp).1
    | kept => exact h.stored memory hm hp
    | lost => cases hm
  | @answered _ tid purpose _ _ _ result ht hc =>
    refine h.stay (show _ = Function.update u.threads tid _ from rfl) rfl rfl (fun _ hm => List.mem_cons_of_mem _ hm) ?_ rfl rfl rfl
      (Or.inl rfl)
    intro r hr
    obtain rfl := Option.some.inj hr
    exact ⟨List.mem_cons_self, fun ha => newer_of_checkLatest hc ha⟩
  | @remember _ tid purpose result now w ht =>
    have hfound : Found u result := hsound ht result rfl
    refine h.stay (show _ = Function.update u.threads tid _ from rfl) rfl rfl (fun _ => id) ?_ rfl ?_ ?_
      (Updater.writeMemory_cases _ w)
    · intro r hr
      obtain rfl := Option.some.inj hr
      exact hfound.mono rfl fun _ => id
    · exact (u.rememberMirror_memory result now w).1
    · exact (u.rememberMirror_memory result now w).2.1
  | @checkFinish tid manual outcome policy shown now w spawn ht hs =>
    have hstay : ∀ {x ret}, Concluded u manual outcome x →
        Verified sha256 (x.setThread tid (.returned ret)) := by
      intro x ret hx
      refine h.stay (show _ = Function.update u.threads tid (.returned ret) by
        rw [← hx.threads]; rfl) hx.version hx.host ?_ trivial hx.files hx.readyPath hx.readyVersion hx.stored
      change u.checked ⊆ x.checked
      rw [hx.checked]
      exact fun _ => id
    rcases u.checkFinish_cases tid manual outcome policy shown now w spawn with
      ⟨x, ret, hx, he⟩ | ⟨x, ret, result, ho, ha, -, -, hx, he⟩
    · rw [he]
      exact hstay hx
    · rw [he]
      subst ho
      refine (hstay hx).quiet (Quiet.setThread _ spawn _) ?_
      refine ⟨(hsound ht result rfl).mono hx.version ?_, ha⟩
      change u.checked ⊆ x.checked
      rw [hx.checked]
      exact fun _ => id
  | removes ht hr =>
    obtain ⟨hi, hfound, hav, hstage⟩ := hsound ht
    exact h.work hu ht rfl rfl rfl rfl rfl rfl
      ⟨hi, hfound.mono rfl fun _ => id, hav, (hr.sound hstage _).mono fun _ => rfl⟩
      fun _ _ hn _ => Or.inl (getElem?_remove hn)
  | @writes _ tid job stage a content total since state ht hw hp =>
    obtain ⟨hi, hfound, hav, hstage⟩ := hsound ht
    have hturn : Turned job.release a.name a.file := by
      cases hw with
      | create => exact hstage
      | append => exact hstage.1
    refine h.work hu ht rfl rfl rfl rfl rfl rfl
      ⟨hi, hfound.mono rfl fun _ => id, hav, hturn, ?_⟩ ?_
    · exact (Maps.getElem?_insert _ _ _ _).trans (if_pos rfl)
    · intro name content' hn hnp
      change (u.files.insert (partialName a.name) content)[name]? = some content' at hn
      rw [Maps.getElem?_insert, if_neg (partialName_ne hnp _)] at hn
      exact Or.inl hn
  | @rename _ tid job a content ht hc =>
    obtain ⟨hi, hfound, hav, hturn, content', hc', hd⟩ := hsound ht
    obtain rfl := Option.some.inj (hc.symm.trans hc')
    refine h.work hu ht rfl rfl rfl rfl rfl rfl ⟨hi, hfound.mono rfl fun _ => id, hav, hturn⟩ ?_
    intro name other hn hnp
    change ((u.files.erase (partialName a.name)).insert a.name content)[name]? = some other at hn
    rw [Maps.getElem?_insert, Maps.getElem?_erase, if_neg (partialName_ne hnp _)] at hn
    split at hn
    · rename_i hname
      subst hname
      obtain rfl := Option.some.inj hn
      exact Or.inr ⟨job.release.manifest, hfound.checked, a.file, hturn.listed, hd⟩
    · exact Or.inl hn
  | @downloaded _ tid job path w ht =>
    obtain ⟨hi, hfound, hav, hpath⟩ := hsound ht
    refine h.keep (show _ = Function.update u.threads tid _ from rfl) rfl rfl (fun _ => id) trivial (fun _ _ _ _ => rfl)
      (fun _ _ hn _ => Or.inl hn) (fun _ => ⟨hpath, hfound.newer hav⟩)
      (Updater.writeMemory_cases _ w)
  | @release tid err ht =>
    exact h.stay (show _ = Function.update u.threads tid _ from rfl) rfl rfl (fun _ => id) trivial rfl rfl rfl (Or.inl rfl)
  | @cancelFire tid d job stage ht hd' =>
    have h' : Verified sha256 (u.setThread tid (.returned (.done none))) :=
      h.quiet (Quiet.setThread u tid _) trivial
    obtain ⟨hi, hfound, hav, hstage⟩ := hsound hd'
    exact h'.quiet (Quiet.setThread _ d _)
      ⟨hi, hfound.mono rfl fun _ => id, hav, hstage.mono fun _ => rfl⟩
  | @installed _ tid quit removed w th ht hth =>
    refine h.keep (show _ = Function.update u.threads tid _ from rfl) rfl rfl (fun _ => id) ?_ ?_
      (fun _ _ hn _ => Or.inl (getElem?_remove hn)) (fun hr => absurd rfl hr)
      (Updater.writeMemory_cases _ w)
    · rcases hth with ⟨result, rfl⟩ | rfl <;> trivial
    · -- What is forgotten is no partial file.
      intro i _ _ name
      change (u.remove removed u.memory.readyPath).files[partialName name]? = _
      cases removed with
      | false => rfl
      | true =>
        change (u.files.erase u.memory.readyPath)[partialName name]? = _
        rw [Maps.getElem?_erase]
        split
        · rename_i hname
          have hp : u.memory.readyPath ≠ "" := by simp [hname, partialName]
          exact absurd ⟨name, hname⟩ (h.ready hp).1
        · rfl

theorem verified_of_reachable (h : Reachable (updater sha256) u) : Verified sha256 u := by
  refine h.inv_of (Q := OneAtATime) oneAtATime_of_reachable ?_
    fun u label v hu hv hs => hv.does hu (does_of_step hs)
  rintro u ⟨version, host, rfl⟩
  exact ⟨fun name content hn => by simp [Updater.new] at hn, fun hp => absurd rfl hp,
    fun memory hm => by simp [Updater.new] at hm, fun tid => trivial⟩

/-- **Only a verified newer package is ever applied**: whenever `Apply` has been called and has not
returned, the version recorded with its path is newer than the running build, and a file at the
path has the digest that an accepted manifest lists for the package. -/
theorem applies_verified_newer {package : Package} {opened : Bool}
    (h : Reachable (updater sha256) u) (ht : u.threads tid = .applying package opened) :
    Newer u.version package.version ∧ ∀ content, u.files[package.path]? = some content →
      Attests sha256 u.checked package.path content := by
  have hv := verified_of_reachable h
  have hs := hv.threads tid
  rw [ht] at hs
  exact ⟨hs.2, fun content hc => hv.files _ _ hc hs.1⟩

/-! ### A run -/

/-- An application bundle on an ARM Mac. -/
def macHost : Host where
  goos := "darwin"
  goarch := "arm64"
  executable := "/Applications/MQ Studio.app/Contents/MacOS/mq-studio"
  bundleRoot := "/Applications/MQ Studio.app"
  appImage := ""
  writable := true

def macPackage : String := "mq-studio-9.9.9-mac-arm64.dmg"

/-- A package of three bytes, and its digest. -/
def abc : Content := [97, 98, 99]

def abcDigest : String := "ba7816bf8f01cfea414140de5dae2223b00361a396177a9cb410ff61f20015ad"

/-- The digest of `abc`, and of anything else the digest of the empty package. -/
def sampleSha256 (content : Content) : String :=
  if content = abc then abcDigest
  else "e3b0c44298fc1c149afbf4c8996fb92427ae41e4649b934ca495991b7852b855"

def sampleMirror : Mirror where
  name := "r2"
  manifestURL := "https://dl.amigoer.com/mq-studio/latest.json"
  assetBase := "https://dl.amigoer.com/mq-studio"

def sampleManifest : Manifest where
  schema := 1
  version := "9.9.9"
  publishedAt := ""
  releaseURL := ""
  notes := ""
  mirrors := []
  files := (∅ : Std.ExtTreeMap String ManifestFile compare).insert macPackage
    ⟨"v9.9.9/mq-studio-9.9.9-mac-arm64.dmg", abcDigest⟩

/-- A check that finds 9.9.9, and under `policy` may download it as call `spawn`. -/
def checkFor (tid spawn : Nat) (manual : Bool) (policy : Policy) : List Label :=
  [.check tid manual policy, .run tid (.plan 0),
    .run tid (.answer [(sampleMirror, .ok sampleManifest)]), .run tid (.remember 0 .landed),
    .run tid (.checkFinish policy policy 0 .landed spawn)]

/-- The download of 9.9.9 by a call, from its first section on. -/
def fetchBy (tid : Nat) : List Label :=
  [.run tid .begin, .run tid (.resolve true), .run tid (.sweep true), .run tid .attempt,
    .run tid (.get (.ok 3)), .run tid (.chunk abc), .run tid (.eof none),
    .run tid (.removeOld true), .run tid (.rename none), .run tid (.cleanup true),
    .run tid (.downloadFinish .landed), .run tid .release]

/-- The state after a run of the first session of 1.0.0. -/
def sampleRun (labels : List Label) : Option Updater :=
  runSteps (step sampleSha256) (Updater.new "1.0.0" macHost) labels

theorem reachable_sampleRun {labels : List Label} (h : sampleRun labels = some u) :
    Reachable (updater sampleSha256) u :=
  (Path.of_runSteps (S := updater sampleSha256) id h).reachable (.init ⟨_, _, rfl⟩)

/-- What a call applies, and the file it finds. -/
def Updater.applies (u : Updater) (tid : Nat) : Option (String × String × Option Content) :=
  match u.threads tid with
  | .applying package _ => some (package.path, package.version, u.files[package.path]?)
  | _ => none

theorem applies_abc : ∃ u package opened, Reachable (updater sampleSha256) u ∧
    u.threads 2 = .applying package opened ∧ u.files[package.path]? = some abc ∧
    Newer u.version package.version ∧ Attests sampleSha256 u.checked package.path abc := by
  have hrun : (sampleRun (checkFor 0 1 false .download ++ fetchBy 1 ++
      [.install 2, .run 2 (.apply true)])).bind (fun u => u.applies 2) =
      some (macPackage, "9.9.9", some abc) := by decide
  obtain ⟨u, hu, ha⟩ := Option.bind_eq_some_iff.mp hrun
  have hr := reachable_sampleRun hu
  unfold Updater.applies at ha
  split at ha
  · rename_i package opened ht
    simp only [Option.some.injEq, Prod.mk.injEq] at ha
    have hv := applies_verified_newer hr ht
    exact ⟨u, package, opened, hr, ht, ha.2.2, hv.1, hv.2 abc ha.2.2⟩
  · cases ha

end MqStudio.Update
