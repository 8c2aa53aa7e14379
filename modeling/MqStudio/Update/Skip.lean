import MqStudio.Update.Verified

/-!
# What the user has declined

`Skip` keeps one version, and the automatic download of a check reads it when it
is decided on.  Nothing else does: not a download that is already decided on, not
`InstallOnQuit`, and not a download the user presses for.

* `respected_of_heeded`: nothing that was declined is downloaded or applied
  unasked in every run that heeds what the updater does not look at.
* `declined_applied_on_quit`: skipping a release that is ready does not keep
  `InstallOnQuit` from applying it.
-/

namespace MqStudio.Update

open Lib Lib.Transition

variable {sha256 : Content → String} {u v : Updater} {label : Label} {tid : Nat}

/-- The version a call is going to record as ready, or to apply, without looking at the skip list
again. -/
def Thread.bound : Thread → Option String
  | .begin release true => some release.latestVersion
  | .fetching job _ => some job.release.latestVersion
  | .applying package _ => if package.quit then some package.version else none
  | _ => none

/-- Nothing that was declined is being downloaded by an automatic download, nor applied by
`InstallOnQuit`. -/
structure Respected (u : Updater) : Prop where
  download : ∀ i job stage, u.threads i = .fetching job stage → job.auto = true →
    job.release.latestVersion ∉ u.declined
  quit : ∀ i package opened, u.threads i = .applying package opened → package.quit = true →
    package.version ∉ u.declined

/-- A version is recorded as ready, or some call is bound to it. -/
def Engaged (u : Updater) (version : String) : Prop :=
  (u.memory.readyPath ≠ "" ∧ u.memory.readyVersion = version) ∨
    ∃ i, (u.threads i).bound = some version

/-- What a new session reads from the disk. -/
def readBack (u : Updater) (readable : Bool) : Memory :=
  if readable then u.stored.getD {} else {}

/-- `Skip` is called for one version at a time, and for none that the updater is already engaged
in; a download the user presses for is of no declined version; and a new session reads back a
record that has the declined version skipped, and not ready. -/
def Heeded (u : Updater) : Label → Prop
  | .skip version _ => (∀ other ∈ u.declined, other = version) ∧ ¬ Engaged u version
  | .run tid .begin => ∀ release, u.threads tid = .begin release false → u.busy = false →
      u.location.canInstall = true → release.latestVersion ∉ u.declined
  | .restart _ _ readable _ _ _ =>
      (∀ version ∈ u.declined, (readBack u readable).skipped = version) ∧
        ((readBack u readable).readyPath ≠ "" → (readBack u readable).readyVersion ∉ u.declined)
  | _ => True

/-- The runs that heed what was declined. -/
def heeded (sha256 : Content → String) : System Updater Label := (updater sha256).guard Heeded

/-- What was declined is what is skipped, and the updater is not engaged in it. -/
structure Spared (u : Updater) : Prop where
  skipped : ∀ version ∈ u.declined, u.memory.skipped = version
  free : ∀ version ∈ u.declined, ¬ Engaged u version

theorem Spared.respected (h : Spared u) : Respected u := by
  refine ⟨fun i job stage ht _ hd => ?_, fun i package opened ht hq hd => ?_⟩
  · exact h.free _ hd (Or.inr ⟨i, by rw [ht]; rfl⟩)
  · exact h.free _ hd (Or.inr ⟨i, by rw [ht, Thread.bound, if_pos hq]⟩)

theorem Spared.ready (h : Spared u) (hp : u.memory.readyPath ≠ "") :
    u.memory.readyVersion ∉ u.declined :=
  fun hd => h.free _ hd (Or.inl ⟨hp, rfl⟩)

theorem Spared.bound (h : Spared u) {version : String}
    (hb : (u.threads tid).bound = some version) : version ∉ u.declined :=
  fun hd => h.free _ hd (Or.inr ⟨tid, hb⟩)

theorem Move.bound {th th' : Thread} {version : String} (h : Move sha256 u th th')
    (hb : th'.bound = some version) : th.bound = some version := by
  cases h with
  | fetch | opened => exact hb
  | _ => cases hb

/-- One call has moved, and what it is bound to was not declined. -/
theorem Spared.keep {th : Thread} (h : Spared u)
    (ht : v.threads = Function.update u.threads tid th) (hd : v.declined = u.declined)
    (hs : v.memory.skipped = u.memory.skipped)
    (hth : ∀ version, th.bound = some version → version ∉ u.declined)
    (hr : v.memory.readyPath ≠ "" → v.memory.readyVersion ∉ u.declined) : Spared v := by
  refine ⟨fun version hv => ?_, fun version hv he => ?_⟩
  · rw [hs]
    exact h.skipped version (hd ▸ hv)
  · rw [hd] at hv
    rcases he with ⟨hp, rfl⟩ | ⟨i, hb⟩
    · exact hr hp hv
    · rw [ht] at hb
      by_cases hi : i = tid
      · subst hi
        rw [Function.update_self] at hb
        exact hth version hb hv
      · rw [Function.update_of_ne hi] at hb
        exact h.bound hb hv

/-- As `Spared.keep`, where the record is left alone. -/
theorem Spared.stay {th : Thread} (h : Spared u)
    (ht : v.threads = Function.update u.threads tid th) (hd : v.declined = u.declined)
    (hm : v.memory = u.memory) (hth : ∀ version, th.bound = some version → version ∉ u.declined) :
    Spared v :=
  h.keep ht hd (by rw [hm]) hth (by rw [hm]; exact h.ready)

/-- What the last section of a check does to the skip list and what is on it. -/
theorem Spared.concluded {manual : Bool} {outcome : Except Error Result} (h : Spared u)
    (hc : Concluded u manual outcome v) : Spared v := by
  have hfree : ∀ version ∈ u.declined, ¬ Engaged v version := by
    intro version hd he
    refine h.free version hd ?_
    rwa [Engaged, hc.readyPath, hc.readyVersion, hc.threads] at he
  rcases hc.skipped with ⟨hs, hd⟩ | ⟨result, -, -, hs, -, hd⟩
  · exact ⟨fun version hv => by rw [hs]; exact h.skipped version (hd ▸ hv),
      fun version hv => hfree version (hd ▸ hv)⟩
  · -- What is taken back is all there was.
    have hnone : ∀ version, version ∉ v.declined := by
      intro version hv
      rw [hd, List.mem_filter] at hv
      simp [← h.skipped version hv.1, hs] at hv
    exact ⟨fun version hv => absurd hv (hnone version), fun version hv => absurd hv (hnone version)⟩

theorem Updater.restoreReady_memory (u : Updater) (found removed : Bool) (w : Write) :
    let v := u.restoreReady found removed w
    v.declined = u.declined ∧ v.memory.skipped = u.memory.skipped ∧
      (v.memory.readyPath ≠ "" → v.memory = u.memory) := by
  unfold restoreReady
  split
  · exact ⟨rfl, rfl, fun _ => rfl⟩
  · split
    · exact ⟨rfl, rfl, fun _ => rfl⟩
    · exact ⟨rfl, rfl, fun h => absurd rfl h⟩

theorem Spared.does (h : Spared u) (hd : Does sha256 u label v) (hh : Heeded u label) :
    Spared v := by
  have hbound : ∀ {tid th version}, u.threads tid = th → th.bound = some version →
      version ∉ u.declined := by
    rintro tid _ version rfl hb
    exact h.bound hb
  cases hd with
  | quiet hm hq =>
    exact h.stay hq.threads hq.declined hq.memory fun version hb => h.bound (hm.bound hb)
  | @restart version host readable found removed w =>
    obtain ⟨hdec, hskip, hready⟩ := Updater.restoreReady_memory
      { u with
        version := version
        host := host
        memory := readBack u readable
        state := { checkedAt := (readBack u readable).checkedAt,
                   skipped := (readBack u readable).skipped }
        busy := false
        cancel := none
        threads := fun _ => .idle } found removed w
    have hdec : (u.restart version host readable found removed w).declined = u.declined := hdec
    have hskip : (u.restart version host readable found removed w).memory.skipped =
      (readBack u readable).skipped := hskip
    have hready : (u.restart version host readable found removed w).memory.readyPath ≠ "" →
      (u.restart version host readable found removed w).memory = readBack u readable := hready
    refine ⟨fun other hv => ?_, fun other hv he => ?_⟩
    · rw [hskip]
      exact hh.1 other (hdec ▸ hv)
    · rw [hdec] at hv
      rcases he with ⟨hp, hr⟩ | ⟨i, hb⟩
      · have hm := hready hp
        rw [hm] at hp hr
        exact hh.2 hp (hr ▸ hv)
      · rw [Updater.restart_threads] at hb
        cases hb
  | check _ ha => exact h.stay ha.threads ha.declined ha.memory fun _ hb => by cases hb
  | @begin tid release auto _ ht hi ha =>
    refine h.stay ha.threads ha.declined ha.memory fun version hb => ?_
    obtain rfl := Option.some.inj hb
    cases auto with
    | true => exact hbound ht rfl
    | false => exact hh release ht ha.free hi
  | install _ _ hq => exact h.stay hq.threads hq.declined hq.memory fun _ hb => by cases hb
  | installOnQuit _ hr hq =>
    refine h.stay hq.threads hq.declined hq.memory fun version hb => ?_
    obtain rfl := Option.some.inj hb
    simp only [Updater.isReady, Bool.and_eq_true, decide_eq_true_eq] at hr
    exact h.ready hr.2
  | @skip version w =>
    obtain ⟨hone, hfree⟩ := hh
    have hall : ∀ other ∈ version :: u.declined, other = version := by
      intro other hm
      rcases List.mem_cons.mp hm with rfl | hm
      · rfl
      · exact hone other hm
    exact ⟨fun other hm => (hall other hm).symm, fun other hm => hall other hm ▸ hfree⟩
  | @answered _ tid purpose _ _ _ result ht _ => exact h.stay rfl rfl rfl fun _ hb => by cases hb
  | @remember _ tid purpose result now w ht =>
    obtain ⟨hp, hr, hs⟩ := u.rememberMirror_memory result now w
    refine h.keep rfl rfl hs (fun _ hb => by cases hb) fun hp' => ?_
    change (u.rememberMirror result now w).memory.readyVersion ∉ _
    change (u.rememberMirror result now w).memory.readyPath ≠ _ at hp'
    rw [hr]
    exact h.ready (hp ▸ hp')
  | @checkFinish tid manual outcome policy shown now w spawn ht hs =>
    rcases u.checkFinish_cases tid manual outcome policy shown now w spawn with
      ⟨x, ret, hx, he⟩ | ⟨x, ret, result, -, -, -, hauto, hx, he⟩
    · rw [he]
      exact (h.concluded hx).stay rfl rfl rfl fun _ hb => by cases hb
    · have hx' := h.concluded hx
      rw [he]
      have hret : Spared (x.setThread tid (.returned ret)) :=
        hx'.stay rfl rfl rfl fun _ hb => by cases hb
      refine hret.stay rfl rfl rfl fun version hb hd => ?_
      -- The skip list was read in this very section.
      obtain rfl := Option.some.inj hb
      simp only [Updater.autoDownload, Bool.and_eq_true, decide_eq_true_eq] at hauto
      exact hauto.2 (hx'.skipped _ hd).symm
  | removes ht _ => exact h.stay rfl rfl rfl fun _ hb => hbound ht hb
  | writes ht _ _ => exact h.stay rfl rfl rfl fun _ hb => hbound ht hb
  | rename ht _ => exact h.stay rfl rfl rfl fun _ hb => hbound ht hb
  | downloaded ht => exact h.keep rfl rfl rfl (fun _ hb => by cases hb) fun _ => hbound ht rfl
  | release => exact h.stay rfl rfl rfl fun _ hb => by cases hb
  | @cancelFire tid d job stage ht hd' =>
    have h' : Spared (u.setThread tid (.returned (.done none))) :=
      h.stay rfl rfl rfl fun _ hb => by cases hb
    exact h'.stay rfl rfl rfl fun _ hb => hbound hd' hb
  | installed _ hth =>
    refine h.keep rfl rfl rfl (fun _ hb => ?_) fun hp => absurd rfl hp
    rcases hth with ⟨result, rfl⟩ | rfl <;> cases hb

theorem spared_of_heeded (h : Reachable (heeded sha256) u) : Spared u := by
  refine h.inv ?_ fun u label v hu hs => hu.does (does_of_step hs.1) hs.2
  rintro u ⟨version, host, rfl⟩
  exact ⟨fun _ => (nomatch ·), fun _ => (nomatch ·)⟩

/-- **Nothing that was declined is downloaded or applied unasked**, in every run in which `Skip`
comes before the updater is engaged in the version, no second version is skipped, the user presses
for no declined download, and the record of what is skipped is not lost between sessions. -/
theorem respected_of_heeded (h : Reachable (heeded sha256) u) : Respected u :=
  (spared_of_heeded h).respected

/-! ### Runs -/

/-- A label of which `Heeded` asks nothing. -/
def Label.unasked : Label → Bool
  | .skip _ _ => false
  | .run _ .begin => false
  | .restart .. => false
  | _ => true

theorem Path.heeded {labels : List Label} (h : Path (updater sha256) u labels v)
    (hl : ∀ label ∈ labels, label.unasked = true) : Path (heeded sha256) u labels v := by
  refine (h.guard (P := fun _ => True) trivial (fun _ _ _ _ _ _ => trivial) ?_).1
  intro u label hm _
  have := hl label hm
  cases label with
  | skip | restart => cases this
  | run tid event =>
    cases event with
    | begin => cases this
    | _ => trivial
  | _ => trivial

/-- The version a call applies as the application closes. -/
def Updater.appliesOnQuit (u : Updater) (tid : Nat) : Option String :=
  match u.threads tid with
  | .applying package _ => if package.quit then some package.version else none
  | _ => none

theorem appliesOnQuit_eq_some {version : String} (h : u.appliesOnQuit tid = some version) :
    ∃ package opened, u.threads tid = .applying package opened ∧ package.quit = true ∧
      package.version = version := by
  unfold Updater.appliesOnQuit at h
  split at h
  · rename_i package opened ht
    split at h
    · rename_i hq
      exact ⟨package, opened, ht, hq, Option.some.inj h⟩
    · cases h
  · cases h

/-- 9.9.8 is skipped, and 9.9.9 is found, downloaded and applied as the application closes. -/
theorem respected_sample : ∃ u package opened, Reachable (heeded sampleSha256) u ∧
    u.threads 2 = .applying package opened ∧ package.quit = true ∧ package.version = "9.9.9" ∧
    u.declined = ["9.9.8"] ∧ Respected u := by
  have hrun : (runSteps (step sampleSha256) ((Updater.new "1.0.0" macHost).skip "9.9.8" .landed)
      (checkFor 0 1 false .auto)).bind (fun s =>
        (step sampleSha256 s (.run 1 .begin)).bind fun t =>
          (runSteps (step sampleSha256) t ((fetchBy 1).tail ++ [.installOnQuit 2 .auto])).map
            fun u => ((s.threads 1).bound, u.appliesOnQuit 2, u.declined)) =
      some (some "9.9.9", some "9.9.9", ["9.9.8"]) := by decide +kernel
  obtain ⟨s, hs, h⟩ := Option.bind_eq_some_iff.mp hrun
  obtain ⟨t, ht, h⟩ := Option.bind_eq_some_iff.mp h
  obtain ⟨u, hu, h⟩ := Option.map_eq_some_iff.mp h
  simp only [Prod.mk.injEq] at h
  obtain ⟨hbound, hquit, hdeclined⟩ := h
  have hskip : Heeded (Updater.new "1.0.0" macHost) (.skip "9.9.8" .landed) :=
    ⟨fun _ => (nomatch ·), by rintro (⟨hp, -⟩ | ⟨i, hb⟩) <;> contradiction⟩
  have hs' := Path.of_runSteps (S := updater sampleSha256) id hs
  have hu' := Path.of_runSteps (S := updater sampleSha256) id hu
  have hstep : step sampleSha256 (Updater.new "1.0.0" macHost) (.skip "9.9.8" .landed) =
      some ((Updater.new "1.0.0" macHost).skip "9.9.8" .landed) := rfl
  have hskipped : Reachable (heeded sampleSha256)
      ((Updater.new "1.0.0" macHost).skip "9.9.8" .landed) :=
    .step (.init ⟨_, _, rfl⟩) ⟨hstep, hskip⟩
  -- The download that takes the busy flag is the one the check has started.
  have hbegun : Reachable (heeded sampleSha256) t :=
    .step ((Path.heeded hs' (by decide)).reachable hskipped)
      ⟨ht, fun release hr => by rw [hr] at hbound; cases hbound⟩
  have hr := (Path.heeded hu' (by decide)).reachable hbegun
  obtain ⟨package, opened, hth, hq, hv⟩ := appliesOnQuit_eq_some hquit
  exact ⟨u, package, opened, hr, hth, hq, hv, hdeclined, respected_of_heeded hr⟩

/-- A release that is ready is skipped, and applied as the application closes. -/
theorem declined_applied_on_quit :
    ¬ ∀ u, Reachable (updater sampleSha256) u → Respected u := by
  intro hall
  have hrun : (sampleRun (checkFor 0 1 false .auto ++ fetchBy 1 ++
      [.skip "9.9.9" .landed, .installOnQuit 2 .auto])).map
        (fun u => (u.appliesOnQuit 2, u.declined)) = some (some "9.9.9", ["9.9.9"]) := by
    decide +kernel
  obtain ⟨u, hu, h⟩ := Option.map_eq_some_iff.mp hrun
  obtain ⟨hquit, hdeclined⟩ := Prod.mk.inj h
  obtain ⟨package, opened, ht, hq, hv⟩ := appliesOnQuit_eq_some hquit
  refine (hall u (reachable_sampleRun hu)).quit 2 package opened ht hq ?_
  rw [hdeclined, hv]
  exact List.mem_cons_self

end MqStudio.Update
