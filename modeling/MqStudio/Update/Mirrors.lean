import MqStudio.Update.Steps

/-!
# The mirrors of a check

`MergeMirrors` only adds: what a manifest or the memory file names comes after the mirrors that were
compiled in.

* `mergeMirrors_spec`: what merging keeps.
* `plan_shipped`: the list that a check is planned with.
* `mirrors_never_lost`: every check under way asks such a list, after any run from any memory.
-/

namespace MqStudio.Update

open Lib Lib.Transition

/-! ### Merging -/

/-- One mirror of a list that is folded in. -/
def mergeMirror (merged : List Mirror) (mirror : Mirror) : List Mirror :=
  if mirror.valid && !merged.any (·.name = mirror.name) then merged ++ [mirror] else merged

/-- Usable mirrors, no two of one name. -/
structure Usable (mirrors : List Mirror) : Prop where
  valid : ∀ m ∈ mirrors, m.valid = true
  names : (mirrors.map (·.name)).Nodup

theorem Usable.mergeMirror {merged : List Mirror} (h : Usable merged) (mirror : Mirror) :
    Usable (mergeMirror merged mirror) := by
  rw [Update.mergeMirror]
  split
  case isTrue hnew =>
    obtain ⟨hvalid, hname⟩ := Bool.and_eq_true_iff.mp hnew
    constructor
    · intro m hm
      rcases List.mem_append.mp hm with hm | hm
      · exact h.valid m hm
      · rwa [List.mem_singleton.mp hm]
    · rw [List.map_append, List.map_singleton, List.nodup_append]
      refine ⟨h.names, List.nodup_singleton _, fun name hm name' hname' heq => ?_⟩
      obtain ⟨m, hmem, rfl⟩ := List.mem_map.mp hm
      obtain rfl := List.mem_singleton.mp hname'
      have hany : merged.any (·.name = mirror.name) = true :=
        List.any_eq_true.mpr ⟨m, hmem, decide_eq_true heq⟩
      rw [hany] at hname
      nomatch hname
  case isFalse => exact h

theorem prefix_mergeMirror (merged : List Mirror) (mirror : Mirror) :
    merged <+: mergeMirror merged mirror := by
  rw [mergeMirror]
  split
  · exact List.prefix_append _ _
  · exact List.prefix_refl _

theorem mergeMirrors_eq (known learned : List Mirror) :
    mergeMirrors known learned = learned.foldl mergeMirror (known.foldl mergeMirror []) := by
  rw [mergeMirrors, ← List.foldl_append]
  rfl

/-- Folding in a list keeps what is there, in its place. -/
theorem foldl_mergeMirror {merged : List Mirror} (h : Usable merged) (mirrors : List Mirror) :
    Usable (mirrors.foldl mergeMirror merged) ∧ merged <+: mirrors.foldl mergeMirror merged := by
  induction mirrors generalizing merged with
  | nil => exact ⟨h, List.prefix_refl _⟩
  | cons mirror mirrors ih =>
    obtain ⟨husable, hpre⟩ := ih (h.mergeMirror mirror)
    exact ⟨husable, (prefix_mergeMirror merged mirror).trans hpre⟩

theorem usable_nil : Usable [] := ⟨nofun, List.nodup_nil⟩

/-- **Merging** keeps usable mirrors of different names, what is known before what is learned. -/
theorem mergeMirrors_spec (known learned : List Mirror) :
    Usable (mergeMirrors known learned) ∧
      mergeMirrors known [] <+: mergeMirrors known learned := by
  rw [mergeMirrors_eq, mergeMirrors_eq]
  exact foldl_mergeMirror (foldl_mergeMirror usable_nil known).1 learned

theorem mergeMirrors_bootstrapMirrors : mergeMirrors bootstrapMirrors [] = bootstrapMirrors := by
  decide

/-! ### Planning -/

/-- A list of mirrors that a build can trust, and the one of it that is asked first. -/
structure Shipped (mirrors : List Mirror) (preferred : Option Mirror) : Prop where
  compiledIn : bootstrapMirrors <+: mirrors
  names : (mirrors.map (·.name)).Nodup
  https : ∀ m ∈ mirrors, Text.hasPrefix m.manifestURL "https://" = true ∧
    Text.hasPrefix m.assetBase "https://" = true
  listed : ∀ m ∈ preferred, m ∈ mirrors

theorem Mirror.https_of_valid {m : Mirror} (h : m.valid = true) :
    Text.hasPrefix m.manifestURL "https://" = true ∧
      Text.hasPrefix m.assetBase "https://" = true := by
  rw [Mirror.valid, Bool.and_eq_true, Bool.and_eq_true] at h
  exact ⟨h.1.2, h.2⟩

theorem shipped_merged (learned : List Mirror) {preferred : Option Mirror}
    (h : ∀ m ∈ preferred, m ∈ mergeMirrors bootstrapMirrors learned) :
    Shipped (mergeMirrors bootstrapMirrors learned) preferred := by
  obtain ⟨husable, hpre⟩ := mergeMirrors_spec bootstrapMirrors learned
  rw [mergeMirrors_bootstrapMirrors] at hpre
  exact ⟨hpre, husable.names, fun m hm => Mirror.https_of_valid (husable.valid m hm), h⟩

/-- **The list that a check is planned with**, whatever the memory holds. -/
theorem plan_shipped (u : Updater) (now : Time) : Shipped (u.plan now).1 (u.plan now).2 := by
  have hnone : Shipped (mergeMirrors bootstrapMirrors u.memory.learnedMirrors) none :=
    shipped_merged u.memory.learnedMirrors nofun
  have hfound : ∀ name, Shipped (mergeMirrors bootstrapMirrors u.memory.learnedMirrors)
      (findMirror (mergeMirrors bootstrapMirrors u.memory.learnedMirrors) name) := fun name =>
    shipped_merged u.memory.learnedMirrors fun m hm => List.mem_of_find?_eq_some hm
  rw [Updater.plan]
  generalize mergeMirrors bootstrapMirrors u.memory.learnedMirrors = mirrors at hnone hfound ⊢
  split
  case isTrue => exact hnone
  case isFalse =>
    split
    case h_1 => exact hnone
    case h_2 =>
      split
      case isTrue => exact hnone
      case isFalse => exact hfound _

/-! ### Checks under way -/

/-- What a check under way is about to ask. -/
def Thread.asks : Thread → Option (List Mirror × Option Mirror)
  | .checking _ (.quick mirrors preferred) => some (mirrors, some preferred)
  | .checking _ (.full mirrors) => some (mirrors, none)
  | _ => none

/-- No call has begun to ask. -/
def Spares (u v : Updater) : Prop :=
  ∀ i, (v.threads i).asks = none ∨ v.threads i = u.threads i

theorem spares_setThread {u v : Updater} {tid : Nat} {th : Thread} (hv : v.threads = u.threads)
    (h : th.asks = none) : Spares u (v.setThread tid th) := by
  intro i
  by_cases hi : i = tid
  · rw [hi, Updater.setThread_self]
    exact .inl h
  · rw [Updater.setThread_of_ne _ _ hi, hv]
    exact .inr rfl

section Steps

variable {sha256 : Content → String} {u : Updater} {tid : Nat}

theorem spares_check (manual : Bool) (policy : Policy) : Spares u (u.check tid manual policy) := by
  rw [Updater.check]
  split
  · exact spares_setThread rfl rfl
  · split <;> exact spares_setThread rfl rfl

theorem spares_install : Spares u (u.install tid) := by
  rw [Updater.install]
  split <;> exact spares_setThread rfl rfl

theorem spares_installOnQuit (policy : Policy) : Spares u (u.installOnQuit tid policy) := by
  rw [Updater.installOnQuit]
  split <;> exact spares_setThread rfl rfl

theorem spares_checkFinish (manual : Bool) (outcome : Except Error Result) (policy shown : Policy)
    (now : Time) (w : Write) (spawn : Nat) :
    Spares u (u.checkFinish tid manual outcome policy shown now w spawn) := by
  rcases u.checkFinish_cases tid manual outcome policy shown now w spawn with
    ⟨v, ret, hv, heq⟩ | ⟨v, ret, result, _, _, _, _, hv, heq⟩
  · rw [heq]
    exact spares_setThread hv.threads rfl
  · rw [heq]
    intro i
    by_cases hi : i = spawn
    · rw [hi, Updater.setThread_self]
      exact .inl rfl
    · rw [Updater.setThread_of_ne _ _ hi]
      exact spares_setThread hv.threads rfl i

theorem spares_recheckFinish (outcome : Except Error Result) :
    Spares u (u.recheckFinish tid outcome) := by
  rw [Updater.recheckFinish.eq_def]
  split
  · exact spares_setThread rfl rfl
  · split <;> exact spares_setThread rfl rfl

theorem spares_begin (release : Result) (auto : Bool) : Spares u (u.begin tid release auto) := by
  rw [Updater.begin]
  split
  · exact spares_setThread rfl rfl
  · split <;> exact spares_setThread rfl rfl

theorem spares_resolve {job : Job} (readDir : Bool) : Spares u (u.resolve tid job readDir) := by
  unfold Updater.resolve
  dsimp only
  split
  · exact spares_setThread rfl rfl
  · split <;> exact spares_setThread rfl rfl

theorem spares_get {job : Job} {a : Attempt} (response : Except Updater.Fault Int) :
    Spares u (u.get tid job a response) := by
  unfold Updater.get
  split
  · exact spares_setThread rfl rfl
  · split <;> exact spares_setThread rfl rfl

theorem spares_eof {job : Job} {a : Attempt} {total : Int} {received : Content}
    (close : Option Updater.Fault) : Spares u (u.eof sha256 tid job a total received close) := by
  unfold Updater.eof
  dsimp only
  split
  · exact spares_setThread rfl rfl
  · split <;> exact spares_setThread rfl rfl

theorem spares_downloadFinish {job : Job} (outcome : Except Error String) (w : Write) :
    Spares u (u.downloadFinish tid job outcome w) := by
  unfold Updater.downloadFinish
  split
  · split <;> exact spares_setThread rfl rfl
  · exact spares_setThread rfl rfl

/-- A download asks nothing that a check asks. -/
theorem spares_stepFetch {v : Updater} {job : Job} {stage : Fetch} {event : Event}
    (h : stepFetch sha256 u tid job stage event = some v) : Spares u v := by
  unfold stepFetch at h
  split at h
  case h_1 =>
    obtain rfl := Option.some.inj h
    exact spares_resolve _
  case h_2 =>
    obtain rfl := Option.some.inj h
    unfold Updater.sweep
    split <;> exact spares_setThread rfl rfl
  case h_3 =>
    obtain rfl := Option.some.inj h
    unfold Updater.attempt
    split <;> exact spares_setThread rfl rfl
  case h_4 =>
    split at h
    · obtain rfl := Option.some.inj h
      exact spares_get _
    · nomatch h
  case h_5 =>
    obtain rfl := Option.some.inj h
    exact spares_get _
  case h_6 =>
    obtain rfl := Option.some.inj h
    unfold Updater.chunk
    dsimp only
    split <;> exact spares_setThread rfl rfl
  case h_7 =>
    obtain rfl := Option.some.inj h
    exact spares_eof _
  case h_8 =>
    split at h
    · obtain rfl := Option.some.inj h
      exact spares_setThread rfl rfl
    · nomatch h
  case h_9 =>
    obtain rfl := Option.some.inj h
    exact spares_setThread rfl rfl
  case h_10 =>
    obtain rfl := Option.some.inj h
    unfold Updater.rename
    split <;> exact spares_setThread rfl rfl
  case h_11 =>
    obtain rfl := Option.some.inj h
    exact spares_setThread rfl rfl
  case h_12 =>
    obtain rfl := Option.some.inj h
    exact spares_downloadFinish _ _
  case h_13 => nomatch h

theorem spares_cancelFire (target : Option Nat) : Spares u (u.cancelFire tid target) := by
  have hreturned : Spares u (u.setThread tid (.returned (.done none))) := spares_setThread rfl rfl
  unfold Updater.cancelFire
  dsimp only
  split
  · exact hreturned
  · rename_i d
    split
    · intro i
      by_cases hi : i = d
      · rw [hi, Updater.setThread_self]
        exact .inl rfl
      · rw [Updater.setThread_of_ne _ _ hi]
        exact hreturned i
    · exact hreturned

theorem spares_apply (package : Package) (found : Bool) :
    Spares u (u.apply tid package found) := by
  unfold Updater.apply
  split
  · exact spares_setThread rfl rfl
  · split
    · exact spares_setThread rfl rfl
    · split <;> exact spares_setThread rfl rfl

theorem spares_installFinish (quit : Bool) (err : Option Error) (removed : Bool) (w : Write) :
    Spares u (u.installFinish tid quit err removed w) := by
  unfold Updater.installFinish
  split
  · split <;> exact spares_setThread rfl rfl
  · dsimp only
    split <;> exact spares_setThread rfl rfl

/-- What the thread of a check comes to ask. -/
theorem asks_stepCheck {v : Updater} {purpose : Purpose} {run : RunCheck} {event : Event}
    (h : stepCheck u tid purpose run event = some v) :
    Spares u v ∨ (∃ now, v = u.planned tid purpose now) ∨
      ∃ mirrors preferred, run = .quick mirrors preferred ∧
        v = u.setThread tid (.checking purpose (.full mirrors)) := by
  unfold stepCheck at h
  split at h
  case h_1 => exact .inr (.inl ⟨_, (Option.some.inj h).symm⟩)
  case h_2 mirrors preferred arrivals =>
    obtain rfl := Option.some.inj h
    unfold Updater.ask
    split
    · exact .inl (spares_setThread rfl rfl)
    · exact .inr (.inr ⟨mirrors, preferred, rfl, rfl⟩)
  case h_3 =>
    obtain rfl := Option.some.inj h
    unfold Updater.ask
    split <;> exact .inl (spares_setThread rfl rfl)
  case h_4 =>
    obtain rfl := Option.some.inj h
    exact .inl (spares_setThread rfl rfl)
  case h_5 =>
    split at h
    · split at h
      · obtain rfl := Option.some.inj h
        exact .inl (spares_checkFinish _ _ _ _ _ _ _)
      · nomatch h
    · nomatch h
  case h_6 =>
    split at h
    · nomatch h
    · obtain rfl := Option.some.inj h
      exact .inl (spares_recheckFinish _)
  case h_7 => nomatch h

/-! ### Runs -/

/-- Every check under way asks a list that a build can trust. -/
def AsksShipped (u : Updater) : Prop :=
  ∀ i mirrors preferred, (u.threads i).asks = some (mirrors, preferred) → Shipped mirrors preferred

theorem AsksShipped.spares {v : Updater} (h : AsksShipped u) (hv : Spares u v) : AsksShipped v := by
  intro i mirrors preferred hasks
  rcases hv i with hnone | hsame
  · rw [hnone] at hasks
    nomatch hasks
  · exact h i mirrors preferred (hsame ▸ hasks)

theorem AsksShipped.setThread {th : Thread} (h : AsksShipped u)
    (hth : ∀ mirrors preferred, th.asks = some (mirrors, preferred) → Shipped mirrors preferred) :
    AsksShipped (u.setThread tid th) := by
  intro i mirrors preferred hasks
  by_cases hi : i = tid
  · rw [hi, Updater.setThread_self] at hasks
    exact hth mirrors preferred hasks
  · rw [Updater.setThread_of_ne _ _ hi] at hasks
    exact h i mirrors preferred hasks

theorem Shipped.alone {mirrors : List Mirror} {preferred : Option Mirror}
    (h : Shipped mirrors preferred) : Shipped mirrors none :=
  ⟨h.compiledIn, h.names, h.https, nofun⟩

theorem AsksShipped.planned (h : AsksShipped u) (purpose : Purpose) (now : Time) :
    AsksShipped (u.planned tid purpose now) := by
  have hplan := plan_shipped u now
  refine h.setThread fun mirrors preferred hasks => ?_
  split at hasks
  case h_1 heq =>
    obtain ⟨rfl, rfl⟩ := Prod.mk.inj (Option.some.inj hasks)
    rwa [heq] at hplan
  case h_2 heq =>
    obtain ⟨rfl, rfl⟩ := Prod.mk.inj (Option.some.inj hasks)
    rwa [heq] at hplan

theorem AsksShipped.stepThread {v : Updater} {event : Event} (h : AsksShipped u)
    (hs : stepThread sha256 u tid (u.threads tid) event = some v) : AsksShipped v := by
  unfold Update.stepThread at hs
  split at hs
  case h_1 _ purpose run hthread =>
    rcases asks_stepCheck hs with hspares | ⟨now, rfl⟩ | ⟨mirrors, preferred, rfl, rfl⟩
    · exact h.spares hspares
    · exact h.planned purpose now
    · refine h.setThread fun mirrors' preferred' hasks => ?_
      obtain ⟨rfl, rfl⟩ := Prod.mk.inj (Option.some.inj hasks)
      exact (h tid mirrors preferred (by rw [hthread]; rfl)).alone
  case h_2 =>
    obtain rfl := Option.some.inj hs
    exact h.spares (spares_begin _ _)
  case h_3 => exact h.spares (spares_stepFetch hs)
  case h_4 =>
    obtain rfl := Option.some.inj hs
    exact h.spares (spares_setThread rfl rfl)
  case h_5 =>
    obtain rfl := Option.some.inj hs
    exact h.spares (spares_cancelFire _)
  case h_6 =>
    obtain rfl := Option.some.inj hs
    exact h.spares (spares_apply _ _)
  case h_7 =>
    obtain rfl := Option.some.inj hs
    exact h.spares (spares_setThread rfl rfl)
  case h_8 =>
    obtain rfl := Option.some.inj hs
    exact h.spares (spares_installFinish _ _ _ _)
  case h_9 =>
    obtain rfl := Option.some.inj hs
    exact h.spares (spares_setThread rfl rfl)
  case h_10 => nomatch hs

theorem AsksShipped.step {v : Updater} {label : Label} (h : AsksShipped u)
    (hs : step sha256 u label = some v) : AsksShipped v := by
  cases label with
  | restart version host readable found removed w =>
    obtain rfl := Option.some.inj hs
    intro i mirrors preferred hasks
    rw [Updater.restart_threads] at hasks
    nomatch hasks
  | check tid manual policy =>
    rw [Update.step] at hs
    split at hs
    · obtain rfl := Option.some.inj hs
      exact h.spares (spares_check _ _)
    · nomatch hs
  | download tid =>
    rw [Update.step] at hs
    split at hs
    · obtain rfl := Option.some.inj hs
      exact h.spares (spares_setThread rfl rfl)
    · nomatch hs
  | install tid =>
    rw [Update.step] at hs
    split at hs
    · obtain rfl := Option.some.inj hs
      exact h.spares spares_install
    · nomatch hs
  | installOnQuit tid policy =>
    rw [Update.step] at hs
    split at hs
    · obtain rfl := Option.some.inj hs
      exact h.spares (spares_installOnQuit _)
    · nomatch hs
  | cancel tid =>
    rw [Update.step] at hs
    split at hs
    · obtain rfl := Option.some.inj hs
      exact h.spares (spares_setThread rfl rfl)
    · nomatch hs
  | skip version w =>
    obtain rfl := Option.some.inj hs
    exact h
  | run tid event => exact h.stepThread hs

/-- **A build never loses the mirrors it shipped with.**  After any run, from any memory, any file
of it and any packages, a check is planned with a list that begins with the compiled-in mirrors,
names each once and is all https, and the one asked first is of that list; what the checks under way
ask is such a list too. -/
theorem mirrors_never_lost (sha256 : Content → String) (version : String) (host : Host)
    (memory : Memory) (stored : Option Memory)
    (files : Std.ExtTreeMap String Content compare) (labels : List Label) (u : Updater)
    (hrun : Path (updater sha256)
      { Updater.new version host with memory := memory, stored := stored, files := files }
      labels u) :
    (∀ now, Shipped (u.plan now).1 (u.plan now).2) ∧ AsksShipped u := by
  refine ⟨plan_shipped u, ?_⟩
  suffices ∀ s is t, Path (updater sha256) s is t → AsksShipped s → AsksShipped t from
    this _ _ _ hrun nofun
  intro s is t hpath hs
  induction hpath with
  | refl => exact hs
  | tail _ hstep ih => exact ih.step hstep

end Steps

/-- A manifest that names a mirror of a known name, one over plain HTTP and a new one. -/
theorem hostile_manifest_only_adds :
    let hostile : Mirror := ⟨"r2", "https://evil.example/latest.json", "https://evil.example"⟩
    let plain : Mirror := ⟨"plain", "http://evil.example/latest.json", "http://evil.example"⟩
    let extra : Mirror := ⟨"eu", "https://eu.example/latest.json", "https://eu.example"⟩
    let memory : Memory := ⟨none, "", "", "", "eu", some 0, [hostile, plain, extra]⟩
    ∃ u : Updater, u.memory = memory ∧ u.plan 0 = (bootstrapMirrors ++ [extra], some extra) ∧
      (∀ now, Shipped (u.plan now).1 (u.plan now).2) ∧ AsksShipped u := by
  intro hostile plain extra memory
  let host : Host := ⟨"darwin", "arm64", "/Applications/MQ Studio.app", "", "", true⟩
  refine ⟨{ Updater.new "1.0.0" host with memory := memory, stored := none, files := ∅ }, rfl,
    by decide, ?_⟩
  exact mirrors_never_lost (fun _ => "") "1.0.0" host memory none ∅ [] _ (.refl _)

end MqStudio.Update
