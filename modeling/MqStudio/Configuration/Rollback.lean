import MqStudio.Configuration.Transfer

/-!
# An import that fails

The settings and the connections are written one after the other, and where the second fails both
are put back; the profiles are put back by a replacement of their own.

* `settings_failed`: the settings are back after every import that fails.
* `failed_import_undone_iff`: so are the profiles exactly if nothing was put back, or every one of
  them is `Kept`, or the replacement is refused while the old ones are still in place.
* `rollback_loses_mechanism`: a write that fails takes the mechanism of a Kafka connection.
-/

namespace MqStudio.Configuration

open Model Lib.Json Lib.Maps Lib.Errors Lib.Transition Connection

variable {open_ : String → String → Except Error String} {s : Service} {env : Env}
  {c : Connection.Service}

/-! ### What a replacement and a reload leave -/

theorem endpoints_restoreRuntimeLocked (c : Connection.Service) (e : Connection.Env)
    (plan : Bool) : (c.restoreRuntimeLocked e plan).1.endpoints = c.endpoints := by
  rcases restoreRuntimeLocked_cases c e plan with hc | ⟨p, -, -, hc⟩
  · exact congrArg Core.endpoints hc
  · exact congrArg Core.endpoints hc

theorem endpoints_replaceConnections (c : Connection.Service) (e : Connection.Env)
    (ps : List (Option ConnectionProfile)) :
    (c.replaceConnections e ps).1.endpoints = c.endpoints := by
  rcases replaceConnections_cases c e ps with hc | ⟨t, plan, prepared, -, ht, hc⟩
  · exact congrArg Core.endpoints hc
  · rw [hc, endpoints_restoreRuntimeLocked]
    exact congrArg Core.endpoints ht

theorem endpoints_reload (c : Connection.Service) (e : Connection.Env) :
    (c.reload e).1.endpoints = c.endpoints := by
  rcases reload_cases c e with hc | ⟨t, plan, ht, hc⟩
  · exact congrArg Core.endpoints hc
  · rw [hc, endpoints_restoreRuntimeLocked]
    rcases ht with ht | ⟨ps, ht⟩ <;> exact congrArg Core.endpoints ht

/-- A reload finds the profiles of the memory in the file. -/
theorem offline_reload {e : Connection.Env} (h : Agrees open_ c) (hk : e.openValue = open_) :
    offline (c.reload e).1.connections = offline c.connections := by
  rcases reload_loaded c e with hc | ⟨t, ht, ho, -⟩
  · rw [hc]
  · rw [ho]
    rcases loadConnectionsFromFile_built ht with ⟨-, rfl⟩ | ⟨data, ps, hf, -, -, -⟩
    · rfl
    · have hr : e.readErr = none := by
        unfold Connection.Service.loadConnectionsFromFile at ht
        cases hr : e.readErr with
        | none => rfl
        | some err =>
          rw [hr] at ht
          cases ht
      obtain ⟨u, hu, hagrees⟩ := h none e hk hr
      obtain ⟨u', hu', hc⟩ := loadConnectionsFromFile_congr (fresh none c.file) ht rfl hr rfl
        (by simp [hf])
      obtain rfl := Except.ok.inj (hu.symm.trans hu')
      rw [← hc, hagrees]

/-- None of the profiles that a replacement stores is refused. -/
theorem not_refused_replaced {ps : List (Option ConnectionProfile)} {qs : List ConnectionProfile}
    (h : c.prepareReplacement ps = .ok qs) {k : Int} {q : ConnectionProfile}
    (hq : (buildConnectionState (qs.map some)).1[k]? = some q) : ¬ Refused c q := by
  have hone : ∀ p r, c.prepareOne p = .ok r → ¬ Refused c r := by
    intro p r hr
    unfold Connection.Service.prepareOne at hr
    split at hr
    · cases hr
    rename_i name endpoints hv
    split at hr
    · cases hr
    rename_i acl _
    obtain rfl := Except.ok.inj hr
    have hnr : ¬ Refused c p := by
      rintro ⟨err, herr⟩
      rw [herr] at hv
      cases hv
    have hfields := not_refused_iff.mp (not_refused_prepared hnr)
    rw [not_refused_iff.mp hnr] at hv
    obtain ⟨rfl, rfl⟩ := Prod.ext_iff.mp (Except.ok.inj hv)
    rintro ⟨err, herr⟩
    rw [setACL_eq] at herr
    exact absurd (herr.symm.trans hfields) (by simp)
  have hloaded : ∀ p, ¬ Refused c p → ∀ (id : Int) (isDefault : Bool),
      ¬ Refused c { normalizeLoaded p with id := id, isDefault := isDefault } := by
    intro p hp id isDefault
    rintro ⟨err, herr⟩
    rw [normalizeLoaded_eq] at herr
    exact hp ⟨err, herr⟩
  obtain ⟨rs, hrs, rfl⟩ := settled_prepared h
  obtain ⟨p, hp, id, isDefault, rfl⟩ := mem_built hq
  obtain ⟨k', hk'⟩ := copyConnectionsSorted_mem.mp hp
  obtain ⟨r, hr, id', isDefault', rfl⟩ := mem_built hk'
  obtain ⟨-, p, -, hone'⟩ := hrs r hr
  exact hloaded _ (hloaded _ (hone p r hone') id' isDefault') id isDefault

/-! ### The settings -/

/-- **The settings are back** after an import that fails, where the rollback can write them. -/
theorem settings_failed (h : InStep open_ s) (hw : env.settingsRollback.writeErr = none)
    (brought : Import) (hfailed : (s.importConfig env brought).2 ≠ none) :
    (s.importConfig env brought).1.settings.settings = s.settings.settings := by
  unfold Service.importConfig at hfailed ⊢
  generalize hstored : s.importSettings env brought.settings = stored at hfailed ⊢
  obtain ⟨settings, result⟩ := stored
  cases result with
  | error err =>
    dsimp only
    unfold Service.importSettings SettingsService.Service.updateSettings
      SettingsService.Service.store at hstored
    split at hstored
    · cases hstored
    split at hstored
    · obtain ⟨rfl, -⟩ := Prod.ext_iff.mp hstored
      rfl
    · cases hstored
  | ok updated =>
    dsimp only at hfailed ⊢
    generalize credentialsChanged s.settings.settings updated = changed at hfailed ⊢
    have happly := settings_applyConnections { s with settings := settings } env
      brought.connections changed
    generalize Service.applyConnections { s with settings := settings } env brought.connections
      changed = r at happly hfailed ⊢
    obtain ⟨t, err⟩ := r
    have ht : t.settings = settings := happly
    cases err with
    | none => exact absurd rfl hfailed
    | some err =>
      dsimp only at hfailed ⊢
      have hback := settings_rollback t env s.settings.settings (getConnections s.connections)
        brought.settings.isSome (brought.connections.isSome || changed)
      generalize t.rollback env s.settings.settings (getConnections s.connections)
        brought.settings.isSome (brought.connections.isSome || changed) = b at hback ⊢
      obtain ⟨u, rollbackErr⟩ := b
      have hu : u.settings.settings = s.settings.settings := by
        have heq : u.settings = t.settingsBack env s.settings.settings brought.settings.isSome :=
          hback
        rw [heq, Service.settingsBack, ht]
        cases hsome : brought.settings with
        | none =>
          rw [hsome] at hstored
          obtain ⟨rfl, -⟩ := Prod.ext_iff.mp hstored
          rfl
        | some next =>
          show (settings.updateSettings env.settingsRollback s.settings.settings).1.settings = _
          unfold SettingsService.Service.updateSettings SettingsService.Service.store
          rw [hw]
          exact h.settings.normal
      cases rollbackErr <;> exact hu

/-! ### The connections -/

/-- The connections once an import is put in place. -/
def applied (c : Connection.Service) (e : Connection.Env)
    (imported : Option (List (Option ConnectionProfile))) : Connection.Service :=
  match imported with
  | some profiles => (c.replaceConnections e profiles).1
  | none => (c.reload e).1

theorem endpoints_applied (c : Connection.Service) (e : Connection.Env)
    (imported : Option (List (Option ConnectionProfile))) :
    (applied c e imported).endpoints = c.endpoints := by
  cases imported with
  | some profiles => exact endpoints_replaceConnections c e profiles
  | none => exact endpoints_reload c e

/-- What fails has been put in place, as far as it got. -/
theorem applyConnections_failed {t : Service} (hc : t.connections = some c) (env : Env)
    (imported : Option (List (Option ConnectionProfile))) (changed : Bool)
    (hfailed : (t.applyConnections env imported changed).2 ≠ none) :
    (imported.isSome || changed) = true ∧
      (t.applyConnections env imported changed).1.connections =
        some (applied c (under env.apply t.settings.settings) imported) := by
  obtain ⟨settings, connections⟩ := t
  obtain rfl : connections = some c := hc
  cases imported with
  | some profiles => exact ⟨rfl, rfl⟩
  | none =>
    cases changed with
    | true => exact ⟨rfl, rfl⟩
    | false => exact absurd rfl hfailed

/-- The profiles after a rollback: as the import left them if one of the old ones is refused, and
prepared otherwise. -/
theorem offline_rollback (h : Connection.InStep open_ c) {d : Connection.Service}
    {e : Connection.Env} (hd : d.endpoints = c.endpoints) (hw : e.writeErr = none) :
    ((∃ (k : Int) (p : _), c.connections[k]? = some p ∧ Refused c p) ∧
        (d.replaceConnections e (stored c.connections)).1 = d) ∨
      ((∀ (k : Int) p, c.connections[k]? = some p → ¬ Refused c p) ∧
        offline (d.replaceConnections e (stored c.connections)).1.connections =
          offline (preparedAll c.connections)) := by
  by_cases hr : ∃ (k : Int) (p : _), c.connections[k]? = some p ∧ Refused c p
  · refine Or.inl ⟨hr, ?_⟩
    obtain ⟨k, p, hp, hrefused⟩ := hr
    obtain ⟨err, herr⟩ := prepareReplacement_refused (c := d) h.settled hp
      (refused_congr hd.symm rfl hrefused)
    rw [Connection.Service.replaceConnections, herr]
  · have hnone : ∀ (k : Int) p, c.connections[k]? = some p → ¬ Refused c p :=
      fun k p hp hrefused => hr ⟨k, p, hp, hrefused⟩
    refine Or.inr ⟨hnone, replaceConnections_stored (m := c.connections) h.numbered h.settled
      (fun k p hp hrefused => hnone k p hp (refused_congr hd rfl hrefused)) hw⟩

/-- What an import that fails leaves of the connections, once its settings are stored. -/
theorem connections_failed (hc : s.connections = some c) {brought : Import}
    {settings : SettingsService.Service} {updated : AppSettings}
    (hstored : s.importSettings env brought.settings = (settings, .ok updated))
    (hfailed : (s.importConfig env brought).2 ≠ none) :
    ∃ e : Connection.Env, e.writeErr = env.rollback.writeErr ∧
      (s.importConfig env brought).1.connections =
        some ((applied c (under env.apply settings.settings) brought.connections).replaceConnections
          e (stored c.connections)).1 := by
  unfold Service.importConfig at hfailed ⊢
  rw [hstored] at hfailed ⊢
  dsimp only at hfailed ⊢
  generalize credentialsChanged s.settings.settings updated = changed at hfailed ⊢
  have happly := applyConnections_failed (t := { s with settings := settings }) hc
    env brought.connections changed
  generalize Service.applyConnections { s with settings := settings } env brought.connections
    changed = r at happly hfailed ⊢
  obtain ⟨t, err⟩ := r
  cases err with
  | none => exact absurd rfl hfailed
  | some err =>
    obtain ⟨hflag, ht⟩ := happly (by simp)
    dsimp only at hfailed ht ⊢
    rw [hflag]
    have hback := connections_rollback t env s.settings.settings (getConnections s.connections)
      brought.settings.isSome true
    generalize hb : t.rollback env s.settings.settings (getConnections s.connections)
      brought.settings.isSome true = b at hback ⊢
    obtain ⟨u, rollbackErr⟩ := b
    have hu : u.connections = some ((applied c (under env.apply settings.settings)
        brought.connections).replaceConnections (under env.rollback
          (t.settingsBack env s.settings.settings brought.settings.isSome).settings)
          (stored c.connections)).1 := by
      rw [hback, ht, hc]
      rfl
    refine ⟨under env.rollback (t.settingsBack env s.settings.settings
      brought.settings.isSome).settings, rfl, ?_⟩
    cases rollbackErr <;> exact hu

/-! ### All of it -/

/-- Settings and profiles are the same, but for what the runtime makes of them. -/
structure Unchanged (s t : Service) : Prop where
  settings : t.settings.settings = s.settings.settings
  connections :
    t.connections.map (offline ·.connections) = s.connections.map (offline ·.connections)

/-- The profiles that are stored. -/
def Stored (s : Service) (Q : Connection.Service → ConnectionProfile → Prop) : Prop :=
  ∃ c, s.connections = some c ∧ ∃ (k : Int) (p : _), c.connections[k]? = some p ∧ Q c p

/-- When an import that fails is undone: it changed nothing, or every profile is `Kept`, or one of
them is refused and what was imported is not in place. -/
def Undone (s : Service) (env : Env) (raw : String) : Prop :=
  match s.readImport env raw with
  | .error _ => True
  | .ok brought =>
    (brought.settings.isSome = true ∧ env.settings.writeErr ≠ none) ∨
    (¬ Stored s fun c p => ¬ Kept c p) ∨
    (Stored s Refused ∧ (brought.connections = none ∨ env.apply.writeErr ≠ none))

/-- An import that brings connections has had them checked. -/
theorem prepared_of_readImport {raw : String} {brought : Import}
    {profiles : List (Option ConnectionProfile)} (h : s.readImport env raw = .ok brought)
    (hp : brought.connections = some profiles) :
    ∃ c, s.connections = some c ∧ ∃ qs, c.prepareReplacement profiles = .ok qs := by
  unfold Service.readImport at h
  split at h
  · cases h
  split at h
  · cases h
  split at h
  · cases h
  split at h
  · cases h
  rename_i imported himported
  obtain rfl := Except.ok.inj h
  obtain rfl : imported = some profiles := hp
  unfold Service.importedConnections at himported
  split at himported
  · cases himported
  · cases himported
  split at himported
  · cases himported
  dsimp only at himported
  split at himported
  · cases himported
  rename_i c hc
  split at himported
  · cases himported
  · rename_i hvalid
    obtain rfl := Option.some.inj (Except.ok.inj himported)
    refine ⟨c, hc, ?_⟩
    unfold Connection.Service.validateConnections at hvalid
    split at hvalid
    · cases hvalid
    · rename_i qs hqs
      exact ⟨qs, hqs⟩

/-- What is in place is what was there, where a profile of it is refused, exactly if no other
profiles were written. -/
theorem offline_applied_iff (h : Connection.InStep open_ c) {e : Connection.Env}
    (hk : e.openValue = open_) {imported : Option (List (Option ConnectionProfile))}
    (hprepared : ∀ profiles, imported = some profiles →
      ∃ qs, c.prepareReplacement profiles = .ok qs)
    {k : Int} {p : ConnectionProfile} (hp : c.connections[k]? = some p) (hr : Refused c p) :
    offline (applied c e imported).connections = offline c.connections ↔
      imported = none ∨ e.writeErr ≠ none := by
  cases imported with
  | none => exact ⟨fun _ => Or.inl rfl, fun _ => offline_reload h.agrees hk⟩
  | some profiles =>
    obtain ⟨qs, hqs⟩ := hprepared profiles rfl
    show offline (c.replaceConnections e profiles).1.connections = _ ↔ _
    rw [Connection.Service.replaceConnections, hqs]
    dsimp only
    cases hw : e.writeErr with
    | some err => exact ⟨fun _ => Or.inr (by simp), fun _ => rfl⟩
    | none =>
      constructor
      · intro hsame
        have hbuilt : offline (buildConnectionState (qs.map some)).1 = offline c.connections :=
          (offline_restoreRuntimeLocked _ e _).symm.trans hsame
        have hat := congrArg (·[k]?) hbuilt
        simp only [getElem?_offline, hp, Option.map_some] at hat
        obtain ⟨q, hq, heq⟩ := Option.map_eq_some_iff.mp hat
        exact absurd (refused_congr rfl heq.symm hr) (not_refused_replaced hqs hq)
      · rintro (hnone | hne)
        · cases hnone
        · exact absurd rfl hne

theorem importSettings_cases (s : Service) (env : Env) (settings : Option AppSettings) :
    (settings.isSome = true ∧ env.settings.writeErr ≠ none ∧
      ∃ err, s.importSettings env settings = (s.settings, .error err)) ∨
    (¬ (settings.isSome = true ∧ env.settings.writeErr ≠ none) ∧
      ∃ stored updated, s.importSettings env settings = (stored, .ok updated)) := by
  unfold Service.importSettings
  cases settings with
  | none => exact Or.inr ⟨by simp, _, _, rfl⟩
  | some settings =>
    unfold SettingsService.Service.updateSettings SettingsService.Service.store
    cases hw : env.settings.writeErr with
    | some err => exact Or.inl ⟨rfl, by simp, err, rfl⟩
    | none => exact Or.inr ⟨by simp, _, _, rfl⟩

/-- **An import that fails leaves everything as it was** exactly if it is `Undone`. -/
theorem failed_import_undone_iff (h : Reached open_ s) (hk : env.apply.openValue = open_)
    (hws : env.settingsRollback.writeErr = none) (hw : env.rollback.writeErr = none)
    {raw : String} (hfailed : (s.importAllConfig env raw).2 ≠ none) :
    Unchanged s (s.importAllConfig env raw).1 ↔ Undone s env raw := by
  have hstep := h.inStep
  unfold Service.importAllConfig at hfailed ⊢
  unfold Undone
  cases hread : s.readImport env raw with
  | error err => exact ⟨fun _ => trivial, fun _ => ⟨rfl, rfl⟩⟩
  | ok brought =>
    rw [hread] at hfailed
    dsimp only at hfailed ⊢
    rcases importSettings_cases s env brought.settings with
      ⟨hsome, hne, err, hstored⟩ | ⟨hnot, stored, updated, hstored⟩
    · -- The settings could not be written.
      have himport : (s.importConfig env brought).1 = s := by
        unfold Service.importConfig
        rw [hstored]
      rw [himport]
      exact ⟨fun _ => Or.inl ⟨hsome, hne⟩, fun _ => ⟨rfl, rfl⟩⟩
    · have hsettings := settings_failed hstep hws brought hfailed
      cases hc : s.connections with
      | none =>
        -- Without connections there is nothing that could fail.
        refine absurd ?_ hfailed
        have hnone : brought.connections = none := by
          cases hbrought : brought.connections with
          | none => rfl
          | some profiles =>
            obtain ⟨c, hcs, -⟩ := prepared_of_readImport hread hbrought
            rw [hc] at hcs
            cases hcs
        unfold Service.importConfig
        rw [hstored, hnone, hc]
        rfl
      | some c =>
        have hcstep := hstep.connections c hc
        obtain ⟨e, he, hafter⟩ := connections_failed hc hstored hfailed
        have hiff : Unchanged s (s.importConfig env brought).1 ↔
            offline ((applied c (under env.apply stored.settings) brought.connections
              ).replaceConnections e (Configuration.stored c.connections)).1.connections =
              offline c.connections := by
          constructor
          · intro hu
            have := hu.connections
            rw [hafter, hc] at this
            exact Option.some.inj this
          · intro heq
            refine ⟨hsettings, ?_⟩
            rw [hafter, hc, Option.map_some, heq]
            rfl
        rw [hiff, or_iff_right hnot]
        rcases offline_rollback hcstep (d := applied c (under env.apply stored.settings)
            brought.connections) (endpoints_applied c _ _) (he.trans hw) with
          ⟨⟨k, p, hp, hr⟩, heq⟩ | ⟨hnone, heq⟩
        · rw [heq, offline_applied_iff hcstep (e := under env.apply stored.settings) hk
            (fun profiles hprofiles => ?_) hp hr]
          · have hrefused : Stored s Refused := ⟨c, hc, k, p, hp, hr⟩
            have hkept : ¬ ¬ Stored s fun c p => ¬ Kept c p :=
              fun hn => hn ⟨c, hc, k, p, hp, fun hkept => hkept.not_refused hr⟩
            rw [or_iff_right hkept, and_iff_right hrefused]
            rfl
          · obtain ⟨c', hc', hqs⟩ := prepared_of_readImport hread hprofiles
            obtain rfl := Option.some.inj (hc.symm.trans hc')
            exact hqs
        · rw [heq, offline_preparedAll_iff hnone]
          constructor
          · intro hall
            refine Or.inl ?_
            rintro ⟨c', hc', k, p, hp, hn⟩
            obtain rfl := Option.some.inj (hc.symm.trans hc')
            exact hn (hall k p hp)
          · rintro (hall | ⟨⟨c', hc', k, p, hp, hr⟩, -⟩) k' p' hp'
            · by_contra hn
              exact hall ⟨c, hc, k', p', hp', hn⟩
            · obtain rfl := Option.some.inj (hc.symm.trans hc')
              exact absurd hr (hnone k p hp)

/-! ### A mechanism that is lost -/

/-- Nothing fails outside but the write of the connections that are imported. -/
def fullEnv : Env := { calmEnv with apply := { calm with writeErr := some (.new "disk full") } }

/-- A text that is no import changes nothing. -/
theorem unchanged_after_text :
    Unchanged (kafkaService authSASLPlain)
      ((kafkaService authSASLPlain).importAllConfig calmEnv "x").1 := by
  have hread : ∃ err, (kafkaService authSASLPlain).readImport calmEnv "x" = .error err := by
    refine ⟨.wrap "解析导入数据失败" .json, ?_⟩
    have hparse : Connection.unmarshal (decodeStruct importMembers) ⟨0, none, none⟩ "x" =
        .error .json := by rfl
    rw [Service.readImport, hparse]
  obtain ⟨err, herr⟩ := hread
  have hreached := reached_kafkaService authSASLPlain (by decide)
  refine (failed_import_undone_iff hreached rfl rfl rfl ?_).mpr ?_
  · rw [Service.importAllConfig, herr]
    simp
  · rw [Undone, herr]
    trivial

/-- The import of a Kafka connection cannot be written, and the rollback takes the mechanism of the
one that is there. -/
theorem rollback_loses_mechanism : ¬ ∀ (s : Service) (env : Env) (raw : String),
    Reached calm.openValue s → env.apply.openValue = calm.openValue →
    env.settingsRollback.writeErr = none → env.rollback.writeErr = none →
    (s.importAllConfig env raw).2 ≠ none → Unchanged s (s.importAllConfig env raw).1 := by
  intro hall
  have hreached := reached_kafkaService authSASLPlain (by decide)
  have hstep := hreached.inStep
  set s := kafkaService authSASLPlain with hs
  set c := kafkaConnections authSASLPlain with hdef
  have hc : s.connections = some c := rfl
  have hr : ∀ (k : Int) p, c.connections[k]? = some p → ¬ Refused c p := not_refused_kafka
  have hcstep := hstep.connections c hc
  have hprepare := prepareReplacement_stored (m := c.connections) hcstep.numbered hcstep.settled hr
  have hread := readImport_export hstep hc hc fullEnv calmEnv
  have hnone : c.validateConnections (stored c.connections) = none := by
    rw [Connection.Service.validateConnections, hprepare]
  rw [hnone] at hread
  dsimp only at hread
  -- The settings are stored, and the connections are not.
  set brought : Import := ⟨some s.settings.settings, some (stored c.connections)⟩ with hbrought
  obtain ⟨settings, updated, hstored⟩ : ∃ settings updated,
      s.importSettings fullEnv brought.settings = (settings, .ok updated) := ⟨_, _, rfl⟩
  have happly : ∀ settings : SettingsService.Service, ∀ changed,
      (Service.applyConnections { s with settings := settings } fullEnv brought.connections
        changed).2 = some (.new "disk full") := by
    intro settings changed
    change (c.replaceConnections (under fullEnv.apply settings.settings)
      (stored c.connections)).2 = _
    rw [Connection.Service.replaceConnections, hprepare]
    rfl
  have hfailed : (s.importConfig fullEnv brought).2 ≠ none := by
    unfold Service.importConfig
    rw [hstored]
    dsimp only
    generalize credentialsChanged s.settings.settings updated = changed
    have herr := happly settings changed
    generalize Service.applyConnections { s with settings := settings } fullEnv
      brought.connections changed = r at herr ⊢
    obtain ⟨t, err⟩ := r
    obtain rfl : err = some (.new "disk full") := herr
    dsimp only
    generalize t.rollback fullEnv _ _ _ _ = b
    obtain ⟨u, rollbackErr⟩ := b
    cases rollbackErr <;> simp
  have himport : s.importAllConfig fullEnv (s.exportAllConfig calmEnv) =
      s.importConfig fullEnv brought := by
    rw [Service.importAllConfig, hread]
  have hunchanged := hall s fullEnv (s.exportAllConfig calmEnv) hreached rfl rfl rfl
    (by rw [himport]; exact hfailed)
  rw [himport] at hunchanged
  obtain ⟨e, he, hafter⟩ := connections_failed hc hstored hfailed
  have hoffline := hunchanged.connections
  rw [hafter, hc] at hoffline
  have hback := Option.some.inj hoffline
  rcases offline_rollback hcstep (d := applied c (under fullEnv.apply settings.settings)
      brought.connections) (endpoints_applied c _ _) (he.trans rfl) with
    ⟨⟨k, p, hp, hrefused⟩, -⟩ | ⟨-, heq⟩
  · exact hr k p hp hrefused
  · exact not_kept_kafka ((offline_preparedAll_iff hr).mp (heq.symm.trans hback))

end MqStudio.Configuration
