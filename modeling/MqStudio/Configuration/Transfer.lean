import MqStudio.Configuration.Replacement

/-!
# An export that is imported

What an export holds is decoded to the profiles it was made from, whatever their families are; what
the import then stores has gone through a replacement once.

* `readImport_export`: an export passes every check but that of the profiles themselves.
* `restored_iff`: the profiles come back exactly if each of them is `Kept`, or if the import is
  refused and they are there already.
* `mechanism_lost`: a Kafka connection comes back without its mechanism.
-/

namespace MqStudio.Configuration

open Model Lib.Json Lib.Errors Connection

/-! ### What an export is decoded to -/

/-- A member that an import has no field for is skipped. -/
theorem decodeMember_other {payload : ImportPayload} {k : String} {v : Value}
    (h : (findMember importMembers k).isNone = true) :
    decodeMember importMembers payload (k, v) = (payload, true) := by
  rw [decodeMember, Option.isNone_iff_eq_none.mp h]

theorem decodeMember_own {payload : ImportPayload} {f : Member ImportPayload} {v : Value}
    (h : f ∈ importMembers) :
    decodeMember importMembers payload (f.name, v) = f.dec payload v := by
  rw [decodeMember, findMember_eq (by decide) h]

/-- The payload of an import that was an export. -/
def importedPayload (x : ExportPayload) : ImportPayload where
  version := x.version
  settings := some x.settings
  connections := some (encodeStruct connectionStoreMembers x.connections)

theorem decodeImport_encodeExport (x : ExportPayload) :
    decodeStruct importMembers ⟨0, none, none⟩ (encodeStruct exportMembers x) =
      (importedPayload x, true) := by
  have hversion : ∀ payload, decodeMember importMembers payload
      ("version", ofInt x.version.toInt) = ({ payload with version := x.version }, true) := by
    intro payload
    refine (decodeMember_own (f := importMembers[0]) (by simp)).trans ?_
    change (({ payload with version := (decodeInt64 _ _).1 } : ImportPayload), _) = _
    rw [decodeInt64_ofInt]
  have hsettings : ∀ payload : ImportPayload, payload.settings = none →
      decodeMember importMembers payload ("settings", encodeSettings x.settings) =
        ({ payload with settings := some x.settings }, true) := by
    intro payload hnone
    refine (decodeMember_own (f := importMembers[1]) (by simp)).trans ?_
    change (({ payload with
      settings := (decodePointer .zero decodeSettings payload.settings _).1 } : ImportPayload),
      (decodePointer .zero decodeSettings payload.settings _).2) = _
    have hread := decodeSettings_encodeSettings .zero x.settings
    rw [hnone, encodeSettings, encodeStruct, decodePointer_object]
    rw [encodeSettings, encodeStruct] at hread
    rw [hread]
  have hconnections : ∀ (payload : ImportPayload) (v : Value),
      decodeMember importMembers payload ("connections", v) =
        ({ payload with connections := some v }, true) := fun payload v =>
    decodeMember_own (f := importMembers[2]) (by simp)
  change decodeAll (decodeMember importMembers) ⟨0, none, none⟩
    [("version", ofInt x.version.toInt), ("containsSecrets", .bool x.containsSecrets),
      ("exportedAt", .string x.exportedAt), ("settings", encodeSettings x.settings),
      ("connections", encodeStruct connectionStoreMembers x.connections)] = _
  simp only [decodeAll, hversion, decodeMember_other (k := "containsSecrets") (by decide),
    decodeMember_other (k := "exportedAt") (by decide), hsettings, hconnections, Bool.and_true]
  rfl

/-- The records of an export are read back, and folded in already. -/
theorem decodeConnectionStore_export (env : Connection.Env) {ps : List ConnectionProfile}
    (hid : ∀ p ∈ ps, -2 ^ 63 ≤ p.id ∧ p.id < 2 ^ 63)
    (hnamed : ∀ p ∈ ps, p.kind ≠ ⟨""⟩ ∧ p.auth.mechanism ≠ ⟨""⟩) :
    decodeConnectionStore env
        (encodeStruct connectionStoreMembers ⟨some ((ps.map newConnectionRecord).map some)⟩) false =
      .ok ((ps.map newConnectionRecord).map some) := by
  have hrecords : decodeRecords none
      (encodeRecords (some ((ps.map newConnectionRecord).map some))) =
      (some (ps.map fun p => some (newConnectionRecord p)), true) := by
    rw [decodeRecords, encodeRecords, List.map_map, List.map_map]
    refine decodeSlice_map fun p hp => ?_
    have hr := decodeRecord_encodeRecord (hid p hp)
    change decodePointer ConnectionRecord.zero decodeRecord none (encodeRecord _) = _
    rw [encodeRecord, encodeStruct, decodePointer_object]
    rw [encodeRecord, encodeStruct] at hr
    rw [hr]
  have hstore : decodeStruct connectionStoreMembers ⟨none⟩
      (encodeStruct connectionStoreMembers ⟨some ((ps.map newConnectionRecord).map some)⟩) =
      (⟨some (ps.map fun p => some (newConnectionRecord p))⟩, true) := by
    rw [decodeStruct_encodeStruct (by decide)]
    simp only [connectionStoreMembers, decodeAll, Member.reread, Member.of]
    rw [hrecords]
    rfl
  have hof : recordsOf
      (encodeStruct connectionStoreMembers ⟨some ((ps.map newConnectionRecord).map some)⟩) =
      .ok (ps.map fun p => some (newConnectionRecord p)) := by
    rw [recordsOf, hstore]
    rfl
  rw [decodeConnectionStore, hof]
  dsimp only
  rw [if_neg Bool.false_ne_true, List.map_map, List.map_map]
  refine congrArg Except.ok (List.map_congr_left fun p hp => ?_)
  obtain ⟨hk, hm⟩ := hnamed p hp
  exact congrArg some (congrArg newConnectionRecord (profile_newConnectionRecord hk hm))

/-! ### Importing it -/

variable {open_ : String → String → Except Error String} {source target : Service}
  {c d : Connection.Service} {env e : Env}

theorem ids_inRange (h : InStep open_ source) (hc : source.connections = some c) :
    ∀ p ∈ copyConnectionsSorted c.connections, -2 ^ 63 ≤ p.id ∧ p.id < 2 ^ 63 := by
  intro p hp
  obtain ⟨k, hk⟩ := copyConnectionsSorted_mem.mp hp
  have hpos := (h.connections c hc).numbered.toIdInv.id_pos hk
  exact ⟨by omega, h.inRange c hc k p hk⟩

/-- **An export passes every check** but that of the profiles themselves. -/
theorem readImport_export (h : InStep open_ source) (hc : source.connections = some c)
    (hd : target.connections = some d) (env e : Env) :
    target.readImport env (source.exportAllConfig e) =
      match d.validateConnections (stored c.connections) with
      | some err => .error (.wrap "准备连接配置失败" err)
      | none => .ok ⟨some source.settings.settings, some (stored c.connections)⟩ := by
  have hread : unmarshal (decodeStruct importMembers) ⟨0, none, none⟩
      (source.exportAllConfig e) = .ok (importedPayload (source.exportPayload e)) :=
    unmarshal_marshalIndent (decodeImport_encodeExport _)
  have hrecords : decodeConnectionStore env.apply
      (encodeStruct connectionStoreMembers (source.exportPayload e).connections) false =
      .ok (((copyConnectionsSorted c.connections).map newConnectionRecord).map some) := by
    have hexport : (source.exportPayload e).connections =
        ⟨some (((copyConnectionsSorted c.connections).map newConnectionRecord).map some)⟩ := by
      rw [Service.exportPayload, hc]
      rfl
    rw [hexport]
    refine decodeConnectionStore_export env.apply (ids_inRange h hc) fun p hp => ?_
    obtain ⟨k, hk⟩ := copyConnectionsSorted_mem.mp hp
    exact ⟨(h.connections c hc).named k p hk, ((h.connections c hc).settled k p hk).mechanism⟩
  have hprofiles : ((((copyConnectionsSorted c.connections).map newConnectionRecord).map some).map
      fun record : Option ConnectionRecord => record.map ConnectionRecord.profile) =
      stored c.connections := by
    rw [List.map_map, List.map_map, stored]
    refine List.map_congr_left fun p hp => ?_
    obtain ⟨k, hk⟩ := copyConnectionsSorted_mem.mp hp
    exact congrArg some (profile_newConnectionRecord ((h.connections c hc).named k p hk)
      ((h.connections c hc).settled k p hk).mechanism)
  have himported : target.importedConnections env (importedPayload (source.exportPayload e)) =
      match d.validateConnections (stored c.connections) with
      | some err => .error (.wrap "准备连接配置失败" err)
      | none => .ok (some (stored c.connections)) := by
    have hcurrent : decide ((importedPayload (source.exportPayload e)).version <
        currentExportVersion) = false := by
      show decide ((2 : Int64) < currentExportVersion) = false
      decide
    obtain ⟨fields, hfields⟩ : ∃ fields, encodeStruct connectionStoreMembers
        (source.exportPayload e).connections = .object fields := ⟨_, rfl⟩
    rw [hfields] at hrecords
    unfold Service.importedConnections
    rw [hcurrent]
    unfold importedPayload
    dsimp only
    rw [hfields]
    dsimp only
    rw [hrecords, hd]
    dsimp only
    rw [hprofiles]
    all_goals cases d.validateConnections (stored c.connections) <;> rfl
  rw [Service.readImport, hread]
  dsimp only
  have hversion :
      ¬ currentExportVersion < (importedPayload (source.exportPayload e)).version := by
    show ¬ currentExportVersion < (2 : Int64)
    decide
  rw [if_neg hversion, if_neg (by simp [importedPayload]), himported]
  all_goals cases d.validateConnections (stored c.connections) <;> rfl

/-- A call that fails neither to write nor to dial. -/
structure Succeeds (env : Env) : Prop where
  settings : env.settings.writeErr = none
  write : env.apply.writeErr = none
  dial : env.apply.dialErr = none
  status : env.apply.statusWriteErr = none

/-- The runtime is restored where nothing fails. -/
theorem restoreRuntimeLocked_ok {s : Connection.Service} {n : Int} (h : IdInv s.connections n)
    {env : Connection.Env} (hdial : env.dialErr = none) (hstatus : env.statusWriteErr = none)
    (plan : Bool) : (s.restoreRuntimeLocked env plan).2 = none := by
  unfold Connection.Service.restoreRuntimeLocked
  dsimp only
  split
  · rename_i hplan
    obtain ⟨p, hp⟩ : ∃ p, s.connections[defaultID s.connections]? = some p := by
      have hne : defaultID s.connections ≠ 0 := by
        have := (Bool.and_eq_true_iff.mp hplan).2
        exact of_decide_eq_true this
      unfold defaultID at hne ⊢
      cases hfind : (copyConnectionsSorted s.connections).find? (·.isDefault) with
      | none =>
        rw [hfind] at hne
        exact absurd rfl hne
      | some p =>
        obtain ⟨k, hk⟩ := copyConnectionsSorted_mem.mp (List.mem_of_find?_eq_some hfind)
        refine ⟨p, ?_⟩
        dsimp only
        rw [h.key_eq_id hk]
        exact hk
    have hconnect : (Connection.Service.connectRuntimeLocked { s with clients := ∅ } env
        (defaultID s.connections)).2 = none := by
      unfold Connection.Service.connectRuntimeLocked
      dsimp only
      rw [hp, hdial]
      dsimp only
      rw [hstatus]
      rfl
    generalize Connection.Service.connectRuntimeLocked { s with clients := ∅ } env
      (defaultID s.connections) = r at hconnect
    obtain ⟨t, e⟩ := r
    cases e with
    | none => rfl
    | some err => cases hconnect
  · rfl

theorem replaceConnections_ok {ps : List (Option ConnectionProfile)} {e : Connection.Env}
    {qs : List ConnectionProfile} (hp : c.prepareReplacement ps = .ok qs)
    (hw : e.writeErr = none) (hdial : e.dialErr = none) (hstatus : e.statusWriteErr = none) :
    (c.replaceConnections e ps).2 = none := by
  unfold Connection.Service.replaceConnections
  rw [hp]
  dsimp only
  rw [hw]
  exact restoreRuntimeLocked_ok (storeInv_buildConnectionState _).toIdInv hdial hstatus _

/-- The profiles of one service are those of the other, but for what the runtime makes of them. -/
def Restored (target : Service) (c : Connection.Service) : Prop :=
  ∃ d, target.connections = some d ∧ offline d.connections = offline c.connections

/-- What an import of an export leaves, where it is accepted. -/
theorem importAllConfig_accepted (h : InStep open_ source) (hc : source.connections = some c)
    (hd : target.connections = some d) (henv : Succeeds env)
    (hr : ∀ (k : Int) p, c.connections[k]? = some p → ¬ Refused d p) :
    ∃ d', (target.importAllConfig env (source.exportAllConfig e)).1.connections = some d' ∧
      offline d'.connections = offline (preparedAll c.connections) := by
  have hstep := h.connections c hc
  have hprepare := prepareReplacement_stored (m := c.connections) hstep.numbered hstep.settled hr
  have hread := readImport_export h hc hd env e
  have hvalid : d.validateConnections (stored c.connections) = none := by
    rw [Connection.Service.validateConnections, hprepare]
  rw [hvalid] at hread
  dsimp only at hread
  have hsettings : target.importSettings env (some source.settings.settings) =
      (⟨normalize source.settings.settings,
        some (SettingsService.marshalForDisk env.settings (normalize source.settings.settings))⟩,
        .ok (normalize source.settings.settings)) := by
    unfold Service.importSettings SettingsService.Service.updateSettings
      SettingsService.Service.store
    rw [henv.settings]
  have hok : ∀ settings : AppSettings,
      (d.replaceConnections (under env.apply settings) (stored c.connections)).2 = none :=
    fun settings => replaceConnections_ok hprepare henv.write henv.dial henv.status
  have happly : ∀ (settings : SettingsService.Service) (changed : Bool),
      (⟨settings, target.connections⟩ : Service).applyConnections env
        (some (stored c.connections)) changed =
      (⟨settings, some (d.replaceConnections (under env.apply settings.settings)
        (stored c.connections)).1⟩, none) := by
    intro settings changed
    rw [hd]
    exact Prod.ext rfl (hok settings.settings)
  rw [Service.importAllConfig, hread]
  dsimp only
  rw [Service.importConfig, hsettings]
  dsimp only
  rw [happly]
  refine ⟨_, rfl, ?_⟩
  exact replaceConnections_stored (m := c.connections) hstep.numbered hstep.settled hr henv.write

/-- What an import of an export leaves, where a profile is refused. -/
theorem importAllConfig_refused (h : InStep open_ source) (hc : source.connections = some c)
    (hd : target.connections = some d) {k : Int} {p : ConnectionProfile}
    (hp : c.connections[k]? = some p) (hr : Refused d p) :
    (target.importAllConfig env (source.exportAllConfig e)).1 = target := by
  obtain ⟨err, hprepare⟩ := prepareReplacement_refused (h.connections c hc).settled hp hr
  have hvalid : d.validateConnections (stored c.connections) = some err := by
    rw [Connection.Service.validateConnections, hprepare]
  have hread := readImport_export h hc hd env e
  rw [hvalid] at hread
  rw [Service.importAllConfig, hread]

/-- **The profiles come back** exactly if every one of them is `Kept`, or if one of them is refused,
and with it the import, while they are there already. -/
theorem restored_iff (h : Reached open_ source) (hc : source.connections = some c)
    (hd : target.connections = some d) (henv : Succeeds env) :
    Restored (target.importAllConfig env (source.exportAllConfig e)).1 c ↔
      (∀ (k : Int) p, c.connections[k]? = some p → Kept d p) ∨
      ((∃ (k : Int) (p : _), c.connections[k]? = some p ∧ Refused d p) ∧
        offline d.connections = offline c.connections) := by
  by_cases hr : ∃ (k : Int) (p : _), c.connections[k]? = some p ∧ Refused d p
  · obtain ⟨k, p, hp, hrefused⟩ := hr
    have himport : (target.importAllConfig env (source.exportAllConfig e)).1 = target :=
      importAllConfig_refused h.inStep hc hd hp hrefused
    rw [himport]
    constructor
    · rintro ⟨d', hd', heq⟩
      obtain rfl := Option.some.inj (hd.symm.trans hd')
      exact Or.inr ⟨⟨k, p, hp, hrefused⟩, heq⟩
    · rintro (hkept | ⟨-, heq⟩)
      · exact absurd hrefused (hkept k p hp).not_refused
      · exact ⟨d, hd, heq⟩
  · have hnone : ∀ (k : Int) p, c.connections[k]? = some p → ¬ Refused d p :=
      fun k p hp hrefused => hr ⟨k, p, hp, hrefused⟩
    obtain ⟨d', hd', heq⟩ := importAllConfig_accepted (e := e) h.inStep hc hd henv hnone
    have hiff := offline_preparedAll_iff hnone
    constructor
    · rintro ⟨e, he, hrestored⟩
      obtain rfl := Option.some.inj (hd'.symm.trans he)
      exact Or.inl (hiff.mp (heq.symm.trans hrestored))
    · rintro (hkept | ⟨hrefused, -⟩)
      · exact ⟨d', hd', heq.trans (hiff.mpr hkept)⟩
      · exact absurd hrefused hr

/-! ### A mechanism that is lost -/

/-- Nothing fails outside. -/
def calmEnv : Env := ⟨"", calm, calm, calm, calm⟩

/-- Services that find no files. -/
def emptyService : Service := ⟨.new none calm, some (fresh none none)⟩

/-- A Kafka connection is added. -/
def addKafka (mechanism : AuthMechanism) : Call :=
  ⟨.connection (.addConnection (kafkaForm mechanism)), calmEnv⟩

def kafkaService (mechanism : AuthMechanism) : Service := exec emptyService (addKafka mechanism)

/-- The connections of that service. -/
def kafkaConnections (mechanism : AuthMechanism) : Connection.Service :=
  Connection.exec (fresh none none)
    ⟨.addConnection (kafkaForm mechanism), under calm emptyService.settings.settings⟩

theorem started_emptyService : Started calm.openValue emptyService where
  settings := ⟨none, calm, rfl, rfl, rfl⟩
  connections := by
    rintro c ⟨⟩
    exact ⟨none, none, calm, rfl, rfl, fun k p hp => by simp [fresh] at hp⟩

theorem reached_kafkaService (mechanism : AuthMechanism)
    (h : (kafkaConnections mechanism).nextID ≤ 2 ^ 63) :
    Reached calm.openValue (kafkaService mechanism) := by
  refine ⟨emptyService, [addKafka mechanism], started_emptyService, ⟨⟨keyed_calm, keyed_calm,
    keyed_calm, keyed_calm, ?_, by rintro _ ⟨⟩⟩, trivial⟩, rfl⟩
  rintro c ⟨⟩
  have hi : (fresh none none).core.Inv := inv_new none none calm
  exact ⟨InRange.of_nextID (inv_exec hi _) h, trivial⟩

/-- A restart finds that connection. -/
theorem kafka_restarted : (∀ env : Connection.Env, env.openValue = calm.openValue →
      env.readErr = none →
      (SettingsService.Service.new (kafkaService authNone).settings.file env).settings =
        (kafkaService authNone).settings.settings) ∧
    ∀ c, (kafkaService authNone).connections = some c → Connection.Agrees calm.openValue c :=
  restart_reached (reached_kafkaService authNone (by decide))

theorem succeeds_calmEnv : Succeeds calmEnv := ⟨rfl, rfl, rfl, rfl⟩

/-- A Kafka connection without credentials comes back. -/
theorem plain_restored : Restored ((kafkaService authNone).importAllConfig calmEnv
    ((kafkaService authNone).exportAllConfig calmEnv)).1 (kafkaConnections authNone) := by
  have hkept : ∀ p ∈ copyConnectionsSorted (kafkaConnections authNone).connections,
      p.auth.mechanism = authNone ∧
      (kafkaConnections authNone).validateConnectionFields p.kind p.name p.endpoints p.timeoutSec =
        .ok (p.name, p.endpoints) := by decide
  refine (restored_iff (reached_kafkaService authNone (by decide)) rfl rfl
    succeeds_calmEnv).mpr (Or.inl fun k p hp => ?_)
  obtain ⟨hm, hv⟩ := hkept p (copyConnectionsSorted_mem.mpr ⟨k, hp⟩)
  exact ⟨Or.inr hm, hv⟩

/-- A Kafka connection with a password is accepted. -/
theorem not_refused_kafka (k : Int) (p : ConnectionProfile)
    (hp : (kafkaConnections authSASLPlain).connections[k]? = some p) :
    ¬ Refused (kafkaConnections authSASLPlain) p := by
  have hvalid : ∀ p ∈ copyConnectionsSorted (kafkaConnections authSASLPlain).connections,
      (kafkaConnections authSASLPlain).validateConnectionFields p.kind p.name p.endpoints
        p.timeoutSec = .ok (Lib.Text.trimSpace p.name, Lib.Text.trimSpace p.endpoints) := by decide
  exact not_refused_iff.mpr (hvalid p (copyConnectionsSorted_mem.mpr ⟨k, hp⟩))

/-- It is not kept: its mechanism would have to be the key pair, or none. -/
theorem not_kept_kafka : ¬ ∀ (k : Int) p,
    (kafkaConnections authSASLPlain).connections[k]? = some p →
      Kept (kafkaConnections authSASLPlain) p := by
  intro hkept
  have hmechanism : ((kafkaConnections authSASLPlain).connections[(1 : Int)]?.map
      (·.auth.mechanism.name)) = some "sasl-plain" := by decide
  obtain ⟨p, hp, hm⟩ := Option.map_eq_some_iff.mp hmechanism
  rcases (hkept 1 p hp).mechanism with h | h <;> rw [h] at hm <;> exact absurd hm (by decide)

/-- An export of a Kafka connection is imported into the service it was made from, without its
mechanism. -/
theorem mechanism_lost : ¬ ∀ (s : Service) (c : Connection.Service) (env e : Env),
    Reached calm.openValue s → s.connections = some c → Succeeds env →
    Restored (s.importAllConfig env (s.exportAllConfig e)).1 c := by
  intro hall
  have hreached := reached_kafkaService authSASLPlain (by decide)
  have hc : (kafkaService authSASLPlain).connections = some (kafkaConnections authSASLPlain) := rfl
  obtain ⟨d, hd, hrestored⟩ := hall _ _ calmEnv calmEnv hreached hc succeeds_calmEnv
  obtain ⟨d', hd', heq⟩ := importAllConfig_accepted (e := calmEnv) hreached.inStep hc hc
    succeeds_calmEnv not_refused_kafka
  obtain rfl := Option.some.inj (hd.symm.trans hd')
  exact not_kept_kafka ((offline_preparedAll_iff not_refused_kafka).mp
    (heq.symm.trans hrestored))

end MqStudio.Configuration
