import MqStudio.Form.Modes
import MqStudio.Form.Submission

/-!
# Credentials a form no longer selects

The forms of MQTT, NATS, ActiveMQ and IBM MQ collect two credentials and keep what is
stored wherever anything is.  They blank the fields their choice does not use, and under
`preserve` a blank keeps the stored value.

* `PairedDraft.blanked`: the keys a draft blanks for its choice.
* `cleared_iff`: a blanked key is empty after the save exactly if nothing was stored
  under it before.
-/

namespace MqStudio.Form

open Model Connection Lib.Json Lib.JavaScript Lib.Maps

/-- A draft of one of the four families with two credentials on one form. -/
inductive PairedDraft where
  | mqtt (value : MqttDraft)
  | nats (value : NatsDraft)
  | activeMQ (value : ActiveMQDraft)
  | ibmMQ (value : IbmMQDraft)

namespace PairedDraft

def draft : PairedDraft → ProtocolDraft
  | mqtt value => .mqtt value
  | nats value => .nats value
  | activeMQ value => .activeMQ value
  | ibmMQ value => .ibmMQ value

def credentials : PairedDraft → Credentials
  | mqtt value => value.toCredentials
  | nats value => value.toCredentials
  | activeMQ value => value.toCredentials
  | ibmMQ value => value.toCredentials

def kind : PairedDraft → MQKind
  | mqtt _ => kindMQTT
  | nats _ => kindNATS
  | activeMQ _ => kindActiveMQ
  | ibmMQ _ => kindIBMMQ

end PairedDraft

/-- The credential keys of every NATS mechanism but the chosen one. -/
def NatsMechanism.others : NatsMechanism → List String
  | plain => ["token", "nkeySeed"]
  | token => ["username", "password", "nkeySeed"]
  | nkey => ["username", "password", "token"]
  | none | creds | mtls => ["username", "password", "token", "nkeySeed"]

/-- The keys a draft blanks for the choice it makes. -/
def PairedDraft.blanked : PairedDraft → List String
  | mqtt value =>
    (if value.mechanism = .none then ["username", "password"] else []) ++
      (if jsTrim value.managementURL = "" then ["managementApiKey", "managementSecretKey"] else [])
  | nats value => value.mechanism.others
  | activeMQ value =>
    (if value.mechanism = .none then ["username", "password"] else []) ++
      (if jsTrim value.amqpURL = "" then ["amqpUsername", "amqpPassword"] else [])
  | ibmMQ value =>
    if value.mechanism = .none then
      ["username", "password", "messagingUsername", "messagingPassword"]
    else []

/-! ### What a draft submits under a blanked key -/

@[simp] theorem typed_toInput (submission : Submission) (key : String) :
    submission.toInput.typed key = submission.draft.secrets[key]?.getD "" := rfl

theorem typed_of_blanked {d : PairedDraft} {key : String} (h : key ∈ d.blanked) :
    (toSubmission d.draft).toInput.typed key = "" := by
  cases d with
  | mqtt value =>
    simp only [PairedDraft.blanked, List.mem_append] at h
    simp only [typed_toInput, PairedDraft.draft, toSubmission, mqttSubmission, record,
      List.foldl_cons, List.foldl_nil, getElem?_insert]
    rcases h with h | h
    · by_cases hm : value.mechanism = .none <;> simp_all
      rcases h with rfl | rfl <;> simp
    · by_cases hm : jsTrim value.managementURL = "" <;> simp_all
      rcases h with rfl | rfl <;> simp
  | nats value =>
    simp only [PairedDraft.blanked] at h
    simp only [typed_toInput, PairedDraft.draft, toSubmission, natsSubmission, record,
      List.foldl_cons, List.foldl_nil, getElem?_insert]
    cases hm : value.mechanism <;> simp_all [NatsMechanism.others]
    all_goals rcases h with rfl | rfl | rfl | rfl <;> simp
  | activeMQ value =>
    simp only [PairedDraft.blanked, List.mem_append] at h
    simp only [typed_toInput, PairedDraft.draft, toSubmission, activeMQSubmission, record,
      List.foldl_cons, List.foldl_nil, getElem?_insert]
    rcases h with h | h
    · by_cases hm : value.mechanism = .none <;> simp_all
      rcases h with rfl | rfl <;> simp
    · by_cases hm : jsTrim value.amqpURL = "" <;> simp_all
      rcases h with rfl | rfl <;> simp
  | ibmMQ value =>
    simp only [PairedDraft.blanked] at h
    simp only [typed_toInput, PairedDraft.draft, toSubmission, ibmMQSubmission, record,
      List.foldl_cons, List.foldl_nil, getElem?_insert]
    by_cases hm : value.mechanism = .none <;> simp_all
    rcases h with rfl | rfl | rfl | rfl <;> simp

/-- Every key one of the four forms may blank. -/
def pairedKeys : List String :=
  ["username", "password", "token", "nkeySeed", "managementApiKey", "managementSecretKey",
    "amqpUsername", "amqpPassword", "messagingUsername", "messagingPassword"]

theorem blanked_subset (d : PairedDraft) : d.blanked ⊆ pairedKeys := by
  cases d with
  | mqtt value =>
    refine List.append_subset.mpr ⟨?_, ?_⟩ <;> split <;> simp [pairedKeys]
  | nats value =>
    change value.mechanism.others ⊆ pairedKeys
    cases value.mechanism <;> simp [NatsMechanism.others, pairedKeys]
  | activeMQ value =>
    refine List.append_subset.mpr ⟨?_, ?_⟩ <;> split <;> simp [pairedKeys]
  | ibmMQ value =>
    simp only [PairedDraft.blanked]
    split <;> simp [pairedKeys]

theorem ne_pair_of_blanked {d : PairedDraft} {key : String} (h : key ∈ d.blanked) :
    key ≠ secretAccessKey ∧ key ≠ secretSecretKey := by
  have hall : ∀ key ∈ pairedKeys, key ≠ secretAccessKey ∧ key ≠ secretSecretKey := by decide
  exact hall key (blanked_subset d h)

theorem keepingMode_text {c : Credentials} (h : c.clearCredentials = false) :
    c.keepingMode.text = if c.credentialsStored then "preserve" else "replace" := by
  cases hs : c.credentialsStored <;>
    simp [Credentials.keepingMode, Credentials.keepStored, h, hs, CredentialsMode.text]

/-- The mode of the four forms, where the clear control is not pressed. -/
theorem credentialsMode_paired {d : PairedDraft} (h : d.credentials.clearCredentials = false) :
    (toSubmission d.draft).toInput.credentialsMode =
      if d.credentials.credentialsStored then "preserve" else "replace" := by
  cases d <;> exact keepingMode_text h

/-! ### What is stored after the save -/

/-- A profile that reports no configured secret holds none. -/
theorem secret_eq_of_configured_nil {p : ConnectionProfile} (h : configuredSecrets p = [])
    (key : String) : p.secret key = "" := by
  rw [secret_eq_getD]
  cases hk : p.secrets[key]? with
  | none => rfl
  | some value =>
    by_contra hne
    have hentry : (key, value) ∈ p.secrets.toList :=
      Std.ExtTreeMap.mem_toList_iff_getElem?_eq_some.mpr hk
    have hmem : (key, value) ∈ p.secrets.toList.filter fun e => e.2 ≠ "" :=
      List.mem_filter.mpr ⟨hentry, by simpa using hne⟩
    have hempty : (p.secrets.toList.filter fun e => e.2 ≠ "") = [] := List.map_eq_nil_iff.mp h
    rw [hempty] at hmem
    cases hmem

/-- A draft as the form holds it while it edits a profile: opened from what is shown of the
profile, with the clear control not pressed. -/
structure Edits (p : ConnectionProfile) (d : PairedDraft) : Prop where
  kind : p.kind = d.kind
  stored : d.credentials.credentialsStored = !(redactConnection p).secretsConfigured.isEmpty
  kept : d.credentials.clearCredentials = false

theorem secret_of_blanked {s : Service} {id : Int} {p edited : ConnectionProfile} {d : PairedDraft}
    (hp : s.connections[id]? = some p) (hid : id ≠ 0) (hd : Edits p d)
    (h : accepted s id (toSubmission d.draft).toInput = some edited) {key : String}
    (hkey : key ∈ d.blanked) : edited.secret key = p.secret key := by
  obtain ⟨hka, hks⟩ := ne_pair_of_blanked hkey
  rw [secret_eq_getD, secrets_update hp hid h hka hks, credentialsMode_paired hd.kept,
    typed_of_blanked hkey]
  cases hstored : d.credentials.credentialsStored with
  | true =>
    by_cases hsecret : p.secret key = "" <;>
      simp [resolved, Preserves, unlessBlank, hsecret]
  | false =>
    have hnil : configuredSecrets p = [] := by
      have hempty := hd.stored
      rw [hstored] at hempty
      simpa [redactConnection] using hempty.symm
    rw [secret_eq_of_configured_nil hnil]
    simp [resolved, Preserves, unlessBlank]

/-- **A blanked credential is gone after the save exactly if there was none**: under `preserve`
the blank keeps what is stored. -/
theorem cleared_iff (endpoints : Option (MQKind → Bool)) (file : Option String) (env₀ : Env)
    (calls : List Call) {id : Int} {p : ConnectionProfile}
    (hp : (Lib.Transition.run exec (Service.new endpoints file env₀) calls).connections[id]? =
      some p)
    {d : PairedDraft} (hd : Edits p d) {env : Env}
    (h : (update (Lib.Transition.run exec (Service.new endpoints file env₀) calls) env id
      (toSubmission d.draft).toInput).2.2 = none) :
    ∃ q, (update (Lib.Transition.run exec (Service.new endpoints file env₀) calls) env id
        (toSubmission d.draft).toInput).1.connections[id]? = some q ∧
      ((∀ key ∈ d.blanked, q.secret key = "") ↔ ∀ key ∈ d.blanked, p.secret key = "") := by
  have hinv := inv_run endpoints file env₀ calls
  generalize Lib.Transition.run exec (Service.new endpoints file env₀) calls = s at hp h hinv ⊢
  obtain ⟨hw, edited, ha⟩ := accepted_of_update h
  obtain ⟨q, hq, hc⟩ := update_stored ha hw
  have hid : id ≠ 0 := by
    have hpos := hinv.id_pos hp
    rw [hinv.key_eq_id hp] at hpos
    omega
  have hsecrets : q.secrets = edited.secrets := congrArg Content.secrets hc
  have hkeep : ∀ key ∈ d.blanked, q.secret key = p.secret key := by
    intro key hkey
    rw [secret_eq_getD, hsecrets, ← secret_eq_getD]
    exact secret_of_blanked hp hid hd ha hkey
  refine ⟨q, hq, ?_⟩
  constructor
  · intro hall key hkey
    rw [← hkeep key hkey]
    exact hall key hkey
  · intro hall key hkey
    rw [hkeep key hkey]
    exact hall key hkey

/-! ### A token left behind -/

/-- A NATS form with a token and a password, of which the mechanism sends one. -/
def natsForm (mechanism : NatsMechanism) (stored : Bool) : NatsDraft where
  name := "events"
  group := ""
  remark := ""
  timeoutSec := 5
  credentialsStored := stored
  clearCredentials := false
  endpoints := "nats://broker:4222"
  mechanism := mechanism
  username := "app"
  password := "secret"
  token := "first"
  nkeySeed := ""
  credsFile := ""
  tls := false
  tlsCAFile := ""
  tlsCertFile := ""
  tlsKeyFile := ""
  tlsSkipVerify := false
  monitorURL := ""
  systemUser := ""
  systemPassword := ""
  jsDomain := ""

/-- The connection added with a token. -/
def tokenAdded : List Call :=
  [⟨.addConnection (toSubmission (.nats (natsForm .token false))).toInput.profile, calm⟩]

/-- The saved token stays when the mechanism is changed to a user and a password. -/
theorem token_survives_password :
    ∃ p q, (Lib.Transition.run exec (Service.new none none calm) tokenAdded).connections[(1 : Int)]?
        = some p ∧
      Edits p (.nats (natsForm .plain true)) ∧
      (update (Lib.Transition.run exec (Service.new none none calm) tokenAdded) calm 1
        (toSubmission (.nats (natsForm .plain true))).toInput).2.2 = none ∧
      (update (Lib.Transition.run exec (Service.new none none calm) tokenAdded) calm 1
        (toSubmission (.nats (natsForm .plain true))).toInput).1.connections[(1 : Int)]? = some q ∧
      "token" ∈ (PairedDraft.nats (natsForm .plain true)).blanked ∧ q.secret "token" = "first" := by
  have hstored : (Lib.Transition.run exec (Service.new none none calm)
      tokenAdded).connections[(1 : Int)]?.map (fun p =>
        decide (p.kind = kindNATS ∧ configuredSecrets p = ["token"])) = some true := by
    decide
  have hok : (update (Lib.Transition.run exec (Service.new none none calm) tokenAdded) calm 1
      (toSubmission (.nats (natsForm .plain true))).toInput).2.2.isNone := by
    decide
  have hsaved : (update (Lib.Transition.run exec (Service.new none none calm) tokenAdded) calm 1
      (toSubmission (.nats (natsForm .plain true))).toInput).1.connections[(1 : Int)]?.map
        (·.secret "token") = some "first" := by
    decide
  obtain ⟨p, hp, hfacts⟩ := Option.map_eq_some_iff.mp hstored
  obtain ⟨q, hq, htoken⟩ := Option.map_eq_some_iff.mp hsaved
  obtain ⟨hkind, hkeys⟩ := of_decide_eq_true hfacts
  refine ⟨p, q, hp, ⟨hkind, ?_, rfl⟩, Option.isNone_iff_eq_none.mp hok, hq, by decide, htoken⟩
  simp [redactConnection, hkeys, PairedDraft.credentials, natsForm]

/-- Saved with a token again, the connection holds none of the credentials it never had. -/
theorem token_again_holds_no_other :
    ∃ q, (update (Lib.Transition.run exec (Service.new none none calm) tokenAdded) calm 1
        (toSubmission (.nats (natsForm .token true))).toInput).1.connections[(1 : Int)]? = some q ∧
      ∀ key ∈ ["username", "password", "nkeySeed"], q.secret key = "" := by
  have hstored : (Lib.Transition.run exec (Service.new none none calm)
      tokenAdded).connections[(1 : Int)]?.map (fun p =>
        decide (p.kind = kindNATS ∧ configuredSecrets p = ["token"] ∧
          ∀ key ∈ ["username", "password", "nkeySeed"], p.secret key = "")) = some true := by
    decide
  have hok : (update (Lib.Transition.run exec (Service.new none none calm) tokenAdded) calm 1
      (toSubmission (.nats (natsForm .token true))).toInput).2.2.isNone := by
    decide
  obtain ⟨p, hp, hfacts⟩ := Option.map_eq_some_iff.mp hstored
  obtain ⟨hkind, hkeys, hblank⟩ := of_decide_eq_true hfacts
  have hedits : Edits p (.nats (natsForm .token true)) := by
    refine ⟨hkind, ?_, rfl⟩
    simp [redactConnection, hkeys, PairedDraft.credentials, natsForm]
  obtain ⟨q, hq, hiff⟩ := cleared_iff none none calm tokenAdded hp hedits
    (Option.isNone_iff_eq_none.mp hok)
  exact ⟨q, hq, hiff.mpr hblank⟩

end MqStudio.Form
