import MqStudio.Form.Bridge

/-!
# The credentials mode

What an update through the bridge stores of the secrets it was given, for every stored
profile and every input.

* `resolved`: the value of one key, from the mode, the typed value and the stored one.
* `secrets_update`: so an accepted update stores it under every key but the key pair.
* `credentials_update`: **the credentials mode law**, with the key pair and the mechanism.
-/

namespace MqStudio.Form

open Model Connection Lib.Json Lib.Errors Lib.Maps Lib.Text

/-- The modes the bridge knows; the blank one preserves. -/
def Preserves (mode : String) : Prop := mode = "preserve" ∨ mode = ""

instance (mode : String) : Decidable (Preserves mode) :=
  inferInstanceAs (Decidable (mode = "preserve" ∨ mode = ""))

/-- The value a mode leaves under a key. -/
def resolved (mode typed stored : String) : String :=
  if mode = "clear" then ""
  else if typed ≠ "" then typed
  else if Preserves mode then stored
  else ""

/-- The mechanism a mode leaves: the declared one, none where it is blank or cleared. -/
def declared (mode : String) (auth : AuthMechanism) : AuthMechanism :=
  if mode = "clear" ∨ auth = ⟨""⟩ then authNone else auth

/-- What was typed under a key. -/
def ConnectionInput.typed (input : ConnectionInput) (key : String) : String :=
  input.secrets[key]?.getD ""

/-! ### The filled input -/

theorem unlessBlank_getD (v : Option String) : unlessBlank (v.getD "") = v.bind unlessBlank := by
  cases v <;> rfl

/-- The secrets of an input once its mode is applied, for a stored profile. -/
theorem secrets_applyCredentialsMode {s : Service} {id : Int} {input : ConnectionInput}
    {p profile : ConnectionProfile} (hp : s.connections[id]? = some p) (hid : id ≠ 0)
    (h : applyCredentialsMode s id input.profile input.credentialsMode = .ok profile)
    (key : String) :
    profile.secrets[key]?.bind unlessBlank =
      unlessBlank (resolved input.credentialsMode (input.typed key) (p.secret key)) := by
  have htyped : input.profile.secrets[key]? = unlessBlank (input.typed key) := by
    rw [ConnectionInput.typed, unlessBlank_getD]
    exact getElem?_typedSecrets input.secrets key
  unfold applyCredentialsMode at h
  split at h
  · rename_i hmode
    have hne : input.credentialsMode ≠ "clear" := by rcases hmode with hm | hm <;> simp [hm]
    rw [hp] at h
    obtain rfl := Except.ok.inj h
    rw [secrets_fillSecrets, htyped, secret_eq_getD]
    unfold resolved
    rw [if_neg hne]
    have hpres : Preserves input.credentialsMode := hmode
    by_cases ht : input.typed key = ""
    · cases p.secrets[key]? with
      | none => simp [ht, hpres, unlessBlank]
      | some stored => by_cases hs : stored = "" <;> simp [ht, hpres, unlessBlank, hs]
    · cases p.secrets[key]? with
      | none => simp [ht, unlessBlank]
      | some stored => simp [ht, unlessBlank]
  split at h
  · rename_i hmode hclear
    obtain rfl := Except.ok.inj h
    simp [ConnectionProfile.withMechanism, resolved, hclear, unlessBlank]
  split at h
  · rename_i hmode hclear hreplace
    obtain rfl := Except.ok.inj h
    have hpres : ¬ Preserves input.credentialsMode := hmode
    rw [htyped]
    unfold resolved
    rw [if_neg hclear]
    by_cases ht : input.typed key = "" <;> simp [ht, hpres, unlessBlank]
  · cases h

/-- The mechanism of an input once its mode is applied. -/
theorem mechanism_applyCredentialsMode {s : Service} {id : Int} {input : ConnectionInput}
    {profile : ConnectionProfile}
    (h : applyCredentialsMode s id input.profile input.credentialsMode = .ok profile) :
    profile.auth.mechanism =
      if input.credentialsMode = "clear" then authNone else input.auth := by
  unfold applyCredentialsMode at h
  split at h
  · rename_i hmode
    rw [if_neg (by rcases hmode with hm | hm <;> simp [hm])]
    split at h
    · obtain rfl := Except.ok.inj h
      rfl
    split at h
    · cases h
    · obtain rfl := Except.ok.inj h
      rw [fillSecrets_with]
      rfl
  split at h
  · rename_i hmode hclear
    obtain rfl := Except.ok.inj h
    rw [if_pos hclear]
    rfl
  split at h
  · rename_i hmode hclear hreplace
    obtain rfl := Except.ok.inj h
    rw [if_neg hclear]
    rfl
  · cases h

/-! ### The law -/

/-- An update without an error was accepted and saved. -/
theorem accepted_of_update {s : Service} {env : Env} {id : Int} {input : ConnectionInput}
    (h : (update s env id input).2.2 = none) :
    env.writeErr = none ∧ ∃ edited, accepted s id input = some edited := by
  constructor
  · by_contra hw
    exact (update_unchanged (Or.inr hw)).2 h
  · cases ha : accepted s id input with
    | none => exact absurd h (update_unchanged (Or.inl ha)).2
    | some edited => exact ⟨edited, rfl⟩

/-- What an accepted update stores comes from a stored profile and the filled input. -/
theorem accepted_cases {s : Service} {id : Int} {input : ConnectionInput}
    {edited : ConnectionProfile} (h : accepted s id input = some edited) :
    ∃ p profile, s.connections[id]? = some p ∧
      applyCredentialsMode s id input.profile input.credentialsMode = .ok profile ∧
      s.edited id profile = some edited ∧ StoredFrom profile edited := by
  unfold accepted at h
  split at h
  · cases h
  · rename_i profile hm
    cases hp : s.connections[id]? with
    | none =>
      unfold Service.edited at h
      rw [hp] at h
      split at h
      · rename_i heq _
        cases heq
      · cases h
    | some p => exact ⟨p, profile, rfl, hm, h, storedFrom_edited hp h⟩

theorem secrets_update {s : Service} {id : Int} {input : ConnectionInput}
    {p edited : ConnectionProfile} (hp : s.connections[id]? = some p) (hid : id ≠ 0)
    (h : accepted s id input = some edited) {key : String} (ha : key ≠ secretAccessKey)
    (hs : key ≠ secretSecretKey) :
    edited.secrets[key]? =
      unlessBlank (resolved input.credentialsMode (input.typed key) (p.secret key)) := by
  obtain ⟨p', profile, hp', hm, -, hstored⟩ := accepted_cases h
  rw [hstored.secret key ha hs]
  exact secrets_applyCredentialsMode hp hid hm key

theorem mechanism_applyCredentials_declared {connection input : ConnectionProfile} {acl : ACL}
    (ha : aclConfig input = .ok acl) :
    (applyCredentials connection input acl).auth.mechanism =
      if input.auth.mechanism = ⟨""⟩ then authNone else input.auth.mechanism := by
  by_cases hm : input.auth.mechanism = ⟨""⟩
  · have hoff : acl.enabled = false := by
      rw [(sound_of_aclConfig ha).2, ConnectionProfile.aclEnabled, hm]
      decide
    rw [mechanism_applyCredentials, hoff, if_pos hm]
    rfl
  · rw [storedFrom_mechanism ha hm, if_neg hm]

theorem mechanism_update {s : Service} {id : Int} {input : ConnectionInput}
    {edited : ConnectionProfile} (h : accepted s id input = some edited) :
    edited.auth.mechanism = declared input.credentialsMode input.auth := by
  obtain ⟨p, profile, hp, hm, hedited, -⟩ := accepted_cases h
  obtain ⟨name, endpoints, acl, -, ha, rfl⟩ := edited_eq hp hedited
  have hmech := mechanism_applyCredentialsMode hm
  change (applyCredentials _ profile acl).auth.mechanism = _
  rw [mechanism_applyCredentials_declared ha, hmech, declared]
  by_cases hc : input.credentialsMode = "clear"
  · simp [hc, authNone]
  · simp [hc]

/-- A key that holds a value which is not white space alone. -/
def Present (p : ConnectionProfile) (key : String) : Prop :=
  ∃ value, p.secrets[key]? = some value ∧ trimSpace value ≠ ""

theorem present_pair_iff {p : ConnectionProfile} (h : Settled p) :
    (Present p secretAccessKey ∧ Present p secretSecretKey) ↔ p.auth.mechanism = authACL := by
  constructor
  · rintro ⟨⟨value, hv, -⟩, -⟩
    by_contra hm
    rw [(h.plain hm).1] at hv
    cases hv
  · intro hm
    obtain ⟨⟨a, ha, hta, hna⟩, ⟨b, hb, htb, hnb⟩⟩ := h.pair hm
    exact ⟨⟨a, ha, by rwa [hta]⟩, ⟨b, hb, by rwa [htb]⟩⟩

/-- **The credentials mode law.**  After an update that succeeds, every key but the pair holds what
the mode says of the typed and the stored value, the pair is there exactly where the mechanism is
ACL, and the mechanism is the declared one whatever the secrets are. -/
theorem credentials_update (endpoints : Option (MQKind → Bool)) (file : Option String) (env₀ : Env)
    (calls : List Call) (env : Env) (id : Int) (input : ConnectionInput)
    (h : (update (Lib.Transition.run exec (Service.new endpoints file env₀) calls) env id
      input).2.2 = none) :
    ∃ p q, (Lib.Transition.run exec (Service.new endpoints file env₀) calls).connections[id]? =
        some p ∧
      (update (Lib.Transition.run exec (Service.new endpoints file env₀) calls) env id
        input).1.connections[id]? = some q ∧
      (∀ key, key ≠ secretAccessKey → key ≠ secretSecretKey → q.secrets[key]? =
        unlessBlank (resolved input.credentialsMode (input.typed key) (p.secret key))) ∧
      (Present q secretAccessKey ∧ Present q secretSecretKey ↔ q.auth.mechanism = authACL) ∧
      q.auth.mechanism = declared input.credentialsMode input.auth := by
  have hinv := inv_run endpoints file env₀ calls
  generalize Lib.Transition.run exec (Service.new endpoints file env₀) calls = s at h hinv ⊢
  obtain ⟨hw, edited, ha⟩ := accepted_of_update h
  obtain ⟨p, profile, hp, -, -, hstored⟩ := accepted_cases ha
  obtain ⟨q, hq, hc⟩ := update_stored ha hw
  have hid : id ≠ 0 := by
    have hpos := hinv.id_pos hp
    rw [hinv.key_eq_id hp] at hpos
    omega
  have hsecrets : q.secrets = edited.secrets := congrArg Content.secrets hc
  have hmech : q.auth.mechanism = edited.auth.mechanism := congrArg Content.mechanism hc
  have hsettled : Settled q := by
    refine hstored.settled.congr (congrArg Content.group hc) ?_ hsecrets
    exact congrArg AuthConfig.mk hmech
  refine ⟨p, q, hp, hq, fun key hka hks => ?_, present_pair_iff hsettled, ?_⟩
  · rw [hsecrets]
    exact secrets_update hp hid ha hka hks
  · rw [hmech]
    exact mechanism_update ha

/-- The Kafka form again, with a new password alone typed. -/
def retypedForm : ConnectionInput where
  name := "orders"
  group := ""
  kind := kindKafka
  endpoints := "broker:9092"
  timeoutSec := 10
  auth := authSASLScram
  options := none
  secrets := (∅ : StringMap).insert "username" "" |>.insert "password" "changed"
  remark := ""
  credentialsMode := "preserve"

/-- Preserving keeps the user that was not typed and stores the password that was. -/
theorem retyped_password_keeps_username :
    ∃ p q, (Lib.Transition.run exec (Service.new none none calm)
        [⟨.addConnection (kafkaForm authSASLPlain), calm⟩]).connections[(1 : Int)]? = some p ∧
      (update (Lib.Transition.run exec (Service.new none none calm)
        [⟨.addConnection (kafkaForm authSASLPlain), calm⟩]) calm 1
          retypedForm).1.connections[(1 : Int)]? = some q ∧
      q.secrets["username"]? = unlessBlank (p.secret "username") ∧
      q.secrets["password"]? = some "changed" ∧ q.auth.mechanism = authSASLScram := by
  have hok : (update (Lib.Transition.run exec (Service.new none none calm)
      [⟨.addConnection (kafkaForm authSASLPlain), calm⟩]) calm 1 retypedForm).2.2.isNone := by
    decide
  obtain ⟨p, q, hp, hq, hsecrets, -, hmech⟩ :=
    credentials_update none none calm [⟨.addConnection (kafkaForm authSASLPlain), calm⟩] calm 1
      retypedForm (Option.isNone_iff_eq_none.mp hok)
  refine ⟨p, q, hp, hq, ?_, ?_, hmech⟩
  · rw [hsecrets "username" (by decide) (by decide)]
    have htyped : retypedForm.typed "username" = "" := by decide
    rw [htyped]
    rfl
  · rw [hsecrets "password" (by decide) (by decide)]
    have htyped : retypedForm.typed "password" = "changed" := by decide
    rw [htyped]
    rfl

end MqStudio.Form
