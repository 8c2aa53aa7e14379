import MqStudio.Connection.StaleClient

/-!
# Profiles as the service stores them

A stored profile has been through the ACL decision and the group's
normalisation once, so going through them again changes nothing.

* `Settled`: the normal form.  Every call that stores a profile stores a settled
  one (`settled_added`, `settled_edited`, `settled_prepareOne`,
  `settled_normalizeLoaded`).
* `Settled.normalizeLoaded_eq`: the loader takes a settled profile off line, and
  changes nothing else.
-/

namespace MqStudio.Connection

open Model Lib.Maps Lib.Text Lib.Errors

/-! ### What `SetACL` writes -/

/-- The secrets with the key pair of an ACL decision. -/
def withPair (secrets : Lib.Json.StringMap) (acl : ACL) : Lib.Json.StringMap :=
  setSecretIn
    (setSecretIn secrets secretAccessKey (if acl.enabled then acl.accessKey else ""))
    secretSecretKey (if acl.enabled then acl.secretKey else "")

theorem setACL_eq (p : ConnectionProfile) (acl : ACL) :
    p.setACL acl.enabled acl.accessKey acl.secretKey =
      { p with
        auth := ⟨if acl.enabled then authACL else authNone⟩
        secrets := withPair p.secrets acl } := by
  cases h : acl.enabled <;>
    simp [ConnectionProfile.setACL, ConnectionProfile.setSecret, ConnectionProfile.withMechanism,
      withPair, h]

/-- The ACL decision of the loader: a pair that is not complete is no ACL. -/
def loadedACL (p : ConnectionProfile) : ACL :=
  match aclConfig p with
  | .ok acl => acl
  | .error _ => ⟨false, "", ""⟩

theorem normalizeLoaded_eq (p : ConnectionProfile) :
    normalizeLoaded p = { p with
      group := normalizeConnectionGroup p.group
      status := statusOffline
      lastCheck := "-"
      auth := ⟨if (loadedACL p).enabled then authACL
        else if p.auth.mechanism ≠ authACL then p.auth.mechanism else authNone⟩
      secrets := withPair p.secrets (loadedACL p) } := by
  change (if !(loadedACL p).enabled && p.auth.mechanism ≠ authACL then
      (ConnectionProfile.setACL _ (loadedACL p).enabled (loadedACL p).accessKey
        (loadedACL p).secretKey).withMechanism p.auth.mechanism
    else ConnectionProfile.setACL _ (loadedACL p).enabled (loadedACL p).accessKey
      (loadedACL p).secretKey) = _
  rw [setACL_eq]
  cases (loadedACL p).enabled <;> by_cases hm : p.auth.mechanism = authACL <;>
    simp [hm, ConnectionProfile.withMechanism]

/-! ### The normal form -/

/-- A key of the pair: written, trimmed and not blank. -/
def KeptKey (secrets : Lib.Json.StringMap) (key : String) : Prop :=
  ∃ value, secrets[key]? = some value ∧ trimSpace value = value ∧ value ≠ ""

/-- A profile the ACL decision and the group's normalisation leave alone. -/
structure Settled (p : ConnectionProfile) : Prop where
  group : normalizeConnectionGroup p.group = p.group
  mechanism : p.auth.mechanism ≠ ⟨""⟩
  pair : p.auth.mechanism = authACL →
    KeptKey p.secrets secretAccessKey ∧ KeptKey p.secrets secretSecretKey
  plain : p.auth.mechanism ≠ authACL →
    p.secrets[secretAccessKey]? = none ∧ p.secrets[secretSecretKey]? = none

/-- A decision whose pair, if it is on, is trimmed and not blank. -/
def ACL.Sound (acl : ACL) : Prop :=
  acl.enabled = true → (trimSpace acl.accessKey = acl.accessKey ∧ acl.accessKey ≠ "") ∧
    trimSpace acl.secretKey = acl.secretKey ∧ acl.secretKey ≠ ""

theorem sound_of_aclConfig {p : ConnectionProfile} {acl : ACL} (h : aclConfig p = .ok acl) :
    acl.Sound ∧ acl.enabled = p.aclEnabled := by
  unfold aclConfig normalizeACLConfig at h
  dsimp only at h
  cases he : p.aclEnabled with
  | false =>
    rw [he] at h
    obtain rfl := Except.ok.inj h
    exact ⟨(fun hx => by cases hx), rfl⟩
  | true =>
    rw [he] at h
    simp only [Bool.not_true, Bool.false_eq_true, if_false] at h
    split at h
    · cases h
    split at h
    · cases h
    · rename_i ha hs
      obtain rfl := Except.ok.inj h
      exact ⟨fun _ => ⟨⟨trimSpace_trimSpace _, ha⟩, trimSpace_trimSpace _, hs⟩, rfl⟩

theorem sound_loadedACL (p : ConnectionProfile) : (loadedACL p).Sound := by
  unfold loadedACL
  split
  · rename_i acl h
    exact (sound_of_aclConfig h).1
  · exact fun h => by cases h

theorem secretAccessKey_ne : secretAccessKey ≠ secretSecretKey := by decide

theorem getElem?_setSecretIn (m : Lib.Json.StringMap) (key value a : String) :
    (setSecretIn m key value)[a]? =
      if key = a then (if value = "" then none else some value) else m[a]? := by
  unfold setSecretIn
  split
  · rw [getElem?_erase]
  · rw [getElem?_insert]

theorem getElem?_withPair (m : Lib.Json.StringMap) (acl : ACL) (a : String) :
    (withPair m acl)[a]? =
      if secretSecretKey = a then
        (if acl.enabled ∧ acl.secretKey ≠ "" then some acl.secretKey else none)
      else if secretAccessKey = a then
        (if acl.enabled ∧ acl.accessKey ≠ "" then some acl.accessKey else none)
      else m[a]? := by
  rw [withPair, getElem?_setSecretIn, getElem?_setSecretIn]
  cases acl.enabled <;> by_cases hs : acl.secretKey = "" <;> by_cases ha : acl.accessKey = "" <;>
    simp [hs, ha]

/-- **A profile is settled** once a sound decision is written into it. -/
theorem settled_setACL {p : ConnectionProfile} {acl : ACL}
    (hg : normalizeConnectionGroup p.group = p.group) (ha : acl.Sound) :
    Settled (p.setACL acl.enabled acl.accessKey acl.secretKey) := by
  rw [setACL_eq]
  refine ⟨hg, ?_, fun h => ?_, fun h => ?_⟩
  · change (if acl.enabled then authACL else authNone) ≠ ⟨""⟩
    split <;> decide
  · have he : acl.enabled = true := by
      by_contra hn
      simp only [hn] at h
      exact absurd h (by decide)
    obtain ⟨⟨hta, hna⟩, hts, hns⟩ := ha he
    exact ⟨⟨acl.accessKey, by simp [getElem?_withPair, secretAccessKey_ne.symm, he, hna], hta, hna⟩,
      ⟨acl.secretKey, by simp [getElem?_withPair, he, hns], hts, hns⟩⟩
  · have he : acl.enabled = false := by
      by_contra hn
      simp only [Bool.not_eq_false] at hn
      simp [hn] at h
    exact ⟨by simp [getElem?_withPair, secretAccessKey_ne.symm, he],
      by simp [getElem?_withPair, he]⟩

/-- Another family's mechanism may be put back. -/
theorem Settled.withMechanism {p : ConnectionProfile} (h : Settled p) {m : AuthMechanism}
    (hp : p.auth.mechanism ≠ authACL) (hm : m ≠ authACL) (hne : m ≠ ⟨""⟩) :
    Settled (p.withMechanism m) :=
  ⟨h.group, hne, fun hx => absurd hx hm, fun _ => h.plain hp⟩

/-- A profile that differs in neither group, mechanism nor secrets is settled too. -/
theorem Settled.congr {p q : ConnectionProfile} (h : Settled p) (hg : q.group = p.group)
    (ha : q.auth = p.auth) (hs : q.secrets = p.secrets) : Settled q := by
  refine ⟨by rw [hg]; exact h.group, by rw [ha]; exact h.mechanism, ?_, ?_⟩
  · rw [ha, hs]
    exact h.pair
  · rw [ha, hs]
    exact h.plain

/-! ### What each call stores -/

theorem mechanism_setACL_off {p : ConnectionProfile} {acl : ACL} (h : acl.enabled = false) :
    (p.setACL acl.enabled acl.accessKey acl.secretKey).auth.mechanism ≠ authACL := by
  rw [setACL_eq, h]
  change (if false = true then authACL else authNone) ≠ authACL
  decide

theorem settled_applyCredentials {p input : ConnectionProfile} {acl : ACL}
    (hg : normalizeConnectionGroup p.group = p.group) (ha : aclConfig input = .ok acl) :
    Settled (applyCredentials p input acl) := by
  obtain ⟨hsound, hen⟩ := sound_of_aclConfig ha
  unfold applyCredentials
  dsimp only
  split
  · rename_i hm
    simp only [Bool.and_eq_true, Bool.not_eq_true', decide_eq_true_eq] at hm
    refine Settled.withMechanism (settled_setACL ?_ hsound) (mechanism_setACL_off hm.1) ?_ hm.2
    · exact hg
    rw [hen] at hm
    simpa [ConnectionProfile.aclEnabled] using hm.1
  · exact settled_setACL hg hsound

theorem settled_added {s : Service} {input p : ConnectionProfile} (h : s.added input = some p) :
    Settled p := by
  unfold Service.added at h
  split at h
  · rename_i name endpoints acl hv ha
    obtain rfl := Option.some.inj h
    exact settled_applyCredentials (normalizeConnectionGroup_idem _) ha
  · cases h

theorem settled_edited {s : Service} {id : Int} {input p q : ConnectionProfile}
    (hp : s.connections[id]? = some p) (h : s.edited id input = some q) : Settled q := by
  obtain ⟨name, endpoints, acl, -, ha, rfl⟩ := edited_eq hp h
  have hs := settled_applyCredentials (p := { p with
    name := name
    group := normalizeConnectionGroup input.group
    endpoints := endpoints
    kind := if input.kind ≠ ⟨""⟩ then input.kind else p.kind
    options := if input.options.isSome then input.options else p.options
    timeoutSec := input.timeoutSec }) (normalizeConnectionGroup_idem input.group) ha
  exact hs.congr rfl rfl rfl

theorem settled_prepareOne {s : Service} {p q : ConnectionProfile} (h : s.prepareOne p = .ok q) :
    Settled q := by
  unfold Service.prepareOne at h
  split at h
  · cases h
  split at h
  · cases h
  · rename_i name nameServer hv _ acl ha
    obtain rfl := Except.ok.inj h
    have hs := settled_setACL (p := { p with
      name := name
      endpoints := nameServer
      group := normalizeConnectionGroup p.group }) (normalizeConnectionGroup_idem p.group)
      (sound_of_aclConfig ha).1
    exact hs.congr rfl rfl rfl

theorem settled_normalizeLoaded {p : ConnectionProfile} (h : p.auth.mechanism ≠ ⟨""⟩) :
    Settled (normalizeLoaded p) := by
  have hs : Settled (ConnectionProfile.setACL
      { p with group := normalizeConnectionGroup p.group, status := statusOffline, lastCheck := "-" }
      (loadedACL p).enabled (loadedACL p).accessKey (loadedACL p).secretKey) :=
    settled_setACL (normalizeConnectionGroup_idem _) (sound_loadedACL p)
  change Settled (if !(loadedACL p).enabled && p.auth.mechanism ≠ authACL then
      (ConnectionProfile.setACL _ (loadedACL p).enabled (loadedACL p).accessKey
        (loadedACL p).secretKey).withMechanism p.auth.mechanism
    else ConnectionProfile.setACL _ (loadedACL p).enabled (loadedACL p).accessKey
      (loadedACL p).secretKey)
  split
  · rename_i hm
    simp only [Bool.and_eq_true, Bool.not_eq_true', decide_eq_true_eq] at hm
    exact hs.withMechanism (mechanism_setACL_off hm.1) hm.2 h
  · exact hs

/-! ### Loading a settled profile -/

theorem secret_eq {p : ConnectionProfile} {key value : String} (h : p.secrets[key]? = some value) :
    p.secret key = value := by
  rw [ConnectionProfile.secret, Std.ExtTreeMap.getD_eq_getD_getElem?, h]
  rfl

/-- The ACL decision of a settled profile is the one it carries. -/
theorem Settled.aclConfig_eq {p : ConnectionProfile} (h : Settled p) :
    ∃ acl, aclConfig p = .ok acl ∧ acl.enabled = p.aclEnabled ∧ withPair p.secrets acl = p.secrets := by
  by_cases hm : p.auth.mechanism = authACL
  · have he : p.aclEnabled = true := by simp [ConnectionProfile.aclEnabled, hm]
    obtain ⟨⟨a, ha, hta, hna⟩, ⟨b, hb, htb, hnb⟩⟩ := h.pair hm
    refine ⟨⟨true, a, b⟩, ?_, he.symm, ?_⟩
    · simp [aclConfig, normalizeACLConfig, he, secret_eq ha, secret_eq hb, hta, htb, hna, hnb]
    · apply Std.ExtTreeMap.ext_getElem?
      intro k
      rw [getElem?_withPair]
      by_cases hs : secretSecretKey = k
      · subst hs
        simp [hb, hnb]
      · by_cases hk : secretAccessKey = k
        · subst hk
          simp [ha, hna, hs]
        · simp [hs, hk]
  · have he : p.aclEnabled = false := by simp [ConnectionProfile.aclEnabled, hm]
    obtain ⟨ha, hb⟩ := h.plain hm
    refine ⟨⟨false, "", ""⟩, by simp [aclConfig, normalizeACLConfig, he], he.symm, ?_⟩
    apply Std.ExtTreeMap.ext_getElem?
    intro k
    rw [getElem?_withPair]
    by_cases hs : secretSecretKey = k
    · subst hs
      simp [hb]
    · by_cases hk : secretAccessKey = k
      · subst hk
        simp [ha, hs]
      · simp [hs, hk]

/-- **The loader takes a settled profile off line**, and changes nothing else. -/
theorem Settled.normalizeLoaded_eq {p : ConnectionProfile} (h : Settled p) :
    normalizeLoaded p = { p with status := statusOffline, lastCheck := "-" } := by
  obtain ⟨acl, ha, he, hs⟩ := h.aclConfig_eq
  have hl : loadedACL p = acl := by rw [loadedACL, ha]
  have hauth : (⟨if p.aclEnabled then authACL
      else if p.auth.mechanism ≠ authACL then p.auth.mechanism else authNone⟩ : AuthConfig) =
      p.auth := by
    by_cases hm : p.auth.mechanism = authACL
    · rw [if_pos (by simpa [ConnectionProfile.aclEnabled] using hm), ← hm]
    · rw [if_neg (by simpa [ConnectionProfile.aclEnabled] using hm), if_pos hm]
  rw [Connection.normalizeLoaded_eq, hl, hs, h.group, he, hauth]

end MqStudio.Connection
