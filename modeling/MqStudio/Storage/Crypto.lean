import MqStudio.Connection.Rebuild
import MqStudio.Lib.Encoding

/-!
# Encrypted values

`crypto`: a value is sealed under a key of its field, which is derived from the master key, and
stored as base64 behind a prefix.  Older builds derived the field's key another way, and the oldest
stored values as they are.

* `decrypt_encrypt`, `openSealed_legacy`: what this build or an older one has sealed is read back.
* `keyed_underKey`: the services that encrypt under one master key meet what their own results ask
  of an environment.
-/

namespace MqStudio.Crypto

open Lib.Encoding Lib.Errors

abbrev Bytes := List UInt8

/-- HKDF, SHA-256 and AES-GCM with its nonce; a value that is sealed is the text itself. -/
structure Primitives where
  hkdf : Bytes → String → Bytes
  sha256 : Bytes → Bytes
  sealText : Bytes → Bytes → String → Bytes
  openText : Bytes → Bytes → Bytes → Option String

/-- What is sealed is opened under the same key and nonce. -/
def Primitives.Sound (P : Primitives) : Prop :=
  ∀ key nonce text, P.openText key nonce (P.sealText key nonce text) = some text

def encryptedPrefix : String := "ENC:"

def hkdfInfoPrefix : String := "mq-studio/field/"

/-- `gcm.NonceSize()`. -/
def nonceSize : ℕ := 12

variable (P : Primitives)

def deriveFieldKey (master : Bytes) (field : String) : Bytes :=
  P.hkdf master (hkdfInfoPrefix ++ field)

def deriveFieldKeyLegacy (master : Bytes) (field : String) : Bytes :=
  P.sha256 (master ++ field.toUTF8.data.toList)

/-- What stands behind the prefix: the nonce and what it sealed. -/
def sealed (key nonce : Bytes) (plaintext : String) : String :=
  encodeToString (nonce ++ P.sealText key nonce plaintext)

def encrypt (globalKey : Option Bytes) (nonce : Except Error Bytes) (plaintext field : String) :
    Except Error String :=
  if plaintext = "" then .ok ""
  else
    match globalKey, nonce with
    | none, _ => .error (.new "encryption key is not initialized")
    | some _, .error err => .error (.wrap "failed to generate nonce" err)
    | some key, .ok nonce =>
      .ok (encryptedPrefix ++ sealed P (deriveFieldKey P key field) nonce plaintext)

def decryptWithKey (data key : Bytes) : Except Error String :=
  if data.length < nonceSize then .error (.new "ciphertext is too short")
  else
    match P.openText key (data.take nonceSize) (data.drop nonceSize) with
    | none => .error (.new "decryption failed: cipher: message authentication failed")
    | some plaintext => .ok plaintext

/-- The key of today is tried first. -/
def decryptData (master data : Bytes) (field : String) : Except Error String :=
  match decryptWithKey P data (deriveFieldKey P master field) with
  | .ok plain => .ok plain
  | .error _ => decryptWithKey P data (deriveFieldKeyLegacy P master field)

/-- What stands behind the prefix, read. -/
def openSealed (master : Bytes) (field text : String) : Except Error String :=
  match decodeString text with
  | none => .error (.new "failed to decode ciphertext")
  | some data => decryptData P master data field

def isEncrypted (s : String) : Bool := encryptedPrefix.toList.isPrefixOf s.toList

def decrypt (globalKey : Option Bytes) (ciphertext field : String) : Except Error String :=
  if ciphertext = "" then .ok ""
  else if !isEncrypted ciphertext then .ok ciphertext
  else
    match globalKey with
    | none => .error (.new "encryption key is not initialized")
    | some key => openSealed P key field (String.ofList (ciphertext.toList.drop 4))

/-! ### What was stored is read back -/

variable {P} {master key nonce : Bytes} {field plaintext : String}

theorem decryptWithKey_sealed (h : P.Sound) (hnonce : nonce.length = nonceSize) :
    decryptWithKey P (nonce ++ P.sealText key nonce plaintext) key = .ok plaintext := by
  have hlen : ¬ (nonce ++ P.sealText key nonce plaintext).length < nonceSize := by
    rw [List.length_append, hnonce]
    omega
  rw [decryptWithKey, if_neg hlen, ← hnonce, List.take_left, List.drop_left, h]

theorem openSealed_sealed (h : P.Sound) (hnonce : nonce.length = nonceSize) :
    openSealed P master field (sealed P (deriveFieldKey P master field) nonce plaintext) =
      .ok plaintext := by
  rw [openSealed, sealed, decodeString_encodeToString]
  dsimp only
  rw [decryptData, decryptWithKey_sealed h hnonce]

/-- A value of an older build that does not happen to open under the key of today. -/
theorem openSealed_legacy (h : P.Sound) (hnonce : nonce.length = nonceSize)
    (hnew : P.openText (deriveFieldKey P master field) nonce
      (P.sealText (deriveFieldKeyLegacy P master field) nonce plaintext) = none) :
    openSealed P master field (sealed P (deriveFieldKeyLegacy P master field) nonce plaintext) =
      .ok plaintext := by
  have hlen : ¬ (nonce ++ P.sealText (deriveFieldKeyLegacy P master field) nonce
      plaintext).length < nonceSize := by
    rw [List.length_append, hnonce]
    omega
  have hfirst : decryptWithKey P (nonce ++ P.sealText (deriveFieldKeyLegacy P master field) nonce
      plaintext) (deriveFieldKey P master field) =
      .error (.new "decryption failed: cipher: message authentication failed") := by
    rw [decryptWithKey, if_neg hlen, ← hnonce, List.take_left, List.drop_left, hnew]
  rw [openSealed, sealed, decodeString_encodeToString]
  dsimp only
  rw [decryptData, hfirst]
  exact decryptWithKey_sealed h hnonce

theorem decrypt_prefixed (text : String) :
    decrypt P (some master) (encryptedPrefix ++ text) field = openSealed P master field text := by
  have hne : encryptedPrefix ++ text ≠ "" := by
    intro he
    have := congrArg String.toList he
    simp [encryptedPrefix] at this
  have hprefix : isEncrypted (encryptedPrefix ++ text) = true := by
    simp [isEncrypted, encryptedPrefix]
  have hdrop : String.ofList ((encryptedPrefix ++ text).toList.drop 4) = text := by
    simp [encryptedPrefix]
  rw [decrypt, if_neg hne, hprefix]
  simp only [Bool.not_true, Bool.false_eq_true, if_false, hdrop]

/-- **What is encrypted is decrypted.** -/
theorem decrypt_encrypt (h : P.Sound) (hnonce : nonce.length = nonceSize) {ciphertext : String}
    (he : encrypt P (some master) (.ok nonce) plaintext field = .ok ciphertext) :
    decrypt P (some master) ciphertext field = .ok plaintext := by
  unfold encrypt at he
  split at he
  · rename_i hempty
    obtain rfl := Except.ok.inj he
    rw [decrypt, if_pos rfl, hempty]
  · obtain rfl := Except.ok.inj he
    rw [decrypt_prefixed, openSealed_sealed h hnonce]

/-! ### The environment of the services -/

/-- A call whose values are sealed and opened by this package, under one master key. -/
structure UnderKey (P : Primitives) (master : Bytes) (env : Connection.Env) : Prop where
  sealValue : ∃ nonce : String → String → Bytes,
    (∀ field plaintext, (nonce field plaintext).length = nonceSize) ∧
    env.sealValue = fun field plaintext =>
      sealed P (deriveFieldKey P master field) (nonce field plaintext) plaintext
  openValue : env.openValue = openSealed P master

theorem decrypt_eq {env : Connection.Env} (h : UnderKey P master env) (ciphertext : String) :
    Connection.decrypt env ciphertext field = decrypt P (some master) ciphertext field := by
  rw [Connection.decrypt, decrypt, h.openValue]
  rfl

/-- **Under one master key** the services meet what they rely on, and read what they and older
builds have stored. -/
theorem keyed_underKey (hP : P.Sound) {env : Connection.Env} (h : UnderKey P master env) :
    Connection.Keyed (openSealed P master) env ∧
      (∀ plaintext field, Connection.decrypt env (Connection.encrypt env plaintext field) field =
        .ok plaintext) ∧
      (∀ plaintext field nonce, nonce.length = nonceSize →
        P.openText (deriveFieldKey P master field) nonce
          (P.sealText (deriveFieldKeyLegacy P master field) nonce plaintext) = none →
        Connection.decrypt env (encryptedPrefix ++
          sealed P (deriveFieldKeyLegacy P master field) nonce plaintext) field = .ok plaintext) ∧
      ∀ plaintext field, isEncrypted plaintext = false →
        Connection.decrypt env plaintext field = .ok plaintext := by
  obtain ⟨nonce, hnonce, hseal⟩ := h.sealValue
  have hopens : ∀ field plain,
      openSealed P master field (env.sealValue field plain) = .ok plain := by
    intro field plain
    rw [hseal]
    exact openSealed_sealed hP (hnonce field plain)
  refine ⟨⟨h.openValue, hopens⟩, fun plaintext field => ?_, fun plaintext field n hn hnew => ?_,
    fun plaintext field hplain => ?_⟩
  · rw [decrypt_eq h, Connection.encrypt]
    split
    · rename_i hempty
      rw [decrypt, if_pos rfl, hempty]
    · exact (decrypt_prefixed _).trans (hopens field plaintext)
  · rw [decrypt_eq h, decrypt_prefixed, openSealed_legacy hP hn hnew]
  · rw [decrypt_eq h, decrypt, hplain]
    split
    · rename_i hempty
      rw [hempty]
    · rfl

/-! ### An example -/

/-- A text behind its key. -/
def plainPrimitives : Primitives where
  hkdf _ _ := [1]
  sha256 _ := [2]
  sealText key _ text := key ++ text.toUTF8.data.toList
  openText key _ sealed :=
    if key.isPrefixOf sealed then String.fromUTF8? ⟨(sealed.drop key.length).toArray⟩ else none

theorem sound_plainPrimitives : plainPrimitives.Sound := by
  intro key nonce text
  simp only [plainPrimitives, List.prefix_append, List.isPrefixOf_iff_prefix, if_true,
    List.drop_left, Array.toArray_toList]
  exact dif_pos text.isValidUTF8

def plainEnv : Connection.Env where
  settings := none
  sealValue field plaintext :=
    sealed plainPrimitives (deriveFieldKey plainPrimitives [] field) (List.replicate 12 0) plaintext
  openValue := openSealed plainPrimitives []
  readErr := none
  writeErr := none
  dialErr := none
  statusWriteErr := none
  now := ""

theorem underKey_plainEnv : UnderKey plainPrimitives [] plainEnv :=
  ⟨⟨fun _ _ => List.replicate 12 0, fun _ _ => rfl, rfl⟩, rfl⟩

/-- A password is stored under either key of its field, and read. -/
theorem password_read : Connection.Keyed (openSealed plainPrimitives []) plainEnv ∧
    Connection.decrypt plainEnv (Connection.encrypt plainEnv "secret" "password") "password" =
      .ok "secret" ∧
    Connection.decrypt plainEnv (encryptedPrefix ++ sealed plainPrimitives
      (deriveFieldKeyLegacy plainPrimitives [] "password") (List.replicate 12 0) "secret")
      "password" = .ok "secret" := by
  obtain ⟨hkeyed, hround, hlegacy, -⟩ := keyed_underKey sound_plainPrimitives underKey_plainEnv
  exact ⟨hkeyed, hround _ _, hlegacy _ _ _ rfl (by
    simp [plainPrimitives, deriveFieldKey, deriveFieldKeyLegacy])⟩

end MqStudio.Crypto
