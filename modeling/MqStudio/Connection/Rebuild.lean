import MqStudio.Connection.Settled
import MqStudio.Lib.Traverse

/-!
# Saving and loading

What a save writes and what a load makes of it, as functions of the profile map
alone.  `offline` is the map with every profile off line, which is what is left
of a map once it has been saved and loaded again.

* `buildConnectionState_copyConnectionsSorted`: building the state of settled
  profiles again changes nothing but their status.
* `loadConnectionsFromFile_encode`: a load of a saved map finds it, off line.
-/

namespace MqStudio.Connection

open Model Lib.Json Lib.Maps Lib.Errors

/-! ### Off line -/

/-- A profile as a load leaves it. -/
def offlineProfile (p : ConnectionProfile) : ConnectionProfile :=
  { p with status := statusOffline, lastCheck := "-" }

/-- Every profile off line: what does not depend on the runtime. -/
def offline (m : Profiles) : Profiles := m.map fun _ p => offlineProfile p

@[simp] theorem getElem?_offline (m : Profiles) (k : Int) :
    (offline m)[k]? = m[k]?.map offlineProfile :=
  Std.ExtTreeMap.getElem?_map

theorem offline_ext {m m' : Profiles}
    (h : ∀ k : Int, m[k]?.map offlineProfile = m'[k]?.map offlineProfile) :
    offline m = offline m' := by
  apply Std.ExtTreeMap.ext_getElem?
  intro k
  simpa using h k

theorem offline_offline (m : Profiles) : offline (offline m) = offline m := by
  refine offline_ext fun k => ?_
  rw [getElem?_offline]
  cases m[k]? <;> rfl

/-- The status of one profile is none of the map's business. -/
theorem offline_insert {m : Profiles} {k : Int} {p q : ConnectionProfile} (hp : m[k]? = some p)
    (hq : offlineProfile q = offlineProfile p) : offline (m.insert k q) = offline m := by
  refine offline_ext fun a => ?_
  rw [getElem?_insert]
  split
  · rename_i ha
    subst ha
    simp [hp, hq]
  · rfl

/-- Every stored profile has a property that its status does not decide. -/
theorem forall_of_offline {Q : ConnectionProfile → Prop}
    (hQ : ∀ p q, offlineProfile p = offlineProfile q → Q p → Q q) {m m' : Profiles}
    (h : offline m = offline m') (hm : ∀ (k : Int) p, m[k]? = some p → Q p) (k : Int)
    (p : ConnectionProfile) (hp : m'[k]? = some p) : Q p := by
  have hk := congrArg (·[k]?) h
  simp only [getElem?_offline, hp, Option.map_some] at hk
  obtain ⟨q, hq, he⟩ := Option.map_eq_some_iff.mp hk
  exact hQ q p he (hm k q hq)

/-! ### Building again -/

theorem copyConnectionsSorted_mem {m : Profiles} {p : ConnectionProfile} :
    p ∈ copyConnectionsSorted m ↔ ∃ k : Int, m[k]? = some p := mem_values

/-- The ids of a well-numbered map are in order. -/
theorem copyConnectionsSorted_sorted {m : Profiles} {n : Int} (h : IdInv m n) :
    (copyConnectionsSorted m).Pairwise fun p q => p.id < q.id := by
  have hs := Std.ExtTreeMap.ordered_keys_toList (t := m)
  rw [copyConnectionsSorted, List.pairwise_map]
  refine hs.imp_of_mem fun {a b} ha hb hlt => ?_
  have hid : ∀ e ∈ m.toList, e.2.id = e.1 := fun e he =>
    h.key_eq_id (Std.ExtTreeMap.mem_toList_iff_getElem?_eq_some.mp he)
  rw [hid a ha, hid b hb]
  exact Std.compare_eq_lt.mp hlt

/-- Profiles in the order of their ids are loaded under these ids, the only default kept. -/
theorem foldl_add_sorted (ps : List ConnectionProfile) {b : Building}
    (hkept : ∀ p ∈ ps, normalizeLoaded p = offlineProfile p) (hsorted : ps.Pairwise fun p q => p.id < q.id)
    (hlow : ∀ p ∈ ps, b.nextID ≤ p.id) (hpos : 0 < b.nextID)
    (hfree : ∀ k : Int, b.nextID ≤ k → b.loaded[k]? = none)
    (hone : ps.Pairwise fun p q => ¬ (p.isDefault = true ∧ q.isDefault = true))
    (hdefault : ∀ p ∈ ps, p.isDefault = true → b.hasDefault = false) :
    (ps.foldl Building.add b).loaded =
        ps.foldl (fun m p => m.insert p.id (offlineProfile p)) b.loaded ∧
      (ps.foldl Building.add b).hasDefault = (b.hasDefault || ps.any (·.isDefault)) ∧
      (ps.foldl Building.add b).nextID = (ps.getLast?.map (·.id + 1)).getD b.nextID := by
  induction ps generalizing b with
  | nil => simp
  | cons p ps ih =>
    rw [List.pairwise_cons] at hsorted hone
    have hp := hlow p List.mem_cons_self
    have hids : b.assignID p.id = (p.id, p.id + 1) := by
      have hnone := hfree p.id hp
      have h0 : ¬ p.id ≤ 0 := by omega
      simp [Building.assignID, h0, hp, Std.ExtTreeMap.contains_eq_isSome_getElem?, hnone]
    have hflag : (p.isDefault && !b.hasDefault) = p.isDefault := by
      cases hd : p.isDefault with
      | false => rfl
      | true => simp [hdefault p List.mem_cons_self hd]
    have hadd : b.add p =
        ⟨b.loaded.insert p.id (offlineProfile p), p.id + 1, b.hasDefault || p.isDefault⟩ := by
      rw [Building.add, hids, hkept p List.mem_cons_self, hflag]
      rfl
    obtain ⟨hl, hd, hn⟩ := ih (b := b.add p) (fun q hq => hkept q (by simp [hq])) hsorted.2
      (fun q hq => by rw [hadd]; exact hsorted.1 q hq) (by rw [hadd]; change 0 < p.id + 1; omega)
      (fun k hk => by
        rw [hadd] at hk ⊢
        change p.id + 1 ≤ k at hk
        change (b.loaded.insert p.id (offlineProfile p))[k]? = none
        rw [getElem?_insert, if_neg (by omega), hfree k (by omega)])
      hone.2
      (fun q hq hqd => by
        rw [hadd]
        have hpd : p.isDefault = false := by
          by_contra hn
          exact hone.1 q hq ⟨by simpa using hn, hqd⟩
        simp [hdefault q (by simp [hq]) hqd, hpd])
    rw [hadd] at hl hd hn
    refine ⟨?_, ?_, ?_⟩
    · rw [List.foldl_cons, List.foldl_cons, hadd]
      exact hl
    · rw [List.foldl_cons, hadd, hd, List.any_cons, Bool.or_assoc]
    · rw [List.foldl_cons, hadd, hn, List.getLast?_cons]
      cases ps.getLast? <;> rfl

/-- The profiles of a map, off line, inserted one after another. -/
theorem foldl_insert_copyConnectionsSorted {m : Profiles} {n : Int} (h : IdInv m n) :
    (copyConnectionsSorted m).foldl (fun acc p => acc.insert p.id (offlineProfile p)) ∅ =
      offline m := by
  have hlist : (offline m).toList = m.toList.map fun e => (e.1, offlineProfile e.2) :=
    Std.ExtTreeMap.toList_map
  have hall : ∀ (es : List (Int × ConnectionProfile)) (acc : Profiles),
      (∀ e ∈ es, e.2.id = e.1) →
      (es.map (·.2)).foldl (fun acc p => acc.insert p.id (offlineProfile p)) acc =
        (es.map fun e => (e.1, offlineProfile e.2)).foldl (fun acc e => acc.insert e.1 e.2) acc := by
    intro es
    induction es with
    | nil => intro acc _; rfl
    | cons e es ih =>
      intro acc he
      simp only [List.map_cons, List.foldl_cons]
      rw [he e List.mem_cons_self]
      exact ih _ fun f hf => he f (by simp [hf])
  rw [← foldl_insert_toList (offline m), hlist, copyConnectionsSorted]
  exact hall m.toList ∅ fun e he =>
    h.key_eq_id (Std.ExtTreeMap.mem_toList_iff_getElem?_eq_some.mp he)

/-- **Building the state again** of normal, well-numbered profiles takes them off line. -/
theorem buildConnectionState_again {m : Profiles} {n : Int} (h : StoreInv m n)
    (hkept : ∀ (k : Int) p, m[k]? = some p → normalizeLoaded p = offlineProfile p) :
    buildConnectionState ((copyConnectionsSorted m).map some) =
      (offline m, ((copyConnectionsSorted m).getLast?.map (·.id + 1)).getD 1) := by
  have hids := copyConnectionsSorted_sorted h.toIdInv
  have hone : (copyConnectionsSorted m).Pairwise fun p q =>
      ¬ (p.isDefault = true ∧ q.isDefault = true) := by
    refine hids.imp_of_mem fun {p q} hp hq hlt hd => ?_
    obtain ⟨k, hk⟩ := copyConnectionsSorted_mem.mp hp
    obtain ⟨k', hk'⟩ := copyConnectionsSorted_mem.mp hq
    have := h.default_unique hk hd.1 hk' hd.2
    rw [← h.key_eq_id hk, ← h.key_eq_id hk'] at this
    omega
  obtain ⟨hl, hd, hn⟩ := foldl_add_sorted (copyConnectionsSorted m) (b := ⟨∅, 1, false⟩)
    (fun p hp => by
      obtain ⟨k, hk⟩ := copyConnectionsSorted_mem.mp hp
      exact hkept k p hk) hids
    (fun p hp => by
      obtain ⟨k, hk⟩ := copyConnectionsSorted_mem.mp hp
      exact h.id_pos hk)
    Int.one_pos (fun k _ => by simp) hone (fun _ _ _ => rfl)
  have hfilter : ((copyConnectionsSorted m).map some).filterMap id = copyConnectionsSorted m := by
    simp [List.filterMap_map]
  have hloaded : ((copyConnectionsSorted m).foldl Building.add ⟨∅, 1, false⟩).loaded = offline m :=
    hl.trans (foldl_insert_copyConnectionsSorted h.toIdInv)
  rw [buildConnectionState, hfilter]
  rw [hloaded, hn]
  refine Prod.ext ?_ rfl
  split
  · rfl
  · rename_i hno
    -- Without a default there is nothing to make one of.
    have hempty : m = ∅ := by
      by_contra hne
      obtain ⟨k, p, hp, hpd⟩ := h.default_exists hne
      rw [hd] at hno
      simp only [Bool.false_or, List.any_eq_true, not_exists, not_and] at hno
      exact hno p (copyConnectionsSorted_mem.mpr ⟨k, hp⟩) hpd
    subst hempty
    have hoff : offline ∅ = ∅ := by
      apply Std.ExtTreeMap.ext_getElem?
      intro k
      simp
    rw [hoff, sortedConnectionIDs, keys_eq_nil_iff.mpr rfl]

/-- Building the state again of settled profiles. -/
theorem buildConnectionState_copyConnectionsSorted {m : Profiles} {n : Int} (h : StoreInv m n)
    (hs : ∀ (k : Int) p, m[k]? = some p → Settled p) :
    (buildConnectionState ((copyConnectionsSorted m).map some)).1 = offline m := by
  rw [buildConnectionState_again h fun k p hp => (hs k p hp).normalizeLoaded_eq]

/-! ### Encryption -/

/-- The key of a run: what opens every text it has sealed. -/
structure Keyed (open_ : String → String → Except Error String) (env : Env) : Prop where
  key : env.openValue = open_
  opens : ∀ field plain, open_ field (env.sealValue field plain) = .ok plain

theorem isEncrypted_encrypt (env : Env) {plain : String} (h : plain ≠ "") (field : String) :
    encrypt env plain field ≠ "" ∧ isEncrypted (encrypt env plain field) = true := by
  rw [encrypt, if_neg h]
  refine ⟨fun he => ?_, ?_⟩
  · have := congrArg String.toList he
    simp [encryptedPrefix] at this
  · simp [isEncrypted, encryptedPrefix]

/-- **What was encrypted is decrypted again** under the same key. -/
theorem decrypt_encrypt {open_ : String → String → Except Error String} {env env' : Env}
    (h : Keyed open_ env) (h' : env'.openValue = open_) {plain : String} (hp : plain ≠ "")
    (field : String) : decrypt env' (encrypt env plain field) field = .ok plain := by
  obtain ⟨hne, hen⟩ := isEncrypted_encrypt env hp field
  rw [decrypt, if_neg hne, hen]
  simp only [Bool.not_true, Bool.false_eq_true, if_false]
  have hdrop : String.ofList ((encrypt env plain field).toList.drop 4) = env.sealValue field plain := by
    rw [encrypt, if_neg hp]
    simp [encryptedPrefix]
  rw [hdrop, h', h.opens]

/-- A profile whose secrets are encrypted. -/
def encryptedProfile (env : Env) (p : ConnectionProfile) : ConnectionProfile :=
  { p with secrets := encryptSecrets env p.secrets }

/-- The entries are decrypted one after another: those already seen are plain, and the rest are as
they were saved. -/
theorem foldlM_encrypted {open_ : String → String → Except Error String} {env env' : Env}
    (h : Keyed open_ env) (h' : env'.openValue = open_) {p : ConnectionProfile}
    {step : ConnectionProfile → String × String → Except Error ConnectionProfile}
    (hplain : ∀ q e, (e.2 = "" || !isEncrypted e.2) = true → step q e = .ok q)
    (hsealed : ∀ q e plain, ¬(e.2 = "" || !isEncrypted e.2) = true →
      decrypt env' e.2 e.1 = .ok plain → step q e = .ok (q.setSecret e.1 plain))
    (es : List (String × String)) : ∀ {q : ConnectionProfile},
    (∀ e ∈ es, p.secrets[e.1]? = some e.2) → { q with secrets := p.secrets } = p →
    (∀ k : String, q.secrets[k]? = p.secrets[k]? ∨
      q.secrets[k]? = p.secrets[k]?.map (encrypt env · k) ∧ ∃ v, (k, v) ∈ es) →
    (es.map fun e => (e.1, encrypt env e.2 e.1)).foldlM step q = .ok p := by
  induction es with
  | nil =>
    intro q _ hq hk
    have hs : q.secrets = p.secrets := by
      apply Std.ExtTreeMap.ext_getElem?
      intro k
      rcases hk k with hk | ⟨-, v, hv⟩
      · exact hk
      · cases hv
    rw [List.map_nil, List.foldlM_nil, ← hq, ← hs]
    rfl
  | cons e es ih =>
    intro q he hq hk
    have hek := he e List.mem_cons_self
    have hes : ∀ f ∈ es, p.secrets[f.1]? = some f.2 := fun f hf => he f (List.mem_cons_of_mem _ hf)
    rw [List.map_cons, List.foldlM_cons]
    by_cases hv : e.2 = ""
    · have henc : encrypt env e.2 e.1 = "" := by rw [hv, encrypt, if_pos rfl]
      rw [henc, hplain q (e.1, "") rfl]
      refine ih hes hq fun k => ?_
      rcases hk k with hk | ⟨hk, v, hm⟩
      · exact Or.inl hk
      · rcases List.mem_cons.mp hm with hm | hm
        · -- A blank value is saved as it is.
          obtain rfl : k = e.1 := congrArg Prod.fst hm
          refine Or.inl (hk.trans ?_)
          rw [hek, Option.map_some, henc, hv]
        · exact Or.inr ⟨hk, v, hm⟩
    · obtain ⟨hne, hen⟩ := isEncrypted_encrypt env hv e.1
      rw [hsealed q (e.1, encrypt env e.2 e.1) e.2 (by simp [hne, hen])
        (decrypt_encrypt h h' hv e.1)]
      refine ih hes hq fun k => ?_
      have hset : (q.setSecret e.1 e.2).secrets[k]? =
          if e.1 = k then some e.2 else q.secrets[k]? := by
        rw [ConnectionProfile.setSecret, getElem?_setSecretIn, if_neg hv]
      rw [hset]
      by_cases hk1 : e.1 = k
      · subst hk1
        exact Or.inl (by rw [if_pos rfl, hek])
      · rw [if_neg hk1]
        rcases hk k with hk | ⟨hk, v, hm⟩
        · exact Or.inl hk
        · refine Or.inr ⟨hk, v, ?_⟩
          rcases List.mem_cons.mp hm with hm | hm
          · exact absurd (congrArg Prod.fst hm).symm hk1
          · exact hm

/-- An encrypted profile, decrypted. -/
theorem decryptSecrets_encrypted {open_ : String → String → Except Error String} {env env' : Env}
    (h : Keyed open_ env) (h' : env'.openValue = open_) (p : ConnectionProfile) :
    decryptSecrets env' (encryptedProfile env p) = .ok p := by
  have hlist : (encryptSecrets env p.secrets).toList =
      p.secrets.toList.map fun e => (e.1, encrypt env e.2 e.1) := Std.ExtTreeMap.toList_map
  have hmem : ∀ e ∈ p.secrets.toList, p.secrets[e.1]? = some e.2 := fun e he =>
    Std.ExtTreeMap.mem_toList_iff_getElem?_eq_some.mp he
  have hmap : ∀ k : String, (encryptSecrets env p.secrets)[k]? =
      p.secrets[k]?.map (encrypt env · k) := fun _ => Std.ExtTreeMap.getElem?_map
  rw [decryptSecrets, encryptedProfile, hlist]
  refine foldlM_encrypted h h' (fun q e hblank => if_pos hblank) (fun q e plain hne hplain => ?_)
    p.secrets.toList hmem rfl fun k => ?_
  · rw [if_neg hne, hplain]
  · cases hk : p.secrets[k]? with
    | none =>
      refine Or.inl ?_
      rw [hmap, hk]
      rfl
    | some v =>
      refine Or.inr ⟨by rw [hmap, hk], v, ?_⟩
      exact Std.ExtTreeMap.mem_toList_iff_getElem?_eq_some.mpr hk

/-! ### Loading what was saved -/

/-- A record without old field names gives back its profile. -/
theorem profile_newConnectionRecord {p : ConnectionProfile} (hk : p.kind ≠ ⟨""⟩)
    (hm : p.auth.mechanism ≠ ⟨""⟩) : (newConnectionRecord p).profile = p := by
  obtain ⟨id, name, group, kind, endpoints, timeoutSec, auth, status, lastCheck, isDefault, remark,
    options, secrets⟩ := p
  simp only at hk hm
  have hempty : secrets.isEmpty = true →
      (secrets.erase secretAccessKey).erase secretSecretKey = secrets := by
    intro he
    rw [Std.ExtTreeMap.isEmpty_iff] at he
    subst he
    apply Std.ExtTreeMap.ext_getElem?
    intro k
    simp
  by_cases he : endpoints = "" <;> by_cases hs : secrets.isEmpty = true <;>
    simp [ConnectionRecord.profile, newConnectionRecord, hk, hm, he, hs,
      ConnectionProfile.setSecret, setSecretIn, hempty]

/-- The ids are in the range of the integers a file can hold. -/
def InRange (m : Profiles) : Prop := ∀ (k : Int) p, m[k]? = some p → p.id < 2 ^ 63

theorem unmarshal_marshalIndent {α : Type} {dec : Decoder α} {old new : α} {v : Value}
    (h : dec old v = (new, true)) : unmarshal dec old (marshalIndent v) = .ok new := by
  rw [unmarshal, parse_marshalIndent]
  dsimp only
  rw [h, if_pos rfl]

theorem decodeStore_encodeStore (rs : List ConnectionProfile)
    (h : ∀ p ∈ rs, -2 ^ 63 ≤ p.id ∧ p.id < 2 ^ 63) :
    decodeStruct storeMembers ⟨0, none⟩ (encodeStruct storeMembers
        ⟨currentSchemaVersion, some (rs.map fun p => some (newConnectionRecord p))⟩) =
      (⟨currentSchemaVersion, some (rs.map fun p => some (newConnectionRecord p))⟩, true) := by
  have hrecords : decodeRecords none
      (encodeRecords (some (rs.map fun p => some (newConnectionRecord p)))) =
      (some (rs.map fun p => some (newConnectionRecord p)), true) := by
    rw [decodeRecords, encodeRecords, List.map_map]
    refine decodeSlice_map fun p hp => ?_
    have hr := decodeRecord_encodeRecord (h p hp)
    change decodePointer ConnectionRecord.zero decodeRecord none (encodeRecord _) = _
    rw [encodeRecord, encodeStruct, decodePointer_object]
    rw [encodeRecord, encodeStruct] at hr
    rw [hr]
  rw [decodeStruct_encodeStruct (by decide)]
  simp only [storeMembers, decodeAll, Member.reread, Member.of, decodeInt64_ofInt]
  rw [hrecords]
  rfl

/-- A save writes the records of the encrypted profiles. -/
theorem encodeConnectionsForDisk_eq (env : Env) (ps : List ConnectionProfile) :
    encodeConnectionsForDisk env ps = marshalIndent (encodeStruct storeMembers
      ⟨currentSchemaVersion,
        some ((ps.map (encryptedProfile env)).map fun p => some (newConnectionRecord p))⟩) := by
  rw [encodeConnectionsForDisk, List.map_map]
  rfl

/-- **A load of a saved map** finds its profiles, off line. -/
theorem loadConnectionsFromFile_encode {open_ : String → String → Except Error String}
    {env env' : Env} (h : Keyed open_ env) (h' : env'.openValue = open_) (hr : env'.readErr = none)
    {s : Service} {m : Profiles} {n : Int}
    (hf : s.file = some (encodeConnectionsForDisk env (copyConnectionsSorted m)))
    (hi : StoreInv m n) (hs : ∀ (k : Int) p, m[k]? = some p → Settled p)
    (hk : ∀ (k : Int) p, m[k]? = some p → p.kind ≠ ⟨""⟩) (hfit : InRange m) :
    ∃ t, s.loadConnectionsFromFile env' = .ok t ∧ t.connections = offline m := by
  have hmem : ∀ p ∈ copyConnectionsSorted m, ∃ k : Int, m[k]? = some p := fun p hp =>
    copyConnectionsSorted_mem.mp hp
  have hdata : unmarshal (decodeStruct storeMembers) ⟨0, none⟩
      (encodeConnectionsForDisk env (copyConnectionsSorted m)) =
      .ok ⟨currentSchemaVersion, some (((copyConnectionsSorted m).map (encryptedProfile env)).map
        fun p => some (newConnectionRecord p))⟩ := by
    rw [encodeConnectionsForDisk_eq]
    refine unmarshal_marshalIndent ?_
    have hrs := decodeStore_encodeStore ((copyConnectionsSorted m).map (encryptedProfile env))
      (by
        intro p hp
        obtain ⟨q, hq, rfl⟩ := List.mem_map.mp hp
        obtain ⟨k, hk⟩ := hmem q hq
        have := hi.id_pos hk
        have := hfit k q hk
        change -2 ^ 63 ≤ q.id ∧ q.id < 2 ^ 63
        omega)
    exact hrs
  have hplain : (((copyConnectionsSorted m).map (encryptedProfile env)).map
      newConnectionRecord).mapM (fun r => decryptSecrets env' r.profile) =
      (.ok (copyConnectionsSorted m) : Except Error (List ConnectionProfile)) := by
    have hall := Lib.Traverse.mapM_map_eq_ok (fun r => decryptSecrets env' r.profile)
      (newConnectionRecord ∘ encryptedProfile env) id (copyConnectionsSorted m) fun p hp => ?_
    · rwa [List.map_id, ← List.map_map] at hall
    obtain ⟨k, hkp⟩ := hmem p hp
    change decryptSecrets env' (newConnectionRecord (encryptedProfile env p)).profile = .ok p
    rw [profile_newConnectionRecord (p := encryptedProfile env p) (hk k p hkp)
      (hs k p hkp).mechanism]
    exact decryptSecrets_encrypted h h' p
  have hfilter : (((copyConnectionsSorted m).map (encryptedProfile env)).map
      fun p => some (newConnectionRecord p)).filterMap id =
      ((copyConnectionsSorted m).map (encryptedProfile env)).map newConnectionRecord := by
    simp [List.filterMap_map, Function.comp_def]
  refine ⟨{ s with connections := (buildConnectionState ((copyConnectionsSorted m).map some)).1,
                   nextID := (buildConnectionState ((copyConnectionsSorted m).map some)).2 }, ?_, ?_⟩
  · rw [Service.loadConnectionsFromFile, hr, hf]
    dsimp only
    rw [hdata]
    simp only [bind, Except.bind, Option.getD_some]
    rw [hfilter, hplain]
  · exact buildConnectionState_copyConnectionsSorted hi hs

end MqStudio.Connection
