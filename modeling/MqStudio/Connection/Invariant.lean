import MqStudio.Connection.Steps
import MqStudio.Lib.Transition

/-!
# Ids and the default flag

The invariant of the profile map, `StoreInv`: every key is its profile's id, the
ids are positive and below `nextID`, and one profile is the default unless the
map is empty.

* `storeInv_buildConnectionState`: the loader repairs every list of profiles,
  whatever ids and flags it carries.
* `inv_exec`: every call keeps the invariant, whatever it meets outside; a call
  that fails after it changed the map has put the ids and flags back.
* `wellNumbered_run`: so it holds after every run of calls, on every data file.

What a call does to ids and flags is seen through `label`: two maps with the same
labels have the invariant together (`StoreInv.of_sameLabels`), and most calls
leave the labels alone.
-/

namespace MqStudio.Connection

open Model Lib.Maps

/-! ### The invariant -/

/-- Keys, ids and the next id. -/
structure IdInv (m : Profiles) (nextID : Int) : Prop where
  key_eq_id : ∀ {k : Int} {p : ConnectionProfile}, m[k]? = some p → p.id = k
  id_pos : ∀ {k : Int} {p : ConnectionProfile}, m[k]? = some p → 0 < p.id
  id_lt : ∀ {k : Int} {p : ConnectionProfile}, m[k]? = some p → p.id < nextID
  next_pos : 0 < nextID

structure StoreInv (m : Profiles) (nextID : Int) : Prop extends IdInv m nextID where
  default_exists : m ≠ ∅ → ∃ (k : Int) (p : ConnectionProfile), m[k]? = some p ∧ p.isDefault = true
  default_unique : ∀ {k k' : Int} {p p' : ConnectionProfile}, m[k]? = some p →
    p.isDefault = true → m[k']? = some p' → p'.isDefault = true → k = k'

/-- The id and the default flag. -/
def label (p : ConnectionProfile) : Int × Bool := (p.id, p.isDefault)

/-- Two maps that differ in neither ids nor default flags. -/
def SameLabels (m m' : Profiles) : Prop := ∀ k : Int, m'[k]?.map label = m[k]?.map label

theorem SameLabels.symm {m m' : Profiles} (h : SameLabels m m') : SameLabels m' m :=
  fun k => (h k).symm

theorem SameLabels.exists {m m' : Profiles} (h : SameLabels m m') {k : Int} {p : ConnectionProfile}
    (hp : m'[k]? = some p) : ∃ q, m[k]? = some q ∧ q.id = p.id ∧ q.isDefault = p.isDefault := by
  have hk := h k
  rw [hp] at hk
  obtain ⟨q, hq, hl⟩ := Option.map_eq_some_iff.mp hk.symm
  simp only [label, Prod.mk.injEq] at hl
  exact ⟨q, hq, hl⟩

theorem IdInv.of_sameIds {m m' : Profiles} {n : Int} (h : IdInv m n)
    (hs : ∀ {k : Int} {p : ConnectionProfile}, m'[k]? = some p → ∃ q, m[k]? = some q ∧ q.id = p.id) :
    IdInv m' n where
  key_eq_id hp := by
    obtain ⟨q, hq, hi⟩ := hs hp
    rw [← hi, h.key_eq_id hq]
  id_pos hp := by
    obtain ⟨q, hq, hi⟩ := hs hp
    exact hi ▸ h.id_pos hq
  id_lt hp := by
    obtain ⟨q, hq, hi⟩ := hs hp
    exact hi ▸ h.id_lt hq
  next_pos := h.next_pos

theorem StoreInv.of_sameLabels {m m' : Profiles} {n : Int} (h : StoreInv m n)
    (hs : SameLabels m m') : StoreInv m' n where
  toIdInv := h.toIdInv.of_sameIds fun hp => by
    obtain ⟨q, hq, hi, -⟩ := hs.exists hp
    exact ⟨q, hq, hi⟩
  default_exists hne := by
    obtain ⟨k, p, hp⟩ := ne_empty_iff.mp hne
    obtain ⟨q, hq, -, -⟩ := hs.exists hp
    obtain ⟨k, p, hp, hd⟩ := h.default_exists (ne_empty_iff.mpr ⟨k, q, hq⟩)
    obtain ⟨q, hq, -, hf⟩ := hs.symm.exists hp
    exact ⟨k, q, hq, hf.trans hd⟩
  default_unique hp hd hp' hd' := by
    obtain ⟨q, hq, -, hf⟩ := hs.exists hp
    obtain ⟨q', hq', -, hf'⟩ := hs.exists hp'
    exact h.default_unique hq (hf.trans hd) hq' (hf'.trans hd')

/-- Writing a profile of the same id and flag over a stored one keeps the labels. -/
theorem sameLabels_insert {m : Profiles} {k : Int} {p q : ConnectionProfile} (hp : m[k]? = some p)
    (hi : q.id = p.id) (hd : q.isDefault = p.isDefault) : SameLabels m (m.insert k q) := by
  intro a
  rw [getElem?_insert]
  by_cases ha : k = a
  · subst ha
    simp [hp, label, hi, hd]
  · simp [ha]

/-- Marking one profile of a map without a default makes it the only default. -/
theorem IdInv.setDefaultFlag {m : Profiles} {n id : Int} (h : IdInv m n)
    (hno : ∀ {k : Int} {p : ConnectionProfile}, m[k]? = some p → p.isDefault = false)
    {p : ConnectionProfile} (hp : m[id]? = some p) : StoreInv (setDefaultFlag m id true) n := by
  have hget : ∀ a : Int, (Connection.setDefaultFlag m id true)[a]? =
      if id = a then m[a]?.map fun p => { p with isDefault := true } else m[a]? :=
    fun a => getElem?_modify m id a _
  have hdef : ∀ {a : Int} {q : ConnectionProfile},
      (Connection.setDefaultFlag m id true)[a]? = some q → q.isDefault = true → a = id := by
    intro a q hq hd
    rw [hget] at hq
    split at hq
    · exact Eq.symm ‹_›
    · exact absurd hd (by simp [hno hq])
  refine ⟨h.of_sameIds fun {a q} hq => ?_, fun _ => ?_, fun hq hd hq' hd' => ?_⟩
  · rw [hget] at hq
    split at hq
    · obtain ⟨r, hr, rfl⟩ := Option.map_eq_some_iff.mp hq
      exact ⟨r, hr, rfl⟩
    · exact ⟨q, hq, rfl⟩
  · exact ⟨id, { p with isDefault := true }, by rw [hget, if_pos rfl, hp]; rfl, rfl⟩
  · rw [hdef hq hd, hdef hq' hd']

/-! ### The loader -/

/-- What holds of the profiles loaded so far. -/
structure Building.Inv (b : Building) : Prop extends IdInv b.loaded b.nextID where
  default_iff : b.hasDefault = true ↔
    ∃ (k : Int) (p : ConnectionProfile), b.loaded[k]? = some p ∧ p.isDefault = true
  default_unique : ∀ {k k' : Int} {p p' : ConnectionProfile}, b.loaded[k]? = some p →
    p.isDefault = true → b.loaded[k']? = some p' → p'.isDefault = true → k = k'

theorem Building.Inv.empty : Building.Inv ⟨∅, 1, false⟩ where
  key_eq_id h := by simp at h
  id_pos h := by simp at h
  id_lt h := by simp at h
  default_iff := by simp
  default_unique h := by simp at h
  next_pos := by decide

/-- No profile is stored at the next id or above it. -/
theorem IdInv.free {m : Profiles} {n : Int} (h : IdInv m n) {k : Int} (hk : n ≤ k) :
    m[k]? = none := by
  cases hl : m[k]? with
  | none => rfl
  | some p =>
    have := h.id_lt hl
    have := h.key_eq_id hl
    omega

/-- The id a profile gets is positive, unused and below the next id. -/
theorem Building.Inv.assignID {b : Building} (h : b.Inv) (id : Int) :
    0 < (b.assignID id).1 ∧ b.loaded[(b.assignID id).1]? = none ∧
      (b.assignID id).1 < (b.assignID id).2 ∧ b.nextID ≤ (b.assignID id).2 := by
  have hn := h.next_pos
  simp only [Building.assignID, Std.ExtTreeMap.contains_eq_isSome_getElem?]
  by_cases hid : id ≤ 0
  · simp only [hid, if_true, le_refl, h.free le_rfl]
    exact ⟨hn, by simp [h.free], by simp, by simp⟩
  · simp only [hid, if_false]
    by_cases hle : b.nextID ≤ id
    · simp only [hle, if_true, h.free hle]
      exact ⟨by simp; omega, by simp [h.free hle], by simp, by simp; omega⟩
    · simp only [hle, if_false]
      cases hl : b.loaded[id]? with
      | none => exact ⟨by simp; omega, by simpa using hl, by simp; omega, by simp⟩
      | some p => exact ⟨by simpa using hn, by simp [h.free], by simp, by simp⟩

theorem Building.Inv.add {b : Building} (h : b.Inv) (p : ConnectionProfile) : (b.add p).Inv := by
  obtain ⟨hpos, hnew, hlt, hle⟩ := h.assignID p.id
  generalize hids : b.assignID p.id = ids at hpos hnew hlt hle
  obtain ⟨q, hq⟩ : ∃ q, { normalizeLoaded p with
    id := ids.1, isDefault := p.isDefault && !b.hasDefault } = q := ⟨_, rfl⟩
  have hqid : q.id = ids.1 := by rw [← hq]
  have hqd : q.isDefault = (p.isDefault && !b.hasDefault) := by rw [← hq]
  have hadd : b.add p = ⟨b.loaded.insert ids.1 q, ids.2, b.hasDefault || p.isDefault⟩ := by
    rw [Building.add, hids, hq]
  rw [hadd]
  -- A profile of the new map is the added one or an old one.
  have hcases : ∀ {k : Int} {r : ConnectionProfile}, (b.loaded.insert ids.1 q)[k]? = some r →
      (k = ids.1 ∧ r = q) ∨ b.loaded[k]? = some r := by
    intro k r hr
    rw [getElem?_insert] at hr
    split at hr
    · exact Or.inl ⟨Eq.symm ‹_›, (Option.some.inj hr).symm⟩
    · exact Or.inr hr
  have hold : ∀ {k : Int} {r : ConnectionProfile}, b.loaded[k]? = some r →
      (b.loaded.insert ids.1 q)[k]? = some r := by
    intro k r hr
    have hk : ids.1 ≠ k := by rintro rfl; rw [hnew] at hr; simp at hr
    rw [getElem?_insert, if_neg hk, hr]
  have hself : (b.loaded.insert ids.1 q)[ids.1]? = some q := by
    rw [getElem?_insert, if_pos rfl]
  refine ⟨⟨?_, ?_, ?_, ?_⟩, ⟨?_, ?_⟩, ?_⟩
  · intro k r hr
    rcases hcases hr with ⟨rfl, rfl⟩ | hr
    · exact hqid
    · exact h.key_eq_id hr
  · intro k r hr
    rcases hcases hr with ⟨rfl, rfl⟩ | hr
    · rw [hqid]; exact hpos
    · exact h.id_pos hr
  · intro k r hr
    rcases hcases hr with ⟨rfl, rfl⟩ | hr
    · rw [hqid]; exact hlt
    · exact lt_of_lt_of_le (h.id_lt hr) hle
  · exact lt_of_lt_of_le h.next_pos hle
  · intro hd
    by_cases hb : b.hasDefault = true
    · obtain ⟨k, r, hr, hrd⟩ := h.default_iff.mp hb
      exact ⟨k, r, hold hr, hrd⟩
    · refine ⟨ids.1, q, hself, ?_⟩
      simp only [Bool.not_eq_true] at hb
      simpa [hqd, hb] using hd
  · rintro ⟨k, r, hr, hrd⟩
    rcases hcases hr with ⟨rfl, rfl⟩ | hr
    · rw [hqd] at hrd
      simp only [Bool.and_eq_true] at hrd
      simp [hrd.1]
    · simp [h.default_iff.mpr ⟨k, r, hr, hrd⟩]
  · intro k k' r r' hr hrd hr' hrd'
    -- Where an old profile is the default, the added one is not.
    have hclash : ∀ {a : Int} {s : ConnectionProfile}, b.loaded[a]? = some s → s.isDefault = true →
        q.isDefault = false := by
      intro a s hs hsd
      simp [hqd, h.default_iff.mpr ⟨a, s, hs, hsd⟩]
    rcases hcases hr with ⟨rfl, rfl⟩ | ho <;> rcases hcases hr' with ⟨rfl, rfl⟩ | ho'
    · rfl
    · rw [hclash ho' hrd'] at hrd; exact absurd hrd (by decide)
    · rw [hclash ho hrd] at hrd'; exact absurd hrd' (by decide)
    · exact h.default_unique ho hrd ho' hrd'

theorem building_inv (ps : List ConnectionProfile) {b : Building} (h : b.Inv) :
    (ps.foldl Building.add b).Inv := by
  induction ps generalizing b with
  | nil => exact h
  | cons p ps ih => exact ih (h.add p)

/-- **The loader repairs every list of profiles.** -/
theorem storeInv_buildConnectionState (ps : List (Option ConnectionProfile)) :
    StoreInv (buildConnectionState ps).1 (buildConnectionState ps).2 := by
  have h := building_inv (ps.filterMap id) Building.Inv.empty
  rw [buildConnectionState]
  generalize (ps.filterMap id).foldl Building.add ⟨∅, 1, false⟩ = b at h
  by_cases hd : b.hasDefault = true
  · simp only [hd, if_true]
    exact ⟨h.toIdInv, fun _ => h.default_iff.mp hd, h.default_unique⟩
  · simp only [hd]
    have hno : ∀ {k : Int} {p : ConnectionProfile}, b.loaded[k]? = some p → p.isDefault = false := by
      intro k p hp
      by_contra hpd
      exact hd (h.default_iff.mpr ⟨k, p, hp, by simpa using hpd⟩)
    cases hk : sortedConnectionIDs b.loaded with
    | nil =>
      have he : b.loaded = ∅ := keys_eq_nil_iff.mp hk
      exact ⟨h.toIdInv, fun hne => absurd he hne, h.default_unique⟩
    | cons k ks =>
      obtain ⟨p, hp⟩ := getElem?_of_mem_keys (m := b.loaded) (k := k) (by
        rw [sortedConnectionIDs] at hk
        simp [hk])
      exact h.toIdInv.setDefaultFlag hno hp

/-! ### The calls -/

/-- The invariant of a service. -/
def Core.Inv (c : Core) : Prop := StoreInv c.connections c.nextID

theorem Core.Inv.relabel {c c' : Core} (h : c.Inv) (hs : SameLabels c.connections c'.connections)
    (hn : c'.nextID = c.nextID) : c'.Inv := by
  rw [Core.Inv, hn]
  exact h.of_sameLabels hs

theorem Core.inv_built (c : Core) (ps : List (Option ConnectionProfile)) : (c.built ps).Inv :=
  storeInv_buildConnectionState ps

theorem Core.Inv.opened {c : Core} (h : c.Inv) (env : Env) {id : Int} {p : ConnectionProfile}
    (hp : c.connections[id]? = some p) : (c.opened env id p).Inv :=
  h.relabel (sameLabels_insert hp rfl rfl) rfl

theorem inv_connectRuntimeLocked {s : Service} (h : s.core.Inv) (env : Env) (id : Int) :
    (s.connectRuntimeLocked env id).1.core.Inv := by
  rcases connectRuntimeLocked_cases s env id with ⟨hc, -⟩ | ⟨p, hp, -, hc⟩ <;> rw [hc]
  · exact h
  · exact h.opened env hp

theorem inv_disconnect {s : Service} (h : s.core.Inv) (env : Env) (id : Int) :
    (s.disconnect env id).1.core.Inv := by
  rcases disconnect_cases s env id with hc | ⟨p, hp, hc⟩ <;> rw [hc]
  · exact h
  · exact h.relabel (sameLabels_insert hp rfl rfl) rfl

theorem inv_testConnection {s : Service} (h : s.core.Inv) (env : Env) (id : Int) :
    (s.testConnection env id).1.core.Inv := by
  rcases testConnection_cases s env id with hc | ⟨p, hp, hc⟩ <;> rw [hc]
  · exact h
  · exact h.relabel (sameLabels_insert hp rfl rfl) rfl

theorem inv_restoreRuntimeLocked {s : Service} (h : s.core.Inv) (env : Env) (plan : Bool) :
    (s.restoreRuntimeLocked env plan).1.core.Inv := by
  rcases restoreRuntimeLocked_cases s env plan with hc | ⟨p, hp, -, hc⟩ <;> rw [hc]
  · exact h
  · exact Core.Inv.opened (c := s.core.hold ∅) h env hp

theorem inv_reload {s : Service} (h : s.core.Inv) (env : Env) : (s.reload env).1.core.Inv := by
  rcases reload_cases s env with hc | ⟨t, plan, ht | ⟨ps, ht⟩, hc⟩ <;> rw [hc]
  · exact h
  · exact inv_restoreRuntimeLocked (ht ▸ h) env plan
  · exact inv_restoreRuntimeLocked (ht ▸ s.core.inv_built ps) env plan

theorem inv_replaceConnections {s : Service} (h : s.core.Inv) (env : Env)
    (ps : List (Option ConnectionProfile)) : (s.replaceConnections env ps).1.core.Inv := by
  rcases replaceConnections_cases s env ps with hc | ⟨t, plan, prepared, -, ht, hc⟩ <;> rw [hc]
  · exact h
  · exact inv_restoreRuntimeLocked (ht ▸ s.core.inv_built _) env plan

/-- An edit that keeps the id and the default flag keeps the invariant, saved or not. -/
theorem inv_storeEdited {s : Service} (h : s.core.Inv) (env : Env) {id : Int}
    {previous current : ConnectionProfile} (redial : Bool) (hp : s.connections[id]? = some previous)
    (hi : current.id = previous.id) (hd : current.isDefault = previous.isDefault) :
    (s.storeEdited env id previous current redial).1.core.Inv := by
  have hstored : (s.core.store (s.connections.insert id current)).Inv :=
    h.relabel (sameLabels_insert hp hi hd) rfl
  rcases storeEdited_cases env current redial hp with ⟨-, hc⟩ | ⟨-, -, hc⟩ | ⟨-, hc⟩ | ⟨-, hc⟩ <;>
    rw [hc]
  · exact h
  · exact hstored
  · exact hstored
  · refine Core.Inv.opened (c := (s.core.store (s.connections.insert id current)).hold
      (s.clients.erase id)) hstored env ?_
    exact (getElem?_insert _ _ _ _).trans (if_pos rfl)

@[simp] theorem editProfile_id (p input : ConnectionProfile) (name endpoints : String) (acl : ACL) :
    (editProfile p input name endpoints acl).id = p.id := by
  simp [editProfile]

@[simp] theorem editProfile_isDefault (p input : ConnectionProfile) (name endpoints : String)
    (acl : ACL) : (editProfile p input name endpoints acl).isDefault = p.isDefault := by
  simp [editProfile]

theorem edited_eq {s : Service} {id : Int} {input p q : ConnectionProfile}
    (hp : s.connections[id]? = some p) (h : s.edited id input = some q) :
    ∃ name endpoints acl, s.validateConnectionFields (s.editedKind id input.kind) input.name
      input.endpoints input.timeoutSec = .ok (name, endpoints) ∧ aclConfig input = .ok acl ∧
      q = editProfile p input name endpoints acl := by
  unfold Service.edited at h
  rw [hp] at h
  split at h
  · rename_i name endpoints p' acl hv hp' ha
    obtain rfl := Option.some.inj hp'
    exact ⟨name, endpoints, acl, hv, ha, (Option.some.inj h).symm⟩
  · cases h

theorem inv_updateConnection {s : Service} (h : s.core.Inv) (env : Env) (id : Int)
    (input : ConnectionProfile) : (s.updateConnection env id input).1.core.Inv := by
  rcases updateConnection_cases s env id input with hc | ⟨p, q, hp, hq, hc⟩ <;> rw [hc]
  · exact h
  · obtain ⟨name, endpoints, acl, -, -, rfl⟩ := edited_eq hp hq
    refine inv_storeEdited h env _ hp ?_ ?_ <;> split <;> simp

theorem inv_setOption {s : Service} (h : s.core.Inv) (env : Env) (id : Int) (key value : String) :
    (s.setOption env id key value).1.core.Inv := by
  rcases setOption_cases s env id key value with hc | ⟨p, options, hp, hc⟩ <;> rw [hc]
  · exact h
  · exact inv_storeEdited h env _ hp rfl rfl

theorem inv_addConnection {s : Service} (h : s.core.Inv) (env : Env) (input : ConnectionProfile) :
    (s.addConnection env input).1.core.Inv := by
  have hfree : ∀ {k : Int}, s.nextID ≤ k → s.connections[k]? = none := h.toIdInv.free
  rcases addConnection_cases env input (hfree le_rfl) with hc | ⟨p, hp, hc⟩ <;> rw [hc]
  · exact h
  obtain ⟨hid, hdef⟩ := added_facts hp
  have hcases : ∀ {k : Int} {r : ConnectionProfile},
      (s.connections.insert s.nextID p)[k]? = some r →
      (k = s.nextID ∧ r = p) ∨ (s.connections[k]? = some r ∧ p.isDefault = false) := by
    intro k r hr
    rw [getElem?_insert] at hr
    split at hr
    · exact Or.inl ⟨Eq.symm ‹_›, (Option.some.inj hr).symm⟩
    · refine Or.inr ⟨hr, ?_⟩
      rw [hdef, Std.ExtTreeMap.isEmpty_eq_false_iff]
      exact ne_empty_iff.mpr ⟨k, r, hr⟩
  have hself : (s.connections.insert s.nextID p)[s.nextID]? = some p :=
    (getElem?_insert _ _ _ _).trans (if_pos rfl)
  have hnext : 0 < s.nextID := h.next_pos
  refine ⟨⟨?_, ?_, ?_, Int.lt_add_one_of_le hnext.le⟩, fun _ => ?_, ?_⟩
  · intro k r hr
    rcases hcases hr with ⟨rfl, rfl⟩ | ⟨hr, -⟩
    · exact hid
    · exact h.key_eq_id hr
  · intro k r hr
    rcases hcases hr with ⟨rfl, rfl⟩ | ⟨hr, -⟩
    · rw [hid]; exact hnext
    · exact h.id_pos hr
  · intro k r hr
    rcases hcases hr with ⟨rfl, rfl⟩ | ⟨hr, -⟩
    · rw [hid]; exact Int.lt_succ _
    · exact lt_trans (h.id_lt hr) (Int.lt_succ _)
  · by_cases he : s.connections = ∅
    · exact ⟨s.nextID, p, hself, by rw [hdef, he]; rfl⟩
    · obtain ⟨k, r, hr, hrd⟩ := h.default_exists he
      refine ⟨k, r, ?_, hrd⟩
      have hne : s.nextID ≠ k := by
        rintro rfl
        exact absurd (hfree le_rfl) (by rw [show s.connections[s.nextID]? = some r from hr]; simp)
      exact (getElem?_insert _ _ _ _).trans ((if_neg hne).trans hr)
  · intro k k' r r' hr hrd hr' hrd'
    rcases hcases hr with ⟨rfl, rfl⟩ | ⟨ho, hn⟩ <;> rcases hcases hr' with ⟨rfl, rfl⟩ | ⟨ho', hn'⟩
    · rfl
    · rw [hn'] at hrd; exact absurd hrd (by decide)
    · rw [hn] at hrd'; exact absurd hrd' (by decide)
    · exact h.default_unique ho hrd ho' hrd'

theorem inv_deleteConnection {s : Service} (h : s.core.Inv) (env : Env) (id : Int) :
    (s.deleteConnection env id).1.core.Inv := by
  rcases deleteConnection_cases s env id with hc | ⟨p, hp, hlast, hc⟩ <;> rw [hc]
  · exact h
  have hold : ∀ {k : Int} {r : ConnectionProfile}, (s.connections.erase id)[k]? = some r →
      s.connections[k]? = some r := by
    intro k r hr
    rw [getElem?_erase] at hr
    split at hr
    · cases hr
    · exact hr
  refine ⟨h.toIdInv.of_sameIds fun {k r} hr => ⟨r, hold hr, rfl⟩, fun hne => ?_,
    fun hr hrd hr' hrd' => h.default_unique (hold hr) hrd (hold hr') hrd'⟩
  -- The default profile stays, since it can only be deleted last.
  obtain ⟨k, r, hr, hrd⟩ := h.default_exists (ne_empty_iff.mpr ⟨id, p, hp⟩)
  have hk : id ≠ k := by
    rintro rfl
    obtain rfl := Option.some.inj (hp.symm.trans hr)
    exact hne (hlast hrd)
  exact ⟨k, r, (getElem?_erase _ _ _).trans ((if_neg hk).trans hr), hrd⟩

theorem getElem?_clearDefaults (m : Profiles) (k : Int) :
    (clearDefaults m)[k]? = m[k]?.map fun p => { p with isDefault := false } :=
  Std.ExtTreeMap.getElem?_map

theorem IdInv.clearDefaults {m : Profiles} {n : Int} (h : IdInv m n) :
    IdInv (clearDefaults m) n := by
  refine h.of_sameIds fun {k p} hp => ?_
  rw [getElem?_clearDefaults] at hp
  obtain ⟨q, hq, rfl⟩ := Option.map_eq_some_iff.mp hp
  exact ⟨q, hq, rfl⟩

/-- The default profile is the one `defaultID` names. -/
theorem StoreInv.defaultID {m : Profiles} {n : Int} (h : StoreInv m n) {k : Int}
    {p : ConnectionProfile} (hp : m[k]? = some p) :
    0 < defaultID m ∧ ∃ d, m[Connection.defaultID m]? = some d ∧ d.isDefault = true := by
  obtain ⟨k', d, hd, hdd⟩ := h.default_exists (ne_empty_iff.mpr ⟨k, p, hp⟩)
  rcases defaultID_cases m with h0 | ⟨k'', e, he, hed, hid⟩
  · exfalso
    have hf : (copyConnectionsSorted m).find? (·.isDefault) ≠ none := by
      rw [Ne, List.find?_eq_none]
      push Not
      exact ⟨d, mem_values.mpr ⟨k', hd⟩, by simpa using hdd⟩
    obtain ⟨e, hfe⟩ := Option.ne_none_iff_exists'.mp hf
    obtain ⟨k'', he⟩ := mem_values.mp (List.mem_of_find?_eq_some hfe)
    have hpos := h.id_pos he
    rw [Connection.defaultID, hfe] at h0
    simp only at h0
    omega
  · rw [hid]
    exact ⟨h.id_pos he, e, by rw [h.key_eq_id he]; exact he, hed⟩

/-- A failed choice of another default puts the flags back. -/
theorem restoredDefaults_eq {m : Profiles} {n : Int} (h : StoreInv m n) {id : Int}
    {p : ConnectionProfile} (hp : m[id]? = some p) : restoredDefaults m id = m := by
  obtain ⟨hpos, d, hd, hdd⟩ := h.defaultID hp
  have hne : Connection.defaultID m ≠ 0 := by omega
  rw [restoredDefaults]
  simp only [hne, ne_eq, not_false_eq_true, if_true]
  apply Std.ExtTreeMap.ext_getElem?
  intro a
  simp only [setDefaultFlag, getElem?_modify, getElem?_clearDefaults]
  cases ha : m[a]? with
  | none => simp
  | some q =>
    obtain ⟨qid, qname, qgroup, qkind, qend, qt, qauth, qst, qlc, qdef, qrem, qopt, qsec⟩ := q
    by_cases hda : Connection.defaultID m = a
    · subst hda
      obtain rfl := Option.some.inj (hd.symm.trans ha)
      simp only at hdd
      by_cases hia : id = Connection.defaultID m <;> simp [hia, hdd]
    · have hqd : qdef = false := by
        by_contra hq
        simp only [Bool.not_eq_false] at hq
        exact hda (h.default_unique hd hdd ha hq)
      by_cases hia : id = a <;> simp [hda, hia, hqd]

theorem inv_setDefaultConnection {s : Service} (h : s.core.Inv) (env : Env) (id : Int) :
    (s.setDefaultConnection env id).1.core.Inv := by
  rcases setDefaultConnection_cases s env id with hc | ⟨p, hp, -, hc | hc⟩ <;> rw [hc]
  · exact h
  · have hno : ∀ {k : Int} {q : ConnectionProfile},
        (clearDefaults s.connections)[k]? = some q → q.isDefault = false := by
      intro k q hq
      rw [getElem?_clearDefaults] at hq
      obtain ⟨r, -, rfl⟩ := Option.map_eq_some_iff.mp hq
      rfl
    refine IdInv.setDefaultFlag (IdInv.clearDefaults (m := s.connections) h.toIdInv) hno
      (p := { p with isDefault := false }) ?_
    rw [getElem?_clearDefaults, hp]
    rfl
  · rw [restoredDefaults_eq (m := s.connections) h hp]
    exact h

/-! ### Runs -/

/-- **Every call keeps the invariant**, whatever it meets outside. -/
theorem inv_exec {s : Service} (h : s.core.Inv) (c : Call) : (exec s c).core.Inv := by
  obtain ⟨op, env⟩ := c
  cases op with
  | addConnection input => exact inv_addConnection h env input
  | updateConnection id input => exact inv_updateConnection h env id input
  | setOption id key value => exact inv_setOption h env id key value
  | deleteConnection id => exact inv_deleteConnection h env id
  | setDefaultConnection id => exact inv_setDefaultConnection h env id
  | connect id => exact inv_connectRuntimeLocked h env id
  | disconnect id => exact inv_disconnect h env id
  | testConnection id => exact inv_testConnection h env id
  | replaceConnections ps => exact inv_replaceConnections h env ps
  | reload => exact inv_reload h env

theorem inv_new (endpoints : Option (MQKind → Bool)) (file : Option String) (env : Env) :
    (Service.new endpoints file env).core.Inv := by
  have h0 : (⟨∅, 1, ∅, endpoints⟩ : Core).Inv :=
    ⟨⟨fun h => by simp at h, fun h => by simp at h, fun h => by simp at h, Int.one_pos⟩,
      fun h => absurd rfl h, fun h => by simp at h⟩
  unfold Service.new
  dsimp only
  split
  · rename_i t ht
    rcases loadConnectionsFromFile_cases ht with hc | ⟨ps, hc⟩ <;> rw [hc]
    · exact h0
    · exact Core.inv_built _ ps
  · exact h0

theorem inv_run (endpoints : Option (MQKind → Bool)) (file : Option String) (env : Env)
    (calls : List Call) :
    (Lib.Transition.run exec (Service.new endpoints file env) calls).core.Inv :=
  Lib.Transition.run_inv exec (P := fun s => s.core.Inv) (fun _ c h => inv_exec h c) calls _
    (inv_new endpoints file env)

/-- Keys are ids; ids are positive, distinct and below the next id; one profile is the default
unless there is none. -/
def WellNumbered (s : Service) : Prop :=
  (∀ (k : Int) (p : ConnectionProfile), s.connections[k]? = some p →
    p.id = k ∧ 0 < p.id ∧ p.id < s.nextID) ∧
  (∀ (k k' : Int) (p p' : ConnectionProfile), s.connections[k]? = some p →
    s.connections[k']? = some p' → p.id = p'.id → k = k') ∧
  (s.connections ≠ ∅ →
    ∃! k : Int, ∃ p : ConnectionProfile, s.connections[k]? = some p ∧ p.isDefault = true)

theorem Core.Inv.wellNumbered {s : Service} (h : s.core.Inv) : WellNumbered s := by
  refine ⟨fun k p hp => ⟨h.key_eq_id hp, h.id_pos hp, h.id_lt hp⟩, fun k k' p p' hp hp' he => ?_,
    fun hne => ?_⟩
  · rw [← h.key_eq_id hp, ← h.key_eq_id hp', he]
  · obtain ⟨k, p, hp, hd⟩ := h.default_exists hne
    refine ⟨k, ⟨p, hp, hd⟩, ?_⟩
    rintro k' ⟨p', hp', hd'⟩
    exact h.default_unique hp' hd' hp hd

/-- **Ids and the default flag survive every run of calls**, whatever fails in it. -/
theorem wellNumbered_run (endpoints : Option (MQKind → Bool)) (file : Option String) (env : Env)
    (calls : List Call) :
    WellNumbered (Lib.Transition.run exec (Service.new endpoints file env) calls) :=
  (inv_run endpoints file env calls).wellNumbered

end MqStudio.Connection
