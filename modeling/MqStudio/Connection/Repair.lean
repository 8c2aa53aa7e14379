import MqStudio.Connection.Disk
import MqStudio.Lib.Numbering

/-!
# What loading makes of a list of profiles

`buildConnectionState` of `service/connection/persistence.go` on any list: the profiles are placed
in its order, each under its own id if it has one that is free.

* `placed`: where each profile of a list is placed.
* `placed_eq`: the places depend on the ids only.
* `Repaired`: nothing is lost, one profile is the default, and doing it again changes nothing.
* `repaired_iff`: a list is repaired exactly if no id that one profile has alone is given to one
  that is listed before it.
-/

namespace MqStudio.Connection

open Model Lib.Maps Lib.Numbering

/-! ### Where the profiles are placed -/

/-- The entry that a profile is loaded into. -/
def Building.entry (b : Building) (p : ConnectionProfile) : Int × ConnectionProfile :=
  ((b.assignID p.id).1, { normalizeLoaded p with
    id := (b.assignID p.id).1
    isDefault := p.isDefault && !b.hasDefault })

def entries (b : Building) : List ConnectionProfile → List (Int × ConnectionProfile)
  | [] => []
  | p :: ps => b.entry p :: entries (b.add p) ps

/-- Where the profiles of a list are placed, in its order. -/
def placed (ps : List ConnectionProfile) : List Int := (entries ⟨∅, 1, false⟩ ps).map (·.1)

theorem length_entries (b : Building) (ps : List ConnectionProfile) :
    (entries b ps).length = ps.length := by
  induction ps generalizing b with
  | nil => rfl
  | cons p ps ih => rw [entries, List.length_cons, List.length_cons, ih]

theorem loaded_foldl (b : Building) (ps : List ConnectionProfile) :
    (ps.foldl Building.add b).loaded =
      (entries b ps).foldl (fun m e => m.insert e.1 e.2) b.loaded := by
  induction ps generalizing b with
  | nil => rfl
  | cons p ps ih =>
    rw [List.foldl_cons, ih, entries, List.foldl_cons]
    rfl

theorem hasDefault_foldl (b : Building) (ps : List ConnectionProfile) :
    (ps.foldl Building.add b).hasDefault = (b.hasDefault || ps.any (·.isDefault)) := by
  induction ps generalizing b with
  | nil => simp
  | cons p ps ih =>
    rw [List.foldl_cons, ih, List.any_cons, ← Bool.or_assoc]
    rfl

theorem entries_append (b : Building) (before : List ConnectionProfile) (p : ConnectionProfile)
    (after : List ConnectionProfile) :
    entries b (before ++ p :: after) =
      entries b before ++ (before.foldl Building.add b).entry p ::
        entries (before.foldl Building.add b |>.add p) after := by
  induction before generalizing b with
  | nil => rfl
  | cons first before ih => rw [List.cons_append, entries, ih]; rfl

/-! ### The ids that are given -/

/-- The ids in use are those of the loaded profiles, and the next one is above them. -/
structure Numbered (b : Building) (used : List Int) : Prop where
  mem : ∀ k : Int, b.loaded.contains k = true ↔ k ∈ used
  next : b.nextID = top used + 1

theorem numbered_empty : Numbered ⟨∅, 1, false⟩ [] where
  mem k := by simp
  next := rfl

/-- An id is given by the rule of numbering. -/
theorem Numbered.assignID {b : Building} {used : List Int} (h : Numbered b used) (id : Int) :
    b.assignID id = (number used id, top (number used id :: used) + 1) := by
  have htop := top_nonneg used
  have hnext : b.loaded.contains (top used + 1) = false := by
    refine Bool.eq_false_of_not_eq_true fun hmem => ?_
    have hle := le_top ((h.mem _).mp hmem)
    omega
  have hmax : max (top used + 1) (top used) = top used + 1 := max_eq_left (by omega)
  by_cases hpos : id ≤ 0
  · have hgiven : number used id = top used + 1 := if_neg fun hown => by omega
    rw [hgiven, top_cons, hmax]
    simp [Building.assignID, h.next, hpos, hnext]
  · by_cases hmem : id ∈ used
    · have hle := le_top hmem
      have hcontains : b.loaded.contains id = true := (h.mem id).mpr hmem
      have hgiven : number used id = top used + 1 := if_neg fun hown => hown.2 hmem
      have hbelow : ¬ top used + 1 ≤ id := by omega
      rw [hgiven, top_cons, hmax]
      simp [Building.assignID, h.next, hpos, hbelow, hcontains]
    · have hfree : b.loaded.contains id = false :=
        Bool.eq_false_of_not_eq_true fun hc => hmem ((h.mem id).mp hc)
      have hgiven : number used id = id := if_pos ⟨by omega, hmem⟩
      rw [hgiven, top_cons]
      by_cases habove : top used + 1 ≤ id
      · have hmax' : max id (top used) = id := max_eq_left (by omega)
        simp [Building.assignID, h.next, hpos, habove, hfree, hmax']
      · have hmax' : max id (top used) = top used := max_eq_right (by omega)
        simp [Building.assignID, h.next, hpos, habove, hfree, hmax']

theorem Numbered.add {b : Building} {used : List Int} (h : Numbered b used)
    (p : ConnectionProfile) : Numbered (b.add p) (number used p.id :: used) := by
  have hids := h.assignID p.id
  refine ⟨fun k => ?_, ?_⟩
  · rw [Building.add]
    dsimp only
    rw [hids, Std.ExtTreeMap.contains_insert, List.mem_cons, ← h.mem k]
    simp only [Bool.or_eq_true, beq_iff_eq, Std.compare_eq_iff_eq]
    exact or_congr_left eq_comm
  · rw [Building.add]
    dsimp only
    rw [hids]

theorem Numbered.foldl {b : Building} {used : List Int} (h : Numbered b used)
    (ps : List ConnectionProfile) :
    Numbered (ps.foldl Building.add b) ((numbers used (ps.map (·.id))).reverse ++ used) := by
  induction ps generalizing b used with
  | nil => exact h
  | cons p ps ih =>
    rw [List.foldl_cons, List.map_cons, numbers, List.reverse_cons, List.append_assoc]
    exact ih (h.add p)

/-- **The places depend on the ids only.** -/
theorem entries_ids {b : Building} {used : List Int} (h : Numbered b used)
    (ps : List ConnectionProfile) :
    (entries b ps).map (·.1) = numbers used (ps.map (·.id)) := by
  induction ps generalizing b used with
  | nil => rfl
  | cons p ps ih =>
    rw [entries, List.map_cons, List.map_cons, numbers, ih (h.add p), Building.entry, h.assignID]

theorem placed_eq (ps : List ConnectionProfile) : placed ps = numbers [] (ps.map (·.id)) :=
  entries_ids numbered_empty ps


/-! ### What is loaded -/

/-- What a profile keeps. -/
structure Kept (p q : ConnectionProfile) : Prop where
  name : q.name = p.name
  kind : q.kind = p.kind
  endpoints : q.endpoints = p.endpoints
  timeoutSec : q.timeoutSec = p.timeoutSec
  options : q.options = p.options
  remark : q.remark = p.remark
  secrets : ∀ key, key ≠ secretAccessKey → key ≠ secretSecretKey → q.secrets[key]? = p.secrets[key]?

theorem kept_normalizeLoaded (p : ConnectionProfile) (id : Int) (isDefault : Bool) :
    Kept p { normalizeLoaded p with id := id, isDefault := isDefault } := by
  rw [normalizeLoaded_eq]
  refine ⟨rfl, rfl, rfl, rfl, rfl, rfl, fun key haccess hsecret => ?_⟩
  rw [getElem?_withPair, if_neg (Ne.symm hsecret), if_neg (Ne.symm haccess)]

/-- Loading a loaded profile takes it off line. -/
theorem normalizeLoaded_again (p : ConnectionProfile) (id : Int) (isDefault : Bool) :
    normalizeLoaded { normalizeLoaded p with id := id, isDefault := isDefault } =
      offlineProfile { normalizeLoaded p with id := id, isDefault := isDefault } := by
  by_cases hblank : p.auth.mechanism = ⟨""⟩
  · -- a mechanism of no name is another family's, so there is no pair
    have hoff : ∀ q : ConnectionProfile, q.auth.mechanism = ⟨""⟩ →
        loadedACL q = ⟨false, "", ""⟩ := by
      intro q hq
      have hacl : q.aclEnabled = false := by
        rw [ConnectionProfile.aclEnabled, hq]
        decide
      rw [loadedACL, aclConfig, hacl]
      rfl
    have hother : (⟨""⟩ : AuthMechanism) ≠ authACL := by decide
    have hpair : withPair (withPair p.secrets ⟨false, "", ""⟩) ⟨false, "", ""⟩ =
        withPair p.secrets ⟨false, "", ""⟩ := by
      apply Std.ExtTreeMap.ext_getElem?
      intro key
      rw [getElem?_withPair]
      split
      · rw [getElem?_withPair]
        simp_all
      · split
        · rw [getElem?_withPair]
          simp_all
        · rfl
    have hmechanism : (normalizeLoaded p).auth.mechanism = ⟨""⟩ := by
      rw [normalizeLoaded_eq, hoff p hblank]
      simp [hblank, hother]
    rw [normalizeLoaded_eq { normalizeLoaded p with id := id, isDefault := isDefault },
      hoff { normalizeLoaded p with id := id, isDefault := isDefault } hmechanism]
    dsimp only
    rw [hmechanism, normalizeLoaded_eq p, hoff p hblank]
    simp only [hblank, hother, ne_eq, not_false_eq_true, if_true, if_false, hpair,
      normalizeConnectionGroup_idem, Bool.false_eq_true]
    rfl
  · have hsettled := (settled_normalizeLoaded hblank).congr (q := { normalizeLoaded p with
      id := id, isDefault := isDefault }) rfl rfl rfl
    exact hsettled.normalizeLoaded_eq

/-- A profile that is built is a loaded one. -/
theorem normalizeLoaded_built {ps : List ConnectionProfile} {k : Int} {q : ConnectionProfile}
    (h : (buildConnectionState (ps.map some)).1[k]? = some q) :
    normalizeLoaded q = offlineProfile q ∧ offlineProfile q = q := by
  obtain ⟨p, -, id, isDefault, rfl⟩ := mem_built h
  refine ⟨normalizeLoaded_again p id isDefault, ?_⟩
  rw [normalizeLoaded_eq]
  rfl

section

variable {ps : List ConnectionProfile} {k : Int} {q : ConnectionProfile}

theorem nodup_placed (ps : List ConnectionProfile) : (placed ps).Nodup := by
  rw [placed_eq]
  exact nodup_numbers _ _

/-- **What is loaded** are the entries. -/
theorem getElem?_loaded (ps : List ConnectionProfile) (k : Int) (q : ConnectionProfile) :
    (ps.foldl Building.add ⟨∅, 1, false⟩).loaded[k]? = some q ↔
      (k, q) ∈ entries ⟨∅, 1, false⟩ ps := by
  rw [loaded_foldl, getElem?_foldl_insert]
  · constructor
    · rintro ⟨⟨k, q⟩, hmem, rfl, rfl⟩
      exact hmem
    · exact fun hmem => ⟨_, hmem, rfl, rfl⟩
  · intro e he e' he' hkey
    exact congrArg Prod.snd (List.inj_on_of_nodup_map (nodup_placed ps) he he' hkey)

/-- The profiles that are built, but for who is the default. -/
theorem getElem?_built (ps : List ConnectionProfile) (k : Int) :
    (buildConnectionState (ps.map some)).1[k]?.map (fun q => { q with isDefault := false }) =
      (ps.foldl Building.add ⟨∅, 1, false⟩).loaded[k]?.map fun q =>
        { q with isDefault := false } := by
  have hfilter : (ps.map some).filterMap id = ps := by simp [List.filterMap_map]
  rw [buildConnectionState, hfilter]
  dsimp only
  split
  · rfl
  · split
    · rw [setDefaultFlag, getElem?_modify]
      split
      · rw [Option.map_map]
        rfl
      · rfl
    · rfl

/-- An entry of the list is built at its place. -/
theorem built_of_mem (h : (k, q) ∈ entries ⟨∅, 1, false⟩ ps) :
    ∃ isDefault, (buildConnectionState (ps.map some)).1[k]? =
      some { q with isDefault := isDefault } := by
  have hmap := getElem?_built ps k
  rw [(getElem?_loaded ps k q).mpr h, Option.map_some] at hmap
  obtain ⟨r, hr, heq⟩ := Option.map_eq_some_iff.mp hmap
  refine ⟨r.isDefault, hr.trans (congrArg some ?_)⟩
  calc r = { r with isDefault := r.isDefault } := rfl
    _ = { { r with isDefault := false } with isDefault := r.isDefault } := rfl
    _ = { q with isDefault := r.isDefault } := by rw [heq]

theorem mem_built_iff (ps : List ConnectionProfile) (k : Int) :
    k ∈ (buildConnectionState (ps.map some)).1 ↔ k ∈ placed ps := by
  rw [Std.ExtTreeMap.mem_iff_isSome_getElem?, ← Option.isSome_map, getElem?_built,
    Option.isSome_map, Option.isSome_iff_exists, placed, List.mem_map]
  constructor
  · rintro ⟨q, hq⟩
    exact ⟨(k, q), (getElem?_loaded ps k q).mp hq, rfl⟩
  · rintro ⟨⟨k', q⟩, hmem, rfl⟩
    exact ⟨q, (getElem?_loaded ps k' q).mpr hmem⟩

/-- The entry of a profile that is listed behind others. -/
theorem entry_at (before : List ConnectionProfile) (p : ConnectionProfile)
    (after : List ConnectionProfile) :
    (entries ⟨∅, 1, false⟩ (before ++ p :: after))[before.length]? =
      some ((before.foldl Building.add ⟨∅, 1, false⟩).entry p) := by
  rw [entries_append, List.getElem?_append_right (length_entries _ before).le, length_entries,
    Nat.sub_self, List.getElem?_cons_zero]

theorem placed_at {before : List ConnectionProfile} {p : ConnectionProfile}
    {after : List ConnectionProfile} :
    (placed (before ++ p :: after))[before.length]? =
      some ((before.foldl Building.add ⟨∅, 1, false⟩).entry p).1 := by
  rw [placed, List.getElem?_map, entry_at, Option.map_some]

/-! ### Repair -/

/-- The place of the default: that of the first profile that is flagged, or, if none is, the
smallest one. -/
inductive DefaultPlace (ps : List ConnectionProfile) (k : Int) : Prop
  | flagged (before : List ConnectionProfile) (p : ConnectionProfile)
      (after : List ConnectionProfile) (hsplit : ps = before ++ p :: after)
      (hp : p.isDefault = true) (hbefore : ∀ q ∈ before, q.isDefault = false)
      (hplace : (placed ps)[before.length]? = some k)
  | smallest (hnone : ∀ p ∈ ps, p.isDefault = false) (hplace : k ∈ placed ps)
      (hleast : ∀ other ∈ placed ps, k ≤ other)

/-- What becomes of a list of profiles that are not nil: each has one place, where it is kept; an id
that one profile has alone is its place; one profile is the default; and building the state again
changes nothing. -/
structure Repaired (ps : List ConnectionProfile) (state : Profiles × Int) : Prop where
  length : (placed ps).length = ps.length
  nodup : (placed ps).Nodup
  mem : ∀ k : Int, k ∈ state.1 ↔ k ∈ placed ps
  kept : ∀ before p after, ps = before ++ p :: after → ∃ k q,
    (placed ps)[before.length]? = some k ∧ state.1[k]? = some q ∧ q.id = k ∧ Kept p q
  own : ∀ before p after, ps = before ++ p :: after → 0 < p.id →
    (∀ q ∈ before ++ after, q.id ≠ p.id) → (placed ps)[before.length]? = some p.id
  default : ∀ (k : Int) q, state.1[k]? = some q → (q.isDefault = true ↔ DefaultPlace ps k)
  again : buildConnectionState ((copyConnectionsSorted state.1).map some) = state

/-- No id that one profile has alone is given to a profile that is listed before it. -/
def OwnFree (ids : List Int) : Prop :=
  ∀ before id after, ids = before ++ id :: after → 0 < id → id ∉ before ++ after →
    id ∉ numbers [] before

/-- A unique id is kept exactly if it was not given out before. -/
theorem placed_own_iff {before : List ConnectionProfile} {p : ConnectionProfile}
    {after : List ConnectionProfile} (hpos : 0 < p.id) :
    (placed (before ++ p :: after))[before.length]? = some p.id ↔
      p.id ∉ numbers [] (before.map (·.id)) := by
  rw [placed_eq, List.map_append, List.map_cons, ← List.length_map (·.id), kept_iff,
    and_iff_right hpos]

theorem ownFree_iff (ps : List ConnectionProfile) :
    OwnFree (ps.map (·.id)) ↔ ∀ before p after, ps = before ++ p :: after → 0 < p.id →
      (∀ q ∈ before ++ after, q.id ≠ p.id) → (placed ps)[before.length]? = some p.id := by
  constructor
  · rintro h before p after rfl hpos hunique
    refine (placed_own_iff hpos).mpr (h _ p.id (after.map (·.id)) (by simp) hpos ?_)
    rw [← List.map_append, List.mem_map]
    rintro ⟨q, hq, hid⟩
    exact hunique q hq hid
  · intro h before id after hsplit hpos hunique
    obtain ⟨first, rest, rfl, rfl, hrest⟩ := List.map_eq_append_iff.mp hsplit
    obtain ⟨p, last, rfl, rfl, rfl⟩ := List.map_eq_cons_iff.mp hrest
    refine (placed_own_iff hpos).mp (h first p last rfl hpos fun q hq hid => hunique ?_)
    rw [← List.map_append, ← hid]
    exact List.mem_map_of_mem hq

/-- The next id is one above the largest place. -/
theorem nextID_built (ps : List ConnectionProfile) :
    (buildConnectionState (ps.map some)).2 = top (placed ps).reverse + 1 := by
  have hfilter : (ps.map some).filterMap id = ps := by simp [List.filterMap_map]
  have hnext := (numbered_empty.foldl ps).next
  rw [List.append_nil, ← placed_eq] at hnext
  rw [buildConnectionState, hfilter]
  exact hnext

/-- **Doing it again** changes nothing. -/
theorem built_again (ps : List ConnectionProfile) :
    buildConnectionState ((copyConnectionsSorted (buildConnectionState (ps.map some)).1).map some) =
      buildConnectionState (ps.map some) := by
  set m := (buildConnectionState (ps.map some)).1 with hm
  set n := (buildConnectionState (ps.map some)).2 with hn
  have hinv : StoreInv m n := storeInv_buildConnectionState _
  have hsame : offline m = m := by
    apply Std.ExtTreeMap.ext_getElem?
    intro k
    rw [getElem?_offline]
    cases hk : m[k]? with
    | none => rfl
    | some q => rw [Option.map_some, (normalizeLoaded_built hk).2]
  refine (buildConnectionState_again hinv fun k q hk => (normalizeLoaded_built hk).1).trans ?_
  refine Prod.ext hsame ?_
  show ((copyConnectionsSorted m).getLast?.map (·.id + 1)).getD 1 = n
  have hnext : n = top (placed ps).reverse + 1 := nextID_built ps
  rcases (top_nonneg (placed ps).reverse).eq_or_lt with hzero | hpos
  · -- no id is in use
    have hempty : copyConnectionsSorted m = [] := by
      refine List.eq_nil_iff_forall_not_mem.mpr fun q hq => ?_
      obtain ⟨k, hk⟩ := copyConnectionsSorted_mem.mp hq
      have hlt := hinv.id_lt hk
      have hid := hinv.id_pos hk
      omega
    rw [hempty, List.getLast?_nil, Option.map_none, Option.getD_none]
    omega
  · have hplace := List.mem_reverse.mp (top_mem hpos)
    obtain ⟨q, hq⟩ : ∃ q, m[top (placed ps).reverse]? = some q := by
      have hmem := (mem_built_iff ps _).mpr hplace
      exact Option.isSome_iff_exists.mp (Std.ExtTreeMap.mem_iff_isSome_getElem?.mp hmem)
    have hlisted : q ∈ copyConnectionsSorted m := copyConnectionsSorted_mem.mpr ⟨_, hq⟩
    cases hlast : (copyConnectionsSorted m).getLast? with
    | none =>
      rw [List.getLast?_eq_none_iff.mp hlast] at hlisted
      cases hlisted
    | some last =>
      obtain ⟨k, hk⟩ := copyConnectionsSorted_mem.mp (List.mem_of_getLast? hlast)
      have hle : q.id ≤ last.id := by
        obtain ⟨front, hfront⟩ := List.getLast?_eq_some_iff.mp hlast
        have hsorted := copyConnectionsSorted_sorted hinv.toIdInv
        rw [hfront] at hlisted hsorted
        rcases List.mem_append.mp hlisted with hq | hq
        · exact ((List.pairwise_append.mp hsorted).2.2 q hq last (by simp)).le
        · rw [List.mem_singleton.mp hq]
      have hlt := hinv.id_lt hk
      have hid := hinv.key_eq_id hq
      rw [Option.map_some, Option.getD_some]
      omega

/-- The default is at its place. -/
theorem default_of_place (h : DefaultPlace ps k) :
    ∃ q, (buildConnectionState (ps.map some)).1[k]? = some q ∧ q.isDefault = true := by
  have hfilter : (ps.map some).filterMap id = ps := by simp [List.filterMap_map]
  have hflags := hasDefault_foldl ⟨∅, 1, false⟩ ps
  rw [Bool.false_or] at hflags
  rw [buildConnectionState, hfilter]
  dsimp only
  rw [hflags]
  cases h with
  | flagged before p after hsplit hp hbefore hplace =>
    have hany : ps.any (·.isDefault) = true :=
      List.any_eq_true.mpr ⟨p, by simp [hsplit], hp⟩
    have hnone : (before.foldl Building.add ⟨∅, 1, false⟩).hasDefault = false := by
      rw [hasDefault_foldl, Bool.false_or]
      exact List.any_eq_false.mpr fun q hq => by simp [hbefore q hq]
    rw [if_pos hany]
    subst hsplit
    rw [placed_at] at hplace
    have hmem := List.mem_of_getElem? (entry_at before p after)
    set entry := (before.foldl Building.add ⟨∅, 1, false⟩).entry p with hentry
    have hk : entry.1 = k := Option.some.inj hplace
    have hflag : entry.2.isDefault = true := by
      rw [hentry, Building.entry]
      simp [hp, hnone]
    exact ⟨entry.2, (getElem?_loaded _ _ _).mpr (hk ▸ hmem), hflag⟩
  | smallest hnone hplace hleast =>
    have hany : ¬ ps.any (·.isDefault) = true := by
      rw [List.any_eq_true]
      rintro ⟨p, hp, hflag⟩
      rw [hnone p hp] at hflag
      cases hflag
    rw [if_neg hany]
    set loaded := (ps.foldl Building.add ⟨∅, 1, false⟩).loaded with hloaded
    have hkeys : ∀ key : Int, key ∈ loaded.keys ↔ key ∈ placed ps := by
      intro key
      rw [Std.ExtTreeMap.mem_keys, Std.ExtTreeMap.mem_iff_isSome_getElem?, placed, List.mem_map,
        Option.isSome_iff_exists]
      constructor
      · rintro ⟨q, hq⟩
        exact ⟨(key, q), (getElem?_loaded ps key q).mp hq, rfl⟩
      · rintro ⟨⟨key', q⟩, hmem, rfl⟩
        exact ⟨q, (getElem?_loaded ps key' q).mpr hmem⟩
    cases hids : sortedConnectionIDs loaded with
    | nil =>
      have hin := (hkeys k).mpr hplace
      rw [← sortedConnectionIDs, hids] at hin
      cases hin
    | cons first rest =>
      -- the keys are in order
      have hordered : (first :: rest).Pairwise fun a b => compare a b = .lt := by
        rw [← hids]
        exact Std.ExtTreeMap.ordered_keys
      have hfirst : first ∈ placed ps := (hkeys first).mp (by
        rw [← sortedConnectionIDs, hids]
        exact List.mem_cons_self)
      have hk : k = first := by
        have hin := (hkeys k).mpr hplace
        rw [← sortedConnectionIDs, hids] at hin
        rcases List.mem_cons.mp hin with rfl | hin
        · rfl
        · have hlt := Std.compare_eq_lt.mp ((List.pairwise_cons.mp hordered).1 k hin)
          have hle := hleast first hfirst
          omega
      obtain ⟨q, hq⟩ := getElem?_of_mem_keys ((hkeys k).mpr hplace)
      refine ⟨{ q with isDefault := true }, ?_, rfl⟩
      dsimp only
      rw [setDefaultFlag, getElem?_modify, if_pos hk.symm, hq]
      rfl

/-- A list that is not empty has a place for the default. -/
theorem exists_defaultPlace (hne : placed ps ≠ []) : ∃ k, DefaultPlace ps k := by
  cases hfind : ps.find? (·.isDefault) with
  | some p =>
    obtain ⟨hp, before, after, hsplit, hbefore⟩ := List.find?_eq_some_iff_append.mp hfind
    subst hsplit
    exact ⟨_, .flagged before p after rfl hp (fun q hq => by simpa using hbefore q hq) placed_at⟩
  | none =>
    have hnone : ∀ p ∈ ps, p.isDefault = false := fun p hp => by
      simpa using List.find?_eq_none.mp hfind p hp
    obtain ⟨k, hk, hleast⟩ := (placed ps).toFinset.exists_min_image id
      ((List.toFinset_nonempty_iff _).mpr hne)
    exact ⟨k, .smallest hnone (List.mem_toFinset.mp hk) fun other hother =>
      hleast other (List.mem_toFinset.mpr hother)⟩

/-- **One profile is the default**, the one at its place. -/
theorem default_iff_place (h : (buildConnectionState (ps.map some)).1[k]? = some q) :
    q.isDefault = true ↔ DefaultPlace ps k := by
  have hinv := storeInv_buildConnectionState (ps.map some)
  constructor
  · intro hdefault
    have hmem : k ∈ placed ps := (mem_built_iff ps k).mp
      (Std.ExtTreeMap.mem_iff_isSome_getElem?.mpr (by rw [h]; rfl))
    obtain ⟨place, hplace⟩ := exists_defaultPlace (List.ne_nil_of_mem hmem)
    obtain ⟨other, hother, hflag⟩ := default_of_place hplace
    rwa [hinv.default_unique h hdefault hother hflag]
  · intro hplace
    obtain ⟨other, hother, hflag⟩ := default_of_place hplace
    rw [h] at hother
    rwa [Option.some.inj hother]

/-- **A list is repaired** without losing anything exactly if no id that one profile has alone is
given to a profile that is listed before it. -/
theorem repaired_iff (connections : List (Option ConnectionProfile)) :
    Repaired (connections.filterMap id) (buildConnectionState connections) ↔
      OwnFree ((connections.filterMap id).map (·.id)) := by
  set ps := connections.filterMap id with hps
  have hsame : buildConnectionState connections = buildConnectionState (ps.map some) := by
    rw [buildConnectionState, buildConnectionState, ← hps]
    simp [List.filterMap_map]
  rw [hsame, ownFree_iff]
  refine ⟨fun h => h.own, fun hown => ⟨?_, nodup_placed ps, mem_built_iff ps, ?_, hown,
    fun k q h => default_iff_place h, built_again ps⟩⟩
  · rw [placed, List.length_map, length_entries]
  · rintro before p after hsplit
    have hmem := List.mem_of_getElem? (entry_at before p after)
    rw [← hsplit] at hmem
    obtain ⟨isDefault, hbuilt⟩ := built_of_mem hmem
    exact ⟨_, _, hsplit ▸ placed_at, hbuilt, rfl, kept_normalizeLoaded p _ isDefault⟩

/-! ### An id that is given away -/

/-- A profile without an id is listed before the one with the id 1. -/
theorem first_id_given_away :
    ¬ Repaired [{ ConnectionProfile.zero with name := "new" },
      { ConnectionProfile.zero with id := 1, name := "orders" }]
      (buildConnectionState [some { ConnectionProfile.zero with name := "new" },
        some { ConnectionProfile.zero with id := 1, name := "orders" }]) := by
  intro h
  have hplace := h.own [{ ConnectionProfile.zero with name := "new" }]
    { ConnectionProfile.zero with id := 1, name := "orders" } [] rfl (by decide) (by decide)
  rw [placed_eq] at hplace
  exact absurd hplace (by decide)

end

end MqStudio.Connection
