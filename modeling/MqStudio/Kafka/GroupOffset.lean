import MqStudio.Kafka.RecordTail
import MqStudio.Lib.Traverse

/-!
# Resetting a group's offsets

`resolveTargets` of `kafka/group_offset.go`: where each partition of a topic is moved to.

* `resolveOffset`, `clamp`: where a target leads, and how it is kept inside the log.
* `getElem?_resolveTargets`: what is committed for a partition.
* `lands_iff`: every offset lands inside the log exactly if `Sound` holds of what was listed.
-/

namespace MqStudio.Kafka

open Std (ExtTreeMap)
open Lib.Maps Lib.Traverse

/-! ### Requests and answers -/

/-- Where a reset moves a group to. -/
inductive OffsetTarget where
  | earliest
  | latest
  | timestamp
  | offset
  | shift
  | other (name : String)
deriving DecidableEq

structure OffsetResetRequest where
  group : String
  topic : String
  partitions : List Int32
  target : OffsetTarget
  timestamp : Int64
  value : Int64

/-- What the broker answered for a partition the group has committed on. -/
structure OffsetResponse where
  offset : Int
  err : Option String

abbrev OffsetResponses := ExtTreeMap Int32 OffsetResponse compare

/-- A position in a log. -/
def IsOffset (offset : Int) : Prop := 0 ≤ offset ∧ offset < 2 ^ 63

/-- The requests that a reset sends, with their answers for the topic.  An offset that comes without
an error is a position. -/
structure Cluster where
  listStartOffsets : Except String ListedOffsets
  listEndOffsets : Except String ListedOffsets
  listOffsetsAfterMilli : Int64 → Except String ListedOffsets
  fetchOffsets : Except String OffsetResponses
  starts : ∀ offsets, listStartOffsets = .ok offsets → ∀ (partition : Int32) (listed : ListedOffset),
    offsets[partition]? = some listed → listed.err = none → IsOffset listed.offset
  ends : ∀ offsets, listEndOffsets = .ok offsets → ∀ (partition : Int32) (listed : ListedOffset),
    offsets[partition]? = some listed → listed.err = none → IsOffset listed.offset
  committed : ∀ offsets, fetchOffsets = .ok offsets → ∀ (partition : Int32)
    (response : OffsetResponse), offsets[partition]? = some response → response.err = none →
      IsOffset response.offset

/-! ### Where each partition is moved to -/

/-- The sum of two `int64`. -/
def add64 (a b : Int) : Int := (a + b).bmod (2 ^ 64)

/-- Where each target becomes a number. -/
def resolveOffset (request : OffsetResetRequest) (partition : Int32) (start ending : Int)
    (timestamps : ListedOffsets) (committed : OffsetResponses) : Except String Int :=
  match request.target with
  | .earliest => .ok start
  | .latest => .ok ending
  | .offset => .ok request.value.toInt
  | .timestamp =>
    match timestamps[partition]? with
    | none => .ok ending
    | some listed => .ok (if listed.err.isSome ∨ listed.offset < 0 then ending else listed.offset)
  | .shift =>
    let base := match committed[partition]? with
      | none => ending
      | some response => if response.err = none then response.offset else ending
    .ok (add64 base request.value.toInt)
  | .other name => .error ("unknown offset target " ++ name)

/-- Keeps a reset inside the log. -/
def clamp (offset start ending : Int) : Int :=
  if 0 ≤ start ∧ offset < start then start
  else if 0 ≤ ending ∧ ending < offset then ending
  else offset

/-- `none` is for every partition. -/
def partitionSet (partitions : List Int32) : Option (List Int32) :=
  if partitions = [] then none else some partitions

/-- What the broker answered to the requests that the target needs. -/
structure Listings where
  starts : ListedOffsets
  ends : ListedOffsets
  timestamps : ListedOffsets
  committed : OffsetResponses

def Cluster.timestamps (c : Cluster) (request : OffsetResetRequest) : Except String ListedOffsets :=
  if request.target = .timestamp then c.listOffsetsAfterMilli request.timestamp else .ok ∅

def Cluster.committedBy (c : Cluster) (request : OffsetResetRequest) :
    Except String OffsetResponses :=
  if request.target = .shift then c.fetchOffsets else .ok ∅

def Cluster.listings (c : Cluster) (request : OffsetResetRequest) : Except String Listings := do
  let starts ← c.listStartOffsets
  let ends ← c.listEndOffsets
  let timestamps ← c.timestamps request
  let committed ← c.committedBy request
  return ⟨starts, ends, timestamps, committed⟩

/-- What the loop commits for a partition. -/
def targetAt (request : OffsetResetRequest) (l : Listings) (entry : Int32 × ListedOffset) :
    Except String (Int32 × Int) := do
  let start := offsetAt l.starts entry.1
  let target ← resolveOffset request entry.1 start entry.2.offset l.timestamps l.committed
  return (entry.1, clamp target start entry.2.offset)

/-- An offset for each partition. -/
def resolveTargets (c : Cluster) (request : OffsetResetRequest) :
    Except String (ExtTreeMap Int32 Int compare) := do
  let l ← c.listings request
  let wanted := partitionSet request.partitions
  let entries := l.ends.toList.filter fun entry => wanted.all fun wanted => wanted.contains entry.1
  let targets ← entries.mapM (targetAt request l)
  return targets.foldl (fun offsets target => offsets.insert target.1 target.2) ∅

/-! ### What is committed -/

/-- The reset is for the partition. -/
def OffsetResetRequest.Asks (request : OffsetResetRequest) (partition : Int32) : Prop :=
  request.partitions = [] ∨ partition ∈ request.partitions

/-- A target that is one of Kafka's. -/
def OffsetTarget.Known (target : OffsetTarget) : Prop := ∀ name, target ≠ .other name

section

variable {c : Cluster} {request : OffsetResetRequest} {l : Listings} {partition : Int32}

theorem all_partitionSet :
    ((partitionSet request.partitions).all fun wanted => wanted.contains partition) = true ↔
      request.Asks partition := by
  rw [partitionSet, OffsetResetRequest.Asks]
  split
  · simp [*]
  · simp [*]

theorem exists_targetAt (hknown : request.target.Known) (l : Listings)
    (entry : Int32 × ListedOffset) : ∃ v, targetAt request l entry = .ok (entry.1, v) := by
  obtain ⟨target, htarget⟩ : ∃ target, resolveOffset request entry.1 (offsetAt l.starts entry.1)
      entry.2.offset l.timestamps l.committed = .ok target := by
    rw [resolveOffset]
    cases hkind : request.target with
    | other name => exact absurd hkind (hknown name)
    | timestamp => cases l.timestamps[entry.1]? <;> exact ⟨_, rfl⟩
    | earliest | latest | offset | shift => exact ⟨_, rfl⟩
  rw [targetAt, htarget]
  exact ⟨_, rfl⟩

theorem fst_targetAt {entry : Int32 × ListedOffset} {target : Int32 × Int}
    (h : targetAt request l entry = .ok target) : target.1 = entry.1 := by
  obtain ⟨offset, -, hr⟩ := bind_eq_ok.mp h
  exact congrArg Prod.fst (Except.ok.inj hr).symm

theorem exists_resolveTargets (hknown : request.target.Known) (hl : c.listings request = .ok l) :
    ∃ offsets, resolveTargets c request = .ok offsets := by
  have hall : ∀ entry ∈ l.ends.toList.filter fun entry =>
      (partitionSet request.partitions).all fun wanted => wanted.contains entry.1,
      ∃ target, targetAt request l entry = .ok target := fun entry _ =>
    (exists_targetAt hknown l entry).imp' _ fun _ hv => hv
  obtain ⟨targets, htargets⟩ := exists_mapM hall
  exact ⟨_, bind_eq_ok.mpr ⟨l, hl, bind_eq_ok.mpr ⟨targets, htargets, rfl⟩⟩⟩

/-- What is committed for a partition is what its target leads to. -/
theorem getElem?_resolveTargets (hl : c.listings request = .ok l)
    {offsets : ExtTreeMap Int32 Int compare} (h : resolveTargets c request = .ok offsets) {v : Int} :
    offsets[partition]? = some v ↔ ∃ ending, l.ends[partition]? = some ending ∧
      request.Asks partition ∧ targetAt request l (partition, ending) = .ok (partition, v) := by
  obtain ⟨l', hl', h⟩ := bind_eq_ok.mp h
  obtain rfl := Except.ok.inj (hl.symm.trans hl')
  obtain ⟨targets, htargets, h⟩ := bind_eq_ok.mp h
  obtain rfl := Except.ok.inj h
  have hentry : ∀ entry : Int32 × ListedOffset, entry ∈ (l.ends.toList.filter fun entry =>
      (partitionSet request.partitions).all fun wanted => wanted.contains entry.1) ↔
      l.ends[entry.1]? = some entry.2 ∧ request.Asks entry.1 := by
    intro entry
    rw [List.mem_filter, all_partitionSet, ← ExtTreeMap.mem_toList_iff_getElem?_eq_some]
  rw [getElem?_foldl_insert]
  · constructor
    · rintro ⟨target, hmem, rfl, rfl⟩
      obtain ⟨entry, hin, htarget⟩ := exists_of_mem_mapM htargets hmem
      obtain ⟨hend, hasks⟩ := (hentry entry).mp hin
      rw [fst_targetAt htarget]
      refine ⟨entry.2, hend, hasks, ?_⟩
      rw [htarget, ← fst_targetAt htarget]
    · rintro ⟨ending, hend, hasks, htarget⟩
      exact ⟨_, mem_of_mapM htargets ((hentry (partition, ending)).mpr ⟨hend, hasks⟩) htarget, rfl,
        rfl⟩
  · intro a ha b hb hkey
    obtain ⟨entry, hin, htarget⟩ := exists_of_mem_mapM htargets ha
    obtain ⟨entry', hin', htarget'⟩ := exists_of_mem_mapM htargets hb
    have hfst : entry.1 = entry'.1 := by
      rw [← fst_targetAt htarget, hkey, fst_targetAt htarget']
    have hsnd : entry.2 = entry'.2 := by
      have h1 := ((hentry entry).mp hin).1
      have h2 := ((hentry entry').mp hin').1
      rw [hfst, h2] at h1
      exact (Option.some.inj h1).symm
    rw [Prod.ext hfst hsnd, htarget'] at htarget
    exact congrArg Prod.snd (Except.ok.inj htarget).symm

end

/-! ### Inside the log -/

/-- The broker listed a position for the partition. -/
def ListedAt (offsets : ListedOffsets) (partition : Int32) (offset : Int) : Prop :=
  ∃ listed, offsets[partition]? = some listed ∧ listed.err = none ∧ listed.offset = offset

/-- A position, kept in a range. -/
def limit (start ending offset : Int) : Int := max start (min ending offset)

/-- Every offset that is committed is for a partition that was asked for, inside its log, and for a
shift is where the group was, shifted. -/
def Lands (c : Cluster) (request : OffsetResetRequest) : Prop :=
  ∀ l, c.listings request = .ok l → ∀ offsets, resolveTargets c request = .ok offsets →
    ∀ (partition : Int32) (v : Int), offsets[partition]? = some v → request.Asks partition ∧
      ∃ start ending, ListedAt l.starts partition start ∧ ListedAt l.ends partition ending ∧
        start ≤ v ∧ v ≤ ending ∧
          (request.target = .shift → ∀ response, l.committed[partition]? = some response →
            response.err = none ∧ v = limit start ending (response.offset + request.value.toInt))

/-- Every partition that is reset has both its ends listed, in their order, and for a shift the sum
fits, or there is one position only. -/
def Sound (c : Cluster) (request : OffsetResetRequest) : Prop :=
  request.target.Known → ∀ l, c.listings request = .ok l → ∀ (partition : Int32),
    request.Asks partition → l.ends[partition]?.isSome →
      ∃ start ending, ListedAt l.starts partition start ∧ ListedAt l.ends partition ending ∧
        start ≤ ending ∧
          (request.target = .shift → ∀ response, l.committed[partition]? = some response →
            response.err = none ∧
              (response.offset + request.value.toInt < 2 ^ 63 ∨ start = ending))

section

variable {x start ending : Int}

theorem clamp_eq_limit (hs : 0 ≤ start) (he : start ≤ ending) :
    clamp x start ending = limit start ending x := by
  rw [clamp, limit]
  split_ifs <;> omega

/-- A sum that does not fit comes out below zero. -/
theorem add64_cases {a b : Int} (ha : IsOffset a) (hb : -2 ^ 63 ≤ b ∧ b < 2 ^ 63) :
    a + b < 2 ^ 63 ∧ add64 a b = a + b ∨ 2 ^ 63 ≤ a + b ∧ add64 a b < 0 := by
  rw [add64, Int.bmod_def]
  obtain ⟨h0, h1⟩ := ha
  split <;> omega

end

section

variable {c : Cluster} {request : OffsetResetRequest} {l : Listings} {partition : Int32}
  {start ending : Int}

theorem offsetAt_of_listedAt {offsets : ListedOffsets} (h : ListedAt offsets partition start) :
    offsetAt offsets partition = start := by
  obtain ⟨listed, hget, herr, rfl⟩ := h
  rw [offsetAt, hget]
  simp [herr]

variable (partition) in
theorem isOffset_of_listings (hl : c.listings request = .ok l) :
    (∀ start, ListedAt l.starts partition start → IsOffset start) ∧
      (∀ ending, ListedAt l.ends partition ending → IsOffset ending) ∧
        (request.target = .shift → ∀ response, l.committed[partition]? = some response →
          response.err = none → IsOffset response.offset) := by
  obtain ⟨starts, hstarts, hl⟩ := bind_eq_ok.mp hl
  obtain ⟨ends, hends, hl⟩ := bind_eq_ok.mp hl
  obtain ⟨timestamps, -, hl⟩ := bind_eq_ok.mp hl
  obtain ⟨committed, hcommitted, hl⟩ := bind_eq_ok.mp hl
  obtain rfl := Except.ok.inj hl
  refine ⟨?_, ?_, ?_⟩
  · rintro _ ⟨listed, hget, herr, rfl⟩
    exact c.starts starts hstarts partition listed hget herr
  · rintro _ ⟨listed, hget, herr, rfl⟩
    exact c.ends ends hends partition listed hget herr
  · intro hshift response hget herr
    rw [Cluster.committedBy, if_pos hshift] at hcommitted
    exact c.committed committed hcommitted partition response hget herr

/-- What a shift commits for a partition the group has committed on. -/
theorem resolveOffset_shift (hshift : request.target = .shift) {response : OffsetResponse}
    {committed : OffsetResponses} (hget : committed[partition]? = some response)
    (herr : response.err = none) (start ending : Int) (timestamps : ListedOffsets) :
    resolveOffset request partition start ending timestamps committed =
      .ok (add64 response.offset request.value.toInt) := by
  simp only [resolveOffset, hshift, hget, herr, if_true]

theorem value_bounds (value : Int64) : -2 ^ 63 ≤ value.toInt ∧ value.toInt < 2 ^ 63 :=
  ⟨value.le_toInt, value.toInt_lt⟩

theorem targetAt_eq {v : Int} {ending : ListedOffset}
    (h : targetAt request l (partition, ending) = .ok (partition, v)) :
    ∃ target, resolveOffset request partition (offsetAt l.starts partition) ending.offset
      l.timestamps l.committed = .ok target ∧
        v = clamp target (offsetAt l.starts partition) ending.offset := by
  obtain ⟨target, htarget, h⟩ := bind_eq_ok.mp h
  exact ⟨target, htarget, (congrArg Prod.snd (Except.ok.inj h)).symm⟩

/-- A known target is one of a list that is answered. -/
theorem known_of_ok {start ending : Int} {timestamps : ListedOffsets} {committed : OffsetResponses}
    {target : Int} (h : resolveOffset request partition start ending timestamps committed =
      .ok target) : request.target.Known := by
  intro name hname
  rw [resolveOffset, hname] at h
  cases h

theorem lands_of_sound (h : Sound c request) : Lands c request := by
  intro l hl offsets hoffsets partition v hv
  obtain ⟨listed, hend, hasks, htarget⟩ := (getElem?_resolveTargets hl hoffsets).mp hv
  obtain ⟨target, hresolve, rfl⟩ := targetAt_eq htarget
  obtain ⟨start, ending, hstart, hending, hle, hshift⟩ :=
    h (known_of_ok hresolve) l hl partition hasks (by rw [hend]; rfl)
  obtain ⟨hstarts, -, hcommitted⟩ := isOffset_of_listings partition hl
  have hlisted : listed.offset = ending := by
    obtain ⟨listed', hget, -, rfl⟩ := hending
    rw [Option.some.inj (hend.symm.trans hget)]
  rw [hlisted, offsetAt_of_listedAt hstart] at hresolve ⊢
  have h0 := (hstarts start hstart).1
  rw [clamp_eq_limit h0 hle]
  refine ⟨hasks, start, ending, hstart, hending, le_max_left .., ?_, ?_⟩
  · rw [limit]
    omega
  · intro hs response hget
    obtain ⟨herr, hfits⟩ := hshift hs response hget
    refine ⟨herr, ?_⟩
    rw [resolveOffset_shift hs hget herr] at hresolve
    obtain rfl := Except.ok.inj hresolve
    rcases add64_cases (hcommitted hs response hget herr) (value_bounds request.value) with
      ⟨-, hsum⟩ | ⟨hover, -⟩
    · rw [hsum]
    · obtain rfl : start = ending := hfits.resolve_left (by omega)
      simp only [limit]
      omega

theorem sound_of_lands (h : Lands c request) : Sound c request := by
  intro hknown l hl partition hasks hsome
  obtain ⟨listed, hend⟩ := Option.isSome_iff_exists.mp hsome
  obtain ⟨offsets, hoffsets⟩ := exists_resolveTargets hknown hl
  obtain ⟨v, htarget⟩ := exists_targetAt hknown l (partition, listed)
  have hv := (getElem?_resolveTargets hl hoffsets).mpr ⟨listed, hend, hasks, htarget⟩
  obtain ⟨-, start, ending, hstart, hending, hlow, hhigh, hshift⟩ := h l hl offsets hoffsets _ _ hv
  refine ⟨start, ending, hstart, hending, by omega, fun hs response hget => ?_⟩
  obtain ⟨herr, hlimit⟩ := hshift hs response hget
  refine ⟨herr, ?_⟩
  obtain ⟨hstarts, hends, hcommitted⟩ := isOffset_of_listings partition hl
  have hlisted : listed.offset = ending := by
    obtain ⟨listed', hget, -, rfl⟩ := hending
    rw [Option.some.inj (hend.symm.trans hget)]
  obtain ⟨target, hresolve, rfl⟩ := targetAt_eq htarget
  rw [hlisted, offsetAt_of_listedAt hstart] at hresolve hlimit
  rw [resolveOffset_shift hs hget herr] at hresolve
  obtain rfl := Except.ok.inj hresolve
  have h0 := hstarts start hstart
  have h1 := hends ending hending
  rcases add64_cases (hcommitted hs response hget herr) (value_bounds request.value) with
    ⟨hfits, -⟩ | ⟨hover, hneg⟩
  · exact Or.inl hfits
  · -- The sum that came out below zero is put at the start, where the end was meant.
    refine Or.inr ?_
    rw [clamp_eq_limit h0.1 (by omega), limit, limit] at hlimit
    obtain ⟨h0, -⟩ := h0
    obtain ⟨-, h1⟩ := h1
    omega

/-- **Every offset lands inside the log** exactly if every partition that is reset has both its ends
listed, and a shift does not leave the numbers. -/
theorem lands_iff : Lands c request ↔ Sound c request := ⟨sound_of_lands, lands_of_sound⟩

end

/-! ### An end that was not listed -/

/-- Partition 0 has its start at 100, and its leader did not answer for the end. -/
def leaderless : Cluster where
  listStartOffsets := .ok ((∅ : ListedOffsets).insert 0 ⟨100, none⟩)
  listEndOffsets := .ok ((∅ : ListedOffsets).insert 0 ⟨-1, some "NOT_LEADER_FOR_PARTITION"⟩)
  listOffsetsAfterMilli := fun _ => .ok ∅
  fetchOffsets := .ok ∅
  starts := by
    rintro _ ⟨⟩ partition listed hget -
    rw [getElem?_insert] at hget
    split at hget
    · obtain rfl := Option.some.inj hget
      exact ⟨by decide, by decide⟩
    · simp at hget
  ends := by
    rintro _ ⟨⟩ partition listed hget herr
    rw [getElem?_insert] at hget
    split at hget
    · obtain rfl := Option.some.inj hget
      cases herr
    · simp at hget
  committed := by
    rintro _ ⟨⟩ partition response hget
    simp at hget

def toLatest : OffsetResetRequest where
  group := "billing"
  topic := "orders"
  partitions := []
  target := .latest
  timestamp := 0
  value := 0

/-- A reset to the end moves the group to the start. -/
theorem toLatest_replays : ¬ Lands leaderless toLatest := by
  intro h
  obtain ⟨offsets, hoffsets⟩ := @exists_resolveTargets leaderless toLatest _
    (fun _ => nofun) rfl
  have hv := (@getElem?_resolveTargets leaderless toLatest _ 0 rfl offsets hoffsets 100).mpr
    ⟨⟨-1, some "NOT_LEADER_FOR_PARTITION"⟩, by simp, Or.inl rfl, by decide⟩
  obtain ⟨-, start, ending, -, ⟨listed, hget, herr, -⟩, -⟩ := h _ rfl offsets hoffsets 0 100 hv
  rw [getElem?_insert, if_pos rfl] at hget
  obtain rfl := Option.some.inj hget
  cases herr

end MqStudio.Kafka
