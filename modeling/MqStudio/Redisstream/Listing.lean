import MqStudio.Lib.Traverse
import MqStudio.Redisstream.Refs

/-!
# What a listing of streams shows

A SCAN may return a key more than once, and each return counts towards the cap.

* `scanStreams_ok`: a walk that succeeds keeps the first `maxStreams` keys of the replies.
* `names_listDestinations`: the rows are those of them that could be described.
* `streams_listed_iff`: each stream is listed once, and all of them where there are few, exactly if no
  stream comes twice among the first keys and none comes only after them.
-/

namespace MqStudio.Redisstream

open Lib.Traverse

/-! ### Walks -/

/-- The keys of the replies of one server, up to a failure. -/
def keysOf : List (Except String (List String)) → List String
  | [] => []
  | .error _ :: _ => []
  | .ok found :: pages => found ++ keysOf pages

/-- A walk that comes to its end keeps the first keys of the replies. -/
theorem scanNode_ok {pages : List (Except String (List String))} {keys found : List String}
    (h : scanNode keys pages = .ok found) : found = (keys ++ keysOf pages).take maxStreams := by
  induction pages generalizing keys with
  | nil =>
    rw [keysOf, List.append_nil]
    exact (Except.ok.inj h).symm
  | cons page pages ih =>
    cases page with
    | error err => nomatch h
    | ok more =>
      rw [scanNode] at h
      rw [keysOf, ← List.append_assoc]
      split at h
      case isTrue hfull =>
        rw [List.take_append_of_le_length hfull]
        exact (Except.ok.inj h).symm
      case isFalse => exact ih h

/-- A walk that the cap did not stop has seen every reply. -/
theorem ok_of_scanNode {pages : List (Except String (List String))} {keys found : List String}
    (h : scanNode keys pages = .ok found) (hless : (keys ++ keysOf pages).length < maxStreams) :
    ∀ page ∈ pages, ∃ more, page = .ok more := by
  induction pages generalizing keys with
  | nil => nofun
  | cons page pages ih =>
    cases page with
    | error err => nomatch h
    | ok more =>
      rw [keysOf, ← List.append_assoc] at hless
      rw [scanNode] at h
      split at h
      case isTrue hfull =>
        rw [List.length_append] at hless
        omega
      case isFalse => exact List.forall_mem_cons.mpr ⟨⟨more, rfl⟩, ih h hless⟩

/-- A cap on each part is no other than a cap on the whole. -/
theorem take_flatten_map_take {α : Type} (n : ℕ) (l : List (List α)) :
    (l.map (·.take n)).flatten.take n = l.flatten.take n := by
  induction l with
  | nil => rfl
  | cons part l ih =>
    rw [List.map_cons, List.flatten_cons, List.flatten_cons]
    rcases Nat.le_total n part.length with h | h
    · rw [List.take_append_of_le_length (by rw [List.length_take]; omega), List.take_take,
        Nat.min_self, List.take_append_of_le_length h]
    · rw [List.take_of_length_le h, List.take_append, List.take_append]
      -- the rest is cut to what is left of the cap
      have hrest : ∀ k ≤ n, (l.map (·.take n)).flatten.take k = l.flatten.take k := by
        intro k hk
        have := congrArg (List.take k) ih
        rwa [List.take_take, List.take_take, Nat.min_eq_left hk] at this
      rw [hrest _ (Nat.sub_le _ _)]

namespace Keyspace

variable {ks : Keyspace} {keys : List String} {rows : List Destination}

/-- The servers that are walked. -/
def walked (ks : Keyspace) : List (List (Except String (List String))) :=
  if ks.cluster then ks.nodes else ks.nodes.take 1

/-- The keys of the replies, one server after another. -/
def returned (ks : Keyspace) : List String := (ks.walked.map keysOf).flatten

theorem mapM_of_scanStreams (h : ks.scanStreams = .ok keys) :
    ∃ found, ks.walked.mapM (scanNode []) = .ok found ∧ keys = found.flatten.take maxStreams := by
  rw [scanStreams] at h
  split at h
  case h_1 => nomatch h
  case h_2 found hfound => exact ⟨found, hfound, (Except.ok.inj h).symm⟩

/-- **What a walk keeps**: the first keys of the replies. -/
theorem scanStreams_ok (h : ks.scanStreams = .ok keys) : keys = ks.returned.take maxStreams := by
  obtain ⟨found, hfound, rfl⟩ := mapM_of_scanStreams h
  have hparts : List.Forall₂ Eq ((ks.walked.map keysOf).map (·.take maxStreams)) found := by
    rw [List.map_map, List.forall₂_map_left_iff]
    exact (mapM_eq_ok.mp hfound).imp fun _ _ hnode => (scanNode_ok hnode).symm
  rw [List.forall₂_eq_eq_eq] at hparts
  rw [← hparts, take_flatten_map_take, returned]

/-- Where the cap stopped no walk, every reply was seen. -/
theorem ok_of_scanStreams (h : ks.scanStreams = .ok keys)
    (hless : ks.returned.length < maxStreams) :
    ∀ node ∈ ks.walked, ∀ page ∈ node, ∃ more, page = .ok more := by
  intro node hnode
  obtain ⟨found, hfound, _⟩ := mapM_of_scanStreams h
  have hwalks := mapM_eq_ok.mp hfound
  obtain ⟨i, hi, rfl⟩ := List.mem_iff_getElem.mp hnode
  refine ok_of_scanNode (hwalks.get hi (hwalks.length_eq ▸ hi)) ?_
  have hpart : (keysOf ks.walked[i]).length ≤ ks.returned.length :=
    (List.sublist_flatten_of_mem (List.mem_map_of_mem hnode)).length_le
  rw [List.nil_append]
  omega

/-! ### Rows -/

/-- A key that could be described. -/
def described (ks : Keyspace) (key : String) : Bool := (ks.info key).toBool

theorem name_rowOf (id : ℕ) (key : String) : (ks.rowOf id key).map (·.ref.name) =
    if ks.described key then some key else none := by
  rw [rowOf, described]
  rcases ks.info key with err | info
  · rfl
  · rcases ks.memory key with err | bytes <;> rfl

theorem names_rows (ks : Keyspace) (keys : List String) (n : ℕ) :
    ((keys.mapIdx fun i key => ks.rowOf (i + n) key).filterMap id).map (·.ref.name) =
      keys.filter ks.described := by
  induction keys generalizing n with
  | nil => rfl
  | cons key keys ih =>
    have hname : (ks.rowOf (0 + n) key).map (·.ref.name) = _ := name_rowOf (0 + n) key
    have hrest : (fun i key => ks.rowOf (i + 1 + n) key) =
        fun i key => ks.rowOf (i + (1 + n)) key := by
      funext i key
      rw [Nat.add_assoc]
    rw [List.mapIdx_cons, hrest]
    rcases hrow : ks.rowOf (0 + n) key with _ | row
    · rw [hrow] at hname
      rw [List.filterMap_cons_none (by rfl), ih, List.filter_cons_of_neg]
      intro hd
      rw [if_pos hd] at hname
      nomatch hname
    · rw [hrow] at hname
      split at hname
      case isTrue hd =>
        rw [List.filterMap_cons_some (by rfl), List.map_cons, ih, List.filter_cons_of_pos hd]
        exact congrArg (· :: _) (Option.some.inj hname)
      case isFalse => nomatch hname

/-- **The names of the rows**: those of the first keys of the replies that could be described. -/
theorem names_listDestinations (h : ks.listDestinations = .ok rows) :
    (rows.map (·.ref.name)).Perm ((ks.returned.take maxStreams).filter ks.described) := by
  rw [listDestinations] at h
  split at h
  case h_1 => cases h
  case h_2 keys hkeys =>
    dsimp only at h
    split at h
    case h_1 => cases h
    case h_2 =>
      obtain rfl := Except.ok.inj h
      rw [names_rows, ← scanStreams_ok hkeys]
      exact (List.mergeSort_perm keys _).filter _

theorem scanStreams_of_listDestinations (h : ks.listDestinations = .ok rows) :
    ∃ keys, ks.scanStreams = .ok keys := by
  rw [listDestinations] at h
  split at h
  case h_1 => cases h
  case h_2 keys hkeys => exact ⟨keys, hkeys⟩

end Keyspace

/-! ### Listings -/

/-- A keyspace while it is listed: the streams that match at some time, and those that are there all
the time. -/
structure ScannedKeyspace where
  ks : Keyspace
  matching : Finset String
  throughout : Finset String
  /-- A SCAN returns only what matches when it does. -/
  returned : ∀ key ∈ ks.returned, key ∈ matching
  /-- What stays on a server is in the replies of a walk of it that is complete. -/
  complete : ∀ key ∈ throughout, ∃ node ∈ ks.walked,
    (∀ page ∈ node, ∃ more, page = .ok more) → key ∈ keysOf node

/-- Each stream once, and where there are few, all that stayed and could be described. -/
structure ScannedKeyspace.ListsAll (l : ScannedKeyspace) (rows : List Destination) : Prop where
  once : (rows.map (·.ref.name)).Nodup
  all : l.matching.card < maxStreams → ∀ key ∈ l.throughout, l.ks.described key = true →
    key ∈ rows.map (·.ref.name)

/-- Among the first keys of the replies no described stream comes twice, and where there are few
streams, each that stayed and is described comes among them. -/
structure ScannedKeyspace.Unrepeated (l : ScannedKeyspace) : Prop where
  once : ((l.ks.returned.take maxStreams).filter l.ks.described).Nodup
  early : l.matching.card < maxStreams → ∀ key ∈ l.throughout, l.ks.described key = true →
    key ∈ l.ks.returned.take maxStreams

variable {l : ScannedKeyspace} {rows : List Destination}

theorem ScannedKeyspace.listsAll_iff (h : l.ks.listDestinations = .ok rows) :
    l.ListsAll rows ↔ l.Unrepeated := by
  have hnames := Keyspace.names_listDestinations h
  have hmem : ∀ key, l.ks.described key = true →
      (key ∈ rows.map (·.ref.name) ↔ key ∈ l.ks.returned.take maxStreams) := by
    intro key hd
    rw [hnames.mem_iff, List.mem_filter, and_iff_left hd]
  constructor
  · intro hlists
    exact ⟨hnames.nodup_iff.mp hlists.once,
      fun hfew key hkey hd => (hmem key hd).mp (hlists.all hfew key hkey hd)⟩
  · intro hunrepeated
    exact ⟨hnames.nodup_iff.mpr hunrepeated.once,
      fun hfew key hkey hd => (hmem key hd).mpr (hunrepeated.early hfew key hkey hd)⟩

/-- Replies without a repeat: where there are few streams, the cap stops no walk. -/
theorem ScannedKeyspace.unrepeated_of_nodup (h : l.ks.listDestinations = .ok rows)
    (hnodup : l.ks.returned.Nodup) : l.Unrepeated where
  once := (hnodup.sublist (List.take_sublist _ _)).filter _
  early hfew key hkey _ := by
    have hless : l.ks.returned.length < maxStreams := by
      have hsubset : l.ks.returned.toFinset ⊆ l.matching := fun key hkey =>
        l.returned key (List.mem_toFinset.mp hkey)
      have := Finset.card_le_card hsubset
      rw [List.toFinset_card_of_nodup hnodup] at this
      omega
    obtain ⟨keys, hkeys⟩ := Keyspace.scanStreams_of_listDestinations h
    obtain ⟨node, hnode, hcomplete⟩ := l.complete key hkey
    have hin : key ∈ keysOf node := hcomplete (Keyspace.ok_of_scanStreams hkeys hless node hnode)
    rw [List.take_of_length_le hless.le]
    exact List.mem_flatten.mpr ⟨_, List.mem_map_of_mem hnode, hin⟩

/-- **A listing shows each stream once, and all of few**, exactly if no stream that can be described
comes twice among the first keys of the replies, or comes only after them; replies without any
repeat are such. -/
theorem streams_listed_iff (l : ScannedKeyspace) (rows : List Destination)
    (h : l.ks.listDestinations = .ok rows) :
    (l.ListsAll rows ↔ l.Unrepeated) ∧ (l.ks.returned.Nodup → l.Unrepeated) :=
  ⟨ScannedKeyspace.listsAll_iff h, ScannedKeyspace.unrepeated_of_nodup h⟩

/-- A server whose SCAN gives these pages, with a description of every key. -/
def pagesOf (pages : List (List String)) : Keyspace where
  cluster := false
  nodes := [pages.map .ok]
  info _ := .ok ⟨0, 0, "0-0", 0, 1, 2, "", "", "0-0"⟩
  memory _ := .ok 500
  groups _ := some []

/-- Two streams, each in one page. -/
theorem two_pages_listed : ∃ (l : ScannedKeyspace) (rows : List Destination),
    l.ks = pagesOf [["billing"], ["orders"]] ∧ l.throughout = {"orders", "billing"} ∧
      l.ks.listDestinations = .ok rows ∧ l.ListsAll rows := by
  let l : ScannedKeyspace := ⟨pagesOf [["billing"], ["orders"]], {"orders", "billing"},
    {"orders", "billing"}, by decide, fun key hkey => ⟨_, List.mem_singleton_self _,
      fun _ => by
        have : ∀ key ∈ ({"orders", "billing"} : Finset String),
          key ∈ keysOf ([["billing"], ["orders"]].map .ok) := by decide
        exact this key hkey⟩⟩
  have hkeys : l.ks.scanStreams = .ok ["billing", "orders"] := rfl
  have hsort : ["billing", "orders"].mergeSort = ["billing", "orders"] :=
    List.mergeSort_of_pairwise (by decide)
  have hlist : ∃ rows, l.ks.listDestinations = .ok rows := by
    simp only [Keyspace.listDestinations, hkeys, hsort]
    exact ⟨_, rfl⟩
  obtain ⟨rows, hrows⟩ := hlist
  refine ⟨l, rows, rfl, rfl, hrows, ?_⟩
  have hiff := streams_listed_iff l rows hrows
  exact hiff.1.mpr (hiff.2 (by decide))

/-- A SCAN that returns a key twice: the stream is listed twice. -/
theorem repeated_key_listed_twice : ∃ (l : ScannedKeyspace) (rows : List Destination),
    l.ks = pagesOf [["orders"], ["orders"]] ∧ l.ks.listDestinations = .ok rows ∧
      rows.map (·.ref.name) = ["orders", "orders"] ∧ ¬l.ListsAll rows := by
  let l : ScannedKeyspace := ⟨pagesOf [["orders"], ["orders"]], {"orders"}, {"orders"},
    by decide, fun key hkey => ⟨_, List.mem_singleton_self _, fun _ => by
      obtain rfl := Finset.mem_singleton.mp hkey
      decide⟩⟩
  have hkeys : l.ks.scanStreams = .ok ["orders", "orders"] := rfl
  have hsort : ["orders", "orders"].mergeSort = ["orders", "orders"] :=
    List.mergeSort_of_pairwise (by decide)
  have hlist : ∃ first second, l.ks.listDestinations = .ok [first, second] ∧
      first.ref.name = "orders" ∧ second.ref.name = "orders" := by
    simp only [Keyspace.listDestinations, hkeys, hsort]
    exact ⟨_, _, rfl, rfl, rfl⟩
  obtain ⟨first, second, hrows, hfirst, hsecond⟩ := hlist
  have hnames : [first, second].map (·.ref.name) = ["orders", "orders"] := by
    rw [List.map_cons, List.map_singleton, hfirst, hsecond]
  refine ⟨l, _, rfl, hrows, hnames, fun hall => ?_⟩
  have honce := hall.once
  rw [hnames] at honce
  exact absurd honce (by decide)

end MqStudio.Redisstream
