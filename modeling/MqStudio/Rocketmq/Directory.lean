import MqStudio.Lib.Errors
import MqStudio.Lib.Replicas
import MqStudio.Lib.Text

/-!
# Users and access rules of a RocketMQ cluster

`rocketmq/acl_directory.go`: every master keeps users and rules of its own.  A write asks one of the
masters whether it has the name already, and sends the same request, to create or to update, to all
of them.

* `putPrincipal`, `putAccessRule`: the writes.
* `Converges`: a write that every master answers is everywhere afterwards, also as the repetition of
  one that failed.
* `writes_converge_iff`: that is so exactly if every master has the name, or the cluster has one
  master only.
-/

namespace MqStudio.Rocketmq.Directory

open Std (ExtTreeMap)
open Lib.Errors Lib.Maps Lib.Replicas Lib.Text

/-! ### What a master keeps -/

structure UserInfo where
  username : String
  password : String
  userType : String
  userStatus : String
deriving DecidableEq

structure AclPolicy where
  resource : String
  actions : List String
  effect : String
  sourceIPs : List String
deriving DecidableEq

structure AclInfo where
  subject : String
  policies : List AclPolicy
  description : String
deriving DecidableEq

abbrev Entries (α : Type) := ExtTreeMap String α compare

/-- The store of one master. -/
structure AuthStore where
  users : Entries UserInfo
  acls : Entries AclInfo

/-- One of the two tables of a store, and the text of an error in listing it. -/
structure Table (α : Type) where
  listFailed : String
  get : AuthStore → Entries α
  set : AuthStore → Entries α → AuthStore
  get_set : ∀ s entries, get (set s entries) = entries
  set_set : ∀ s entries others, set (set s entries) others = set s others

def userTable : Table UserInfo where
  listFailed := "获取用户列表失败"
  get := AuthStore.users
  set s entries := { s with users := entries }
  get_set _ _ := rfl
  set_set _ _ _ := rfl

def aclTable : Table AclInfo where
  listFailed := "获取授权列表失败"
  get := AuthStore.acls
  set s entries := { s with acls := entries }
  get_set _ _ := rfl
  set_set _ _ _ := rfl

variable {α : Type}

def Table.holds (t : Table α) (name : String) (s : AuthStore) : Bool := (t.get s).contains name

/-- A store with an entry under a name. -/
def Table.put (t : Table α) (name : String) (entry : α) (s : AuthStore) : AuthStore :=
  t.set s ((t.get s).insert name entry)

/-- A request to one master: it does not create a name that it holds, nor update one that it does
not hold. -/
def Table.request (t : Table α) (existing : Bool) (name : String) (entry : α) (s : AuthStore) :
    Except Error AuthStore :=
  if t.holds name s = existing then .ok (t.put name entry s)
  else .error (.external (if existing then "not found" else "already exists"))

/-! ### The writes -/

/-- The masters by their addresses. -/
abbrev Cluster := ExtTreeMap String AuthStore compare

/-- What one call meets outside. -/
structure Meets where
  /-- The master whose listing is read: the first one that a walk over the cluster comes to. -/
  master : String
  clusterErr : Option Error
  listErr : Option Error
  addressesErr : Option Error
  replies : String → Reply Error

/-- `principalExists` and `ruleExists`. -/
def Table.listed (t : Table α) (cluster : Cluster) (master name : String) : Bool :=
  match cluster[master]? with
  | some s => t.holds name s
  | none => false

/-- Create or update is decided on one master's listing; `onEveryMaster` stops at the first
refusal. -/
def Table.write (t : Table α) (cluster : Cluster) (meets : Meets) (name : String) (entry : α) :
    Cluster × Option Error :=
  if cluster.isEmpty then (cluster, some (.new "未找到可用的 Master Broker"))
  else
    match meets.clusterErr, meets.listErr, meets.addressesErr with
    | some err, _, _ => (cluster, some (.wrap "获取集群信息失败" err))
    | none, some err, _ => (cluster, some (.wrap t.listFailed err))
    | none, none, some err => (cluster, some (.wrap "获取集群信息失败" err))
    | none, none, none =>
      let existing := t.listed cluster meets.master name
      let result := onEach (t.request existing name entry) meets.replies cluster.keys cluster
      (result.1, result.2.map fun failure => .wrap failure.1 failure.2)

structure AccessPrincipalSpec where
  name : String
  secret : String
  type : String
  status : String

def AccessPrincipalSpec.user (spec : AccessPrincipalSpec) : UserInfo :=
  ⟨trimSpace spec.name, spec.secret, spec.type, spec.status⟩

def putPrincipal (cluster : Cluster) (meets : Meets) (spec : AccessPrincipalSpec) :
    Cluster × Option Error :=
  if trimSpace spec.name = "" then (cluster, some (.new "用户名不能为空"))
  else userTable.write cluster meets (trimSpace spec.name) spec.user

/-- A policy as it is asked for; the broker's decision on it is not sent. -/
structure AccessPolicy where
  resource : String
  actions : List String
  effect : String
  sourceIPs : List String
  decision : String

structure AccessRule where
  subject : String
  policies : List AccessPolicy
  description : String

def AccessPolicy.sent (policy : AccessPolicy) : AclPolicy :=
  ⟨policy.resource, policy.actions, policy.effect, policy.sourceIPs⟩

def AccessRule.acl (rule : AccessRule) : AclInfo :=
  ⟨trimSpace rule.subject, rule.policies.map AccessPolicy.sent, rule.description⟩

def putAccessRule (cluster : Cluster) (meets : Meets) (rule : AccessRule) :
    Cluster × Option Error :=
  if trimSpace rule.subject = "" then (cluster, some (.new "授权主体不能为空"))
  else aclTable.write cluster meets (trimSpace rule.subject) rule.acl

/-! ### One write -/

variable {t : Table α} {cluster : Cluster} {meets : Meets} {name : String} {entry : α}

/-- Every master answers. -/
structure Meets.Answered (meets : Meets) (cluster : Cluster) : Prop where
  info : meets.clusterErr = none
  list : meets.listErr = none
  addresses : meets.addressesErr = none
  master : cluster ≠ ∅ → meets.master ∈ cluster
  replies : ∀ address, meets.replies address = .answered

/-- The entry is on every master, and nothing else has changed. -/
def Table.everywhere (t : Table α) (cluster : Cluster) (name : String) (entry : α) : Cluster :=
  cluster.map fun _ s => t.put name entry s

/-- Every master holds the name. -/
def Table.HeldByAll (t : Table α) (cluster : Cluster) (name : String) : Prop :=
  ∀ (address : String) s, cluster[address]? = some s → t.holds name s = true

/-- The masters agree on whether they hold the name. -/
def Table.Agree (t : Table α) (cluster : Cluster) (name : String) : Prop :=
  ∀ (address other : String) s s', cluster[address]? = some s → cluster[other]? = some s' →
    t.holds name s = t.holds name s'

theorem holds_put (t : Table α) (name : String) (entry : α) (s : AuthStore) :
    t.holds name (t.put name entry s) = true := by
  rw [Table.holds, Table.put, t.get_set]
  exact ExtTreeMap.contains_insert_self

theorem put_put (t : Table α) (name : String) (entry : α) (s : AuthStore) :
    t.put name entry (t.put name entry s) = t.put name entry s := by
  have hentries : ((t.get s).insert name entry).insert name entry =
      (t.get s).insert name entry := by
    apply ExtTreeMap.ext_getElem?
    intro a
    rw [getElem?_insert, getElem?_insert]
    split <;> rfl
  rw [Table.put, Table.put, t.get_set, t.set_set, hentries]

theorem request_ok {existing : Bool} {s changed : AuthStore}
    (h : t.request existing name entry s = .ok changed) : changed = t.put name entry s := by
  rw [Table.request] at h
  split at h
  · exact (Except.ok.inj h).symm
  · cases h

/-- **Where the masters agree** on the name, the entry is written everywhere. -/
theorem write_of_agree (hne : cluster ≠ ∅) (hanswered : meets.Answered cluster)
    (hagree : t.Agree cluster name) :
    t.write cluster meets name entry = (t.everywhere cluster name entry, none) := by
  have hempty : cluster.isEmpty = false := ExtTreeMap.isEmpty_eq_false_iff.mpr hne
  obtain ⟨chosen, hchosen⟩ := getElem?_of_mem_keys
    (ExtTreeMap.mem_keys.mpr (hanswered.master hne))
  have hlisted : t.listed cluster meets.master name = t.holds name chosen := by
    rw [Table.listed, hchosen]
  have haccept : ∀ address ∈ cluster.keys, ∀ s, cluster[address]? = some s →
      t.request (t.listed cluster meets.master name) name entry s = .ok (t.put name entry s) := by
    intro address _ s hs
    rw [Table.request, if_pos (by rw [hlisted]; exact hagree _ _ _ _ hs hchosen)]
  have hreplies : ∀ address ∈ cluster.keys, meets.replies address = .answered :=
    fun address _ => hanswered.replies address
  have hnodup : cluster.keys.Nodup := ExtTreeMap.nodup_keys
  obtain ⟨hnone, hget⟩ := onEach_accepted hnodup hreplies haccept
  rw [Table.write, hempty, hanswered.info, hanswered.list, hanswered.addresses]
  simp only [Bool.false_eq_true, if_false, hnone, Option.map_none]
  refine Prod.ext ?_ rfl
  apply ExtTreeMap.ext_getElem?
  intro address
  rw [hget, Table.everywhere, ExtTreeMap.getElem?_map]
  split
  · rfl
  · rename_i hkey
    rw [ExtTreeMap.mem_keys, ExtTreeMap.mem_iff_isSome_getElem?] at hkey
    rw [Option.not_isSome_iff_eq_none.mp hkey]
    rfl

/-- Where a master holds the name and another does not, the write that reads the first fails. -/
theorem write_of_split {s s' : AuthStore} {other : String} (hs : cluster[meets.master]? = some s)
    (hother : cluster[other]? = some s') (hsplit : t.holds name s ≠ t.holds name s') :
    (t.write cluster meets name entry).2 ≠ none := by
  have hlisted : t.listed cluster meets.master name = t.holds name s := by
    rw [Table.listed, hs]
  have hkey : other ∈ cluster.keys := by
    rw [ExtTreeMap.mem_keys, ExtTreeMap.mem_iff_isSome_getElem?, hother]
    rfl
  have hrefused : (onEach (t.request (t.listed cluster meets.master name) name entry)
      meets.replies cluster.keys cluster).2 ≠ none := by
    have hrefuse : ∃ err, t.request (t.listed cluster meets.master name) name entry s' =
        .error err := by
      rw [Table.request, if_neg (by rw [hlisted]; exact hsplit.symm)]
      exact ⟨_, rfl⟩
    obtain ⟨err, hrefuse⟩ := hrefuse
    exact onEach_refused ExtTreeMap.nodup_keys hkey hother hrefuse
  rw [Table.write]
  split
  · exact Option.some_ne_none _
  · split
    · exact Option.some_ne_none _
    · exact Option.some_ne_none _
    · exact Option.some_ne_none _
    · simpa using hrefused

/-- Each master is left as it was, or it has the entry. -/
theorem write_place (address : String) :
    (t.write cluster meets name entry).1[address]? = cluster[address]? ∨
      ∃ s, cluster[address]? = some s ∧
        (t.write cluster meets name entry).1[address]? = some (t.put name entry s) := by
  rw [Table.write]
  split
  · exact .inl rfl
  · split
    · exact .inl rfl
    · exact .inl rfl
    · exact .inl rfl
    · have hplace := @onEach_place _ _ _ _ _ _ _
        (t.request (t.listed cluster meets.master name) name entry) meets.replies _ cluster
        cluster.nodup_keys address
      rcases hplace with hsame | ⟨s, changed, hs, hok, hget⟩
      · exact .inl hsame
      · exact .inr ⟨s, hs, hget.trans (by rw [request_ok hok])⟩

/-! ### Writes that are repeated -/

/-- A write that every master answers is everywhere afterwards, and so is the repetition of one that
failed. -/
structure Converges (t : Table α) (cluster : Cluster) (name : String) (entry : α)
    (write : Cluster → Meets → Cluster × Option Error) : Prop where
  settles : ∀ meets : Meets, meets.Answered cluster →
    write cluster meets = (t.everywhere cluster name entry, none)
  repeats : ∀ first again : Meets, (cluster ≠ ∅ → first.master ∈ cluster) →
    (write cluster first).2 ≠ none → again.Answered (write cluster first).1 →
    write (write cluster first).1 again = (t.everywhere cluster name entry, none)

/-- The cluster has a master, and either no other one or the name on every one. -/
def Table.Writable (t : Table α) (cluster : Cluster) (name : String) : Prop :=
  cluster ≠ ∅ ∧ (cluster.size = 1 ∨ t.HeldByAll cluster name)

/-- What a write that may have failed leaves. -/
theorem write_leaves (t : Table α) (cluster : Cluster) (meets : Meets) (name : String) (entry : α)
    (address : String) : ∃ f : AuthStore → AuthStore,
      ((t.write cluster meets name entry).1[address]? = cluster[address]?.map f) ∧
      (∀ s, t.holds name s = true → t.holds name (f s) = true) ∧
      ∀ s, t.put name entry (f s) = t.put name entry s := by
  have hplace : (t.write cluster meets name entry).1[address]? = cluster[address]? ∨ _ :=
    write_place address
  rcases hplace with hsame | ⟨s, hs, hput⟩
  · exact ⟨id, by rw [hsame, Option.map_id_fun, id], fun _ h => h, fun _ => rfl⟩
  · refine ⟨t.put name entry, ?_, fun s _ => holds_put t name entry s, put_put t name entry⟩
    rw [hput, hs]
    rfl

theorem everywhere_write (t : Table α) (cluster : Cluster) (meets : Meets) (name : String)
    (entry : α) : t.everywhere (t.write cluster meets name entry).1 name entry =
      t.everywhere cluster name entry := by
  apply ExtTreeMap.ext_getElem?
  intro address
  obtain ⟨f, hget, -, hput⟩ := write_leaves t cluster meets name entry address
  rw [Table.everywhere, Table.everywhere, ExtTreeMap.getElem?_map, ExtTreeMap.getElem?_map, hget,
    Option.map_map]
  congr 1
  funext s
  exact hput s

theorem mem_write (t : Table α) (cluster : Cluster) (meets : Meets) (name : String) (entry : α)
    (address : String) : address ∈ (t.write cluster meets name entry).1 ↔ address ∈ cluster := by
  obtain ⟨f, hget, -⟩ := write_leaves t cluster meets name entry address
  rw [ExtTreeMap.mem_iff_isSome_getElem?, ExtTreeMap.mem_iff_isSome_getElem?, hget,
    Option.isSome_map]

/-- The one address of a cluster of one master. -/
theorem eq_of_size_one (h : cluster.size = 1) {address other : String} (ha : address ∈ cluster)
    (ho : other ∈ cluster) : address = other := by
  have hlength : cluster.keys.length = 1 := by rw [ExtTreeMap.length_keys, h]
  obtain ⟨key, hkeys⟩ := List.length_eq_one_iff.mp hlength
  rw [← ExtTreeMap.mem_keys, hkeys, List.mem_singleton] at ha ho
  rw [ha, ho]

theorem mem_of_getElem? {address : String} {s : AuthStore} (h : cluster[address]? = some s) :
    address ∈ cluster := by
  rw [ExtTreeMap.mem_iff_isSome_getElem?, h]
  rfl

/-- In a cluster of one master, and in one whose masters all hold the name, the masters agree. -/
theorem Table.Writable.agree (h : t.Writable cluster name) : t.Agree cluster name := by
  intro address other s s' hs hs'
  rcases h.2 with hone | hall
  · obtain rfl := eq_of_size_one hone (mem_of_getElem? hs) (mem_of_getElem? hs')
    rw [Option.some.inj (hs.symm.trans hs')]
  · rw [hall address s hs, hall other s' hs']

/-- A write leaves the cluster writable, whether it succeeds or not. -/
theorem Table.Writable.write (h : t.Writable cluster name) (meets : Meets) (entry : α) :
    t.Writable (t.write cluster meets name entry).1 name := by
  obtain ⟨hne, hcases⟩ := h
  have hkeys : ∀ address, address ∈ (t.write cluster meets name entry).1 ↔ address ∈ cluster :=
    mem_write t cluster meets name entry
  refine ⟨fun hempty => ?_, ?_⟩
  · obtain ⟨address, s, hs⟩ := ne_empty_iff.mp hne
    have hmem := (hkeys address).mpr (mem_of_getElem? hs)
    rw [hempty] at hmem
    exact absurd hmem ExtTreeMap.not_mem_empty
  · rcases hcases with hone | hall
    · left
      have hperm : (t.write cluster meets name entry).1.keys.Perm cluster.keys := by
        rw [List.perm_ext_iff_of_nodup (ExtTreeMap.nodup_keys) (ExtTreeMap.nodup_keys)]
        intro address
        rw [ExtTreeMap.mem_keys, ExtTreeMap.mem_keys]
        exact hkeys address
      have hlength := hperm.length_eq
      rw [ExtTreeMap.length_keys, ExtTreeMap.length_keys] at hlength
      rw [hlength, hone]
    · right
      intro address s hs
      obtain ⟨f, hget, hholds, -⟩ := write_leaves t cluster meets name entry address
      rw [hget] at hs
      obtain ⟨old, hold, rfl⟩ := Option.map_eq_some_iff.mp hs
      exact hholds old (hall address old hold)

/-- **A write to a writable cluster converges.** -/
theorem converges_of_writable (h : t.Writable cluster name) (entry : α) :
    Converges t cluster name entry (fun cluster meets => t.write cluster meets name entry) where
  settles _ hanswered := write_of_agree h.1 hanswered h.agree
  repeats first again _ _ hanswered := by
    have hnext := h.write first entry
    refine (write_of_agree hnext.1 hanswered hnext.agree).trans ?_
    rw [everywhere_write]

/-- A call that every master but one answers. -/
def lostAt (master silent : String) : Meets :=
  ⟨master, none, none, none, fun address =>
    if address = silent then .lost false (.external "timeout") else .answered⟩

def allAnswer (master : String) : Meets := ⟨master, none, none, none, fun _ => .answered⟩

theorem answered_allAnswer {master : String} (h : master ∈ cluster) :
    (allAnswer master).Answered cluster := ⟨rfl, rfl, rfl, fun _ => h, fun _ => rfl⟩


/-- The first two masters of a cluster in which none holds the name: where the second does not
answer, the first is left with the entry. -/
theorem write_lostAt {first second : String} {rest : List String} {s s' : AuthStore}
    (hkeys : cluster.keys = first :: second :: rest) (hfirst : cluster[first]? = some s)
    (hsecond : cluster[second]? = some s') (hholds : t.holds name s = false) :
    (t.write cluster (lostAt first second) name entry).2 ≠ none ∧
      (t.write cluster (lostAt first second) name entry).1 =
        cluster.insert first (t.put name entry s) := by
  have hne : first ≠ second := by
    have hnodup : cluster.keys.Nodup := ExtTreeMap.nodup_keys
    rw [hkeys, List.nodup_cons] at hnodup
    exact fun he => hnodup.1 (he ▸ List.mem_cons_self)
  have hempty : cluster.isEmpty = false := by
    rw [ExtTreeMap.isEmpty_eq_false_iff]
    rintro rfl
    simp at hfirst
  have hlisted : t.listed cluster first name = false := by
    rw [Table.listed, hfirst]
    exact hholds
  have hrequest : t.request false name entry s = .ok (t.put name entry s) := by
    rw [Table.request, if_pos hholds]
  have hnext : (cluster.insert first (t.put name entry s))[second]? = some s' := by
    rw [getElem?_insert, if_neg hne, hsecond]
  have hwalk : onEach (t.request false name entry) (lostAt first second).replies cluster.keys
      cluster = (cluster.insert first (t.put name entry s),
        some (second, .external "timeout")) := by
    rw [hkeys, onEach, hfirst]
    simp only [lostAt, if_neg hne, hrequest]
    rw [onEach, hnext]
    simp
  have hwrite : t.write cluster (lostAt first second) name entry =
      (cluster.insert first (t.put name entry s),
        some (.wrap second (.external "timeout"))) := by
    rw [Table.write, hempty]
    change ((onEach (t.request (t.listed cluster first name) name entry)
      (lostAt first second).replies cluster.keys cluster).1, Option.map _
      (onEach (t.request (t.listed cluster first name) name entry)
      (lostAt first second).replies cluster.keys cluster).2) = _
    rw [hlisted, hwalk]
    rfl
  rw [hwrite]
  exact ⟨Option.some_ne_none _, rfl⟩

/-- A write that converges finds the cluster writable. -/
theorem writable_of_converges
    (h : Converges t cluster name entry (fun cluster meets => t.write cluster meets name entry)) :
    t.Writable cluster name := by
  have hne : cluster ≠ ∅ := by
    rintro rfl
    have hsettles := h.settles (allAnswer "")
      ⟨rfl, rfl, rfl, fun hne => absurd rfl hne, fun _ => rfl⟩
    exact absurd (congrArg Prod.snd hsettles) (by simp [Table.write])
  refine ⟨hne, ?_⟩
  by_contra hcases
  rw [not_or] at hcases
  obtain ⟨hsize, hall⟩ := hcases
  -- all the masters that hold the name make it fail at the one that does not
  have hnone : ∀ (address : String) s, cluster[address]? = some s → t.holds name s = false := by
    simp only [Table.HeldByAll, not_forall] at hall
    obtain ⟨other, s', hother, hlacks⟩ := hall
    intro address s hs
    by_contra hholds
    have hsplit : t.holds name s ≠ t.holds name s' := by
      simp only [Bool.not_eq_true, Bool.not_eq_false] at hlacks hholds
      rw [hholds, hlacks]
      exact Bool.noConfusion
    have hfails : (t.write cluster (allAnswer address) name entry).2 ≠ none :=
      write_of_split hs hother hsplit
    exact hfails (congrArg Prod.snd (h.settles _ (answered_allAnswer (mem_of_getElem? hs))))
  -- and where none does, a create that reaches the first master only cannot be repeated
  have hlength : cluster.keys.length = cluster.size := ExtTreeMap.length_keys
  have hpos : cluster.size ≠ 0 := fun h0 => hne (ExtTreeMap.eq_empty_iff_size_eq_zero.mpr h0)
  match hkeys : cluster.keys with
  | [] => rw [hkeys, List.length_nil] at hlength; omega
  | [_] => rw [hkeys, List.length_singleton] at hlength; omega
  | first :: second :: rest =>
    obtain ⟨s, hs⟩ : ∃ s, cluster[first]? = some s :=
      getElem?_of_mem_keys (by rw [hkeys]; exact List.mem_cons_self)
    obtain ⟨s', hs'⟩ : ∃ s, cluster[second]? = some s :=
      getElem?_of_mem_keys (by rw [hkeys]; exact List.mem_cons_of_mem _ List.mem_cons_self)
    have hdistinct : first ≠ second := by
      have hnodup : cluster.keys.Nodup := ExtTreeMap.nodup_keys
      rw [hkeys, List.nodup_cons] at hnodup
      exact fun he => hnodup.1 (he ▸ List.mem_cons_self)
    obtain ⟨hfailed, hleft⟩ : (t.write cluster (lostAt first second) name entry).2 ≠ none ∧ _ :=
      write_lostAt hkeys hs hs' (hnone first s hs)
    have hfirst : (t.write cluster (lostAt first second) name entry).1[first]? =
        some (t.put name entry s) := by
      rw [hleft, getElem?_insert, if_pos rfl]
    have hsecond : (t.write cluster (lostAt first second) name entry).1[second]? = some s' := by
      rw [hleft, getElem?_insert, if_neg hdistinct, hs']
    have hrepeat := h.repeats (lostAt first second) (allAnswer first)
      (fun _ => mem_of_getElem? hs) hfailed (answered_allAnswer (mem_of_getElem? hfirst))
    have hsplit : t.holds name (t.put name entry s) ≠ t.holds name s' := by
      rw [holds_put, hnone second s' hs']
      exact Bool.noConfusion
    have hfails : (t.write (t.write cluster (lostAt first second) name entry).1 (allAnswer first)
        name entry).2 ≠ none := write_of_split hfirst hsecond hsplit
    exact hfails (congrArg Prod.snd hrepeat)

/-- A write that is always refused does not converge. -/
theorem not_converges_of_refused {write : Cluster → Meets → Cluster × Option Error}
    (h : ∀ cluster meets, (write cluster meets).2 ≠ none) :
    ¬Converges t cluster name entry write := by
  intro hconverges
  by_cases hne : cluster = ∅
  · refine h cluster (allAnswer "") (congrArg Prod.snd (hconverges.settles (allAnswer "") ?_))
    exact ⟨rfl, rfl, rfl, fun hn => absurd hne hn, fun _ => rfl⟩
  · obtain ⟨address, s, hs⟩ := ne_empty_iff.mp hne
    exact h cluster (allAnswer address) (congrArg Prod.snd
      (hconverges.settles _ (answered_allAnswer (mem_of_getElem? hs))))

/-- **A write converges** exactly if its name is not blank, the cluster has a master, and it has no
other one or they all hold the name: a name that has to be created on several masters may get to
some of them only, and a split is refused for ever. -/
theorem writes_converge_iff (cluster : Cluster) (spec : AccessPrincipalSpec) (rule : AccessRule) :
    (Converges userTable cluster (trimSpace spec.name) spec.user
        (fun cluster meets => putPrincipal cluster meets spec) ↔
      trimSpace spec.name ≠ "" ∧ userTable.Writable cluster (trimSpace spec.name)) ∧
    (Converges aclTable cluster (trimSpace rule.subject) rule.acl
        (fun cluster meets => putAccessRule cluster meets rule) ↔
      trimSpace rule.subject ≠ "" ∧ aclTable.Writable cluster (trimSpace rule.subject)) := by
  constructor
  · by_cases hblank : trimSpace spec.name = ""
    · refine iff_of_false (not_converges_of_refused fun _ _ => ?_) fun h => h.1 hblank
      rw [putPrincipal, if_pos hblank]
      exact Option.some_ne_none _
    · simp only [putPrincipal, if_neg hblank]
      exact ⟨fun h => ⟨hblank, writable_of_converges h⟩, fun h => converges_of_writable h.2 _⟩
  · by_cases hblank : trimSpace rule.subject = ""
    · refine iff_of_false (not_converges_of_refused fun _ _ => ?_) fun h => h.1 hblank
      rw [putAccessRule, if_pos hblank]
      exact Option.some_ne_none _
    · simp only [putAccessRule, if_neg hblank]
      exact ⟨fun h => ⟨hblank, writable_of_converges h⟩, fun h => converges_of_writable h.2 _⟩

/-- A user whom the first of two masters has: to whichever of them is asked first, the write is
refused by one. -/
theorem split_never_heals :
    let alice : UserInfo := ⟨"alice", "s3cret", "Normal", "enable"⟩
    let cluster : Cluster := ((∅ : Cluster).insert "10.0.0.1:10911"
      ⟨(∅ : Entries UserInfo).insert "alice" alice, ∅⟩).insert "10.0.0.2:10911" ⟨∅, ∅⟩
    ∀ master ∈ cluster.keys, (putPrincipal cluster (allAnswer master)
      ⟨"alice", "changed", "Normal", "enable"⟩).2 ≠ none := by
  decide

end MqStudio.Rocketmq.Directory
