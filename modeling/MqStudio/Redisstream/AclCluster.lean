import MqStudio.Redisstream.AclSave

/-!
# Redis users of a cluster

`SaveAclUser` and `RemoveAclUser` of `redisstream/acl.go` where each node has users of its own: the
client sends each command to a node that it chooses, and no node passes a change on.

* `Cluster.saveAclUser`, `Cluster.removeAclUser`: a save that reads one node and writes one, and a
  removal from one.
* `SaveRight`, `RemoveRight`: every master has the user that was saved, or none has one that was
  removed.
* `acl_writes_right_iff`: that is so exactly if the other masters have it so already, and the node
  that is written keeps its own passwords.
-/

namespace MqStudio.Redisstream

open Lib.Text

/-- The nodes of a cluster, each with its own users. -/
structure Cluster where
  size : ℕ
  server : Fin size → Server
  master : Fin size → Bool

def Cluster.users (c : Cluster) (node : Fin c.size) : List (String × User) := (c.server node).users

/-! ### The writes -/

/-- The hashes a save sends again, read off the lines of a node. -/
def keptHashes (lines : List String) (spec : AclUserSpec) : List String :=
  if spec.password = "" && !spec.clearPasswords && !spec.noPassword then
    ((aclUser lines (trimSpace spec.name)).map fun user => passwordHashesOf user.rule).getD []
  else []

def Cluster.saveAclUser (digest : String → String) (c : Cluster) (read write : Fin c.size)
    (spec : AclUserSpec) : Except SaveError (Fin c.size → List (String × User)) :=
  let name := trimSpace spec.name
  if name = "" then .error .nameRequired
  else if name.toList.any fun c => c = ' ' ∨ c = '\t' ∨ c = '\r' ∨ c = '\n' then
    .error .nameSpaces
  else
    let hashes := keptHashes (c.server read).aclList spec
    match setUser digest (c.users write) name (buildAclRules spec hashes) with
    | some users => .ok (Function.update c.users write users)
    | none => .error (.setUser name)

inductive RemoveError where
  | nameRequired
  | defaultUser
  | notFound (name : String)

def Cluster.removeAclUser (c : Cluster) (write : Fin c.size) (name : String) :
    Except RemoveError (Fin c.size → List (String × User)) :=
  let user := trimSpace name
  if user = "" then .error .nameRequired
  else if user = "default" then .error .defaultUser
  else if (c.users write).any fun entry => entry.1 = user then
    .ok (Function.update c.users write ((c.users write).filter fun entry => entry.1 ≠ user))
  else .error (.notFound user)

/-- A save that reads and writes one node is the save of that server. -/
theorem saveAclUser_one_node (digest : String → String) (c : Cluster) (node : Fin c.size)
    (spec : AclUserSpec) : c.saveAclUser digest node node spec =
      ((c.server node).saveAclUser digest spec).map (Function.update c.users node) := by
  rw [Cluster.saveAclUser, Server.saveAclUser]
  dsimp only
  split
  · rfl
  split
  · rfl
  rw [← keptHashes, Cluster.users]
  cases setUser digest (c.server node).users (trimSpace spec.name)
    (buildAclRules spec (keptHashes (c.server node).aclList spec)) <;> rfl

/-! ### What the writes should do -/

def userOf (users : List (String × User)) (name : String) : Option User :=
  (users.find? fun entry => entry.1 = name).map (·.2)

/-- The passwords a node has for a user. -/
def passwordsOf (s : Server) (name : String) : List String :=
  ((userOf s.users name).map (·.passwords)).getD []

/-- The user that a form makes, with these passwords where it keeps them. -/
def specUser (digest : String → String) (spec : AclUserSpec) (passwords : List String) :
    Option User :=
  setRules digest .fresh (buildAclRules spec passwords)

/-- Users hold a user that the form makes. -/
def Authorises (digest : String → String) (spec : AclUserSpec) (passwords : List String)
    (users : List (String × User)) : Prop :=
  ∃ u, specUser digest spec passwords = some u ∧ userOf users (trimSpace spec.name) = some u

/-- Every master has the user that was saved, with the passwords it had where they are kept. -/
def SaveRight (digest : String → String) (c : Cluster) (spec : AclUserSpec)
    (after : Fin c.size → List (String × User)) : Prop :=
  ∀ node, c.master node = true →
    Authorises digest spec (passwordsOf (c.server node) (trimSpace spec.name)) (after node)

/-- No master has the user that was removed. -/
def RemoveRight (c : Cluster) (name : String) (after : Fin c.size → List (String × User)) : Prop :=
  ∀ node, c.master node = true → userOf (after node) (trimSpace name) = none

/-- The other masters have the user already as it is saved, and the passwords that are read make
the same of it as those of the node that is written. -/
structure SaveFits (digest : String → String) (c : Cluster) (read write : Fin c.size)
    (spec : AclUserSpec) : Prop where
  others : ∀ node, node ≠ write → c.master node = true →
    Authorises digest spec (passwordsOf (c.server node) (trimSpace spec.name)) (c.users node)
  own : c.master write = true →
    specUser digest spec (keptHashes (c.server read).aclList spec) =
      specUser digest spec (passwordsOf (c.server write) (trimSpace spec.name))

/-- No other master has the user. -/
def RemoveFits (c : Cluster) (write : Fin c.size) (name : String) : Prop :=
  ∀ node, node ≠ write → c.master node = true → userOf (c.users node) (trimSpace name) = none

/-! ### One node -/

section Nodes

variable {digest : String → String} {users users' : List (String × User)} {name : String}
  {rules : List String} {spec : AclUserSpec} {c : Cluster} {read write : Fin c.size}
  {after : Fin c.size → List (String × User)}

/-- A reset leaves nothing of the user that there was. -/
theorem setRules_reset (u : User) (rules : List String) :
    setRules digest u ("reset" :: rules) = setRules digest .fresh ("reset" :: rules) := by
  have hreset : ∀ v : User, setRule digest v "reset" = some .fresh := fun _ => if_pos rfl
  rw [setRules_cons, setRules_cons, hreset, hreset]

theorem buildAclRules_cons (spec : AclUserSpec) (hashes : List String) :
    ∃ rules, buildAclRules spec hashes = "reset" :: rules := ⟨_, rfl⟩

/-- **A save on one node** leaves it with the user of the form. -/
theorem userOf_setUser {hashes : List String}
    (h : setUser digest users name (buildAclRules spec hashes) = some users') :
    ∃ u, specUser digest spec hashes = some u ∧ userOf users' name = some u := by
  obtain ⟨rules, hrules⟩ := buildAclRules_cons spec hashes
  rw [setUser] at h
  rw [specUser, hrules]
  rw [hrules] at h
  split at h
  · rename_i entry hfind
    obtain ⟨u, hu, rfl⟩ := Option.map_eq_some_iff.mp h
    refine ⟨u, (setRules_reset entry.2 rules).symm.trans hu, ?_⟩
    have hname : entry.1 = name := by simpa using List.find?_some hfind
    obtain ⟨-, before, rest, hsplit, hbefore⟩ := List.find?_eq_some_iff_append.mp hfind
    have hkeep : ∀ other ∈ before, ¬other.1 = name := by simpa using hbefore
    rw [userOf, hsplit, List.map_append, List.find?_append]
    have hnone : (before.map fun other => if other.1 = name then (name, u) else other).find?
        (fun other => other.1 = name) = none := by
      rw [List.find?_eq_none]
      intro other hother
      obtain ⟨old, hold, rfl⟩ := List.mem_map.mp hother
      rw [if_neg (hkeep old hold)]
      simpa using hkeep old hold
    rw [hnone, Option.none_or, List.map_cons, if_pos hname, List.find?_cons_of_pos (by simp)]
    rfl
  · rename_i hfind
    obtain ⟨u, hu, rfl⟩ := Option.map_eq_some_iff.mp h
    refine ⟨u, hu, ?_⟩
    rw [userOf, List.find?_append, hfind, Option.none_or, List.find?_cons_of_pos (by simp)]
    rfl

theorem userOf_filter (users : List (String × User)) (name : String) :
    userOf (users.filter fun entry => entry.1 ≠ name) name = none := by
  rw [userOf, Option.map_eq_none_iff, List.find?_eq_none]
  intro entry hentry
  simpa using (List.mem_filter.mp hentry).2

/-! ### The cluster -/

theorem saveAclUser_eq_ok (h : c.saveAclUser digest read write spec = .ok after) :
    ∃ users, setUser digest (c.users write) (trimSpace spec.name)
        (buildAclRules spec (keptHashes (c.server read).aclList spec)) = some users ∧
      after = Function.update c.users write users := by
  rw [Cluster.saveAclUser] at h
  split at h
  · cases h
  split at h
  · cases h
  dsimp only at h
  split at h
  · rename_i users hset
    exact ⟨users, hset, (Except.ok.inj h).symm⟩
  · cases h

theorem removeAclUser_eq_ok {name : String} (h : c.removeAclUser write name = .ok after) :
    after = Function.update c.users write
      ((c.users write).filter fun entry => entry.1 ≠ trimSpace name) := by
  rw [Cluster.removeAclUser] at h
  split at h
  · cases h
  split at h
  · cases h
  split at h
  · exact (Except.ok.inj h).symm
  · cases h

/-- A save is right for the whole cluster exactly if it fits. -/
theorem saved_right_iff (h : c.saveAclUser digest read write spec = .ok after) :
    SaveRight digest c spec after ↔ SaveFits digest c read write spec := by
  obtain ⟨users, hset, rfl⟩ := saveAclUser_eq_ok h
  obtain ⟨u, hspec, huser⟩ := userOf_setUser hset
  constructor
  · intro hright
    refine ⟨fun node hne hmaster => ?_, fun hmaster => ?_⟩
    · have hnode := hright node hmaster
      rwa [Function.update_of_ne hne] at hnode
    · obtain ⟨v, hv, hwritten⟩ := hright write hmaster
      rw [Function.update_self, huser] at hwritten
      rw [hspec, hv, hwritten]
  · intro hfits node hmaster
    by_cases hne : node = write
    · subst hne
      rw [Function.update_self]
      exact ⟨u, (hfits.own hmaster).symm.trans hspec, huser⟩
    · rw [Function.update_of_ne hne]
      exact hfits.others node hne hmaster

/-- A removal is right for the whole cluster exactly if it fits. -/
theorem remove_right_iff {name : String} (h : c.removeAclUser write name = .ok after) :
    RemoveRight c name after ↔ RemoveFits c write name := by
  obtain rfl := removeAclUser_eq_ok h
  constructor
  · intro hright node hne hmaster
    have hnode := hright node hmaster
    rwa [Function.update_of_ne hne] at hnode
  · intro hfits node hmaster
    by_cases hne : node = write
    · subst hne
      rw [Function.update_self]
      exact userOf_filter _ _
    · rw [Function.update_of_ne hne]
      exact hfits node hne hmaster

end Nodes

/-- **A write holds for the whole deployment** exactly if the masters that it does not reach have it
so already, and the node that it reaches keeps its own passwords. -/
theorem acl_writes_right_iff (digest : String → String) (c : Cluster) (read write : Fin c.size) :
    (∀ spec after, c.saveAclUser digest read write spec = .ok after →
      (SaveRight digest c spec after ↔ SaveFits digest c read write spec)) ∧
    ∀ name after, c.removeAclUser write name = .ok after →
      (RemoveRight c name after ↔ RemoveFits c write name) :=
  ⟨fun _ _ h => saved_right_iff h, fun _ _ h => remove_right_iff h⟩

/-! ### Nodes with one user -/

/-- A cluster of masters that all have the same user. -/
def cacheCluster (size : ℕ) : Cluster where
  size := size
  server := fun _ => cacheServer [] (by decide)
  master := fun _ => true

def firstNode (size : ℕ) : Fin (cacheCluster (size + 1)).size := ⟨0, Nat.succ_pos size⟩

/-- The user gets a password. -/
def newPassword : AclUserSpec := ⟨"app", true, "secret", false, false, ["~cache:*"], [], ["+get"]⟩

/-- A save on the one node there is, and a removal from it. -/
theorem one_master_right :
    (∃ after, (cacheCluster 1).saveAclUser id (firstNode 0) (firstNode 0) newPassword = .ok after ∧
      SaveRight id (cacheCluster 1) newPassword after) ∧
    ∃ after, (cacheCluster 1).removeAclUser (firstNode 0) "app" = .ok after ∧
      RemoveRight (cacheCluster 1) "app" after := by
  have honly : ∀ node : Fin 1, node = firstNode 0 := fun node => Subsingleton.elim node _
  have hfits : SaveFits id (cacheCluster 1) (firstNode 0) (firstNode 0) newPassword :=
    ⟨fun node hne => absurd (honly node) hne, fun _ => rfl⟩
  obtain ⟨hsave, hremove⟩ := acl_writes_right_iff id (cacheCluster 1) (firstNode 0) (firstNode 0)
  exact ⟨⟨_, rfl, (hsave _ _ rfl).mpr hfits⟩,
    ⟨_, rfl, (hremove _ _ rfl).mpr fun node hne => absurd (honly node) hne⟩⟩

/-- Of two masters one has the new password and the other one does not, and one has the user that
was removed from the other one. -/
theorem second_master_differs :
    (∃ after, (cacheCluster 2).saveAclUser id (firstNode 1) (firstNode 1) newPassword = .ok after ∧
      ¬SaveRight id (cacheCluster 2) newPassword after) ∧
    ∃ after, (cacheCluster 2).removeAclUser (firstNode 1) "app" = .ok after ∧
      ¬RemoveRight (cacheCluster 2) "app" after := by
  let other : Fin (cacheCluster 2).size := ⟨1, Nat.lt_succ_self 1⟩
  have hother : other ≠ firstNode 1 := by decide
  obtain ⟨saved, hsaved⟩ : ∃ after, (cacheCluster 2).saveAclUser id (firstNode 1) (firstNode 1)
      newPassword = .ok after := ⟨_, rfl⟩
  obtain ⟨removed, hremoved⟩ : ∃ after, (cacheCluster 2).removeAclUser (firstNode 1) "app" =
      .ok after := ⟨_, rfl⟩
  refine ⟨⟨saved, hsaved, fun hright => ?_⟩, ⟨removed, hremoved, fun hright => ?_⟩⟩
  · obtain ⟨u, hspec, huser⟩ := ((saved_right_iff hsaved).mp hright).others other hother rfl
    have hpasswords : (specUser id newPassword []).map (·.passwords) = some ["secret"] := by decide
    have hold : (userOf ((cacheCluster 2).users other) (trimSpace newPassword.name)).map
        (·.passwords) = some [] := by decide
    have hnone : passwordsOf ((cacheCluster 2).server other) (trimSpace newPassword.name) = [] := by
      decide
    rw [hnone] at hspec
    rw [hspec] at hpasswords
    rw [huser] at hold
    exact absurd (hpasswords.symm.trans hold) (by decide)
  · have hgone := (remove_right_iff hremoved).mp hright other hother rfl
    have hthere : (userOf ((cacheCluster 2).users other) (trimSpace "app")).isSome = true := by decide
    rw [hgone] at hthere
    cases hthere


end MqStudio.Redisstream
