import MqStudio.Lib.Traverse
import MqStudio.Lib.Words

/-!
# Access rules

`kafka/acl.go`: how an ACL is shown as a policy, and how a policy is written as an ACL.

* `policyFrom`, `resourceLabel`: one ACL, as the page shows it.
* `builderFor`, `splitResource`: what is created for a policy.
* `splitResource_label`: a label, taken apart again.
* `rebuilt_iff`: which ACLs are created as they were read.
* `shown_iff`: policies stand for their ACLs, and labels for their resources, exactly where every
  ACL is `Plain`.
-/

namespace MqStudio.Kafka.Acl

open Lib.Text Lib.Traverse

/-! ### ACLs -/

/-- `kmsg.ACLResourceType`. -/
inductive ACLResourceType where
  | unknown
  | any
  | topic
  | group
  | cluster
  | transactionalId
  | delegationToken
  | user
deriving DecidableEq

/-- `kadm.ACLPattern`. -/
inductive ACLPattern where
  | unknown
  | any
  | matching
  | literal
  | prefixed
deriving DecidableEq

/-- `kadm.ACLOperation`. -/
inductive ACLOperation where
  | unknown
  | any
  | all
  | read
  | write
  | create
  | delete
  | alter
  | describe
  | clusterAction
  | describeConfigs
  | alterConfigs
  | idempotentWrite
  | createTokens
  | describeTokens
deriving DecidableEq

def ACLOperation.string : ACLOperation → String
  | .unknown => "UNKNOWN"
  | .any => "ANY"
  | .all => "ALL"
  | .read => "READ"
  | .write => "WRITE"
  | .create => "CREATE"
  | .delete => "DELETE"
  | .alter => "ALTER"
  | .describe => "DESCRIBE"
  | .clusterAction => "CLUSTER_ACTION"
  | .describeConfigs => "DESCRIBE_CONFIGS"
  | .alterConfigs => "ALTER_CONFIGS"
  | .idempotentWrite => "IDEMPOTENT_WRITE"
  | .createTokens => "CREATE_TOKENS"
  | .describeTokens => "DESCRIBE_TOKENS"

/-- `kmsg.ACLPermissionType`. -/
inductive ACLPermissionType where
  | unknown
  | any
  | deny
  | allow
deriving DecidableEq

/-- `kadm.DescribedACL`. -/
structure DescribedACL where
  principal : String
  host : String
  type : ACLResourceType
  name : String
  pattern : ACLPattern
  operation : ACLOperation
  permission : ACLPermissionType
deriving DecidableEq

structure AccessPolicy where
  resource : String
  actions : List String
  effect : String
  sourceIPs : List String

/-! ### What is shown -/

def resourceTopic : String := "topic"

def resourceGroup : String := "group"

def resourceCluster : String := "cluster"

def resourceTransaction : String := "transactionalId"

def resourceToken : String := "delegationToken"

def resourceUser : String := "user"

/-- What Kafka stores when a rule applies from anywhere. -/
def anyHost : String := "*"

def resourceKind : ACLResourceType → String
  | .topic => resourceTopic
  | .group => resourceGroup
  | .cluster => resourceCluster
  | .transactionalId => resourceTransaction
  | .delegationToken => resourceToken
  | .user => resourceUser
  | .any => "any"
  | .unknown => "unknown"

/-- Names what a rule is about. -/
def resourceLabel (described : DescribedACL) : String :=
  let kind := resourceKind described.type
  let name := if described.pattern = .prefixed then described.name ++ "*" else described.name
  if kind = resourceCluster then kind else kind ++ ":" ++ name

def effectOf (permission : ACLPermissionType) : String :=
  if permission = .deny then "Deny" else "Allow"

def policyFrom (described : DescribedACL) : AccessPolicy where
  resource := resourceLabel described
  actions := [described.operation.string]
  effect := effectOf described.permission
  sourceIPs := if described.host ≠ "" ∧ described.host ≠ anyHost then [described.host] else []

/-! ### What is created -/

/-- `kadm.ACLBuilder`: what its methods were given. -/
structure ACLBuilder where
  ops : List ACLOperation
  allow : List String
  allowHosts : List String
  deny : List String
  denyHosts : List String
  pattern : ACLPattern
  topics : List String
  groups : List String
  clusters : List String
  transactionalIDs : List String
  delegationTokens : List String

/-- The resources of a builder. -/
def ACLBuilder.resources (b : ACLBuilder) : List (ACLResourceType × String) :=
  b.topics.map (.topic, ·) ++ b.groups.map (.group, ·) ++ b.clusters.map (.cluster, ·) ++
    b.transactionalIDs.map (.transactionalId, ·) ++ b.delegationTokens.map (.delegationToken, ·)

/-- The ACLs that a builder creates: one for every combination. -/
def ACLBuilder.creations (b : ACLBuilder) : List DescribedACL :=
  b.resources.flatMap fun resource => b.ops.flatMap fun operation =>
    (b.allow.flatMap fun principal => b.allowHosts.map fun host =>
      ⟨principal, host, resource.1, resource.2, b.pattern, operation, .allow⟩) ++
    b.deny.flatMap fun principal => b.denyHosts.map fun host =>
      ⟨principal, host, resource.1, resource.2, b.pattern, operation, .deny⟩

/-- A builder that says all that a creation needs. -/
structure ACLBuilder.Complete (b : ACLBuilder) : Prop where
  ops : ∀ operation ∈ b.ops, operation ≠ .unknown ∧ operation ≠ .any
  pattern : b.pattern = .literal ∨ b.pattern = .prefixed
  allow : b.allowHosts ≠ [] → b.allow ≠ []
  deny : b.denyHosts ≠ [] → b.deny ≠ []

/-- `ValidateCreate` of the client library. -/
structure ValidateCreate where
  validate : ACLBuilder → Except String Unit
  complete : ∀ b : ACLBuilder, b.Complete → validate b = .ok ()

/-- The operations a form may ask for. -/
def knownOperations : List (String × ACLOperation) :=
  [("ALL", .all), ("READ", .read), ("WRITE", .write), ("CREATE", .create), ("DELETE", .delete),
    ("ALTER", .alter), ("DESCRIBE", .describe), ("DESCRIBE_CONFIGS", .describeConfigs),
    ("ALTER_CONFIGS", .alterConfigs), ("IDEMPOTENT_WRITE", .idempotentWrite)]

/-- Maps the verbs a form collects onto Kafka's own. -/
def operationsOf (actions : List String) : Except String (List ACLOperation) :=
  if actions = [] then .error "at least one operation is required"
  else actions.mapM fun action =>
    match knownOperations.lookup (toUpper (trimSpace action)) with
    | none => .error ("unknown operation " ++ action)
    | some operation => .ok operation

/-- Reads a label back into its parts. -/
def splitResource (resource : String) : String × String × Bool :=
  let resource := trimSpace resource
  if resource = resourceCluster then (resourceCluster, "kafka-cluster", false)
  else
    match cut ':' resource.toList with
    | none => ("", "", false)
    | some (kind, name) =>
      if name.getLast? = some '*' ∧ 1 < name.length then
        (String.ofList kind, String.ofList name.dropLast, true)
      else (String.ofList kind, String.ofList name, false)

/-- Who and from where, by the effect. -/
def principals (subject : String) (policy : AccessPolicy) (ops : List ACLOperation) : ACLBuilder :=
  let hosts := if policy.sourceIPs = [] then [anyHost] else policy.sourceIPs
  let builder : ACLBuilder := ⟨ops, [], [], [], [], .unknown, [], [], [], [], []⟩
  if equalFold policy.effect "Deny" then { builder with deny := [subject], denyHosts := hosts }
  else { builder with allow := [subject], allowHosts := hosts }

/-- The resource a label names. -/
def onResource (builder : ACLBuilder) (kind name : String) : Except String ACLBuilder :=
  if kind = resourceTopic then .ok { builder with topics := [name] }
  else if kind = resourceGroup then .ok { builder with groups := [name] }
  else if kind = resourceCluster then .ok { builder with clusters := ["kafka-cluster"] }
  else if kind = resourceTransaction then .ok { builder with transactionalIDs := [name] }
  else if kind = resourceToken then .ok { builder with delegationTokens := [name] }
  else .error ("unknown resource " ++ kind)

/-- Turns one policy into the ACL the cluster stores. -/
def builderFor (v : ValidateCreate) (subject : String) (policy : AccessPolicy) :
    Except String ACLBuilder := do
  let ops ← operationsOf policy.actions
  let parts := splitResource policy.resource
  let pattern : ACLPattern := if parts.2.2 then .prefixed else .literal
  let builder ← onResource { principals subject policy ops with pattern } parts.1 parts.2.1
  v.validate builder
  return builder

/-- The ACLs that are created for the policy that is shown for one. -/
def rebuilt (v : ValidateCreate) (described : DescribedACL) : Except String (List DescribedACL) :=
  (builderFor v described.principal (policyFrom described)).map ACLBuilder.creations

/-! ### ACLs that Kafka stores -/

/-- An ACL of one of the five types, with an operation that a form may ask for.  Kafka takes no
empty name, and one name only for the cluster. -/
structure Storable (a : DescribedACL) : Prop where
  type : a.type ≠ .unknown ∧ a.type ≠ .any ∧ a.type ≠ .user
  name : a.name ≠ ""
  cluster : a.type = .cluster → a.name = "kafka-cluster"
  pattern : a.pattern = .literal ∨ a.pattern = .prefixed
  operation : ∃ text, (text, a.operation) ∈ knownOperations
  permission : a.permission = .allow ∨ a.permission = .deny

abbrev StoredACL := { a : DescribedACL // Storable a }

/-- The label of an ACL says all about it. -/
structure Plain (a : DescribedACL) : Prop where
  host : a.host ≠ ""
  cluster : a.type = .cluster → a.pattern = .literal
  blank : a.type ≠ .cluster → a.pattern = .literal →
    ∀ c, a.name.toList.getLast? = some c → isSpace c = false
  star : a.type ≠ .cluster → a.pattern = .literal →
    a.name.toList.getLast? = some '*' → a.name = "*"

/-- What a policy is about. -/
def resource (a : DescribedACL) : ACLResourceType × String × ACLPattern :=
  (a.type, a.name, a.pattern)

/-! ### A label, taken apart -/

section

variable {a : DescribedACL}

theorem resourceKind_eq_cluster {type : ACLResourceType} :
    resourceKind type = resourceCluster ↔ type = .cluster := by
  cases type <;> decide

/-- A kind holds no colon and begins with a letter. -/
theorem resourceKind_spec (type : ACLResourceType) :
    ':' ∉ (resourceKind type).toList ∧ ∃ c cs, (resourceKind type).toList = c :: cs ∧
      isSpace c = false := by
  cases type <;> exact ⟨by decide, _, _, rfl, by decide⟩

/-- What is read from behind the colon. -/
def splitName (name : List Char) : String × Bool :=
  if name.getLast? = some '*' ∧ 1 < name.length then (String.ofList name.dropLast, true)
  else (String.ofList name, false)

theorem splitResource_colon (type : ACLResourceType) (name : String) :
    splitResource (resourceKind type ++ ":" ++ name) =
      (resourceKind type, splitName (name.toList.rdropWhile isSpace)) := by
  obtain ⟨hcolon, c, cs, hkind, hc⟩ := resourceKind_spec type
  have htrim : (trimSpace (resourceKind type ++ ":" ++ name)).toList =
      (resourceKind type).toList ++ ':' :: name.toList.rdropWhile isSpace := by
    have hlist : (resourceKind type ++ ":" ++ name).toList =
        (resourceKind type).toList ++ ':' :: name.toList := by simp [String.toList_append]
    rw [trimSpace, String.toList_ofList, hlist, trim, hkind, List.cons_append,
      List.dropWhile_cons_of_neg (by simp [hc]), ← List.cons_append,
      rdropWhile_append_cons (by decide)]
  have hne : trimSpace (resourceKind type ++ ":" ++ name) ≠ resourceCluster := by
    intro h
    have hmem : ':' ∈ (trimSpace (resourceKind type ++ ":" ++ name)).toList := by
      rw [htrim]
      simp
    rw [h] at hmem
    exact absurd hmem (by decide)
  rw [splitResource, if_neg hne, htrim, cut_append hcolon, splitName]
  simp only [String.ofList_toList]
  split <;> rfl

/-- The name in a label, with the star of a prefixed pattern. -/
def shownName (a : DescribedACL) : String :=
  if a.pattern = .prefixed then a.name ++ "*" else a.name

theorem splitResource_cluster (h : a.type = .cluster) :
    splitResource (resourceLabel a) = (resourceCluster, "kafka-cluster", false) := by
  have hlabel : resourceLabel a = resourceCluster := by
    rw [resourceLabel, h]
    rfl
  rw [hlabel]
  decide

/-- **A label, taken apart again.** -/
theorem splitResource_label (h : a.type ≠ .cluster) :
    splitResource (resourceLabel a) =
      (resourceKind a.type, splitName ((shownName a).toList.rdropWhile isSpace)) := by
  rw [resourceLabel, if_neg (mt resourceKind_eq_cluster.mp h)]
  exact splitResource_colon a.type _

theorem fst_splitResource (a : DescribedACL) :
    (splitResource (resourceLabel a)).1 = resourceKind a.type := by
  by_cases h : a.type = .cluster
  · rw [splitResource_cluster h, h]
    rfl
  · rw [splitResource_label h]

/-! ### What is created for what is shown -/

/-- The pattern type that a label names. -/
def labelPattern (a : DescribedACL) : ACLPattern :=
  if (splitResource (resourceLabel a)).2.2 then .prefixed else .literal

/-- The name that a label names. -/
def labelName (a : DescribedACL) : String := (splitResource (resourceLabel a)).2.1

theorem labelPattern_cases (a : DescribedACL) :
    labelPattern a = .literal ∨ labelPattern a = .prefixed := by
  rw [labelPattern]
  split
  · exact Or.inr rfl
  · exact Or.inl rfl

/-- The ACL that is created. -/
def remade (a : DescribedACL) : DescribedACL :=
  { a with
    host := if a.host = "" then anyHost else a.host
    name := labelName a
    pattern := labelPattern a }

theorem remade_fields (a : DescribedACL) : (remade a).name = labelName a ∧
    (remade a).pattern = labelPattern a ∧
      (remade a).host = if a.host = "" then anyHost else a.host := by
  simp only [remade, and_self]

theorem operationsOf_string {text : String} (h : (text, a.operation) ∈ knownOperations) :
    operationsOf [a.operation.string] = .ok [a.operation] := by
  have hall : ∀ e ∈ knownOperations, operationsOf [e.2.string] = .ok [e.2] := by decide
  exact hall (text, a.operation) h

/-- A builder with its principals, and no resource yet. -/
theorem principals_spec (subject : String) (policy : AccessPolicy) (ops : List ACLOperation)
    (pattern : ACLPattern) :
    { principals subject policy ops with pattern }.resources = [] ∧
      (principals subject policy ops).ops = ops ∧
        ((principals subject policy ops).allowHosts ≠ [] →
          (principals subject policy ops).allow ≠ []) ∧
        ((principals subject policy ops).denyHosts ≠ [] →
          (principals subject policy ops).deny ≠ []) := by
  rw [principals]
  simp only
  split
  · exact ⟨rfl, rfl, fun h => absurd rfl h, fun _ => List.cons_ne_nil _ _⟩
  · exact ⟨rfl, rfl, fun _ => List.cons_ne_nil _ _, fun h => absurd rfl h⟩

/-- One principal, one host, one operation and one resource are one ACL. -/
theorem creations_principals {subject host : String} {policy : AccessPolicy} {op : ACLOperation}
    (hhosts : (if policy.sourceIPs = [] then [anyHost] else policy.sourceIPs) = [host])
    {b : ACLBuilder} (hb : b.allow = (principals subject policy [op]).allow ∧
      b.allowHosts = (principals subject policy [op]).allowHosts ∧
      b.deny = (principals subject policy [op]).deny ∧
      b.denyHosts = (principals subject policy [op]).denyHosts ∧ b.ops = [op])
    {type : ACLResourceType} {name : String} (hresources : b.resources = [(type, name)]) :
    b.creations = [⟨subject, host, type, name, b.pattern, op,
      if equalFold policy.effect "Deny" then .deny else .allow⟩] := by
  obtain ⟨h1, h2, h3, h4, h5⟩ := hb
  rw [ACLBuilder.creations, hresources, h1, h2, h3, h4, h5, principals, hhosts]
  split <;> rfl

/-- What the five resources of a builder are. -/
theorem onResource_eq {type : ACLResourceType} (htype : type ≠ .unknown ∧ type ≠ .any ∧
    type ≠ .user) {name : String} (hname : type = .cluster → name = "kafka-cluster")
    {b : ACLBuilder} (hb : b.resources = []) :
    ∃ b', onResource b (resourceKind type) name = .ok b' ∧ b'.resources = [(type, name)] ∧
      b'.allow = b.allow ∧ b'.allowHosts = b.allowHosts ∧ b'.deny = b.deny ∧
        b'.denyHosts = b.denyHosts ∧ b'.ops = b.ops ∧ b'.pattern = b.pattern := by
  simp only [ACLBuilder.resources, List.append_eq_nil_iff, List.map_eq_nil_iff] at hb
  obtain ⟨⟨⟨⟨h1, h2⟩, h3⟩, h4⟩, h5⟩ := hb
  cases type with
  | unknown => exact absurd rfl htype.1
  | any => exact absurd rfl htype.2.1
  | user => exact absurd rfl htype.2.2
  | cluster =>
    rw [hname rfl]
    exact ⟨{ b with clusters := ["kafka-cluster"] }, rfl, by
      simp [ACLBuilder.resources, h1, h2, h4, h5], rfl, rfl, rfl, rfl, rfl, rfl⟩
  | topic =>
    exact ⟨{ b with topics := [name] }, rfl, by
      simp [ACLBuilder.resources, h2, h3, h4, h5], rfl, rfl, rfl, rfl, rfl, rfl⟩
  | group =>
    exact ⟨{ b with groups := [name] }, rfl, by
      simp [ACLBuilder.resources, h1, h3, h4, h5], rfl, rfl, rfl, rfl, rfl, rfl⟩
  | transactionalId =>
    exact ⟨{ b with transactionalIDs := [name] }, rfl, by
      simp [ACLBuilder.resources, h1, h2, h3, h5], rfl, rfl, rfl, rfl, rfl, rfl⟩
  | delegationToken =>
    exact ⟨{ b with delegationTokens := [name] }, rfl, by
      simp [ACLBuilder.resources, h1, h2, h3, h4], rfl, rfl, rfl, rfl, rfl, rfl⟩

theorem labelName_cluster (h : a.type = .cluster) : labelName a = "kafka-cluster" := by
  rw [labelName, splitResource_cluster h]

theorem known_operation (h : Storable a) : a.operation ≠ .unknown ∧ a.operation ≠ .any := by
  obtain ⟨text, hop⟩ := h.operation
  have hall : ∀ e ∈ knownOperations, e.2 ≠ .unknown ∧ e.2 ≠ .any := by decide
  exact hall (text, a.operation) hop

/-- The policy names one host. -/
theorem hosts_policyFrom (a : DescribedACL) :
    (if (policyFrom a).sourceIPs = [] then [anyHost] else (policyFrom a).sourceIPs) =
      [if a.host = "" then anyHost else a.host] := by
  by_cases hempty : a.host = ""
  · simp [policyFrom, hempty]
  · by_cases hany : a.host = anyHost
    · simp [policyFrom, hany]
    · simp [policyFrom, hempty, hany]

theorem permission_policyFrom (h : Storable a) :
    (if equalFold (policyFrom a).effect "Deny" then ACLPermissionType.deny else .allow) =
      a.permission := by
  have hallow : equalFold "Allow" "Deny" = false := by decide
  have hdeny : equalFold "Deny" "Deny" = true := by decide
  rcases h.permission with hp | hp <;> simp [policyFrom, effectOf, hp, hallow, hdeny]

theorem builderFor_eq (v : ValidateCreate) (h : Storable a) {b : ACLBuilder}
    (hon : onResource { principals a.principal (policyFrom a) [a.operation] with
      pattern := labelPattern a } (resourceKind a.type) (labelName a) = .ok b)
    (hb : b.Complete) : builderFor v a.principal (policyFrom a) = .ok b := by
  obtain ⟨text, hop⟩ := h.operation
  have hactions : (policyFrom a).actions = [a.operation.string] := rfl
  have hlabel : (policyFrom a).resource = resourceLabel a := rfl
  rw [← fst_splitResource, labelPattern, labelName] at hon
  rw [builderFor, hactions, operationsOf_string hop, hlabel]
  generalize splitResource (resourceLabel a) = parts at hon ⊢
  refine bind_eq_ok.mpr ⟨[a.operation], rfl, ?_⟩
  refine bind_eq_ok.mpr ⟨b, hon, ?_⟩
  exact bind_eq_ok.mpr ⟨(), v.complete b hb, rfl⟩

/-- **What is created** for the policy that is shown for an ACL. -/
theorem rebuilt_eq (v : ValidateCreate) (h : Storable a) : rebuilt v a = .ok [remade a] := by
  obtain ⟨hnone, hops, hallowed, hdenied⟩ :=
    principals_spec a.principal (policyFrom a) [a.operation] (labelPattern a)
  obtain ⟨b, hon, hresources, hallow, hallowHosts, hdeny, hdenyHosts, hops', hpattern⟩ :=
    onResource_eq h.type labelName_cluster hnone
  simp only at hallow hallowHosts hdeny hdenyHosts hops' hpattern
  have hcomplete : b.Complete := by
    refine ⟨?_, ?_, ?_, ?_⟩
    · rw [hops', hops]
      exact List.forall_mem_singleton.mpr (known_operation h)
    · rw [hpattern]
      exact labelPattern_cases a
    · rw [hallow, hallowHosts]
      exact hallowed
    · rw [hdeny, hdenyHosts]
      exact hdenied
  have hbuilder := builderFor_eq v h hon hcomplete
  have hcreations := creations_principals (hosts_policyFrom a)
    ⟨hallow, hallowHosts, hdeny, hdenyHosts, hops'.trans hops⟩ hresources
  rw [permission_policyFrom h, hpattern] at hcreations
  rw [rebuilt, hbuilder]
  exact congrArg Except.ok hcreations

/-! ### Which ACLs are created as they were read -/

theorem splitName_star {name : List Char} (h : name ≠ []) :
    splitName (name ++ ['*']) = (String.ofList name, true) := by
  have hlength : 1 < (name ++ ['*']).length := by
    rw [List.length_append, List.length_singleton]
    exact Nat.succ_lt_succ (List.length_pos_iff.mpr h)
  rw [splitName, if_pos ⟨List.getLast?_concat, hlength⟩, List.dropLast_concat]

/-- Without a star at its end, or where it is one, a name is read as it is. -/
theorem splitName_eq {name : List Char} (h : name.getLast? = some '*' → name = ['*']) :
    splitName name = (String.ofList name, false) := by
  rw [splitName, if_neg]
  rintro ⟨hlast, hlength⟩
  rw [h hlast] at hlength
  exact absurd hlength (by decide)

theorem remade_eq_of_plain (h : Storable a) (hplain : Plain a) : remade a = a := by
  have hhost : (if a.host = "" then anyHost else a.host) = a.host := if_neg hplain.host
  suffices hsplit : labelName a = a.name ∧ labelPattern a = a.pattern by
    rw [remade, hhost, hsplit.1, hsplit.2]
  rw [labelName, labelPattern]
  by_cases htype : a.type = .cluster
  · rw [splitResource_cluster htype, hplain.cluster htype, h.cluster htype]
    exact ⟨rfl, rfl⟩
  have hne : a.name.toList ≠ [] := mt String.toList_eq_nil_iff.mp h.name
  rw [splitResource_label htype, shownName]
  rcases h.pattern with hp | hp
  · -- A literal name is not trimmed, and keeps its star.
    have hkeep : a.name.toList.rdropWhile isSpace = a.name.toList := by
      rw [List.rdropWhile_eq_self_iff]
      intro hlast
      have hspace := hplain.blank htype hp _ (List.getLast?_eq_some_getLast hlast)
      simp [hspace]
    have hstar : a.name.toList.getLast? = some '*' → a.name.toList = ['*'] := by
      intro hlast
      rw [hplain.star htype hp hlast]
      rfl
    rw [if_neg (by rw [hp]; decide), hkeep, splitName_eq hstar, hp]
    exact ⟨String.ofList_toList, rfl⟩
  · have hkeep : (a.name ++ "*").toList.rdropWhile isSpace = a.name.toList ++ ['*'] := by
      have hlist : (a.name ++ "*").toList = a.name.toList ++ ['*'] := by
        rw [String.toList_append]
        rfl
      rw [hlist, List.rdropWhile_concat_neg (h := by decide)]
    rw [if_pos hp, hkeep, splitName_star hne, hp]
    exact ⟨String.ofList_toList, rfl⟩

/-- What is read of a name is not longer than the name. -/
theorem length_splitName (name : List Char) : (splitName name).1.toList.length ≤ name.length := by
  rw [splitName]
  split
  · rw [String.toList_ofList, List.length_dropLast]
    exact Nat.sub_le _ _
  · rw [String.toList_ofList]

/-- A literal name that is read as it is loses no blank and no star. -/
theorem kept_of_splitName {name : String}
    (hname : (splitName (name.toList.rdropWhile isSpace)).1 = name)
    (hstar : (splitName (name.toList.rdropWhile isSpace)).2 = false) :
    (∀ c, name.toList.getLast? = some c → isSpace c = false) ∧
      (name.toList.getLast? = some '*' → name = "*") := by
  have hlength := length_splitName (name.toList.rdropWhile isSpace)
  rw [hname] at hlength
  have hkeep : name.toList.rdropWhile isSpace = name.toList :=
    (List.rdropWhile_prefix isSpace name.toList).eq_of_length_le hlength
  rw [hkeep, splitName] at hstar
  refine ⟨?_, ?_⟩
  · intro c hlast
    obtain ⟨front, hfront⟩ := List.getLast?_eq_some_iff.mp hlast
    have hne : name.toList ≠ [] := by simp [hfront]
    have hspace := List.rdropWhile_eq_self_iff.mp hkeep hne
    simp only [hfront, List.getLast_append_singleton] at hspace
    exact Bool.eq_false_iff.mpr hspace
  · intro hlast
    split at hstar
    case isTrue => cases hstar
    case isFalse h =>
      have hle : name.toList.length ≤ 1 := Nat.le_of_not_lt fun hlt => h ⟨hlast, hlt⟩
      rw [← String.toList_inj]
      match hlist : name.toList, hle, hlast with
      | [c], _, hlast => exact congrArg (fun c => [c]) (Option.some.inj hlast)

theorem plain_of_remade_eq (hremade : remade a = a) : Plain a := by
  obtain ⟨hname, hpattern, hhost⟩ := remade_fields a
  rw [hremade, labelName] at hname
  rw [hremade, labelPattern] at hpattern
  rw [hremade] at hhost
  have hkept : a.type ≠ .cluster → a.pattern = .literal →
      (∀ c, a.name.toList.getLast? = some c → isSpace c = false) ∧
        (a.name.toList.getLast? = some '*' → a.name = "*") := by
    intro htype hp
    have hshown : shownName a = a.name := by rw [shownName, hp, if_neg (by decide)]
    rw [splitResource_label htype, hshown] at hname hpattern
    refine kept_of_splitName hname.symm (Bool.eq_false_iff.mpr fun hstar => ?_)
    rw [if_pos hstar, hp] at hpattern
    cases hpattern
  refine ⟨?_, ?_, fun htype hp => (hkept htype hp).1, fun htype hp => (hkept htype hp).2⟩
  · intro hempty
    rw [if_pos hempty, hempty] at hhost
    exact absurd hhost (by decide)
  · intro htype
    rw [splitResource_cluster htype] at hpattern
    exact hpattern

/-- An ACL is created as it was read exactly if its label says all about it. -/
theorem rebuilt_iff (v : ValidateCreate) (h : Storable a) : rebuilt v a = .ok [a] ↔ Plain a := by
  rw [rebuilt_eq v h, Except.ok.injEq, List.singleton_inj]
  exact ⟨plain_of_remade_eq, remade_eq_of_plain h⟩

/-- Of two ACLs that are read back, the labels name the resources. -/
theorem resource_of_label {b : DescribedACL} (ha : remade a = a) (hb : remade b = b)
    (hlabel : resourceLabel a = resourceLabel b) : resource a = resource b := by
  have hkind : resourceKind a.type = resourceKind b.type := by
    rw [← fst_splitResource, hlabel, fst_splitResource]
  have htype : a.type = b.type := by
    revert hkind
    cases a.type <;> cases b.type <;> decide
  have hname : a.name = b.name := by
    rw [← ha, ← hb, (remade_fields a).1, (remade_fields b).1, labelName, hlabel, labelName]
  have hpattern : a.pattern = b.pattern := by
    rw [← ha, ← hb, (remade_fields a).2.1, (remade_fields b).2.1, labelPattern, hlabel,
      labelPattern]
  rw [resource, resource, htype, hname, hpattern]

end

/-- The policies that are shown stand for their ACLs, and the labels for their resources. -/
def ShownExactly (v : ValidateCreate) (acls : List StoredACL) : Prop :=
  (∀ a ∈ acls, rebuilt v a.1 = .ok [a.1]) ∧
    ∀ a ∈ acls, ∀ b ∈ acls, resource a.1 ≠ resource b.1 → resourceLabel a.1 ≠ resourceLabel b.1

/-- **Policies stand for their ACLs, and labels for their resources**, exactly where every ACL is
plain. -/
theorem shown_iff (v : ValidateCreate) (acls : List StoredACL) :
    ShownExactly v acls ↔ ∀ a ∈ acls, Plain a.1 := by
  constructor
  · intro h a ha
    exact (rebuilt_iff v a.2).mp (h.1 a ha)
  · intro h
    refine ⟨fun a ha => (rebuilt_iff v a.2).mpr (h a ha), fun a ha b hb hne hlabel => hne ?_⟩
    exact resource_of_label (remade_eq_of_plain a.2 (h a ha)) (remade_eq_of_plain b.2 (h b hb))
      hlabel

/-! ### A literal name with a star -/

/-- The group `etl*` of a job that reads. -/
def starred : DescribedACL where
  principal := "User:job"
  host := "*"
  type := .group
  name := "etl*"
  pattern := .literal
  operation := .read
  permission := .allow

theorem storable_starred : Storable starred where
  type := by decide
  name := by decide
  cluster := nofun
  pattern := Or.inl rfl
  operation := ⟨"READ", by decide⟩
  permission := Or.inl rfl

def validateAll : ValidateCreate := ⟨fun _ => .ok (), fun _ _ => rfl⟩

/-- The policy that is shown for a literal name is created for every group that begins with it. -/
theorem starred_grants_more : ¬ ShownExactly validateAll [⟨starred, storable_starred⟩] := by
  intro h
  have hrebuilt := h.1 _ List.mem_cons_self
  rw [rebuilt_eq validateAll storable_starred] at hrebuilt
  have hpattern := congrArg DescribedACL.pattern (List.singleton_inj.mp (Except.ok.inj hrebuilt))
  rw [(remade_fields starred).2.1] at hpattern
  exact absurd hpattern (by decide)

end MqStudio.Kafka.Acl
