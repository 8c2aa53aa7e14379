import MqStudio.Lib.Lookup
import MqStudio.Lib.Maps
import MqStudio.Lib.Text

/-!
# Pulsar topics

`pulsar/topic.go` and `pulsar/naming.go`: the page of a namespace's topics, and what the
detail, the breakdown and the delete button do with the ref of a row.

* `Cluster`: a namespace, with what the admin API answers of it.
* `listing_iff`, `detail_iff`, `stats_iff`, `remove_iff`: when each of them is right.
* `page_right_iff`: when the whole page is.
-/

namespace MqStudio.Pulsar

open Std (ExtTreeMap)
open Lib.Maps Lib.Text Lib.Lookup

/-! ### Names -/

structure DestinationRef where
  nameSpace : String
  name : String
  deriving DecidableEq

def persistentScheme : String := "persistent"
def nonPersistentScheme : String := "non-persistent"

def schemeOf (persistent : Bool) : String :=
  if persistent then persistentScheme else nonPersistentScheme

/-- The address the admin API takes. -/
def topicURL (ref : DestinationRef) (persistent : Bool) : String :=
  schemeOf persistent ++ "://" ++ ref.nameSpace ++ "/" ++ ref.name

inductive TopicError where
  | noScheme (raw : String)
  | unknownScheme (raw scheme : String)
  | noNamespace (raw : String)
  | noTopicName (raw : String)
  | badName (err : String)
  | listing (nameSpace : String) (status : Nat)
  | missing (nameSpace name : String)
  | partitionsOf (topic : String) (status : Nat)
  | statsOf (topic : String) (status : Nat)

/-- Splits an address back into a ref. -/
def parseTopicURL (raw : String) : Except TopicError (DestinationRef × Bool) :=
  match cutText "://".toList raw.toList with
  | none => .error (.noScheme raw)
  | some (scheme, rest) =>
    if scheme ≠ persistentScheme.toList ∧ scheme ≠ nonPersistentScheme.toList then
      .error (.unknownScheme raw (String.ofList scheme))
    else match cut '/' rest with
      | none => .error (.noNamespace raw)
      | some (tenant, afterTenant) =>
        match cut '/' afterTenant with
        | none => .error (.noTopicName raw)
        | some (nameSpace, name) =>
          if name = [] then .error (.noTopicName raw)
          else .ok (⟨String.ofList tenant ++ "/" ++ String.ofList nameSpace, String.ofList name⟩,
            decide (scheme = persistentScheme.toList))

/-- Whether the topic is one partition of a partitioned one in the listing. -/
def isPartitionOf (url : String) (parents : List String) : Bool :=
  parents.any fun parent => hasPrefix url (parent ++ "-partition-")

/-- The objects Pulsar keeps for its own bookkeeping. -/
def isInternalTopic (name : String) : Bool :=
  name ∈ ["__change_events", "__transaction_buffer_snapshot", "healthcheck"] ||
    (decide (2 < name.utf8ByteSize) && hasPrefix name "__")

/-! ### Rows -/

/-- A figure that no broker reported. -/
def UnknownMetric : Int := -1

def AttrTopicPersistent : String := "pulsarPersistent"
def AttrTopicStorageBytes : String := "pulsarStorageBytes"
def AttrTopicProducers : String := "pulsarTopicProducers"
def AttrTopicAverageMessageBytes : String := "pulsarAverageMessageBytes"

/-- What the broker reports of a topic or of one partition, with each subscription's backlog. -/
structure TopicStats where
  subscriptions : ExtTreeMap String Int compare
  publishers : Nat
  msgRateIn : ℚ
  msgRateOut : ℚ
  storageSize : Int
  averageMsgSize : ℚ
  lastPublishTimestamp : Int

structure Destination where
  id : Nat
  ref : DestinationRef
  partitions : Int
  subscribers : Int
  depth : Int
  rateIn : Int
  rateOut : Int
  /-- The time in milliseconds, where there is one. -/
  lastUpdated : Option Int
  attributes : ExtTreeMap String String compare

def newDestination (id : Nat) (ref : DestinationRef) (persistent : Bool) : Destination where
  id := id
  ref := ref
  partitions := UnknownMetric
  subscribers := UnknownMetric
  depth := UnknownMetric
  rateIn := UnknownMetric
  rateOut := UnknownMetric
  lastUpdated := none
  attributes := (∅ : ExtTreeMap String String compare).insert AttrTopicPersistent
    (if persistent then "true" else "false")

def isPersistent (destination : Destination) : Bool :=
  destination.attributes[AttrTopicPersistent]? ≠ some "false"

/-- The deepest subscription's backlog. -/
def backlogOf (subscriptions : ExtTreeMap String Int compare) : Int :=
  subscriptions.foldl (fun deepest _ backlog => if backlog > deepest then backlog else deepest) 0

/-- A number of a report as a row shows it. -/
def truncate (q : ℚ) : Int := q.num.tdiv q.den

def applyTopicFigures (destination : Destination) (partitions : Nat) (figures : TopicStats) :
    Destination :=
  { destination with
    partitions := partitions
    subscribers := figures.subscriptions.size
    rateIn := truncate figures.msgRateIn
    rateOut := truncate figures.msgRateOut
    depth := backlogOf figures.subscriptions
    attributes := ((destination.attributes.insert AttrTopicStorageBytes
      (toString figures.storageSize)).insert AttrTopicProducers
        (toString figures.publishers)).insert AttrTopicAverageMessageBytes
          (toString (truncate figures.averageMsgSize))
    lastUpdated := if 0 < figures.lastPublishTimestamp then some figures.lastPublishTimestamp
      else destination.lastUpdated }

/-! ### The cluster -/

/-- A topic on the wire.  Partitions of a partitioned topic are topics of their own. -/
structure Topic where
  persistent : Bool
  name : String
  /-- How many partitions it is divided into; a topic that is not partitioned has 0. -/
  partitions : Nat
  stats : TopicStats
  /-- The figures of each partition, by its address. -/
  parts : ExtTreeMap String TopicStats compare

/-- One namespace.  `getTopicName` is the client's reading of an address, which takes the addresses
of the namespace's topics in either storage as they are. -/
structure Cluster where
  tenant : String
  nameSpace : String
  topics : List Topic
  getTopicName : String → Except String String
  tenant_bare : '/' ∉ tenant.toList
  nameSpace_bare : '/' ∉ nameSpace.toList
  distinct : (topics.map fun topic => (topic.persistent, topic.name)).Nodup
  named : ∀ topic ∈ topics, topic.name ≠ ""
  reads : ∀ topic ∈ topics, ∀ persistent,
    getTopicName (topicURL ⟨tenant ++ "/" ++ nameSpace, topic.name⟩ persistent) =
      .ok (topicURL ⟨tenant ++ "/" ++ nameSpace, topic.name⟩ persistent)

namespace Cluster

variable (c : Cluster)

def scope : String := c.tenant ++ "/" ++ c.nameSpace

/-- The address of a topic of the namespace. -/
def url (topic : Topic) : String := topicURL ⟨c.scope, topic.name⟩ topic.persistent

def find (url : String) : Option Topic := c.topics.find? fun topic => c.url topic = url

def notFound : Nat := 404

/-- The partitioned and the other topics. -/
def list : List String × List String :=
  ((c.topics.filter fun topic => 0 < topic.partitions).map c.url,
    (c.topics.filter fun topic => topic.partitions = 0).map c.url)

def getMetadata (url : String) : Except Nat Nat :=
  match c.find url with
  | some topic => .ok topic.partitions
  | none => .error notFound

/-- Answers for partitioned topics only. -/
def getPartitionedStats (url : String) : Except Nat Topic :=
  match c.find url with
  | some topic => if 0 < topic.partitions then .ok topic else .error notFound
  | none => .error notFound

def getStats (url : String) : Except Nat TopicStats :=
  match c.find url with
  | some topic => .ok topic.stats
  | none => .error notFound

/-! ### The page -/

def applyStats (destination : Destination) : Destination :=
  match c.getTopicName (topicURL destination.ref (isPersistent destination)) with
  | .error _ => destination
  | .ok topic =>
    match c.getPartitionedStats topic with
    | .ok stats => applyTopicFigures destination stats.partitions stats.stats
    | .error status =>
      if status ≠ notFound then destination
      else match c.getStats topic with
        | .error _ => destination
        | .ok plain => applyTopicFigures destination 0 plain

/-- How many rows of a listing are asked about. -/
def listCap : Nat := 500

def enrich (destinations : List Destination) : List Destination :=
  destinations.mapIdx fun i destination =>
    if i < listCap then c.applyStats destination else destination

/-- The row of an address, in its place. -/
def rowOf (id : Nat) (url : String) : Destination :=
  match parseTopicURL url with
  | .ok (ref, persistent) => newDestination id ref persistent
  | .error _ => newDestination id ⟨c.scope, url⟩ false

def listDestinations (includeInternal : Bool) : List Destination :=
  let urls := (c.list.1 ++ c.list.2.filter fun url => !isPartitionOf url c.list.1).mergeSort
  c.enrich ((urls.mapIdx fun i url => c.rowOf (i + 1) url).filter fun row =>
    includeInternal || !isInternalTopic row.ref.name)

/-- Which storage a topic has, asked of the cluster. -/
def topicPersistence (ref : DestinationRef) : Except TopicError Bool :=
  match c.getTopicName (topicURL ref true) with
  | .error err => .error (.badName err)
  | .ok topic =>
    match c.getMetadata topic with
    | .ok _ => .ok true
    | .error _ =>
      match c.getTopicName (topicURL ref false) with
      | .error err => .error (.badName err)
      | .ok topic =>
        match c.getMetadata topic with
        | .ok _ => .ok false
        | .error _ => .error (.missing ref.nameSpace ref.name)

def destinationDetail (ref : DestinationRef) : Except TopicError Destination :=
  match c.topicPersistence ref with
  | .error err => .error err
  | .ok persistent => .ok (c.applyStats (newDestination 1 ref persistent))

/-- The deletion that is sent. -/
structure Deletion where
  topic : String
  force : Bool
  nonPartitioned : Bool
  deriving DecidableEq

def removeDestination (ref : DestinationRef) : Except TopicError Deletion :=
  match c.topicPersistence ref with
  | .error err => .error err
  | .ok persistent =>
    match c.getTopicName (topicURL ref persistent) with
    | .error err => .error (.badName err)
    | .ok topic =>
      match c.getMetadata topic with
      | .error status => .error (.partitionsOf topic status)
      | .ok partitions => .ok ⟨topic, false, decide (partitions = 0)⟩

structure PartitionFigures where
  name : String
  backlog : Int
  storageSize : Int
  msgRateIn : ℚ
  msgRateOut : ℚ
  producers : Nat
  subscriptions : Nat

structure Breakdown where
  partitions : List PartitionFigures
  storageSize : Int
  backlog : Int
  producers : Nat
  subscriptions : Nat
  msgRateIn : ℚ
  msgRateOut : ℚ

/-- The figures of a topic and of its partitions, by name. -/
def breakdownOf (topic : Topic) : Breakdown where
  partitions := topic.parts.toList.map fun (name, partition) =>
    { name := name
      backlog := backlogOf partition.subscriptions
      storageSize := partition.storageSize
      msgRateIn := partition.msgRateIn
      msgRateOut := partition.msgRateOut
      producers := partition.publishers
      subscriptions := partition.subscriptions.size }
  storageSize := topic.stats.storageSize
  backlog := backlogOf topic.stats.subscriptions
  producers := topic.stats.publishers
  subscriptions := topic.stats.subscriptions.size
  msgRateIn := topic.stats.msgRateIn
  msgRateOut := topic.stats.msgRateOut

def destinationStats (ref : DestinationRef) : Except TopicError Breakdown :=
  match c.topicPersistence ref with
  | .error err => .error err
  | .ok persistent =>
    match c.getTopicName (topicURL ref persistent) with
    | .error err => .error (.badName err)
    | .ok topic =>
      match c.getPartitionedStats topic with
      | .error status => .error (.statsOf topic status)
      | .ok stats => .ok (breakdownOf stats)

/-! ### What is right -/

/-- The topic is a numbered partition of a partitioned one. -/
def IsPartition (topic : Topic) : Prop :=
  topic.partitions = 0 ∧ ∃ parent ∈ c.topics, 0 < parent.partitions ∧
    parent.persistent = topic.persistent ∧
    ∃ n : Nat, topic.name = parent.name ++ "-partition-" ++ toString n

/-- The row is the topic's. -/
structure RowOf (topic : Topic) (row : Destination) : Prop where
  ref : row.ref = ⟨c.scope, topic.name⟩
  persistent : isPersistent row = topic.persistent

/-- Every row is a topic's, and every topic but the numbered partitions has exactly one. -/
structure ListingRight : Prop where
  own : ∀ row ∈ c.listDestinations true, ∃ topic ∈ c.topics, c.RowOf topic row
  once : ((c.listDestinations true).map fun row => (row.ref, isPersistent row)).Nodup
  shown : ∀ topic ∈ c.topics,
    (∃ row ∈ c.listDestinations true, c.RowOf topic row) ↔ ¬ c.IsPartition topic

/-- What a ref is used for is about this topic, in its storage and shape. -/
structure ActsOn (topic : Topic) (ref : DestinationRef) : Prop where
  detail : c.destinationDetail ref = .ok (applyTopicFigures
    (newDestination 1 ref topic.persistent) topic.partitions topic.stats)
  stats : c.destinationStats ref = .ok (breakdownOf topic)
  remove : c.removeDestination ref = .ok ⟨c.url topic, false, decide (topic.partitions = 0)⟩

structure PageRight : Prop where
  listing : c.ListingRight
  acts : ∀ row ∈ c.listDestinations true, ∀ topic ∈ c.topics, c.RowOf topic row →
    c.ActsOn topic row.ref

/-- A persistent topic has the name of this one, which is not persistent. -/
def Shadowed (topic : Topic) : Prop :=
  topic.persistent = false ∧ ∃ other ∈ c.topics, other.persistent = true ∧ other.name = topic.name

/-- The name goes on from that of a partitioned topic as a partition's does. -/
def Continues (topic : Topic) : Prop :=
  ∃ parent ∈ c.topics, 0 < parent.partitions ∧ parent.persistent = topic.persistent ∧
    ∃ suffix, topic.name = parent.name ++ "-partition-" ++ suffix

/-! ### Addresses -/

end Cluster

theorem topicURL_eq_append {nameSpace name name' suffix : String} {p q : Bool}
    (h : topicURL ⟨nameSpace, name⟩ p = topicURL ⟨nameSpace, name'⟩ q ++ suffix) :
    p = q ∧ name = name' ++ suffix := by
  have hsame : p = q := by
    have hhead := congrArg (fun url : String => url.toList.head?) h
    cases p <;> cases q <;>
      simp [topicURL, schemeOf, persistentScheme, nonPersistentScheme] at hhead ⊢
  subst hsame
  refine ⟨rfl, ?_⟩
  simp only [topicURL, String.append_assoc] at h
  exact append_left_cancel (append_left_cancel (append_left_cancel (append_left_cancel h)))

theorem topicURL_inj {nameSpace name name' : String} {p q : Bool}
    (h : topicURL ⟨nameSpace, name⟩ p = topicURL ⟨nameSpace, name'⟩ q) : p = q ∧ name = name' := by
  have := @topicURL_eq_append nameSpace name name' "" p q (by simpa using h)
  simpa using this

theorem continues_url {nameSpace name name' : String} {p q : Bool} :
    hasPrefix (topicURL ⟨nameSpace, name⟩ p)
        (topicURL ⟨nameSpace, name'⟩ q ++ "-partition-") = true ↔
      q = p ∧ ∃ suffix, name = name' ++ "-partition-" ++ suffix := by
  rw [hasPrefix_iff]
  constructor
  · rintro ⟨suffix, h⟩
    rw [String.append_assoc] at h
    obtain ⟨hp, hname⟩ := topicURL_eq_append h
    exact ⟨hp.symm, suffix, by rw [hname, String.append_assoc]⟩
  · rintro ⟨rfl, suffix, rfl⟩
    exact ⟨suffix, by simp [topicURL, String.append_assoc]⟩

namespace Cluster

variable {c : Cluster} {topic : Topic}

/-- An address of the namespace reads back. -/
theorem parseTopicURL_topicURL (c : Cluster) {name : String} (hname : name ≠ "")
    (persistent : Bool) :
    parseTopicURL (topicURL ⟨c.scope, name⟩ persistent) = .ok (⟨c.scope, name⟩, persistent) := by
  have hlist : (topicURL ⟨c.scope, name⟩ persistent).toList = (schemeOf persistent).toList ++
      "://".toList ++ (c.tenant.toList ++ '/' :: (c.nameSpace.toList ++ '/' :: name.toList)) := by
    simp [topicURL, scope, String.toList_append]
  have hcolon : ':' ∉ (schemeOf persistent).toList := by cases persistent <;> decide
  have hcut : cutText "://".toList ((schemeOf persistent).toList ++ "://".toList ++
      (c.tenant.toList ++ '/' :: (c.nameSpace.toList ++ '/' :: name.toList))) =
        some ((schemeOf persistent).toList, c.tenant.toList ++ '/' ::
          (c.nameSpace.toList ++ '/' :: name.toList)) :=
    cutText_append hcolon _
  have hnil : name.toList ≠ [] := by simpa using hname
  unfold parseTopicURL
  rw [hlist, hcut]
  simp only [cut_append c.tenant_bare, cut_append c.nameSpace_bare, hnil, if_false,
    String.ofList_toList]
  cases persistent <;> simp [schemeOf, persistentScheme, nonPersistentScheme, scope]

theorem nodup_urls (c : Cluster) : (c.topics.map c.url).Nodup := by
  refine List.pairwise_map.mpr ((List.pairwise_map.mp c.distinct).imp fun {a b} hne he => hne ?_)
  obtain ⟨hp, hn⟩ := topicURL_inj he
  rw [hp, hn]

/-- A topic is found by its address. -/
theorem find_url (h : topic ∈ c.topics) : c.find (c.url topic) = some topic :=
  find?_of_nodup c.nodup_urls h

theorem find_none {name : String} {persistent : Bool}
    (h : ∀ topic ∈ c.topics, topic.persistent = persistent → topic.name ≠ name) :
    c.find (topicURL ⟨c.scope, name⟩ persistent) = none := by
  refine List.find?_eq_none.mpr fun topic ht he => ?_
  obtain ⟨hp, hn⟩ := topicURL_inj (of_decide_eq_true he)
  exact h topic ht hp hn

theorem getTopicName_url (h : topic ∈ c.topics) (persistent : Bool) :
    c.getTopicName (topicURL ⟨c.scope, topic.name⟩ persistent) =
      .ok (topicURL ⟨c.scope, topic.name⟩ persistent) := c.reads topic h persistent

/-! ### One topic -/

theorem isPersistent_newDestination (id : Nat) (ref : DestinationRef) (persistent : Bool) :
    isPersistent (newDestination id ref persistent) = persistent := by
  cases persistent <;> simp [isPersistent, newDestination]

/-- The figures leave the storage as it was. -/
theorem isPersistent_applyTopicFigures (destination : Destination) (partitions : Nat)
    (figures : TopicStats) :
    isPersistent (applyTopicFigures destination partitions figures) = isPersistent destination := by
  have hother : ∀ key ∈ [AttrTopicStorageBytes, AttrTopicProducers, AttrTopicAverageMessageBytes],
      key ≠ AttrTopicPersistent := by decide
  simp only [List.mem_cons, List.not_mem_nil, or_false, forall_eq_or_imp, forall_eq] at hother
  simp [isPersistent, applyTopicFigures, getElem?_insert, hother.1, hother.2.1, hother.2.2]

theorem applyStats_keeps (c : Cluster) (row : Destination) :
    (c.applyStats row).ref = row.ref ∧ isPersistent (c.applyStats row) = isPersistent row := by
  unfold applyStats
  split
  · exact ⟨rfl, rfl⟩
  · split
    · exact ⟨rfl, isPersistent_applyTopicFigures ..⟩
    · split
      · exact ⟨rfl, rfl⟩
      · split
        · exact ⟨rfl, rfl⟩
        · exact ⟨rfl, isPersistent_applyTopicFigures ..⟩

/-- A topic's row gets the topic's figures. -/
theorem applyStats_row (h : topic ∈ c.topics) {row : Destination} (hrow : c.RowOf topic row) :
    c.applyStats row = applyTopicFigures row topic.partitions topic.stats := by
  unfold applyStats
  rw [hrow.ref, hrow.persistent, getTopicName_url h]
  dsimp only
  have hfind : c.find (topicURL ⟨c.scope, topic.name⟩ topic.persistent) = some topic := find_url h
  by_cases hpart : 0 < topic.partitions
  · simp [getPartitionedStats, hfind, hpart]
  · have hzero : topic.partitions = 0 := by omega
    simp [getPartitionedStats, getStats, hfind, hzero]

theorem not_shadowed_of_persistent (h : topic.persistent = true) : ¬ c.Shadowed topic :=
  fun hs => by rw [hs.1] at h; cases h

/-- The storage that is found is the persistent one, if there is one. -/
theorem topicPersistence_eq (h : topic ∈ c.topics) [Decidable (c.Shadowed topic)] :
    c.topicPersistence ⟨c.scope, topic.name⟩ =
      .ok (if c.Shadowed topic then true else topic.persistent) := by
  unfold topicPersistence
  rw [getTopicName_url h, getTopicName_url h]
  dsimp only
  by_cases hs : c.Shadowed topic
  · obtain ⟨-, other, ho, hp, hn⟩ := id hs
    have hfind : c.find (topicURL ⟨c.scope, topic.name⟩ true) = some other := by
      rw [← hp, ← hn]
      exact find_url ho
    simp [getMetadata, hfind, hs]
  · have hown : c.find (topicURL ⟨c.scope, topic.name⟩ topic.persistent) = some topic := find_url h
    cases hp : topic.persistent with
    | true =>
      rw [hp] at hown
      simp [getMetadata, hown]
    | false =>
      rw [hp] at hown
      have hnone : c.find (topicURL ⟨c.scope, topic.name⟩ true) = none :=
        find_none fun other ho hpo hn => hs ⟨hp, other, ho, hpo, hn⟩
      simp [getMetadata, hown, hnone, hs]

/-- **The detail of a topic is its own** exactly if no other storage has its name first. -/
theorem detail_iff (h : topic ∈ c.topics) :
    c.destinationDetail ⟨c.scope, topic.name⟩ = .ok (applyTopicFigures
      (newDestination 1 ⟨c.scope, topic.name⟩ topic.persistent) topic.partitions topic.stats) ↔
      ¬ c.Shadowed topic := by
  classical
  rw [destinationDetail, topicPersistence_eq h]
  constructor
  · intro hd hs
    rw [if_pos hs] at hd
    have hsame := congrArg isPersistent (Except.ok.inj hd)
    rw [(c.applyStats_keeps _).2, isPersistent_applyTopicFigures, isPersistent_newDestination,
      isPersistent_newDestination, hs.1] at hsame
    cases hsame
  · intro hs
    rw [if_neg hs]
    dsimp only
    rw [applyStats_row h ⟨rfl, isPersistent_newDestination ..⟩]

theorem removeDestination_eq (h : topic ∈ c.topics) (hs : ¬ c.Shadowed topic) :
    c.removeDestination ⟨c.scope, topic.name⟩ =
      .ok ⟨c.url topic, false, decide (topic.partitions = 0)⟩ := by
  classical
  have hown : c.find (topicURL ⟨c.scope, topic.name⟩ topic.persistent) = some topic := find_url h
  unfold removeDestination
  rw [topicPersistence_eq h, if_neg hs]
  dsimp only
  rw [getTopicName_url h]
  simp [getMetadata, hown, url]

/-- **The delete button deletes the row's topic** exactly then, too. -/
theorem remove_iff (h : topic ∈ c.topics) :
    c.removeDestination ⟨c.scope, topic.name⟩ =
      .ok ⟨c.url topic, false, decide (topic.partitions = 0)⟩ ↔ ¬ c.Shadowed topic := by
  classical
  refine ⟨fun hr hs => ?_, removeDestination_eq h⟩
  obtain ⟨-, other, ho, hp, hn⟩ := id hs
  have hother : ¬ c.Shadowed other := not_shadowed_of_persistent hp
  have hremove := removeDestination_eq ho hother
  rw [hn, hr] at hremove
  have hurl := congrArg Deletion.topic (Except.ok.inj hremove)
  obtain ⟨hpersistent, -⟩ := topicURL_inj hurl
  rw [hs.1, hp] at hpersistent
  cases hpersistent

/-- **The breakdown is there for partitioned topics only.** -/
theorem stats_iff (h : topic ∈ c.topics) (hs : ¬ c.Shadowed topic) :
    c.destinationStats ⟨c.scope, topic.name⟩ = .ok (breakdownOf topic) ↔ 0 < topic.partitions := by
  classical
  have hown : c.find (topicURL ⟨c.scope, topic.name⟩ topic.persistent) = some topic := find_url h
  unfold destinationStats
  rw [topicPersistence_eq h, if_neg hs]
  dsimp only
  rw [getTopicName_url h]
  by_cases hpart : 0 < topic.partitions
  · simp [getPartitionedStats, hown, hpart]
  · simp [getPartitionedStats, hown, hpart]

/-- **What a ref is used for is about the topic** exactly if it is partitioned and no other storage
has its name first. -/
theorem actsOn_iff (h : topic ∈ c.topics) :
    c.ActsOn topic ⟨c.scope, topic.name⟩ ↔ ¬ c.Shadowed topic ∧ 0 < topic.partitions := by
  constructor
  · rintro ⟨hdetail, hstats, -⟩
    have hs := (detail_iff h).mp hdetail
    exact ⟨hs, (stats_iff h hs).mp hstats⟩
  · rintro ⟨hs, hpart⟩
    exact ⟨(detail_iff h).mpr hs, (stats_iff h hs).mpr hpart, (remove_iff h).mpr hs⟩

/-! ### The listing -/

/-- What tells the rows of a page apart. -/
def key (row : Destination) : DestinationRef × Bool := (row.ref, isPersistent row)

/-- The row a topic should have. -/
def keyOf (c : Cluster) (topic : Topic) : DestinationRef × Bool :=
  (⟨c.scope, topic.name⟩, topic.persistent)

theorem rowOf_iff {row : Destination} : c.RowOf topic row ↔ key row = c.keyOf topic := by
  constructor
  · intro h
    exact Prod.ext h.ref h.persistent
  · intro h
    exact ⟨congrArg Prod.fst h, congrArg Prod.snd h⟩

theorem keyOf_inj {other : Topic} (h : topic ∈ c.topics) (ho : other ∈ c.topics)
    (hkey : c.keyOf topic = c.keyOf other) : topic = other := by
  obtain ⟨href, hp⟩ := Prod.mk.inj hkey
  refine List.inj_on_of_nodup_map c.distinct h ho (Prod.ext hp ?_)
  exact congrArg DestinationRef.name href

theorem key_rowOf (h : topic ∈ c.topics) (id : Nat) :
    key (c.rowOf id (c.url topic)) = c.keyOf topic := by
  unfold rowOf url
  rw [parseTopicURL_topicURL c (c.named topic h)]
  exact Prod.ext rfl (isPersistent_newDestination ..)

theorem key_rowOf_id (c : Cluster) (id : Nat) (url : String) :
    key (c.rowOf id url) = key (c.rowOf 0 url) := by
  unfold rowOf
  cases parseTopicURL url <;> rfl

/-- The topics whose addresses are listed. -/
def listed (c : Cluster) : List Topic :=
  (c.topics.filter fun topic => 0 < topic.partitions) ++
    (c.topics.filter fun topic => topic.partitions = 0).filter fun topic =>
      !isPartitionOf (c.url topic) c.list.1

theorem isPartitionOf_iff (c : Cluster) (topic : Topic) :
    isPartitionOf (c.url topic) c.list.1 = true ↔ c.Continues topic := by
  simp only [isPartitionOf, list, List.any_map, List.any_eq_true, List.mem_filter, Continues,
    decide_eq_true_eq, Function.comp_apply, url, continues_url, and_assoc]

theorem mem_listed : topic ∈ c.listed ↔
    topic ∈ c.topics ∧ (0 < topic.partitions ∨ ¬ c.Continues topic) := by
  rw [listed, List.mem_append, List.mem_filter, List.mem_filter, List.mem_filter,
    Bool.not_eq_true', ← Bool.not_eq_true, isPartitionOf_iff]
  simp only [decide_eq_true_eq]
  constructor
  · rintro (⟨h, hpart⟩ | ⟨⟨h, -⟩, hcont⟩)
    · exact ⟨h, Or.inl hpart⟩
    · exact ⟨h, Or.inr hcont⟩
  · rintro ⟨h, hor⟩
    by_cases hpart : 0 < topic.partitions
    · exact Or.inl ⟨h, hpart⟩
    · exact Or.inr ⟨⟨h, by omega⟩, hor.resolve_left hpart⟩

theorem nodup_listed (c : Cluster) : c.listed.Nodup := by
  have hnodup : c.topics.Nodup := c.distinct.of_map
  refine List.Nodup.append (hnodup.filter _) ((hnodup.filter _).filter _) ?_
  intro topic h h'
  have hpart := of_decide_eq_true (List.mem_filter.mp h).2
  have hzero := of_decide_eq_true (List.mem_filter.mp (List.mem_filter.mp h').1).2
  omega

/-- The rows of a page are those of the topics that are listed. -/
theorem keys_perm (c : Cluster) :
    ((c.listDestinations true).map key).Perm (c.listed.map c.keyOf) := by
  have henrich : ∀ rows : List Destination, (c.enrich rows).map key = rows.map key := by
    intro rows
    refine List.ext_getElem (by simp [enrich]) fun i hi hi' => ?_
    simp only [enrich, List.getElem_map, List.getElem_mapIdx]
    split
    · exact Prod.ext (c.applyStats_keeps _).1 (c.applyStats_keeps _).2
    · rfl
  have hurls : c.list.1 ++ c.list.2.filter (fun url => !isPartitionOf url c.list.1) =
      c.listed.map c.url := by
    simp only [list, listed, List.map_append, List.filter_map]
    rfl
  have hrows : ∀ urls : List String,
      ((urls.mapIdx fun i url => c.rowOf (i + 1) url).map key) =
        urls.map fun url => key (c.rowOf 0 url) := by
    intro urls
    refine List.ext_getElem (by simp) fun i hi hi' => ?_
    simp only [List.getElem_map, List.getElem_mapIdx]
    exact key_rowOf_id ..
  have hkeys : c.listed.map c.keyOf = (c.listed.map c.url).map fun url => key (c.rowOf 0 url) := by
    rw [List.map_map]
    refine List.map_congr_left fun topic h => ?_
    exact (key_rowOf (mem_listed.mp h).1 0).symm
  unfold listDestinations
  simp only [Bool.true_or, List.filter_true, henrich, hrows, hurls, hkeys]
  exact (List.mergeSort_perm _ _).map _

theorem row_iff (h : topic ∈ c.topics) :
    (∃ row ∈ c.listDestinations true, c.RowOf topic row) ↔ topic ∈ c.listed := by
  constructor
  · rintro ⟨row, hrow, hof⟩
    have hmem : c.keyOf topic ∈ c.listed.map c.keyOf := by
      rw [← c.keys_perm.mem_iff, ← rowOf_iff.mp hof]
      exact List.mem_map_of_mem hrow
    obtain ⟨other, ho, hkey⟩ := List.mem_map.mp hmem
    rwa [keyOf_inj h (mem_listed.mp ho).1 hkey.symm]
  · intro hl
    have hmem : c.keyOf topic ∈ (c.listDestinations true).map key :=
      c.keys_perm.mem_iff.mpr (List.mem_map_of_mem hl)
    obtain ⟨row, hrow, hkey⟩ := List.mem_map.mp hmem
    exact ⟨row, hrow, rowOf_iff.mpr hkey⟩

theorem continues_of_isPartition (h : c.IsPartition topic) : c.Continues topic := by
  obtain ⟨-, parent, hp, hpart, hstorage, n, hname⟩ := h
  exact ⟨parent, hp, hpart, hstorage, toString n, hname⟩

/-- **Every topic has its one row** exactly if what goes on from a partitioned topic's name is
numbered. -/
theorem listing_iff (c : Cluster) : c.ListingRight ↔
    ∀ topic ∈ c.topics, topic.partitions = 0 → c.Continues topic → c.IsPartition topic := by
  constructor
  · intro h topic ht hzero hcont
    by_contra hn
    have hl := (row_iff ht).mp ((h.shown topic ht).mpr hn)
    rcases (mem_listed.mp hl).2 with hpart | hnot
    · omega
    · exact hnot hcont
  · intro h
    refine ⟨fun row hrow => ?_, ?_, fun topic ht => ?_⟩
    · have hmem := c.keys_perm.mem_iff.mp (List.mem_map_of_mem (f := key) hrow)
      obtain ⟨topic, hl, hkey⟩ := List.mem_map.mp hmem
      exact ⟨topic, (mem_listed.mp hl).1, rowOf_iff.mpr hkey.symm⟩
    · refine c.keys_perm.nodup_iff.mpr (c.nodup_listed.map_on fun topic ht other ho hkey => ?_)
      exact keyOf_inj (mem_listed.mp ht).1 (mem_listed.mp ho).1 hkey
    · rw [row_iff ht, mem_listed]
      constructor
      · rintro ⟨-, hpart | hnot⟩ hp
        · have := hp.1
          omega
        · exact hnot (continues_of_isPartition hp)
      · intro hn
        refine ⟨ht, ?_⟩
        by_cases hpart : 0 < topic.partitions
        · exact Or.inl hpart
        · exact Or.inr fun hcont => hn (h topic ht (by omega) hcont)

/-- **The page lists every topic once and acts on the row it shows** exactly if every topic is
partitioned, or a numbered partition of one, and no partitioned one has the name of a persistent
topic without being it. -/
theorem page_right_iff (c : Cluster) : c.PageRight ↔
    ∀ topic ∈ c.topics, c.IsPartition topic ∨ 0 < topic.partitions ∧ ¬ c.Shadowed topic := by
  constructor
  · intro h topic ht
    by_cases hp : c.IsPartition topic
    · exact Or.inl hp
    · obtain ⟨row, hrow, hof⟩ := (h.listing.shown topic ht).mpr hp
      have hacts := h.acts row hrow topic ht hof
      rw [hof.ref, actsOn_iff ht] at hacts
      exact Or.inr ⟨hacts.2, hacts.1⟩
  · intro h
    have hlisting : c.ListingRight := (listing_iff c).mpr fun topic ht hzero _ => by
      rcases h topic ht with hp | ⟨hpart, -⟩
      · exact hp
      · omega
    refine ⟨hlisting, fun row hrow topic ht hof => ?_⟩
    have hn := (hlisting.shown topic ht).mp ⟨row, hrow, hof⟩
    obtain ⟨hpart, hs⟩ := (h topic ht).resolve_left hn
    rw [hof.ref]
    exact (actsOn_iff ht).mpr ⟨hs, hpart⟩

end Cluster

/-! ### One name in both storages -/

def idleStats : TopicStats where
  subscriptions := ∅
  publishers := 0
  msgRateIn := 0
  msgRateOut := 0
  storageSize := 0
  averageMsgSize := 0
  lastPublishTimestamp := 0

def ordersTopic (persistent : Bool) : Topic where
  persistent := persistent
  name := "orders"
  partitions := 2
  stats := idleStats
  parts := ∅

/-- A namespace that has "orders" in both storages. -/
def bothStorages : Cluster where
  tenant := "public"
  nameSpace := "default"
  topics := [ordersTopic true, ordersTopic false]
  getTopicName := .ok
  tenant_bare := by decide
  nameSpace_bare := by decide
  distinct := by decide
  named := by decide
  reads _ _ _ := rfl

/-- The delete button of the non-persistent row deletes the persistent topic. -/
theorem delete_takes_other_storage :
    bothStorages.removeDestination ⟨"public/default", "orders"⟩ =
      .ok ⟨"persistent://public/default/orders", false, false⟩ ∧ ¬ bothStorages.PageRight := by
  have hmem : ordersTopic false ∈ bothStorages.topics := List.mem_cons_of_mem _ List.mem_cons_self
  have hshadowed : bothStorages.Shadowed (ordersTopic false) :=
    ⟨rfl, ordersTopic true, List.mem_cons_self, rfl, rfl⟩
  have hother : ¬ bothStorages.Shadowed (ordersTopic true) :=
    Cluster.not_shadowed_of_persistent rfl
  refine ⟨@Cluster.removeDestination_eq _ (ordersTopic true) List.mem_cons_self hother, ?_⟩
  intro h
  have hpartition : ¬ bothStorages.IsPartition (ordersTopic false) := fun hp => nomatch hp.1
  obtain ⟨row, hrow, hof⟩ := (h.listing.shown _ hmem).mpr hpartition
  have hacts := h.acts row hrow _ hmem hof
  rw [hof.ref, Cluster.actsOn_iff hmem] at hacts
  exact hacts.1 hshadowed

end MqStudio.Pulsar
