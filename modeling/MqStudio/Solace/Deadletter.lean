import MqStudio.Lib.Pages
import MqStudio.Lib.Strconv
import MqStudio.Lib.Traverse

/-!
# Dead message queues of a Solace Message VPN

`solace/deadletter.go`: every queue and every topic endpoint names the queue its dead messages go
to, and the names are turned around into a list of queues with what points at each.

* `deadLetterQueues`: the walk, over what the broker answers.
* `Right`: a name is listed with exactly what points at it, and its depth is known where it exists.
* `deadLetterQueues_right_iff`: it is so exactly if no topic endpoint points at a queue of its own
  name, and no name has white space around it.
-/

namespace MqStudio.Solace.DeadLetter

open Std (ExtTreeMap)
open Lib Lib.Maps Lib.Pages Lib.Strconv Lib.Text Lib.Traverse

/-! ### What a broker answers -/

/-- What the page reads of a queue. -/
structure QueueRow where
  queueName : String
  deadMsgQueue : String
  maxRedeliveryCount : ℤ
  respectDmqEligible : Bool

structure TopicEndpointRow where
  topicEndpointName : String
  deadMsgQueue : String
  maxRedeliveryCount : ℤ
  respectDmqEligible : Bool

/-- An error of the management API; one of its kinds says that the object is gone. -/
inductive SempError where
  | vanished (description : String)
  | other (description : String)

/-- The answers of a broker: its two collections, and the number of entries of a queue's own
collections. -/
structure Semp where
  queues : Server SempError QueueRow
  topicEndpoints : Server SempError TopicEndpointRow
  count : String → String → Except SempError ℕ

def maxPages : ℕ := 200

/-! ### The queues -/

/-- A figure that no broker reported. -/
def unknownMetric : ℤ := -1

def attrDeadMsgQueue : String := "deadMsgQueue"
def attrMaxRedelivery : String := "maxRedeliveryCount"
def attrRespectDmq : String := "respectDmqEligibleEnabled"

structure Destination where
  name : String
  subscribers : ℤ
  depth : ℤ
  attributes : ExtTreeMap String String compare

def Destination.attribute (d : Destination) (key : String) : String := d.attributes[key]?.getD ""

def formatBool (b : Bool) : String := if b then "true" else "false"

def destinationOf (row : QueueRow) : Destination where
  name := row.queueName
  subscribers := unknownMetric
  depth := unknownMetric
  attributes := (((∅ : ExtTreeMap String String compare).insert attrDeadMsgQueue
    row.deadMsgQueue).insert attrMaxRedelivery row.maxRedeliveryCount.repr).insert attrRespectDmq
      (formatBool row.respectDmqEligible)

/-- The number of entries; unknown where the queue has gone. -/
def collectionCount (s : Semp) (queue collection : String) : Except SempError ℤ :=
  match s.count queue collection with
  | .ok n => .ok n
  | .error (.vanished _) => .ok unknownMetric
  | .error err => .error err

def fillCounts (s : Semp) (d : Destination) : Except SempError Destination := do
  let depth ← collectionCount s d.name "msgs"
  let bound ← collectionCount s d.name "txFlows"
  return { d with depth := depth, subscribers := bound }

def listDestinations (s : Semp) : Except SempError (List Destination) := do
  let rows ← listPaged s.queues maxPages ""
  let destinations ← (rows.map destinationOf).mapM (fillCounts s)
  return destinations.mergeSort fun a b => decide (a.name ≤ b.name)

/-! ### The names turned around -/

def sourceQueue : String := "queue"
def sourceTopicEndpoint : String := "topicEndpoint"
def sourceMovesEverything : String := "moves-everything"
def sourceMovesMarkedOnly : String := "moves-marked-only"

structure DeadLetterSource where
  queue : String
  exchange : String
  routingKey : String
  subscription : String

structure DeadLetterQueue where
  name : String
  depth : ℤ
  consumers : ℤ
  sources : List DeadLetterSource

/-- A queue or a topic endpoint, with the queue it names. -/
structure Pointer where
  target : String
  name : String
  kind : String
  redelivery : ℤ
  respects : Bool

/-- The name a pointer is listed under, where it is: not under its own. -/
def listedUnder (target name : String) : Option String :=
  if trimSpace target = "" ∨ trimSpace target = name then none else some (trimSpace target)

def Pointer.key (p : Pointer) : Option String := listedUnder p.target p.name

def Pointer.source (p : Pointer) : DeadLetterSource where
  queue := p.name
  exchange := p.kind
  routingKey := p.redelivery.repr
  subscription := if p.respects then sourceMovesMarkedOnly else sourceMovesEverything

def atoiOr (value : String) : ℤ := (parseInt 64 (trimSpace value).toList).getD 0

def pointerOfQueue (d : Destination) : Pointer where
  target := d.attribute attrDeadMsgQueue
  name := d.name
  kind := sourceQueue
  redelivery := atoiOr (d.attribute attrMaxRedelivery)
  respects := decide (d.attribute attrRespectDmq = "true")

def pointerOfEndpoint (row : TopicEndpointRow) : Pointer where
  target := row.deadMsgQueue
  name := row.topicEndpointName
  kind := sourceTopicEndpoint
  redelivery := row.maxRedeliveryCount
  respects := row.respectDmqEligible

/-- The last queue of a name. -/
def byName (queues : List Destination) (name : String) : Option Destination :=
  (queues.foldl (fun m d => m.insert d.name d) (∅ : ExtTreeMap String Destination compare))[name]?

/-- The entry of a name; its depth is unknown where there is no queue of that name. -/
def entryOf (queues : List Destination) (name : String) (sources : List Pointer) :
    DeadLetterQueue where
  name := name
  depth := ((byName queues name).map (·.depth)).getD unknownMetric
  consumers := match byName queues name with
    | some d => if 0 ≤ d.subscribers then d.subscribers else 0
    | none => 0
  sources := sources.map Pointer.source

/-- `DeadLetterQueues`, the names in order. -/
def deadLetterQueues (s : Semp) : Except SempError (List DeadLetterQueue) := do
  let queues ← listDestinations s
  let endpoints ← listPaged s.topicEndpoints maxPages ""
  let pointers := queues.map pointerOfQueue ++ endpoints.map pointerOfEndpoint
  return (group Pointer.key pointers).toList.map fun e => entryOf queues e.1 e.2

/-! ### A Message VPN -/

/-- The queues and topic endpoints of a VPN, with how much each queue spools and how many flows are
bound to it.  The names of either kind are their own. -/
structure Vpn where
  queues : List QueueRow
  topicEndpoints : List TopicEndpointRow
  spooled : String → ℕ
  flows : String → ℕ
  nodup_queues : (queues.map (·.queueName)).Nodup
  nodup_endpoints : (topicEndpoints.map (·.topicEndpointName)).Nodup

/-- A broker that answers for a VPN, which stays as it is, within the cap on the pages. -/
structure Answers (s : Semp) (v : Vpn) : Prop where
  queues : ∃ pages ≤ maxPages, Serves s.queues "" pages v.queues
  topicEndpoints : ∃ pages ≤ maxPages, Serves s.topicEndpoints "" pages v.topicEndpoints
  spooled : ∀ row ∈ v.queues, s.count row.queueName "msgs" = .ok (v.spooled row.queueName)
  flows : ∀ row ∈ v.queues, s.count row.queueName "txFlows" = .ok (v.flows row.queueName)

/-- A queue or a topic endpoint of a VPN. -/
structure Endpoint where
  kind : String
  name : String
  deadMsgQueue : String

def Vpn.endpoints (v : Vpn) : List Endpoint :=
  v.queues.map (fun row => ⟨sourceQueue, row.queueName, row.deadMsgQueue⟩) ++
    v.topicEndpoints.map fun row => ⟨sourceTopicEndpoint, row.topicEndpointName, row.deadMsgQueue⟩

/-- The queue of the name itself. -/
def Endpoint.Is (e : Endpoint) (name : String) : Prop := e.kind = sourceQueue ∧ e.name = name

/-- An endpoint names a queue other than itself. -/
def Endpoint.PointsTo (e : Endpoint) (name : String) : Prop :=
  e.deadMsgQueue = name ∧ name ≠ "" ∧ ¬e.Is name

/-- Every pointer is found, once and under its kind, and a depth is known where the queue exists. -/
structure Right (v : Vpn) (found : List DeadLetterQueue) : Prop where
  listed : ∀ name, (∃ entry ∈ found, entry.name = name) ↔ ∃ e ∈ v.endpoints, e.PointsTo name
  once : ∀ entry ∈ found, ∀ e ∈ v.endpoints, e.PointsTo entry.name →
    (entry.sources.map fun s => (s.queue, s.exchange)).count (e.name, e.kind) = 1
  depth : ∀ entry ∈ found, entry.depth ≠ unknownMetric ↔
    ∃ row ∈ v.queues, row.queueName = entry.name

/-- Whoever points elsewhere points at a name without white space around it that is not its own.  A
queue may name itself; if there is white space around its name, something else has to name what is
left without it. -/
structure Plain (v : Vpn) : Prop where
  elsewhere : ∀ e ∈ v.endpoints, e.deadMsgQueue ≠ "" → ¬e.Is e.deadMsgQueue →
    trimSpace e.deadMsgQueue = e.deadMsgQueue ∧ e.name ≠ e.deadMsgQueue
  itself : ∀ e ∈ v.endpoints, e.Is e.deadMsgQueue → trimSpace e.deadMsgQueue ≠ e.deadMsgQueue →
    trimSpace e.deadMsgQueue ≠ "" → ∃ f ∈ v.endpoints, f.PointsTo (trimSpace e.deadMsgQueue)

/-! ### What the page lists -/

section Page

variable {s : Semp} {v : Vpn} {name : String} {e : Endpoint}

/-- A queue with its figures. -/
def counted (v : Vpn) (row : QueueRow) : Destination :=
  { destinationOf row with
    depth := v.spooled row.queueName, subscribers := v.flows row.queueName }

def queuesOf (v : Vpn) : List Destination :=
  (v.queues.map (counted v)).mergeSort fun a b => decide (a.name ≤ b.name)

def pointersOf (v : Vpn) : List Pointer :=
  (queuesOf v).map pointerOfQueue ++ v.topicEndpoints.map pointerOfEndpoint

def pageOf (v : Vpn) : List DeadLetterQueue :=
  (group Pointer.key (pointersOf v)).toList.map fun e => entryOf (queuesOf v) e.1 e.2

theorem collectionCount_of_ok {queue collection : String} {n : ℕ}
    (h : s.count queue collection = .ok n) : collectionCount s queue collection = .ok (n : ℤ) := by
  rw [collectionCount, h]

theorem listDestinations_of_answers (h : Answers s v) :
    listDestinations s = .ok (queuesOf v) := by
  obtain ⟨pages, hpages, hserves⟩ := h.queues
  have hfill : (v.queues.map destinationOf).mapM (fillCounts s) =
      .ok (v.queues.map (counted v)) := by
    refine mapM_map_eq_ok _ destinationOf (counted v) v.queues fun row hrow => ?_
    rw [fillCounts]
    dsimp only [destinationOf]
    rw [collectionCount_of_ok (h.spooled row hrow), collectionCount_of_ok (h.flows row hrow)]
    rfl
  rw [listDestinations, listPaged_of_serves hserves hpages]
  show (do
    let destinations ← (v.queues.map destinationOf).mapM (fillCounts s)
    pure (destinations.mergeSort fun a b => decide (a.name ≤ b.name))) = _
  rw [hfill]
  rfl

/-- The page of a broker that answers. -/
theorem deadLetterQueues_of_answers (h : Answers s v) : deadLetterQueues s = .ok (pageOf v) := by
  obtain ⟨pages, hpages, hserves⟩ := h.topicEndpoints
  rw [deadLetterQueues, listDestinations_of_answers h, listPaged_of_serves hserves hpages]
  rfl

theorem mem_pageOf {entry : DeadLetterQueue} : entry ∈ pageOf v ↔
    ∃ name, (∃ p ∈ pointersOf v, p.key = some name) ∧
      entry = entryOf (queuesOf v) name ((pointersOf v).filter fun p => p.key = some name) := by
  rw [pageOf, List.mem_map]
  constructor
  · rintro ⟨⟨name, entries⟩, hmem, rfl⟩
    have hgroup := ExtTreeMap.mem_toList_iff_getElem?_eq_some.mp hmem
    exact ⟨name, exists_group_iff.mp ⟨entries, hgroup⟩, by rw [entries_of_group hgroup]⟩
  · rintro ⟨name, hsome, rfl⟩
    obtain ⟨entries, hgroup⟩ := exists_group_iff.mpr hsome
    refine ⟨(name, entries), ExtTreeMap.mem_toList_iff_getElem?_eq_some.mpr hgroup, ?_⟩
    rw [entries_of_group hgroup]

/-! ### Pointers and endpoints -/

def Pointer.endpoint (p : Pointer) : Endpoint := ⟨p.kind, p.name, p.target⟩

theorem attribute_deadMsgQueue (row : QueueRow) :
    (destinationOf row).attribute attrDeadMsgQueue = row.deadMsgQueue := by
  have hother : attrMaxRedelivery ≠ attrDeadMsgQueue := by decide
  have hrespect : attrRespectDmq ≠ attrDeadMsgQueue := by decide
  rw [Destination.attribute, destinationOf]
  dsimp only
  rw [getElem?_insert, if_neg hrespect, getElem?_insert, if_neg hother, getElem?_insert, if_pos rfl]
  rfl

/-- The pointers are the endpoints, in another order. -/
theorem perm_endpoints (v : Vpn) : ((pointersOf v).map Pointer.endpoint).Perm v.endpoints := by
  rw [pointersOf, List.map_append, List.map_map, List.map_map, Vpn.endpoints]
  refine List.Perm.append ?_ (.of_eq rfl)
  refine ((List.mergeSort_perm _ _).map _).trans (.of_eq ?_)
  rw [List.map_map]
  refine List.map_congr_left fun row _ => ?_
  show (⟨sourceQueue, row.queueName, (destinationOf row).attribute attrDeadMsgQueue⟩ : Endpoint) = _
  rw [attribute_deadMsgQueue]

theorem sourceQueue_ne : sourceQueue ≠ sourceTopicEndpoint := by decide

/-- An endpoint is known by its name and kind. -/
theorem nodup_endpoints (v : Vpn) : (v.endpoints.map fun e => (e.name, e.kind)).Nodup := by
  rw [Vpn.endpoints, List.map_append, List.map_map, List.map_map]
  have hpair : ∀ {l : List String} (kind : String), l.Nodup → (l.map (·, kind)).Nodup :=
    fun kind h => h.map fun _ _ heq => (Prod.mk.inj heq).1
  refine List.nodup_append.mpr ⟨?_, ?_, ?_⟩
  · have hqueues := hpair sourceQueue v.nodup_queues
    rwa [List.map_map] at hqueues
  · have hendpoints := hpair sourceTopicEndpoint v.nodup_endpoints
    rwa [List.map_map] at hendpoints
  · intro a ha b hb heq
    obtain ⟨row, -, rfl⟩ := List.mem_map.mp ha
    obtain ⟨row', -, rfl⟩ := List.mem_map.mp hb
    exact sourceQueue_ne (Prod.mk.inj heq).2

/-- A name is listed where an endpoint is listed under it. -/
theorem exists_pointer_iff : (∃ p ∈ pointersOf v, p.key = some name) ↔
    ∃ e ∈ v.endpoints, listedUnder e.deadMsgQueue e.name = some name := by
  constructor
  · rintro ⟨p, hp, hkey⟩
    exact ⟨p.endpoint, (perm_endpoints v).mem_iff.mp (List.mem_map_of_mem hp), hkey⟩
  · rintro ⟨e, he, hkey⟩
    obtain ⟨p, hp, rfl⟩ := List.mem_map.mp ((perm_endpoints v).mem_iff.mpr he)
    exact ⟨p, hp, hkey⟩

theorem exists_entry_iff : (∃ entry ∈ pageOf v, entry.name = name) ↔
    ∃ e ∈ v.endpoints, listedUnder e.deadMsgQueue e.name = some name := by
  rw [← exists_pointer_iff]
  constructor
  · rintro ⟨entry, hentry, rfl⟩
    obtain ⟨name, hsome, rfl⟩ := mem_pageOf.mp hentry
    exact hsome
  · intro hsome
    exact ⟨_, mem_pageOf.mpr ⟨name, hsome, rfl⟩, rfl⟩

/-- The sources of an entry are the endpoints that are listed under it, each once. -/
theorem count_sources {entry : DeadLetterQueue} (hentry : entry ∈ pageOf v)
    (he : e ∈ v.endpoints) :
    (entry.sources.map fun s => (s.queue, s.exchange)).count (e.name, e.kind) =
      if listedUnder e.deadMsgQueue e.name = some entry.name then 1 else 0 := by
  obtain ⟨name, -, rfl⟩ := mem_pageOf.mp hentry
  have hsources : ((entryOf (queuesOf v) name ((pointersOf v).filter fun p =>
      p.key = some name)).sources.map fun s => (s.queue, s.exchange)).Perm
        ((v.endpoints.filter fun e => listedUnder e.deadMsgQueue e.name = some name).map
          fun e => (e.name, e.kind)) := by
    have hperm := ((perm_endpoints v).filter fun e =>
      listedUnder e.deadMsgQueue e.name = some name).map fun e => (e.name, e.kind)
    rw [List.filter_map, List.map_map] at hperm
    rw [entryOf]
    dsimp only
    rw [List.map_map]
    exact hperm
  have hnodup : ((v.endpoints.filter fun e => listedUnder e.deadMsgQueue e.name = some name).map
      fun e => (e.name, e.kind)).Nodup :=
    (nodup_endpoints v).sublist (List.filter_sublist.map _)
  rw [hsources.count_eq, show (entryOf (queuesOf v) name _).name = name from rfl]
  split
  · rename_i hlisted
    refine List.count_eq_one_of_mem hnodup (List.mem_map.mpr ⟨e, ?_, rfl⟩)
    exact List.mem_filter.mpr ⟨he, decide_eq_true hlisted⟩
  · rename_i hnot
    refine List.count_eq_zero_of_not_mem fun hmem => hnot ?_
    obtain ⟨f, hf, heq⟩ := List.mem_map.mp hmem
    obtain ⟨hf, hlisted⟩ := List.mem_filter.mp hf
    have hsame : f = e := List.inj_on_of_nodup_map (nodup_endpoints v) hf he heq
    rw [hsame] at hlisted
    exact of_decide_eq_true hlisted

/-! ### Depths -/

theorem byName_iff {d : Destination} :
    byName (queuesOf v) name = some d ↔ ∃ row ∈ v.queues, row.queueName = name ∧
      d = counted v row := by
  have hinj : ∀ a ∈ queuesOf v, ∀ b ∈ queuesOf v, a.name = b.name → a = b := by
    have hnodup : ((queuesOf v).map (·.name)).Nodup := by
      refine (((List.mergeSort_perm _ _).map _).nodup_iff).mpr ?_
      rw [List.map_map]
      exact v.nodup_queues
    exact fun a ha b hb => List.inj_on_of_nodup_map hnodup ha hb
  rw [byName, getElem?_foldl_insert hinj]
  constructor
  · rintro ⟨a, ha, hname, rfl⟩
    obtain ⟨row, hrow, rfl⟩ := List.mem_map.mp ((List.mergeSort_perm _ _).mem_iff.mp ha)
    exact ⟨row, hrow, hname, rfl⟩
  · rintro ⟨row, hrow, hname, rfl⟩
    exact ⟨_, (List.mergeSort_perm _ _).mem_iff.mpr (List.mem_map_of_mem hrow), hname, rfl⟩

/-- A depth is known where there is a queue. -/
theorem depth_known_iff {entry : DeadLetterQueue} (hentry : entry ∈ pageOf v) :
    entry.depth ≠ unknownMetric ↔ ∃ row ∈ v.queues, row.queueName = entry.name := by
  obtain ⟨name, -, rfl⟩ := mem_pageOf.mp hentry
  rw [show (entryOf (queuesOf v) name _).name = name from rfl, entryOf]
  dsimp only
  cases hqueue : byName (queuesOf v) name with
  | none =>
    refine iff_of_false (fun h => h rfl) ?_
    rintro ⟨row, hrow, hname⟩
    have hsome := byName_iff.mpr ⟨row, hrow, hname, rfl⟩
    rw [hqueue] at hsome
    cases hsome
  | some d =>
    obtain ⟨row, hrow, hname, rfl⟩ := byName_iff.mp hqueue
    refine iff_of_true ?_ ⟨row, hrow, hname⟩
    show (v.spooled row.queueName : ℤ) ≠ -1
    omega

end Page

/-! ### When the page is right -/

section Right

variable {v : Vpn} {e : Endpoint} {name : String}

theorem listedUnder_eq_some_iff {target name under : String} :
    listedUnder target name = some under ↔
      trimSpace target = under ∧ under ≠ "" ∧ under ≠ name := by
  rw [listedUnder]
  split
  · rename_i hskip
    refine iff_of_false (nomatch ·) ?_
    rintro ⟨rfl, hne, hother⟩
    exact hskip.elim hne hother
  · rename_i hkeep
    rw [not_or] at hkeep
    rw [Option.some.injEq]
    refine ⟨?_, And.left⟩
    rintro rfl
    exact ⟨rfl, hkeep⟩

/-- What points at a plain name is listed under it. -/
theorem listedUnder_of_pointsTo (hplain : Plain v) (he : e ∈ v.endpoints)
    (hpoints : e.PointsTo name) : listedUnder e.deadMsgQueue e.name = some name := by
  obtain ⟨rfl, hne, hother⟩ := hpoints
  obtain ⟨htrim, hname⟩ := hplain.elsewhere e he hne hother
  exact listedUnder_eq_some_iff.mpr ⟨htrim, hne, Ne.symm hname⟩

/-- Under what a plain endpoint is listed something points. -/
theorem exists_pointsTo_of_listedUnder (hplain : Plain v) (he : e ∈ v.endpoints)
    (hlisted : listedUnder e.deadMsgQueue e.name = some name) :
    ∃ f ∈ v.endpoints, f.PointsTo name := by
  obtain ⟨rfl, hne, hother⟩ := listedUnder_eq_some_iff.mp hlisted
  by_cases hitself : e.Is e.deadMsgQueue
  · refine hplain.itself e he hitself (fun htrim => ?_) hne
    exact hother (htrim.trans hitself.2.symm)
  · have htarget : e.deadMsgQueue ≠ "" := fun hblank => hne (by rw [hblank]; rfl)
    have htrim := (hplain.elsewhere e he htarget hitself).1
    exact ⟨e, he, by rw [htrim]; exact ⟨rfl, htarget, hitself⟩⟩

theorem right_of_plain (hplain : Plain v) : Right v (pageOf v) where
  listed name := by
    rw [exists_entry_iff]
    constructor
    · rintro ⟨e, he, hlisted⟩
      exact exists_pointsTo_of_listedUnder hplain he hlisted
    · rintro ⟨e, he, hpoints⟩
      exact ⟨e, he, listedUnder_of_pointsTo hplain he hpoints⟩
  once entry hentry e he hpoints := by
    rw [count_sources hentry he, if_pos (listedUnder_of_pointsTo hplain he hpoints)]
  depth _ hentry := depth_known_iff hentry

theorem plain_of_right (hright : Right v (pageOf v)) : Plain v where
  elsewhere e he hne hother := by
    have hpoints : e.PointsTo e.deadMsgQueue := ⟨rfl, hne, hother⟩
    obtain ⟨entry, hentry, hname⟩ := (hright.listed e.deadMsgQueue).mpr ⟨e, he, hpoints⟩
    have honce := hright.once entry hentry e he (hname ▸ hpoints)
    rw [count_sources hentry he, hname] at honce
    split at honce
    · rename_i hlisted
      obtain ⟨htrim, -, hown⟩ := listedUnder_eq_some_iff.mp hlisted
      exact ⟨htrim, Ne.symm hown⟩
    · cases honce
  itself e he hitself htrim hne := by
    refine (hright.listed _).mp (exists_entry_iff.mpr ⟨e, he, ?_⟩)
    exact listedUnder_eq_some_iff.mpr ⟨rfl, hne, fun heq => htrim (heq.trans hitself.2)⟩

end Right

/-- **The page of a VPN is right** exactly if no topic endpoint points at a queue of its own name,
and the names that are pointed at have no white space around them. -/
theorem deadLetterQueues_right_iff (s : Semp) (v : Vpn) (h : Answers s v) :
    ∃ found, deadLetterQueues s = .ok found ∧ (Right v found ↔ Plain v) :=
  ⟨pageOf v, deadLetterQueues_of_answers h, plain_of_right, right_of_plain⟩


/-- A broker that hands out a VPN in one page of each kind. -/
def brokerOf (v : Vpn) : Semp where
  queues _ := .ok (v.queues, "")
  topicEndpoints _ := .ok (v.topicEndpoints, "")
  count queue collection := .ok (if collection = "msgs" then v.spooled queue else v.flows queue)

theorem answers_brokerOf (v : Vpn) : Answers (brokerOf v) v where
  queues := ⟨1, by decide, .last rfl⟩
  topicEndpoints := ⟨1, by decide, .last rfl⟩
  spooled _ _ := rfl
  flows _ _ := rfl

/-- A queue as a broker ships it: it points at a queue that nobody made. -/
def fresh : Vpn where
  queues := [⟨"orders", "#DEAD_MSG_QUEUE", 0, true⟩]
  topicEndpoints := []
  spooled _ := 0
  flows _ := 0
  nodup_queues := by decide
  nodup_endpoints := by decide

theorem fresh_right : ∃ found, deadLetterQueues (brokerOf fresh) = .ok found ∧
    Right fresh found := by
  obtain ⟨found, hfound, hiff⟩ := deadLetterQueues_right_iff _ fresh (answers_brokerOf fresh)
  refine ⟨found, hfound, hiff.mpr ⟨fun e he _ _ => ?_, fun e he hitself => ?_⟩⟩
  · rw [List.mem_singleton.mp (show e ∈ [_] from he)]
    decide
  · rw [List.mem_singleton.mp (show e ∈ [_] from he)] at hitself
    exact absurd hitself.2 (by decide)

/-- A topic endpoint that points at the queue of its own name. -/
def sameName : Vpn where
  queues := [⟨"audit", "", 0, true⟩]
  topicEndpoints := [⟨"audit", "audit", 3, false⟩]
  spooled _ := 5
  flows _ := 0
  nodup_queues := by decide
  nodup_endpoints := by decide

/-- It is taken for a queue that points at itself, and the page is empty. -/
theorem same_name_missed : Answers (brokerOf sameName) sameName ∧
    ∀ found, deadLetterQueues (brokerOf sameName) = .ok found → ¬Right sameName found := by
  refine ⟨answers_brokerOf sameName, fun found hfound hright => ?_⟩
  rw [deadLetterQueues_of_answers (answers_brokerOf sameName)] at hfound
  obtain rfl := Except.ok.inj hfound
  have hplain := (plain_of_right hright).elsewhere ⟨sourceTopicEndpoint, "audit", "audit"⟩
    (by simp [Vpn.endpoints, sameName]) (by decide) (fun h => absurd h.1 (by decide))
  exact hplain.2 rfl


end MqStudio.Solace.DeadLetter
