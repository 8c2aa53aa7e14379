import MqStudio.Activemq.ObjectName
import MqStudio.Lib.Lookup

/-!
# What an ActiveMQ page acts on

`activemq/destination.go`, `destination_admin.go`, `queue_actions.go`, `message.go`,
`deadletter.go` and `subscription.go`: a page lists the destinations and the durable
subscriptions of a broker of either product, and sends the ref of a row back with what is to be
done.

* `Broker`: what either product holds, and what its listings say of it.
* `Broker.Safe`: every row has a ref of its own, and what is sent for a ref goes to the object
  the row was made from.
* A ref of Classic has the name that a queue and a topic may share, the name as it stands in an
  object name, and a client id in front of the first bar.  `safe_iff` says for which brokers these
  are harmless.
-/

namespace MqStudio.Activemq

open Lib.Text Lib.Lookup

/-! ### Rows -/

structure DestinationRef where
  nameSpace : String
  name : String
  deriving DecidableEq

structure Destination where
  ref : DestinationRef
  product : Product
  kind : DestinationKind
  deriving DecidableEq

structure SubscriptionRef where
  nameSpace : String
  name : String
  deriving DecidableEq

structure Subscription where
  ref : SubscriptionRef
  product : Product
  deriving DecidableEq

/-- The destinations each broker makes for itself. -/
def internalPrefixes : Product → List String
  | .classic => ["ActiveMQ.Advisory."]
  | .artemis => ["$sys.", "activemq.notifications"]

def isInternal (product : Product) (name : String) : Bool :=
  (internalPrefixes product).any fun start => hasPrefix name start

/-- Queues come before topics, and each by name. -/
def destinationBefore (left right : Destination) : Bool :=
  if left.kind ≠ right.kind then left.kind = .queue else left.ref.name < right.ref.name

def sortDestinations (destinations : List Destination) : List Destination :=
  destinations.insertionSort fun left right => (!destinationBefore right left) = true

def subscriptionBefore (left right : Subscription) : Bool :=
  if left.ref.nameSpace ≠ right.ref.nameSpace then left.ref.nameSpace < right.ref.nameSpace
  else left.ref.name < right.ref.name

def sortSubscriptions (subscriptions : List Subscription) : List Subscription :=
  subscriptions.insertionSort fun left right => (!subscriptionBefore right left) = true

/-! ### Brokers -/

structure DurableSubscriber where
  clientId : String
  subscriptionName : String
  destinationName : String

/-- A Classic broker.  It writes a name into an object name in an encoding of its own, which is
bare, and no two beans of a tree have one name. -/
structure ClassicBroker where
  name : String
  encode : String → String
  queues : List String
  topics : List String
  durableTopicSubscribers : List DurableSubscriber
  inactiveDurableTopicSubscribers : List DurableSubscriber
  bare_name : Bare name
  bare_encode : ∀ name, Bare (encode name)
  nodup_queues : (queues.map encode).Nodup
  nodup_topics : (topics.map encode).Nodup
  nodup_subscribers : ((durableTopicSubscribers ++ inactiveDurableTopicSubscribers).map
    fun s => (s.clientId, s.subscriptionName)).Nodup

structure ArtemisAddress where
  name : String
  /-- `none` when the address was removed before it was read. -/
  routingTypes : Option (List String)
  queueNames : List String

structure ArtemisBroker where
  name : String
  addresses : List ArtemisAddress
  nodup_addresses : (addresses.map (·.name)).Nodup
  nodup_queues : ∀ address ∈ addresses, address.queueNames.Nodup

inductive Broker where
  | classic (broker : ClassicBroker)
  | artemis (broker : ArtemisBroker)

def ClassicBroker.names (c : ClassicBroker) : Names := ⟨.classic, c.name⟩
def ArtemisBroker.names (a : ArtemisBroker) : Names := ⟨.artemis, a.name⟩

def Broker.names : Broker → Names
  | .classic c => c.names
  | .artemis a => a.names

/-- What the broker's `Queues` and `Topics` say. -/
def ClassicBroker.reported (c : ClassicBroker) : DestinationKind → List String
  | .queue => c.queues.map fun name => c.names.destination (c.encode name) .queue
  | .topic => c.topics.map fun name => c.names.destination (c.encode name) .topic

/-! ### Listings -/

def classicDestination (name : String) (kind : DestinationKind) : Destination :=
  ⟨⟨"", name⟩, .classic, kind⟩

def artemisDestination (address : String) (kind : DestinationKind) : Destination :=
  ⟨⟨"", address⟩, .artemis, kind⟩

/-- An entry of one of the two lists.  An object name that cannot be read is left out. -/
def classicEntry (includeInternal : Bool) (kind : DestinationKind) (raw : String) :
    Option Destination :=
  match parseObjectName raw with
  | none => none
  | some keys =>
    let name := keys.value "destinationName"
    if name = "" ∨ (!includeInternal && isInternal .classic name) = true then none
    else some (classicDestination name kind)

def ClassicBroker.listDestinations (c : ClassicBroker) (includeInternal : Bool) :
    List Destination :=
  sortDestinations ((c.reported .queue).filterMap (classicEntry includeInternal .queue) ++
    (c.reported .topic).filterMap (classicEntry includeInternal .topic))

def artemisKindOf (routingTypes : List String) : DestinationKind :=
  if routingTypes.any fun routing => equalFold routing "MULTICAST" then .topic else .queue

def ArtemisBroker.listDestinations (a : ArtemisBroker) (includeInternal : Bool) :
    List Destination :=
  let wanted := a.addresses.filter fun address =>
    includeInternal || !isInternal .artemis address.name
  sortDestinations (wanted.filterMap fun address =>
    address.routingTypes.map fun types => artemisDestination address.name (artemisKindOf types))

def Broker.listDestinations : Broker → Bool → List Destination
  | .classic c => c.listDestinations
  | .artemis a => a.listDestinations

def classicSubscriptionSeparator : String := "|"

def classicSubscription (s : DurableSubscriber) : Option Subscription :=
  if s.clientId = "" ∨ s.subscriptionName = "" then none
  else some ⟨⟨s.destinationName,
    s.clientId ++ classicSubscriptionSeparator ++ s.subscriptionName⟩, .classic⟩

/-- The queues under an address, none if it is not registered. -/
def ArtemisBroker.artemisQueuesUnder (a : ArtemisBroker) (address : String) : List String :=
  ((a.addresses.find? fun other => other.name = address).map (·.queueNames)).getD []

def artemisSubscription (address queue : String) : Subscription := ⟨⟨address, queue⟩, .artemis⟩

def Broker.listSubscriptions : Broker → List Subscription
  | .classic c => sortSubscriptions
    ((c.durableTopicSubscribers ++ c.inactiveDurableTopicSubscribers).filterMap classicSubscription)
  | .artemis a =>
    let topics := (a.listDestinations false).filter fun destination => destination.kind = .topic
    sortSubscriptions (topics.flatMap fun destination =>
      (a.artemisQueuesUnder destination.ref.name).map (artemisSubscription destination.ref.name))

/-! ### What is sent for a ref -/

inductive Argument where
  | text (s : String)
  | flag (b : Bool)
  | number (n : Int)
  deriving DecidableEq

/-- An operation on a management bean. -/
structure Request where
  mbean : String
  operation : String
  arguments : List Argument
  deriving DecidableEq

inductive ActionError where
  | noDestination (name : String)
  | browseWithoutDestination
  | artemisTopic
  | moveWithoutTarget
  | topicHoldsNoDeadLetters
  | classicSubscriptionName

def Broker.destinationDetail (b : Broker) (ref : DestinationRef) :
    Except ActionError Destination :=
  match (b.listDestinations true).find? fun destination => destination.ref.name = ref.name with
  | some destination => .ok destination
  | none => .error (.noDestination ref.name)

def Broker.destinationMBean (b : Broker) (ref : DestinationRef) :
    Except ActionError (String × DestinationKind) := do
  let detail ← b.destinationDetail ref
  return (b.names.destination ref.name detail.kind, detail.kind)

def browseLimit : Int := 200

def Broker.queryMessages (b : Broker) (cluster topic : String) (maxResults : Int) :
    Except ActionError (List Request) := do
  if topic = "" then throw .browseWithoutDestination
  let limit := if maxResults ≤ 0 then browseLimit else maxResults
  let (mbean, kind) ← b.destinationMBean ⟨cluster, topic⟩
  match b with
  | .artemis _ =>
    if kind = .topic then throw .artemisTopic
    return [⟨mbean, "browse(int,int)", [.number 1, .number limit]⟩]
  | .classic _ => return [⟨mbean, "browse()", []⟩]

def Broker.purgeQueue (b : Broker) (ref : DestinationRef) : Except ActionError (List Request) := do
  let (mbean, kind) ← b.destinationMBean ref
  match b with
  | .artemis a =>
    -- The messages of a multicast address are in its subscription queues.
    if kind = .topic then
      return (a.artemisQueuesUnder ref.name).map fun queue =>
        ⟨a.names.artemisQueue ref.name queue .multicast, "removeAllMessages()", []⟩
    return [⟨mbean, "removeAllMessages()", []⟩]
  | .classic _ => return [⟨mbean, "purge()", []⟩]

structure MoveRequest where
  nameSpace : String
  source : String
  toExchange : String
  toRoutingKey : String

def Broker.moveMessages (b : Broker) (request : MoveRequest) :
    Except ActionError (List Request) := do
  let target := if request.toRoutingKey = "" then request.toExchange else request.toRoutingKey
  if target = "" then throw .moveWithoutTarget
  let (mbean, _) ← b.destinationMBean ⟨request.nameSpace, request.source⟩
  match b with
  | .artemis _ =>
    return [⟨mbean, "moveMessages(java.lang.String,java.lang.String)", [.text "", .text target]⟩]
  | .classic _ =>
    return [⟨mbean, "moveMatchingMessagesTo(java.lang.String,java.lang.String)",
      [.text "", .text target]⟩]

def Broker.retryDeadLetters (b : Broker) (ref : DestinationRef) :
    Except ActionError (List Request) := do
  let (mbean, kind) ← b.destinationMBean ref
  if kind = .topic then throw .topicHoldsNoDeadLetters
  return [⟨mbean, "retryMessages()", []⟩]

def removeOperation : DestinationKind → String
  | .queue => "removeQueue(java.lang.String)"
  | .topic => "removeTopic(java.lang.String)"

def deleteAddress (a : ArtemisBroker) (name : String) : Request :=
  ⟨a.names.brokerMBean, "deleteAddress(java.lang.String,boolean)", [.text name, .flag true]⟩

def Broker.removeDestination (b : Broker) (ref : DestinationRef) :
    Except ActionError (List Request) :=
  match b with
  | .artemis a => return [deleteAddress a ref.name]
  | .classic c => do
    let detail ← b.destinationDetail ref
    return [⟨c.names.brokerMBean, removeOperation detail.kind, [.text ref.name]⟩]

def splitClassicSubscription (name : String) : String × String :=
  match cut '|' name.toList with
  | some (before, after) => (String.ofList before, String.ofList after)
  | none => ("", "")

def destroyDurableSubscriber (c : ClassicBroker) (clientId name : String) : Request :=
  ⟨c.names.brokerMBean, "destroyDurableSubscriber(java.lang.String,java.lang.String)",
    [.text clientId, .text name]⟩

def destroyQueue (a : ArtemisBroker) (name : String) : Request :=
  ⟨a.names.brokerMBean, "destroyQueue(java.lang.String,boolean,boolean)",
    [.text name, .flag true, .flag true]⟩

def Broker.removeSubscription (b : Broker) (ref : SubscriptionRef) :
    Except ActionError (List Request) :=
  match b with
  | .artemis a => return [destroyQueue a ref.name]
  | .classic c =>
    let halves := splitClassicSubscription ref.name
    if halves.1 = "" ∨ halves.2 = "" then throw .classicSubscriptionName
    else return [destroyDurableSubscriber c halves.1 halves.2]

/-! ### What a row stands for -/

/-- A destination as the broker has it. -/
inductive Object where
  | queue (name : String)
  | topic (name : String)
  | address (addr : ArtemisAddress)

def Broker.objects : Broker → List Object
  | .classic c => c.queues.map .queue ++ c.topics.map .topic
  | .artemis a => a.addresses.map .address

/-- The name that a listing shows. -/
def Broker.shown : Broker → Object → String
  | .classic c, .queue name => c.encode name
  | .classic c, .topic name => c.encode name
  | _, .queue name => name
  | _, .topic name => name
  | _, .address addr => addr.name

def Object.kind : Object → DestinationKind
  | .queue _ => .queue
  | .topic _ => .topic
  | .address addr => artemisKindOf (addr.routingTypes.getD [])

def Broker.row (b : Broker) (o : Object) : Destination :=
  ⟨⟨"", b.shown o⟩, b.names.product, o.kind⟩

/-- The object has a row. -/
def Broker.Listed (b : Broker) (includeInternal : Bool) (o : Object) : Bool :=
  (includeInternal || !isInternal b.names.product (b.shown o)) &&
    match o with
    | .address addr => addr.routingTypes.isSome
    | _ => b.shown o ≠ ""

/-- The request goes to the object's own bean, or is its own removal. -/
def Broker.Owns : Broker → Object → Request → Prop
  | .classic c, .queue name, r => r.mbean = c.names.destination (c.encode name) .queue ∨
    r = ⟨c.names.brokerMBean, removeOperation .queue, [.text name]⟩
  | .classic c, .topic name, r => r.mbean = c.names.destination (c.encode name) .topic ∨
    r = ⟨c.names.brokerMBean, removeOperation .topic, [.text name]⟩
  | .artemis a, .address addr, r =>
    (∃ queue routing, r.mbean = a.names.artemisQueue addr.name queue routing) ∨
      r = deleteAddress a addr.name
  | _, _, _ => False

/-- What is sent goes to the object, or nothing is sent because of what the object is. -/
def Broker.Addresses (b : Broker) (o : Object) : Except ActionError (List Request) → Prop
  | .ok requests => ∀ r ∈ requests, b.Owns o r
  | .error err => ∀ name, err ≠ .noDestination name

/-- What a page can do to a row. -/
inductive Operation where
  | query (cluster : String) (maxResults : Int)
  | purge
  | move (toExchange toRoutingKey : String)
  | retry
  | remove

def Broker.perform (b : Broker) (ref : DestinationRef) :
    Operation → Except ActionError (List Request)
  | .query cluster maxResults => b.queryMessages cluster ref.name maxResults
  | .purge => b.purgeQueue ref
  | .move toExchange toRoutingKey =>
    b.moveMessages ⟨ref.nameSpace, ref.name, toExchange, toRoutingKey⟩
  | .retry => b.retryDeadLetters ref
  | .remove => b.removeDestination ref

/-- A durable subscription as the broker has it. -/
inductive Subscriber where
  | durable (s : DurableSubscriber)
  | binding (address queue : String)

/-- The subscriptions that have a row. -/
def Broker.subscribers : Broker → List Subscriber
  | .classic c =>
    ((c.durableTopicSubscribers ++ c.inactiveDurableTopicSubscribers).filter fun s =>
      s.clientId ≠ "" ∧ s.subscriptionName ≠ "").map .durable
  | .artemis a =>
    ((a.addresses.filter fun address => (Broker.artemis a).Listed false (.address address) ∧
      (Object.address address).kind = .topic).flatMap fun address =>
        address.queueNames.map (.binding address.name))

def subscriptionRow : Subscriber → Subscription
  | .durable s => ⟨⟨s.destinationName,
    s.clientId ++ classicSubscriptionSeparator ++ s.subscriptionName⟩, .classic⟩
  | .binding address queue => artemisSubscription address queue

/-- The request that removes the subscription. -/
def Broker.removal : Broker → Subscriber → Option Request
  | .classic c, .durable s => some (destroyDurableSubscriber c s.clientId s.subscriptionName)
  | .artemis a, .binding _ queue => some (destroyQueue a queue)
  | _, _ => none

/-- **A page acts on the row it was shown.** -/
structure Broker.Safe (b : Broker) : Prop where
  refs : ∀ includeInternal, ((b.listDestinations includeInternal).map (·.ref)).Nodup
  detail : ∀ includeInternal, ∀ o ∈ b.objects, b.Listed includeInternal o = true →
    b.destinationDetail (b.row o).ref = .ok (b.row o)
  acts : ∀ includeInternal, ∀ o ∈ b.objects, b.Listed includeInternal o = true →
    ∀ operation, b.Addresses o (b.perform (b.row o).ref operation)
  subscriptionRefs : (b.listSubscriptions.map (·.ref)).Nodup
  removal : ∀ s ∈ b.subscribers, ∃ request, b.removal s = some request ∧
    b.removeSubscription (subscriptionRow s).ref = .ok [request]

/-- What the refs of a Classic broker need: a name is in one of the two trees, an object name shows
it as it is, and no client id has a bar. -/
structure ClassicBroker.Plain (c : ClassicBroker) : Prop where
  apart : ∀ queue ∈ c.queues, ∀ topic ∈ c.topics, c.encode queue = c.encode topic →
    c.encode queue = ""
  bare : ∀ name ∈ c.queues ++ c.topics, c.encode name ≠ "" → c.encode name = name
  clients : ∀ s ∈ c.durableTopicSubscribers ++ c.inactiveDurableTopicSubscribers,
    s.clientId ≠ "" → s.subscriptionName ≠ "" → '|' ∉ s.clientId.toList

def Broker.Plain : Broker → Prop
  | .classic c => c.Plain
  | .artemis _ => True

/-! ### The listings -/

variable {b : Broker} {c : ClassicBroker} {a : ArtemisBroker} {includeInternal : Bool}

theorem parse_destination (c : ClassicBroker) (name : String) (kind : DestinationKind) :
    ∃ keys, parseObjectName (c.names.destination (c.encode name) kind) = some keys ∧
      keys.value "destinationName" = c.encode name := by
  refine ⟨_, parse_classic_destination (n := c.names) rfl c.bare_name (c.bare_encode name) kind, ?_⟩
  have hne : ("type" = "destinationName") = False ∧
      ("destinationType" = "destinationName") = False := by decide
  simp [ObjectName.value, hne]

theorem classicEntry_destination (c : ClassicBroker) (includeInternal : Bool) (name : String)
    (kind : DestinationKind) :
    classicEntry includeInternal kind (c.names.destination (c.encode name) kind) =
      if (includeInternal || !isInternal .classic (c.encode name)) && c.encode name ≠ "" then
        some (classicDestination (c.encode name) kind) else none := by
  obtain ⟨keys, hparse, hvalue⟩ := parse_destination c name kind
  rw [classicEntry, hparse]
  simp only [hvalue]
  by_cases hempty : c.encode name = ""
  · simp [hempty]
  · cases includeInternal <;> cases isInternal .classic (c.encode name) <;> simp [hempty]

/-- The rows of one of the two trees. -/
theorem filterMap_classicEntry (c : ClassicBroker) (includeInternal : Bool)
    (kind : DestinationKind) (names : List String) :
    (names.map fun name => c.names.destination (c.encode name) kind).filterMap
        (classicEntry includeInternal kind) =
      (names.filter fun name => (includeInternal || !isInternal .classic (c.encode name)) &&
        c.encode name ≠ "").map fun name => classicDestination (c.encode name) kind := by
  induction names with
  | nil => rfl
  | cons name names ih =>
    rw [List.map_cons, List.filterMap_cons, classicEntry_destination, List.filter_cons]
    by_cases hvisible : ((includeInternal || !isInternal .classic (c.encode name)) &&
        c.encode name ≠ "") = true
    · rw [if_pos hvisible, if_pos hvisible, ih]
      rfl
    · rw [if_neg hvisible, if_neg hvisible, ih]

theorem listDestinations_perm (b : Broker) (includeInternal : Bool) :
    (b.listDestinations includeInternal).Perm
      ((b.objects.filter (b.Listed includeInternal)).map b.row) := by
  cases b with
  | classic c =>
    refine (List.perm_insertionSort _ _).trans (.of_eq ?_)
    rw [ClassicBroker.reported, ClassicBroker.reported, filterMap_classicEntry,
      filterMap_classicEntry, Broker.objects, List.filter_append, List.map_append, List.filter_map,
      List.filter_map, List.map_map, List.map_map]
    rfl
  | artemis a =>
    refine (List.perm_insertionSort _ _).trans (.of_eq ?_)
    rw [Broker.objects, List.filter_map, List.map_map]
    induction a.addresses with
    | nil => rfl
    | cons addr addrs ih =>
      rw [List.filter_cons, List.filter_cons]
      cases hwanted : includeInternal || !isInternal .artemis addr.name with
      | false =>
        have hlisted : (Broker.artemis a).Listed includeInternal (.address addr) = false := by
          rw [Broker.Listed, Bool.and_eq_false_iff]
          exact Or.inl hwanted
        simpa [hlisted] using ih
      | true =>
        have hlisted : (Broker.artemis a).Listed includeInternal (.address addr) =
            addr.routingTypes.isSome := by
          have hshown : (includeInternal || !isInternal (Broker.artemis a).names.product
              ((Broker.artemis a).shown (.address addr))) = true := hwanted
          rw [Broker.Listed, hshown, Bool.true_and]
        rw [if_pos rfl, List.filterMap_cons, ih, Function.comp_apply, hlisted]
        cases htypes : addr.routingTypes with
        | none => simp
        | some types =>
          have hrow : (Broker.artemis a).row (.address addr) =
              artemisDestination addr.name (artemisKindOf types) := by
            simp [Broker.row, artemisDestination, Broker.shown, Object.kind, htypes, Broker.names,
              ArtemisBroker.names]
          simp [hrow]

/-- The names that a listing shows. -/
theorem map_name_perm (b : Broker) (includeInternal : Bool) :
    ((b.listDestinations includeInternal).map (·.ref.name)).Perm
      ((b.objects.filter (b.Listed includeInternal)).map b.shown) := by
  refine ((listDestinations_perm b includeInternal).map _).trans (.of_eq ?_)
  rw [List.map_map]
  rfl

theorem shown_ne_empty {o : Object} (h : (Broker.classic c).Listed includeInternal o = true)
    (ho : o ∈ (Broker.classic c).objects) : (Broker.classic c).shown o ≠ "" := by
  rcases List.mem_append.mp ho with ho | ho <;> obtain ⟨name, -, rfl⟩ := List.mem_map.mp ho
  all_goals
    unfold Broker.Listed at h
    simpa using (Bool.and_eq_true_iff.mp h).2

/-- Where a name is in one tree only, a listing shows it once. -/
theorem nodup_names (h : b.Plain) (includeInternal : Bool) :
    ((b.listDestinations includeInternal).map (·.ref.name)).Nodup := by
  rw [(map_name_perm b includeInternal).nodup_iff]
  cases b with
  | classic c =>
    have hplain : c.Plain := h
    rw [Broker.objects, List.filter_append, List.map_append, List.nodup_append']
    refine ⟨?_, ?_, ?_⟩
    · refine c.nodup_queues.sublist ?_
      have hsub := (List.filter_sublist (p := (Broker.classic c).Listed includeInternal)
        (l := c.queues.map .queue)).map (Broker.classic c).shown
      rwa [List.map_map] at hsub
    · refine c.nodup_topics.sublist ?_
      have hsub := (List.filter_sublist (p := (Broker.classic c).Listed includeInternal)
        (l := c.topics.map .topic)).map (Broker.classic c).shown
      rwa [List.map_map] at hsub
    · intro name hqueue htopic
      obtain ⟨o, ho, rfl⟩ := List.mem_map.mp hqueue
      obtain ⟨o', ho', heq⟩ := List.mem_map.mp htopic
      obtain ⟨hmem, hlisted⟩ := List.mem_filter.mp ho
      obtain ⟨queue, hq, rfl⟩ := List.mem_map.mp hmem
      obtain ⟨topic, ht, rfl⟩ := List.mem_map.mp (List.mem_filter.mp ho').1
      refine shown_ne_empty hlisted (List.mem_append_left _ hmem) ?_
      exact hplain.apart queue hq topic ht heq.symm
  | artemis a =>
    refine a.nodup_addresses.sublist ?_
    have hsub := (List.filter_sublist (p := (Broker.artemis a).Listed includeInternal)
      (l := a.addresses.map .address)).map (Broker.artemis a).shown
    rwa [List.map_map] at hsub

/-- The ref of a row leads back to the row. -/
theorem destinationDetail_row (hnodup : ((b.listDestinations true).map (·.ref.name)).Nodup)
    {o : Object} (ho : o ∈ b.objects) (hlisted : b.Listed includeInternal o = true) :
    b.destinationDetail (b.row o).ref = .ok (b.row o) := by
  have hall : b.Listed true o = true := by
    unfold Broker.Listed at hlisted ⊢
    exact Bool.and_eq_true_iff.mpr ⟨by simp, (Bool.and_eq_true_iff.mp hlisted).2⟩
  have hmem : b.row o ∈ b.listDestinations true :=
    (listDestinations_perm b true).mem_iff.mpr
      (List.mem_map_of_mem (List.mem_filter.mpr ⟨ho, hall⟩))
  rw [Broker.destinationDetail, find?_of_nodup hnodup hmem]

/-! ### What is sent -/

/-- The bean that a row's name and kind give is the object's own. -/
theorem owns_destination {o : Object} (ho : o ∈ b.objects) (operation : String)
    (arguments : List Argument) :
    b.Owns o ⟨b.names.destination (b.shown o) o.kind, operation, arguments⟩ := by
  cases b with
  | classic c =>
    rcases List.mem_append.mp ho with ho | ho <;> obtain ⟨name, -, rfl⟩ := List.mem_map.mp ho
    · exact Or.inl rfl
    · exact Or.inl rfl
  | artemis a =>
    obtain ⟨addr, -, rfl⟩ := List.mem_map.mp ho
    exact Or.inl ⟨addr.name, (Object.address addr).kind.routing, rfl⟩

theorem addresses_perform {o : Object} (ho : o ∈ b.objects)
    (hdetail : b.destinationDetail (b.row o).ref = .ok (b.row o))
    (hremove : b.Addresses o (b.removeDestination (b.row o).ref))
    (operation : Operation) : b.Addresses o (b.perform (b.row o).ref operation) := by
  have hmbean : ∀ nameSpace, b.destinationMBean ⟨nameSpace, b.shown o⟩ =
      .ok (b.names.destination (b.shown o) o.kind, o.kind) := by
    intro nameSpace
    have hsame : b.destinationDetail ⟨nameSpace, b.shown o⟩ = .ok (b.row o) := hdetail
    rw [Broker.destinationMBean, hsame]
    rfl
  have howns := owns_destination ho
  have hown : ∀ operation arguments, b.Addresses o
      (.ok [⟨b.names.destination (b.shown o) o.kind, operation, arguments⟩]) := by
    intro operation arguments r hr
    rw [List.mem_singleton.mp hr]
    exact howns operation arguments
  cases operation with
  | query cluster maxResults =>
    simp only [Broker.perform, Broker.queryMessages, Broker.row, hmbean]
    split
    · exact nofun
    · cases b with
      | classic c => exact hown _ _
      | artemis a =>
        simp only [bind, Except.bind]
        split
        · exact nofun
        · exact hown _ _
  | purge =>
    simp only [Broker.perform, Broker.purgeQueue, Broker.row, hmbean]
    cases b with
    | classic c => exact hown _ _
    | artemis a =>
      simp only [bind, Except.bind]
      split
      · intro r hr
        obtain ⟨addr, -, rfl⟩ := List.mem_map.mp ho
        obtain ⟨queue, -, rfl⟩ := List.mem_map.mp hr
        exact Or.inl ⟨queue, .multicast, rfl⟩
      · exact hown _ _
  | move toExchange toRoutingKey =>
    simp only [Broker.perform, Broker.moveMessages, Broker.row, hmbean]
    generalize (if toRoutingKey = "" then toExchange else toRoutingKey) = target
    split
    · exact nofun
    · cases b with
      | classic c => exact hown _ _
      | artemis a => exact hown _ _
  | retry =>
    simp only [Broker.perform, Broker.retryDeadLetters, Broker.row, hmbean, bind, Except.bind]
    split
    · show ∀ name, ActionError.topicHoldsNoDeadLetters ≠ .noDestination name
      exact nofun
    · exact hown _ _
  | remove => exact hremove

/-- A removal is the object's own where its name is shown as it is. -/
theorem addresses_remove {o : Object} (ho : o ∈ b.objects)
    (hdetail : b.destinationDetail (b.row o).ref = .ok (b.row o))
    (hbare : ∀ c name, b = .classic c → o = .queue name ∨ o = .topic name → c.encode name = name) :
    b.Addresses o (b.removeDestination (b.row o).ref) := by
  cases b with
  | classic c =>
    simp only [Broker.removeDestination, hdetail]
    intro r hr
    rw [List.mem_singleton.mp hr]
    rcases List.mem_append.mp ho with ho | ho <;> obtain ⟨name, -, rfl⟩ := List.mem_map.mp ho
    · refine Or.inr ?_
      simp [Broker.row, Broker.shown, Object.kind, hbare c name rfl (Or.inl rfl)]
    · refine Or.inr ?_
      simp [Broker.row, Broker.shown, Object.kind, hbare c name rfl (Or.inr rfl)]
  | artemis a =>
    obtain ⟨addr, -, rfl⟩ := List.mem_map.mp ho
    intro r hr
    exact Or.inr (List.mem_singleton.mp hr)

/-! ### Subscriptions -/

theorem listSubscriptions_perm (b : Broker) :
    b.listSubscriptions.Perm (b.subscribers.map subscriptionRow) := by
  cases b with
  | classic c =>
    refine (List.perm_insertionSort _ _).trans (.of_eq ?_)
    rw [Broker.subscribers, List.map_map]
    induction c.durableTopicSubscribers ++ c.inactiveDurableTopicSubscribers with
    | nil => rfl
    | cons s rest ih =>
      rw [List.filterMap_cons, List.filter_cons, classicSubscription]
      by_cases hempty : s.clientId = "" ∨ s.subscriptionName = ""
      · have hnot : ¬ (s.clientId ≠ "" ∧ s.subscriptionName ≠ "") := by tauto
        rw [if_pos hempty, if_neg (by simpa using hnot), ih]
      · have hnot : s.clientId ≠ "" ∧ s.subscriptionName ≠ "" := by tauto
        rw [if_neg hempty, if_pos (decide_eq_true hnot), ih]
        rfl
  | artemis a =>
    refine (List.perm_insertionSort _ _).trans ?_
    have hrows := ((listDestinations_perm (.artemis a) false).filter
      fun destination => destination.kind = .topic).flatMap_right fun destination =>
        (a.artemisQueuesUnder destination.ref.name).map (artemisSubscription destination.ref.name)
    refine hrows.trans (.of_eq ?_)
    rw [Broker.objects, Broker.subscribers]
    have hunder : ∀ addr ∈ a.addresses, a.artemisQueuesUnder addr.name = addr.queueNames := by
      intro addr haddr
      rw [ArtemisBroker.artemisQueuesUnder, find?_of_nodup a.nodup_addresses haddr]
      rfl
    generalize a.addresses = addrs at hunder
    induction addrs with
    | nil => rfl
    | cons addr addrs ih =>
      have htail := ih fun other hother => hunder other (List.mem_cons_of_mem _ hother)
      rw [List.map_cons, List.filter_cons, List.filter_cons]
      by_cases hlisted : (Broker.artemis a).Listed false (.address addr) = true
      · by_cases hkind : (Object.address addr).kind = .topic
        · have hrow : ((Broker.artemis a).row (.address addr)).kind = .topic := hkind
          have hname : ((Broker.artemis a).row (.address addr)).ref.name = addr.name := rfl
          simp only [hlisted, if_true, List.map_cons, List.filter_cons, hrow, hkind, decide_true,
            List.flatMap_cons, List.map_append, hname, hunder addr List.mem_cons_self, htail,
            List.map_map, and_self]
          rfl
        · have hrow : ((Broker.artemis a).row (.address addr)).kind ≠ .topic := hkind
          simp only [hlisted, if_true, List.map_cons, List.filter_cons, hrow, hkind, decide_false,
            Bool.false_eq_true, if_false, htail, and_false]
      · simp only [hlisted, if_false, htail, false_and, decide_false, Bool.false_eq_true]

/-- A split at the first bar gives back the halves of a name whose first half has no bar. -/
theorem splitClassicSubscription_eq_iff {clientId name : String} :
    splitClassicSubscription (clientId ++ classicSubscriptionSeparator ++ name) = (clientId, name) ↔
      '|' ∉ clientId.toList := by
  have htext : (clientId ++ classicSubscriptionSeparator ++ name).toList =
      clientId.toList ++ '|' :: name.toList := by
    simp [classicSubscriptionSeparator]
  rw [splitClassicSubscription, htext]
  constructor
  · intro hsplit hbar
    cases hcut : cut '|' (clientId.toList ++ '|' :: name.toList) with
    | none =>
      rw [hcut] at hsplit
      obtain ⟨hempty, -⟩ := Prod.mk.inj hsplit
      rw [← hempty] at hbar
      exact absurd hbar (by decide)
    | some p =>
      obtain ⟨before, after⟩ := p
      rw [hcut] at hsplit
      obtain ⟨hbefore, -⟩ := Prod.mk.inj hsplit
      refine (cut_spec hcut).2 ?_
      rw [← hbefore, String.toList_ofList] at hbar
      exact hbar
  · intro hbar
    rw [cut_append hbar]
    simp only [String.ofList_toList]

theorem durable_mem {s : DurableSubscriber} (h : .durable s ∈ (Broker.classic c).subscribers) :
    s ∈ c.durableTopicSubscribers ++ c.inactiveDurableTopicSubscribers ∧ s.clientId ≠ "" ∧
      s.subscriptionName ≠ "" := by
  obtain ⟨other, hmem, heq⟩ := List.mem_map.mp h
  obtain rfl := Subscriber.durable.inj heq
  simpa using List.mem_filter.mp hmem

theorem removal_eq (h : b.Plain) : ∀ s ∈ b.subscribers, ∃ request, b.removal s = some request ∧
    b.removeSubscription (subscriptionRow s).ref = .ok [request] := by
  intro s hs
  cases b with
  | classic c =>
    obtain ⟨sub, -, rfl⟩ := List.mem_map.mp hs
    obtain ⟨hmem, hclient, hname⟩ := durable_mem hs
    refine ⟨_, rfl, ?_⟩
    have hplain : c.Plain := h
    have hsplit := (@splitClassicSubscription_eq_iff sub.clientId sub.subscriptionName).mpr
      (hplain.clients sub hmem hclient hname)
    simp only [Broker.removeSubscription, subscriptionRow, hsplit]
    rw [if_neg (by tauto)]
    rfl
  | artemis a =>
    obtain ⟨addr, -, hs⟩ := List.mem_flatMap.mp hs
    obtain ⟨queue, -, rfl⟩ := List.mem_map.mp hs
    exact ⟨_, rfl, rfl⟩

theorem nodup_subscriptions (h : b.Plain) : (b.listSubscriptions.map (·.ref)).Nodup := by
  rw [((listSubscriptions_perm b).map _).nodup_iff, List.map_map]
  cases b with
  | classic c =>
    have hplain : c.Plain := h
    have hids : ((Broker.classic c).subscribers.map fun s => match s with
        | .durable s => (s.clientId, s.subscriptionName)
        | .binding _ _ => ("", "")).Nodup := by
      rw [Broker.subscribers, List.map_map]
      exact c.nodup_subscribers.sublist (List.filter_sublist.map _)
    refine List.Nodup.map_on ?_ hids.of_map
    intro s hs t ht heq
    obtain ⟨sub, -, rfl⟩ := List.mem_map.mp hs
    obtain ⟨other, -, rfl⟩ := List.mem_map.mp ht
    obtain ⟨hmem, hclient, hname⟩ := durable_mem hs
    obtain ⟨hmem', hclient', hname'⟩ := durable_mem ht
    -- Both names are split at their first bar.
    have hsplit := (@splitClassicSubscription_eq_iff sub.clientId sub.subscriptionName).mpr
      (hplain.clients sub hmem hclient hname)
    have hsplit' := (@splitClassicSubscription_eq_iff other.clientId other.subscriptionName).mpr
      (hplain.clients other hmem' hclient' hname')
    have hnames := congrArg SubscriptionRef.name heq
    simp only [Function.comp_apply, subscriptionRow] at hnames
    rw [hnames, hsplit'] at hsplit
    exact List.inj_on_of_nodup_map hids hs ht hsplit.symm
  | artemis a =>
    rw [Broker.subscribers, List.map_flatMap, List.nodup_flatMap]
    constructor
    · intro addr haddr
      rw [List.map_map]
      refine (a.nodup_queues addr (List.mem_filter.mp haddr).1).map fun queue queue' heq => ?_
      exact congrArg SubscriptionRef.name heq
    · have hpair := List.Pairwise.filter (fun addr : ArtemisAddress => decide
        ((Broker.artemis a).Listed false (.address addr) ∧ (Object.address addr).kind = .topic))
        (List.pairwise_map.mp a.nodup_addresses)
      refine hpair.imp fun {addr addr'} hne ref href href' => ?_
      obtain ⟨s, hs, rfl⟩ := List.mem_map.mp href
      obtain ⟨queue, -, rfl⟩ := List.mem_map.mp hs
      obtain ⟨s', hs', heq⟩ := List.mem_map.mp href'
      obtain ⟨queue', -, rfl⟩ := List.mem_map.mp hs'
      exact hne (congrArg SubscriptionRef.nameSpace heq).symm

/-- The bean of the broker is none of its destinations'. -/
theorem brokerMBean_ne (c : ClassicBroker) (name : String) (kind : DestinationKind) :
    c.names.brokerMBean ≠ c.names.destination (c.encode name) kind := by
  intro he
  have hbroker := parse_classic_broker (n := c.names) rfl c.bare_name
  rw [he, parse_classic_destination (n := c.names) rfl c.bare_name (c.bare_encode name)] at hbroker
  have hlength := congrArg (·.keys.length) (Option.some.inj hbroker)
  simp at hlength

theorem listed_of_ne {o : Object} {name : String} (ho : o = .queue name ∨ o = .topic name)
    (hne : c.encode name ≠ "") : (Broker.classic c).Listed true o = true := by
  unfold Broker.Listed
  rcases ho with rfl | rfl
  · exact decide_eq_true hne
  · exact decide_eq_true hne

theorem apart_of_nodup (h : (((Broker.classic c).listDestinations true).map (·.ref)).Nodup) :
    ∀ queue ∈ c.queues, ∀ topic ∈ c.topics, c.encode queue = c.encode topic →
      c.encode queue = "" := by
  intro queue hqueue topic htopic heq
  by_contra hne
  have hrows := (((listDestinations_perm (.classic c) true).map (·.ref)).nodup_iff).mp h
  rw [Broker.objects, List.filter_append, List.map_append, List.map_append,
    List.nodup_append'] at hrows
  have hlisted := listed_of_ne (Or.inl rfl : Object.queue queue = _ ∨ _) hne
  have hlisted' := listed_of_ne (Or.inr rfl : Object.topic topic = _ ∨ _) (heq ▸ hne)
  have hdisjoint := hrows.2.2
  refine @hdisjoint ⟨"", c.encode queue⟩ ?_ ?_
  · refine List.mem_map.mpr ⟨_, List.mem_map_of_mem (List.mem_filter.mpr ⟨?_, hlisted⟩), rfl⟩
    exact List.mem_map_of_mem hqueue
  · refine List.mem_map.mpr ⟨_, List.mem_map_of_mem (List.mem_filter.mpr ⟨?_, hlisted'⟩), ?_⟩
    · exact List.mem_map_of_mem htopic
    · rw [heq]
      rfl

/-- A removal by a name that is not the object's own does not belong to the object. -/
theorem bare_of_owns {o : Object} {name : String} (ho : o = .queue name ∨ o = .topic name)
    {operation : String}
    (h : (Broker.classic c).Owns o ⟨c.names.brokerMBean, operation, [.text (c.encode name)]⟩) :
    c.encode name = name := by
  rcases ho with rfl | rfl
  · rcases h with hmbean | hremove
    · exact absurd hmbean (brokerMBean_ne c name .queue)
    · have harguments := congrArg Request.arguments hremove
      simpa using harguments
  · rcases h with hmbean | hremove
    · exact absurd hmbean (brokerMBean_ne c name .topic)
    · have harguments := congrArg Request.arguments hremove
      simpa using harguments

theorem split_of_removal {ref : SubscriptionRef} {clientId name : String}
    (h : (Broker.classic c).removeSubscription ref =
      .ok [destroyDurableSubscriber c clientId name]) :
    splitClassicSubscription ref.name = (clientId, name) := by
  simp only [Broker.removeSubscription] at h
  split at h
  · cases h
  · have hsent := congrArg Request.arguments (List.cons.inj (Except.ok.inj h)).1
    simp only [destroyDurableSubscriber, List.cons.injEq, Argument.text.injEq, and_true] at hsent
    exact Prod.ext hsent.1 hsent.2

theorem plain_of_safe (h : (Broker.classic c).Safe) : c.Plain := by
  refine ⟨apart_of_nodup (h.refs true), fun name hname hne => ?_, fun s hs hclient hsub => ?_⟩
  · have hobject : ∃ o ∈ (Broker.classic c).objects, o = .queue name ∨ o = .topic name := by
      rcases List.mem_append.mp hname with hq | ht
      · exact ⟨_, List.mem_append_left _ (List.mem_map_of_mem hq), Or.inl rfl⟩
      · exact ⟨_, List.mem_append_right _ (List.mem_map_of_mem ht), Or.inr rfl⟩
    obtain ⟨o, ho, heq⟩ := hobject
    have hshown : (Broker.classic c).shown o = c.encode name := by
      rcases heq with rfl | rfl <;> rfl
    have hlisted := listed_of_ne heq hne
    have hremove := h.acts true o ho hlisted .remove
    simp only [Broker.perform, Broker.removeDestination, h.detail true o ho hlisted] at hremove
    have howns := hremove _ (List.mem_singleton_self _)
    simp only [Broker.row, hshown] at howns
    exact bare_of_owns heq howns
  · have hmem : .durable s ∈ (Broker.classic c).subscribers := by
      refine List.mem_map_of_mem (List.mem_filter.mpr ⟨hs, ?_⟩)
      simp [hclient, hsub]
    obtain ⟨request, hrequest, hremove⟩ := h.removal _ hmem
    obtain rfl := Option.some.inj hrequest
    exact splitClassicSubscription_eq_iff.mp (split_of_removal hremove)

/-- **An ActiveMQ page acts on the row it was shown** exactly where the refs are plain. -/
theorem safe_iff (b : Broker) : b.Safe ↔ b.Plain := by
  constructor
  · intro h
    cases b with
    | classic c => exact plain_of_safe h
    | artemis a => trivial
  · intro h
    have hdetail : ∀ includeInternal, ∀ o ∈ b.objects, b.Listed includeInternal o = true →
        b.destinationDetail (b.row o).ref = .ok (b.row o) :=
      fun includeInternal o ho hlisted => destinationDetail_row (nodup_names h true) ho hlisted
    refine ⟨fun includeInternal => ?_, hdetail, fun includeInternal o ho hlisted => ?_,
      nodup_subscriptions h, removal_eq h⟩
    · have hnames := nodup_names h includeInternal
      refine List.Nodup.of_map DestinationRef.name ?_
      rwa [List.map_map]
    · have hd := hdetail includeInternal o ho hlisted
      refine addresses_perform ho hd (addresses_remove ho hd ?_)
      rintro c name rfl heq
      have hplain : c.Plain := h
      have hne := shown_ne_empty hlisted ho
      rcases List.mem_append.mp ho with ho | ho <;>
        obtain ⟨other, hother, rfl⟩ := List.mem_map.mp ho
      · obtain rfl : other = name := by simpa using heq
        exact hplain.bare other (List.mem_append_left _ hother) hne
      · obtain rfl : other = name := by simpa using heq
        exact hplain.bare other (List.mem_append_right _ hother) hne

/-! ### A queue and a topic of one name -/

/-- What Classic puts for a character that an object name reserves. -/
def encodeChar (c : Char) : List Char :=
  if c = ':' ∨ c = ',' ∨ c = '"' ∨ c = Char.ofNat 39 then ['_']
  else if c = '?' then "&qe;".toList
  else if c = '=' then "&amp;".toList
  else if c = '*' then "&ast;".toList
  else [c]

def encodeObjectNamePart (part : String) : String :=
  String.ofList (part.toList.flatMap encodeChar)

theorem not_mem_encodeChar (c : Char) : ',' ∉ encodeChar c ∧ '"' ∉ encodeChar c := by
  unfold encodeChar
  split_ifs with hreserved
  · decide
  · decide
  · decide
  · decide
  · have hcomma : c ≠ ',' := fun he => hreserved (Or.inr (Or.inl he))
    have hquote : c ≠ '"' := fun he => hreserved (Or.inr (Or.inr (Or.inl he)))
    simp [hcomma.symm, hquote.symm]

theorem bare_encodeObjectNamePart (part : String) : Bare (encodeObjectNamePart part) := by
  rw [Bare, encodeObjectNamePart, String.toList_ofList]
  refine ⟨fun hcomma => ?_, fun hhead => ?_⟩
  · obtain ⟨c, -, hc⟩ := List.mem_flatMap.mp hcomma
    exact (not_mem_encodeChar c).1 hc
  · obtain ⟨c, -, hc⟩ := List.mem_flatMap.mp (List.mem_of_mem_head? hhead)
    exact (not_mem_encodeChar c).2 hc

/-- A queue and a topic that share the name `orders`. -/
def sharedName : ClassicBroker where
  name := "localhost"
  encode := encodeObjectNamePart
  queues := ["orders"]
  topics := ["orders"]
  durableTopicSubscribers := []
  inactiveDurableTopicSubscribers := []
  bare_name := ⟨by decide, by decide⟩
  bare_encode := bare_encodeObjectNamePart
  nodup_queues := List.nodup_singleton _
  nodup_topics := List.nodup_singleton _
  nodup_subscribers := List.nodup_nil

theorem listDestinations_sharedName : sharedName.listDestinations true =
    [classicDestination "orders" .queue, classicDestination "orders" .topic] := by
  rw [ClassicBroker.listDestinations, ClassicBroker.reported, ClassicBroker.reported,
    filterMap_classicEntry, filterMap_classicEntry]
  decide

/-- Purging the topic empties the queue of the same name. -/
theorem topic_ref_purges_queue :
    (Broker.classic sharedName).purgeQueue ((Broker.classic sharedName).row (.topic "orders")).ref =
      .ok [⟨sharedName.names.destination "orders" .queue, "purge()", []⟩] ∧
    ¬ (Broker.classic sharedName).Safe := by
  have hshown : (Broker.classic sharedName).shown (.topic "orders") = "orders" := by decide
  constructor
  · have hdetail : (Broker.classic sharedName).destinationDetail ⟨"", "orders"⟩ =
        .ok (classicDestination "orders" .queue) := by
      rw [Broker.destinationDetail, Broker.listDestinations, listDestinations_sharedName]
      rfl
    rw [Broker.row, hshown, Broker.purgeQueue, Broker.destinationMBean, hdetail]
    rfl
  · intro hsafe
    have hrefs := hsafe.refs true
    rw [Broker.listDestinations, listDestinations_sharedName] at hrefs
    exact absurd hrefs (by decide)

end MqStudio.Activemq
