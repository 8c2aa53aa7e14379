import MqStudio.Lib.Maps
import MqStudio.Lib.Pattern
import MqStudio.Lib.Text
import MqStudio.Lib.Traverse

/-!
# The dead-letter queues of a vhost

`rabbitmq/deadletter.go`: queues that declare a dead-letter exchange are walked, and each queue
that a binding of the exchange names is listed with the queues that feed it.

* `Carries`: AMQP routing, from an exchange to a queue.
* `deadLetterQueues`: the walk, which compares keys and looks at no exchange's type.
* `listed_iff_feeds_iff`: the two agree on a queue and a source exactly if no binding that the walk
  passes over makes the difference.
-/

namespace MqStudio.Rabbitmq.DeadLetter

open Std (ExtTreeMap)
open Lib.Maps Lib.Pattern Lib.Text Lib.Traverse

/-! ### Topologies -/

/-- The value of a queue argument; what is not text is known by how it is printed. -/
inductive Argument where
  | text (text : String)
  | other (printed : String)

structure QueueInfo where
  name : String
  vhost : String
  arguments : ExtTreeMap String Argument compare
  messagesReady : Nat
  messagesUnacknowledged : Nat
  consumers : Nat

structure BindingInfo where
  source : String
  destination : String
  destinationType : String
  routingKey : String

inductive ExchangeKind where
  | direct
  | fanout
  | topic
deriving DecidableEq

/-- What a vhost holds: its queues, the types of its exchanges and the bindings between them. -/
structure Topology where
  queues : List QueueInfo
  kind : String → ExchangeKind
  bindings : List BindingInfo
  distinct : (queues.map (·.name)).Nodup
  named : ∀ queue ∈ queues, queue.name ≠ ""

def ArgDeadLetterExchange : String := "x-dead-letter-exchange"
def ArgDeadLetterRoutingKey : String := "x-dead-letter-routing-key"

/-- A queue argument that should be a string, where it is there. -/
def stringArgument (arguments : ExtTreeMap String Argument compare) (key : String) :
    Option String :=
  match arguments[key]? with
  | none => none
  | some (.text text) => some text
  | some (.other printed) => some printed

/-! ### Routing -/

/-- The words of a routing key, or of a pattern.  An empty one has none. -/
def keyWords (key : String) : List (List Char) :=
  if key = "" then [] else key.toList.splitOnP (· = '.')

/-- A word of a topic binding. -/
def piece (word : List Char) : Piece (List Char) :=
  if word = ['*'] then .one else if word = ['#'] then .many else .word word

/-- **The rule of each type of exchange**: what a binding's key lets through. -/
def ExchangeKind.Routes (kind : ExchangeKind) (bindingKey key : String) : Prop :=
  match kind with
  | .direct => bindingKey = key
  | .fanout => True
  | .topic => Match ((keyWords bindingKey).map piece) (keyWords key)

/-- **AMQP routing**: a message with this key gets from an exchange to a queue. -/
inductive Carries (t : Topology) (key : String) : String → String → Prop
  /-- The default exchange has every queue bound by its name. -/
  | default (h : ∃ queue ∈ t.queues, queue.name = key) : Carries t key "" key
  | queue (binding : BindingInfo) (hb : binding ∈ t.bindings) (hs : binding.source ≠ "")
      (hd : binding.destinationType = "queue")
      (hr : (t.kind binding.source).Routes binding.routingKey key) :
      Carries t key binding.source binding.destination
  | exchange (binding : BindingInfo) {queue : String} (hb : binding ∈ t.bindings)
      (hs : binding.source ≠ "") (hd : binding.destinationType = "exchange")
      (hr : (t.kind binding.source).Routes binding.routingKey key)
      (h : Carries t key binding.destination queue) : Carries t key binding.source queue

/-- A message that dies in the source can get to the queue: with the key that the source declares,
or with some key where it declares none. -/
def Feeds (t : Topology) (source : QueueInfo) (queue : String) : Prop :=
  ∃ exchange, stringArgument source.arguments ArgDeadLetterExchange = some exchange ∧
    match stringArgument source.arguments ArgDeadLetterRoutingKey with
    | some key => Carries t key exchange queue
    | none => ∃ key, Carries t key exchange queue

/-! ### The walk -/

structure DeadLetterSource where
  queue : String
  exchange : String
  routingKey : String

structure DeadLetterQueue where
  vhost : String
  name : String
  depth : Nat
  consumers : Nat
  sources : List DeadLetterSource

/-- The queues that the bindings of an exchange name, each once. -/
def boundTo (exchange routingKey : String) (bindings : List BindingInfo) : List String :=
  bindings.foldl (fun names binding =>
    if binding.source ≠ exchange ∨ binding.destinationType ≠ "queue" then names
    else if routingKey ≠ "" ∧ binding.routingKey ≠ routingKey ∧ binding.routingKey ≠ "" then names
    else if binding.destination ∈ names then names
    else names ++ [binding.destination]) []

/-- Where one source queue's dead letters go. -/
def deadLetterTargets (exchange routingKey : String) (bindings : List BindingInfo) : List String :=
  if exchange = "" then
    if routingKey = "" then [] else [routingKey]
  else boundTo exchange routingKey bindings

/-- What was found so far, and in which order. -/
structure Targets where
  sources : ExtTreeMap String (List DeadLetterSource) compare
  order : List String

/-- One target of a source. -/
def addTarget (source : QueueInfo) (exchange routingKey : String) (targets : Targets)
    (name : String) : Targets :=
  if name = source.name then targets
  else
    { sources := targets.sources.insert name
        ((targets.sources[name]?).getD [] ++ [⟨source.name, exchange, routingKey⟩])
      order := if name ∈ targets.sources then targets.order else targets.order ++ [name] }

/-- One source. -/
def addSource (bindings : List BindingInfo) (targets : Targets) (source : QueueInfo) : Targets :=
  match stringArgument source.arguments ArgDeadLetterExchange with
  | none => targets
  | some exchange =>
    let routingKey := (stringArgument source.arguments ArgDeadLetterRoutingKey).getD ""
    (deadLetterTargets exchange routingKey bindings).foldl (addTarget source exchange routingKey)
      targets

def findTargets (queues : List QueueInfo) (bindings : List BindingInfo) : Targets :=
  queues.foldl (addSource bindings) ⟨∅, []⟩

def deadLetterQueueOf (targets : Targets) (queue : QueueInfo) : DeadLetterQueue where
  vhost := queue.vhost
  name := queue.name
  depth := queue.messagesReady + queue.messagesUnacknowledged
  consumers := queue.consumers
  sources := (targets.sources[queue.name]?).getD []

inductive WalkError where
  | listQueues (text : String)
  | listBindings (text : String)

/-- A connection: its own vhost, and the answers of the management API. -/
structure Conn where
  vhost : String
  listQueuesIn : String → Except String (List QueueInfo)
  listBindingsIn : String → Except String (List BindingInfo)

def Conn.vhostOr (c : Conn) (name : String) : String :=
  if trimSpace name ≠ "" then name else c.vhost

def Conn.deadLetterQueues (c : Conn) (name : String) : Except WalkError (List DeadLetterQueue) :=
  match c.listQueuesIn (c.vhostOr name) with
  | .error err => .error (.listQueues err)
  | .ok queues =>
    match c.listBindingsIn (c.vhostOr name) with
    | .error err => .error (.listBindings err)
    | .ok bindings =>
      let byQueue := queues.foldl (fun byQueue queue => byQueue.insert queue.name queue)
        (∅ : ExtTreeMap String QueueInfo compare)
      let targets := findTargets queues bindings
      .ok (targets.order.filterMap fun name => (byQueue[name]?).map (deadLetterQueueOf targets))

/-- A queue is listed with a source. -/
def Lists (found : List DeadLetterQueue) (source : QueueInfo) (queue : String) : Prop :=
  ∃ entry ∈ found, entry.name = queue ∧ ∃ s ∈ entry.sources, s.queue = source.name

/-! ### What the walk lists -/

/-- The bindings that the walk takes. -/
def takes (exchange routingKey : String) (binding : BindingInfo) : Prop :=
  binding.source = exchange ∧ binding.destinationType = "queue" ∧
    (routingKey = "" ∨ binding.routingKey = routingKey ∨ binding.routingKey = "")

theorem mem_boundTo {exchange routingKey name : String} {bindings : List BindingInfo} :
    name ∈ boundTo exchange routingKey bindings ↔
      ∃ binding ∈ bindings, takes exchange routingKey binding ∧ binding.destination = name := by
  rw [boundTo, foldl_gathers (fun (names : List String) name => name ∈ names)
    fun binding name => takes exchange routingKey binding ∧ binding.destination = name]
  · simp
  · intro names binding name
    unfold takes
    split
    case isTrue h => grind
    case isFalse h =>
      split
      case isTrue h' => grind
      case isFalse h' => grind

/-- A source is recorded for a queue. -/
def Targets.Holds (targets : Targets) (entry : String × DeadLetterSource) : Prop :=
  ∃ sources, targets.sources[entry.1]? = some sources ∧ entry.2 ∈ sources

theorem holds_addTarget (source : QueueInfo) (exchange routingKey : String) (targets : Targets)
    (name : String) (entry : String × DeadLetterSource) :
    (addTarget source exchange routingKey targets name).Holds entry ↔ targets.Holds entry ∨
      (name ≠ source.name ∧ entry = (name, ⟨source.name, exchange, routingKey⟩)) := by
  rw [addTarget]
  split
  case isTrue h => simp [h]
  case isFalse h =>
    obtain ⟨queue, s⟩ := entry
    simp only [Targets.Holds, getElem?_insert, Prod.mk.injEq]
    by_cases hname : name = queue
    · subst hname
      cases hold : targets.sources[name]? with
      | none => simp [h]
      | some sources => simp [h]
    · simp [hname, Ne.symm hname]

/-- What one source adds. -/
def Adds (bindings : List BindingInfo) (source : QueueInfo) (entry : String × DeadLetterSource) :
    Prop :=
  ∃ exchange, stringArgument source.arguments ArgDeadLetterExchange = some exchange ∧
    entry.1 ≠ source.name ∧ entry.1 ∈ deadLetterTargets exchange
      ((stringArgument source.arguments ArgDeadLetterRoutingKey).getD "") bindings ∧
    entry.2 = ⟨source.name, exchange,
      (stringArgument source.arguments ArgDeadLetterRoutingKey).getD ""⟩

theorem holds_addSource (bindings : List BindingInfo) (targets : Targets) (source : QueueInfo)
    (entry : String × DeadLetterSource) :
    (addSource bindings targets source).Holds entry ↔
      targets.Holds entry ∨ Adds bindings source entry := by
  rw [addSource, Adds]
  split
  case h_1 hnone => simp [hnone]
  case h_2 exchange hsome =>
    rw [foldl_gathers Targets.Holds _ (holds_addTarget source exchange _)]
    obtain ⟨queue, s⟩ := entry
    simp only [hsome, Option.some.injEq, exists_eq_left', Prod.mk.injEq]
    refine or_congr_right ⟨?_, ?_⟩
    · rintro ⟨name, hname, hne, rfl, rfl⟩
      exact ⟨hne, hname, rfl⟩
    · rintro ⟨hne, hname, rfl⟩
      exact ⟨queue, hname, hne, rfl, rfl⟩

/-- The order holds the queues that something is recorded for. -/
def Targets.Ordered (targets : Targets) : Prop :=
  ∀ name, name ∈ targets.order ↔ name ∈ targets.sources

theorem ordered_addTarget {source : QueueInfo} {exchange routingKey : String} {targets : Targets}
    (h : targets.Ordered) (name : String) :
    (addTarget source exchange routingKey targets name).Ordered := by
  rw [addTarget]
  split
  case isTrue => exact h
  case isFalse =>
    intro queue
    simp only [ExtTreeMap.mem_insert, Std.compare_eq_iff_eq]
    split
    case isTrue hold =>
      rw [h queue]
      exact ⟨.inr, fun hq => hq.elim (fun he => he ▸ hold) id⟩
    case isFalse hnew =>
      rw [List.mem_append, List.mem_singleton, h queue]
      exact ⟨fun hq => hq.symm.imp_left Eq.symm, fun hq => hq.symm.imp_right Eq.symm⟩

theorem foldl_ordered {α : Type} {f : Targets → α → Targets}
    (hf : ∀ targets a, targets.Ordered → (f targets a).Ordered) (l : List α) {targets : Targets}
    (h : targets.Ordered) : (l.foldl f targets).Ordered := by
  induction l generalizing targets with
  | nil => exact h
  | cons a l ih => exact ih (hf targets a h)

theorem ordered_findTargets (queues : List QueueInfo) (bindings : List BindingInfo) :
    (findTargets queues bindings).Ordered := by
  refine foldl_ordered (fun targets source h => ?_) queues fun name => by simp
  rw [addSource]
  split
  · exact h
  · exact foldl_ordered (fun _ name h => ordered_addTarget h name) _ h

theorem holds_findTargets (queues : List QueueInfo) (bindings : List BindingInfo)
    (entry : String × DeadLetterSource) :
    (findTargets queues bindings).Holds entry ↔ ∃ source ∈ queues, Adds bindings source entry := by
  rw [findTargets, foldl_gathers Targets.Holds _ (holds_addSource bindings)]
  simp [Targets.Holds]

/-- A connection whose vhost is the topology. -/
structure Shows (c : Conn) (name : String) (t : Topology) : Prop where
  queues : c.listQueuesIn (c.vhostOr name) = .ok t.queues
  bindings : c.listBindingsIn (c.vhostOr name) = .ok t.bindings

variable {t : Topology} {source queue : QueueInfo}

/-- Queues of one name are one. -/
theorem Topology.eq_of_name (hs : source ∈ t.queues) (hq : queue ∈ t.queues)
    (h : source.name = queue.name) : source = queue :=
  List.inj_on_of_nodup_map t.distinct hs hq h

theorem byQueue_iff (t : Topology) (name : String) (queue : QueueInfo) :
    (t.queues.foldl (fun byQueue queue => byQueue.insert queue.name queue)
      (∅ : ExtTreeMap String QueueInfo compare))[name]? = some queue ↔
        queue ∈ t.queues ∧ queue.name = name := by
  rw [getElem?_foldl_insert fun a ha b hb h => t.eq_of_name ha hb h]
  constructor
  · rintro ⟨a, ha, hname, rfl⟩
    exact ⟨ha, hname⟩
  · rintro ⟨hq, hname⟩
    exact ⟨queue, hq, hname, rfl⟩

/-- **What is listed**: the targets of each source, where they exist. -/
theorem lists_iff {c : Conn} {name : String} (h : Shows c name t) :
    ∃ found, c.deadLetterQueues name = .ok found ∧ ∀ source ∈ t.queues, ∀ queue ∈ t.queues,
      (Lists found source queue.name ↔ ∃ s, Adds t.bindings source (queue.name, s)) := by
  rw [Conn.deadLetterQueues, h.queues]
  simp only [h.bindings]
  refine ⟨_, rfl, fun source hsource queue hqueue => ?_⟩
  have hholds := holds_findTargets t.queues t.bindings
  have hordered := ordered_findTargets t.queues t.bindings
  generalize findTargets t.queues t.bindings = targets at *
  constructor
  · rintro ⟨entry, hentry, hname, s, hs, hsame⟩
    obtain ⟨listed, -, hlisted⟩ := List.mem_filterMap.mp hentry
    obtain ⟨found, hfound, rfl⟩ := Option.map_eq_some_iff.mp hlisted
    obtain ⟨hfound, -⟩ := (byQueue_iff t listed found).mp hfound
    obtain rfl := t.eq_of_name hfound hqueue hname
    have hheld : targets.Holds (found.name, s) := by
      simp only [deadLetterQueueOf] at hs
      cases hsources : targets.sources[found.name]? with
      | none => simp [hsources] at hs
      | some sources => exact ⟨sources, hsources, by simpa [hsources] using hs⟩
    obtain ⟨other, hother, hadds⟩ := (hholds _).mp hheld
    obtain ⟨exchange, hexchange, hne, hmem, heq⟩ := hadds
    have hnames : other.name = source.name := by
      rw [← hsame]
      exact congrArg DeadLetterSource.queue heq.symm
    obtain rfl := t.eq_of_name hother hsource hnames
    exact ⟨s, exchange, hexchange, hne, hmem, heq⟩
  · rintro ⟨s, hadds⟩
    obtain ⟨sources, hsources, hs⟩ := (hholds _).mpr ⟨source, hsource, hadds⟩
    have hmem : queue.name ∈ targets.sources := by
      rw [ExtTreeMap.mem_iff_isSome_getElem?, hsources]
      rfl
    refine ⟨deadLetterQueueOf targets queue, List.mem_filterMap.mpr ⟨queue.name,
      (hordered queue.name).mpr hmem, ?_⟩, rfl, s, ?_, ?_⟩
    · rw [(byQueue_iff t queue.name queue).mpr ⟨hqueue, rfl⟩]
      rfl
    · simp only [deadLetterQueueOf, hsources]
      exact hs
    · obtain ⟨exchange, -, -, -, heq⟩ := hadds
      exact congrArg DeadLetterSource.queue heq

/-! ### Where the two agree -/

/-- A binding of the exchange to the queue itself. -/
def Bound (t : Topology) (exchange queue bindingKey : String) : Prop :=
  ∃ binding ∈ t.bindings, binding.source = exchange ∧ binding.destinationType = "queue" ∧
    binding.destination = queue ∧ binding.routingKey = bindingKey

/-- Another exchange takes the message to the queue. -/
def Through (t : Topology) (exchange key queue : String) : Prop :=
  ∃ binding ∈ t.bindings, binding.source = exchange ∧ binding.destinationType = "exchange" ∧
    (t.kind exchange).Routes binding.routingKey key ∧ Carries t key binding.destination queue

/-- A way to the queue that the walk does not look at: through another exchange, or by a binding
that lets the key through and is neither for it nor blank. -/
def PassedOver (t : Topology) (exchange key queue : String) : Prop :=
  Through t exchange key queue ∨ ∃ bindingKey, Bound t exchange queue bindingKey ∧
    bindingKey ≠ key ∧ bindingKey ≠ "" ∧ (t.kind exchange).Routes bindingKey key

/-- Where the walk is right about a queue, for a dead-letter exchange and the key declared with it.

Without a key, the default exchange can carry to any queue, and another one must not get to the
queue through further exchanges only.  With one, a queue that is reached past what the walk looks
at must also be bound by that key or a blank one, and one that is bound by a blank key to an
exchange that is no fanout must also be bound by that key or be reached so.  A declared key that is
blank makes the walk take every binding, and one that does not let it through must not be all there
is. -/
def WalkRight (t : Topology) (exchange : String) (key : Option String) (queue : String) : Prop :=
  match key with
  | none => exchange ≠ "" ∧ ((∃ key, Through t exchange key queue) →
      ∃ bindingKey, Bound t exchange queue bindingKey)
  | some key => exchange = "" ∨
      (key ≠ "" ∧
        (PassedOver t exchange key queue → Bound t exchange queue key ∨ Bound t exchange queue "") ∧
        (Bound t exchange queue "" → t.kind exchange = .fanout ∨ Bound t exchange queue key ∨
          PassedOver t exchange key queue)) ∨
      (key = "" ∧
        (Through t exchange "" queue → ∃ bindingKey, Bound t exchange queue bindingKey) ∧
        ((∃ bindingKey, Bound t exchange queue bindingKey ∧
            ¬ (t.kind exchange).Routes bindingKey "") →
          (∃ bindingKey, Bound t exchange queue bindingKey ∧
            (t.kind exchange).Routes bindingKey "") ∨ Through t exchange "" queue))

/-- An exchange other than the default one carries a message by a binding to the queue, or through
another exchange. -/
theorem carries_iff {exchange key name : String} (h : exchange ≠ "") :
    Carries t key exchange name ↔ (∃ bindingKey, Bound t exchange name bindingKey ∧
      (t.kind exchange).Routes bindingKey key) ∨ Through t exchange key name := by
  constructor
  · intro hcarries
    cases hcarries with
    | default => exact absurd rfl h
    | queue binding hb hs hd hr => exact .inl ⟨_, ⟨binding, hb, rfl, hd, rfl, rfl⟩, hr⟩
    | exchange binding hb hs hd hr hrest => exact .inr ⟨binding, hb, rfl, hd, hr, hrest⟩
  · rintro (⟨_, ⟨binding, hb, rfl, hd, rfl, rfl⟩, hr⟩ | ⟨binding, hb, rfl, hd, hr, hrest⟩)
    · exact .queue binding hb h hd hr
    · exact .exchange binding hb h hd hr hrest

theorem carries_default_iff {key name : String} :
    Carries t key "" name ↔ name = key ∧ ∃ queue ∈ t.queues, queue.name = key := by
  constructor
  · intro h
    generalize hexchange : "" = exchange at h
    cases h with
    | default h => exact ⟨rfl, h⟩
    | queue binding hb hs hd hr => exact absurd hexchange.symm hs
    | exchange binding hb hs hd hr hrest => exact absurd hexchange.symm hs
  · rintro ⟨rfl, h⟩
    exact .default h

theorem piece_cases (word : List Char) :
    piece word = .word word ∨ piece word = .one ∨ piece word = .many := by
  unfold piece
  split
  · exact .inr (.inl rfl)
  · split
    · exact .inr (.inr rfl)
    · exact .inl rfl

/-- A binding for the very key lets it through. -/
theorem routes_self (kind : ExchangeKind) (key : String) : kind.Routes key key := by
  cases kind with
  | direct => rfl
  | fanout => trivial
  | topic => exact match_map_self piece_cases _

/-- A blank binding key lets any other key through only where the exchange is a fanout. -/
theorem routes_blank_iff {kind : ExchangeKind} {key : String} (h : key ≠ "") :
    kind.Routes "" key ↔ kind = .fanout := by
  cases kind with
  | direct => simp [ExchangeKind.Routes, Ne.symm h]
  | fanout => simp [ExchangeKind.Routes]
  | topic =>
    have hnone : keyWords "" = [] := rfl
    have hsome : keyWords key ≠ [] := by
      rw [keyWords, if_neg h]
      exact List.splitOnP_ne_nil _ _
    simp [ExchangeKind.Routes, hnone, hsome]

/-- The targets on an exchange that is not the default one. -/
theorem mem_targets_iff {exchange key name : String} (h : exchange ≠ "") :
    name ∈ deadLetterTargets exchange key t.bindings ↔ ∃ bindingKey,
      Bound t exchange name bindingKey ∧ (key = "" ∨ bindingKey = key ∨ bindingKey = "") := by
  rw [deadLetterTargets, if_neg h, mem_boundTo]
  constructor
  · rintro ⟨binding, hb, ⟨hs, hd, htaken⟩, hname⟩
    exact ⟨_, ⟨binding, hb, hs, hd, hname, rfl⟩, htaken⟩
  · rintro ⟨_, ⟨binding, hb, hs, hd, hname, rfl⟩, htaken⟩
    exact ⟨binding, hb, ⟨hs, hd, htaken⟩, hname⟩

variable {exchange key name : String}

/-- Without a key, every binding of the exchange carries something. -/
theorem agree_undeclared (h : exchange ≠ "") :
    (name ∈ deadLetterTargets exchange "" t.bindings ↔ ∃ key, Carries t key exchange name) ↔
      ((∃ key, Through t exchange key name) → ∃ bindingKey, Bound t exchange name bindingKey) := by
  have htargets : name ∈ deadLetterTargets exchange "" t.bindings ↔
      ∃ bindingKey, Bound t exchange name bindingKey := by
    rw [mem_targets_iff h]
    simp
  rw [htargets]
  constructor
  · rintro hagree ⟨key, hthrough⟩
    exact hagree.mpr ⟨key, (carries_iff h).mpr (.inr hthrough)⟩
  · intro hbound
    constructor
    · rintro ⟨bindingKey, hb⟩
      exact ⟨bindingKey, (carries_iff h).mpr (.inl ⟨bindingKey, hb, routes_self _ _⟩)⟩
    · rintro ⟨key, hcarries⟩
      rcases (carries_iff h).mp hcarries with ⟨bindingKey, hb, -⟩ | hthrough
      · exact ⟨bindingKey, hb⟩
      · exact hbound ⟨key, hthrough⟩

theorem carries_of_passedOver (h : exchange ≠ "") (hpassed : PassedOver t exchange key name) :
    Carries t key exchange name := by
  rcases hpassed with hthrough | ⟨bindingKey, hb, -, -, hr⟩
  · exact (carries_iff h).mpr (.inr hthrough)
  · exact (carries_iff h).mpr (.inl ⟨bindingKey, hb, hr⟩)

/-- What carries a key to the queue: a binding for the key, a blank one of a fanout, or a way that
the walk passes over. -/
theorem cases_of_carries (h : exchange ≠ "") (hkey : key ≠ "") (hc : Carries t key exchange name) :
    Bound t exchange name key ∨ (Bound t exchange name "" ∧ t.kind exchange = .fanout) ∨
      PassedOver t exchange key name := by
  rcases (carries_iff h).mp hc with ⟨bindingKey, hb, hr⟩ | hthrough
  · by_cases hsame : bindingKey = key
    · exact .inl (hsame ▸ hb)
    · by_cases hblank : bindingKey = ""
      · subst hblank
        exact .inr (.inl ⟨hb, (routes_blank_iff hkey).mp hr⟩)
      · exact .inr (.inr (.inr ⟨bindingKey, hb, hsame, hblank, hr⟩))
  · exact .inr (.inr (.inl hthrough))

theorem agree_declared (h : exchange ≠ "") (hkey : key ≠ "") :
    (name ∈ deadLetterTargets exchange key t.bindings ↔ Carries t key exchange name) ↔
      (PassedOver t exchange key name → Bound t exchange name key ∨ Bound t exchange name "") ∧
        (Bound t exchange name "" → t.kind exchange = .fanout ∨ Bound t exchange name key ∨
          PassedOver t exchange key name) := by
  have htargets : name ∈ deadLetterTargets exchange key t.bindings ↔
      Bound t exchange name key ∨ Bound t exchange name "" := by
    rw [mem_targets_iff h]
    simp [hkey, and_or_left, exists_or]
  have hself : Bound t exchange name key → Carries t key exchange name := fun hb =>
    (carries_iff h).mpr (.inl ⟨key, hb, routes_self _ _⟩)
  rw [htargets]
  constructor
  · intro hagree
    refine ⟨fun hpassed => hagree.mpr (carries_of_passedOver h hpassed), fun hblank => ?_⟩
    rcases cases_of_carries h hkey (hagree.mp (.inr hblank)) with hb | ⟨-, hfanout⟩ | hpassed
    · exact .inr (.inl hb)
    · exact .inl hfanout
    · exact .inr (.inr hpassed)
  · rintro ⟨hmissed, hextra⟩
    constructor
    · rintro (hb | hblank)
      · exact hself hb
      · rcases hextra hblank with hfanout | hb | hpassed
        · exact (carries_iff h).mpr (.inl ⟨"", hblank, (routes_blank_iff hkey).mpr hfanout⟩)
        · exact hself hb
        · exact carries_of_passedOver h hpassed
    · intro hc
      rcases cases_of_carries h hkey hc with hb | ⟨hblank, -⟩ | hpassed
      · exact .inl hb
      · exact .inr hblank
      · exact hmissed hpassed

theorem agree_blank (h : exchange ≠ "") :
    (name ∈ deadLetterTargets exchange "" t.bindings ↔ Carries t "" exchange name) ↔
      (Through t exchange "" name → ∃ bindingKey, Bound t exchange name bindingKey) ∧
        ((∃ bindingKey, Bound t exchange name bindingKey ∧
            ¬ (t.kind exchange).Routes bindingKey "") →
          (∃ bindingKey, Bound t exchange name bindingKey ∧
            (t.kind exchange).Routes bindingKey "") ∨ Through t exchange "" name) := by
  have htargets : name ∈ deadLetterTargets exchange "" t.bindings ↔
      ∃ bindingKey, Bound t exchange name bindingKey := by
    rw [mem_targets_iff h]
    simp
  rw [htargets, carries_iff h]
  constructor
  · intro hagree
    exact ⟨fun hthrough => hagree.mpr (.inr hthrough),
      fun ⟨bindingKey, hb, _⟩ => hagree.mp ⟨bindingKey, hb⟩⟩
  · rintro ⟨hmissed, hextra⟩
    constructor
    · rintro ⟨bindingKey, hb⟩
      by_cases hr : (t.kind exchange).Routes bindingKey ""
      · exact .inl ⟨bindingKey, hb, hr⟩
      · exact hextra ⟨bindingKey, hb, hr⟩
    · rintro (⟨bindingKey, hb, -⟩ | hthrough)
      · exact ⟨bindingKey, hb⟩
      · exact hmissed hthrough

/-- For one exchange and the key declared with it, walk and routing agree on a queue exactly where
the walk is right. -/
theorem agree_iff (hqueue : queue ∈ t.queues) (exchange : String) (key : Option String) :
    (queue.name ∈ deadLetterTargets exchange (key.getD "") t.bindings ↔
      match key with
      | some key => Carries t key exchange queue.name
      | none => ∃ key, Carries t key exchange queue.name) ↔
        WalkRight t exchange key queue.name := by
  by_cases h : exchange = ""
  · subst h
    cases key with
    | none =>
      have hreached : ∃ key, Carries t key "" queue.name :=
        ⟨queue.name, .default ⟨queue, hqueue, rfl⟩⟩
      simp [WalkRight, deadLetterTargets, hreached]
    | some key =>
      have hnamed := t.named queue hqueue
      simp only [WalkRight, true_or, iff_true, Option.getD_some, carries_default_iff,
        deadLetterTargets, if_true]
      by_cases hkey : key = ""
      · simp [hkey, hnamed]
      · simp only [hkey, if_false, List.mem_singleton]
        exact ⟨fun he => ⟨he, queue, hqueue, he⟩, fun he => he.1⟩
  · cases key with
    | none =>
      simp only [WalkRight, ne_eq, h, not_false_eq_true, true_and, Option.getD_none]
      exact agree_undeclared h
    | some key =>
      simp only [WalkRight, h, false_or, Option.getD_some]
      by_cases hkey : key = ""
      · subst hkey
        simp only [ne_eq, not_true_eq_false, false_and, true_and, false_or]
        exact agree_blank h
      · simp only [ne_eq, hkey, not_false_eq_true, true_and, false_and, or_false]
        exact agree_declared h hkey

/-- **When the walk is right** about a queue and a source of its dead letters. -/
theorem listed_iff_feeds_iff {c : Conn} {name : String} (h : Shows c name t) :
    ∃ found, c.deadLetterQueues name = .ok found ∧
      ∀ source ∈ t.queues, ∀ queue ∈ t.queues, source.name ≠ queue.name →
        ((Lists found source queue.name ↔ Feeds t source queue.name) ↔
          ∀ exchange, stringArgument source.arguments ArgDeadLetterExchange = some exchange →
            WalkRight t exchange (stringArgument source.arguments ArgDeadLetterRoutingKey)
              queue.name) := by
  obtain ⟨found, hfound, hlists⟩ := lists_iff h
  refine ⟨found, hfound, fun source hsource queue hqueue hne => ?_⟩
  rw [hlists source hsource queue hqueue]
  have hother : queue.name ≠ source.name := Ne.symm hne
  cases hexchange : stringArgument source.arguments ArgDeadLetterExchange with
  | none => simp [Adds, Feeds, hexchange]
  | some exchange =>
    simp only [Adds, Feeds, hexchange, Option.some.injEq, exists_eq_left', forall_eq',
      exists_eq_right, hother, ne_eq, not_false_eq_true, true_and]
    exact agree_iff hqueue exchange _

/-! ### A fanout exchange -/

def ordersQueue : QueueInfo where
  name := "orders"
  vhost := "/"
  arguments := .ofList [("x-dead-letter-exchange", Argument.text "dlx"),
    ("x-dead-letter-routing-key", Argument.text "dead")]
  messagesReady := 0
  messagesUnacknowledged := 0
  consumers := 1

def graveyardQueue : QueueInfo := ⟨"graveyard", "/", ∅, 7, 0, 0⟩

/-- Orders that die go to `dlx` with the key `dead`, and the graveyard is bound there. -/
def graveyard (kind : ExchangeKind) (bindingKey : String) : Topology where
  queues := [ordersQueue, graveyardQueue]
  kind := fun _ => kind
  bindings := [⟨"dlx", "graveyard", "queue", bindingKey⟩]
  distinct := by decide
  named := by decide

def graveyardConn (t : Topology) : Conn := ⟨"/", fun _ => .ok t.queues, fun _ => .ok t.bindings⟩

theorem shows_graveyard (t : Topology) : Shows (graveyardConn t) "" t := ⟨rfl, rfl⟩

theorem orders_exchange :
    stringArgument ordersQueue.arguments ArgDeadLetterExchange = some "dlx" := by decide

theorem orders_key :
    stringArgument ordersQueue.arguments ArgDeadLetterRoutingKey = some "dead" := by decide

theorem bound_graveyard (kind : ExchangeKind) (bindingKey : String) :
    Bound (graveyard kind bindingKey) "dlx" "graveyard" bindingKey :=
  ⟨_, List.mem_singleton.mpr rfl, rfl, rfl, rfl, rfl⟩

theorem direct_graveyard_listed : ∃ found,
    (graveyardConn (graveyard .direct "dead")).deadLetterQueues "" = .ok found ∧
      (Lists found ordersQueue "graveyard" ↔
        Feeds (graveyard .direct "dead") ordersQueue "graveyard") := by
  obtain ⟨found, hfound, hright⟩ :=
    listed_iff_feeds_iff (shows_graveyard (graveyard .direct "dead"))
  refine ⟨found, hfound, (hright ordersQueue (by simp [graveyard]) graveyardQueue
    (by simp [graveyard]) (by decide)).mpr fun exchange hexchange => ?_⟩
  rw [orders_exchange] at hexchange
  obtain rfl := Option.some.inj hexchange
  rw [orders_key]
  have hbound := bound_graveyard .direct "dead"
  exact .inr (.inl ⟨by decide, fun _ => .inl hbound, fun _ => .inr (.inl hbound)⟩)

/-- **A fanout with another key** takes the message to the graveyard, and the walk lists nothing. -/
theorem fanout_graveyard_missed : ¬ ∀ (t : Topology) (c : Conn) (name : String), Shows c name t →
    ∃ found, c.deadLetterQueues name = .ok found ∧
      ∀ source ∈ t.queues, ∀ queue ∈ t.queues, source.name ≠ queue.name →
        (Lists found source queue.name ↔ Feeds t source queue.name) := by
  intro h
  obtain ⟨found, hfound, hright⟩ := h (graveyard .fanout "any") _ "" (shows_graveyard _)
  obtain ⟨listed, hlisted, hlists⟩ := lists_iff (shows_graveyard (graveyard .fanout "any"))
  obtain rfl := Except.ok.inj (hfound.symm.trans hlisted)
  have horders : ordersQueue ∈ (graveyard .fanout "any").queues := by simp [graveyard]
  have hgraveyard : graveyardQueue ∈ (graveyard .fanout "any").queues := by simp [graveyard]
  have hfeeds : Feeds (graveyard .fanout "any") ordersQueue "graveyard" := by
    refine ⟨"dlx", orders_exchange, ?_⟩
    rw [orders_key]
    exact (carries_iff (by decide)).mpr (.inl ⟨"any", bound_graveyard _ _, trivial⟩)
  obtain ⟨s, exchange, hexchange, -, hmem, -⟩ := (hlists _ horders _ hgraveyard).mp
    ((hright _ horders _ hgraveyard (by decide)).mpr hfeeds)
  rw [orders_exchange] at hexchange
  obtain rfl := Option.some.inj hexchange
  rw [orders_key] at hmem
  have hnot : "graveyard" ∉
      deadLetterTargets "dlx" "dead" (graveyard .fanout "any").bindings := by decide
  exact hnot hmem

end MqStudio.Rabbitmq.DeadLetter
