import MqStudio.Mqtt.Subscriptions

/-!
# Reading retained messages

A topic listing, the detail of one topic and the `$SYS` tree are read the same
way: a read puts its collector into the connection's one slot, subscribes to its
filter, waits while what arrives goes to the collector in the slot, and takes
its filter off the broker again.

* `World.step`: the sections of the reads and of the deliveries.
* `Unstolen`: a read that ended has what the broker replayed for its own
  subscription while it was waiting, and nothing its filter does not match.
* `unstolen_of_own`: that holds while every replay finds its own read's
  collector in the slot, and nothing else arrives that the collector takes.
* `slot_of_alone`: reads that do not overlap find their own collector.
-/

namespace MqStudio.Mqtt.Reads

open Std (ExtTreeMap)
open Lib.Maps Lib.Text Lib.Transition

/-! ### Messages -/

/-- One delivery, in the shape both client libraries can produce. -/
structure InboundMessage where
  topic : String
  payload : List UInt8
  qos : Nat
  retained : Bool
  contentType : String
  responseTopic : String
  correlationData : String
  messageExpiry : Nat
  userProperties : ExtTreeMap String String compare

def maxBodyBytes : Nat := 64 * 1024

/-- Sets an attribute that has a value. -/
def setAttribute (attributes : ExtTreeMap String String compare) (key value : String) :
    ExtTreeMap String String compare :=
  if value = "" then attributes else attributes.insert key value

def liveMessageOf (message : InboundMessage) (filter receivedAt : String) : LiveMessage :=
  let attributes : ExtTreeMap String String compare :=
    (((∅ : ExtTreeMap String String compare).insert attrQoS (toString message.qos)).insert "retained"
      (toString message.retained))
  let attributes := setAttribute attributes "contentType" message.contentType
  let attributes := setAttribute attributes "responseTopic" message.responseTopic
  let attributes := setAttribute attributes "correlationData" message.correlationData
  let attributes := if 0 < message.messageExpiry then
    attributes.insert "messageExpiry" (toString message.messageExpiry) else attributes
  { seq := 0
    destination := message.topic
    filter := filter
    receivedAt := receivedAt
    body := message.payload.take maxBodyBytes
    truncated := maxBodyBytes < message.payload.length
    attributes := message.userProperties.foldl
      (fun attributes name value => attributes.insert ("user." ++ name) value) attributes }

/-- The part of `deliver` that is for one stream: the first of its filters that matches. -/
def deliverTo (message : InboundMessage) (receivedAt : String) (live : Stream) : Stream :=
  match live.filters.find? fun filter => matchesFilter filter.pattern message.topic with
  | some filter => live.append (liveMessageOf message filter.pattern receivedAt)
  | none => live

/-! ### Collectors -/

/-- What a read asks for. -/
inductive Kind where
  | listing
  | detail (name : String)
  | sys
deriving DecidableEq

/-- The filter a read subscribes to. -/
def Kind.filter : Kind → String
  | .listing => "#"
  | .detail name => name
  | .sys => "$SYS/#"

/-- A `$SYS` read takes live publishes as well as retained ones. -/
def Kind.anyMessage : Kind → Bool
  | .sys => true
  | _ => false

/-- A topic to inspect has a name without wildcards. -/
def Kind.valid : Kind → Bool
  | .detail name => name ≠ "" && !containsWildcard name
  | _ => true

/-- `maxDiscovered` bounds a listing on a broker with a very large retained set. -/
def maxDiscovered : Nat := 5000

abbrev Collected := ExtTreeMap String InboundMessage compare

/-- Gathers a retained replay. -/
structure Collector where
  messages : Collected
  truncated : Bool
  anyMessage : Bool

def Collector.accept (c : Collector) (message : InboundMessage) : Collector :=
  if !message.retained && !c.anyMessage then c
  else if maxDiscovered ≤ c.messages.size then { c with truncated := true }
  else { c with messages := c.messages.insert message.topic message }

/-- The collector stores the message. -/
def Collector.stores (c : Collector) (message : InboundMessage) : Bool :=
  (message.retained || c.anyMessage) && decide (c.messages.size < maxDiscovered)

theorem Collector.accept_anyMessage (c : Collector) (message : InboundMessage) :
    (c.accept message).anyMessage = c.anyMessage := by
  rw [Collector.accept]
  split_ifs <;> rfl

theorem Collector.accept_messages (c : Collector) (message : InboundMessage) :
    (c.accept message).messages =
      if c.stores message then c.messages.insert message.topic message else c.messages := by
  rw [Collector.accept]
  by_cases ht : (message.retained || c.anyMessage) = true
  · by_cases hs : c.messages.size < maxDiscovered
    · rw [if_neg (by grind), if_neg (by omega), if_pos (by simp [stores, ht, hs])]
    · rw [if_neg (by grind), if_pos (by omega), if_neg (by simp [stores, hs])]
  · rw [if_pos (by simpa using ht), if_neg (by simp [stores, ht])]

theorem Collector.size_le_accept (c : Collector) (message : InboundMessage) :
    c.messages.size ≤ (c.accept message).messages.size := by
  rw [accept_messages]
  split
  · exact ExtTreeMap.size_le_size_insert
  · exact le_rfl

/-- What a `$SYS` read makes of the replay: every value, and whether the tree is Mosquitto's. -/
def sysTree (collected : Collected) : ExtTreeMap String (List UInt8) compare × Bool :=
  (collected.map fun _ message => message.payload,
    collected.keys.any fun topic => hasPrefix topic "$SYS/broker/")

/-! ### Calls -/

/-- Where a read is.  Its outcome is what it collected, or nothing where it failed. -/
inductive Read where
  | idle
  | entering (kind : Kind)
  | subscribing (kind : Kind)
  | waiting (kind : Kind)
  | lettingGo (kind : Kind) (outcome : Option Collected)
  | unsubscribing (kind : Kind) (outcome : Option Collected)
  | leaving (kind : Kind) (outcome : Option Collected)
  | left (kind : Kind) (outcome : Option Collected)

/-- Where a delivery is: the collector it found in the slot, then the streams. -/
inductive Delivery where
  | idle
  | found (message : InboundMessage) (cause slot : Option Nat)
  | streaming (message : InboundMessage)

/-- One connection and the reads and deliveries on it.  A message that the broker replays for the
subscription of a read is noted for that read; what a collector stored is noted in order. -/
structure World where
  streams : ExtTreeMap String Stream compare
  broker : ExtTreeMap String Nat compare
  collector : Option Nat
  collectors : Nat → Collector
  reads : Nat → Read
  deliveries : Nat → Delivery
  replayed : Nat → List InboundMessage
  accepted : Nat → List InboundMessage

/-- A connection with some streams, before any read. -/
def World.new (streams : ExtTreeMap String Stream compare) (broker : ExtTreeMap String Nat compare) :
    World :=
  ⟨streams, broker, none, fun _ => ⟨∅, false, false⟩, fun _ => .idle, fun _ => .idle, fun _ => [],
    fun _ => []⟩

def World.setRead (w : World) (r : Nat) (read : Read) : World :=
  { w with reads := Function.update w.reads r read }

def World.setDelivery (w : World) (d : Nat) (delivery : Delivery) : World :=
  { w with deliveries := Function.update w.deliveries d delivery }

/-- The broker is replaying what it retained for the read. -/
def Read.isOpen : Read → Bool
  | .subscribing _ | .waiting _ => true
  | _ => false

def Read.kind : Read → Option Kind
  | .idle => none
  | .entering kind | .subscribing kind | .waiting kind | .lettingGo kind _ | .unsubscribing kind _
  | .leaving kind _ | .left kind _ => some kind

/-- A retained message that is delivered for a read's subscription. -/
def Read.replays (read : Read) (message : InboundMessage) : Bool :=
  read.isOpen && message.retained &&
    (read.kind.map fun kind => matchesFilter kind.filter message.topic).getD false

inductive Label where
  | read (r : Nat) (kind : Kind)
  | enter (r : Nat)
  | subscribe (r : Nat) (accepted : Bool)
  /-- The wait ends by silence, or with the caller's context. -/
  | collect (r : Nat) (cancelled : Bool)
  /-- Whether a live stream still wants the filter. -/
  | check (r : Nat)
  | unsubscribe (r : Nat) (accepted : Bool)
  | leave (r : Nat)
  /-- A message arrives, and the delivery looks the slot up. -/
  | arrive (d : Nat) (message : InboundMessage) (cause : Option Nat)
  | accept (d : Nat)
  | stream (d : Nat) (receivedAt : String)

def World.enter (w : World) (r : Nat) (kind : Kind) : World :=
  { w with collector := some r
           collectors := Function.update w.collectors r ⟨∅, false, kind.anyMessage⟩ }.setRead r
    (.subscribing kind)

def World.collect (w : World) (r : Nat) (kind : Kind) (cancelled : Bool) : World :=
  w.setRead r (.lettingGo kind (if cancelled then none else some (w.collectors r).messages))

/-- The subscription of a read stays where a live stream wants it, except that of `$SYS`. -/
def World.check (w : World) (r : Nat) (kind : Kind) (outcome : Option Collected) : World :=
  w.setRead r (if kind ≠ .sys ∧ filterInUse w.streams kind.filter then .leaving kind outcome
    else .unsubscribing kind outcome)

def World.arrive (w : World) (d : Nat) (message : InboundMessage) (cause : Option Nat) : World :=
  { w with replayed := match cause with
      | some r => Function.update w.replayed r (w.replayed r ++ [message])
      | none => w.replayed }.setDelivery d (.found message cause w.collector)

def World.accept (w : World) (d : Nat) (message : InboundMessage) : Option Nat → World
  | none => w.setDelivery d (.streaming message)
  | some r =>
    { w with
      collectors := Function.update w.collectors r ((w.collectors r).accept message)
      accepted := if (w.collectors r).stores message then
        Function.update w.accepted r (w.accepted r ++ [message]) else w.accepted }.setDelivery d
      (.streaming message)

def Read.isIdle : Read → Bool
  | .idle => true
  | _ => false

def Delivery.isIdle : Delivery → Bool
  | .idle => true
  | _ => false

def World.step (w : World) : Label → Option World
  | .read r kind =>
    if (w.reads r).isIdle then
      some (w.setRead r (if kind.valid then .entering kind else .left kind none))
    else none
  | .enter r =>
    match w.reads r with
    | .entering kind => some (w.enter r kind)
    | _ => none
  | .subscribe r accepted =>
    match w.reads r with
    | .subscribing kind =>
      some (if accepted then
        { w with broker := w.broker.insert kind.filter 0 }.setRead r (.waiting kind)
      else w.setRead r (.leaving kind none))
    | _ => none
  | .collect r cancelled =>
    match w.reads r with
    | .waiting kind => some (w.collect r kind cancelled)
    | _ => none
  | .check r =>
    match w.reads r with
    | .lettingGo kind outcome => some (w.check r kind outcome)
    | _ => none
  | .unsubscribe r accepted =>
    match w.reads r with
    | .unsubscribing kind outcome =>
      some ({ w with broker := if accepted then w.broker.erase kind.filter else w.broker }.setRead r
        (.leaving kind outcome))
    | _ => none
  | .leave r =>
    match w.reads r with
    | .leaving kind outcome => some ({ w with collector := none }.setRead r (.left kind outcome))
    | _ => none
  | .arrive d message cause =>
    if (w.deliveries d).isIdle &&
        (cause.map fun r => (w.reads r).replays message).getD true then
      some (w.arrive d message cause)
    else none
  | .accept d =>
    match w.deliveries d with
    | .found message _ slot => some (w.accept d message slot)
    | _ => none
  | .stream d receivedAt =>
    match w.deliveries d with
    | .streaming message =>
      some ({ w with streams := w.streams.map fun _ => deliverTo message receivedAt }.setDelivery d
        .idle)
    | _ => none

def reading : System World Label where
  Init w := ∃ streams broker, w = World.new streams broker
  Step w label v := w.step label = some v

/-! ### What a read ends with -/

/-- The kind of a read whose collector has been in the slot. -/
def Read.entered : Read → Option Kind
  | .idle | .entering _ => none
  | .subscribing kind | .waiting kind | .lettingGo kind _ | .unsubscribing kind _ | .leaving kind _
  | .left kind _ => some kind

/-- What a read collected, once it has ended its wait. -/
def Read.outcome : Read → Option (Kind × Collected)
  | .lettingGo kind outcome | .unsubscribing kind outcome | .leaving kind outcome
  | .left kind outcome => outcome.map fun collected => (kind, collected)
  | _ => none

/-- Messages by topic, where a later one takes the place of an earlier one. -/
def latest (log : List InboundMessage) : Collected :=
  log.foldl (fun collected message => collected.insert message.topic message) ∅

theorem latest_concat (log : List InboundMessage) (message : InboundMessage) :
    latest (log ++ [message]) = (latest log).insert message.topic message := by
  rw [latest, List.foldl_append]
  rfl

theorem mem_of_latest {log : List InboundMessage} {topic : String} {message : InboundMessage}
    (h : (latest log)[topic]? = some message) : message ∈ log ∧ message.topic = topic := by
  induction log using List.reverseRecOn with
  | nil => simp [latest] at h
  | append_singleton log last ih =>
    rw [latest_concat, getElem?_insert] at h
    split at h
    · rename_i ht
      obtain rfl := Option.some.inj h
      exact ⟨by simp, ht⟩
    · exact ⟨List.mem_append_left _ (ih h).1, (ih h).2⟩

/-- What the broker replayed for a read's own subscription while it was waiting is in its result, up
to later messages of the same topic, and nothing else than its filter matches. -/
structure World.Unstolen (w : World) : Prop where
  complete : ∀ r kind result, (w.reads r).outcome = some (kind, result) →
    result.size < maxDiscovered →
    ∃ log, log <+: w.accepted r ∧ result = latest log ∧ ∀ message ∈ w.replayed r, message ∈ log
  own : ∀ r kind result, (w.reads r).outcome = some (kind, result) →
    ∀ (topic : String) (message : InboundMessage), result[topic]? = some message →
      matchesFilter kind.filter topic = true

/-- A collector would take the message. -/
def Kind.takes (kind : Kind) (message : InboundMessage) : Bool :=
  message.retained || kind.anyMessage

/-- The reads keep to their own: a message replayed for a read's subscription finds the collector of
that read in the slot, a message that the collector of a waiting read takes is one its filter
matches, and no read ends its wait between the lookup and the collector for a message of its own. -/
def Own (w : World) : Label → Prop
  | .arrive _ message cause =>
    (∀ r, cause = some r → w.collector = some r) ∧
    ∀ r kind, w.collector = some r → (w.reads r).isOpen = true → (w.reads r).kind = some kind →
      kind.takes message = true → matchesFilter kind.filter message.topic = true
  | .collect r _ => ∀ d message, w.deliveries d ≠ .found message (some r) (some r)
  | _ => True

/-- The result of a read that has ended its wait. -/
structure World.Settled (w : World) (r : Nat) (kind : Kind) (result : Collected)
    (log : List InboundMessage) : Prop where
  put : log <+: w.accepted r
  eq : result = latest log
  own : ∀ message ∈ log, matchesFilter kind.filter message.topic = true
  complete : result.size < maxDiscovered → ∀ message ∈ w.replayed r, message ∈ log

/-- What holds while the reads keep to their own. -/
structure World.Sound (w : World) : Prop where
  fresh : ∀ r, (w.reads r).entered = none →
    w.replayed r = [] ∧ w.accepted r = [] ∧ w.collectors r = ⟨∅, false, false⟩
  slot : ∀ r, w.collector = some r → (w.reads r).entered ≠ none
  found : ∀ d message cause r, w.deliveries d = .found message cause (some r) →
    (w.reads r).entered ≠ none
  caused : ∀ d message r slot, w.deliveries d = .found message (some r) slot →
    message.retained = true ∧ slot = some r
  collected : ∀ r, (w.collectors r).messages = latest (w.accepted r)
  takes : ∀ r kind, (w.reads r).entered = some kind →
    (w.collectors r).anyMessage = kind.anyMessage
  own : ∀ r kind, (w.reads r).isOpen = true → (w.reads r).entered = some kind →
    (∀ message ∈ w.accepted r, matchesFilter kind.filter message.topic = true) ∧
    ∀ d message cause, w.deliveries d = .found message cause (some r) →
      kind.takes message = true → matchesFilter kind.filter message.topic = true
  pending : ∀ r, (w.reads r).isOpen = true → ∀ message ∈ w.replayed r,
    message ∈ w.accepted r ∨ (∃ d, w.deliveries d = .found message (some r) (some r)) ∨
      maxDiscovered ≤ (w.collectors r).messages.size
  settled : ∀ r kind result, (w.reads r).outcome = some (kind, result) →
    ∃ log, w.Settled r kind result log

theorem World.Sound.unstolen {w : World} (h : w.Sound) : w.Unstolen := by
  constructor
  · intro r kind result hout hsize
    obtain ⟨log, hlog⟩ := h.settled r kind result hout
    exact ⟨log, hlog.put, hlog.eq, hlog.complete hsize⟩
  · intro r kind result hout topic message hm
    obtain ⟨log, hlog⟩ := h.settled r kind result hout
    rw [hlog.eq] at hm
    obtain ⟨hmem, rfl⟩ := mem_of_latest hm
    exact hlog.own message hmem

theorem sound_new (streams : ExtTreeMap String Stream compare)
    (broker : ExtTreeMap String Nat compare) : (World.new streams broker).Sound where
  fresh _ _ := ⟨rfl, rfl, rfl⟩
  slot := nofun
  found := nofun
  caused := nofun
  collected _ := rfl
  takes := nofun
  own := nofun
  pending := nofun
  settled := nofun

/-! ### Steps -/

variable {w v : World} {r d : Nat}

theorem World.Settled.of_eq {kind : Kind} {result : Collected} {log : List InboundMessage}
    (h : w.Settled r kind result log) (ha : v.accepted r = w.accepted r)
    (hr : v.replayed r = w.replayed r) : v.Settled r kind result log :=
  ⟨ha ▸ h.put, h.eq, h.own, hr ▸ h.complete⟩

/-- A read gets on without touching its collector. -/
theorem World.Sound.setRead (h : w.Sound) {read : Read}
    (hk : read.entered = none → (w.reads r).entered = none)
    (ht : ∀ kind, read.entered = some kind → (w.collectors r).anyMessage = kind.anyMessage)
    (ho : read.isOpen = true → (w.reads r).isOpen = true ∧ (w.reads r).entered = read.entered)
    (hout : ∀ kind result, read.outcome = some (kind, result) →
      ∃ log, w.Settled r kind result log) : (w.setRead r read).Sound := by
  have hself : (w.setRead r read).reads r = read := by simp [World.setRead]
  have hother : ∀ i, i ≠ r → (w.setRead r read).reads i = w.reads i := by
    intro i hi
    simp [World.setRead, hi]
  have hnone : ∀ i, ((w.setRead r read).reads i).entered = none → (w.reads i).entered = none := by
    intro i
    by_cases hi : i = r
    · subst hi
      rwa [hself]
    · rw [hother i hi]
      exact id
  have hopen : ∀ i, ((w.setRead r read).reads i).isOpen = true →
      (w.reads i).isOpen = true ∧ (w.reads i).entered = ((w.setRead r read).reads i).entered := by
    intro i
    by_cases hi : i = r
    · subst hi
      rwa [hself]
    · rw [hother i hi]
      exact fun ho => ⟨ho, rfl⟩
  refine ⟨fun i hi => h.fresh i (hnone i hi), fun i hi hn => h.slot i hi (hnone i hn),
    fun j message cause i hj hn => h.found j message cause i hj (hnone i hn), h.caused, h.collected,
    fun i kind hi => ?_, fun i kind ho hi => h.own i kind (hopen i ho).1 ((hopen i ho).2.trans hi),
    fun i hi => h.pending i (hopen i hi).1, fun i kind result hi => ?_⟩
  · by_cases hir : i = r
    · subst hir
      exact ht kind (hself ▸ hi)
    · exact h.takes i kind (hother i hir ▸ hi)
  · by_cases hir : i = r
    · subst hir
      obtain ⟨log, hlog⟩ := hout kind result (hself ▸ hi)
      exact ⟨log, hlog.of_eq rfl rfl⟩
    · obtain ⟨log, hlog⟩ := h.settled i kind result (hother i hir ▸ hi)
      exact ⟨log, hlog.of_eq rfl rfl⟩

/-- A read that has taken the slot gets on. -/
theorem World.Sound.advance (h : w.Sound) {read : Read} (hk : read.entered = (w.reads r).entered)
    (ho : read.isOpen = true → (w.reads r).isOpen = true)
    (hout : ∀ kind result, read.outcome = some (kind, result) →
      ∃ log, w.Settled r kind result log) : (w.setRead r read).Sound :=
  h.setRead (hk ▸ id) (fun kind he => h.takes r kind (hk ▸ he)) (fun hr => ⟨ho hr, hk.symm⟩) hout

/-- What the reads rely on is not the streams, nor the broker, nor the slot but for whose it is. -/
theorem World.Sound.withSlot (h : w.Sound) (streams : ExtTreeMap String Stream compare)
    (broker : ExtTreeMap String Nat compare) (slot : Option Nat)
    (hs : ∀ r, slot = some r → w.collector = some r) :
    { w with streams := streams, broker := broker, collector := slot }.Sound where
  fresh := h.fresh
  slot r hr := h.slot r (hs r hr)
  found := h.found
  caused := h.caused
  collected := h.collected
  takes := h.takes
  own := h.own
  pending := h.pending
  settled r kind result hr := by
    obtain ⟨log, hlog⟩ := h.settled r kind result hr
    exact ⟨log, hlog.of_eq rfl rfl⟩

theorem World.Sound.withDelivery (h : w.Sound) {delivery : Delivery}
    (hd : ∀ message r, w.deliveries d ≠ .found message (some r) (some r))
    (hv : ∀ message cause slot, delivery ≠ .found message cause slot) :
    (w.setDelivery d delivery).Sound := by
  have hfound : ∀ j message cause slot,
      (w.setDelivery d delivery).deliveries j = .found message cause slot →
        w.deliveries j = .found message cause slot := by
    intro j message cause slot hj
    by_cases hjd : j = d
    · subst hjd
      exact absurd (by simpa [World.setDelivery] using hj) (hv message cause slot)
    · simpa [World.setDelivery, hjd] using hj
  refine ⟨h.fresh, h.slot, fun j message cause r hj => h.found j message cause r (hfound _ _ _ _ hj),
    fun j message r slot hj => h.caused j message r slot (hfound _ _ _ _ hj), h.collected, h.takes,
    fun r kind ho hr => ⟨(h.own r kind ho hr).1, fun j message cause hj =>
      (h.own r kind ho hr).2 j message cause (hfound _ _ _ _ hj)⟩, ?_, ?_⟩
  · intro r ho message hm
    obtain ha | ⟨j, hj⟩ | hfull := h.pending r ho message hm
    · exact .inl ha
    · refine .inr (.inl ⟨j, ?_⟩)
      have hjd : j ≠ d := by
        rintro rfl
        exact hd _ _ hj
      simpa [World.setDelivery, hjd] using hj
    · exact .inr (.inr hfull)
  · intro r kind result hr
    obtain ⟨log, hlog⟩ := h.settled r kind result hr
    exact ⟨log, hlog.of_eq rfl rfl⟩

/-- A read takes the slot. -/
theorem World.Sound.enter (h : w.Sound) {kind : Kind} (hr : w.reads r = .entering kind) :
    (w.enter r kind).Sound := by
  obtain ⟨hrep, hacc, -⟩ := h.fresh r (by rw [hr]; rfl)
  have hread : ∀ i, i ≠ r → (w.enter r kind).reads i = w.reads i := by
    intro i hi
    simp [World.enter, World.setRead, hi]
  have hself : (w.enter r kind).reads r = .subscribing kind := by
    simp [World.enter, World.setRead]
  have hcoll : ∀ i, i ≠ r → (w.enter r kind).collectors i = w.collectors i := by
    intro i hi
    simp [World.enter, World.setRead, hi]
  have hcself : (w.enter r kind).collectors r = ⟨∅, false, kind.anyMessage⟩ := by
    simp [World.enter, World.setRead]
  have hnone : ∀ d message cause, w.deliveries d ≠ .found message cause (some r) := by
    intro d message cause hd
    exact h.found d message cause r hd (by rw [hr]; rfl)
  constructor
  · intro i hi
    have hir : i ≠ r := by
      rintro rfl
      rw [hself] at hi
      exact absurd hi (by simp [Read.entered])
    rw [hread i hir] at hi
    rw [hcoll i hir]
    exact h.fresh i hi
  · intro i hi
    obtain rfl : r = i := Option.some.inj hi
    simp [hself, Read.entered]
  · intro d message cause i hd
    have hir : i ≠ r := by
      rintro rfl
      exact hnone d message cause hd
    rw [hread i hir]
    exact h.found d message cause i hd
  · exact h.caused
  · intro i
    by_cases hir : i = r
    · subst hir
      rw [hcself]
      show ∅ = latest (w.accepted i)
      rw [hacc]
      rfl
    · rw [hcoll i hir]
      exact h.collected i
  · intro i kind' hi
    by_cases hir : i = r
    · subst hir
      rw [hself] at hi
      obtain rfl : kind = kind' := Option.some.inj hi
      rw [hcself]
    · rw [hread i hir] at hi
      rw [hcoll i hir]
      exact h.takes i kind' hi
  · intro i kind' ho hi
    by_cases hir : i = r
    · subst hir
      refine ⟨fun message hm => ?_, fun d message cause hd => absurd hd (hnone d message cause)⟩
      exact absurd (show message ∈ w.accepted i from hm) (by simp [hacc])
    · rw [hread i hir] at ho hi
      exact h.own i kind' ho hi
  · intro i ho message hm
    by_cases hir : i = r
    · subst hir
      exact absurd (show message ∈ w.replayed i from hm) (by simp [hrep])
    · rw [hread i hir] at ho
      rw [hcoll i hir]
      exact h.pending i ho message hm
  · intro i kind' result hi
    by_cases hir : i = r
    · subst hir
      rw [hself] at hi
      exact absurd hi (by simp [Read.outcome])
    · rw [hread i hir] at hi
      obtain ⟨log, hlog⟩ := h.settled i kind' result hi
      exact ⟨log, hlog.of_eq rfl rfl⟩

/-- A read ends its wait, and all that was replayed for it has reached its collector. -/
theorem World.Sound.collect (h : w.Sound) {kind : Kind} {cancelled : Bool}
    (hr : w.reads r = .waiting kind)
    (hd : ∀ d message, w.deliveries d ≠ .found message (some r) (some r)) :
    (w.collect r kind cancelled).Sound := by
  refine h.advance (by rw [hr]; rfl) (by simp [Read.isOpen]) ?_
  intro kind' result hout
  cases cancelled with
  | true => exact absurd hout (by simp [Read.outcome])
  | false =>
    obtain ⟨rfl, rfl⟩ : kind = kind' ∧ (w.collectors r).messages = result := by
      simpa [Read.outcome] using hout
    have ho : (w.reads r).isOpen = true := by rw [hr]; rfl
    refine ⟨w.accepted r, List.prefix_rfl, h.collected r,
      (h.own r kind ho (by rw [hr]; rfl)).1, fun hsize message hm => ?_⟩
    obtain ha | ⟨d, hfound⟩ | hfull := h.pending r ho message hm
    · exact ha
    · exact absurd hfound (hd d message)
    · omega

theorem Read.kind_of_entered {read : Read} {kind : Kind} (h : read.entered = some kind) :
    read.kind = some kind := by
  cases read <;> first | exact h | cases h

theorem Read.outcome_of_isOpen {read : Read} (h : read.isOpen = true) : read.outcome = none := by
  cases read <;> first | rfl | cases h

/-- A message arrives, and the delivery finds the collector in the slot. -/
theorem World.Sound.arrive (h : w.Sound) {message : InboundMessage} {cause : Option Nat}
    (hd : (w.deliveries d).isIdle = true)
    (hc : ∀ r, cause = some r → (w.reads r).replays message = true)
    (hown : Own w (.arrive d message cause)) : (w.arrive d message cause).Sound := by
  obtain ⟨hslot, htakes⟩ := hown
  have hcause : ∀ r, cause = some r → (w.reads r).isOpen = true ∧ message.retained = true := by
    intro r hr
    have := hc r hr
    simp only [Read.replays, Bool.and_eq_true] at this
    exact this.1
  have hself : (w.arrive d message cause).deliveries d = .found message cause w.collector := by
    simp [World.arrive, World.setDelivery]
  have hother : ∀ j, j ≠ d → (w.arrive d message cause).deliveries j = w.deliveries j := by
    intro j hj
    simp [World.arrive, World.setDelivery, hj]
  have hrep : ∀ i, cause ≠ some i → (w.arrive d message cause).replayed i = w.replayed i := by
    intro i hi
    cases cause with
    | none => rfl
    | some r =>
      have hir : i ≠ r := fun he => hi (by rw [he])
      simp [World.arrive, World.setDelivery, hir]
  have hmem : ∀ i m, m ∈ (w.arrive d message cause).replayed i →
      m ∈ w.replayed i ∨ (m = message ∧ cause = some i) := by
    intro i m hm
    by_cases hi : cause = some i
    · subst hi
      simpa [World.arrive, World.setDelivery] using hm
    · exact .inl (hrep i hi ▸ hm)
  refine ⟨fun i hi => ?_, h.slot, ?_, ?_, h.collected, h.takes, ?_, ?_, ?_⟩
  · have hne : cause ≠ some i := fun he => h.slot i (hslot i he) hi
    rw [hrep i hne]
    exact h.fresh i hi
  · intro j m cause' i hj
    by_cases hjd : j = d
    · subst hjd
      rw [hself] at hj
      exact h.slot i (by injection hj)
    · exact h.found j m cause' i (hother j hjd ▸ hj)
  · intro j m i slot hj
    by_cases hjd : j = d
    · subst hjd
      rw [hself] at hj
      injection hj with hm hi hs
      subst hm hs
      exact ⟨(hcause i hi).2, hslot i hi⟩
    · exact h.caused j m i slot (hother j hjd ▸ hj)
  · intro i kind ho hi
    refine ⟨(h.own i kind ho hi).1, fun j m cause' hj => ?_⟩
    by_cases hjd : j = d
    · subst hjd
      rw [hself] at hj
      injection hj with hm hi' hs
      subst hm
      exact htakes i kind hs ho (Read.kind_of_entered hi)
    · exact (h.own i kind ho hi).2 j m cause' (hother j hjd ▸ hj)
  · intro i ho m hm
    obtain hm | ⟨rfl, hi⟩ := hmem i m hm
    · obtain ha | ⟨j, hj⟩ | hfull := h.pending i ho m hm
      · exact .inl ha
      · have hjd : j ≠ d := by
          rintro rfl
          rw [hj] at hd
          cases hd
        exact .inr (.inl ⟨j, (hother j hjd).trans hj⟩)
      · exact .inr (.inr hfull)
    · exact .inr (.inl ⟨d, by rw [hself, hi, hslot i hi]⟩)
  · intro i kind result hi
    have hne : cause ≠ some i := by
      intro he
      have := Read.outcome_of_isOpen (hcause i he).1
      rw [show (w.reads i).outcome = some (kind, result) from hi] at this
      cases this
    obtain ⟨log, hlog⟩ := h.settled i kind result hi
    exact ⟨log, hlog.of_eq rfl (hrep i hne)⟩

/-- The collector that was found gets the message. -/
theorem World.Sound.accept (h : w.Sound) {message : InboundMessage} {cause : Option Nat}
    (hd : w.deliveries d = .found message cause (some r)) :
    (w.accept d message (some r)).Sound := by
  have hself : (w.accept d message (some r)).deliveries d = .streaming message := by
    simp [World.accept, World.setDelivery]
  have hback : ∀ j m cause' slot, (w.accept d message (some r)).deliveries j = .found m cause' slot →
      w.deliveries j = .found m cause' slot := by
    intro j m cause' slot hj
    have hjd : j ≠ d := by
      rintro rfl
      rw [hself] at hj
      cases hj
    simpa [World.accept, World.setDelivery, hjd] using hj
  have hcoll : ∀ i, i ≠ r → (w.accept d message (some r)).collectors i = w.collectors i ∧
      (w.accept d message (some r)).accepted i = w.accepted i := by
    intro i hi
    constructor
    · simp [World.accept, World.setDelivery, hi]
    · simp only [World.accept, World.setDelivery]
      split
      · simp [hi]
      · rfl
  have hcself : (w.accept d message (some r)).collectors r = (w.collectors r).accept message := by
    simp [World.accept, World.setDelivery]
  have haself : (w.accept d message (some r)).accepted r =
      if (w.collectors r).stores message then w.accepted r ++ [message] else w.accepted r := by
    simp only [World.accept, World.setDelivery]
    split <;> simp
  have hput : ∀ i, w.accepted i <+: (w.accept d message (some r)).accepted i := by
    intro i
    by_cases hir : i = r
    · subst hir
      rw [haself]
      split
      · exact List.prefix_append _ _
      · exact List.prefix_rfl
    · rw [(hcoll i hir).2]
  refine ⟨fun i hi => ?_, h.slot, fun j m cause' i hj => h.found j m cause' i (hback _ _ _ _ hj),
    fun j m i slot hj => h.caused j m i slot (hback _ _ _ _ hj), fun i => ?_, fun i kind hi => ?_,
    fun i kind ho hi => ?_, fun i ho m hm => ?_, fun i kind result hi => ?_⟩
  · have hir : i ≠ r := by
      rintro rfl
      exact h.found d message cause i hd hi
    rw [(hcoll i hir).1, (hcoll i hir).2]
    exact h.fresh i hi
  · by_cases hir : i = r
    · subst hir
      rw [hcself, haself, Collector.accept_messages, h.collected i]
      split
      · rw [latest_concat]
      · rfl
    · rw [(hcoll i hir).1, (hcoll i hir).2]
      exact h.collected i
  · by_cases hir : i = r
    · subst hir
      rw [hcself, Collector.accept_anyMessage]
      exact h.takes i kind hi
    · rw [(hcoll i hir).1]
      exact h.takes i kind hi
  · obtain ⟨hacc, hfound⟩ := h.own i kind ho hi
    refine ⟨fun m hm => ?_, fun j m cause' hj => hfound j m cause' (hback _ _ _ _ hj)⟩
    by_cases hir : i = r
    · subst hir
      rw [haself] at hm
      split at hm
      · rename_i hstores
        obtain hm | rfl := List.mem_append.mp hm |>.imp_right List.mem_singleton.mp
        · exact hacc m hm
        · refine hfound d m cause hd ?_
          have ht := h.takes i kind hi
          simp only [Collector.stores, Bool.and_eq_true, ht] at hstores
          exact hstores.1
      · exact hacc m hm
    · exact hacc m ((hcoll i hir).2 ▸ hm)
  · obtain ha | ⟨j, hj⟩ | hfull := h.pending i ho m hm
    · exact .inl ((hput i).subset ha)
    · by_cases hjd : j = d
      · subst hjd
        rw [hd] at hj
        injection hj with hmm hcause hir
        obtain rfl : r = i := Option.some.inj hir
        subst hmm hcause
        have hret := (h.caused j _ r _ hd).1
        by_cases hs : (w.collectors r).messages.size < maxDiscovered
        · left
          rw [haself, if_pos (by simp [Collector.stores, hret, hs])]
          simp
        · right; right
          rw [hcself]
          have := (w.collectors r).size_le_accept message
          omega
      · refine .inr (.inl ⟨j, ?_⟩)
        simpa [World.accept, World.setDelivery, hjd] using hj
    · right; right
      by_cases hir : i = r
      · subst hir
        rw [hcself]
        have := (w.collectors i).size_le_accept message
        omega
      · rw [(hcoll i hir).1]
        exact hfull
  · obtain ⟨log, hlog⟩ := h.settled i kind result hi
    exact ⟨log, hlog.put.trans (hput i), hlog.eq, hlog.own, hlog.complete⟩

/-- A read that has ended its wait lets go, with the result it has. -/
theorem World.Sound.letGo (h : w.Sound) {read : Read} (hk : read.entered = (w.reads r).entered)
    (ho : read.isOpen = false) (hout : read.outcome = (w.reads r).outcome) :
    (w.setRead r read).Sound :=
  h.advance hk (fun hr => absurd hr (by simp [ho])) fun kind result hr =>
    h.settled r kind result (hout ▸ hr)

/-- **Every section of the reads and of the deliveries keeps what they rely on.** -/
theorem sound_step {label : Label} (h : w.Sound) (hs : w.step label = some v)
    (hown : Own w label) : v.Sound := by
  cases label with
  | read r kind =>
    simp only [World.step, Option.ite_none_right_eq_some] at hs
    obtain ⟨hidle, hv⟩ := hs
    obtain rfl := Option.some.inj hv
    have hnone : (w.reads r).entered = none := by
      cases hr : w.reads r <;> simp_all [Read.isIdle, Read.entered]
    split
    · exact h.setRead (fun _ => hnone) nofun nofun nofun
    · rename_i hvalid
      refine h.setRead (fun _ => hnone) (fun kind' hk => ?_) nofun nofun
      obtain rfl : kind = kind' := Option.some.inj hk
      rw [(h.fresh r hnone).2.2]
      cases kind <;> first | rfl | simp [Kind.valid] at hvalid
  | enter r =>
    cases hr : w.reads r <;> simp only [World.step, hr, reduceCtorEq] at hs
    exact Option.some.inj hs ▸ h.enter hr
  | subscribe r accepted =>
    cases hr : w.reads r <;> simp only [World.step, hr, reduceCtorEq] at hs
    rename_i kind
    obtain rfl := Option.some.inj hs
    split
    · refine (h.withSlot w.streams (w.broker.insert kind.filter 0) w.collector
          fun _ => id).advance ?_ ?_ ?_
      · show _ = (w.reads r).entered
        rw [hr]
        rfl
      · intro _
        show (w.reads r).isOpen = true
        rw [hr]
        rfl
      · simp [Read.outcome]
    · refine h.advance (by rw [hr]; rfl) (by simp [Read.isOpen]) (by simp [Read.outcome])
  | collect r cancelled =>
    cases hr : w.reads r <;> simp only [World.step, hr, reduceCtorEq] at hs
    exact Option.some.inj hs ▸ h.collect hr hown
  | check r =>
    cases hr : w.reads r <;> simp only [World.step, hr, reduceCtorEq] at hs
    obtain rfl := Option.some.inj hs
    unfold World.check
    split <;> exact h.letGo (by rw [hr]; rfl) rfl (by rw [hr]; rfl)
  | unsubscribe r accepted =>
    cases hr : w.reads r <;> simp only [World.step, hr, reduceCtorEq] at hs
    obtain rfl := Option.some.inj hs
    refine (h.withSlot w.streams _ w.collector fun _ => id).letGo ?_ rfl ?_
    · show _ = (w.reads r).entered
      rw [hr]
      rfl
    · show _ = (w.reads r).outcome
      rw [hr]
      rfl
  | leave r =>
    cases hr : w.reads r <;> simp only [World.step, hr, reduceCtorEq] at hs
    obtain rfl := Option.some.inj hs
    refine (h.withSlot w.streams w.broker none nofun).letGo ?_ rfl ?_
    · show _ = (w.reads r).entered
      rw [hr]
      rfl
    · show _ = (w.reads r).outcome
      rw [hr]
      rfl
  | arrive d message cause =>
    simp only [World.step, Option.ite_none_right_eq_some, Bool.and_eq_true] at hs
    obtain ⟨⟨hd, hc⟩, hv⟩ := hs
    obtain rfl := Option.some.inj hv
    refine h.arrive hd (fun r hr => ?_) hown
    simpa [hr] using hc
  | accept d =>
    cases hd : w.deliveries d <;> simp only [World.step, hd, reduceCtorEq] at hs
    rename_i message cause slot
    obtain rfl := Option.some.inj hs
    cases slot with
    | none =>
      refine h.withDelivery (fun m r hm => ?_) nofun
      rw [hd] at hm
      injection hm with _ _ hslot
      cases hslot
    | some r => exact h.accept hd
  | stream d receivedAt =>
    cases hd : w.deliveries d <;> simp only [World.step, hd, reduceCtorEq] at hs
    obtain rfl := Option.some.inj hs
    refine (h.withSlot _ w.broker w.collector fun _ => id).withDelivery (fun m r hm => ?_) nofun
    exact absurd (hd.symm.trans hm) nofun

/-- **No read steals from another while every replay finds the collector of its own read in the
slot and nothing else arrives there.** -/
theorem unstolen_of_own (h : Reachable (reading.guard Own) w) : w.Unstolen := by
  have hsound : w.Sound := by
    refine h.inv (P := World.Sound) ?_ ?_
    · rintro _ ⟨streams, broker, rfl⟩
      exact sound_new streams broker
    · rintro u label v hu ⟨hstep, hown⟩
      exact sound_step hu hstep hown
  exact hsound.unstolen

/-! ### One read at a time -/

/-- The read is between taking the slot and clearing it. -/
def Read.isActive : Read → Bool
  | .idle | .entering _ | .left _ _ => false
  | _ => true

/-- A read enters when no other read is between taking the slot and clearing it. -/
def Alone (w : World) : Label → Prop
  | .enter r => ∀ i, i ≠ r → (w.reads i).isActive = false
  | _ => True

/-- The slot is that of the one active read. -/
def World.SlotHeld (w : World) : Prop :=
  ∀ r, (w.reads r).isActive = true → w.collector = some r

theorem World.SlotHeld.setRead (h : w.SlotHeld) {read : Read}
    (ha : read.isActive = true → (w.reads r).isActive = true) : (w.setRead r read).SlotHeld := by
  intro i hi
  by_cases hir : i = r
  · subst hir
    exact h i (ha (by simpa [World.setRead] using hi))
  · exact h i (by simpa [World.setRead, hir] using hi)

theorem slotHeld_step {label : Label} (h : w.SlotHeld) (hs : w.step label = some v)
    (halone : Alone w label) : v.SlotHeld := by
  cases label with
  | read r kind =>
    simp only [World.step, Option.ite_none_right_eq_some, Option.some.injEq] at hs
    obtain ⟨-, rfl⟩ := hs
    refine h.setRead fun ha => ?_
    split at ha <;> cases ha
  | enter r =>
    cases hr : w.reads r <;> simp only [World.step, hr, reduceCtorEq] at hs
    obtain rfl := Option.some.inj hs
    intro i hi
    by_cases hir : i = r
    · rw [hir]
      rfl
    · have hoff := halone i hir
      rw [show (w.reads i).isActive = true by simpa [World.enter, World.setRead, hir] using hi] at hoff
      cases hoff
  | subscribe r accepted =>
    cases hr : w.reads r <;> simp only [World.step, hr, reduceCtorEq] at hs
    obtain rfl := Option.some.inj hs
    split
    · exact World.SlotHeld.setRead (w := { w with broker := _ }) h fun _ => congrArg Read.isActive hr
    · exact h.setRead fun _ => congrArg Read.isActive hr
  | collect r cancelled =>
    cases hr : w.reads r <;> simp only [World.step, hr, reduceCtorEq] at hs
    obtain rfl := Option.some.inj hs
    exact h.setRead fun _ => congrArg Read.isActive hr
  | check r =>
    cases hr : w.reads r <;> simp only [World.step, hr, reduceCtorEq] at hs
    obtain rfl := Option.some.inj hs
    exact h.setRead fun _ => congrArg Read.isActive hr
  | unsubscribe r accepted =>
    cases hr : w.reads r <;> simp only [World.step, hr, reduceCtorEq] at hs
    obtain rfl := Option.some.inj hs
    exact World.SlotHeld.setRead (w := { w with broker := _ }) h fun _ => congrArg Read.isActive hr
  | leave r =>
    cases hr : w.reads r <;> simp only [World.step, hr, reduceCtorEq] at hs
    obtain rfl := Option.some.inj hs
    -- no other read is active, as the slot was this read's
    intro i hi
    by_cases hir : i = r
    · subst hir
      simp [World.setRead, Read.isActive] at hi
    · have hri := h r (by rw [hr]; rfl)
      have hii := h i (by simpa [World.setRead, hir] using hi)
      exact absurd (Option.some.inj (hii.symm.trans hri)) hir
  | arrive d message cause =>
    simp only [World.step, Option.ite_none_right_eq_some, Option.some.injEq] at hs
    obtain ⟨-, rfl⟩ := hs
    exact h
  | accept d =>
    cases hd : w.deliveries d <;> simp only [World.step, hd, reduceCtorEq] at hs
    rename_i message cause slot
    obtain rfl := Option.some.inj hs
    cases slot <;> exact h
  | stream d receivedAt =>
    cases hd : w.deliveries d <;> simp only [World.step, hd, reduceCtorEq] at hs
    obtain rfl := Option.some.inj hs
    exact h

/-- **Reads that do not overlap find their own collector in the slot.** -/
theorem slot_of_alone (h : Reachable (reading.guard Alone) w)
    (ho : (w.reads r).isOpen = true) : w.collector = some r := by
  have hheld : w.SlotHeld := by
    refine h.inv (P := World.SlotHeld) ?_ ?_
    · rintro _ ⟨streams, broker, rfl⟩ i hi
      cases hi
    · rintro u label v hu ⟨hstep, halone⟩
      exact slotHeld_step hu hstep halone
  refine hheld r ?_
  cases hr : w.reads r <;> simp_all [Read.isOpen, Read.isActive]

/-! ### Overlapping reads -/

/-- A retained message of a topic. -/
def storedValue (topic : String) : InboundMessage := ⟨topic, [1], 0, true, "", "", "", 0, ∅⟩

/-- What a read ended with: its filter, and the topics it holds. -/
def World.holds (w : World) (r : Nat) : Option (String × List String) :=
  (w.reads r).outcome.map fun out => (out.1.filter, out.2.keys)

theorem listing_gets_its_replay : ∃ w, Reachable (reading.guard Own) w ∧
    w.holds 0 = some ("#", ["a"]) ∧ w.Unstolen := by
  have hrun : (runSteps World.step (World.new ∅ ∅)
      [.read 0 .listing, .enter 0, .subscribe 0 true]).bind (fun w =>
        (w.step (.arrive 0 (storedValue "a") (some 0))).bind fun v =>
          (v.step (.accept 0)).bind fun u => (u.step (.collect 0 false)).map fun t =>
            (w.collector, (w.reads 0).kind, t.holds 0)) =
      some (some 0, some .listing, some ("#", ["a"])) := by decide
  obtain ⟨w, hw, hrun⟩ := Option.bind_eq_some_iff.mp hrun
  obtain ⟨v, hv, hrun⟩ := Option.bind_eq_some_iff.mp hrun
  obtain ⟨u, hu, hrun⟩ := Option.bind_eq_some_iff.mp hrun
  obtain ⟨t, ht, hout⟩ := Option.map_eq_some_iff.mp hrun
  simp only [Prod.mk.injEq] at hout
  obtain ⟨hslot, hkind, hholds⟩ := hout
  have hreachw : Reachable (reading.guard Own) w := by
    refine ((Path.of_runSteps (S := reading) id hw).guard (G := Own) (P := fun _ => True) trivial
      (fun _ _ _ _ _ _ => trivial) fun _ label hm _ => ?_).1.reachable (.init ⟨∅, ∅, rfl⟩)
    simp only [List.mem_cons, List.not_mem_nil, or_false] at hm
    rcases hm with rfl | rfl | rfl <;> exact trivial
  have hreachv : Reachable (reading.guard Own) v := by
    refine hreachw.step ⟨hv, fun r hr => hr ▸ hslot, fun r kind hr _ hk _ => ?_⟩
    obtain rfl : 0 = r := Option.some.inj (hslot.symm.trans hr)
    obtain rfl : Kind.listing = kind := Option.some.inj (hkind.symm.trans hk)
    decide
  have hreachu : Reachable (reading.guard Own) u := hreachv.step ⟨hu, trivial⟩
  have hreacht : Reachable (reading.guard Own) t := by
    refine hreachu.step ⟨ht, fun d message hd => ?_⟩
    have hidle : w.deliveries = fun _ => .idle := by
      cases hw
      rfl
    obtain ⟨-, rfl⟩ : _ ∧ w.arrive 0 (storedValue "a") (some 0) = v := by
      simpa only [World.step, Option.ite_none_right_eq_some, Option.some.injEq] using hv
    obtain rfl : (w.arrive 0 (storedValue "a") (some 0)).accept 0 (storedValue "a") w.collector = u :=
      Option.some.inj hu
    rw [hslot] at hd
    by_cases hd0 : d = 0
    · simp [World.accept, World.setDelivery, hd0] at hd
    · simp [World.accept, World.arrive, World.setDelivery, hd0, hidle] at hd
  exact ⟨t, hreacht, hholds, unstolen_of_own hreacht⟩

/-- One read lists the topics, another asks for the detail of one topic and takes the slot: the
value that is replayed for the listing is what the detail gets. -/
def overlapping : List Label :=
  [.read 0 .listing, .enter 0, .subscribe 0 true, .read 1 (.detail "a"), .enter 1,
    .arrive 0 (storedValue "b") (some 0), .accept 0, .subscribe 1 true, .collect 0 false,
    .collect 1 false]

/-- A listing misses what was replayed for it, and a detail holds a topic it did not ask for. -/
theorem overlapping_reads_steal : ∃ w, Reachable reading w ∧
    (w.replayed 0).map (·.topic) = ["b"] ∧ w.holds 0 = some ("#", []) ∧
      w.holds 1 = some ("a", ["b"]) ∧ ¬ w.Unstolen := by
  have hrun : (runSteps World.step (World.new ∅ ∅) overlapping).map (fun w =>
      ((w.replayed 0).map (·.topic), w.holds 0, w.holds 1)) =
      some (["b"], some ("#", []), some ("a", ["b"])) := by decide
  obtain ⟨w, hw, hout⟩ := Option.map_eq_some_iff.mp hrun
  simp only [Prod.mk.injEq] at hout
  obtain ⟨hrep, hlist, hdetail⟩ := hout
  refine ⟨w, (Path.of_runSteps (S := reading) id hw).reachable (.init ⟨∅, ∅, rfl⟩), hrep, hlist,
    hdetail, fun h => ?_⟩
  obtain ⟨⟨kind, result⟩, hresult, heq⟩ := Option.map_eq_some_iff.mp hdetail
  simp only [Prod.mk.injEq] at heq
  obtain ⟨hfilter, hkeys⟩ := heq
  obtain ⟨message, hm⟩ : ∃ message, result["b"]? = some message := by
    rw [← Option.isSome_iff_exists, ExtTreeMap.isSome_getElem?_iff_mem, ← ExtTreeMap.mem_keys, hkeys]
    exact List.mem_singleton_self _
  have hown := h.own 1 kind result hresult "b" message hm
  rw [hfilter] at hown
  exact absurd hown (by decide)

end MqStudio.Mqtt.Reads
