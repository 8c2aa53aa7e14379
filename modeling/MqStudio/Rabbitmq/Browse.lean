import MqStudio.Lib.Maps
import MqStudio.Lib.Text
import MqStudio.Lib.Transition
import MqStudio.Model.Tail

/-!
# Browsing a RabbitMQ queue

`rabbitmq/message_browse.go`: a browse consumes without acknowledging, keeps what matches,
cancels its consumer and gives everything back.  The broker delivers in order and never has
more than the prefetch count unacknowledged.

* `World.step`: the steps of the browse and of the broker, failures included.
* `World.GaveBack`: the queue is as it was, apart from the flag of a redelivery.
* `gaveBack_of_returned`: it is so wherever a browse ends.
* `browsesRight_iff`: what a browse returns is what is wanted exactly if the messages past the
  prefetch window do not matter.
-/

namespace MqStudio.Rabbitmq.Browse

open Std (ExtTreeMap)
open Lib.Text Lib.Transition
open Model

/-! ### Messages and filters -/

/-- A message as it is delivered.  Header values are as `formatHeaderValue` writes them; `position`
is its place in the queue, which only the broker knows. -/
structure Message where
  position : Nat
  exchange : String
  routingKey : String
  headers : ExtTreeMap String String compare
  contentType : String
  contentEncoding : String
  correlationId : String
  replyTo : String
  expiration : String
  type : String
  userId : String
  appId : String
  messageId : String
  deliveryMode : Nat
  priority : Nat
  timestamp : Option Int
  body : String
  redelivered : Bool

structure MessageQueryParams where
  topic : String
  messageKey : String
  maxResults : Int
  filters : ExtTreeMap String String compare

def FilterRoutingKey : String := "routingKey"
def FilterHeader : String := "header"
def FilterBody : String := "body"

/-- What a page asks for when it says nothing. -/
def defaultBrowseCount : Nat := 32

/-- Caps how far a filtered browse reads. -/
def browseScanLimit : Nat := 2000

/-- A filter of the query, blank where it is not there. -/
def MessageQueryParams.filter (params : MessageQueryParams) (name : String) : String :=
  trimSpace ((params.filters[name]?).getD "")

/-- `strings.Contains`. -/
def contains (s needle : String) : Bool := decide (needle.toList <:+: s.toList)

def hasFilters (params : MessageQueryParams) : Bool :=
  [FilterRoutingKey, FilterHeader, FilterBody].any (fun key => params.filter key ≠ "") ||
    params.messageKey ≠ ""

/-- `name`, or `name=value`. -/
def headerMatches (headers : ExtTreeMap String String compare) (filter : String) : Bool :=
  let found := cut '=' filter.toList
  let name := trimSpace ((found.map fun halves => String.ofList halves.1).getD filter)
  match headers[name]?, found with
  | none, _ => false
  | some _, none => true
  | some raw, some halves => contains raw (trimSpace (String.ofList halves.2))

/-- `matches`. -/
def deliveryMatches (params : MessageQueryParams) (delivery : Message) : Bool :=
  let key := params.filter FilterRoutingKey
  let needle := params.filter FilterBody
  let header := params.filter FilterHeader
  let messageKey := trimSpace params.messageKey
  (key = "" || contains delivery.routingKey key) &&
    (needle = "" || contains delivery.body needle) &&
    (header = "" || headerMatches delivery.headers header) &&
    (messageKey = "" || contains delivery.messageId messageKey)

def deliveryModeName (mode : Nat) : String := if mode = 2 then "persistent" else "transient"

/-- Puts what is not blank. -/
def putAll (properties : ExtTreeMap String String compare) (values : List (String × String)) :
    ExtTreeMap String String compare :=
  values.foldl (fun properties value =>
    if value.2 = "" then properties else properties.insert value.1 value.2) properties

def propertiesOf (delivery : Message) : ExtTreeMap String String compare :=
  let headers := delivery.headers.toList.foldl (fun properties header =>
    properties.insert ("header." ++ header.1) header.2) ∅
  let named := putAll headers
    [("exchange", delivery.exchange), ("routingKey", delivery.routingKey),
      ("contentType", delivery.contentType), ("contentEncoding", delivery.contentEncoding),
      ("correlationId", delivery.correlationId), ("replyTo", delivery.replyTo),
      ("expiration", delivery.expiration), ("type", delivery.type), ("userId", delivery.userId),
      ("appId", delivery.appId)]
  let flagged := (named.insert "redelivered" (toString delivery.redelivered)).insert
    "deliveryMode" (deliveryModeName delivery.deliveryMode)
  if 0 < delivery.priority then flagged.insert "priority" (toString delivery.priority) else flagged

def messageFromDelivery (queue : String) (delivery : Message) (sequence : Nat) : MessageItem where
  id := sequence
  topic := queue
  messageID := delivery.messageId
  tags := ""
  keys := delivery.routingKey
  queueID := UnknownMetric
  queueOffset := UnknownMetric
  storeTimestamp := delivery.timestamp.getD 0
  status := .normal
  body := delivery.body
  properties := propertiesOf delivery

/-- How many messages are asked for. -/
def wantedOf (params : MessageQueryParams) : Nat :=
  if params.maxResults ≤ 0 then defaultBrowseCount else params.maxResults.toNat

/-- How many messages are read at most. -/
def scanOf (params : MessageQueryParams) : Nat :=
  if hasFilters params then browseScanLimit else wantedOf params

/-- How many messages are on their way or unacknowledged at most. -/
def prefetchOf (params : MessageQueryParams) : Nat :=
  if 500 < scanOf params then 500 else scanOf params

/-! ### A browse and the broker -/

inductive BrowseError where
  | noQueue
  | connection (text : String)
  | setPrefetch (text : String)
  | consume (text : String)
  | cancelConsumer (text : String)
  | returnMessages (text : String)

abbrev Result := Except BrowseError (List MessageItem)

inductive Phase where
  | connecting
  | prefetching
  | consuming
  | collecting
  | cancelling
  | nacking
  /-- The channel is about to be closed. -/
  | releasing (result : Result)
  | returned (result : Result)

/-- A queue is in order. -/
structure Queue where
  messages : List Message
  ordered : messages.Pairwise fun m n => m.position < n.position

/-- The broker's side are the messages that are ready and those that are unacknowledged, with the
tags they were delivered under, and whether the consumer is registered; the client's side is what
was delivered and not taken yet, and what `browse` counts. -/
structure World where
  params : MessageQueryParams
  queue : Queue
  ready : List Message
  unacked : List (Nat × Message)
  pending : List (Nat × Message)
  delivered : Nat
  prefetch : Nat
  isOpen : Bool
  registered : Bool
  /-- The channel of deliveries is closed. -/
  ended : Bool
  items : List MessageItem
  taken : Nat
  lastTag : Nat
  phase : Phase

def World.new (params : MessageQueryParams) (queue : Queue) : World where
  params := params
  queue := queue
  ready := queue.messages
  unacked := []
  pending := []
  delivered := 0
  prefetch := 0
  isOpen := false
  registered := false
  ended := false
  items := []
  taken := 0
  lastTag := 0
  phase := if trimSpace params.topic = "" then .returned (.error .noQueue) else .connecting

inductive Label where
  | connect (err : Option String)
  | qos (err : Option String)
  | consume (err : Option String)
  /-- The broker delivers the next message. -/
  | deliver
  /-- The broker takes the consumer off. -/
  | endConsumer
  /-- The channel dies. -/
  | die
  | take
  /-- The loop has what it wants. -/
  | enough
  /-- The context of the request is over. -/
  | contextDone
  /-- The loop sees that no more is delivered. -/
  | closed
  | idle
  /-- The call to cancel, which may fail after the broker got it. -/
  | cancel (err : Option String) (applied : Bool)
  | nack (err : Option String) (applied : Bool)
  | release

/-- One message is in front of another, or they are in one place. -/
def Before (m n : Message) : Prop := m.position ≤ n.position

instance : DecidableRel Before := fun m n => inferInstanceAs (Decidable (m.position ≤ n.position))

instance : Std.Total Before := ⟨fun m n => Nat.le_total m.position n.position⟩

instance : IsTrans Message Before := ⟨fun _ _ _ h h' => Nat.le_trans h h'⟩

/-- What comes back is flagged, and goes where it was. -/
def putBack (back : List (Nat × Message)) (ready : List Message) : List Message :=
  back.foldr (fun entry ready => ready.orderedInsert Before { entry.2 with redelivered := true })
    ready

/-- The channel is gone, and what was unacknowledged is back in the queue. -/
def World.drop (w : World) : World :=
  { w with
    isOpen := false
    registered := false
    ended := true
    ready := putBack w.unacked w.ready
    unacked := [] }

/-- The loop goes on. -/
def World.wants (w : World) : Bool :=
  decide (w.taken < scanOf w.params ∧ w.items.length < wantedOf w.params)

/-- One delivery of the loop. -/
def World.take (w : World) (entry : Nat × Message) (rest : List (Nat × Message)) : World :=
  { w with
    pending := rest
    taken := w.taken + 1
    lastTag := entry.1
    items := if deliveryMatches w.params entry.2 then
        w.items ++ [messageFromDelivery (trimSpace w.params.topic) entry.2 (w.items.length + 1)]
      else w.items }

/-- The channel is opened, or there is none to close. -/
def World.connect (w : World) : Option String → World
  | none => { w with isOpen := true, phase := .prefetching }
  | some err => { w with phase := .returned (.error (.connection err)) }

/-- A step of the setting up. -/
def World.setUp (w : World) (next : Phase) (err : Option BrowseError) : World :=
  match err with
  | none => { w with phase := next }
  | some err => { w with phase := .releasing (.error err) }

/-- `Cancel`, and what comes after it. -/
def World.cancel (w : World) (err : Option String) (applied : Bool) : World :=
  let w' := { w with registered := w.registered && !applied }
  match err with
  | some err => { w' with phase := .releasing (.error (.cancelConsumer err)) }
  | none => { w' with phase := if 0 < w.taken then .nacking else .releasing (.ok w.items) }

/-- `Nack` of everything up to the last tag. -/
def World.nack (w : World) (err : Option String) (applied : Bool) : World :=
  let upToLast := w.unacked.filter (·.1 ≤ w.lastTag)
  let w' := if applied then
      { w with ready := putBack upToLast w.ready, unacked := w.unacked.filter (w.lastTag < ·.1) }
    else w
  match err with
  | some err => { w' with phase := .releasing (.error (.returnMessages err)) }
  | none => { w' with phase := .releasing (.ok w.items) }

def World.step (w : World) : Label → Option World
  | .connect err =>
    match w.phase with
    | .connecting => some (w.connect err)
    | _ => none
  | .qos err =>
    match w.phase with
    | .prefetching =>
      some ({ w with prefetch := prefetchOf w.params }.setUp .consuming (err.map .setPrefetch))
    | _ => none
  | .consume err =>
    match w.phase with
    | .consuming =>
      some ({ w with registered := w.isOpen && err.isNone }.setUp .collecting (err.map .consume))
    | _ => none
  | .deliver =>
    match w.registered, w.ready with
    | true, message :: rest =>
      if w.unacked.length < w.prefetch then
        some { w with ready := rest, unacked := w.unacked ++ [(w.delivered + 1, message)]
                      pending := w.pending ++ [(w.delivered + 1, message)]
                      delivered := w.delivered + 1 }
      else none
    | _, _ => none
  | .endConsumer => some { w with registered := false, ended := true }
  | .die => some w.drop
  | .take =>
    match w.phase, w.wants, w.pending with
    | .collecting, true, entry :: rest => some (w.take entry rest)
    | _, _, _ => none
  | .enough =>
    match w.phase, w.wants with
    | .collecting, false => some { w with phase := .cancelling }
    | _, _ => none
  | .contextDone =>
    match w.phase, w.wants with
    | .collecting, true => some { w with phase := .cancelling }
    | _, _ => none
  | .closed =>
    match w.phase, w.wants, w.ended with
    | .collecting, true, true => some { w with phase := .cancelling }
    | _, _, _ => none
  | .idle =>
    match w.phase, w.wants with
    | .collecting, true => some { w with phase := .cancelling }
    | _, _ => none
  | .cancel err applied =>
    match w.phase with
    | .cancelling => if err.isSome ∨ (w.isOpen = true ∧ applied = true) then
        some (w.cancel err applied) else none
    | _ => none
  | .nack err applied =>
    match w.phase with
    | .nacking => some (w.nack err applied)
    | _ => none
  | .release =>
    match w.phase with
    | .releasing result => some { w.drop with phase := .returned result }
    | _ => none

/-- A browse of a queue that no one else consumes. -/
def browsing (params : MessageQueryParams) (queue : Queue) : System World Label where
  Init w := w = World.new params queue
  Step w label v := w.step label = some v

/-- The broker keeps delivering while it has credit, and nothing ends the request or the channel
from outside. -/
def Timely (w : World) : Label → Prop
  | .idle => w.pending = [] ∧ (w.ready = [] ∨ w.prefetch ≤ w.unacked.length)
  | .endConsumer | .die | .contextDone | .closed => False
  | _ => True

/-! ### Everything goes back -/

/-- The message without the flag of a redelivery. -/
def settled (m : Message) : Message := { m with redelivered := false }

/-- **The queue is as it was**, apart from the flags. -/
structure World.GaveBack (w : World) : Prop where
  unacked : w.unacked = []
  ready : w.ready.map settled = w.queue.messages.map settled

/-- No consumer holds messages. -/
def Phase.isQuiet : Phase → Bool
  | .connecting | .prefetching | .consuming | .returned _ => true
  | _ => false

/-- The messages of the queue are ready or unacknowledged. -/
structure World.Whole (w : World) : Prop where
  whole : ((w.ready ++ w.unacked.map (·.2)).map settled).Perm (w.queue.messages.map settled)
  sorted : w.ready.Pairwise Before
  quiet : w.phase.isQuiet = true → w.unacked = [] ∧ w.registered = false

variable {params : MessageQueryParams} {queue : Queue} {w v : World}
  {back : List (Nat × Message)} {ready : List Message}

theorem putBack_perm (back : List (Nat × Message)) (ready : List Message) :
    ((putBack back ready).map settled).Perm ((ready ++ back.map (·.2)).map settled) := by
  induction back with
  | nil => simp [putBack]
  | cons entry back ih =>
    have hinsert := (List.perm_orderedInsert Before { entry.2 with redelivered := true }
      (putBack back ready)).map settled
    refine hinsert.trans ?_
    have hmiddle : (ready.map settled ++ settled entry.2 :: (back.map (·.2)).map settled).Perm _ :=
      List.perm_middle
    rw [List.map_append] at ih
    simpa [settled] using (ih.cons (settled entry.2)).trans hmiddle.symm

theorem putBack_sorted (h : ready.Pairwise Before) : (putBack back ready).Pairwise Before := by
  induction back with
  | nil => exact h
  | cons entry back ih => exact ih.orderedInsert _ _

theorem whole_new (params : MessageQueryParams) (queue : Queue) :
    (World.new params queue).Whole where
  whole := by simp [World.new]
  sorted := queue.ordered.imp fun h => h.le
  quiet _ := ⟨rfl, rfl⟩

/-- A step that leaves the broker's side as it is. -/
theorem World.Whole.goesOn (h : w.Whole) (hqueue : v.queue = w.queue) (hready : v.ready = w.ready)
    (hunacked : v.unacked = w.unacked)
    (hquiet : v.phase.isQuiet = true → v.unacked = [] ∧ v.registered = false) : v.Whole where
  whole := by
    rw [hready, hunacked, hqueue]
    exact h.whole
  sorted := hready ▸ h.sorted
  quiet := hquiet

/-- What is put back is no longer unacknowledged. -/
theorem World.Whole.putBack {rest : List (Nat × Message)} (h : w.Whole)
    (hback : (back ++ rest).Perm w.unacked) (hqueue : v.queue = w.queue)
    (hready : v.ready = putBack back w.ready) (hunacked : v.unacked = rest)
    (hquiet : v.phase.isQuiet = true → v.unacked = [] ∧ v.registered = false) : v.Whole where
  whole := by
    rw [hready, hunacked, hqueue, List.map_append]
    refine List.Perm.trans ?_ h.whole
    have hmove := (putBack_perm back w.ready).append_right ((rest.map (·.2)).map settled)
    have hrest := ((hback.map (·.2)).append_left w.ready).map settled
    refine hmove.trans (List.Perm.trans (List.Perm.of_eq ?_) hrest)
    simp
  sorted := hready ▸ putBack_sorted h.sorted
  quiet := hquiet

theorem World.Whole.drop (h : w.Whole) : w.drop.Whole :=
  h.putBack (List.Perm.of_eq (List.append_nil w.unacked)) rfl rfl rfl fun _ => ⟨rfl, rfl⟩

theorem World.Whole.nack (h : w.Whole) (err : Option String) (applied : Bool) :
    (w.nack err applied).Whole := by
  have hsplit : ((w.unacked.filter (·.1 ≤ w.lastTag)) ++ w.unacked.filter (w.lastTag < ·.1)).Perm
      w.unacked := by
    have hperm := List.filter_append_perm (fun entry => decide (entry.1 ≤ w.lastTag)) w.unacked
    have hneg : (fun entry : Nat × Message => decide (w.lastTag < entry.1)) =
        fun entry => !decide (entry.1 ≤ w.lastTag) := by
      funext entry
      by_cases hle : entry.1 ≤ w.lastTag
      · simp [hle]
      · simp [hle, Nat.lt_of_not_le hle]
    rw [hneg]
    exact hperm
  cases applied <;> cases err
  · exact h.goesOn rfl rfl rfl nofun
  · exact h.goesOn rfl rfl rfl nofun
  · exact h.putBack hsplit rfl rfl rfl nofun
  · exact h.putBack hsplit rfl rfl rfl nofun

theorem World.Whole.setUp {next : Phase} (h : w.Whole)
    (hquiet : next.isQuiet = true → w.unacked = [] ∧ w.registered = false)
    (err : Option BrowseError) : (w.setUp next err).Whole := by
  cases err with
  | none => exact h.goesOn rfl rfl rfl hquiet
  | some err => exact h.goesOn rfl rfl rfl nofun

theorem World.Whole.cancel (h : w.Whole) (err : Option String) (applied : Bool) :
    (w.cancel err applied).Whole := by
  cases err with
  | some err => exact h.goesOn rfl rfl rfl nofun
  | none =>
    refine h.goesOn rfl rfl rfl fun hquiet => ?_
    by_cases htaken : 0 < w.taken
    · simp [World.cancel, htaken, Phase.isQuiet] at hquiet
    · simp [World.cancel, htaken, Phase.isQuiet] at hquiet

/-- Every step keeps the messages of the queue. -/
theorem whole_step {label : Label} (h : w.Whole) (hs : w.step label = some v) : v.Whole := by
  cases label with
  | connect err =>
    rw [World.step] at hs
    split at hs
    case h_1 hphase =>
      obtain rfl := Option.some.inj hs
      have hquiet := h.quiet (by rw [hphase]; rfl)
      cases err <;> exact h.goesOn rfl rfl rfl fun _ => hquiet
    case h_2 => exact absurd hs (by simp)
  | qos err =>
    rw [World.step] at hs
    split at hs
    case h_1 hphase =>
      obtain rfl := Option.some.inj hs
      have hquiet := h.quiet (by rw [hphase]; rfl)
      have hset : World.Whole { w with prefetch := prefetchOf w.params } :=
        h.goesOn rfl rfl rfl fun _ => hquiet
      exact hset.setUp (fun _ => hquiet) _
    case h_2 => exact absurd hs (by simp)
  | consume err =>
    rw [World.step] at hs
    split at hs
    case h_1 hphase =>
      obtain rfl := Option.some.inj hs
      cases err <;> exact h.goesOn rfl rfl rfl nofun
    case h_2 => exact absurd hs (by simp)
  | deliver =>
    rw [World.step] at hs
    split at hs
    case h_1 message rest hregistered hready =>
      split at hs
      case isTrue =>
        obtain rfl := Option.some.inj hs
        have hsorted := h.sorted
        have hwhole := h.whole
        rw [hready] at hsorted hwhole
        refine ⟨?_, (List.pairwise_cons.mp hsorted).2, fun hquiet => ?_⟩
        · refine List.Perm.trans (List.Perm.map settled ?_) hwhole
          rw [List.map_append, ← List.append_assoc]
          exact List.perm_append_singleton message _
        · rw [(h.quiet hquiet).2] at hregistered
          exact absurd hregistered (by simp)
      case isFalse => exact absurd hs (by simp)
    case h_2 => exact absurd hs (by simp)
  | endConsumer =>
    obtain rfl := Option.some.inj hs
    exact h.goesOn rfl rfl rfl fun hquiet => ⟨(h.quiet hquiet).1, rfl⟩
  | die =>
    obtain rfl := Option.some.inj hs
    exact h.drop
  | take =>
    rw [World.step] at hs
    split at hs
    case h_1 hphase _ _ =>
      obtain rfl := Option.some.inj hs
      exact h.goesOn rfl rfl rfl fun hquiet => h.quiet hquiet
    case h_2 => exact absurd hs (by simp)
  | enough =>
    rw [World.step] at hs
    split at hs
    case h_1 =>
      obtain rfl := Option.some.inj hs
      exact h.goesOn rfl rfl rfl nofun
    case h_2 => exact absurd hs (by simp)
  | contextDone =>
    rw [World.step] at hs
    split at hs
    case h_1 =>
      obtain rfl := Option.some.inj hs
      exact h.goesOn rfl rfl rfl nofun
    case h_2 => exact absurd hs (by simp)
  | closed =>
    rw [World.step] at hs
    split at hs
    case h_1 =>
      obtain rfl := Option.some.inj hs
      exact h.goesOn rfl rfl rfl nofun
    case h_2 => exact absurd hs (by simp)
  | idle =>
    rw [World.step] at hs
    split at hs
    case h_1 =>
      obtain rfl := Option.some.inj hs
      exact h.goesOn rfl rfl rfl nofun
    case h_2 => exact absurd hs (by simp)
  | cancel err applied =>
    rw [World.step] at hs
    split at hs
    case h_1 =>
      split at hs
      case isTrue =>
        obtain rfl := Option.some.inj hs
        exact h.cancel err applied
      case isFalse => exact absurd hs (by simp)
    case h_2 => exact absurd hs (by simp)
  | nack err applied =>
    rw [World.step] at hs
    split at hs
    case h_1 =>
      obtain rfl := Option.some.inj hs
      exact h.nack err applied
    case h_2 => exact absurd hs (by simp)
  | release =>
    rw [World.step] at hs
    split at hs
    case h_1 =>
      obtain rfl := Option.some.inj hs
      exact h.drop.goesOn rfl rfl rfl fun _ => ⟨rfl, rfl⟩
    case h_2 => exact absurd hs (by simp)

theorem whole_of_reachable (h : Reachable (browsing params queue) w) : w.Whole := by
  refine Reachable.inv (P := World.Whole) ?_ (fun _ _ _ hw hs => whole_step hw hs) h
  rintro _ rfl
  exact whole_new params queue

/-- Two orders of the same messages are one. -/
theorem World.Whole.gaveBack (h : w.Whole) (hunacked : w.unacked = []) : w.GaveBack where
  unacked := hunacked
  ready := by
    have hwhole := h.whole
    rw [hunacked, List.map_nil, List.append_nil] at hwhole
    have hplaces : ((w.queue.messages.map settled).map (·.position)).Nodup := by
      rw [List.map_map]
      exact (List.pairwise_map.mpr w.queue.ordered).imp fun h => Nat.ne_of_lt h
    refine @List.Perm.eq_of_pairwise _ Before _ _ ?_ ?_ ?_ hwhole
    · intro a b ha hb hab hba
      exact List.inj_on_of_nodup_map hplaces (hwhole.subset ha) hb (Nat.le_antisymm hab hba)
    · exact List.pairwise_map.mpr h.sorted
    · exact List.pairwise_map.mpr (w.queue.ordered.imp fun h => h.le)

/-- **Wherever a browse ends**, every message is back in its place. -/
theorem gaveBack_of_returned {result : Result} (h : Reachable (browsing params queue) w)
    (hphase : w.phase = .returned result) : w.GaveBack :=
  (whole_of_reachable h).gaveBack ((whole_of_reachable h).quiet (by rw [hphase]; rfl)).1

/-! ### What is returned -/

/-- The messages that match. -/
def found (params : MessageQueryParams) (messages : List Message) : List Message :=
  messages.filter (deliveryMatches params)

/-- Messages as they are returned, numbered. -/
def itemsOf (params : MessageQueryParams) (messages : List Message) : List MessageItem :=
  messages.mapIdx fun i m => messageFromDelivery (trimSpace params.topic) m (i + 1)

/-- **What a browse is to return**: the first messages that match among the first ones of the
queue. -/
def expected (params : MessageQueryParams) (queue : Queue) : List MessageItem :=
  itemsOf params ((found params (queue.messages.take (scanOf params))).take (wantedOf params))

/-- Items that the loop ends with after `k` messages. -/
structure EndsAfter (params : MessageQueryParams) (queue : Queue) (k : Nat)
    (items : List MessageItem) : Prop where
  items : items = itemsOf params (found params (queue.messages.take k))
  scanned : k ≤ scanOf params
  windowed : k ≤ 500
  room : (found params (queue.messages.take k)).length ≤ wantedOf params
  reason : scanOf params ≤ k ∨ wantedOf params ≤ (found params (queue.messages.take k)).length ∨
    k = min queue.messages.length (prefetchOf params)

/-- The messages past the prefetch window do not matter: none are read, or the page is full without
them, or none of them match. -/
def Undisturbed (params : MessageQueryParams) (queue : Queue) : Prop :=
  scanOf params ≤ 500 ∨ wantedOf params ≤ (found params (queue.messages.take 500)).length ∨
    ∀ m ∈ (queue.messages.take (scanOf params)).drop 500, deliveryMatches params m = false

theorem found_append (params : MessageQueryParams) (l m : List Message) :
    found params (l ++ m) = found params l ++ found params m := List.filter_append ..

@[simp] theorem length_itemsOf (params : MessageQueryParams) (l : List Message) :
    (itemsOf params l).length = l.length := List.length_mapIdx

/-- The first messages that match among more. -/
theorem found_take (params : MessageQueryParams) (l : List Message) {k n : Nat} (h : k ≤ n) :
    found params (l.take n) = found params (l.take k) ++ found params ((l.take n).drop k) := by
  have hfront : l.take k = (l.take n).take k := by rw [List.take_take, Nat.min_eq_left h]
  rw [← found_append, hfront, List.take_append_drop]

/-- What the loop ends with is what is wanted if the page is full or nothing more matches. -/
theorem EndsAfter.eq_expected_iff {k : Nat} {items : List MessageItem}
    (h : EndsAfter params queue k items) : items = expected params queue ↔
      wantedOf params ≤ (found params (queue.messages.take k)).length ∨
        found params ((queue.messages.take (scanOf params)).drop k) = [] := by
  have hroom := h.room
  rw [h.items, expected, found_take params queue.messages h.scanned]
  constructor
  · intro heq
    have hlength := congrArg List.length heq
    simp only [length_itemsOf, List.length_take, List.length_append] at hlength
    rw [← List.length_eq_zero_iff]
    omega
  · rintro (hfull | hnone)
    · rw [List.take_append_of_le_length hfull, List.take_of_length_le hroom]
    · rw [hnone, List.append_nil, List.take_of_length_le hroom]

/-- **What is returned is right** exactly if the messages past the window do not matter. -/
theorem EndsAfter.right_iff {k : Nat} {items : List MessageItem}
    (h : EndsAfter params queue k items) :
    items = expected params queue ↔ Undisturbed params queue := by
  have hroom := h.room
  have hscanned := h.scanned
  have hwindowed := h.windowed
  have hnil : ∀ n, (∀ m ∈ (queue.messages.take (scanOf params)).drop n,
      deliveryMatches params m = false) ↔
      found params ((queue.messages.take (scanOf params)).drop n) = [] := by
    intro n
    simp [found, List.filter_eq_nil_iff]
  rw [h.eq_expected_iff, Undisturbed, hnil]
  rcases h.reason with hscan | hfull | hwindow
  · have hdrop : (queue.messages.take (scanOf params)).drop k = [] :=
      List.drop_eq_nil_of_le (by rw [List.length_take]; omega)
    have hlittle : scanOf params ≤ 500 := hscan.trans hwindowed
    simp [hdrop, found, hlittle]
  · have hmore : wantedOf params ≤ (found params (queue.messages.take 500)).length := by
      rw [found_take params queue.messages hwindowed, List.length_append]
      omega
    simp [hfull, hmore]
  · by_cases hlittle : scanOf params ≤ 500
    · have hprefetch : prefetchOf params = scanOf params := by
        rw [prefetchOf, if_neg (by omega)]
      have hdrop : (queue.messages.take (scanOf params)).drop k = [] :=
        List.drop_eq_nil_of_le (by rw [List.length_take]; omega)
      simp [hdrop, found, hlittle]
    · have hprefetch : prefetchOf params = 500 := by rw [prefetchOf, if_pos (by omega)]
      rw [hprefetch] at hwindow
      by_cases hshort : queue.messages.length ≤ 500
      · have hall : ∀ n, queue.messages.length ≤ n →
            (queue.messages.take (scanOf params)).drop n = [] := by
          intro n hn
          exact List.drop_eq_nil_of_le ((List.length_take_le' _ _).trans hn)
        rw [hall k (by omega), hall 500 hshort]
        simp [found]
      · have hk : k = 500 := by omega
        subst hk
        simp [hlittle]

/-! ### The browse under way -/

/-- Nothing was read yet. -/
structure World.Fresh (w : World) : Prop where
  ready : w.ready = w.queue.messages
  unacked : w.unacked = []
  pending : w.pending = []
  items : w.items = []
  taken : w.taken = 0

/-- The loop has read the first messages, and more are on their way. -/
structure World.Reading (w : World) : Prop where
  registered : w.registered = true
  prefetch : w.prefetch = prefetchOf w.params
  split : w.unacked.map (·.2) ++ w.ready = w.queue.messages
  pending : w.pending = w.unacked.drop w.taken
  behind : w.taken ≤ w.unacked.length
  credit : w.unacked.length ≤ w.prefetch
  items : w.items = itemsOf w.params (found w.params (w.queue.messages.take w.taken))
  scanned : w.taken ≤ scanOf w.params
  room : (found w.params (w.queue.messages.take w.taken)).length ≤ wantedOf w.params

/-- What holds at each point. -/
def World.Sound (w : World) : Prop :=
  match w.phase with
  | .connecting => w.Fresh
  | .prefetching => w.isOpen = true ∧ w.Fresh
  | .consuming => w.isOpen = true ∧ w.prefetch = prefetchOf w.params ∧ w.Fresh
  | .collecting => w.isOpen = true ∧ w.Reading
  | .cancelling | .nacking => w.isOpen = true ∧ ∃ k, EndsAfter w.params w.queue k w.items
  | .releasing result | .returned result =>
    ∀ items, result = .ok items → ∃ k, EndsAfter w.params w.queue k items

theorem prefetchOf_le (params : MessageQueryParams) :
    prefetchOf params ≤ 500 ∧ prefetchOf params ≤ scanOf params := by
  rw [prefetchOf]
  split <;> omega

theorem sound_new (params : MessageQueryParams) (queue : Queue) :
    (World.new params queue).Sound := by
  by_cases hblank : trimSpace params.topic = ""
  · have hphase : (World.new params queue).phase = .returned (.error .noQueue) := by
      simp [World.new, hblank]
    rw [World.Sound, hphase]
    exact nofun
  · have hphase : (World.new params queue).phase = .connecting := by simp [World.new, hblank]
    rw [World.Sound, hphase]
    exact ⟨rfl, rfl, rfl, rfl, rfl⟩

/-- The first deliveries, before a consumer was created, are none. -/
theorem World.Fresh.reading (h : w.Fresh) (hregistered : v.registered = true)
    (hprefetch : v.prefetch = prefetchOf w.params) (hready : v.ready = w.ready)
    (hunacked : v.unacked = w.unacked) (hpending : v.pending = w.pending)
    (hitems : v.items = w.items) (htaken : v.taken = w.taken) (hparams : v.params = w.params)
    (hqueue : v.queue = w.queue) : v.Reading := by
  have hzero := h.taken
  constructor
  · exact hregistered
  · rw [hprefetch, hparams]
  · rw [hunacked, h.unacked, hready, h.ready, hqueue]
    rfl
  · rw [hpending, h.pending, hunacked, h.unacked, List.drop_nil]
  · omega
  · rw [hunacked, h.unacked]
    exact Nat.zero_le _
  · rw [hitems, h.items, htaken, hzero]
    rfl
  · omega
  · rw [htaken, hzero]
    exact Nat.zero_le _

theorem World.Reading.messages_take (h : w.Reading) :
    w.queue.messages.take w.taken = (w.unacked.map (·.2)).take w.taken := by
  rw [← h.split, List.take_append_of_le_length]
  simpa using h.behind

/-- The loop takes the next message of the queue. -/
theorem World.Reading.take {entry : Nat × Message} {rest : List (Nat × Message)} (h : w.Reading)
    (hwants : w.wants = true) (hpending : w.pending = entry :: rest) :
    (w.take entry rest).Reading := by
  obtain ⟨hmore, hfew⟩ := of_decide_eq_true hwants
  have hdrop : w.unacked.drop w.taken = entry :: rest := h.pending ▸ hpending
  have hlt : w.taken < w.unacked.length := by
    have hlength := congrArg List.length hdrop
    simp only [List.length_drop, List.length_cons] at hlength
    omega
  have hentry : w.queue.messages.take (w.taken + 1) =
      w.queue.messages.take w.taken ++ [entry.2] := by
    have hget : w.unacked[w.taken] = entry := by
      rw [List.drop_eq_getElem_cons hlt] at hdrop
      exact (List.cons.inj hdrop).1
    rw [← h.split, List.take_append_of_le_length (by simpa using hlt),
      List.take_append_of_le_length (by simpa using hlt.le),
      List.take_succ_eq_append_getElem (by simpa using hlt)]
    simp [hget]
  have hrest : rest = w.unacked.drop (w.taken + 1) := by
    rw [List.drop_eq_getElem_cons hlt] at hdrop
    exact (List.cons.inj hdrop).2.symm
  have hcount : w.items.length = (found w.params (w.queue.messages.take w.taken)).length := by
    rw [h.items, length_itemsOf]
  have hfound : found w.params (w.queue.messages.take (w.taken + 1)) =
      found w.params (w.queue.messages.take w.taken) ++ found w.params [entry.2] := by
    rw [hentry, found_append]
  refine ⟨h.registered, h.prefetch, h.split, hrest, hlt, h.credit, ?_, hmore, ?_⟩
  · by_cases hkeep : deliveryMatches w.params entry.2 = true
    · have hone : found w.params [entry.2] = [entry.2] := by simp [found, hkeep]
      simp only [World.take, hkeep, if_true]
      rw [hfound, hone, itemsOf, List.mapIdx_concat, hcount, h.items]
      rfl
    · have hnone : found w.params [entry.2] = [] := by simp [found, hkeep]
      simp only [World.take, hkeep, Bool.false_eq_true, if_false]
      rw [hfound, hnone, List.append_nil, h.items]
  · have hone : (found w.params [entry.2]).length ≤ 1 := List.length_filter_le _ _
    show (found w.params (w.queue.messages.take (w.taken + 1))).length ≤ wantedOf w.params
    rw [hfound, List.length_append]
    omega

/-- The loop has read enough. -/
theorem World.Reading.enough (h : w.Reading) (hwants : w.wants = false) :
    EndsAfter w.params w.queue w.taken w.items := by
  have hstop := of_decide_eq_false hwants
  have hcount : w.items.length = (found w.params (w.queue.messages.take w.taken)).length := by
    rw [h.items, length_itemsOf]
  have hwindow := prefetchOf_le w.params
  have hcredit := h.behind.trans (h.prefetch ▸ h.credit)
  refine ⟨h.items, h.scanned, hcredit.trans hwindow.1, h.room, ?_⟩
  by_cases hscan : scanOf w.params ≤ w.taken
  · exact .inl hscan
  · refine .inr (.inl ?_)
    omega

/-- The loop hears nothing more, and the broker has nothing left that it may send. -/
theorem World.Reading.idle (h : w.Reading) (hpending : w.pending = [])
    (hnone : w.ready = [] ∨ w.prefetch ≤ w.unacked.length) :
    EndsAfter w.params w.queue w.taken w.items := by
  have hwindow := prefetchOf_le w.params
  have hcredit := h.behind.trans (h.prefetch ▸ h.credit)
  have hall : w.unacked.length ≤ w.taken := by
    rw [h.pending] at hpending
    exact List.drop_eq_nil_iff.mp hpending
  have hlength := congrArg List.length h.split
  rw [List.length_append, List.length_map] at hlength
  refine ⟨h.items, h.scanned, hcredit.trans hwindow.1, h.room, .inr (.inr ?_)⟩
  have hbehind := h.behind
  have hprefetch := h.prefetch
  rcases hnone with hempty | hfull
  · rw [hempty, List.length_nil] at hlength
    omega
  · omega

/-- The broker delivers one more. -/
theorem World.Reading.deliver {message : Message} {rest : List Message} (h : w.Reading)
    (hready : w.ready = message :: rest) (hcredit : w.unacked.length < w.prefetch) :
    World.Reading { w with
      ready := rest, unacked := w.unacked ++ [(w.delivered + 1, message)]
      pending := w.pending ++ [(w.delivered + 1, message)], delivered := w.delivered + 1 } where
  registered := h.registered
  prefetch := h.prefetch
  split := by simpa [hready] using h.split
  pending := by
    rw [h.pending, List.drop_append_of_le_length h.behind]
  behind := by
    rw [List.length_append]
    exact h.behind.trans (Nat.le_add_right _ _)
  credit := by
    rw [List.length_append]
    exact hcredit
  items := h.items
  scanned := h.scanned
  room := h.room

theorem World.Sound.of_same (h : w.Sound) (hphase : v.phase = w.phase) (hopen : v.isOpen = w.isOpen)
    (hparams : v.params = w.params) (hqueue : v.queue = w.queue) (hitems : v.items = w.items)
    (hlate : ∀ phase ∈ [Phase.connecting, .prefetching, .consuming, .collecting], w.phase ≠ phase) :
    v.Sound := by
  rw [World.Sound] at h ⊢
  rw [hphase, hopen, hparams, hqueue, hitems]
  cases hcase : w.phase <;> simp_all

/-- The consumer of an early phase is not registered. -/
theorem World.Whole.unregistered (h : w.Whole) (hphase : w.phase.isQuiet = true) :
    w.registered ≠ true := by
  rw [(h.quiet hphase).2]
  exact nofun

theorem World.Sound.of_reading (hphase : w.phase = .collecting) (hopen : w.isOpen = true)
    (h : w.Reading) : w.Sound := by
  rw [World.Sound, hphase]
  exact ⟨hopen, h⟩

theorem World.Sound.connect (h : w.Fresh) (err : Option String) : (w.connect err).Sound := by
  cases err with
  | none =>
    rw [World.connect, World.Sound]
    exact ⟨rfl, h.ready, h.unacked, h.pending, h.items, h.taken⟩
  | some err =>
    rw [World.connect, World.Sound]
    exact nofun

/-- A failed step of the setting up returns nothing. -/
theorem World.Sound.failed (w : World) (next : Phase) (err : BrowseError) :
    (w.setUp next (some err)).Sound := by
  rw [World.setUp, World.Sound]
  exact nofun

theorem World.Sound.qos {prefetch : Nat} (hopen : w.isOpen = true) (h : w.Fresh)
    (hprefetch : prefetch = prefetchOf w.params) (err : Option BrowseError) :
    ({ w with prefetch := prefetch }.setUp .consuming err).Sound := by
  cases err with
  | none =>
    rw [World.setUp, World.Sound]
    exact ⟨hopen, hprefetch, h.ready, h.unacked, h.pending, h.items, h.taken⟩
  | some err => exact World.Sound.failed _ _ err

theorem World.Sound.consume (hopen : w.isOpen = true) (hprefetch : w.prefetch = prefetchOf w.params)
    (h : w.Fresh) (err : Option String) :
    ({ w with registered := w.isOpen && err.isNone }.setUp .collecting
      (err.map .consume)).Sound := by
  cases err with
  | none =>
    rw [Option.map_none, World.setUp, World.Sound]
    refine ⟨hopen, h.reading ?_ hprefetch rfl rfl rfl rfl rfl rfl rfl⟩
    simp [hopen]
  | some err => exact World.Sound.failed _ _ _

theorem World.Sound.deliver {message : Message} {rest : List Message} (hwhole : w.Whole)
    (h : w.Sound) (hregistered : w.registered = true) (hready : w.ready = message :: rest)
    (hcredit : w.unacked.length < w.prefetch) :
    World.Sound { w with
      ready := rest, unacked := w.unacked ++ [(w.delivered + 1, message)]
      pending := w.pending ++ [(w.delivered + 1, message)], delivered := w.delivered + 1 } := by
  by_cases hcollecting : w.phase = .collecting
  · rw [World.Sound, hcollecting] at h
    exact .of_reading hcollecting h.1 (h.2.deliver hready hcredit)
  · refine h.of_same rfl rfl rfl rfl rfl ?_
    intro phase hphase heq
    simp only [List.mem_cons, List.not_mem_nil, or_false] at hphase
    rcases hphase with rfl | rfl | rfl | rfl
    · exact hwhole.unregistered (by rw [heq]; rfl) hregistered
    · exact hwhole.unregistered (by rw [heq]; rfl) hregistered
    · exact hwhole.unregistered (by rw [heq]; rfl) hregistered
    · exact hcollecting heq

/-- The loop is over. -/
theorem World.Sound.leave {k : Nat} (hopen : w.isOpen = true)
    (h : EndsAfter w.params w.queue k w.items) :
    World.Sound { w with phase := .cancelling } := by
  rw [World.Sound]
  exact ⟨hopen, k, h⟩

theorem World.Sound.cancel (hopen : w.isOpen = true)
    (h : ∃ k, EndsAfter w.params w.queue k w.items) (err : Option String) (applied : Bool) :
    (w.cancel err applied).Sound := by
  cases err with
  | some err =>
    rw [World.cancel, World.Sound]
    exact nofun
  | none =>
    by_cases htaken : 0 < w.taken
    · simp only [World.Sound, World.cancel, htaken, if_true]
      exact ⟨hopen, h⟩
    · simp only [World.Sound, World.cancel, htaken, if_false]
      rintro items heq
      rw [← Except.ok.inj heq]
      exact h

theorem World.Sound.nack (h : ∃ k, EndsAfter w.params w.queue k w.items) (err : Option String)
    (applied : Bool) : (w.nack err applied).Sound := by
  cases err with
  | some err =>
    rw [World.nack, World.Sound]
    exact nofun
  | none =>
    rw [World.nack, World.Sound]
    rintro items heq
    rw [← Except.ok.inj heq]
    cases applied <;> exact h

/-- Every step of a timely run keeps what holds. -/
theorem sound_step {label : Label} (hwhole : w.Whole) (h : w.Sound) (hs : w.step label = some v)
    (htimely : Timely w label) : v.Sound := by
  cases label with
  | connect err =>
    rw [World.step] at hs
    split at hs
    case h_1 hphase =>
      obtain rfl := Option.some.inj hs
      rw [World.Sound, hphase] at h
      exact .connect h err
    case h_2 => exact absurd hs (by simp)
  | qos err =>
    rw [World.step] at hs
    split at hs
    case h_1 hphase =>
      obtain rfl := Option.some.inj hs
      rw [World.Sound, hphase] at h
      exact .qos h.1 h.2 rfl _
    case h_2 => exact absurd hs (by simp)
  | consume err =>
    rw [World.step] at hs
    split at hs
    case h_1 hphase =>
      obtain rfl := Option.some.inj hs
      rw [World.Sound, hphase] at h
      exact .consume h.1 h.2.1 h.2.2 err
    case h_2 => exact absurd hs (by simp)
  | deliver =>
    rw [World.step] at hs
    split at hs
    case h_1 message rest hregistered hready =>
      split at hs
      case isTrue hcredit =>
        obtain rfl := Option.some.inj hs
        exact .deliver hwhole h hregistered hready hcredit
      case isFalse => exact absurd hs (by simp)
    case h_2 => exact absurd hs (by simp)
  | take =>
    rw [World.step] at hs
    split at hs
    case h_1 hphase hwants hpending =>
      obtain rfl := Option.some.inj hs
      rw [World.Sound, hphase] at h
      exact .of_reading hphase h.1 (h.2.take hwants hpending)
    case h_2 => exact absurd hs (by simp)
  | enough =>
    rw [World.step] at hs
    split at hs
    case h_1 hphase hwants =>
      obtain rfl := Option.some.inj hs
      rw [World.Sound, hphase] at h
      exact .leave h.1 (h.2.enough hwants)
    case h_2 => exact absurd hs (by simp)
  | idle =>
    rw [World.step] at hs
    split at hs
    case h_1 hphase hwants =>
      obtain rfl := Option.some.inj hs
      rw [World.Sound, hphase] at h
      exact .leave h.1 (h.2.idle htimely.1 htimely.2)
    case h_2 => exact absurd hs (by simp)
  | cancel err applied =>
    rw [World.step] at hs
    split at hs
    case h_1 hphase =>
      split at hs
      case isTrue =>
        obtain rfl := Option.some.inj hs
        rw [World.Sound, hphase] at h
        exact .cancel h.1 h.2 err applied
      case isFalse => exact absurd hs (by simp)
    case h_2 => exact absurd hs (by simp)
  | nack err applied =>
    rw [World.step] at hs
    split at hs
    case h_1 hphase =>
      obtain rfl := Option.some.inj hs
      rw [World.Sound, hphase] at h
      exact .nack h.2 err applied
    case h_2 => exact absurd hs (by simp)
  | release =>
    rw [World.step] at hs
    split at hs
    case h_1 result hphase =>
      obtain rfl := Option.some.inj hs
      rw [World.Sound, hphase] at h
      rw [World.Sound]
      exact h
    case h_2 => exact absurd hs (by simp)
  | endConsumer => exact absurd htimely id
  | die => exact absurd htimely id
  | contextDone => exact absurd htimely id
  | closed => exact absurd htimely id

theorem sound_of_timely (h : Reachable ((browsing params queue).guard Timely) w) : w.Sound := by
  refine Reachable.inv_of (P := World.Sound) (fun h => whole_of_reachable h.of_guard) ?_ ?_ h
  · rintro _ rfl
    exact sound_new params queue
  · intro s label t hwhole hsound hstep
    exact sound_step hwhole hsound hstep.1 hstep.2

/-! ### Every browse returns -/

/-- How far a phase is from the end. -/
def Phase.left : Phase → Nat
  | .connecting => 7
  | .prefetching => 6
  | .consuming => 5
  | .collecting => 4
  | .cancelling => 3
  | .nacking => 2
  | .releasing _ => 1
  | .returned _ => 0

/-- What is left to do: first the phases, and within one the messages to deliver and to take. -/
def World.rank (w : World) : ℕ ×ₗ ℕ := toLex (w.phase.left, 2 * w.ready.length + w.pending.length)

theorem rank_lt_of_phase (h : v.phase.left < w.phase.left) : v.rank < w.rank :=
  Prod.Lex.toLex_lt_toLex.mpr (.inl h)

theorem rank_lt_of_messages (hphase : v.phase = w.phase)
    (h : 2 * v.ready.length + v.pending.length < 2 * w.ready.length + w.pending.length) :
    v.rank < w.rank :=
  Prod.Lex.toLex_lt_toLex.mpr (.inr ⟨congrArg Phase.left hphase, h⟩)

/-- No timely run goes on for ever. -/
theorem rank_lt {label : Label} (hs : w.step label = some v) (htimely : Timely w label) :
    v.rank < w.rank := by
  cases label with
  | connect err =>
    rw [World.step] at hs
    split at hs
    case h_1 hphase =>
      obtain rfl := Option.some.inj hs
      cases err <;> exact rank_lt_of_phase (by simp [World.connect, hphase, Phase.left])
    case h_2 => exact absurd hs (by simp)
  | qos err =>
    rw [World.step] at hs
    split at hs
    case h_1 hphase =>
      obtain rfl := Option.some.inj hs
      cases err <;> exact rank_lt_of_phase (by simp [World.setUp, hphase, Phase.left])
    case h_2 => exact absurd hs (by simp)
  | consume err =>
    rw [World.step] at hs
    split at hs
    case h_1 hphase =>
      obtain rfl := Option.some.inj hs
      cases err <;> exact rank_lt_of_phase (by simp [World.setUp, hphase, Phase.left])
    case h_2 => exact absurd hs (by simp)
  | deliver =>
    rw [World.step] at hs
    split at hs
    case h_1 message rest hregistered hready =>
      split at hs
      case isTrue hcredit =>
        obtain rfl := Option.some.inj hs
        refine rank_lt_of_messages rfl ?_
        simp only [hready, List.length_append, List.length_cons, List.length_nil]
        omega
      case isFalse => exact absurd hs (by simp)
    case h_2 => exact absurd hs (by simp)
  | take =>
    rw [World.step] at hs
    split at hs
    case h_1 hphase hwants hpending =>
      obtain rfl := Option.some.inj hs
      refine rank_lt_of_messages rfl ?_
      simp only [World.take, hpending, List.length_cons]
      omega
    case h_2 => exact absurd hs (by simp)
  | enough =>
    rw [World.step] at hs
    split at hs
    case h_1 hphase _ =>
      obtain rfl := Option.some.inj hs
      exact rank_lt_of_phase (by simp [hphase, Phase.left])
    case h_2 => exact absurd hs (by simp)
  | idle =>
    rw [World.step] at hs
    split at hs
    case h_1 hphase _ =>
      obtain rfl := Option.some.inj hs
      exact rank_lt_of_phase (by simp [hphase, Phase.left])
    case h_2 => exact absurd hs (by simp)
  | cancel err applied =>
    rw [World.step] at hs
    split at hs
    case h_1 hphase =>
      split at hs
      case isTrue =>
        obtain rfl := Option.some.inj hs
        refine rank_lt_of_phase ?_
        cases err with
        | some err => simp [World.cancel, hphase, Phase.left]
        | none => by_cases htaken : 0 < w.taken <;> simp [World.cancel, hphase, htaken, Phase.left]
      case isFalse => exact absurd hs (by simp)
    case h_2 => exact absurd hs (by simp)
  | nack err applied =>
    rw [World.step] at hs
    split at hs
    case h_1 hphase =>
      obtain rfl := Option.some.inj hs
      cases err <;> exact rank_lt_of_phase (by simp [World.nack, hphase, Phase.left])
    case h_2 => exact absurd hs (by simp)
  | release =>
    rw [World.step] at hs
    split at hs
    case h_1 hphase =>
      obtain rfl := Option.some.inj hs
      exact rank_lt_of_phase (by simp [hphase, Phase.left])
    case h_2 => exact absurd hs (by simp)
  | endConsumer => exact absurd htimely id
  | die => exact absurd htimely id
  | contextDone => exact absurd htimely id
  | closed => exact absurd htimely id

/-- Nothing has failed so far. -/
def Phase.isFine : Phase → Bool
  | .releasing (.error _) | .returned (.error _) => false
  | _ => true

/-- A browse under way can go on, without a failure if there was none. -/
theorem goes_on (h : w.Sound) : (∃ result, w.phase = .returned result) ∨
    ∃ label v, w.step label = some v ∧ Timely w label ∧
      (w.phase.isFine = true → v.phase.isFine = true) := by
  cases hphase : w.phase with
  | connecting =>
    refine .inr ⟨.connect none, w.connect none, ?_, trivial, fun _ => rfl⟩
    simp only [World.step, hphase]
  | prefetching =>
    refine .inr ⟨.qos none, { w with prefetch := prefetchOf w.params }.setUp .consuming none, ?_,
      trivial, fun _ => rfl⟩
    simp only [World.step, hphase, Option.map_none]
  | consuming =>
    refine .inr ⟨.consume none,
      { w with registered := w.isOpen && (none : Option String).isNone }.setUp .collecting none, ?_,
      trivial, fun _ => rfl⟩
    simp only [World.step, hphase, Option.map_none]
  | collecting =>
    rw [World.Sound, hphase] at h
    cases hwants : w.wants with
    | false =>
      refine .inr ⟨.enough, { w with phase := .cancelling }, ?_, trivial, fun _ => rfl⟩
      simp only [World.step, hphase, hwants]
    | true =>
      cases hpending : w.pending with
      | cons entry rest =>
        refine .inr ⟨.take, w.take entry rest, ?_, trivial, fun _ => ?_⟩
        · simp only [World.step, hphase, hwants, hpending]
        · simp [World.take, hphase, Phase.isFine]
      | nil =>
        by_cases hidle : w.ready = [] ∨ w.prefetch ≤ w.unacked.length
        · refine .inr ⟨.idle, { w with phase := .cancelling }, ?_, ⟨hpending, hidle⟩, fun _ => rfl⟩
          simp only [World.step, hphase, hwants]
        · obtain ⟨hready, hcredit⟩ := not_or.mp hidle
          obtain ⟨message, rest, hmore⟩ := List.exists_cons_of_ne_nil hready
          refine .inr ⟨.deliver, { w with
            ready := rest, unacked := w.unacked ++ [(w.delivered + 1, message)]
            pending := w.pending ++ [(w.delivered + 1, message)], delivered := w.delivered + 1 },
            ?_, trivial, fun _ => ?_⟩
          · simp only [World.step, h.2.registered, hmore, if_pos (not_le.mp hcredit)]
          · simp [hphase, Phase.isFine]
  | cancelling =>
    rw [World.Sound, hphase] at h
    refine .inr ⟨.cancel none true, w.cancel none true, ?_, trivial, fun _ => ?_⟩
    · simp [World.step, hphase, h.1]
    · by_cases htaken : 0 < w.taken <;> simp [World.cancel, htaken, Phase.isFine]
  | nacking =>
    refine .inr ⟨.nack none true, w.nack none true, ?_, trivial, fun _ => rfl⟩
    simp only [World.step, hphase]
  | releasing result =>
    refine .inr ⟨.release, { w.drop with phase := .returned result }, ?_, trivial, ?_⟩
    · simp only [World.step, hphase]
    · cases result <;> simp [Phase.isFine]
  | returned result => exact .inl ⟨result, rfl⟩

/-! ### When a browse is right -/

/-- The query and the queue of a browse. -/
def World.subject (w : World) : MessageQueryParams × Queue := (w.params, w.queue)

theorem subject_setUp (w : World) (prefetch : Nat) (registered : Bool) (next : Phase)
    (err : Option BrowseError) :
    ({ w with prefetch := prefetch, registered := registered }.setUp next err).subject =
      w.subject := by
  cases err <;> rfl

/-- The query and the queue of a browse stay. -/
theorem subject_step {label : Label} (hs : w.step label = some v) : v.subject = w.subject := by
  cases label with
  | connect err =>
    rw [World.step] at hs
    split at hs
    case h_1 =>
      obtain rfl := Option.some.inj hs
      cases err <;> rfl
    case h_2 => exact absurd hs (by simp)
  | qos err =>
    rw [World.step] at hs
    split at hs
    case h_1 =>
      obtain rfl := Option.some.inj hs
      exact subject_setUp w _ w.registered _ _
    case h_2 => exact absurd hs (by simp)
  | consume err =>
    rw [World.step] at hs
    split at hs
    case h_1 =>
      obtain rfl := Option.some.inj hs
      exact subject_setUp w w.prefetch _ _ _
    case h_2 => exact absurd hs (by simp)
  | deliver =>
    rw [World.step] at hs
    split at hs
    case h_1 =>
      split at hs
      case isTrue =>
        obtain rfl := Option.some.inj hs
        rfl
      case isFalse => exact absurd hs (by simp)
    case h_2 => exact absurd hs (by simp)
  | cancel err applied =>
    rw [World.step] at hs
    split at hs
    case h_1 =>
      split at hs
      case isTrue =>
        obtain rfl := Option.some.inj hs
        cases err <;> rfl
      case isFalse => exact absurd hs (by simp)
    case h_2 => exact absurd hs (by simp)
  | nack err applied =>
    rw [World.step] at hs
    split at hs
    case h_1 =>
      obtain rfl := Option.some.inj hs
      cases err <;> cases applied <;> rfl
    case h_2 => exact absurd hs (by simp)
  | endConsumer => obtain rfl := Option.some.inj hs; rfl
  | die => obtain rfl := Option.some.inj hs; rfl
  | take | enough | contextDone | closed | idle | release =>
    rw [World.step] at hs
    split at hs
    case h_1 =>
      obtain rfl := Option.some.inj hs
      rfl
    case h_2 => exact absurd hs (by simp)

theorem subject_of_reachable (h : Reachable (browsing params queue) w) :
    w.params = params ∧ w.queue = queue := by
  have hsubject : w.subject = (params, queue) := by
    refine Reachable.inv (P := fun w => w.subject = (params, queue)) ?_ ?_ h
    · rintro _ rfl
      rfl
    · intro s label t hsame hs
      rw [subject_step hs, hsame]
  exact ⟨congrArg Prod.fst hsubject, congrArg Prod.snd hsubject⟩

/-- **A right browse**: it returns, with what is wanted unless a call fails, and wherever it ends
the queue is as it was. -/
structure BrowsesRight (params : MessageQueryParams) (queue : Queue) : Prop where
  goesOn : ∀ w, Reachable ((browsing params queue).guard Timely) w →
    (∃ result, w.phase = .returned result) ∨
      ∃ label v, ((browsing params queue).guard Timely).Step w label v
  shrinks : ∀ w label v, ((browsing params queue).guard Timely).Step w label v → v.rank < w.rank
  exact : ∀ w items, Reachable ((browsing params queue).guard Timely) w →
    w.phase = .returned (.ok items) → items = expected params queue
  back : ∀ w result, Reachable (browsing params queue) w → w.phase = .returned result → w.GaveBack

/-- What a timely run returns was collected by the loop. -/
theorem endsAfter_of_returned {items : List MessageItem}
    (h : Reachable ((browsing params queue).guard Timely) w)
    (hphase : w.phase = .returned (.ok items)) : ∃ k, EndsAfter params queue k items := by
  have hsound := sound_of_timely h
  obtain ⟨rfl, rfl⟩ := subject_of_reachable h.of_guard
  rw [World.Sound, hphase] at hsound
  exact hsound items rfl

/-- From every point without a failure a timely run leads to an answer. -/
theorem exists_answer (h : Reachable ((browsing params queue).guard Timely) w)
    (hfine : w.phase.isFine = true) :
    ∃ v items, Reachable ((browsing params queue).guard Timely) v ∧
      v.phase = .returned (.ok items) := by
  induction hrank : w.rank using WellFoundedLT.induction generalizing w with
  | ind rank ih =>
    rcases goes_on (sound_of_timely h) with ⟨result, hphase⟩ | ⟨label, v, hs, htimely, hstill⟩
    · cases result with
      | ok items => exact ⟨w, items, h, hphase⟩
      | error err => simp [hphase, Phase.isFine] at hfine
    · exact ih v.rank (hrank ▸ rank_lt hs htimely) (.step h ⟨hs, htimely⟩) (hstill hfine) rfl

/-- **When a RabbitMQ browse is right**: exactly if the messages past the prefetch window do not
matter. -/
theorem browsesRight_iff (hnamed : trimSpace params.topic ≠ "") :
    BrowsesRight params queue ↔ Undisturbed params queue := by
  constructor
  · intro hright
    have hfine : (World.new params queue).phase.isFine = true := by
      simp [World.new, hnamed, Phase.isFine]
    obtain ⟨w, items, hreach, hphase⟩ := exists_answer
      (.init (S := (browsing params queue).guard Timely) rfl) hfine
    obtain ⟨k, hends⟩ := endsAfter_of_returned hreach hphase
    exact hends.right_iff.mp (hright.exact w items hreach hphase)
  · intro hundisturbed
    refine ⟨fun w hreach => ?_, fun w label v hs => rank_lt hs.1 hs.2, ?_, ?_⟩
    · rcases goes_on (sound_of_timely hreach) with hreturned | ⟨label, v, hs, htimely, -⟩
      · exact .inl hreturned
      · exact .inr ⟨label, v, hs, htimely⟩
    · intro w items hreach hphase
      obtain ⟨k, hends⟩ := endsAfter_of_returned hreach hphase
      exact hends.right_iff.mpr hundisturbed
    · exact fun w result hreach hphase => gaveBack_of_returned hreach hphase

/-! ### A deep queue -/

def sampleMessage (position : Nat) : Message where
  position := position
  exchange := ""
  routingKey := "orders"
  headers := ∅
  contentType := ""
  contentEncoding := ""
  correlationId := ""
  replyTo := ""
  expiration := ""
  type := ""
  userId := ""
  appId := ""
  messageId := ""
  deliveryMode := 2
  priority := 0
  timestamp := none
  body := "order"
  redelivered := false

def sampleQueue (n : Nat) : Queue where
  messages := (List.range n).map sampleMessage
  ordered := List.pairwise_map.mpr List.pairwise_lt_range

/-- Asks for 501 messages, any. -/
def deepQuery : MessageQueryParams := ⟨"orders", "", 501, ∅⟩

theorem deepQuery_named : trimSpace deepQuery.topic ≠ "" := by decide

theorem deepQuery_filter (name : String) : deepQuery.filter name = "" := by
  simp [MessageQueryParams.filter, deepQuery]

theorem deepQuery_matches (m : Message) : deliveryMatches deepQuery m = true := by
  have hkey : trimSpace deepQuery.messageKey = "" := trimSpace_empty
  simp [deliveryMatches, deepQuery_filter, hkey]

theorem deepQuery_wanted : wantedOf deepQuery = 501 := rfl

theorem deepQuery_scan : scanOf deepQuery = 501 := by
  have hnone : hasFilters deepQuery = false := by
    simp only [hasFilters, deepQuery_filter]
    rfl
  rw [scanOf, hnone]
  rfl

/-- A queue of one message is browsed right. -/
theorem short_browse_right : BrowsesRight deepQuery (sampleQueue 1) := by
  refine (browsesRight_iff deepQuery_named).mpr (.inr (.inr fun m hm => ?_))
  have hnil : ((sampleQueue 1).messages.take (scanOf deepQuery)).drop 500 = [] :=
    List.drop_eq_nil_of_le ((List.length_take_le' _ _).trans (by simp [sampleQueue]))
  rw [hnil] at hm
  exact absurd hm (by simp)

/-- **The window ends the browse**: of 501 messages that are asked for, 500 are returned. -/
theorem deep_browse_short : ¬ ∀ params queue, trimSpace params.topic ≠ "" →
    BrowsesRight params queue := by
  intro h
  have hright := h deepQuery (sampleQueue 501) deepQuery_named
  have hfine : (World.new deepQuery (sampleQueue 501)).phase.isFine = true := by
    simp [World.new, deepQuery_named, Phase.isFine]
  obtain ⟨w, items, hreach, hphase⟩ := exists_answer
    (.init (S := (browsing deepQuery (sampleQueue 501)).guard Timely) rfl) hfine
  obtain ⟨k, hends⟩ := endsAfter_of_returned hreach hphase
  rcases hends.right_iff.mp (hright.exact w items hreach hphase) with hscan | hfull | hnone
  · rw [deepQuery_scan] at hscan
    omega
  · have hfew : (found deepQuery ((sampleQueue 501).messages.take 500)).length ≤ 500 :=
      (List.length_filter_le _ _).trans (List.length_take_le _ _)
    rw [deepQuery_wanted] at hfull
    omega
  · rw [deepQuery_scan] at hnone
    have hlast : 0 < (((sampleQueue 501).messages.take 501).drop 500).length := by
      simp [sampleQueue]
    obtain ⟨m, hm⟩ := List.exists_mem_of_length_pos hlast
    exact absurd (deepQuery_matches m) (by simp [hnone m hm])

end MqStudio.Rabbitmq.Browse
