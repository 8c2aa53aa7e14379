import MqStudio.Lib.Transition
import MqStudio.Lib.Maps

/-!
# Moving messages between RabbitMQ queues

`rabbitmq/destination_action.go`: `drain` takes messages off a queue one by one,
and `forward` publishes a copy, waits for the broker's confirm, looks for a return
and acknowledges the original.  The broker, the frames on their way to the client
and the client's own buffers each take steps of their own.

* `World.step`: the steps of the move, of the broker and of the connection.
* `Answers`: a confirm that is still on its way has a copy to it, or a return in
  front of it.
* `moves_leave_no_hole`: a message is in its queue, ready or unacknowledged, or
  the broker has confirmed a copy that it did not return, at every point of every
  run.
-/

namespace MqStudio.Rabbitmq

open Std (ExtTreeMap)
open Lib.Transition

/-! ### Messages -/

/-- A message of a queue, as it is delivered.  The broker tells messages apart by `id`. -/
structure Delivery where
  id : Nat
  exchange : String
  routingKey : String
  headers : ExtTreeMap String String compare
  contentType : String
  contentEncoding : String
  deliveryMode : Nat
  priority : Nat
  correlationId : String
  replyTo : String
  expiration : String
  messageId : String
  timestamp : Int
  type : String
  userId : String
  appId : String
  body : List UInt8

/-- What is published. -/
structure Publishing where
  headers : ExtTreeMap String String compare
  contentType : String
  contentEncoding : String
  deliveryMode : Nat
  priority : Nat
  correlationId : String
  replyTo : String
  expiration : String
  messageId : String
  timestamp : Int
  type : String
  userId : String
  appId : String
  body : List UInt8

structure MoveRequest where
  source : String
  toExchange : String
  toRoutingKey : String
  limit : Int

def defaultBrowseCount : Nat := 32

/-- How many messages a move takes at most. -/
def limitOf (request : MoveRequest) : Nat :=
  if request.limit ≤ 0 then defaultBrowseCount else request.limit.toNat

/-- Rebuilds a message for sending on, with everything the publisher set. -/
def republishing (delivery : Delivery) : Publishing where
  headers := delivery.headers
  contentType := delivery.contentType
  contentEncoding := delivery.contentEncoding
  deliveryMode := delivery.deliveryMode
  priority := delivery.priority
  correlationId := delivery.correlationId
  replyTo := delivery.replyTo
  expiration := delivery.expiration
  messageId := delivery.messageId
  timestamp := delivery.timestamp
  type := delivery.type
  userId := delivery.userId
  appId := delivery.appId
  body := delivery.body

/-- One publish of the channel, numbered, and the message it is a copy of. -/
structure Copy where
  seq : Nat
  original : Delivery
  exchange : String
  routingKey : String
  publishing : Publishing

/-- A copy goes where the request says, or with the key the original came with. -/
def copyOf (request : MoveRequest) (seq : Nat) (delivery : Delivery) : Copy where
  seq := seq
  original := delivery
  exchange := request.toExchange
  routingKey := if request.toRoutingKey = "" then delivery.routingKey else request.toRoutingKey
  publishing := republishing delivery

/-- A publish the broker hands back. -/
structure Return where
  replyCode : Nat
  replyText : String
  exchange : String
  routingKey : String

inductive MoveError where
  | noSource
  | connection (text : String)
  | enableConfirms (text : String)
  | setPrefetch (text : String)
  | consume (text : String)
  | context
  | publish (text : String)
  | waitForConfirm (text : String)
  | refused
  | unroutable (returned : Return)
  | acknowledge (text : String)

/-! ### A move and the broker -/

/-- Where the move is. -/
inductive Phase where
  | connecting
  | confirming
  | prefetching
  | consuming
  | selecting
  | publishing (delivery : Delivery)
  | waiting (delivery : Delivery) (seq : Nat)
  /-- The confirm is there, and the returns are looked at. -/
  | checking (delivery : Delivery) (seq : Nat)
  | acking (delivery : Delivery) (seq : Nat)
  | nacking (delivery : Delivery) (err : MoveError)
  | returned (err : Option MoveError)

/-- What the broker sends to the client. -/
inductive Frame where
  | deliver (delivery : Delivery)
  | handedBack (returned : Return)
  | confirm (seq : Nat) (acked : Bool)

/-- The broker's side is the queue, `ready` and `unacked`, the publish it has yet to look at, and the
copies it routed and confirmed.  The client's side is what `drain` reads from.  `entered` are all
messages the queue ever had. -/
structure World where
  request : MoveRequest
  ready : List Delivery
  unacked : List Delivery
  inflight : Option Copy
  copies : List Copy
  entered : List Delivery
  wire : List Frame
  isOpen : Bool
  deliveries : List Delivery
  returns : List Return
  published : Nat
  confirmation : Option Bool
  cancelled : Bool
  moved : Nat
  phase : Phase

def World.new (request : MoveRequest) (queue : List Delivery) : World where
  request := request
  ready := queue
  unacked := []
  inflight := none
  copies := []
  entered := queue
  wire := []
  isOpen := true
  deliveries := []
  returns := []
  published := 0
  confirmation := none
  cancelled := false
  moved := 0
  phase := if request.source = "" then .returned (some .noSource) else .connecting

/-- What the broker makes of a publish. -/
inductive Verdict where
  | routed
  | unroutable (returned : Return)
  | refused
  | lost

inductive Label where
  /-- A message is published to the source queue. -/
  | enter (delivery : Delivery)
  | send
  | settle (verdict : Verdict)
  /-- The client reads the next frame. -/
  | dispatch
  | drop
  | cancel
  | connect (err : Option String)
  | confirm (err : Option String)
  | qos (err : Option String)
  | consume (err : Option String)
  | take
  | stop
  | closed
  | idle
  /-- The publish, which may fail after the broker got it. -/
  | publish (err : Option String) (sent : Bool)
  | wait (err : Option String)
  /-- The look at the returns.  The client may have closed them with the channel. -/
  | check (closed : Bool)
  /-- The acknowledgement, which the broker may get or not. -/
  | ack (err : Option String) (applied : Bool)
  | nack (applied : Bool)

/-- The channel is gone, and what was not acknowledged is back in the queue.  A confirm that has not
come counts as a refusal. -/
def World.drop (w : World) : World :=
  { w with
    isOpen := false
    ready := w.unacked ++ w.ready
    unacked := []
    inflight := none
    wire := []
    confirmation := some (w.confirmation.getD false) }

/-- The broker sends a return in front of the confirm of the same publish. -/
def World.settle (w : World) (copy : Copy) : Verdict → World
  | .routed =>
    { w with
      inflight := none
      copies := w.copies ++ [copy]
      wire := w.wire ++ [.confirm copy.seq true] }
  | .unroutable returned =>
    { w with inflight := none, wire := w.wire ++ [.handedBack returned, .confirm copy.seq true] }
  | .refused => { w with inflight := none, wire := w.wire ++ [.confirm copy.seq false] }
  | .lost => { w with inflight := none }

/-- The buffer for returns takes one, and the reader waits while it is full. -/
def World.dispatch (w : World) (rest : List Frame) : Frame → Option World
  | .deliver delivery =>
    some { w with wire := rest, deliveries := w.deliveries ++ [delivery] }
  | .handedBack returned =>
    if w.returns = [] then some { w with wire := rest, returns := [returned] } else none
  | .confirm seq acked =>
    some { w with
      wire := rest
      confirmation := if seq = w.published ∧ w.confirmation = none then some acked
        else w.confirmation }

/-- A step of the setting up. -/
def World.setUp (w : World) (next : Phase) (err : Option MoveError) : World :=
  match err with
  | none => { w with phase := next }
  | some err => { w with phase := .returned (some err) }

def World.publish (w : World) (delivery : Delivery) (err : Option String) (sent : Bool) :
    Option World :=
  let seq := w.published + 1
  let w' : World := { w with
    published := seq
    confirmation := none
    inflight := if sent && w.isOpen then some (copyOf w.request seq delivery) else none }
  match err with
  | some err => some { w' with phase := .nacking delivery (.publish err) }
  | none => if w.isOpen then some { w' with phase := .waiting delivery seq } else none

def World.wait (w : World) (delivery : Delivery) (seq : Nat) (err : Option String) : Option World :=
  match err, w.confirmation with
  | some err, _ => some { w with phase := .nacking delivery (.waitForConfirm err) }
  | none, some true => some { w with phase := .checking delivery seq }
  | none, some false => some { w with phase := .nacking delivery .refused }
  | none, none => none

/-- What a closed Go channel of returns yields. -/
def noReturn : Return := ⟨0, "", "", ""⟩

def World.check (w : World) (delivery : Delivery) (seq : Nat) (closed : Bool) : World :=
  match w.returns with
  | returned :: rest => { w with returns := rest, phase := .nacking delivery (.unroutable returned) }
  | [] =>
    if closed && !w.isOpen then { w with phase := .nacking delivery (.unroutable noReturn) }
    else { w with phase := .acking delivery seq }

/-- Takes a message off a list, by its id. -/
def without (deliveries : List Delivery) (delivery : Delivery) : List Delivery :=
  deliveries.eraseP fun d => d.id = delivery.id

/-- An original that was acknowledged is counted, up to the limit. -/
def World.ack (w : World) (delivery : Delivery) (err : Option String) (applied : Bool) : World :=
  let w' := { w with unacked := if applied then without w.unacked delivery else w.unacked }
  match err with
  | some err => { w' with phase := .nacking delivery (.acknowledge err) }
  | none =>
    { w' with
      moved := w.moved + 1
      phase := if w.moved + 1 < limitOf w.request then .selecting else .returned none }

/-- Puts the message back where it was, if the broker still has it unacknowledged. -/
def World.nack (w : World) (delivery : Delivery) (err : MoveError) (applied : Bool) : World :=
  match applied, w.unacked.find? fun d => d.id = delivery.id with
  | true, some d =>
    { w with unacked := without w.unacked delivery, ready := d :: w.ready
             phase := .returned (some err) }
  | _, _ => { w with phase := .returned (some err) }

def World.step (w : World) : Label → Option World
  | .enter delivery =>
    if delivery.id ∈ w.entered.map (·.id) then none
    else some { w with ready := w.ready ++ [delivery], entered := w.entered ++ [delivery] }
  | .send =>
    match w.isOpen, w.ready with
    | true, delivery :: rest =>
      some { w with ready := rest, unacked := w.unacked ++ [delivery]
                    wire := w.wire ++ [.deliver delivery] }
    | _, _ => none
  | .settle verdict =>
    match w.inflight with
    | some copy => some (w.settle copy verdict)
    | none => none
  | .dispatch =>
    match w.wire with
    | frame :: rest => w.dispatch rest frame
    | [] => none
  | .drop => some w.drop
  | .cancel => some { w with cancelled := true }
  | .connect err =>
    match w.phase with
    | .connecting => some (w.setUp .confirming (err.map .connection))
    | _ => none
  | .confirm err =>
    match w.phase with
    | .confirming => some (w.setUp .prefetching (err.map .enableConfirms))
    | _ => none
  | .qos err =>
    match w.phase with
    | .prefetching => some (w.setUp .consuming (err.map .setPrefetch))
    | _ => none
  | .consume err =>
    match w.phase with
    | .consuming => some (w.setUp .selecting (err.map .consume))
    | _ => none
  | .take =>
    match w.phase, w.deliveries with
    | .selecting, delivery :: rest =>
      some { w with deliveries := rest, phase := .publishing delivery }
    | _, _ => none
  | .stop =>
    match w.phase, w.cancelled with
    | .selecting, true => some { w with phase := .returned (some .context) }
    | _, _ => none
  | .closed =>
    match w.phase with
    | .selecting =>
      if w.deliveries = [] ∨ w.isOpen = false then some { w with phase := .returned none } else none
    | _ => none
  | .idle =>
    match w.phase with
    | .selecting => some { w with phase := .returned none }
    | _ => none
  | .publish err sent =>
    match w.phase with
    | .publishing delivery => w.publish delivery err sent
    | _ => none
  | .wait err =>
    match w.phase with
    | .waiting delivery seq => w.wait delivery seq err
    | _ => none
  | .check closed =>
    match w.phase with
    | .checking delivery seq => some (w.check delivery seq closed)
    | _ => none
  | .ack err applied =>
    match w.phase with
    | .acking delivery _ => some (w.ack delivery err applied)
    | _ => none
  | .nack applied =>
    match w.phase with
    | .nacking delivery err => some (w.nack delivery err applied)
    | _ => none

def moving : System World Label where
  Init w := ∃ request queue, (queue.map (·.id)).Nodup ∧ w = World.new request queue
  Step w label v := w.step label = some v

/-! ### What is safe -/

/-- The ids of the messages that are in the queue, ready or unacknowledged. -/
def World.queued (w : World) : List Nat := w.ready.map (·.id) ++ w.unacked.map (·.id)

/-- **A duplicate, never a hole.** -/
structure World.Safe (w : World) : Prop where
  /-- A message of the queue is still there, or the broker confirmed a copy it routed. -/
  kept : ∀ delivery ∈ w.entered,
    delivery.id ∈ w.queued ∨ ∃ copy ∈ w.copies, copy.original.id = delivery.id
  /-- A copy is the message, sent where the request says. -/
  copied : ∀ copy ∈ w.copies, copy = copyOf w.request copy.seq copy.original
  limit : w.moved ≤ limitOf w.request
  confirmed : w.moved ≤ w.copies.length

/-- The broker routed the copy of this publish. -/
def World.Routed (w : World) (delivery : Delivery) (seq : Nat) : Prop :=
  ∃ copy ∈ w.copies, copy.seq = seq ∧ copy.original = delivery

/-- A confirm of the publish that is on its way has a return in front of it, or `ok` holds. -/
def Answers (seq : Nat) (ok : Prop) : List Frame → Prop
  | [] => True
  | .deliver _ :: rest => Answers seq ok rest
  | .handedBack _ :: _ => True
  | .confirm other acked :: rest => (other = seq → acked = true → ok) ∧ Answers seq ok rest

variable {w v : World} {delivery : Delivery} {seq : Nat} {ok ok' : Prop} {wire : List Frame}

theorem answers_of_ok (h : ok) (wire : List Frame) : Answers seq ok wire := by
  induction wire with
  | nil => trivial
  | cons frame rest ih =>
    cases frame with
    | deliver delivery => exact ih
    | handedBack returned => trivial
    | confirm other acked => exact ⟨fun _ _ => h, ih⟩

theorem Answers.imp (h : Answers seq ok wire) (himp : ok → ok') : Answers seq ok' wire := by
  induction wire with
  | nil => trivial
  | cons frame rest ih =>
    cases frame with
    | deliver delivery => exact ih h
    | handedBack returned => trivial
    | confirm other acked => exact ⟨fun hs ha => himp (h.1 hs ha), ih h.2⟩

/-- What the broker sends comes behind what is on its way. -/
theorem Answers.append (h : Answers seq ok wire) {more : List Frame} (hmore : Answers seq ok more) :
    Answers seq ok (wire ++ more) := by
  induction wire with
  | nil => exact hmore
  | cons frame rest ih =>
    cases frame with
    | deliver delivery => exact ih h
    | handedBack returned => trivial
    | confirm other acked => exact ⟨h.1, ih h.2⟩

/-- No confirm of the publish is on its way. -/
theorem answers_of_fresh (h : ∀ other acked, .confirm other acked ∈ wire → other ≠ seq) :
    Answers seq ok wire := by
  induction wire with
  | nil => trivial
  | cons frame rest ih =>
    have hrest := ih fun other acked hm => h other acked (List.mem_cons_of_mem _ hm)
    cases frame with
    | deliver delivery => exact hrest
    | handedBack returned => trivial
    | confirm other acked => exact ⟨fun hs => absurd hs (h other acked (by simp)), hrest⟩

/-! ### Every run -/

/-- A copy of this publish is one more than were counted. -/
def World.Counted (w : World) (seq : Nat) : Prop :=
  (∃ copy ∈ w.copies, copy.seq = seq) → w.moved + 1 ≤ w.copies.length

/-- What a move knows of the broker, by where it is. -/
def World.InPhase (w : World) : Prop :=
  match w.phase with
  | .waiting delivery seq =>
    (w.moved < limitOf w.request ∧ w.Counted seq) ∧ seq = w.published ∧
      (∀ copy, w.inflight = some copy → copy.original = delivery) ∧
      (w.confirmation = some true → w.Routed delivery seq ∨ w.returns ≠ []) ∧
      Answers seq (w.Routed delivery seq ∨ w.returns ≠ []) w.wire
  | .checking delivery seq =>
    (w.moved < limitOf w.request ∧ w.Counted seq) ∧ (w.Routed delivery seq ∨ w.returns ≠ [])
  | .acking delivery seq =>
    (w.moved < limitOf w.request ∧ w.Counted seq) ∧ w.Routed delivery seq
  | .nacking _ _ | .returned _ => True
  | _ => w.moved < limitOf w.request

structure World.Sound (w : World) : Prop where
  safe : w.Safe
  inflight : ∀ copy, w.inflight = some copy →
    copy = copyOf w.request copy.seq copy.original ∧ copy.seq ≤ w.published
  numbered : ∀ copy ∈ w.copies, copy.seq ≤ w.published
  frames : ∀ seq acked, .confirm seq acked ∈ w.wire → seq ≤ w.published
  phase : w.InPhase

theorem sound_new (request : MoveRequest) (queue : List Delivery) :
    (World.new request queue).Sound := by
  have hlimit : 0 < limitOf request := by
    rw [limitOf]
    split
    · decide
    · omega
  refine ⟨⟨fun delivery hd => Or.inl ?_, by simp [World.new], Nat.zero_le _, Nat.zero_le _⟩, nofun,
    by simp [World.new], by simp [World.new], ?_⟩
  · exact List.mem_append_left _ (List.mem_map.mpr ⟨delivery, hd, rfl⟩)
  · rw [World.InPhase, World.new]
    by_cases hs : request.source = ""
    · simp [hs]
    · simpa [hs] using hlimit

/-- The move stays where it is, and knows no less of the broker. -/
theorem World.InPhase.keep (h : w.InPhase) (hphase : v.phase = w.phase)
    (hrequest : v.request = w.request) (hmoved : v.moved = w.moved)
    (hrouted : ∀ delivery seq, w.Routed delivery seq → v.Routed delivery seq)
    (hcounted : ∀ seq, w.Counted seq → v.Counted seq) (hreturns : w.returns ≠ [] → v.returns ≠ [])
    (hwaiting : ∀ delivery seq, w.phase = .waiting delivery seq → seq = w.published →
      (∀ copy, w.inflight = some copy → copy.original = delivery) →
      (w.confirmation = some true → w.Routed delivery seq ∨ w.returns ≠ []) →
      Answers seq (w.Routed delivery seq ∨ w.returns ≠ []) w.wire →
      seq = v.published ∧ (∀ copy, v.inflight = some copy → copy.original = delivery) ∧
        (v.confirmation = some true → v.Routed delivery seq ∨ v.returns ≠ []) ∧
        Answers seq (v.Routed delivery seq ∨ v.returns ≠ []) v.wire) : v.InPhase := by
  rw [World.InPhase] at h ⊢
  rw [hphase]
  cases hp : w.phase with
  | waiting delivery seq =>
    simp only [hp, hrequest, hmoved] at h ⊢
    obtain ⟨⟨hlimit, hcount⟩, hseq, hin, hconfirmed, hanswers⟩ := h
    exact ⟨⟨hlimit, hcounted seq hcount⟩, hwaiting delivery seq hp hseq hin hconfirmed hanswers⟩
  | checking delivery seq =>
    simp only [hp, hrequest, hmoved] at h ⊢
    exact ⟨⟨h.1.1, hcounted seq h.1.2⟩, h.2.imp (hrouted delivery seq) hreturns⟩
  | acking delivery seq =>
    simp only [hp, hrequest, hmoved] at h ⊢
    exact ⟨⟨h.1.1, hcounted seq h.1.2⟩, hrouted delivery seq h.2⟩
  | nacking delivery err => trivial
  | returned err => trivial
  | _ => simpa only [hp, hrequest, hmoved] using h

/-- The queue's own traffic is no concern of the move. -/
theorem World.Sound.queue (h : w.Sound) {ready unacked entered deliveries : List Delivery}
    {more : List Frame} (hmore : ∀ seq acked, .confirm seq acked ∉ more)
    (hkept : ∀ delivery ∈ entered, delivery ∈ w.entered ∨ delivery ∈ ready)
    (hqueued : ∀ id ∈ w.queued, id ∈ ready.map (·.id) ++ unacked.map (·.id)) :
    { w with ready := ready, unacked := unacked, entered := entered, deliveries := deliveries,
             wire := w.wire ++ more }.Sound := by
  refine ⟨⟨fun delivery hd => ?_, h.safe.copied, h.safe.limit, h.safe.confirmed⟩, h.inflight,
    h.numbered, fun seq acked hf => ?_, ?_⟩
  · rcases hkept delivery hd with hd | hd
    · exact (h.safe.kept delivery hd).imp_left (hqueued _)
    · exact Or.inl (List.mem_append_left _ (List.mem_map.mpr ⟨delivery, hd, rfl⟩))
  · exact (List.mem_append.mp hf).elim (h.frames seq acked) fun hf => absurd hf (hmore seq acked)
  · refine h.phase.keep rfl rfl rfl (fun _ _ => id) (fun _ => id) id ?_
    intro delivery seq _ hseq hin hconfirmed hanswers
    exact ⟨hseq, hin, hconfirmed,
      hanswers.append (answers_of_fresh fun other acked hf => absurd hf (hmore other acked))⟩

/-- **The broker settles a publish**: a copy it routes is counted before its confirm comes. -/
theorem World.Sound.settle (h : w.Sound) {copy : Copy} (hin : w.inflight = some copy)
    (verdict : Verdict) : (w.settle copy verdict).Sound := by
  obtain ⟨hcopy, hseq⟩ := h.inflight copy hin
  cases verdict with
  | routed =>
    have hrouted : ∀ delivery seq, w.Routed delivery seq →
        (w.settle copy .routed).Routed delivery seq := by
      rintro delivery seq ⟨other, hmem, hother⟩
      exact ⟨other, List.mem_append_left _ hmem, hother⟩
    refine ⟨⟨fun delivery hd => ?_, ?_, h.safe.limit, ?_⟩, nofun, ?_, fun seq acked hf => ?_, ?_⟩
    · refine (h.safe.kept delivery hd).imp_right ?_
      rintro ⟨other, hmem, hother⟩
      exact ⟨other, List.mem_append_left _ hmem, hother⟩
    · rintro other hmem
      rcases List.mem_append.mp hmem with hmem | hmem
      · exact h.safe.copied other hmem
      · rw [List.mem_singleton.mp hmem]
        exact hcopy
    · have := h.safe.confirmed
      simp only [World.settle, List.length_append]
      omega
    · rintro other hmem
      rcases List.mem_append.mp hmem with hmem | hmem
      · exact h.numbered other hmem
      · rw [List.mem_singleton.mp hmem]
        exact hseq
    · rcases List.mem_append.mp hf with hf | hf
      · exact h.frames seq acked hf
      · obtain ⟨rfl, -⟩ : seq = copy.seq ∧ acked = true := by simpa using hf
        exact hseq
    · refine h.phase.keep rfl rfl rfl hrouted (fun seq _ _ => ?_) id ?_
      · have := h.safe.confirmed
        simp only [World.settle, List.length_append, List.length_singleton]
        omega
      · intro delivery seq _ hpub hinflight hconfirmed hanswers
        refine ⟨hpub, nofun, fun hc => (hconfirmed hc).imp_left (hrouted _ _), ?_⟩
        refine (hanswers.imp fun hok => hok.imp_left (hrouted _ _)).append ⟨fun hs _ => ?_, trivial⟩
        exact Or.inl ⟨copy, by simp [World.settle], hs, hinflight copy hin⟩
  | unroutable returned =>
    refine ⟨⟨h.safe.kept, h.safe.copied, h.safe.limit, h.safe.confirmed⟩, nofun, h.numbered,
      fun seq acked hf => ?_, ?_⟩
    · rcases List.mem_append.mp hf with hf | hf
      · exact h.frames seq acked hf
      · obtain ⟨rfl, -⟩ : seq = copy.seq ∧ acked = true := by simpa using hf
        exact hseq
    · refine h.phase.keep rfl rfl rfl (fun _ _ => id) (fun _ => id) id ?_
      intro delivery seq _ hpub _ hconfirmed hanswers
      exact ⟨hpub, nofun, hconfirmed, hanswers.append trivial⟩
  | refused =>
    refine ⟨⟨h.safe.kept, h.safe.copied, h.safe.limit, h.safe.confirmed⟩, nofun, h.numbered,
      fun seq acked hf => ?_, ?_⟩
    · rcases List.mem_append.mp hf with hf | hf
      · exact h.frames seq acked hf
      · obtain ⟨rfl, -⟩ : seq = copy.seq ∧ acked = false := by simpa using hf
        exact hseq
    · refine h.phase.keep rfl rfl rfl (fun _ _ => id) (fun _ => id) id ?_
      intro delivery seq _ hpub _ hconfirmed hanswers
      refine ⟨hpub, nofun, hconfirmed, hanswers.append ⟨fun _ hf => ?_, trivial⟩⟩
      cases hf
  | lost =>
    refine ⟨⟨h.safe.kept, h.safe.copied, h.safe.limit, h.safe.confirmed⟩, nofun, h.numbered,
      h.frames, ?_⟩
    refine h.phase.keep rfl rfl rfl (fun _ _ => id) (fun _ => id) id ?_
    intro delivery seq _ hpub _ hconfirmed hanswers
    exact ⟨hpub, nofun, hconfirmed, hanswers⟩

/-- **The client reads a frame**: a return is in its buffer before the confirm behind it is read. -/
theorem World.Sound.dispatch (h : w.Sound) {frame : Frame} {rest : List Frame}
    (hwire : w.wire = frame :: rest) (hs : w.dispatch rest frame = some v) : v.Sound := by
  have hframes : ∀ seq acked, .confirm seq acked ∈ rest → seq ≤ w.published := fun seq acked hf =>
    h.frames seq acked (hwire ▸ List.mem_cons_of_mem _ hf)
  have hsafe := h.safe
  cases frame with
  | deliver delivery =>
    obtain rfl := Option.some.inj hs
    refine ⟨⟨hsafe.kept, hsafe.copied, hsafe.limit, hsafe.confirmed⟩, h.inflight, h.numbered, hframes,
      ?_⟩
    refine h.phase.keep rfl rfl rfl (fun _ _ => id) (fun _ => id) id ?_
    intro delivery seq _ hpub hin hconfirmed hanswers
    rw [hwire] at hanswers
    exact ⟨hpub, hin, hconfirmed, hanswers⟩
  | handedBack returned =>
    simp only [World.dispatch] at hs
    split at hs
    · obtain rfl := Option.some.inj hs
      refine ⟨⟨hsafe.kept, hsafe.copied, hsafe.limit, hsafe.confirmed⟩, h.inflight, h.numbered,
        hframes, ?_⟩
      refine h.phase.keep rfl rfl rfl (fun _ _ => id) (fun _ => id) (fun _ => by simp) ?_
      intro delivery seq _ hpub hin _ _
      have hok : w.Routed delivery seq ∨ [returned] ≠ [] := Or.inr (by simp)
      exact ⟨hpub, hin, fun _ => hok, answers_of_ok hok rest⟩
    · cases hs
  | confirm other acked =>
    obtain rfl := Option.some.inj hs
    refine ⟨⟨hsafe.kept, hsafe.copied, hsafe.limit, hsafe.confirmed⟩, h.inflight, h.numbered, hframes,
      ?_⟩
    refine h.phase.keep rfl rfl rfl (fun _ _ => id) (fun _ => id) id ?_
    intro delivery seq _ hpub hin hconfirmed hanswers
    rw [hwire] at hanswers
    refine ⟨hpub, hin, fun hc => ?_, hanswers.2⟩
    by_cases hmine : other = w.published ∧ w.confirmation = none
    · have hacked : acked = true := by simpa [hmine] using hc
      exact hanswers.1 (hmine.1.trans hpub.symm) hacked
    · exact hconfirmed (by simpa [hmine] using hc)

theorem World.Sound.drop (h : w.Sound) : w.drop.Sound := by
  have hsafe := h.safe
  refine ⟨⟨fun delivery hd => (hsafe.kept delivery hd).imp_left fun hid => ?_, hsafe.copied,
    hsafe.limit, hsafe.confirmed⟩, nofun, h.numbered, by simp [World.drop], ?_⟩
  · simp only [World.queued, World.drop, List.map_append, List.map_nil, List.append_nil] at hid ⊢
    exact (List.mem_append.mp hid).elim (List.mem_append_right _) (List.mem_append_left _)
  · refine h.phase.keep rfl rfl rfl (fun _ _ => id) (fun _ => id) id ?_
    intro delivery seq _ hpub _ hconfirmed _
    refine ⟨hpub, nofun, fun hc => hconfirmed ?_, trivial⟩
    -- What was not confirmed before counts as refused.
    cases hw : w.confirmation with
    | none => simp [World.drop, hw] at hc
    | some acked => simpa [World.drop, hw] using hc

/-- The move goes on in a phase that asks for no more than a place below the limit. -/
theorem World.Sound.goTo (h : w.Sound) (phase : Phase) {deliveries : List Delivery}
    {returns : List Return}
    (hphase : { w with phase := phase, deliveries := deliveries, returns := returns }.InPhase) :
    { w with phase := phase, deliveries := deliveries, returns := returns }.Sound :=
  ⟨⟨h.safe.kept, h.safe.copied, h.safe.limit, h.safe.confirmed⟩, h.inflight, h.numbered, h.frames,
    hphase⟩

/-- **A publish**: no copy and no confirm has its number yet. -/
theorem World.Sound.publish (h : w.Sound) {err : Option String} {sent : Bool}
    (hp : w.phase = .publishing delivery) (hs : w.publish delivery err sent = some v) : v.Sound := by
  have hlimit : w.moved < limitOf w.request := by
    have := h.phase
    rw [World.InPhase, hp] at this
    exact this
  have hin : ∀ copy, (if (sent && w.isOpen) = true then
      some (copyOf w.request (w.published + 1) delivery) else none) = some copy →
      copy = copyOf w.request (w.published + 1) delivery := by
    intro copy hc
    split at hc
    · exact (Option.some.inj hc).symm
    · cases hc
  have hsafe := h.safe
  have hfields : ∀ phase, { w with
      published := w.published + 1, confirmation := none,
      inflight := if (sent && w.isOpen) = true then
        some (copyOf w.request (w.published + 1) delivery) else none,
      phase := phase }.InPhase → { w with
      published := w.published + 1, confirmation := none,
      inflight := if (sent && w.isOpen) = true then
        some (copyOf w.request (w.published + 1) delivery) else none,
      phase := phase }.Sound := by
    intro phase hphase
    refine ⟨⟨hsafe.kept, hsafe.copied, hsafe.limit, hsafe.confirmed⟩, fun copy hc => ?_,
      fun copy hc => (h.numbered copy hc).trans (Nat.le_succ _),
      fun seq acked hf => (h.frames seq acked hf).trans (Nat.le_succ _), hphase⟩
    rw [hin copy hc]
    exact ⟨rfl, le_rfl⟩
  cases err with
  | some err =>
    obtain rfl := Option.some.inj hs
    exact hfields _ trivial
  | none =>
    simp only [World.publish] at hs
    split at hs
    · obtain rfl := Option.some.inj hs
      refine hfields _ ⟨⟨hlimit, ?_⟩, rfl, ?_, nofun, ?_⟩
      · rintro ⟨copy, hc, hseq⟩
        have := h.numbered copy hc
        omega
      · intro copy hc
        rw [hin copy hc]
        rfl
      · refine answers_of_fresh fun other acked hf heq => ?_
        have := h.frames other acked hf
        omega
    · cases hs

theorem World.Sound.wait (h : w.Sound) {err : Option String} (hp : w.phase = .waiting delivery seq)
    (hs : w.wait delivery seq err = some v) : v.Sound := by
  have hphase := h.phase
  rw [World.InPhase, hp] at hphase
  obtain ⟨hplace, -, -, hconfirmed, -⟩ := hphase
  cases err with
  | some err => exact Option.some.inj hs ▸ h.goTo (.nacking delivery (.waitForConfirm err)) trivial
  | none =>
    cases hc : w.confirmation with
    | none => simp [World.wait, hc] at hs
    | some acked =>
      cases acked with
      | true =>
        have hwait : w.wait delivery seq none = some { w with phase := .checking delivery seq } := by
          unfold World.wait
          rw [hc]
        obtain rfl := Option.some.inj (hwait.symm.trans hs)
        exact h.goTo (.checking delivery seq) ⟨hplace, hconfirmed hc⟩
      | false =>
        have hwait : w.wait delivery seq none =
            some { w with phase := .nacking delivery .refused } := by
          unfold World.wait
          rw [hc]
        obtain rfl := Option.some.inj (hwait.symm.trans hs)
        exact h.goTo (.nacking delivery .refused) trivial

/-- With no return in the buffer, a confirmed copy was routed. -/
theorem World.Sound.check (h : w.Sound) (hp : w.phase = .checking delivery seq) {closed : Bool} :
    (w.check delivery seq closed).Sound := by
  have hphase := h.phase
  rw [World.InPhase, hp] at hphase
  obtain ⟨hplace, hok⟩ := hphase
  cases hr : w.returns with
  | nil =>
    unfold World.check
    rw [hr]
    simp only
    split
    · exact hr ▸ h.goTo (.nacking delivery (.unroutable noReturn)) trivial
    · exact hr ▸ h.goTo (.acking delivery seq) ⟨hplace, hok.resolve_right fun hne => hne hr⟩
  | cons returned rest =>
    have hcheck : w.check delivery seq closed =
        { w with returns := rest, phase := .nacking delivery (.unroutable returned) } := by
      unfold World.check
      rw [hr]
    rw [hcheck]
    exact h.goTo (.nacking delivery (.unroutable returned)) trivial

theorem mem_without {deliveries : List Delivery} {id : Nat} (delivery : Delivery)
    (h : id ∈ deliveries.map (·.id)) :
    id = delivery.id ∨ id ∈ (without deliveries delivery).map (·.id) := by
  obtain ⟨other, hmem, rfl⟩ := List.mem_map.mp h
  by_cases hid : other.id = delivery.id
  · exact Or.inl hid
  · refine Or.inr (List.mem_map.mpr ⟨other, ?_, rfl⟩)
    exact (List.mem_eraseP_of_neg (by simpa using hid)).mpr hmem

/-- **The original is acknowledged**, and a copy of it was routed and confirmed. -/
theorem World.Sound.ack (h : w.Sound) {err : Option String} {applied : Bool}
    (hp : w.phase = .acking delivery seq) : (w.ack delivery err applied).Sound := by
  have hphase := h.phase
  rw [World.InPhase, hp] at hphase
  obtain ⟨⟨hlimit, hcount⟩, copy, hcopy, hseq, rfl⟩ := hphase
  have hsafe := h.safe
  have hkept : ∀ d ∈ w.entered,
      d.id ∈ w.ready.map (·.id) ++
        (if applied = true then without w.unacked copy.original else w.unacked).map (·.id) ∨
      ∃ copy ∈ w.copies, copy.original.id = d.id := by
    intro d hd
    rcases hsafe.kept d hd with hin | hrouted
    · rcases List.mem_append.mp hin with hin | hin
      · exact Or.inl (List.mem_append_left _ hin)
      · cases applied with
        | false => exact Or.inl (List.mem_append_right _ hin)
        | true =>
          rcases mem_without copy.original hin with heq | hin
          · exact Or.inr ⟨copy, hcopy, heq.symm⟩
          · exact Or.inl (List.mem_append_right _ hin)
    · exact Or.inr hrouted
  cases err with
  | some err =>
    exact ⟨⟨hkept, hsafe.copied, hsafe.limit, hsafe.confirmed⟩, h.inflight, h.numbered, h.frames,
      trivial⟩
  | none =>
    refine ⟨⟨hkept, hsafe.copied, hlimit, hcount ⟨copy, hcopy, hseq⟩⟩, h.inflight, h.numbered,
      h.frames, ?_⟩
    simp only [World.InPhase, World.ack]
    by_cases hmore : w.moved + 1 < limitOf w.request
    · simp [hmore]
    · simp [hmore]

theorem World.Sound.nack (h : w.Sound) {err : MoveError} {applied : Bool} :
    (w.nack delivery err applied).Sound := by
  have hsafe := h.safe
  have hstay : { w with phase := .returned (some err) }.Sound := h.goTo _ trivial
  unfold World.nack
  split
  · rename_i d hfind
    have hid : d.id = delivery.id := by simpa using List.find?_some hfind
    refine ⟨⟨fun other hother => (hsafe.kept other hother).imp_left fun hin => ?_, hsafe.copied,
      hsafe.limit, hsafe.confirmed⟩, h.inflight, h.numbered, h.frames, trivial⟩
    simp only [World.queued, List.map_cons, List.cons_append, List.mem_cons] at hin ⊢
    rcases List.mem_append.mp hin with hin | hin
    · exact Or.inr (List.mem_append_left _ hin)
    · rcases mem_without delivery hin with heq | hin
      · exact Or.inl (heq.trans hid.symm)
      · exact Or.inr (List.mem_append_right _ hin)
  · exact hstay

/-- A step of the setting up leaves the move below the limit. -/
theorem World.Sound.setUp (h : w.Sound) (next : Phase) (hnext : { w with phase := next }.InPhase)
    (err : Option MoveError) : (w.setUp next err).Sound := by
  cases err with
  | none => exact h.goTo next hnext
  | some err => exact h.goTo (.returned (some err)) trivial

theorem sound_step (h : w.Sound) {label : Label} (hs : w.step label = some v) : v.Sound := by
  have hphase := h.phase
  cases label with
  | enter delivery =>
    simp only [World.step] at hs
    split at hs
    · cases hs
    · obtain rfl := Option.some.inj hs
      have hqueued : ∀ id ∈ w.queued,
          id ∈ (w.ready ++ [delivery]).map (·.id) ++ w.unacked.map (·.id) := by
        intro id hid
        simp only [World.queued, List.map_append, List.mem_append] at hid ⊢
        exact hid.imp_left Or.inl
      have hadded : { w with
          ready := w.ready ++ [delivery], entered := w.entered ++ [delivery],
          wire := w.wire ++ [] }.Sound := by
        refine h.queue (by simp) (fun other hother => ?_) hqueued
        exact (List.mem_append.mp hother).imp_right (List.mem_append_right _)
      rwa [List.append_nil] at hadded
  | send =>
    simp only [World.step] at hs
    split at hs
    · rename_i delivery rest hopen hready
      obtain rfl := Option.some.inj hs
      refine h.queue (by simp) (fun other hother => Or.inl hother) ?_
      intro id hid
      simp only [World.queued, hready, List.map_cons, List.cons_append, List.mem_cons,
        List.mem_append, List.map_append] at hid ⊢
      tauto
    · cases hs
  | settle verdict =>
    simp only [World.step] at hs
    split at hs
    · rename_i copy hin
      exact Option.some.inj hs ▸ h.settle hin verdict
    · cases hs
  | dispatch =>
    simp only [World.step] at hs
    split at hs
    · rename_i frame rest hwire
      exact h.dispatch hwire hs
    · cases hs
  | drop => exact Option.some.inj hs ▸ h.drop
  | cancel =>
    obtain rfl := Option.some.inj hs
    exact ⟨⟨h.safe.kept, h.safe.copied, h.safe.limit, h.safe.confirmed⟩, h.inflight, h.numbered,
      h.frames, hphase⟩
  | connect err =>
    simp only [World.step] at hs
    split at hs
    · rename_i hp
      rw [World.InPhase, hp] at hphase
      exact Option.some.inj hs ▸ h.setUp .confirming hphase _
    · cases hs
  | confirm err =>
    simp only [World.step] at hs
    split at hs
    · rename_i hp
      rw [World.InPhase, hp] at hphase
      exact Option.some.inj hs ▸ h.setUp .prefetching hphase _
    · cases hs
  | qos err =>
    simp only [World.step] at hs
    split at hs
    · rename_i hp
      rw [World.InPhase, hp] at hphase
      exact Option.some.inj hs ▸ h.setUp .consuming hphase _
    · cases hs
  | consume err =>
    simp only [World.step] at hs
    split at hs
    · rename_i hp
      rw [World.InPhase, hp] at hphase
      exact Option.some.inj hs ▸ h.setUp .selecting hphase _
    · cases hs
  | take =>
    simp only [World.step] at hs
    split at hs
    · rename_i delivery rest hp hdeliveries
      rw [World.InPhase, hp] at hphase
      exact Option.some.inj hs ▸ h.goTo (.publishing delivery) hphase
    · cases hs
  | stop =>
    simp only [World.step] at hs
    split at hs
    · exact Option.some.inj hs ▸ h.goTo (.returned (some .context)) trivial
    · cases hs
  | closed =>
    simp only [World.step] at hs
    split at hs
    · split at hs
      · exact Option.some.inj hs ▸ h.goTo (.returned none) trivial
      · cases hs
    · cases hs
  | idle =>
    simp only [World.step] at hs
    split at hs
    · exact Option.some.inj hs ▸ h.goTo (.returned none) trivial
    · cases hs
  | publish err sent =>
    simp only [World.step] at hs
    split at hs
    · rename_i delivery hp
      exact h.publish hp hs
    · cases hs
  | wait err =>
    simp only [World.step] at hs
    split at hs
    · rename_i delivery seq hp
      exact h.wait hp hs
    · cases hs
  | check closed =>
    simp only [World.step] at hs
    split at hs
    · rename_i delivery seq hp
      exact Option.some.inj hs ▸ h.check hp
    · cases hs
  | ack err applied =>
    simp only [World.step] at hs
    split at hs
    · rename_i delivery seq hp
      exact Option.some.inj hs ▸ h.ack hp
    · cases hs
  | nack applied =>
    simp only [World.step] at hs
    split at hs
    · rename_i delivery err hp
      exact Option.some.inj hs ▸ h.nack
    · cases hs

theorem sound_of_reachable (h : Reachable moving w) : w.Sound := by
  refine h.inv ?_ ?_
  · rintro w ⟨request, queue, -, rfl⟩
    exact sound_new request queue
  · intro w label v hw hs
    exact sound_step hw hs

/-- **Moving messages leaves a duplicate, never a hole**: at every point of every run, each message
of the source queue is still there, or the broker has confirmed a copy it did not return. -/
theorem moves_leave_no_hole (h : Reachable moving w) : w.Safe :=
  (sound_of_reachable h).safe

/-- A message with an id, a routing key and a body. -/
def plainDelivery (id : Nat) (routingKey : String) (body : List UInt8) : Delivery where
  id := id
  exchange := "dlx"
  routingKey := routingKey
  headers := ∅
  contentType := "text/plain"
  contentEncoding := ""
  deliveryMode := 2
  priority := 0
  correlationId := ""
  replyTo := ""
  expiration := ""
  messageId := ""
  timestamp := 0
  type := ""
  userId := ""
  appId := ""
  body := body

/-- Two dead letters: one is routed and acknowledged, the other comes back before its confirm. -/
theorem second_comes_back : ∃ w, Reachable moving w ∧
    (w.moved = 1 ∧ w.copies.map (·.original.id) = [1] ∧ w.queued = [2]) ∧ w.Safe := by
  let start := World.new ⟨"orders.dlq", "", "", 10⟩
    [plainDelivery 1 "orders" [104], plainDelivery 2 "gone" [105]]
  let run : List Label :=
    [.connect none, .confirm none, .qos none, .consume none,
      .send, .dispatch, .take, .publish none true, .settle .routed, .dispatch, .wait none,
      .check false, .ack none true,
      .send, .dispatch, .take, .publish none true,
      .settle (.unroutable ⟨312, "NO_ROUTE", "", "gone"⟩),
      .dispatch, .dispatch, .wait none, .check false, .nack true]
  have hrun : (runSteps World.step start run).map (fun w =>
      decide (w.moved = 1 ∧ w.copies.map (·.original.id) = [1] ∧ w.queued = [2])) = some true := by
    decide
  obtain ⟨w, hw, hend⟩ := Option.map_eq_some_iff.mp hrun
  have hstart : Reachable moving start := .init ⟨_, _, by decide, rfl⟩
  have hreach : Reachable moving w := (Path.of_runSteps (S := moving) id hw).reachable hstart
  exact ⟨w, hreach, of_decide_eq_true hend, moves_leave_no_hole hreach⟩

end MqStudio.Rabbitmq
