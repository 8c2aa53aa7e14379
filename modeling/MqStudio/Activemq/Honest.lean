import MqStudio.Activemq.Figures

/-!
# What the figures of ActiveMQ destinations tell

A figure of `activemq/destination.go` is honest if it is what the broker holds, or unknown where a
read of it failed.  The sums of Artemis take a failed read for a zero.

* `honest_classic`: every figure of Classic is honest.
* `honest_sum_iff`: a sum that is shown is honest exactly if every queue answered.
* `figures_honest_iff`: when all the figures of a list are.
-/

namespace MqStudio.Activemq.Figures

open Lib.Text Lib.Batch

variable {broker : Broker} {outage : Outage}

/-! ### Honest figures -/

/-- A figure is unknown or exact, and unknown where a read of it failed. -/
def HonestFigure {β : Type} (reading : Answers) (reads : List Request) (exact : ℕ) (unknown : β)
    (render : Int → β) (shown : β) : Prop :=
  (shown = unknown ∨ shown = render exact) ∧
    ((∃ request ∈ reads, reading request = none) → shown = unknown)

def HonestMetric (reading : Answers) (reads : List Request) (exact : ℕ) (shown : Int) : Prop :=
  HonestFigure reading reads exact unknownMetric id shown

def HonestText (reading : Answers) (reads : List Request) (exact : ℕ) (shown : Option String) :
    Prop :=
  HonestFigure reading reads exact none (fun n => some (toString n)) shown

structure HonestClassic (b : ClassicBroker) (reading : Answers) (entry : ClassicEntry)
    (shown : Destination) : Prop where
  depth : HonestMetric reading [⟨.destination entry.objectName, "QueueSize"⟩]
    (b.number entry.objectName "QueueSize") shown.depth
  subscribers : HonestMetric reading [⟨.destination entry.objectName, "ConsumerCount"⟩]
    (b.number entry.objectName "ConsumerCount") shown.subscribers
  figures : ∀ figure ∈ classicFigures,
    HonestText reading [⟨.destination entry.objectName, figure.2⟩]
      (b.number entry.objectName figure.2) shown.attributes[figure.1]?

/-- The kind of an address. -/
def ArtemisBroker.kindOf (b : ArtemisBroker) (address : String) : DestinationKind :=
  artemisKindOf (some (.texts (b.routingTypes address)))

/-- The queues that the row of an address stands for. -/
def ArtemisBroker.queuesOf (b : ArtemisBroker) (address : String) : List String :=
  queueSetFor (b.kindOf address) address (b.queues address)

/-- The read of a queue, as the driver names it. -/
def ArtemisBroker.queueRequest (b : ArtemisBroker) (address queue attr : String) : Request :=
  ⟨.queue address queue (b.kindOf address).routing, attr⟩

/-- The reads of a sum: of the names of the queues, and of each of them. -/
def ArtemisBroker.sumReads (b : ArtemisBroker) (address attr : String) : List Request :=
  ⟨.address address, "QueueNames"⟩ ::
    (b.queuesOf address).map fun queue => b.queueRequest address queue attr

/-- What the broker holds in the queues of a row. -/
def ArtemisBroker.held (b : ArtemisBroker) (address attr : String) : ℕ :=
  ((b.queuesOf address).map fun queue => b.queueNumber address queue attr).sum

structure HonestArtemis (b : ArtemisBroker) (reading : Answers) (address : String)
    (shown : Destination) : Prop where
  depth : HonestMetric reading (b.sumReads address "MessageCount") (b.held address "MessageCount")
    shown.depth
  topicSubscribers : b.kindOf address = .topic → HonestMetric reading
    [⟨.address address, "QueueCount"⟩] (b.addressNumber address "QueueCount") shown.subscribers
  queueSubscribers : b.kindOf address = .queue → HonestMetric reading
    (b.sumReads address "ConsumerCount") (b.held address "ConsumerCount") shown.subscribers
  queueCount : HonestText reading [⟨.address address, "QueueCount"⟩]
    (b.addressNumber address "QueueCount") shown.attributes["queueCount"]?
  figures : ∀ figure ∈ artemisFigures, HonestText reading (b.sumReads address figure.2)
    (b.held address figure.2) shown.attributes[figure.1]?

def HonestRow (broker : Broker) (reading : Answers) (entry : Entry) (shown : Destination) : Prop :=
  match broker, entry with
  | .classic b, .classic entry => HonestClassic b reading entry shown
  | .artemis b, .artemis address => HonestArtemis b reading address shown
  | _, _ => False

/-- Every destination that was listed has one row, which is computed from its own beans, and whose
figures are honest. -/
def Honest (broker : Broker) (outage : Outage) (includeInternal : Bool) : Prop :=
  ∃ rows, broker.list (serve broker outage) includeInternal = .ok rows ∧
    rows.Perm ((broker.entries outage includeInternal).map (row (answers broker outage))) ∧
      ∀ entry ∈ broker.entries outage includeInternal,
        (∀ other : Answers, (∀ request : Request, entry.Owns request.mbean →
            other request = answers broker outage request) →
          row other entry = row (answers broker outage) entry) ∧
        HonestRow broker (answers broker outage) entry (row (answers broker outage) entry)

/-- The attributes that are summed over queues. -/
def summed : List String := "MessageCount" :: artemisFigures.map (·.2)

/-- No read that a sum of an address rests on failed: the names of the queues were read, where the
address is a topic, and so was every attribute of every queue that they name, under the routing type
that the driver takes it to have. -/
structure Whole (b : ArtemisBroker) (outage : Outage) (address : String) : Prop where
  names : b.kindOf address = .topic → outage.failure ⟨.address address, "QueueNames"⟩ = none
  queues : outage.failure ⟨.address address, "QueueNames"⟩ = none →
    ∀ queue ∈ b.queuesOf address, b.routing address queue = (b.kindOf address).routing ∧
      ∀ attr ∈ summed, outage.failure (b.queueRequest address queue attr) = none

/-- On Artemis no read that a sum rests on failed. -/
def SumsAnswered (broker : Broker) (outage : Outage) (includeInternal : Bool) : Prop :=
  match broker with
  | .classic _ => True
  | .artemis b => ∀ address,
    Entry.artemis address ∈ broker.entries outage includeInternal → Whole b outage address

section Figures

variable {reading : Answers} {request : Request} {reads : List Request} {exact : ℕ}

/-- A figure of one read. -/
theorem honest_metric (h : reading request = none ∨ reading request = some (.number exact)) :
    HonestMetric reading [request] exact (intOr (reading request) unknownMetric) := by
  rcases h with h | h
  · rw [h]
    exact ⟨.inl rfl, fun _ => rfl⟩
  · rw [h]
    refine ⟨.inr rfl, ?_⟩
    rintro ⟨other, hother, hnone⟩
    rw [List.mem_singleton.mp hother, h] at hnone
    cases hnone

theorem honest_text (h : reading request = none ∨ reading request = some (.number exact)) :
    HonestText reading [request] exact (intText (reading request)) := by
  rcases h with h | h
  · rw [h]
    exact ⟨.inl rfl, fun _ => rfl⟩
  · rw [h]
    refine ⟨.inr rfl, ?_⟩
    rintro ⟨other, hother, hnone⟩
    rw [List.mem_singleton.mp hother, h] at hnone
    cases hnone

theorem honest_unknown {β : Type} (unknown : β) (render : Int → β) :
    HonestFigure reading reads exact unknown render unknown :=
  ⟨.inl rfl, fun _ => rfl⟩

theorem answers_number {value : Value} (hvalue : broker.value request = some value) :
    answers broker outage request = none ∨ answers broker outage request = some value := by
  rw [answers]
  cases outage.failure request with
  | some failure => exact .inl rfl
  | none => exact .inr hvalue

/-- **Every figure of Classic is honest.** -/
theorem honest_classic (b : ClassicBroker) (outage : Outage) (entry : ClassicEntry) :
    HonestClassic b (answers (.classic b) outage) entry
      (row (answers (.classic b) outage) (.classic entry)) := by
  set reading := answers (.classic b) outage with hreading
  have hread : ∀ attr, attr ∈ classicDestinationAttributes → attr ∉ ["Paused", "DLQ"] →
      readSet classicDestinationAttributes (.destination entry.objectName) reading attr =
          reading ⟨.destination entry.objectName, attr⟩ ∧
        (reading ⟨.destination entry.objectName, attr⟩ = none ∨
          reading ⟨.destination entry.objectName, attr⟩ =
            some (.number (b.number entry.objectName attr))) := by
    intro attr hattr hnumber
    refine ⟨by rw [readSet, if_pos hattr], answers_number ?_⟩
    rw [Broker.value, ClassicBroker.value]
    dsimp only
    rw [if_neg hnumber]
  refine ⟨?_, ?_, fun figure hfigure => ?_⟩
  · obtain ⟨heq, hvalue⟩ := hread "QueueSize" (by decide) (by decide)
    rw [row, classicDestination]
    dsimp only
    rw [heq]
    exact honest_metric hvalue
  · obtain ⟨heq, hvalue⟩ := hread "ConsumerCount" (by decide) (by decide)
    rw [row, classicDestination]
    dsimp only
    rw [heq]
    exact honest_metric hvalue
  · have hlisted : ∀ figure ∈ classicFigures, figure.2 ∈ classicDestinationAttributes ∧
        figure.2 ∉ ["Paused", "DLQ"] := by decide
    obtain ⟨heq, hvalue⟩ := hread figure.2 (hlisted figure hfigure).1 (hlisted figure hfigure).2
    rw [row, classicDestination]
    dsimp only
    rw [getElem?_classicAttributes hfigure, heq]
    exact honest_text hvalue

end Figures


/-! ### The sums of Artemis -/

section Sums

variable {b : ArtemisBroker} {outage : Outage} {address queue attr : String}

/-- A queue is read where the read does not fail and asks for the queue under its own routing
type. -/
theorem answers_queue (hqueue : queue ∈ b.queues address) (hattr : attr ∈ summed) :
    answers (.artemis b) outage (b.queueRequest address queue attr) =
      if b.routing address queue = (b.kindOf address).routing ∧
          outage.failure (b.queueRequest address queue attr) = none then
        some (.number (b.queueNumber address queue attr))
      else none := by
  have hnumber : ∀ attr ∈ summed, attr ≠ "Durable" ∧
      attr ∉ ["Filter", "DeadLetterAddress", "ExpiryAddress"] := by decide
  have hvalue : (Broker.artemis b).value (b.queueRequest address queue attr) =
      if (b.kindOf address).routing = b.routing address queue then
        some (.number (b.queueNumber address queue attr)) else none := by
    rw [Broker.value, ArtemisBroker.value, ArtemisBroker.queueRequest]
    dsimp only
    rw [ArtemisBroker.queueValue, if_neg (hnumber attr hattr).1, if_neg (hnumber attr hattr).2]
    exact if_congr (and_iff_right hqueue) rfl rfl
  rw [answers]
  cases outage.failure (b.queueRequest address queue attr) with
  | some failure => simp
  | none =>
    simp only [and_true]
    rw [hvalue]
    exact if_congr eq_comm rfl rfl

theorem mem_queues_of_queuesOf (h : queue ∈ b.queuesOf address) : queue ∈ b.queues address := by
  rw [ArtemisBroker.queuesOf, queueSetFor] at h
  split at h
  · exact h
  · split at h
    case isTrue hmem => exact List.mem_singleton.mp h ▸ hmem
    case isFalse => cases h

/-- What is read of the queues of a row. -/
def rowReads (b : ArtemisBroker) (outage : Outage) (address : String) : List ReadSet :=
  (b.queuesOf address).map fun queue =>
    readSet artemisQueueAttributes (.queue address queue (b.kindOf address).routing)
      (answers (.artemis b) outage)

theorem total_rowReads (hattr : attr ∈ summed) :
    total (rowReads b outage address) attr = ((b.queuesOf address).map fun queue =>
      int64Or (answers (.artemis b) outage (b.queueRequest address queue attr)) 0).sum := by
  have hlisted : ∀ attr ∈ summed, attr ∈ artemisQueueAttributes := by decide
  rw [total, rowReads, List.map_map]
  refine congrArg List.sum (List.map_congr_left fun queue _ => ?_)
  simp only [Function.comp_apply, readSet, if_pos (hlisted attr hattr)]
  rfl

theorem int64Or_answers (hqueue : queue ∈ b.queuesOf address) (hattr : attr ∈ summed) :
    0 ≤ int64Or (answers (.artemis b) outage (b.queueRequest address queue attr)) 0 := by
  rw [answers_queue (mem_queues_of_queuesOf hqueue) hattr]
  split
  · exact Int.natCast_nonneg _
  · exact le_rfl

theorem total_nonneg (hattr : attr ∈ summed) : 0 ≤ total (rowReads b outage address) attr := by
  rw [total_rowReads hattr]
  refine List.sum_nonneg fun n hn => ?_
  obtain ⟨queue, hqueue, rfl⟩ := List.mem_map.mp hn
  exact int64Or_answers hqueue hattr

/-- Every queue of a row answers a read. -/
def AllAnswer (b : ArtemisBroker) (outage : Outage) (address attr : String) : Prop :=
  ∀ queue ∈ b.queuesOf address, b.routing address queue = (b.kindOf address).routing ∧
    outage.failure (b.queueRequest address queue attr) = none

theorem total_eq_held (hattr : attr ∈ summed) (h : AllAnswer b outage address attr) :
    total (rowReads b outage address) attr = b.held address attr := by
  rw [total_rowReads hattr, ArtemisBroker.held, Nat.cast_list_sum, List.map_map]
  refine congrArg List.sum (List.map_congr_left fun queue hqueue => ?_)
  rw [answers_queue (mem_queues_of_queuesOf hqueue) hattr, if_pos (h queue hqueue)]
  rfl

/-- **A sum that is shown** is honest exactly if every queue answered. -/
theorem honest_sum_iff {β : Type} {unknown : β} {render : Int → β}
    (hrender : ∀ n : Int, 0 ≤ n → render n ≠ unknown) (hattr : attr ∈ summed)
    (hnames : answers (.artemis b) outage ⟨.address address, "QueueNames"⟩ ≠ none) :
    HonestFigure (answers (.artemis b) outage) (b.sumReads address attr) (b.held address attr)
      unknown render (render (total (rowReads b outage address) attr)) ↔
        AllAnswer b outage address attr := by
  constructor
  · rintro ⟨-, hfailed⟩ queue hqueue
    by_contra hnot
    refine hrender _ (total_nonneg hattr) (hfailed ⟨b.queueRequest address queue attr, ?_, ?_⟩)
    · exact List.mem_cons_of_mem _ (List.mem_map_of_mem hqueue)
    · rw [answers_queue (mem_queues_of_queuesOf hqueue) hattr, if_neg hnot]
  · intro h
    refine ⟨.inr (by rw [total_eq_held hattr h]), ?_⟩
    rintro ⟨request, hrequest, hnone⟩
    rcases List.mem_cons.mp hrequest with rfl | hrequest
    · exact absurd hnone hnames
    · obtain ⟨queue, hqueue, rfl⟩ := List.mem_map.mp hrequest
      rw [answers_queue (mem_queues_of_queuesOf hqueue) hattr, if_pos (h queue hqueue)] at hnone
      cases hnone

theorem rowReads_eq_nil : rowReads b outage address = [] ↔ b.queuesOf address = [] :=
  List.map_eq_nil_iff

theorem figure_summed {figure : String × String} (h : figure ∈ artemisFigures) :
    figure.2 ∈ summed :=
  List.mem_cons_of_mem _ (List.mem_map_of_mem h)

/-- A figure of an address. -/
theorem answers_address (haddress : address ∈ b.addresses) :
    answers (.artemis b) outage ⟨.address address, attr⟩ =
      if outage.failure ⟨.address address, attr⟩ = none then some (b.addressValue address attr)
      else none := by
  rw [answers]
  cases outage.failure ⟨.address address, attr⟩ with
  | some failure => rfl
  | none =>
    rw [if_pos rfl, Broker.value, ArtemisBroker.value]
    exact if_pos haddress

/-- The row of an address whose routing types were read. -/
theorem row_artemis {reading : Answers} (hreading : reading = answers (.artemis b) outage)
    (haddress : address ∈ b.addresses)
    (htypes : (reading ⟨.address address, "RoutingTypes"⟩).isSome) :
    row reading (.artemis address) = artemisDestination address (b.kindOf address)
      (addressRead reading address)
      (if outage.failure ⟨.address address, "QueueNames"⟩ = none then rowReads b outage address
        else []) := by
  have hkind : (pending reading address).kind = b.kindOf address := by
    subst hreading
    rw [answers_address haddress] at htypes
    rw [pending]
    dsimp only
    rw [answers_address haddress]
    split at htypes
    case isTrue hok =>
      rw [if_pos hok]
      rfl
    case isFalse => cases htypes
  have hqueues : (pending reading address).queues =
      if outage.failure ⟨.address address, "QueueNames"⟩ = none then b.queues address else [] := by
    subst hreading
    rw [pending]
    dsimp only
    rw [answers_address haddress]
    split <;> rfl
  have hset : (pending reading address).queueSet =
      if outage.failure ⟨.address address, "QueueNames"⟩ = none then b.queuesOf address
      else [] := by
    rw [Pending.queueSet, hqueues, hkind]
    split
    · rfl
    · show queueSetFor _ _ [] = []
      rw [queueSetFor]
      split <;> simp
  rw [row, hkind, Pending.queueReads, hset, hkind]
  congr 1
  split
  · rw [hreading]
    rfl
  · rfl


/-- A figure that an address has of itself. -/
theorem addressRead_queueCount (haddress : address ∈ b.addresses) :
    addressRead (answers (.artemis b) outage) address "QueueCount" =
        answers (.artemis b) outage ⟨.address address, "QueueCount"⟩ ∧
      (answers (.artemis b) outage ⟨.address address, "QueueCount"⟩ = none ∨
        answers (.artemis b) outage ⟨.address address, "QueueCount"⟩ =
          some (.number (b.addressNumber address "QueueCount"))) := by
  refine ⟨by rw [addressRead, readSet, if_pos (by decide)], ?_⟩
  rw [answers_address haddress]
  split
  · exact .inr rfl
  · exact .inl rfl

theorem id_ne_unknownMetric (n : Int) (h : 0 ≤ n) : id n ≠ unknownMetric := by
  rw [unknownMetric, id]
  omega

theorem text_ne_none (n : Int) (_ : 0 ≤ n) : some (toString n) ≠ none := Option.some_ne_none _

/-- A row whose queue names were not read has no sum, and no queue is owed by a topic. -/
theorem honest_unread {reading : Answers} (hreading : reading = answers (.artemis b) outage)
    (haddress : address ∈ b.addresses) (hkind : b.kindOf address = .queue) :
    HonestArtemis b reading address
      (artemisDestination address (b.kindOf address) (addressRead reading address) []) := by
  subst hreading
  obtain ⟨hcount, hvalue⟩ := @addressRead_queueCount b outage address haddress
  rw [hkind]
  refine ⟨honest_unknown _ _, ?_, fun _ => honest_unknown _ _, ?_, fun figure hfigure => ?_⟩
  · intro htopic
    rw [hkind] at htopic
    cases htopic
  · rw [artemisDestination]
    dsimp only
    rw [getElem?_artemisAttributes_queueCount, hcount]
    exact honest_text hvalue
  · rw [artemisDestination]
    dsimp only
    rw [getElem?_artemisAttributes hfigure, if_pos rfl]
    exact honest_unknown _ _

/-- A row whose queues all answered. -/
theorem honest_read {reading : Answers} (hreading : reading = answers (.artemis b) outage)
    (haddress : address ∈ b.addresses)
    (hnames : outage.failure ⟨.address address, "QueueNames"⟩ = none)
    (hall : ∀ attr ∈ summed, AllAnswer b outage address attr) :
    HonestArtemis b reading address (artemisDestination address (b.kindOf address)
      (addressRead reading address) (rowReads b outage address)) := by
  subst hreading
  obtain ⟨hcount, hvalue⟩ := @addressRead_queueCount b outage address haddress
  have hread : answers (.artemis b) outage ⟨.address address, "QueueNames"⟩ ≠ none := by
    rw [answers_address haddress, if_pos hnames]
    exact Option.some_ne_none _
  have hmetric : ∀ attr ∈ summed, HonestMetric (answers (.artemis b) outage)
      (b.sumReads address attr) (b.held address attr) (total (rowReads b outage address) attr) :=
    fun attr hattr => (honest_sum_iff id_ne_unknownMetric hattr hread).mpr (hall attr hattr)
  refine ⟨?_, fun htopic => ?_, fun hqueue => ?_, ?_, fun figure hfigure => ?_⟩
  · rw [artemisDestination]
    dsimp only
    rw [artemisDepth]
    split
    · exact hmetric _ List.mem_cons_self
    case isFalse hnil =>
      split
      · have htotal := hmetric _ List.mem_cons_self
        rwa [not_not.mp hnil] at htotal
      · exact honest_unknown _ _
  · rw [artemisDestination]
    dsimp only
    rw [artemisSubscribers, if_pos htopic, hcount]
    exact honest_metric hvalue
  · have hnot : b.kindOf address ≠ .topic := by
      rw [hqueue]
      decide
    rw [artemisDestination]
    dsimp only
    rw [artemisSubscribers, if_neg hnot]
    split
    · exact honest_unknown _ _
    · exact hmetric _ (by decide)
  · rw [artemisDestination]
    dsimp only
    rw [getElem?_artemisAttributes_queueCount, hcount]
    exact honest_text hvalue
  · rw [artemisDestination]
    dsimp only
    rw [getElem?_artemisAttributes hfigure]
    split
    · exact honest_unknown _ _
    · exact (honest_sum_iff text_ne_none (figure_summed hfigure) hread).mpr
        (hall _ (figure_summed hfigure))

/-- An honest row rests on reads that were all answered. -/
theorem whole_of_honest {reading : Answers} (hreading : reading = answers (.artemis b) outage)
    (haddress : address ∈ b.addresses)
    (h : HonestArtemis b reading address (artemisDestination address (b.kindOf address)
      (addressRead reading address)
      (if outage.failure ⟨.address address, "QueueNames"⟩ = none then rowReads b outage address
        else []))) : Whole b outage address := by
  subst hreading
  constructor
  · intro htopic
    by_contra hfailed
    obtain ⟨-, hunknown⟩ := h.depth
    have hdepth := hunknown ⟨_, List.mem_cons_self, by
      rw [answers_address haddress, if_neg hfailed]⟩
    rw [if_neg hfailed, artemisDestination] at hdepth
    dsimp only at hdepth
    rw [artemisDepth, htopic] at hdepth
    exact absurd hdepth (by decide)
  · intro hnames queue hqueue
    have hread : answers (.artemis b) outage ⟨.address address, "QueueNames"⟩ ≠ none := by
      rw [answers_address haddress, if_pos hnames]
      exact Option.some_ne_none _
    rw [if_pos hnames] at h
    have hsome : rowReads b outage address ≠ [] := fun hnil =>
      List.ne_nil_of_mem hqueue (rowReads_eq_nil.mp hnil)
    have hdepth : AllAnswer b outage address "MessageCount" := by
      have hfigure := h.depth
      rw [artemisDestination] at hfigure
      dsimp only at hfigure
      rw [artemisDepth, if_pos hsome] at hfigure
      exact (honest_sum_iff id_ne_unknownMetric List.mem_cons_self hread).mp hfigure
    refine ⟨(hdepth queue hqueue).1, fun attr hattr => ?_⟩
    rcases List.mem_cons.mp hattr with rfl | hattr
    · exact (hdepth queue hqueue).2
    · obtain ⟨figure, hmem, rfl⟩ := List.mem_map.mp hattr
      have hfigure := h.figures figure hmem
      rw [artemisDestination] at hfigure
      dsimp only at hfigure
      rw [getElem?_artemisAttributes hmem, if_neg hsome] at hfigure
      exact ((honest_sum_iff text_ne_none (figure_summed hmem) hread).mp hfigure queue hqueue).2

/-- **The row of an address** is honest exactly if no read that its sums rest on failed. -/
theorem honest_artemis_iff (haddress : address ∈ b.addresses)
    (htypes : (answers (.artemis b) outage ⟨.address address, "RoutingTypes"⟩).isSome) :
    HonestArtemis b (answers (.artemis b) outage) address
      (row (answers (.artemis b) outage) (.artemis address)) ↔ Whole b outage address := by
  rw [row_artemis rfl haddress htypes]
  refine ⟨whole_of_honest rfl haddress, fun h => ?_⟩
  by_cases hnames : outage.failure ⟨.address address, "QueueNames"⟩ = none
  · rw [if_pos hnames]
    exact honest_read rfl haddress hnames fun attr hattr queue hqueue =>
      ⟨(h.queues hnames queue hqueue).1, (h.queues hnames queue hqueue).2 attr hattr⟩
  · rw [if_neg hnames]
    refine honest_unread rfl haddress ?_
    cases hkind : b.kindOf address with
    | queue => rfl
    | topic => exact absurd (h.names hkind) hnames

end Sums

/-- **The figures are honest** exactly if, on Artemis, no read that a sum rests on failed. -/
theorem figures_honest_iff (broker : Broker) (outage : Outage) (includeInternal : Bool) :
    Honest broker outage includeInternal ↔ SumsAnswered broker outage includeInternal := by
  obtain ⟨rows, hrows, hperm⟩ := list_perm broker outage includeInternal
  have hown : ∀ entry, ∀ other : Answers, (∀ request : Request, entry.Owns request.mbean →
      other request = answers broker outage request) →
        row other entry = row (answers broker outage) entry :=
    fun _ _ hagree => row_congr hagree
  cases broker with
  | classic b =>
    refine iff_of_true ⟨rows, hrows, hperm, fun entry hentry => ⟨hown entry, ?_⟩⟩ trivial
    obtain ⟨entry, -, rfl⟩ := List.mem_map.mp hentry
    exact honest_classic b outage entry
  | artemis b =>
    have hlisted : ∀ address,
        Entry.artemis address ∈ (Broker.artemis b).entries outage includeInternal →
          address ∈ b.addresses ∧
            (answers (.artemis b) outage ⟨.address address, "RoutingTypes"⟩).isSome := by
      intro address h
      obtain ⟨other, hmem, heq⟩ := List.mem_map.mp h
      obtain rfl := Entry.artemis.inj heq
      exact ⟨(List.mem_filter.mp (List.mem_filter.mp hmem).1).1, (List.mem_filter.mp hmem).2⟩
    constructor
    · rintro ⟨_, -, -, hhonest⟩ address hentry
      obtain ⟨haddress, htypes⟩ := hlisted address hentry
      exact (honest_artemis_iff haddress htypes).mp (hhonest _ hentry).2
    · intro h
      refine ⟨rows, hrows, hperm, fun entry hentry => ⟨hown entry, ?_⟩⟩
      obtain ⟨address, -, rfl⟩ := List.mem_map.mp hentry
      obtain ⟨haddress, htypes⟩ := hlisted address hentry
      exact (honest_artemis_iff haddress htypes).mpr (h address hentry)

/-! ### A failed read that counts as zero -/

/-- A topic with two subscriptions, which hold 5 and 7 messages. -/
def newsBroker : ArtemisBroker where
  addresses := ["news"]
  routingTypes _ := ["MULTICAST"]
  queues _ := ["audit", "mail"]
  routing _ _ := .multicast
  addressNumber _ _ := 2
  addressFlag _ _ := false
  queueNumber _ queue _ := if queue = "audit" then 5 else 7
  queueFlag _ _ _ := true
  queueText _ _ _ := none

/-- The read of the depth of one of them fails. -/
def newsOutage : Outage where
  failure request :=
    if request = ⟨.queue "news" "mail" .multicast, "MessageCount"⟩ then
      some ⟨500, "java.io.IOException", "", by decide⟩
    else none
  listed _ := if_neg (by simp)

/-- The topic is shown with a depth of 5. -/
theorem news_depth_five : ¬ Honest (.artemis newsBroker) newsOutage false := by
  rintro ⟨-, -, -, h⟩
  have hentry : Entry.artemis "news" ∈ (Broker.artemis newsBroker).entries newsOutage false := by
    refine List.mem_map_of_mem (List.mem_filter.mpr ⟨List.mem_filter.mpr ⟨?_, ?_⟩, ?_⟩)
    · exact List.mem_singleton_self _
    · decide
    · decide
  obtain ⟨hexact | hexact, -⟩ := (h _ hentry).2.depth
  all_goals exact absurd hexact (by decide)

end MqStudio.Activemq.Figures
