import MqStudio.Mqtt.Stream

/-!
# What a live panel polls

The MQTT, NATS and ActiveMQ drivers number what arrives on a stream and keep the last messages of
it; a panel names the sequence it got to and is answered what came after it.

* `LiveDriver`: the streams of a driver, and the answers its polls keep to.
* `mqtt`, `nats`, `activemq`: the three drivers.
-/

namespace MqStudio.Live

open Lib.Tail
open Mqtt (LiveFilter LiveMessage LiveBatch)

/-! ### What a driver keeps to -/

/-- An answer to a poll that passed `after`, of a stream whose last sequence is `newest`. -/
structure Answers (after newest : Int) (batch : LiveBatch) : Prop where
  sorted : batch.messages.Pairwise fun a b => a.seq < b.seq
  within : ∀ m ∈ batch.messages, after < m.seq ∧ m.seq ≤ batch.cursor
  le : after ≤ batch.cursor
  known : batch.cursor ≤ newest

/-- What a stream is started with. -/
structure Spec where
  id : String
  filters : List LiveFilter
  startedAt : String
  buffer : Nat
  buffer_pos : 0 < buffer

/-- What happens to a stream between two polls. -/
inductive Event where
  | arrive (message : LiveMessage)
  | setLive (live : Bool)

structure LiveDriver where
  Stream : Type
  new : Spec → Stream
  happen : Stream → Event → Stream
  poll : Stream → Int → Int → LiveBatch
  /-- The last sequence that was given out. -/
  newest : Stream → Int
  newest_nonneg : ∀ s, 0 ≤ newest s
  newest_happen : ∀ s e, newest s ≤ newest (happen s e)
  answers : ∀ s after limit, 0 ≤ after → after ≤ newest s →
    Answers after (newest s) (poll s after limit)

/-- Messages in sequence order, up to `newest`. -/
structure Lined (newest : Int) (held : List LiveMessage) : Prop where
  nonneg : 0 ≤ newest
  sorted : held.Pairwise fun a b => a.seq < b.seq
  below : ∀ m ∈ held, m.seq ≤ newest

variable {newest after limit : Int} {held kept : List LiveMessage}

theorem lined_nil : Lined 0 [] := ⟨le_rfl, .nil, nofun⟩

theorem Lined.concat (h : Lined newest held) {m : LiveMessage} (hm : m.seq = newest + 1) :
    Lined (newest + 1) (held ++ [m]) where
  nonneg := by
    have := h.nonneg
    omega
  sorted := by
    refine List.pairwise_append.mpr ⟨h.sorted, List.pairwise_singleton _ _, fun a ha b hb => ?_⟩
    obtain rfl := List.mem_singleton.mp hb
    have := h.below a ha
    omega
  below := by
    intro a ha
    rcases List.mem_append.mp ha with ha | ha
    · have := h.below a ha
      omega
    · rw [List.mem_singleton.mp ha, hm]

theorem Lined.sublist (h : Lined newest held) (hkept : kept.Sublist held) : Lined newest kept where
  nonneg := h.nonneg
  sorted := h.sorted.sublist hkept
  below := fun m hm => h.below m (hkept.subset hm)

/-- A poll that stops at its last message, or reads on to the newest. -/
theorem Lined.answers (h : Lined newest held) {batch : LiveBatch} (hafter : after ≤ newest)
    (hgot : batch.messages.Sublist (held.filter fun m => after < m.seq))
    (hcursor : batch.cursor = newest ∨ batch.cursor = reached (·.seq) after batch.messages) :
    Answers after newest batch := by
  have hsorted : batch.messages.Pairwise fun a b => a.seq < b.seq :=
    h.sorted.sublist (hgot.trans List.filter_sublist)
  have hnewer : ∀ m ∈ batch.messages, after < m.seq ∧ m.seq ≤ newest := by
    intro m hm
    obtain ⟨hheld, hlt⟩ := List.mem_filter.mp (hgot.subset hm)
    exact ⟨of_decide_eq_true hlt, h.below m hheld⟩
  rcases hcursor with hcursor | hcursor
  · exact ⟨hsorted, fun m hm => ⟨(hnewer m hm).1, hcursor ▸ (hnewer m hm).2⟩, hcursor ▸ hafter,
      hcursor.le⟩
  · refine ⟨hsorted, fun m hm => ⟨(hnewer m hm).1, hcursor ▸ le_reached hsorted hm after⟩, ?_, ?_⟩
    · rw [hcursor]
      exact lo_le_reached fun m hm => (hnewer m hm).1
    · rw [hcursor]
      by_cases hnil : batch.messages = []
      · rwa [hnil, reached_nil]
      · obtain ⟨m, hm, hlast⟩ := reached_mem (·.seq) after hnil
        rw [hlast]
        exact (hnewer m hm).2

/-! ### MQTT -/

def mqttHappen (s : Mqtt.Stream) : Event → Mqtt.Stream
  | .arrive message => s.append message
  | .setLive live => { s with live := live }

/-- A stream whose ring is in order. -/
def MqttStream : Type := { s : Mqtt.Stream // Lined (s.nextSeq - 1) s.ring.toList }

theorem lined_append {s : Mqtt.Stream} (h : Lined (s.nextSeq - 1) s.ring.toList)
    (message : LiveMessage) :
    Lined ((s.append message).nextSeq - 1) (s.append message).ring.toList := by
  have hnext : (s.append message).nextSeq = s.nextSeq + 1 := by
    unfold Mqtt.Stream.append
    dsimp only
    split <;> rfl
  have hlined := h.concat (m := s.numbered message) (by simp [Mqtt.Stream.numbered])
  rw [← Mqtt.append_ring, show s.nextSeq - 1 + 1 = s.nextSeq + 1 - 1 by omega, ← hnext] at hlined
  exact hlined.sublist (List.sublist_append_right _ _)

def mqtt : LiveDriver where
  Stream := MqttStream
  new spec := ⟨Mqtt.newStream spec.id spec.filters spec.startedAt spec.buffer spec.buffer_pos, by
    change Lined 0 (Lib.RingBuffer.empty spec.buffer spec.buffer_pos).toList
    rw [Lib.RingBuffer.toList_empty]
    exact lined_nil⟩
  happen s e := ⟨mqttHappen s.1 e, by
    cases e with
    | arrive message => exact lined_append s.2 message
    | setLive live => exact s.2⟩
  poll s := s.1.poll
  newest s := s.1.nextSeq - 1
  newest_nonneg s := s.2.nonneg
  newest_happen := by
    rintro ⟨s, hs⟩ (message | live)
    · change s.nextSeq - 1 ≤ (s.append message).nextSeq - 1
      unfold Mqtt.Stream.append
      dsimp only
      split <;> simp
    · exact le_rfl
  answers s after limit _ hafter := by
    refine s.2.answers hafter ?_ (.inr (Mqtt.poll_cursor s.1 after limit))
    rw [Mqtt.poll_messages]
    exact (Mqtt.fresh_prefix after limit _).sublist

/-! ### NATS and ActiveMQ -/

/-- A running subscription and what it has collected. -/
structure LiveStream where
  messages : List LiveMessage
  next : Int
  received : Int
  dropped : Int
  live : Bool
  buffer : Nat

/-- The loop of a poll.  It reads on to the newest message, or until it has enough. -/
def gather (enough : Nat → Bool) (after : Int) : List LiveMessage → LiveBatch → LiveBatch
  | [], batch => batch
  | message :: rest, batch =>
    if message.seq ≤ after then gather enough after rest batch
    else if enough (batch.messages.length + 1) then
      { batch with messages := batch.messages ++ [message], cursor := message.seq }
    else gather enough after rest { batch with messages := batch.messages ++ [message] }

theorem gather_spec (enough : Nat → Bool) (after : Int) (held : List LiveMessage)
    (batch : LiveBatch) : ∃ got, (gather enough after held batch).messages = batch.messages ++ got ∧
      got.Sublist (held.filter fun m => after < m.seq) ∧
      ((gather enough after held batch).cursor = batch.cursor ∨
        got ≠ [] ∧ (gather enough after held batch).cursor = reached (·.seq) after got) := by
  induction held generalizing batch with
  | nil => exact ⟨[], (List.append_nil _).symm, List.nil_sublist _, .inl rfl⟩
  | cons m rest ih =>
    rw [gather]
    split
    · rename_i hle
      rw [List.filter_cons_of_neg (by simpa using hle)]
      exact ih batch
    · rename_i hlt
      rw [List.filter_cons_of_pos (by simpa using hlt)]
      split
      · exact ⟨[m], rfl, (List.nil_sublist _).cons_cons m, .inr ⟨by simp, rfl⟩⟩
      · obtain ⟨got, hmessages, hgot, hcursor⟩ :=
          ih { batch with messages := batch.messages ++ [m] }
        refine ⟨m :: got, ?_, hgot.cons_cons m, hcursor.imp_right fun ⟨hne, hlast⟩ => ?_⟩
        · rw [hmessages, List.append_assoc, List.singleton_append]
        · refine ⟨by simp, hlast.trans ?_⟩
          rw [reached, reached, List.getLast?_cons_of_ne_nil hne]

def LiveStream.gather (s : LiveStream) (enough : Nat → Bool) (after : Int) : LiveBatch :=
  Live.gather enough after s.messages ⟨[], s.next, s.dropped, s.received, s.live⟩

theorem LiveStream.answers {s : LiveStream} (h : Lined s.next s.messages) (enough : Nat → Bool)
    (hafter : after ≤ s.next) : Answers after s.next (s.gather enough after) := by
  obtain ⟨got, hmessages, hgot, hcursor⟩ := gather_spec enough after s.messages
    ⟨[], s.next, s.dropped, s.received, s.live⟩
  obtain rfl : (s.gather enough after).messages = got := hmessages
  exact h.answers hafter hgot (hcursor.imp_right And.right)

def newLiveStream (spec : Spec) : LiveStream := ⟨[], 0, 0, 0, true, spec.buffer⟩

namespace Nats

def defaultLiveBuffer : Int := 500

def maxLiveBuffer : Int := 10000

/-- Buffers one message, dropping the oldest when the buffer is full. -/
def deliver (s : LiveStream) (message : LiveMessage) : LiveStream :=
  let messages := s.messages ++ [{ message with seq := s.next + 1 }]
  let s := { s with received := s.received + 1, next := s.next + 1, messages := messages }
  if messages.length > s.buffer then
    let dropped := messages.length - s.buffer
    { s with messages := messages.drop dropped, dropped := s.dropped + dropped }
  else s

def drain (s : LiveStream) (after limit : Int) : LiveBatch := s.gather (fun n => limit ≤ n) after

def pollLiveSubscription (s : LiveStream) (after limit : Int) : LiveBatch :=
  drain s after (if limit ≤ 0 ∨ maxLiveBuffer < limit then defaultLiveBuffer else limit)

theorem lined_deliver {s : LiveStream} (h : Lined s.next s.messages) (message : LiveMessage) :
    Lined (deliver s message).next (deliver s message).messages := by
  have hlined := h.concat (m := { message with seq := s.next + 1 }) rfl
  unfold deliver
  dsimp only
  split
  · exact hlined.sublist (List.drop_sublist _ _)
  · exact hlined

end Nats

namespace Activemq

/-- Buffers one message, after the oldest has gone from a full buffer. -/
def append (s : LiveStream) (message : LiveMessage) : LiveStream :=
  let s := { s with received := s.received + 1 }
  let s := if s.messages.length ≥ s.buffer then
      { s with messages := s.messages.drop 1, dropped := s.dropped + 1 }
    else s
  { s with next := s.next + 1, messages := s.messages ++ [{ message with seq := s.next + 1 }] }

def pollLiveSubscription (s : LiveStream) (after limit : Int) : LiveBatch :=
  s.gather (fun n => 0 < limit && limit ≤ n) after

theorem lined_append {s : LiveStream} (h : Lined s.next s.messages) (message : LiveMessage) :
    Lined (append s message).next (append s message).messages := by
  unfold append
  dsimp only
  split
  · exact (h.sublist (List.drop_sublist 1 _)).concat rfl
  · exact h.concat rfl

end Activemq

/-- A driver that buffers messages, by the way it adds one and the way it is polled. -/
def buffered (add : LiveStream → LiveMessage → LiveStream)
    (hadd : ∀ s message, Lined s.next s.messages →
      Lined (add s message).next (add s message).messages)
    (hnext : ∀ s message, (add s message).next = s.next + 1)
    (poll : LiveStream → Int → Int → LiveBatch)
    (hpoll : ∀ s after limit, ∃ enough, poll s after limit = s.gather enough after) :
    LiveDriver where
  Stream := { s : LiveStream // Lined s.next s.messages }
  new spec := ⟨newLiveStream spec, lined_nil⟩
  happen s e :=
    match e with
    | .arrive message => ⟨add s.1 message, hadd s.1 message s.2⟩
    | .setLive live => ⟨{ s.1 with live := live }, s.2⟩
  poll s := poll s.1
  newest s := s.1.next
  newest_nonneg s := s.2.nonneg
  newest_happen := by
    rintro s (message | live)
    · change s.1.next ≤ (add s.1 message).next
      rw [hnext]
      omega
    · exact le_rfl
  answers s after limit _ hafter := by
    obtain ⟨enough, henough⟩ := hpoll s.1 after limit
    rw [henough]
    exact LiveStream.answers s.2 enough hafter

def nats : LiveDriver :=
  buffered Nats.deliver (fun _ message h => Nats.lined_deliver h message)
    (fun s message => by unfold Nats.deliver; dsimp only; split <;> rfl)
    Nats.pollLiveSubscription (fun _ _ _ => ⟨_, rfl⟩)

def activemq : LiveDriver :=
  buffered Activemq.append (fun _ message h => Activemq.lined_append h message)
    (fun s message => by unfold Activemq.append; dsimp only; split <;> rfl)
    Activemq.pollLiveSubscription (fun _ _ _ => ⟨_, rfl⟩)

end MqStudio.Live
