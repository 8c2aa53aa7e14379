import MqStudio.Lib.RingBuffer
import MqStudio.Lib.Tail
import MqStudio.Lib.Transition

/-!
# One MQTT live stream

A stream numbers what arrives and keeps the last messages in a ring; a caller
polls it with the sequence it got to.  `Session` is a stream with one such
caller, what the caller was given so far and what the ring overwrote.

* `append_*`, `poll_*`: what one arrival and one poll do, over the list the ring
  holds.
* `Session.Sound`: the arrivals, overwritten or held, are numbered from one, and
  the caller was given every one up to its cursor that was not overwritten.
* `poller_loses_nothing_silently`: what this means for the caller, after every
  order of arrivals and polls.
-/

namespace MqStudio.Mqtt

open Lib (RingBuffer)
open Lib.Tail
open Std (ExtTreeMap)

/-- A filter of a stream, with the options it is subscribed with. -/
structure LiveFilter where
  pattern : String
  options : ExtTreeMap String String compare

/-- One message as it arrived; its body is the bytes of a Go string. -/
structure LiveMessage where
  seq : Int
  destination : String
  filter : String
  receivedAt : String
  body : List UInt8
  truncated : Bool
  attributes : ExtTreeMap String String compare

/-- One poll's worth of a stream. -/
structure LiveBatch where
  messages : List LiveMessage
  cursor : Int
  dropped : Int
  received : Int
  live : Bool

/-- One live subscription and the buffer behind it. -/
structure Stream where
  id : String
  filters : List LiveFilter
  startedAt : String
  ring : RingBuffer LiveMessage
  nextSeq : Int
  received : Int
  dropped : Int
  live : Bool

def newStream (id : String) (filters : List LiveFilter) (startedAt : String) (buffer : Nat)
    (h : 0 < buffer) : Stream where
  id := id
  filters := filters
  startedAt := startedAt
  ring := .empty buffer h
  nextSeq := 1
  received := 0
  dropped := 0
  live := true

/-- Stores one message, discarding the oldest when the ring is full. -/
def Stream.append (s : Stream) (message : LiveMessage) : Stream :=
  let message := { message with seq := s.nextSeq }
  let s := { s with nextSeq := s.nextSeq + 1, received := s.received + 1 }
  if s.ring.length = s.ring.cells.length then
    { s with ring := s.ring.push message, dropped := s.dropped + 1 }
  else { s with ring := s.ring.push message }

/-- The loop of a poll over the messages held, oldest first. -/
def collect (after limit : Int) : List LiveMessage → LiveBatch → LiveBatch
  | [], batch => batch
  | message :: rest, batch =>
    if message.seq ≤ after then collect after limit rest batch
    else if 0 < limit ∧ limit ≤ batch.messages.length then batch
    else
      collect after limit rest
        { batch with messages := batch.messages ++ [message], cursor := message.seq }

def Stream.oldestSeqLocked (s : Stream) : Int :=
  if s.ring.length = 0 then 0 else ((s.ring.get? 0).map (·.seq)).getD 0

/-- What arrived after a sequence, oldest first. -/
def Stream.poll (s : Stream) (after limit : Int) : LiveBatch :=
  let batch := collect after limit s.ring.toList ⟨[], after, s.dropped, s.received, s.live⟩
  let oldest := s.oldestSeqLocked
  if batch.messages = [] ∧ 0 < oldest ∧ after < oldest - 1 then { batch with cursor := oldest - 1 }
  else batch

/-! ### One poll -/

/-- What a poll hands on: the messages held after the cursor, up to the limit. -/
def fresh (after limit : Int) (held : List LiveMessage) : List LiveMessage :=
  let newer := held.filter fun m => after < m.seq
  if 0 < limit then newer.take limit.toNat else newer

theorem fresh_prefix (after limit : Int) (held : List LiveMessage) :
    fresh after limit held <+: held.filter fun m => after < m.seq := by
  unfold fresh
  dsimp only
  split
  · exact List.take_prefix _ _
  · exact List.prefix_rfl

/-- A poll that finds something hands on something. -/
theorem fresh_ne_nil {after : Int} (limit : Int) {held : List LiveMessage} {m : LiveMessage}
    (hm : m ∈ held) (h : after < m.seq) : fresh after limit held ≠ [] := by
  have hne : held.filter (fun m => after < m.seq) ≠ [] :=
    List.ne_nil_of_mem (List.mem_filter.mpr ⟨hm, by simpa using h⟩)
  unfold fresh
  dsimp only
  split
  · rw [ne_eq, List.take_eq_nil_iff, not_or]
    exact ⟨by omega, hne⟩
  · exact hne

theorem collect_messages (after limit : Int) (held : List LiveMessage) (batch : LiveBatch) :
    (collect after limit held batch).messages = batch.messages ++
      (let newer := held.filter fun m => after < m.seq
       if 0 < limit then newer.take (limit.toNat - batch.messages.length) else newer) := by
  induction held generalizing batch with
  | nil => simp [collect]
  | cons m rest ih =>
    rw [collect]
    split
    · rename_i hle
      rw [ih, List.filter_cons_of_neg (by simpa using hle)]
    · rename_i hlt
      rw [List.filter_cons_of_pos (by simpa using hlt)]
      split
      · rename_i hfull
        rw [if_pos hfull.1, show limit.toNat - batch.messages.length = 0 by omega]
        simp
      · rename_i hfree
        rw [ih]
        dsimp only
        by_cases hpos : 0 < limit
        · obtain ⟨k, hk⟩ : ∃ k, limit.toNat - batch.messages.length = k + 1 :=
            ⟨limit.toNat - batch.messages.length - 1, by omega⟩
          rw [if_pos hpos, if_pos hpos, hk, List.take_succ_cons, List.length_append,
            List.length_singleton, show limit.toNat - (batch.messages.length + 1) = k by omega]
          simp
        · rw [if_neg hpos, if_neg hpos]
          simp

/-- The cursor is that of the last message collected. -/
theorem collect_cursor {after limit : Int} (held : List LiveMessage) {batch : LiveBatch}
    (h : batch.cursor = reached (·.seq) after batch.messages) :
    (collect after limit held batch).cursor =
      reached (·.seq) after (collect after limit held batch).messages := by
  induction held generalizing batch with
  | nil => exact h
  | cons m rest ih =>
    rw [collect]
    split
    · exact ih h
    · split
      · exact h
      · exact ih (by simp)

theorem poll_messages (s : Stream) (after limit : Int) :
    (s.poll after limit).messages = fresh after limit s.ring.toList := by
  have hmsgs := collect_messages after limit s.ring.toList
    ⟨[], after, s.dropped, s.received, s.live⟩
  have hpoll : (s.poll after limit).messages = (collect after limit s.ring.toList
      ⟨[], after, s.dropped, s.received, s.live⟩).messages := by
    unfold Stream.poll
    dsimp only
    split <;> rfl
  rw [hpoll, hmsgs]
  rfl

/-- The oldest sequence is that of the first message held. -/
theorem oldestSeqLocked_eq (s : Stream) :
    s.oldestSeqLocked = (s.ring.toList.head?.map (·.seq)).getD 0 := by
  have hhead := s.ring.getElem?_toList 0
  unfold Stream.oldestSeqLocked
  split
  · rename_i h
    have hnil : s.ring.toList = [] := List.eq_nil_of_length_eq_zero (h ▸ s.ring.length_toList)
    rw [hnil]
    rfl
  · rename_i h
    rw [List.head?_eq_getElem?, hhead, if_pos (Nat.pos_of_ne_zero h)]

/-- A poll that hands on nothing stays where it is: the oldest message held is at the cursor or
before it, so the jump over lost messages is never taken. -/
theorem poll_cursor (s : Stream) (after limit : Int) :
    (s.poll after limit).cursor = reached (·.seq) after (s.poll after limit).messages := by
  have hcur := @collect_cursor after limit s.ring.toList
    ⟨[], after, s.dropped, s.received, s.live⟩ rfl
  have hmsgs := poll_messages s after limit
  unfold Stream.poll at hmsgs ⊢
  dsimp only at hmsgs ⊢
  split
  · rename_i hjump
    obtain ⟨hnil, hpos, hlt⟩ := hjump
    rw [if_pos ⟨hnil, hpos, hlt⟩] at hmsgs
    rw [oldestSeqLocked_eq] at hpos hlt
    cases hh : s.ring.toList.head? with
    | none => simp [hh] at hpos
    | some m =>
      rw [hh, Option.map_some, Option.getD_some] at hlt
      have hm : m ∈ s.ring.toList := List.mem_of_mem_head? (by rw [hh]; rfl)
      exact absurd (hmsgs.symm.trans hnil) (fresh_ne_nil _ hm (by omega))
  · exact hcur

/-! ### One arrival -/

/-- What the next arrival overwrites. -/
def Stream.overwritten (s : Stream) : List LiveMessage :=
  if s.ring.length = s.ring.cells.length then s.ring.toList.take 1 else []

/-- A message under the next sequence of a stream. -/
def Stream.numbered (s : Stream) (message : LiveMessage) : LiveMessage :=
  { message with seq := s.nextSeq }

/-- What is overwritten and what is held then are what was held and the arrival. -/
theorem append_ring (s : Stream) (message : LiveMessage) :
    s.overwritten ++ (s.append message).ring.toList = s.ring.toList ++ [s.numbered message] := by
  have hring : (s.append message).ring = s.ring.push (s.numbered message) := by
    unfold Stream.append
    dsimp only
    split <;> rfl
  rw [hring, RingBuffer.toList_push, Stream.overwritten]
  split
  · rw [← List.append_assoc, ← List.drop_one, List.take_append_drop]
  · rfl

theorem append_dropped (s : Stream) (message : LiveMessage) :
    (s.append message).dropped = s.dropped + s.overwritten.length := by
  have hpos : 0 < s.ring.cells.length := Nat.zero_lt_of_lt s.ring.start_lt
  unfold Stream.append Stream.overwritten
  dsimp only
  split
  · simp
    omega
  · simp

/-- Once something is overwritten the ring is full. -/
theorem append_full {s : Stream} {message : LiveMessage} (h : s.overwritten ≠ []) :
    (s.append message).ring.length = (s.append message).ring.cells.length := by
  unfold Stream.overwritten at h
  split at h
  · rename_i hfull
    unfold Stream.append
    simp [hfull, RingBuffer.length_push]
  · exact absurd rfl h

/-! ### A stream and its caller -/

/-- A stream, the caller's cursor, what the caller was given and what was overwritten. -/
structure Session where
  stream : Stream
  cursor : Int
  returned : List LiveMessage
  lost : List LiveMessage

inductive Event where
  | arrive (message : LiveMessage)
  | poll (limit : Int)

def Session.step (s : Session) : Event → Session
  | .arrive message =>
    { s with stream := s.stream.append message, lost := s.lost ++ s.stream.overwritten }
  | .poll limit =>
    let batch := s.stream.poll s.cursor limit
    { s with cursor := batch.cursor, returned := s.returned ++ batch.messages }

/-- What the stream holds. -/
def Session.held (s : Session) : List LiveMessage := s.stream.ring.toList

/-- Everything that arrived, under its sequence. -/
def Session.arrived (s : Session) : List LiveMessage := s.lost ++ s.held

/-- Sequences count the arrivals from one. -/
def Numbered (ms : List LiveMessage) : Prop :=
  ms.map (·.seq) = (List.range ms.length).map fun i : Nat => (i : Int) + 1

theorem Numbered.seq_eq {ms : List LiveMessage} (h : Numbered ms) {i : Nat} {m : LiveMessage}
    (hm : ms[i]? = some m) : m.seq = i + 1 := by
  obtain ⟨hlt, rfl⟩ := List.getElem?_eq_some_iff.mp hm
  have hi := congrArg (·[i]?) h
  simpa [hlt] using hi

theorem Numbered.sorted {ms : List LiveMessage} (h : Numbered ms) :
    ms.Pairwise fun a b => a.seq < b.seq := by
  have hmap : (ms.map (·.seq)).Pairwise (· < ·) := by
    rw [show ms.map (·.seq) = _ from h]
    exact List.pairwise_map.mpr (List.pairwise_lt_range.imp fun hlt => by omega)
  exact List.pairwise_map.mp hmap

theorem Numbered.concat {ms : List LiveMessage} (h : Numbered ms) {m : LiveMessage}
    (hm : m.seq = ms.length + 1) : Numbered (ms ++ [m]) := by
  unfold Numbered at h ⊢
  rw [List.map_append, h, List.length_append, List.length_singleton, List.range_succ,
    List.map_append, List.map_singleton, List.map_singleton, hm]

/-- What was overwritten came first. -/
theorem Numbered.seq_le {lost held : List LiveMessage} (h : Numbered (lost ++ held))
    {m : LiveMessage} (hm : m ∈ lost) : m.seq ≤ lost.length := by
  obtain ⟨i, hi⟩ := List.getElem?_of_mem hm
  have hlt : i < lost.length := (List.getElem?_eq_some_iff.mp hi).1
  have := h.seq_eq (i := i) (by rw [List.getElem?_append_left hlt, hi])
  omega

theorem Numbered.lt_seq {lost held : List LiveMessage} (h : Numbered (lost ++ held))
    {m : LiveMessage} (hm : m ∈ held) : (lost.length : Int) < m.seq := by
  obtain ⟨i, hi⟩ := List.getElem?_of_mem hm
  have := h.seq_eq (i := lost.length + i) (by
    rw [List.getElem?_append_right (by omega), Nat.add_sub_cancel_left, hi])
  omega

/-- What holds of a stream and its caller, whose first cursor was `c`. -/
structure Session.Sound (c : Int) (s : Session) : Prop where
  numbered : Numbered s.arrived
  received : s.stream.received = s.arrived.length
  nextSeq : s.stream.nextSeq = s.stream.received + 1
  dropped : s.stream.dropped = s.lost.length
  full : s.lost ≠ [] → s.stream.ring.length = s.stream.ring.cells.length
  cursor : s.cursor = c ∨ s.cursor ≤ s.stream.received
  covers : ∃ missed, Covers (·.seq) s.arrived missed c s.cursor s.returned ∧
    ∀ k ∈ missed, k ∈ s.lost.map (·.seq)

variable {c : Int} {s : Session}

/-- A poll accounts for everything from its cursor to the next. -/
theorem Session.Sound.covers_poll (h : s.Sound c) (limit : Int) :
    ∃ missed, Covers (·.seq) s.arrived missed s.cursor (s.stream.poll s.cursor limit).cursor
      (s.stream.poll s.cursor limit).messages ∧ ∀ k ∈ missed, k ∈ s.lost.map (·.seq) := by
  have hpre := fresh_prefix s.cursor limit s.held
  rw [poll_cursor, show (s.stream.poll s.cursor limit).messages = fresh s.cursor limit s.held from
    poll_messages s.stream s.cursor limit]
  by_cases hx : ∃ m ∈ s.lost, s.cursor < m.seq
  · -- Some of what was overwritten was not polled for; the ring is full since.
    obtain ⟨m, hm, hlt⟩ := hx
    have hcur : s.cursor < s.lost.length := hlt.trans_le (h.numbered.seq_le hm)
    have hall : s.held.filter (fun m => s.cursor < m.seq) = s.held :=
      List.filter_eq_self.mpr fun m hm => by
        simpa using hcur.trans (h.numbered.lt_seq hm)
    have hne : fresh s.cursor limit s.held ≠ [] := by
      have hlen : 0 < s.held.length := by
        rw [Session.held, RingBuffer.length_toList, h.full (List.ne_nil_of_mem hm)]
        exact Nat.zero_lt_of_lt s.stream.ring.start_lt
      obtain ⟨a, ha⟩ := List.exists_mem_of_length_pos hlen
      exact fresh_ne_nil _ ha (hcur.trans (h.numbered.lt_seq ha))
    have hskip : Covers (·.seq) s.arrived ((s.lost.filter fun m => s.cursor < m.seq).map (·.seq))
        s.cursor s.lost.length [] := by
      refine .skip hcur.le ?_ ?_ ?_
      · exact List.pairwise_map.mpr ((List.pairwise_append.mp h.numbered.sorted).1.filter _)
      · rintro k hk
        obtain ⟨a, ha, rfl⟩ := List.mem_map.mp hk
        obtain ⟨ha, hlt⟩ := List.mem_filter.mp ha
        exact ⟨by simpa using hlt, h.numbered.seq_le ha⟩
      · intro a ha hlo hhi
        have hin : a ∈ s.lost := (List.mem_append.mp ha).resolve_right fun hheld =>
          absurd hhi (not_le.mpr (h.numbered.lt_seq hheld))
        exact List.mem_map.mpr ⟨a, List.mem_filter.mpr ⟨hin, by simpa using hlo⟩, rfl⟩
    have hread : Covers (·.seq) s.arrived [] (s.lost.length : Int)
        (reached (·.seq) (s.lost.length : Int) (fresh s.cursor limit s.held))
        (fresh s.cursor limit s.held) := by
      refine .read h.numbered.sorted ?_
      have hnone : s.lost.filter (fun m => (s.lost.length : Int) < m.seq) = [] :=
        List.filter_eq_nil_iff.mpr fun m hm => by simpa using h.numbered.seq_le hm
      have hsome : s.held.filter (fun m => (s.lost.length : Int) < m.seq) = s.held :=
        List.filter_eq_self.mpr fun m hm => by simpa using h.numbered.lt_seq hm
      rw [Session.arrived, List.filter_append, hnone, hsome, List.nil_append]
      rwa [hall] at hpre
    have htrans := hskip.trans hread
    rw [List.nil_append, List.append_nil, reached_of_ne_nil hne] at htrans
    refine ⟨_, htrans, fun k hk => ?_⟩
    obtain ⟨a, ha, rfl⟩ := List.mem_map.mp hk
    exact List.mem_map.mpr ⟨a, (List.mem_filter.mp ha).1, rfl⟩
  · push Not at hx
    have hnone : s.lost.filter (fun m => s.cursor < m.seq) = [] :=
      List.filter_eq_nil_iff.mpr fun m hm => by simpa using hx m hm
    refine ⟨[], .read h.numbered.sorted ?_, by simp⟩
    rwa [Session.arrived, List.filter_append, hnone, List.nil_append]

theorem Session.Sound.arrive (h : s.Sound c) (message : LiveMessage) :
    (s.step (.arrive message)).Sound c := by
  have harr : (s.step (.arrive message)).arrived = s.arrived ++ [s.stream.numbered message] := by
    change (s.lost ++ s.stream.overwritten) ++ (s.stream.append message).ring.toList = _
    rw [List.append_assoc, append_ring, ← List.append_assoc]
    rfl
  have hseq : (s.stream.numbered message).seq = s.arrived.length + 1 := by
    change s.stream.nextSeq = _
    rw [h.nextSeq, h.received]
  have hrec : (s.step (.arrive message)).stream.received = s.stream.received + 1 := by
    change (s.stream.append message).received = _
    unfold Stream.append
    dsimp only
    split <;> rfl
  have hnext : (s.step (.arrive message)).stream.nextSeq = s.stream.nextSeq + 1 := by
    change (s.stream.append message).nextSeq = _
    unfold Stream.append
    dsimp only
    split <;> rfl
  refine ⟨?_, ?_, ?_, ?_, ?_, ?_, ?_⟩
  · rw [harr]
    exact h.numbered.concat hseq
  · rw [harr, hrec, h.received, List.length_append]
    rfl
  · rw [hnext, hrec, h.nextSeq]
  · change (s.stream.append message).dropped = ((s.lost ++ s.stream.overwritten).length : Int)
    rw [append_dropped, h.dropped, List.length_append]
    rfl
  · intro hlost
    by_cases hover : s.stream.overwritten = []
    · have hfull := h.full (by rwa [Session.step, hover, List.append_nil] at hlost)
      change (s.stream.append message).ring.length = _
      unfold Stream.overwritten at hover
      rw [if_pos hfull, List.take_eq_nil_iff] at hover
      have hlen := s.stream.ring.length_toList
      rw [hover.resolve_left (by simp), hfull] at hlen
      exact absurd hlen (Nat.zero_lt_of_lt s.stream.ring.start_lt).ne
    · exact append_full hover
  · rw [hrec]
    exact h.cursor.imp_right fun hle => hle.trans (by omega)
  · obtain ⟨missed, hcov, hsub⟩ := h.covers
    refine ⟨missed, ?_, fun k hk => ?_⟩
    · rw [harr]
      refine hcov.grow fun a ha hlo => ?_
      rw [List.mem_singleton.mp ha, hseq] at hlo ⊢
      rw [← h.received] at hlo ⊢
      rcases h.cursor with hc | hc
      · rw [hc]
        exact hlo
      · omega
    · obtain ⟨m, hm, rfl⟩ := List.mem_map.mp (hsub k hk)
      exact List.mem_map.mpr ⟨m, List.mem_append_left _ hm, rfl⟩

theorem Session.Sound.poll (h : s.Sound c) (limit : Int) : (s.step (.poll limit)).Sound c := by
  obtain ⟨missed, hcov, hsub⟩ := h.covers
  obtain ⟨missed', hcov', hsub'⟩ := h.covers_poll limit
  refine ⟨h.numbered, h.received, h.nextSeq, h.dropped, h.full, ?_, missed ++ missed',
    hcov.trans hcov', fun k hk => (List.mem_append.mp hk).elim (hsub k) (hsub' k)⟩
  change (s.stream.poll s.cursor limit).cursor = c ∨ (s.stream.poll s.cursor limit).cursor ≤ _
  rw [poll_cursor]
  by_cases hn : (s.stream.poll s.cursor limit).messages = []
  · rw [hn, reached_nil]
    exact h.cursor
  · obtain ⟨m, hm, hr⟩ := reached_mem (·.seq) s.cursor hn
    obtain ⟨i, hi⟩ := List.getElem?_of_mem (hcov'.genuine m hm)
    have hlt : i < s.arrived.length := (List.getElem?_eq_some_iff.mp hi).1
    have hseq := h.numbered.seq_eq hi
    have hrec := h.received
    right
    rw [hr]
    change m.seq ≤ s.stream.received
    omega

theorem Session.Sound.step (h : s.Sound c) (e : Event) : (s.step e).Sound c := by
  cases e with
  | arrive message => exact h.arrive message
  | poll limit => exact h.poll limit

/-- A stream that was just made, and a caller that starts at `c`. -/
def Session.start (stream : Stream) (c : Int) : Session := ⟨stream, c, [], []⟩

theorem sound_start (id : String) (filters : List LiveFilter) (startedAt : String) {buffer : Nat}
    (hb : 0 < buffer) (c : Int) : (Session.start (newStream id filters startedAt buffer hb) c).Sound c := by
  have harr : (Session.start (newStream id filters startedAt buffer hb) c).arrived = [] := by
    change [] ++ (RingBuffer.empty buffer hb).toList = []
    simp
  refine ⟨?_, ?_, rfl, rfl, fun h => absurd rfl h, Or.inl rfl, [], ?_, by simp⟩
  · rw [harr]
    rfl
  · rw [harr]
    rfl
  · exact .refl c

/-! ### Polling on -/

/-- What the caller has still to be given. -/
def Session.pending (s : Session) : List LiveMessage := s.held.filter fun m => s.cursor < m.seq

/-- A poll moves the first of what is pending over to the caller. -/
theorem Session.Sound.pending_poll (h : s.Sound c) (limit : Int) :
    fresh s.cursor limit s.held ++ (s.step (.poll limit)).pending = s.pending := by
  obtain ⟨rest, hrest⟩ := fresh_prefix s.cursor limit s.held
  have hcursor : (s.step (.poll limit)).cursor =
      reached (·.seq) s.cursor (fresh s.cursor limit s.held) := by
    change (s.stream.poll s.cursor limit).cursor = _
    rw [poll_cursor, poll_messages]
    rfl
  have hsorted : s.held.Pairwise fun a b => a.seq < b.seq :=
    (List.pairwise_append.mp h.numbered.sorted).2.1
  have hpend : (s.step (.poll limit)).pending = rest := by
    have hle : s.cursor ≤ (s.step (.poll limit)).cursor := by
      rw [hcursor]
      exact lo_le_reached fun a ha => by
        have := (List.mem_filter.mp (hrest ▸ List.mem_append_left rest ha)).2
        simpa using this
    have hsplit := hsorted.filter fun m => decide (s.cursor < m.seq)
    rw [← hrest] at hsplit
    obtain ⟨hgot, -, hcross⟩ := List.pairwise_append.mp hsplit
    have hfilter : (s.step (.poll limit)).pending =
        s.pending.filter fun m => (s.step (.poll limit)).cursor < m.seq := by
      rw [Session.pending, Session.pending, List.filter_filter]
      refine List.filter_congr fun m _ => ?_
      rw [Bool.eq_iff_iff]
      simp only [decide_eq_true_eq, Bool.and_eq_true]
      exact ⟨fun hlt => ⟨hlt, hle.trans_lt hlt⟩, fun hlt => hlt.1⟩
    rw [hfilter, Session.pending, ← hrest, List.filter_append]
    have hnone : (fresh s.cursor limit s.held).filter
        (fun m => (s.step (.poll limit)).cursor < m.seq) = [] :=
      List.filter_eq_nil_iff.mpr fun m hm => by
        rw [hcursor]
        simpa using le_reached hgot hm s.cursor
    have hall : rest.filter (fun m => (s.step (.poll limit)).cursor < m.seq) = rest := by
      refine List.filter_eq_self.mpr fun m hm => ?_
      rw [hcursor, decide_eq_true_eq]
      by_cases hn : fresh s.cursor limit s.held = []
      · rw [hn, reached_nil]
        have := (List.mem_filter.mp (hrest ▸ List.mem_append_right _ hm)).2
        simpa using this
      · obtain ⟨b, hb, hr⟩ := reached_mem (·.seq) s.cursor hn
        rw [hr]
        exact hcross b hb m hm
    rw [hnone, hall, List.nil_append]
  rw [hpend, hrest]
  rfl

/-- Some polls in a row, with no arrival in between. -/
theorem Session.Sound.polls (limits : List Int) {s : Session} (h : s.Sound c) :
    (∀ m, m ∈ s.returned ∨ m ∈ s.pending →
      m ∈ (Lib.Transition.run Session.step s (limits.map .poll)).returned ∨
      m ∈ (Lib.Transition.run Session.step s (limits.map .poll)).pending) ∧
    (Lib.Transition.run Session.step s (limits.map .poll)).pending.length ≤
      s.pending.length - limits.length := by
  induction limits generalizing s with
  | nil => exact ⟨fun _ => id, by simp⟩
  | cons limit limits ih =>
    obtain ⟨hkeep, hlen⟩ := ih (h.poll limit)
    have hsplit := h.pending_poll limit
    have hret : (s.step (.poll limit)).returned = s.returned ++ fresh s.cursor limit s.held :=
      congrArg (s.returned ++ ·) (poll_messages s.stream s.cursor limit)
    rw [List.map_cons, Lib.Transition.run_cons]
    constructor
    · intro m hm
      apply hkeep
      rw [hret, List.mem_append]
      rw [← hsplit, List.mem_append] at hm
      tauto
    · have hless : (s.step (.poll limit)).pending.length ≤ s.pending.length - 1 := by
        have hlength := congrArg List.length hsplit
        rw [List.length_append] at hlength
        cases hp : s.pending with
        | nil =>
          rw [hp, List.length_nil] at hlength
          omega
        | cons m rest =>
          have hm : m ∈ s.pending := by simp [hp]
          obtain ⟨hheld, hlt⟩ := List.mem_filter.mp hm
          have hpos := List.length_pos_iff.mpr
            (fresh_ne_nil limit hheld (by simpa using hlt))
          rw [← hp]
          omega
      rw [List.length_cons]
      omega

/-! ### What the caller can rely on -/

/-- Nothing that arrived is lost without being counted. -/
structure Session.Accounted (s : Session) : Prop where
  /-- In sequence order, none repeated. -/
  ordered : (s.returned.map (·.seq)).Pairwise (· < ·)
  /-- One poll without a limit hands on everything held that is newer than the cursor. -/
  unlimited : ∀ m ∈ s.held, s.cursor < m.seq → ∀ limit ≤ 0, m ∈ (s.step (.poll limit)).returned
  /-- And so do enough polls of any limits. -/
  eventually : ∀ m ∈ s.held, s.cursor < m.seq → ∀ limits : List Int,
    s.held.length ≤ limits.length →
    m ∈ (Lib.Transition.run Session.step s (limits.map .poll)).returned
  held : s.stream.received - s.stream.dropped = s.held.length
  dropped : s.stream.dropped = s.lost.length
  missing : ∀ n : Int, 1 ≤ n → n ≤ s.stream.received → n ∉ s.returned.map (·.seq) →
    n ∉ s.held.map (·.seq) → n ∈ s.lost.map (·.seq)

theorem Session.Sound.accounted (h : s.Sound c) : s.Accounted := by
  obtain ⟨missed, hcov, -⟩ := h.covers
  have hlen : (s.arrived.length : Int) = s.lost.length + s.held.length := by
    rw [Session.arrived, List.length_append]
    rfl
  refine ⟨List.pairwise_map.mpr hcov.sorted, ?_, ?_, ?_, h.dropped, ?_⟩
  · intro m hm hlt limit hle
    refine List.mem_append_right _ ?_
    rw [poll_messages, fresh, if_neg (not_lt.mpr hle)]
    exact List.mem_filter.mpr ⟨hm, by simpa using hlt⟩
  · intro m hm hlt limits hlimits
    have hp : m ∈ s.pending := List.mem_filter.mpr ⟨hm, by simpa using hlt⟩
    obtain ⟨hkeep, hless⟩ := h.polls limits
    have hle : s.pending.length ≤ s.held.length := List.length_filter_le _ _
    refine (hkeep m (Or.inr hp)).resolve_right fun hm => ?_
    have := List.length_pos_of_mem hm
    omega
  · rw [h.received, h.dropped]
    omega
  · intro n hn hle _ hheld
    have hi : n.toNat - 1 < s.arrived.length := by
      rw [h.received] at hle
      omega
    have hget : s.arrived[n.toNat - 1]? = some (s.arrived[n.toNat - 1]) :=
      List.getElem?_eq_getElem hi
    have hseq : (s.arrived[n.toNat - 1]).seq = n := by
      rw [h.numbered.seq_eq hget]
      omega
    rcases List.mem_append.mp (List.mem_of_getElem? hget) with hm | hm
    · exact List.mem_map.mpr ⟨_, hm, hseq⟩
    · exact absurd (List.mem_map.mpr ⟨_, hm, hseq⟩) hheld

/-- **A poller loses nothing silently**, after every order of arrivals and polls. -/
theorem poller_loses_nothing_silently (id : String) (filters : List LiveFilter) (startedAt : String)
    {buffer : Nat} (hb : 0 < buffer) (c : Int) (events : List Event) :
    (Lib.Transition.run Session.step
      (Session.start (newStream id filters startedAt buffer hb) c) events).Accounted := by
  have hsound := Lib.Transition.run_inv Session.step (P := fun s => s.Sound c)
    (fun _ e h => h.step e) events _ (sound_start id filters startedAt hb c)
  exact hsound.accounted

/-- A message of a topic, before it is numbered. -/
def arrival (topic : String) : LiveMessage := ⟨0, topic, topic, "", [], false, ∅⟩

/-- Two of the four arrivals are returned in order; the second is overwritten before it is polled. -/
example :
    ((Lib.Transition.run Session.step
      (Session.start (newStream "s1" [] "" 2 (by decide)) 0)
      [.arrive (arrival "flood"), .poll 1, .arrive (arrival "flood"), .arrive (arrival "flood"),
        .arrive (arrival "flood"), .poll 0]).returned.map (·.seq)) = [1, 3, 4] := by decide

theorem flooded_poller_loses_nothing_silently :
    (Lib.Transition.run Session.step
      (Session.start (newStream "s1" [⟨"flood", ∅⟩] "" 2 (by decide)) 0)
      [.arrive (arrival "flood"), .poll 1, .arrive (arrival "flood"), .arrive (arrival "flood"),
        .arrive (arrival "flood"), .poll 0]).Accounted :=
  poller_loses_nothing_silently "s1" [⟨"flood", ∅⟩] "" (by decide) 0 _

end MqStudio.Mqtt
