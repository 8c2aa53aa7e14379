import MqStudio.Live.Driver
import MqStudio.Lib.Lookup

/-!
# A live panel

`useMqttStream.ts`, `useNatsStream.ts` and `useActiveMQStream.ts`, which are one hook over three
drivers: a panel from its mount on, its calls on the way to the driver, the answers on the way back,
and the streams, in any order.

* `World.step`: what the user, the timer, React, the driver and the arrival of an answer do.
* `World.OneStream`: what the panel shows, the cursors it passed and the streams it left running.
* A poll is answered to the panel whatever came between, and the answer of a start or of the listing
  takes the place of the stream there is (`overlapping_polls_repeat_message`).
  `one_stream_of_timely` is about the runs whose answers come in time.
-/

namespace MqStudio.Live

open Lib.Transition
open Mqtt (LiveMessage LiveBatch)

variable {D : LiveDriver}

/-! ### The panel and its calls -/

/-- How many messages the panel holds. -/
def KEEP : Nat := 500

/-- A message of the panel, and the stream it came over. -/
structure Shown where
  stream : Nat
  message : LiveMessage

/-- A call of poll: the stream, the cursor and the stream that returned it, and the run of the
poll effect that sent it. -/
structure Poll where
  stream : Nat
  after : Int
  source : Option Nat
  effect : Nat

inductive Reply where
  | started (stream : Nat)
  | startFailed
  | listed (first : Option Nat)
  | listFailed
  | polled (poll : Poll) (batch : LiveBatch)
  | pollFailed (poll : Poll)

/-- Streams are numbered as the driver opens them.

* `subscription` to `dropped` are the refs and states of the hook, and `effect` is the run of its
  poll effect whose timer ticks, `effects` the number of runs so far.
* `streams` are all the streams there were, `opened` those that are not stopped.
* `starts` to `stops` are the calls that have not come to the driver, `replies` its answers that
  have not come to the panel.
* `origin` is the stream the panel collects since `start` was last pressed, `source` the one that
  returned the cursor, `sent` the polls so far, `started` the streams opened for the panel, and
  `asked` those it asked to stop. -/
structure World (D : LiveDriver) where
  subscription : Option Nat
  cursor : Int
  messages : List Shown
  running : Bool
  live : Bool
  received : Int
  dropped : Int
  effect : Option Nat
  effects : Nat
  streams : List D.Stream
  opened : List Nat
  starts : Nat
  lists : Nat
  polls : List Poll
  stops : List Nat
  replies : List Reply
  origin : Option Nat
  source : Option Nat
  sent : List Poll
  started : List Nat
  asked : List Nat

/-- A panel that is mounted asks for the streams there are. -/
def World.mounted (streams : List D.Stream) (opened : List Nat) : World D where
  subscription := none
  cursor := 0
  messages := []
  running := false
  live := true
  received := 0
  dropped := 0
  effect := none
  effects := 0
  streams := streams
  opened := opened
  starts := 0
  lists := 1
  polls := []
  stops := []
  replies := []
  origin := none
  source := none
  sent := []
  started := []
  asked := []

inductive Label where
  | start
  | stop
  | clear
  /-- React commits the state and runs the effects. -/
  | render
  | tick
  /-- The driver opens a stream for a start, or refuses. -/
  | openStream (spec : Option Spec)
  /-- The driver lists the streams, or fails. -/
  | list (first : Option Nat)
  | listFails
  | poll (i : Nat) (fails : Bool)
  | stopStream (i : Nat) (fails : Bool)
  | happen (stream : Nat) (event : Event)
  /-- A stream is opened or stopped by somebody else. -/
  | openElsewhere (spec : Spec)
  | stopElsewhere (stream : Nat)
  | reply (i : Nat)

/-- A stream the panel had is asked to stop. -/
def World.release (w : World D) : World D :=
  { w with
    subscription := none
    stops := w.stops ++ w.subscription.toList
    asked := w.subscription.toList ++ w.asked }

def World.start (w : World D) : World D :=
  { w.release with
    messages := []
    received := 0
    dropped := 0
    live := true
    cursor := 0
    source := none
    origin := none
    starts := w.starts + 1 }

def World.stop (w : World D) : World D := { w.release with running := false }

/-- The poll effect depends on `running`. -/
def World.render (w : World D) : World D :=
  if w.running then
    if w.effect = none then { w with effect := some w.effects, effects := w.effects + 1 } else w
  else { w with effect := none }

/-- The timer of the poll effect. -/
def World.tick (w : World D) : Option (World D) :=
  match w.effect, w.subscription with
  | none, _ => none
  | some _, none => some w
  | some effect, some id => some { w with
      polls := w.polls ++ [⟨id, w.cursor, w.source, effect⟩]
      sent := ⟨id, w.cursor, w.source, effect⟩ :: w.sent }

/-- `slice(-KEEP)`. -/
def keepLast (messages : List Shown) : List Shown := messages.drop (messages.length - KEEP)

/-- An answer comes to the panel.  That of a poll is dropped once its effect has been cleaned up. -/
def World.receive (w : World D) : Reply → World D
  | .started id => { w with subscription := some id, running := true, origin := some id }
  | .startFailed => { w with running := false }
  | .listed (some id) =>
    { w with subscription := some id, cursor := 0, running := true, source := none,
             origin := some id }
  | .listed none => w
  | .listFailed => w
  | .polled poll batch =>
    if w.effect = some poll.effect then
      { w with
        cursor := batch.cursor
        source := some poll.stream
        received := batch.received
        dropped := batch.dropped
        live := batch.live
        messages := match batch.messages with
          | [] => w.messages
          | arrived => keepLast (w.messages ++ arrived.map (Shown.mk poll.stream)) }
    else w
  | .pollFailed poll => if w.effect = some poll.effect then { w with running := false } else w

/-- A listing of the open streams begins with one of them, if there are any. -/
def World.heads (w : World D) : Option Nat → Bool
  | some id => id ∈ w.opened
  | none => w.opened.isEmpty

/-- The driver's answer to a poll. -/
def World.answer (w : World D) (poll : Poll) (fails : Bool) : Reply :=
  if fails || poll.stream ∉ w.opened then .pollFailed poll
  else match w.streams[poll.stream]? with
    | some stream => .polled poll (D.poll stream poll.after KEEP)
    | none => .pollFailed poll

def World.step (w : World D) : Label → Option (World D)
  | .start => some w.start
  | .stop => some w.stop
  | .clear => some { w with messages := [] }
  | .render => some w.render
  | .tick => w.tick
  | .openStream spec =>
    if w.starts = 0 then none
    else match spec with
      | none => some { w with starts := w.starts - 1, replies := w.replies ++ [.startFailed] }
      | some spec => some { w with
          starts := w.starts - 1
          streams := w.streams ++ [D.new spec]
          opened := w.streams.length :: w.opened
          started := w.streams.length :: w.started
          replies := w.replies ++ [.started w.streams.length] }
  | .list first =>
    if w.lists = 0 || !w.heads first then none
    else some { w with lists := w.lists - 1, replies := w.replies ++ [.listed first] }
  | .listFails =>
    if w.lists = 0 then none
    else some { w with lists := w.lists - 1, replies := w.replies ++ [.listFailed] }
  | .poll i fails =>
    w.polls[i]?.map fun poll => { w with
      polls := w.polls.eraseIdx i
      replies := w.replies ++ [w.answer poll fails] }
  | .stopStream i fails =>
    w.stops[i]?.map fun id => { w with
      stops := w.stops.eraseIdx i
      opened := if fails then w.opened else w.opened.filter (· ≠ id) }
  | .happen id event =>
    w.streams[id]?.map fun stream => { w with streams := w.streams.set id (D.happen stream event) }
  | .openElsewhere spec =>
    some { w with streams := w.streams ++ [D.new spec], opened := w.streams.length :: w.opened }
  | .stopElsewhere id => some { w with opened := w.opened.filter (· ≠ id) }
  | .reply i => w.replies[i]?.map fun r => { w with replies := w.replies.eraseIdx i }.receive r

/-- A panel that is mounted over the streams there are, with one driver. -/
def system (D : LiveDriver) : System (World D) Label where
  Init w := ∃ streams opened, (∀ id ∈ opened, id < streams.length) ∧
    w = World.mounted streams opened
  Step w l v := w.step l = some v

/-! ### What a panel is for -/

/-- No call of the panel and no answer is on its way. -/
def World.Quiet (w : World D) : Prop :=
  w.starts = 0 ∧ w.lists = 0 ∧ w.polls = [] ∧ w.replies = []

/-- A live panel shows one stream, once. -/
structure World.OneStream (w : World D) : Prop where
  current : ∀ id, w.subscription = some id → ∀ m ∈ w.messages, m.stream = id
  single : ∀ m ∈ w.messages, ∀ n ∈ w.messages, m.stream = n.stream
  ordered : (w.messages.map (·.message.seq)).Pairwise (· < ·)
  /-- A poll begins at the beginning, or where one of its own stream got to. -/
  cursors : ∀ poll ∈ w.sent, poll.after = 0 ∨ poll.source = some poll.stream
  released : w.Quiet → ∀ id ∈ w.started, w.subscription = some id ∨ id ∈ w.asked

/-- The panel can turn to a stream: the one it has is this one, or none of its own, or one that it
asked to stop. -/
def World.Free (w : World D) (id : Nat) : Prop :=
  ∀ current ∈ w.subscription, current = id ∨ current ∉ w.started ∨ current ∈ w.asked

/-- An answer comes while it is still about what the panel shows. -/
def World.InTime (w : World D) : Reply → Prop
  | .started id => w.origin = some id ∨ w.messages = [] ∧ w.cursor = 0 ∧ w.Free id
  | .listed (some id) => w.messages = [] ∧ w.Free id
  | .polled poll _ => w.effect = some poll.effect →
    w.origin = some poll.stream ∧ ∀ m ∈ w.messages, m.message.seq ≤ poll.after
  | .startFailed | .listed none | .listFailed | .pollFailed _ => True

def Timely (w : World D) : Label → Prop
  | .reply i => ∀ r ∈ w.replies[i]?, w.InTime r
  | _ => True

/-! ### The invariant -/

/-- A cursor that a stream can have returned. -/
def Bounded (streams : List D.Stream) (id : Nat) (n : Int) : Prop :=
  0 ≤ n ∧ ∃ stream, streams[id]? = some stream ∧ n ≤ D.newest stream

/-- What an answer says is true of the streams. -/
def Reply.Sound (streams : List D.Stream) : Reply → Prop
  | .started id | .listed (some id) => Bounded streams id 0
  | .polled poll batch => ∃ newest, 0 ≤ poll.after ∧ Answers poll.after newest batch ∧
    Bounded streams poll.stream batch.cursor
  | .startFailed | .listed none | .listFailed | .pollFailed _ => True

structure World.Inv (w : World D) : Prop where
  current : ∀ id, w.subscription = some id → w.origin = some id
  shown : ∀ m ∈ w.messages, w.origin = some m.stream
  sorted : w.messages.Pairwise fun a b => a.message.seq < b.message.seq
  behind : ∀ m ∈ w.messages, m.message.seq ≤ w.cursor
  source : w.cursor = 0 ∨ w.source ≠ none ∧ w.source = w.origin
  bounded : ∀ id, w.origin = some id → Bounded w.streams id w.cursor
  sent : ∀ poll ∈ w.sent, poll.after = 0 ∨ poll.source = some poll.stream
  polls : ∀ poll ∈ w.polls, Bounded w.streams poll.stream poll.after
  replies : ∀ r ∈ w.replies, r.Sound w.streams
  opened : ∀ id ∈ w.opened, Bounded w.streams id 0
  started : ∀ id ∈ w.started,
    .started id ∈ w.replies ∨ w.subscription = some id ∨ id ∈ w.asked

theorem World.Inv.oneStream {w : World D} (h : w.Inv) : w.OneStream where
  current id hid m hm := by
    have horigin := h.shown m hm
    rw [h.current id hid, Option.some.injEq] at horigin
    exact horigin.symm
  single m hm n hn := Option.some.inj ((h.shown m hm).symm.trans (h.shown n hn))
  ordered := List.pairwise_map.mpr h.sorted
  cursors := h.sent
  released := by
    rintro ⟨-, -, -, hreplies⟩ id hid
    refine (h.started id hid).resolve_left ?_
    rw [hreplies]
    exact List.not_mem_nil

variable {w v : World D}

/-! ### What the user does -/

theorem World.Inv.started_release (h : w.Inv) : ∀ id ∈ w.started,
    .started id ∈ w.replies ∨ id ∈ w.release.asked := by
  intro id hid
  refine (h.started id hid).imp_right fun hid => ?_
  rcases hid with hid | hid
  · exact List.mem_append_left _ (by simp [hid])
  · exact List.mem_append_right _ hid

theorem World.Inv.start (h : w.Inv) : w.start.Inv := {
  h with
  current := nofun
  shown := nofun
  sorted := .nil
  behind := nofun
  source := .inl rfl
  bounded := nofun
  started := fun id hid => (h.started_release id hid).imp_right .inr }

theorem World.Inv.stop (h : w.Inv) : w.stop.Inv := {
  h with
  current := nofun
  started := fun id hid => (h.started_release id hid).imp_right .inr }

theorem World.Inv.clear (h : w.Inv) : { w with messages := [] }.Inv := {
  h with
  shown := nofun
  sorted := .nil
  behind := nofun }

theorem World.Inv.render (h : w.Inv) : w.render.Inv := by
  unfold World.render
  split
  · split
    · exact { h with }
    · exact h
  · exact { h with }

theorem World.Inv.tick (h : w.Inv) (htick : w.tick = some v) : v.Inv := by
  unfold World.tick at htick
  split at htick
  · cases htick
  · cases htick
    exact h
  · rename_i effect id heffect hsub
    cases htick
    have horigin := h.current id hsub
    refine { h with sent := ?_, polls := ?_ }
    · intro poll hpoll
      rcases List.mem_cons.mp hpoll with rfl | hpoll
      · exact h.source.imp_right fun hsource => hsource.2.trans horigin
      · exact h.sent poll hpoll
    · intro poll hpoll
      rcases List.mem_append.mp hpoll with hpoll | hpoll
      · exact h.polls poll hpoll
      · rw [List.mem_singleton.mp hpoll]
        exact h.bounded id horigin

/-! ### What the driver does -/

variable {streams : List D.Stream} {id : Nat} {n : Int} {r : Reply}

theorem Bounded.append (h : Bounded streams id n) (stream : D.Stream) :
    Bounded (streams ++ [stream]) id n := by
  obtain ⟨hn, found, hget, hle⟩ := h
  exact ⟨hn, found, List.getElem?_append_left (List.getElem?_eq_some_iff.mp hget).1 ▸ hget, hle⟩

theorem bounded_new (streams : List D.Stream) (stream : D.Stream) :
    Bounded (streams ++ [stream]) streams.length 0 :=
  ⟨le_rfl, stream, List.getElem?_concat_length, D.newest_nonneg stream⟩

theorem Bounded.happen (h : Bounded streams id n) {i : Nat} {stream : D.Stream}
    (hi : streams[i]? = some stream) (event : Event) :
    Bounded (streams.set i (D.happen stream event)) id n := by
  obtain ⟨hn, found, hget, hle⟩ := h
  by_cases hid : i = id
  · obtain rfl : stream = found := Option.some.inj (hi.symm.trans (hid ▸ hget))
    refine ⟨hn, D.happen stream event, ?_, hle.trans (D.newest_happen stream event)⟩
    rw [← hid, List.getElem?_set_self (List.getElem?_eq_some_iff.mp hi).1]
  · exact ⟨hn, found, (List.getElem?_set_ne hid).trans hget, hle⟩

/-- The streams go on, and what was said of them stays true. -/
theorem World.Inv.grow (h : w.Inv)
    (hgrow : ∀ id n, Bounded w.streams id n → Bounded streams id n) :
    { w with streams := streams }.Inv := {
  h with
  bounded := fun id hid => hgrow _ _ (h.bounded id hid)
  polls := fun poll hpoll => hgrow _ _ (h.polls poll hpoll)
  replies := by
    intro r hr
    have hsound := h.replies r hr
    cases r with
    | started id => exact hgrow _ _ hsound
    | listed first =>
      cases first with
      | none => trivial
      | some id => exact hgrow _ _ hsound
    | polled poll batch =>
      obtain ⟨newest, hafter, hanswers, hbounded⟩ := hsound
      exact ⟨newest, hafter, hanswers, hgrow _ _ hbounded⟩
    | startFailed => trivial
    | listFailed => trivial
    | pollFailed poll => trivial
  opened := fun id hid => hgrow _ _ (h.opened id hid) }

/-- An answer is sent. -/
theorem World.Inv.send (h : w.Inv) (hr : r.Sound w.streams) :
    { w with replies := w.replies ++ [r] }.Inv := {
  h with
  replies := by
    intro other hother
    rcases List.mem_append.mp hother with hother | hother
    · exact h.replies other hother
    · rwa [List.mem_singleton.mp hother]
  started := fun id hid => (h.started id hid).imp_left (List.mem_append_left _) }

theorem World.Inv.openStream (h : w.Inv) (spec : Spec) :
    { w with
      streams := w.streams ++ [D.new spec]
      opened := w.streams.length :: w.opened }.Inv := {
  h.grow fun _ _ hbounded => hbounded.append (D.new spec) with
  opened := by
    intro id hid
    rcases List.mem_cons.mp hid with rfl | hid
    · exact bounded_new w.streams (D.new spec)
    · exact (h.opened id hid).append (D.new spec) }

/-- **The answer to a poll is true of its stream.** -/
theorem World.Inv.sound_answer (h : w.Inv) {poll : Poll} (hpoll : poll ∈ w.polls) (fails : Bool) :
    (w.answer poll fails).Sound w.streams := by
  obtain ⟨hafter, stream, hget, hle⟩ := h.polls poll hpoll
  unfold World.answer
  split
  · trivial
  · rw [hget]
    have hanswers := D.answers stream poll.after KEEP hafter hle
    exact ⟨D.newest stream, hafter, hanswers, hafter.trans hanswers.le, stream, hget,
      hanswers.known⟩

/-! ### An answer comes to the panel -/

theorem mem_or_mem_eraseIdx {α : Type} {l : List α} {i : Nat} {x y : α} (hx : x ∈ l)
    (hi : l[i]? = some y) : x = y ∨ x ∈ l.eraseIdx i := by
  obtain ⟨hlt, rfl⟩ := List.getElem?_eq_some_iff.mp hi
  have hperm := List.getElem_cons_eraseIdx_perm hlt
  exact List.mem_cons.mp (hperm.mem_iff.mpr hx)

/-- An answer that starts nothing is taken off. -/
theorem World.Inv.take (h : w.Inv) {i : Nat} (hi : w.replies[i]? = some r)
    (hr : ∀ id, r ≠ .started id) : { w with replies := w.replies.eraseIdx i }.Inv := {
  h with
  replies := fun other hother => h.replies other (List.mem_of_mem_eraseIdx hother)
  started := by
    intro id hid
    refine (h.started id hid).imp_left fun hmem => ?_
    exact (mem_or_mem_eraseIdx hmem hi).resolve_left fun he => hr id he.symm }

theorem World.Inv.receive_started (h : w.Inv) {i : Nat} (hi : w.replies[i]? = some (.started id))
    (hin : w.origin = some id ∨ w.messages = [] ∧ w.cursor = 0 ∧ w.Free id) :
    ({ w with replies := w.replies.eraseIdx i }.receive (.started id)).Inv := {
  h with
  current := fun _ hid => hid
  shown := by
    rcases hin with horigin | ⟨hmessages, -, -⟩
    · exact fun m hm => horigin ▸ h.shown m hm
    · intro m hm
      exact absurd (hmessages ▸ hm) List.not_mem_nil
  source := by
    rcases hin with horigin | ⟨-, hcursor, -⟩
    · exact h.source.imp_right fun hsource => ⟨hsource.1, hsource.2.trans horigin⟩
    · exact .inl hcursor
  bounded := by
    rintro other ⟨⟩
    rcases hin with horigin | ⟨-, hcursor, -⟩
    · exact h.bounded id horigin
    · change Bounded w.streams id w.cursor
      rw [hcursor]
      exact h.replies _ (List.mem_of_getElem? hi)
  replies := fun other hother => h.replies other (List.mem_of_mem_eraseIdx hother)
  started := by
    intro other hother
    rcases h.started other hother with hmem | hsub | hasked
    · rcases mem_or_mem_eraseIdx hmem hi with he | hmem
      · cases he
        exact .inr (.inl rfl)
      · exact .inl hmem
    · -- the stream the panel had before is this one, or it may go
      rcases hin with horigin | ⟨-, -, hfree⟩
      · have hother := h.current other hsub
        rw [horigin] at hother
        exact .inr (.inl hother)
      · rcases hfree other hsub with rfl | hnot | hasked
        · exact .inr (.inl rfl)
        · exact absurd hother hnot
        · exact .inr (.inr hasked)
    · exact .inr (.inr hasked) }

theorem World.Inv.receive_listed (h : w.Inv) (hid : Bounded w.streams id 0)
    (hmessages : w.messages = []) (hfree : w.Free id) : (w.receive (.listed (some id))).Inv := {
  h with
  current := fun _ hid => hid
  shown := by
    intro m hm
    exact absurd (hmessages ▸ hm) List.not_mem_nil
  behind := by
    intro m hm
    exact absurd (hmessages ▸ hm) List.not_mem_nil
  source := .inl rfl
  bounded := by
    rintro other ⟨⟩
    exact hid
  started := by
    intro other hother
    rcases h.started other hother with hmem | hsub | hasked
    · exact .inl hmem
    · rcases hfree other hsub with rfl | hnot | hasked
      · exact .inr (.inl rfl)
      · exact absurd hother hnot
      · exact .inr (.inr hasked)
    · exact .inr (.inr hasked) }

/-- The messages of the panel and of a batch, with none but the last kept. -/
theorem kept_sublist (held : List Shown) (arrived : List LiveMessage) (stream : Nat) :
    (match arrived with
      | [] => held
      | arrived => keepLast (held ++ arrived.map (Shown.mk stream))).Sublist
      (held ++ arrived.map (Shown.mk stream)) := by
  cases arrived with
  | nil => exact List.sublist_append_left _ _
  | cons m rest => exact List.drop_sublist _ _

/-- **A batch that comes in time goes on where the messages end.** -/
theorem World.Inv.receive_polled (h : w.Inv) {poll : Poll} {batch : LiveBatch}
    (hsound : (Reply.polled poll batch).Sound w.streams)
    (hin : w.effect = some poll.effect →
      w.origin = some poll.stream ∧ ∀ m ∈ w.messages, m.message.seq ≤ poll.after) :
    (w.receive (.polled poll batch)).Inv := by
  obtain ⟨newest, hafter, hanswers, hbounded⟩ := hsound
  unfold World.receive
  dsimp only
  split
  · rename_i heffect
    obtain ⟨horigin, hheld⟩ := hin heffect
    have hsub := kept_sublist w.messages batch.messages poll.stream
    have hall : ∀ m ∈ w.messages ++ batch.messages.map (Shown.mk poll.stream),
        w.origin = some m.stream ∧ m.message.seq ≤ batch.cursor := by
      intro m hm
      rcases List.mem_append.mp hm with hm | hm
      · exact ⟨h.shown m hm, (hheld m hm).trans hanswers.le⟩
      · obtain ⟨message, hmessage, rfl⟩ := List.mem_map.mp hm
        exact ⟨horigin, (hanswers.within message hmessage).2⟩
    have hsorted : (w.messages ++ batch.messages.map (Shown.mk poll.stream)).Pairwise
        fun a b : Shown => a.message.seq < b.message.seq := by
      refine List.pairwise_append.mpr ⟨h.sorted, List.pairwise_map.mpr hanswers.sorted, ?_⟩
      intro m hm other hother
      obtain ⟨message, hmessage, rfl⟩ := List.mem_map.mp hother
      exact (hheld m hm).trans_lt (hanswers.within message hmessage).1
    exact {
      h with
      shown := fun m hm => (hall m (hsub.subset hm)).1
      sorted := hsorted.sublist hsub
      behind := fun m hm => (hall m (hsub.subset hm)).2
      source := .inr ⟨nofun, horigin.symm⟩
      bounded := by
        intro id hid
        obtain rfl := Option.some.inj (horigin.symm.trans hid)
        exact hbounded }
  · exact h

theorem World.Inv.receive (h : w.Inv) {i : Nat} (hi : w.replies[i]? = some r)
    (hin : w.InTime r) : ({ w with replies := w.replies.eraseIdx i }.receive r).Inv := by
  have hsound := h.replies r (List.mem_of_getElem? hi)
  cases r with
  | started id => exact h.receive_started hi hin
  | listed first =>
    have htake := h.take hi nofun
    cases first with
    | none => exact htake
    | some id => exact htake.receive_listed hsound hin.1 hin.2
  | polled poll batch => exact (h.take hi nofun).receive_polled hsound hin
  | startFailed =>
    have htake := h.take hi nofun
    exact { htake with }
  | listFailed => exact h.take hi nofun
  | pollFailed poll =>
    have htake := h.take hi nofun
    unfold World.receive
    dsimp only
    split
    · exact { htake with }
    · exact htake

/-! ### Runs -/

theorem World.Inv.step (h : w.Inv) {l : Label} (hin : Timely w l) (hstep : w.step l = some v) :
    v.Inv := by
  cases l with
  | start =>
    cases hstep
    exact h.start
  | stop =>
    cases hstep
    exact h.stop
  | clear =>
    cases hstep
    exact h.clear
  | render =>
    cases hstep
    exact h.render
  | tick => exact h.tick hstep
  | openStream spec =>
    unfold World.step at hstep
    dsimp only at hstep
    split at hstep
    · cases hstep
    · cases spec with
      | none =>
        cases hstep
        exact { h.send (r := .startFailed) trivial with }
      | some spec =>
        cases hstep
        have hopen := h.openStream spec
        have hsend := hopen.send (r := .started w.streams.length)
          (bounded_new w.streams (D.new spec))
        refine { hsend with started := ?_ }
        intro id hid
        rcases List.mem_cons.mp hid with rfl | hid
        · exact .inl (List.mem_append_right _ (List.mem_singleton_self _))
        · exact hsend.started id hid
  | list first =>
    rw [World.step] at hstep
    split at hstep
    · cases hstep
    · rename_i hheads
      cases hstep
      have hsound : (Reply.listed first).Sound w.streams := by
        cases first with
        | none => trivial
        | some id =>
          have hid : id ∈ w.opened := by
            simp only [World.heads, Bool.or_eq_true, Bool.not_eq_true', not_or,
              Bool.not_eq_false, decide_eq_true_eq] at hheads
            exact hheads.2
          exact h.opened id hid
      exact { h.send hsound with }
  | listFails =>
    rw [World.step] at hstep
    split at hstep
    · cases hstep
    · cases hstep
      exact { h.send (r := .listFailed) trivial with }
  | poll i fails =>
    obtain ⟨poll, hpoll, rfl⟩ := Option.map_eq_some_iff.mp hstep
    refine { h.send (h.sound_answer (List.mem_of_getElem? hpoll) fails) with polls := ?_ }
    exact fun other hother => h.polls other (List.mem_of_mem_eraseIdx hother)
  | stopStream i fails =>
    obtain ⟨id, hid, rfl⟩ := Option.map_eq_some_iff.mp hstep
    refine { h with opened := ?_ }
    intro other hother
    dsimp only at hother
    split at hother
    · exact h.opened other hother
    · exact h.opened other (List.mem_filter.mp hother).1
  | happen id event =>
    obtain ⟨stream, hstream, rfl⟩ := Option.map_eq_some_iff.mp hstep
    exact h.grow fun _ _ hbounded => hbounded.happen hstream event
  | openElsewhere spec =>
    cases hstep
    exact h.openStream spec
  | stopElsewhere id =>
    cases hstep
    exact { h with opened := fun other hother => h.opened other (List.mem_filter.mp hother).1 }
  | reply i =>
    obtain ⟨r, hr, rfl⟩ := Option.map_eq_some_iff.mp hstep
    exact h.receive hr (hin r hr)

theorem inv_mounted {streams : List D.Stream} {opened : List Nat}
    (h : ∀ id ∈ opened, id < streams.length) : (World.mounted streams opened).Inv where
  current := nofun
  shown := nofun
  sorted := .nil
  behind := nofun
  source := .inl rfl
  bounded := nofun
  sent := nofun
  polls := nofun
  replies := nofun
  opened id hid := by
    have hlt : id < streams.length := h id hid
    have hget : streams[id]? = some streams[id] := List.getElem?_eq_getElem hlt
    exact ⟨le_rfl, _, hget, D.newest_nonneg _⟩
  started := nofun

/-- **A live panel shows one stream, once, where the answers come in time.** -/
theorem one_stream_of_timely (D : LiveDriver) (w : World D)
    (h : Reachable ((system D).guard Timely) w) : w.OneStream := by
  have hinv : w.Inv := by
    refine h.inv (P := World.Inv) ?_ ?_
    · rintro _ ⟨streams, opened, hopened, rfl⟩
      exact inv_mounted hopened
    · rintro w l v hw ⟨hstep, hin⟩
      exact hw.step hin hstep
  exact hinv.oneStream

/-! ### Two runs -/

instance (w : World D) (id : Nat) : Decidable (w.Free id) :=
  inferInstanceAs (Decidable (∀ current ∈ w.subscription, _))

instance (messages : List Shown) : Decidable (messages = []) :=
  decidable_of_iff (messages.isEmpty = true) List.isEmpty_iff

instance (w : World D) : (r : Reply) → Decidable (w.InTime r)
  | .started id => inferInstanceAs (Decidable (_ ∨ _ ∧ _ ∧ w.Free id))
  | .listed (some id) => inferInstanceAs (Decidable (_ ∧ w.Free id))
  | .polled _ _ => inferInstanceAs (Decidable (_ → _ ∧ _))
  | .startFailed | .listed none | .listFailed | .pollFailed _ => isTrue trivial

instance (w : World D) : (l : Label) → Decidable (Timely w l)
  | .reply i => inferInstanceAs (Decidable (∀ r ∈ w.replies[i]?, w.InTime r))
  | .start | .stop | .clear | .render | .tick | .openStream _ | .list _ | .listFails | .poll _ _
  | .stopStream _ _ | .happen _ _ | .openElsewhere _ | .stopElsewhere _ => isTrue trivial

/-- A panel over no stream starts one, on which a message arrives. -/
def opening : List Label :=
  [.list none, .reply 0, .start, .openStream (some ⟨"s1", [⟨"flood", ∅⟩], "", 2, by decide⟩),
    .reply 0, .render, .happen 0 (.arrive (Mqtt.arrival "flood"))]

theorem init_mounted : (system mqtt).Init (World.mounted [] []) := ⟨[], [], nofun, rfl⟩

/-- A panel that polls again when the last poll is answered. -/
theorem polls_in_turn_show_each_message : ∃ w : World mqtt,
    w.messages.map (·.message.seq) = [1, 2] ∧ w.OneStream := by
  have hrun : (runSteps (fun (w : World mqtt) l => if Timely w l then w.step l else none)
      (World.mounted [] []) (opening ++ [.tick, .poll 0 false, .reply 0,
        .happen 0 (.arrive (Mqtt.arrival "flood")), .tick, .poll 0 false, .reply 0])).map
      (fun w => w.messages.map (·.message.seq)) = some [1, 2] := by decide
  obtain ⟨w, hw, hmessages⟩ := Option.map_eq_some_iff.mp hrun
  refine ⟨w, hmessages, one_stream_of_timely mqtt w ?_⟩
  refine (Path.of_runSteps (S := (system mqtt).guard Timely) ?_ hw).reachable (.init init_mounted)
  intro w l v hstep
  split at hstep
  · rename_i hin
    exact ⟨hstep, hin⟩
  · cases hstep

/-- The timer ticks again before the poll is answered, and the message is shown twice. -/
theorem overlapping_polls_repeat_message :
    ¬ ∀ w : World mqtt, Reachable (system mqtt) w → w.OneStream := by
  intro hall
  have hrun : (runSteps World.step (World.mounted (D := mqtt) [] []) (opening ++
      [.tick, .tick, .poll 0 false, .poll 0 false, .reply 0, .reply 0])).map
      (fun w => w.messages.map (·.message.seq)) = some [1, 1] := by decide
  obtain ⟨w, hw, hmessages⟩ := Option.map_eq_some_iff.mp hrun
  have hreach := (Path.of_runSteps (S := system mqtt) id hw).reachable (.init init_mounted)
  have hordered := (hall w hreach).ordered
  rw [hmessages] at hordered
  exact absurd hordered (by decide)

end MqStudio.Live
