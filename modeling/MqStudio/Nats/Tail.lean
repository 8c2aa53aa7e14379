import MqStudio.Lib.RetainedLog
import MqStudio.Lib.Transition
import MqStudio.Model.Tail

/-!
# The NATS tail

`nats/message.go`: a stream has one sequence, and a poll reads the stream's
state, works out where to go on, and fetches from there.  The stream only grows,
and old messages are purged from the front, also between the two requests.

* `tailStart`, `readBatch`: the poll, before and after its fetch.
* `World.Complete`: every message stored since the first poll, up to the cursor,
  was handed on once, in order, or counted as dropped.
* `complete_of_kept`: that holds while no poll passes the cursor of an empty stream
  that is empty no longer, and nothing is purged between the state and the fetch.
-/

namespace MqStudio.Nats

open Std (ExtTreeMap)
open Lib.Maps Lib.Tail Lib.Transition
open Model

/-! ### Messages -/

/-- A message of a stream.  Sequences are below 2^63, where `uint64` and `int64` agree. -/
structure StoredMessage where
  sequence : Int
  subject : String
  header : ExtTreeMap String (List String) compare
  body : String
  timestamp : Int

/-- What the state of a stream is read as. -/
structure StreamInfo where
  leader : Option String
  firstSeq : Int
  lastSeq : Int

def streamLeader (info : StreamInfo) : String := info.leader.getD ""

/-- `Header.Get`: the first value, or none. -/
def headerGet (header : ExtTreeMap String (List String) compare) (name : String) : String :=
  (((header[name]?).getD []).head?).getD ""

def messageItem (stream : String) (message : StoredMessage) (sequence timestamp : Int) :
    MessageItem where
  id := sequence
  topic := stream
  messageID := toString sequence
  tags := message.subject
  keys := headerGet message.header "Nats-Msg-Id"
  queueID := UnknownMetric
  queueOffset := sequence
  storeTimestamp := timestamp
  status := .normal
  body := message.body
  properties := message.header.map fun _ values => ", ".intercalate values

/-! ### The poll -/

/-- Bounds one page of a browse. -/
def maxBrowse : Int := 500

/-- The one sequence the cursor carries.  Zero means a tail that has not started. -/
def tailPosition (cursor : TailCursor) : Int :=
  match cursor.positions with
  | [] => 0
  | position :: _ => if position.offset < 0 then 0 else position.offset

/-- Where a poll goes on, and what aged out since the last one. -/
def tailStart (cursor : TailCursor) (info : StreamInfo) : Int × Int :=
  let first : Bool := tailPosition cursor = 0
  let next := if first then info.lastSeq + 1 else tailPosition cursor + 1
  if !first ∧ next < info.firstSeq then (info.firstSeq, info.firstSeq - next) else (next, 0)

def batchCursor (info : StreamInfo) (highest : Int) : TailCursor :=
  ⟨[⟨streamLeader info, 0, highest⟩]⟩

/-- How many messages are fetched: no more than the stream holds past the cursor. -/
def fetchLimit (limit next : Int) (info : StreamInfo) : Int :=
  let limit := if limit ≤ 0 ∨ maxBrowse < limit then maxBrowse else limit
  let available := info.lastSeq - next + 1
  if available < limit then available else limit

/-- A message as the consumer delivers it, with its sequence and its time where it carries them. -/
structure Delivery where
  message : StoredMessage
  metadata : Option (Int × Int)

/-- The messages of a batch and the highest sequence, from the one before the first on. -/
def readBatch (stream : String) (highest : Int) (batch : List Delivery) : List MessageItem × Int :=
  batch.foldl (fun read delivery =>
    match delivery.metadata with
    | none => read
    | some (sequence, timestamp) =>
      (read.1 ++ [messageItem stream delivery.message sequence timestamp], sequence)) ([], highest)

/-! ### The stream and its caller -/

abbrev StreamLog := RetainedLog StoredMessage.sequence

/-- Where a poll is: it has worked out where to go on, and fetches. -/
inductive Poll where
  | idle
  | fetching (limit : Int) (info : StreamInfo)

/-- A stream, the caller that tails it with what it was handed, and the sequence that came next when
the state was read for an empty cursor. -/
structure World where
  name : String
  log : StreamLog
  cursor : TailCursor
  poll : Poll
  batches : List TailBatch
  since : Option Int

def World.new (name : String) (log : StreamLog) : World := ⟨name, log, ⟨[]⟩, .idle, [], none⟩

inductive Label where
  | store (message : StoredMessage)
  | purge (first : Int)
  /-- The state of the stream is read. -/
  | info (limit : Int) (leader : Option String)
  | fetch (batch : List Delivery)
  /-- A request fails, and the poll with it. -/
  | fail

/-- The state of the stream now. -/
def World.info (w : World) (leader : Option String) : StreamInfo := ⟨leader, w.log.first, w.log.next - 1⟩

/-- The poll returns, and the caller keeps the cursor. -/
def World.handOn (w : World) (batch : TailBatch) : World :=
  { w with cursor := batch.cursor, poll := .idle, batches := w.batches ++ [batch] }

def World.step (w : World) : Label → Option World
  | .store message =>
    if h : w.log.next = message.sequence then
      some { w with log := w.log.append message (le_of_eq h) }
    else none
  | .purge first =>
    if h : w.log.first ≤ first ∧ first ≤ w.log.next then
      some { w with log := w.log.moveTo first w.log.next ⟨h.1, h.2, le_rfl⟩ }
    else none
  | .info limit leader =>
    match w.poll with
    | .idle =>
      let info := w.info leader
      let w := { w with since := if w.cursor.positions = [] then some w.log.next else w.since }
      let start := tailStart w.cursor info
      if info.lastSeq < start.1 then
        some (w.handOn ⟨[], batchCursor info (start.1 - 1), start.2⟩)
      else some { w with poll := .fetching limit info }
    | _ => none
  | .fetch batch =>
    match w.poll with
    | .fetching _ info =>
      let start := tailStart w.cursor info
      let read := readBatch w.name (start.1 - 1) batch
      some (w.handOn ⟨read.1, batchCursor info read.2, start.2⟩)
    | _ => none
  | .fail => some { w with poll := .idle }

/-- What a consumer that was opened at `next` delivers: messages of the stream from there on, in
order, each with its metadata, where only purged ones are left out. -/
structure Served (log : StreamLog) (next limit : Int) (batch : List Delivery) : Prop where
  metadata : ∀ delivery ∈ batch,
    delivery.metadata = some (delivery.message.sequence, delivery.message.timestamp)
  inOrder : (batch.map (·.message)).Sublist
    (log.entries.filter fun message => next ≤ message.sequence)
  skipped : ∀ message ∈ log.entries, next ≤ message.sequence →
    message.sequence < reached (after StoredMessage.sequence) next (batch.map (·.message)) →
    message ∈ batch.map (·.message) ∨ message.sequence < log.first
  bounded : (batch.length : Int) ≤ limit

/-- What the consumer delivers is right. -/
def World.Allows (w : World) : Label → Prop
  | .fetch batch => ∀ limit info, w.poll = .fetching limit info →
    Served w.log (tailStart w.cursor info).1 (fetchLimit limit (tailStart w.cursor info).1 info) batch
  | _ => True

def tailing : System World Label where
  Init w := ∃ name log, 1 ≤ log.next ∧ w = World.new name log
  Step w label v := w.step label = some v ∧ w.Allows label

/-- The sequences of all messages that were handed on, in order. -/
def World.returned (w : World) : List Int :=
  (w.batches.flatMap (·.messages)).map (·.queueOffset)

/-- All that was reported as dropped. -/
def World.dropped (w : World) : Int := (w.batches.map (·.dropped)).sum

/-- **Nothing is lost silently.** -/
structure World.Complete (w : World) : Prop where
  /-- A message stored since the state was read for the first poll, and up to the cursor, was handed
  on once, or it is one of those counted as dropped. -/
  accounted : ∃ lost : List Int, (lost.length : Int) = w.dropped ∧
    ∀ since position, w.since = some since → w.cursor.positions.head? = some position →
      ∀ message ∈ w.log.entries, since ≤ message.sequence → message.sequence ≤ position.offset →
        (w.returned.count message.sequence = 1 ∧ message.sequence ∉ lost) ∨
          (message.sequence ∉ w.returned ∧ lost.count message.sequence = 1)
  ordered : w.returned.Pairwise (· < ·)

/-- No poll passes the cursor of an empty stream once a message is stored there, and no message that
a fetch would still have handed on is purged after the state was read. -/
def Kept (w : World) : Label → Prop
  | .info _ _ => w.cursor.positions ≠ [] → tailPosition w.cursor = 0 → w.log.next = 1
  | .fetch batch => ∀ limit info, w.poll = .fetching limit info → ∀ message ∈ w.log.entries,
    (tailStart w.cursor info).1 ≤ message.sequence → message.sequence < w.log.first →
    message.sequence < reached (after StoredMessage.sequence) (tailStart w.cursor info).1
      (batch.map (·.message)) → message ∈ batch.map (·.message)
  | _ => True

/-! ### One poll -/

/-- The message as it is handed on. -/
def itemOf (stream : String) (message : StoredMessage) : MessageItem :=
  messageItem stream message message.sequence message.timestamp

theorem readBatch_concat (stream : String) (highest : Int) (batch : List Delivery)
    (last : Delivery) :
    readBatch stream highest (batch ++ [last]) =
      match last.metadata with
      | none => readBatch stream highest batch
      | some (sequence, timestamp) =>
        ((readBatch stream highest batch).1 ++
          [messageItem stream last.message sequence timestamp], sequence) := by
  rw [readBatch, List.foldl_append]
  rfl

theorem readBatch_eq {stream : String} {next : Int} {batch : List Delivery}
    (h : ∀ delivery ∈ batch,
      delivery.metadata = some (delivery.message.sequence, delivery.message.timestamp)) :
    readBatch stream (next - 1) batch =
      ((batch.map (·.message)).map (itemOf stream),
        reached (after StoredMessage.sequence) next (batch.map (·.message)) - 1) := by
  induction batch using List.reverseRecOn with
  | nil => rfl
  | append_singleton batch last ih =>
    have hread := ih fun delivery hd => h delivery (List.mem_append_left _ hd)
    rw [readBatch_concat, h last (by simp), hread, List.map_append, List.map_append]
    simp [after, itemOf]

/-- Where a poll goes on that a cursor was passed to: at the next sequence, or past what was purged,
and it counts that. -/
theorem tailStart_resumed {cursor : TailCursor} (info : StreamInfo) {position : QueuePosition}
    (hcursor : cursor.positions = [position]) (hpos : 0 ≤ position.offset)
    (hzero : position.offset = 0 → info.lastSeq = 0) :
    position.offset + 1 ≤ (tailStart cursor info).1 ∧
      (tailStart cursor info).2 = (tailStart cursor info).1 - (position.offset + 1) ∧
      ((tailStart cursor info).1 = position.offset + 1 ∨
        (tailStart cursor info).1 = info.firstSeq) := by
  have htail : tailPosition cursor = position.offset := by
    rw [tailPosition, hcursor]
    exact if_neg (not_lt.mpr hpos)
  rw [tailStart, htail]
  by_cases h0 : position.offset = 0
  · simp [h0, hzero h0]
  · simp only [h0, decide_false, Bool.false_eq_true, if_false, Bool.not_false, true_and]
    split
    · exact ⟨by omega, rfl, Or.inr rfl⟩
    · exact ⟨le_rfl, by simp, Or.inl rfl⟩

theorem tailStart_opening {cursor : TailCursor} (info : StreamInfo) (h : cursor.positions = []) :
    tailStart cursor info = (info.lastSeq + 1, 0) := by
  have htail : tailPosition cursor = 0 := by rw [tailPosition, h]
  simp [tailStart, htail]

/-! ### Every run -/

/-- What the caller knows: nothing yet, or what it followed from the first poll on. -/
inductive World.Followed (w : World) : Prop
  | opening : w.cursor.positions = [] → w.batches = [] → w.Followed
  | resumed {position : QueuePosition} {since : Int} {got : List StoredMessage} {lost : List Int} :
    w.cursor.positions = [position] → 0 ≤ position.offset → w.since = some since →
    Follows w.log lost since (position.offset + 1) got →
    w.returned = got.map StoredMessage.sequence → (lost.length : Int) = w.dropped → w.Followed

structure World.Sound (w : World) : Prop where
  started : 1 ≤ w.log.next
  followed : w.Followed
  fetching : ∀ limit info, w.poll = .fetching limit info → info.firstSeq ≤ w.log.first ∧
    info.lastSeq + 1 ≤ w.log.next ∧ 1 ≤ (tailStart w.cursor info).1 ∧
    (w.cursor.positions = [] → w.since = some (info.lastSeq + 1)) ∧
    (w.cursor.positions ≠ [] → tailPosition w.cursor = 0 → info.lastSeq = 0)

variable {w v : World}

theorem sound_new {name : String} {log : StreamLog} (h : 1 ≤ log.next) :
    (World.new name log).Sound :=
  ⟨h, .opening rfl rfl, nofun⟩

/-- The stream goes on. -/
theorem World.Sound.grow (h : w.Sound) {log : StreamLog} (hg : w.log.Grows log) :
    { w with log := log }.Sound := by
  refine ⟨h.started.trans hg.next, ?_, fun limit info hp => ?_⟩
  · rcases h.followed with ⟨hc, hb⟩ | ⟨hc, hpos, hsince, hf, hret, hlen⟩
    · exact .opening hc hb
    · exact .resumed hc hpos hsince (hf.grow hg) hret hlen
  · obtain ⟨hfirst, hlast, hrest⟩ := h.fetching limit info hp
    exact ⟨hfirst.trans hg.first, hlast.trans hg.next, hrest⟩

/-- **A poll returns** what comes at its start, with no message left out. -/
theorem World.Sound.handOn (h : w.Sound) {info : StreamInfo} (taken : List StoredMessage)
    (hlast : info.lastSeq + 1 ≤ w.log.next) (hfirst : info.firstSeq ≤ w.log.first)
    (hstart : 1 ≤ (tailStart w.cursor info).1)
    (hsince : w.cursor.positions = [] → w.since = some (info.lastSeq + 1))
    (hzero : w.cursor.positions ≠ [] → tailPosition w.cursor = 0 → info.lastSeq = 0)
    (hsorted : taken.Pairwise fun a b => a.sequence < b.sequence)
    (hmem : ∀ message ∈ taken, message ∈ w.log.entries ∧
      (tailStart w.cursor info).1 ≤ message.sequence)
    (hall : ∀ message ∈ w.log.entries, (tailStart w.cursor info).1 ≤ message.sequence →
      message.sequence < reached (after StoredMessage.sequence) (tailStart w.cursor info).1 taken →
      message ∈ taken) :
    (w.handOn ⟨taken.map (itemOf w.name), batchCursor info
      (reached (after StoredMessage.sequence) (tailStart w.cursor info).1 taken - 1),
      (tailStart w.cursor info).2⟩).Sound := by
  have hreached : (tailStart w.cursor info).1 ≤
      reached (after StoredMessage.sequence) (tailStart w.cursor info).1 taken :=
    lo_le_reached fun message hm => by
      have := (hmem message hm).2
      simp only [after]
      omega
  have hsequences : (taken.map (itemOf w.name)).map (·.queueOffset) =
      taken.map StoredMessage.sequence := by
    rw [List.map_map]
    rfl
  refine ⟨h.started, ?_, fun limit info hfetching => by cases hfetching⟩
  rcases h.followed with ⟨hc, hb⟩ | ⟨hc, hpos, hs, hf, hret, hlen⟩
  · rw [tailStart_opening info hc] at hmem hall hreached hstart ⊢
    have htake := (Follows.start hlast).take hsorted hmem hall
    rw [← sub_add_cancel (reached _ _ taken) 1] at htake
    refine .resumed rfl (Int.sub_nonneg.mpr (hstart.trans hreached)) (hsince hc) htake ?_ ?_
    · simpa [World.returned, World.handOn, hb] using hsequences
    · simp [World.dropped, World.handOn, hb]
  · rename_i position since got lost
    have hne : w.cursor.positions ≠ [] := by simp [hc]
    have hat : tailPosition w.cursor = position.offset := by
      rw [tailPosition, hc]
      exact if_neg (not_lt.mpr hpos)
    obtain ⟨hle, hdropped, hnext⟩ := tailStart_resumed info hc hpos fun h0 => hzero hne (hat.trans h0)
    have hbound : (tailStart w.cursor info).1 ≤ w.log.next := by
      rcases hnext with hn | hn
      · exact hn ▸ hf.le
      · exact hn ▸ hfirst.trans w.log.first_le
    have htake := (hf.skip hle hbound).take hsorted hmem hall
    rw [← sub_add_cancel (reached _ _ taken) 1] at htake
    refine .resumed rfl (Int.sub_nonneg.mpr (hstart.trans hreached)) hs htake ?_ ?_
    · have : w.returned ++ (taken.map (itemOf w.name)).map (·.queueOffset) =
          (got ++ taken).map StoredMessage.sequence := by
        rw [hsequences, hret, List.map_append]
      simpa [World.returned, World.handOn] using this
    · rw [List.length_append, Nat.cast_add, hlen, length_gap hle, ← hdropped]
      simp [World.dropped, World.handOn]

/-- The state is read: for an empty cursor it is what the tail starts from. -/
theorem World.Sound.opens (h : w.Sound) (hp : w.poll = .idle) :
    { w with since := if w.cursor.positions = [] then some w.log.next else w.since }.Sound := by
  refine ⟨h.started, ?_, fun limit info hf => absurd (hp.symm.trans hf) nofun⟩
  rcases h.followed with ⟨hc, hb⟩ | ⟨hc, hpos, hs, hf, hret, hlen⟩
  · exact .opening hc hb
  · refine .resumed hc hpos ?_ hf hret hlen
    simpa [hc] using hs

/-- What the state that was just read says of where the poll starts. -/
theorem World.Sound.starts (h : w.Sound) (leader : Option String)
    (hzero : w.cursor.positions ≠ [] → tailPosition w.cursor = 0 → w.log.next = 1) :
    1 ≤ (tailStart w.cursor (w.info leader)).1 := by
  have hstarted := h.started
  rcases h.followed with ⟨hc, -⟩ | ⟨hc, hpos, hs, hf, hret, hlen⟩
  · rw [tailStart_opening _ hc]
    simpa [World.info] using hstarted
  · rename_i position since got lost
    have hat : tailPosition w.cursor = position.offset := by
      rw [tailPosition, hc]
      exact if_neg (not_lt.mpr hpos)
    have := (tailStart_resumed (w.info leader) hc hpos fun h0 => by
      have := hzero (by simp [hc]) (hat.trans h0)
      simp [World.info, this]).1
    omega

theorem sound_step {label : Label} (h : w.Sound) (hs : w.step label = some v)
    (hallows : w.Allows label) (hkept : Kept w label) : v.Sound := by
  cases label with
  | store message =>
    simp only [World.step] at hs
    split at hs
    · rename_i hm
      exact Option.some.inj hs ▸ h.grow (RetainedLog.grows_append _ message (le_of_eq hm))
    · cases hs
  | purge first =>
    simp only [World.step] at hs
    split at hs
    · exact Option.some.inj hs ▸ h.grow (RetainedLog.grows_moveTo _ first _ _)
    · cases hs
  | info limit leader =>
    cases hp : w.poll <;> simp only [World.step, hp, reduceCtorEq] at hs
    have hopens := h.opens hp
    have hstart := h.starts leader hkept
    have hlast : (w.info leader).lastSeq + 1 ≤ w.log.next := by simp [World.info]
    have hsince : w.cursor.positions = [] →
        (if w.cursor.positions = [] then some w.log.next else w.since) =
          some ((w.info leader).lastSeq + 1) := by
      intro hc
      simp [hc, World.info]
    have hzero : w.cursor.positions ≠ [] → tailPosition w.cursor = 0 →
        (w.info leader).lastSeq = 0 := by
      intro hc h0
      simp [World.info, hkept hc h0]
    split at hs
    · rename_i hend
      obtain rfl := Option.some.inj hs
      exact hopens.handOn [] hlast le_rfl hstart hsince hzero .nil (by simp) (by
        intro message _ hge hlt
        exact absurd hlt (not_lt.mpr hge))
    · obtain rfl := Option.some.inj hs
      refine ⟨hopens.started, ?_, fun limit' info' hf => ?_⟩
      · rcases hopens.followed with ⟨hc, hb⟩ | ⟨hc, hpos, hs, hf, hret, hlen⟩
        · exact .opening hc hb
        · exact .resumed hc hpos hs hf hret hlen
      · obtain ⟨rfl, rfl⟩ : limit = limit' ∧ w.info leader = info' := by simpa using hf
        exact ⟨le_rfl, hlast, hstart, hsince, hzero⟩
  | fetch batch =>
    cases hp : w.poll <;> simp only [World.step, hp, reduceCtorEq] at hs
    rename_i limit info
    obtain rfl := Option.some.inj hs
    obtain ⟨hfirst, hlast, hstart, hsince, hzero⟩ := h.fetching limit info hp
    have hserved := hallows limit info hp
    rw [readBatch_eq hserved.metadata]
    refine h.handOn _ hlast hfirst hstart hsince hzero ?_ (fun message hm => ?_) ?_
    · exact (w.log.sorted.filter _).sublist hserved.inOrder
    · simpa using List.mem_filter.mp (hserved.inOrder.subset hm)
    · intro message hm hge hlt
      rcases hserved.skipped message hm hge hlt with hin | hpurged
      · exact hin
      · exact hkept limit info hp message hm hge hpurged hlt
  | fail =>
    obtain rfl := Option.some.inj hs
    refine ⟨h.started, ?_, nofun⟩
    rcases h.followed with ⟨hc, hb⟩ | ⟨hc, hpos, hs, hf, hret, hlen⟩
    · exact .opening hc hb
    · exact .resumed hc hpos hs hf hret hlen

theorem World.Sound.complete (h : w.Sound) : w.Complete := by
  rcases h.followed with ⟨hc, hb⟩ | ⟨hc, hpos, hs, hf, hret, hlen⟩
  · exact ⟨⟨[], by simp [World.dropped, hb], by simp [hc]⟩, by simp [World.returned, hb]⟩
  · rename_i position since got lost
    refine ⟨⟨lost, hlen, fun since' position' hs' hc' message hm hge hle => ?_⟩, ?_⟩
    · obtain rfl : since = since' := Option.some.inj (hs.symm.trans hs')
      obtain rfl : position = position' := by simpa [hc] using hc'
      rw [hret]
      exact hf.once hm hge (by omega)
    · rw [hret]
      exact List.pairwise_map.mpr (hf.covers.sorted.imp fun h => by simpa [after] using h)

/-- **The tail loses nothing silently**, while no poll passes the cursor of an empty stream that is
empty no longer, and nothing is purged between the state and the fetch. -/
theorem complete_of_kept (h : Reachable (tailing.guard Kept) w) : w.Complete := by
  have hsound : w.Sound := by
    refine h.inv (P := World.Sound) ?_ ?_
    · rintro _ ⟨name, log, hnext, rfl⟩
      exact sound_new hnext
    · rintro u label v hu ⟨⟨hstep, hallows⟩, hkept⟩
      exact sound_step hu hstep hallows hkept
  exact hsound.complete

/-! ### A stream that is empty at the first poll -/

def sampleMessage (sequence : Int) : StoredMessage := ⟨sequence, "orders", ∅, "", 0⟩

/-- A stream where nothing was stored yet. -/
def emptyStream : StreamLog := ⟨[], 1, 1, .nil, by simp, by decide, le_rfl⟩

/-- A stream of one message. -/
def oneMessage : StreamLog := emptyStream.append (sampleMessage 1) le_rfl

theorem log_of_info {limit : Int} {leader : Option String}
    (h : w.step (.info limit leader) = some v) : v.log = w.log := by
  cases hp : w.poll <;> simp only [World.step, hp, reduceCtorEq] at h
  split at h <;> exact Option.some.inj h ▸ rfl

/-- Where the fetch of a poll under way starts, and how much it asks for. -/
def World.fetches (w : World) : Option (Int × Int) :=
  match w.poll with
  | .fetching limit info =>
    some ((tailStart w.cursor info).1, fetchLimit limit (tailStart w.cursor info).1 info)
  | .idle => none

/-- A message that is stored between two polls is handed on. -/
theorem stored_message_is_handed_on : ∃ w, Reachable (tailing.guard Kept) w ∧
    w.returned = [2] ∧ w.Complete := by
  have hrun : ((World.new "orders" oneMessage).step (.info 0 none)).bind (fun w =>
      (w.step (.store (sampleMessage 2))).bind fun x => (x.step (.info 0 none)).bind fun y =>
        (y.step (.fetch [⟨sampleMessage 2, some (2, 0)⟩])).map fun z => decide
          (tailPosition x.cursor = 1 ∧ y.fetches = some (2, 1) ∧ y.log.first = 1 ∧
            z.returned = [2])) = some true := by decide
  obtain ⟨w, hw, hrun⟩ := Option.bind_eq_some_iff.mp hrun
  obtain ⟨x, hx, hrun⟩ := Option.bind_eq_some_iff.mp hrun
  obtain ⟨y, hy, hrun⟩ := Option.bind_eq_some_iff.mp hrun
  obtain ⟨z, hz, hout⟩ := Option.map_eq_some_iff.mp hrun
  obtain ⟨hplace, hfetches, hfirst, hret⟩ := of_decide_eq_true hout
  have hlog : y.log.entries = [sampleMessage 1, sampleMessage 2] := by
    simp only [World.step] at hx
    split at hx
    · obtain rfl := Option.some.inj hx
      rw [log_of_info hy]
      show w.log.entries ++ [sampleMessage 2] = _
      rw [log_of_info hw]
      rfl
    · cases hx
  have hstart : ∀ limit info, y.poll = .fetching limit info →
      (tailStart y.cursor info).1 = 2 ∧ fetchLimit limit (tailStart y.cursor info).1 info = 1 := by
    intro limit info hp
    rw [World.fetches, hp] at hfetches
    exact Prod.mk.inj (Option.some.inj hfetches)
  have hreachw : Reachable (tailing.guard Kept) w :=
    .step (.init ⟨_, _, by decide, rfl⟩) ⟨⟨hw, trivial⟩, fun hc => absurd rfl hc⟩
  have hreachx : Reachable (tailing.guard Kept) x := .step hreachw ⟨⟨hx, trivial⟩, trivial⟩
  have hreachy : Reachable (tailing.guard Kept) y :=
    .step hreachx ⟨⟨hy, trivial⟩, fun _ h0 => absurd (hplace.symm.trans h0) (by decide)⟩
  have hreachz : Reachable (tailing.guard Kept) z := by
    refine .step hreachy ⟨⟨hz, fun limit info hp => ?_⟩, fun limit info hp message hm hge hlt => ?_⟩
    · obtain ⟨hnext, hlimit⟩ := hstart limit info hp
      rw [hlimit, hnext]
      refine ⟨by simp [sampleMessage], ?_, ?_, le_rfl⟩
      · rw [hlog]
        exact List.Sublist.refl _
      · intro message hm hge _
        rw [hlog] at hm
        rcases List.mem_cons.mp hm with rfl | hm
        · exact absurd hge (by decide)
        · exact .inl hm
    · rw [(hstart limit info hp).1] at hge
      rw [hfirst] at hlt
      omega
  exact ⟨z, hreachz, hret, complete_of_kept hreachz⟩

/-- The first poll finds the stream empty and hands back sequence zero; the second reads that as a
tail that has not started, and the message that came in between is neither handed on nor counted. -/
theorem empty_start_loses_message : ¬ ∀ w, Reachable tailing w → w.Complete := by
  intro hall
  have hrun : ((World.new "orders" emptyStream).step (.info 0 none)).bind (fun w =>
      (w.step (.store (sampleMessage 1))).bind fun x => (x.step (.info 0 none)).map fun y => decide
        (y.since = some 1 ∧ y.cursor = ⟨[⟨"", 0, 1⟩]⟩ ∧ y.returned = [] ∧ y.dropped = 0 ∧
          y.log.entries.map (·.sequence) = [1])) = some true := by decide
  obtain ⟨w, hw, hrun⟩ := Option.bind_eq_some_iff.mp hrun
  obtain ⟨x, hx, hrun⟩ := Option.bind_eq_some_iff.mp hrun
  obtain ⟨y, hy, hout⟩ := Option.map_eq_some_iff.mp hrun
  obtain ⟨hsince, hcursor, hreturned, hdropped, hlog⟩ := of_decide_eq_true hout
  have hreachw : Reachable tailing w := .step (.init ⟨_, _, le_rfl, rfl⟩) ⟨hw, trivial⟩
  have hreachx : Reachable tailing x := .step hreachw ⟨hx, trivial⟩
  obtain ⟨⟨lost, hlen, haccounted⟩, -⟩ := hall y (.step hreachx ⟨hy, trivial⟩)
  obtain ⟨message, hm, hseq⟩ := List.mem_map.mp (hlog.symm ▸ List.mem_singleton_self (1 : Int))
  have hlost : lost = [] := by
    rw [hdropped, Nat.cast_eq_zero] at hlen
    exact List.length_eq_zero_iff.mp hlen
  have := haccounted 1 ⟨"", 0, 1⟩ hsince (by rw [hcursor]; rfl) message hm (by rw [hseq])
    (by rw [hseq])
  rw [hreturned, hlost] at this
  simp at this

end MqStudio.Nats
