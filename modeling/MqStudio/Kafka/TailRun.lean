import MqStudio.Kafka.RecordTail

/-!
# Runs of the Kafka tail

A topic whose partitions only append, and whose retention only raises their
starts, with one caller that polls it and passes the cursor it was handed last.
A poll is three moments: the starts are listed, the ends are listed, and the
records are read.

* `tailMessages_polls`: what a poll does that is told the end of every partition
  of its cursor.
* `World.Complete`: every record of a followed partition behind the cursor was
  handed on once, in the order of the offsets, or counted as dropped.
* `complete_of_listed`: that holds while every poll that returns was told those
  ends, and the timestamps of a partition do not go back.
-/

namespace MqStudio.Kafka

open Std (ExtTreeMap)
open Lib.Maps Lib.Tail Lib.Transition
open Model

/-- The log of a partition, with every record it ever held. -/
abbrev PartitionLog := RetainedLog Record.offset

/-- The records that came are of the partitions that were asked for, and for each of them they are
what its log holds from the given offset on, without a gap. -/
def gapFree (log : Int32 → PartitionLog) (positions : Positions) (ends : ListedOffsets)
    (records : List Record) : Bool :=
  records.all (fun record => (readable positions ends).contains record.partition) &&
    (readable positions ends).keys.all fun partition =>
      (records.filter (·.partition = partition)).isPrefixOf
        ((log partition).entries.filter fun record =>
          (positions[partition]?).getD 0 ≤ record.offset)

/-! ### One poll -/

section

variable {log : Int32 → PartitionLog} {positions : Positions} {cursor : TailCursor} {limit : Int}
  {starts ends : ListedOffsets} {fetches : List Fetch} {batch : TailBatch} {topic : String}
  {records : List Record} {partition : Int32}

theorem prefix_of_gapFree (h : gapFree log positions ends records = true) {offset : Int}
    (hp : positions[partition]? = some offset) :
    records.filter (·.partition = partition) <+:
      (log partition).entries.filter fun record => offset ≤ record.offset := by
  simp only [gapFree, Bool.and_eq_true, List.all_eq_true] at h
  by_cases hmem : partition ∈ readable positions ends
  · have := h.2 partition (ExtTreeMap.mem_keys.mpr hmem)
    rw [hp, Option.getD_some] at this
    exact List.isPrefixOf_iff_prefix.mp this
  · have hnil : records.filter (·.partition = partition) = [] := by
      refine List.filter_eq_nil_iff.mpr fun record hr hrp => hmem ?_
      obtain rfl : record.partition = partition := by simpa using hrp
      exact ExtTreeMap.mem_iff_contains.mpr (h.1 record hr)
    rw [hnil]
    exact List.nil_prefix

/-- A partition that something comes from is one that is read, below its end. -/
theorem position_of_gapFree (h : gapFree log positions ends records = true) {record : Record}
    (hr : record ∈ records) : ∃ offset, positions[record.partition]? = some offset ∧
      offset < offsetAt ends record.partition := by
  simp only [gapFree, Bool.and_eq_true, List.all_eq_true] at h
  have hmem := ExtTreeMap.mem_iff_contains.mpr (h.1 record hr)
  rw [readable, ExtTreeMap.mem_iff_isSome_getElem?, ExtTreeMap.getElem?_filterMap'] at hmem
  cases hpos : positions[record.partition]? with
  | none => simp [hpos] at hmem
  | some offset =>
    refine ⟨offset, rfl, ?_⟩
    by_contra hle
    simp [hpos, not_lt.mp hle] at hmem

/-- Nothing comes from a partition that is read from its end on. -/
theorem nil_of_gapFree (h : gapFree log positions ends records = true)
    (hp : ∀ offset, positions[partition]? = some offset → offsetAt ends partition ≤ offset) :
    records.filter (·.partition = partition) = [] := by
  refine List.filter_eq_nil_iff.mpr fun record hr hrp => ?_
  obtain rfl : record.partition = partition := by simpa using hrp
  obtain ⟨offset, hpos, hlt⟩ := position_of_gapFree h hr
  exact absurd (hp offset hpos) (not_le.mpr hlt)

/-- What comes from a partition is a stretch of its log. -/
theorem sublist_of_gapFree (h : gapFree log positions ends records = true) (partition : Int32) :
    (records.filter (·.partition = partition)).Sublist (log partition).entries := by
  cases hpos : positions[partition]? with
  | some offset => exact (prefix_of_gapFree h hpos).sublist.trans List.filter_sublist
  | none =>
    rw [nil_of_gapFree h fun offset ho => absurd (hpos.symm.trans ho) nofun]
    exact List.nil_sublist _

theorem ofLog_places (topic : String) (partition : Int32) (records : List Record) :
    ofLog partition ((records.map (messageFrom topic)).map place) =
      (records.filter (·.partition = partition)).map Record.offset := by
  induction records with
  | nil => rfl
  | cons record records ih =>
    rw [List.map_cons, List.map_cons, ofLog_cons, ih, place_messageFrom]
    by_cases hp : record.partition = partition <;> simp [hp]

theorem places_number (messages : List MessageItem) :
    (number messages).map place = messages.map place := by
  refine List.ext_getElem? fun i => ?_
  simp only [number, List.getElem?_map, List.getElem?_mapIdx]
  cases messages[i]? <;> rfl

instance : Std.Total fun a b : MessageItem => (!before b a) = true where
  total a b := by
    by_cases h : a.storeTimestamp = b.storeTimestamp
    · simp [before, h]
      omega
    · have h' : b.storeTimestamp ≠ a.storeTimestamp := Ne.symm h
      simp [before, h, h']
      omega

instance : IsTrans MessageItem fun a b => (!before b a) = true where
  trans a b c hab hbc := by
    simp only [before, Bool.not_eq_true', ne_eq, ite_not] at hab hbc ⊢
    split at hab <;> split at hbc <;> split <;> simp_all <;> omega

/-- A poll that returns, by its parts. -/
theorem tailMessages_ok (h : tailMessages topic cursor limit starts ends fetches = some (.ok batch)) :
    batch.dropped = (tailPositions cursor starts ends).2 ∧ ∃ taken messages,
      taken <+: fetched fetches ∧ messages.Perm (taken.map (messageFrom topic)) ∧
      messages.Pairwise (fun a b => (!before b a) = true) ∧ batch.messages = number messages ∧
      TailCursor.known batch.cursor = advance (tailPositions cursor starts ends).1 messages := by
  simp only [tailMessages] at h
  split at h
  · obtain rfl := Except.ok.inj (Option.some.inj h)
    exact ⟨rfl, [], [], List.nil_prefix, .refl _, .nil, rfl, known_cursorFrom _⟩
  · obtain ⟨result, hresult, hbatch⟩ := Option.map_eq_some_iff.mp h
    cases result with
    | error err => cases hbatch
    | ok read =>
      obtain rfl := Except.ok.inj hbatch
      obtain ⟨taken, hpre, rfl⟩ := readRecords_taken hresult
      exact ⟨rfl, taken, _, hpre, List.perm_insertionSort _ _, List.pairwise_insertionSort _ _, rfl,
        known_cursorFrom _⟩

/-- What the two listings can have told, at the moment the records are read. -/
structure Told (log : Int32 → PartitionLog) (starts ends : ListedOffsets) : Prop where
  start : ∀ partition, offsetAt starts partition ≤ (log partition).first
  ending : ∀ partition, offsetAt ends partition ≤ (log partition).next

/-- The places of a cursor. -/
def position (cursor : TailCursor) (partition : Int32) : Option Int :=
  (TailCursor.known cursor)[partition]?

/-- The end of every partition of a cursor was listed. -/
def Listed (cursor : TailCursor) (ends : ListedOffsets) : Prop :=
  ∀ partition, position cursor partition ≠ none → 0 ≤ offsetAt ends partition

/-- **A poll that is told the end of every partition of its cursor.** -/
theorem tailMessages_polls
    (h : tailMessages topic cursor limit starts ends fetches = some (.ok batch))
    (hgap : gapFree log (tailPositions cursor starts ends).1 ends (fetched fetches) = true)
    (htold : Told log starts ends) (hlisted : Listed cursor ends)
    (hplace : ∀ partition place, position cursor partition = some place →
      place ≤ (log partition).next) :
    Polls log (position cursor) (position batch.cursor) (batch.messages.map place)
      (agedOut cursor starts ends) := by
  obtain ⟨-, taken, messages, hpre, hperm, -, hbatch, hcursor⟩ := tailMessages_ok h
  have hplaces : ∀ partition, (ofLog partition (messages.map place)).Perm
      ((taken.filter (·.partition = partition)).map Record.offset) := by
    intro partition
    rw [← ofLog_places topic]
    exact ofLog_perm (hperm.map place)
  have htaken : ∀ partition, taken.filter (·.partition = partition) <+:
      (fetched fetches).filter (·.partition = partition) := fun partition => hpre.filter _
  rw [hbatch, places_number]
  constructor
  · intro partition place hp
    have hend := hlisted partition (by rw [hp]; simp)
    have hread : (tailPositions cursor starts ends).1[partition]? =
        some (resumed place (offsetAt starts partition)) := by
      rw [getElem?_tailPositions, show (TailCursor.known cursor)[partition]? = some place from hp,
        tailPosition_known hend]
      rfl
    have hfrom := (htaken partition).trans (prefix_of_gapFree hgap hread)
    refine ⟨resumed place (offsetAt starts partition), _, le_resumed _ _, ?_, ?_, hfrom,
      hplaces partition, ?_⟩
    · rw [resumed]
      split
      · exact (htold.start partition).trans (log partition).first_le
      · exact hplace partition place hp
    · rw [ofLog_agedOut, agedAt, show (TailCursor.known cursor)[partition]? = some place from hp]
      exact if_pos hend
    · rw [position, hcursor, getElem?_advance messages hread, furthest_perm (hplaces partition)]
      have hsub := hfrom.sublist
      rw [furthest_eq_reached (((log partition).sorted.filter _).sublist hsub)]
      intro record hr
      simpa using (List.mem_filter.mp (hsub.subset hr)).2
  · intro partition hp
    have hread := getElem?_tailPositions cursor starts ends partition
    rw [show (TailCursor.known cursor)[partition]? = none from hp] at hread
    have hnil : taken.filter (·.partition = partition) = [] := by
      have hnone : (fetched fetches).filter (·.partition = partition) = [] := by
        refine nil_of_gapFree hgap fun offset ho => ?_
        rw [hread, tailPosition] at ho
        split at ho
        · cases ho
        · exact le_of_eq (Option.some.inj ho)
      exact List.prefix_nil.mp (hnone ▸ htaken partition)
    have hof : ofLog partition (messages.map place) = [] := by
      have := hplaces partition
      rw [hnil] at this
      exact List.perm_nil.mp this
    refine ⟨hof, ?_, fun pos hpos => ?_⟩
    · rw [ofLog_agedOut, agedAt, show (TailCursor.known cursor)[partition]? = none from hp]
    · rw [position, hcursor] at hpos
      cases hpart : (tailPositions cursor starts ends).1[partition]? with
      | none =>
        rw [getElem?_advance_none messages hpart hof] at hpos
        cases hpos
      | some offset =>
        rw [getElem?_advance messages hpart, hof] at hpos
        obtain rfl := Option.some.inj hpos
        rw [hpart, tailPosition] at hread
        split at hread
        · cases hread
        · obtain rfl := Option.some.inj hread
          exact htold.ending partition

/-- The offsets of one partition in a batch. -/
theorem ofLog_messages (partition : Int32) (messages : List MessageItem) :
    ofLog partition (messages.map place) =
      (messages.filter fun message => (place message).1 = partition).map (·.queueOffset) := by
  induction messages with
  | nil => rfl
  | cons message messages ih =>
    rw [List.map_cons, ofLog_cons, ih]
    by_cases hp : (place message).1 = partition
    · rw [if_pos hp, List.filter_cons_of_pos (by simpa using hp)]
      rfl
    · rw [if_neg hp, List.filter_cons_of_neg (by simpa using hp)]

/-- Later records of a partition do not come with earlier timestamps. -/
def Stamped (records : List Record) : Prop :=
  ∀ partition, (records.filter (·.partition = partition)).Pairwise fun a b =>
    a.timestamp ≤ b.timestamp

/-- In records with increasing offsets, timestamps that do not decrease go with the offsets. -/
theorem timestamp_le {a b : Record} (hsorted : records.Pairwise fun a b => a.offset < b.offset)
    (hstamp : records.Pairwise fun a b => a.timestamp ≤ b.timestamp) (ha : a ∈ records)
    (hb : b ∈ records) (hab : a.offset < b.offset) : a.timestamp ≤ b.timestamp := by
  have hall := List.Pairwise.forall_of_forall_of_flip
    (R := fun a b : Record => a.offset < b.offset → a.timestamp ≤ b.timestamp)
    (fun _ _ _ => le_rfl) (hstamp.imp fun hle _ => by exact hle)
    (hsorted.imp fun hlt hgt => absurd hlt hgt.asymm)
  exact hall ha hb hab

/-- **A batch is in the order of the offsets**, partition by partition. -/
theorem tailMessages_ordered
    (h : tailMessages topic cursor limit starts ends fetches = some (.ok batch))
    (hgap : gapFree log (tailPositions cursor starts ends).1 ends (fetched fetches) = true)
    (hstamped : Stamped (fetched fetches)) (partition : Int32) :
    (ofLog partition (batch.messages.map place)).Pairwise (· < ·) := by
  obtain ⟨-, taken, messages, hpre, hperm, hsorted, hbatch, -⟩ := tailMessages_ok h
  have hsub : (taken.filter (·.partition = partition)).Sublist
      ((fetched fetches).filter (·.partition = partition)) := (hpre.filter _).sublist
  have hoffsets : ((fetched fetches).filter (·.partition = partition)).Pairwise
      fun a b => a.offset < b.offset :=
    (log partition).sorted.sublist (sublist_of_gapFree hgap partition)
  have hnodup : (ofLog partition (messages.map place)).Nodup := by
    have hplaces : (ofLog partition (messages.map place)).Perm
        ((taken.filter (·.partition = partition)).map Record.offset) := by
      rw [← ofLog_places topic]
      exact ofLog_perm (hperm.map place)
    exact hplaces.nodup_iff.mpr
      (List.pairwise_map.mpr ((hoffsets.sublist hsub).imp ne_of_lt))
  have hrecord : ∀ message ∈ messages, (place message).1 = partition →
      ∃ record ∈ (fetched fetches).filter (·.partition = partition),
        message = messageFrom topic record := by
    intro message hm hp
    obtain ⟨record, hr, rfl⟩ := List.mem_map.mp (hperm.subset hm)
    rw [place_messageFrom] at hp
    exact ⟨record, hsub.subset (List.mem_filter.mpr ⟨hr, by simpa using hp⟩), rfl⟩
  have hle : (ofLog partition (messages.map place)).Pairwise (· ≤ ·) := by
    rw [ofLog_messages]
    refine List.pairwise_map.mpr ((hsorted.filter _).imp_of_mem fun {a b} ha hb hab => ?_)
    simp only [List.mem_filter, decide_eq_true_eq] at ha hb
    obtain ⟨x, hx, rfl⟩ := hrecord a ha.1 ha.2
    obtain ⟨y, hy, rfl⟩ := hrecord b hb.1 hb.2
    by_contra hlt
    have hstamp := timestamp_le hoffsets (hstamped partition) hy hx (not_le.mp hlt)
    -- The sort would have put the record with the lower offset first.
    have hbefore : before (messageFrom topic y) (messageFrom topic x) = true := by
      have hoff : y.offset < x.offset := not_le.mp hlt
      rw [before]
      split
      · rename_i hne
        exact decide_eq_true (lt_of_le_of_ne hstamp hne)
      · exact decide_eq_true hoff
    rw [hbefore] at hab
    cases hab
  rw [hbatch, places_number]
  exact hle.imp₂ (fun _ _ hle hne => lt_of_le_of_ne hle hne) hnodup

end

/-! ### The topic and its caller -/

/-- Where a poll is. -/
inductive Poll where
  | idle
  | started (limit : Int) (starts : ListedOffsets)
  | ended (limit : Int) (starts ends : ListedOffsets)

/-- A topic, the caller that tails it with what it was handed, and for each partition where its log
ended when it first appeared in a cursor. -/
structure World where
  topic : String
  log : Int32 → PartitionLog
  cursor : TailCursor
  poll : Poll
  batches : List TailBatch
  since : Int32 → Option Int

/-- A topic before the first poll. -/
def World.new (topic : String) (log : Int32 → PartitionLog) : World :=
  ⟨topic, log, ⟨[]⟩, .idle, [], fun _ => none⟩

inductive Label where
  | produce (partition : Int32) (record : Record)
  /-- Retention raises the start; an offset that holds no record raises the end. -/
  | move (partition : Int32) (first next : Int)
  | listStarts (limit : Int) (starts : Option ListedOffsets)
  | listEnds (ends : Option ListedOffsets)
  /-- The read comes back, and the poll with it. -/
  | read (fetches : List Fetch)
  | fail (fetches : List Fetch)

/-- Every answer without an error is right. -/
def answers (log : Int32 → PartitionLog) (offsets : ListedOffsets) (bound : PartitionLog → Int) :
    Bool :=
  offsets.toList.all fun listed => listed.2.err.isSome || listed.2.offset = bound (log listed.1)

/-- The poll returns, and the caller keeps the cursor. -/
def World.handOn (w : World) (batch : TailBatch) : World :=
  { w with
    cursor := batch.cursor
    poll := .idle
    batches := w.batches ++ [batch]
    since := fun partition =>
      match w.since partition, position batch.cursor partition with
      | none, some _ => some (w.log partition).next
      | since, _ => since }

def World.step (w : World) : Label → Option World
  | .produce partition record =>
    if h : (w.log partition).next ≤ record.offset ∧ record.partition = partition then
      some { w with log := Function.update w.log partition ((w.log partition).append record h.1) }
    else none
  | .move partition first next =>
    if h : (w.log partition).first ≤ first ∧ first ≤ next ∧ (w.log partition).next ≤ next then
      some { w with log := Function.update w.log partition ((w.log partition).moveTo first next h) }
    else none
  | .listStarts limit starts =>
    match w.poll, starts with
    | .idle, none => some w
    | .idle, some starts =>
      if answers w.log starts (·.first) then some { w with poll := .started limit starts } else none
    | _, _ => none
  | .listEnds ends =>
    match w.poll, ends with
    | .started _ _, none => some { w with poll := .idle }
    | .started limit starts, some ends =>
      if answers w.log ends (·.next) then some { w with poll := .ended limit starts ends } else none
    | _, _ => none
  | .read fetches =>
    match w.poll with
    | .ended limit starts ends =>
      match tailMessages w.topic w.cursor limit starts ends fetches with
      | some (.ok batch) =>
        if gapFree w.log (tailPositions w.cursor starts ends).1 ends (fetched fetches) then
          some (w.handOn batch)
        else none
      | _ => none
    | _ => none
  | .fail fetches =>
    match w.poll with
    | .ended limit starts ends =>
      match tailMessages w.topic w.cursor limit starts ends fetches with
      | some (.error _) => some { w with poll := .idle }
      | _ => none
    | _ => none

def tailing : System World Label where
  Init w := ∃ topic log, w = World.new topic log
  Step w label v := w.step label = some v

/-- The places of all messages that were handed on, in order. -/
def World.returned (w : World) : List (Int32 × Int) :=
  (w.batches.flatMap (·.messages)).map place

/-- All that was reported as dropped. -/
def World.dropped (w : World) : Int := (w.batches.map (·.dropped)).sum

/-- **Nothing is lost silently.** -/
structure World.Complete (w : World) : Prop where
  /-- A record behind the cursor, written after its partition first appeared there, was handed on
  once, or it is one of those counted as dropped. -/
  accounted : ∃ lost : List (Int32 × Int), (lost.length : Int) = w.dropped ∧
    ∀ partition since place, w.since partition = some since →
      position w.cursor partition = some place →
      ∀ record ∈ (w.log partition).entries, since ≤ record.offset → record.offset < place →
        (w.returned.count (partition, record.offset) = 1 ∧ (partition, record.offset) ∉ lost) ∨
          ((partition, record.offset) ∉ w.returned ∧ lost.count (partition, record.offset) = 1)
  ordered : ∀ partition, (ofLog partition w.returned).Pairwise (· < ·)

/-- A poll that returns was told the end of every partition of the cursor it was passed. -/
def AllListed (w : World) : Label → Prop
  | .read _ => ∀ limit starts ends, w.poll = .ended limit starts ends → Listed w.cursor ends
  | _ => True

/-- And the records of a partition that it read have timestamps that do not go back. -/
def Steady (w : World) (label : Label) : Prop :=
  AllListed w label ∧ ∀ fetches, label = .read fetches → Stamped (fetched fetches)

/-! ### Every run -/

/-- What a poll under way has been told is still a bound. -/
def World.Told (w : World) : Prop :=
  match w.poll with
  | .idle => True
  | .started _ starts => ∀ partition, offsetAt starts partition ≤ (w.log partition).first
  | .ended _ starts ends => Kafka.Told w.log starts ends

structure World.Sound (w : World) : Prop where
  told : w.Told
  followed : ∃ lo lost, Following w.log (position w.cursor) lo w.returned lost ∧
    (lost.length : Int) = w.dropped ∧
      ∀ partition since, w.since partition = some since → lo partition ≤ since
  since : ∀ partition, position w.cursor partition = none → w.since partition = none

variable {w v : World}

theorem sound_new (topic : String) (log : Int32 → PartitionLog) : (World.new topic log).Sound where
  told := trivial
  followed := ⟨fun _ => 0, [], following_none log _, rfl, nofun⟩
  since _ _ := rfl

theorem offsetAt_le {log : Int32 → PartitionLog} {offsets : ListedOffsets}
    {bound : PartitionLog → Int} (h : answers log offsets bound = true) (partition : Int32)
    (hb : 0 ≤ bound (log partition)) : offsetAt offsets partition ≤ bound (log partition) := by
  rw [offsetAt]
  cases hp : offsets[partition]? with
  | none =>
    show (-1 : Int) ≤ _
    omega
  | some listed =>
    have hmem := ExtTreeMap.mem_toList_iff_getElem?_eq_some.mpr hp
    have hone := List.all_eq_true.mp h _ hmem
    simp only [Bool.or_eq_true, decide_eq_true_eq] at hone
    by_cases herr : listed.err.isSome = true
    · simp only [herr, if_true]
      omega
    · simp only [herr, Bool.false_eq_true, if_false]
      exact le_of_eq (hone.resolve_left herr)

/-- The logs go on. -/
theorem World.Sound.grow (h : w.Sound) {log : Int32 → PartitionLog}
    (hg : ∀ partition, (w.log partition).Grows (log partition)) :
    { w with log := log }.Sound := by
  refine ⟨?_, ?_, h.since⟩
  · have htold := h.told
    unfold World.Told at htold ⊢
    show match w.poll with
      | .idle => True
      | .started _ starts => ∀ partition, offsetAt starts partition ≤ (log partition).first
      | .ended _ starts ends => Kafka.Told log starts ends
    cases hp : w.poll with
    | idle => trivial
    | started limit starts =>
      rw [hp] at htold
      exact fun partition => (htold partition).trans (hg partition).first
    | ended limit starts ends =>
      rw [hp] at htold
      exact ⟨fun partition => (htold.start partition).trans (hg partition).first,
        fun partition => (htold.ending partition).trans (hg partition).next⟩
  · obtain ⟨lo, lost, hf, hrest⟩ := h.followed
    exact ⟨lo, lost, hf.grow hg, hrest⟩

/-- A poll goes on, or ends without a batch. -/
theorem World.Sound.withPoll (h : w.Sound) {poll : Poll} (hp : { w with poll := poll }.Told) :
    { w with poll := poll }.Sound :=
  ⟨hp, h.followed, h.since⟩

theorem returned_handOn (w : World) (batch : TailBatch) :
    (w.handOn batch).returned = w.returned ++ batch.messages.map place := by
  simp [World.returned, World.handOn]

theorem dropped_handOn (w : World) (batch : TailBatch) :
    (w.handOn batch).dropped = w.dropped + batch.dropped := by
  simp [World.dropped, World.handOn]

section

variable {limit : Int} {starts ends : ListedOffsets} {fetches : List Fetch} {batch : TailBatch}

theorem World.Sound.polls (h : w.Sound) (hp : w.poll = .ended limit starts ends)
    (hbatch : tailMessages w.topic w.cursor limit starts ends fetches = some (.ok batch))
    (hgap : gapFree w.log (tailPositions w.cursor starts ends).1 ends (fetched fetches) = true)
    (hlisted : Listed w.cursor ends) :
    Polls w.log (position w.cursor) (position batch.cursor) (batch.messages.map place)
      (agedOut w.cursor starts ends) := by
  obtain ⟨lo, lost, hf, -⟩ := h.followed
  have htold : Kafka.Told w.log starts ends := by
    have := h.told
    rwa [World.Told, hp] at this
  refine tailMessages_polls hbatch hgap htold hlisted fun partition place hplace => ?_
  obtain ⟨got, hfollows, -⟩ := hf.known partition place hplace
  exact hfollows.le

/-- **A poll returns.** -/
theorem World.Sound.handOn (h : w.Sound) (hp : w.poll = .ended limit starts ends)
    (hbatch : tailMessages w.topic w.cursor limit starts ends fetches = some (.ok batch))
    (hgap : gapFree w.log (tailPositions w.cursor starts ends).1 ends (fetched fetches) = true)
    (hlisted : Listed w.cursor ends) : (w.handOn batch).Sound := by
  obtain ⟨lo, lost, hf, hlen, hlo⟩ := h.followed
  have hpolls := h.polls hp hbatch hgap hlisted
  refine ⟨trivial, ⟨Lib.Tail.since (position w.cursor) (position batch.cursor) lo,
    lost ++ agedOut w.cursor starts ends, ?_, ?_, ?_⟩, ?_⟩
  · rw [returned_handOn]
    exact hf.poll hpolls
  · rw [List.length_append, Nat.cast_add, hlen, dropped_handOn, length_agedOut,
      (tailMessages_ok hbatch).1]
  · intro partition since hsince
    cases hpos : position w.cursor partition with
    | some place =>
      rw [since_of_known (by simp [hpos])]
      cases hold : w.since partition with
      | some first =>
        simp only [World.handOn, hold, Option.some.injEq] at hsince
        exact hsince ▸ hlo partition first hold
      | none =>
        obtain ⟨got, hfollows, -⟩ := hf.known partition place hpos
        simp only [World.handOn, hold] at hsince
        split at hsince
        · exact Option.some.inj hsince ▸ hfollows.covers.le.trans hfollows.le
        · cases hsince
    | none =>
      have hold := h.since partition hpos
      simp only [World.handOn, hold] at hsince
      cases hnew : position batch.cursor partition with
      | none => simp [hnew] at hsince
      | some place =>
        rw [since_of_new hpos hnew]
        simp only [hnew, Option.some.injEq] at hsince
        exact hsince ▸ hpolls.le_next hpos hnew
  · intro partition hnone
    have hpos : position w.cursor partition = none := by
      by_contra hne
      exact hpolls.known_of_known hne hnone
    simp only [World.handOn, h.since partition hpos]
    rw [show position batch.cursor partition = none from hnone]

end

/-- What a step does: the logs go on, a poll moves without returning, or it returns. -/
theorem step_cases {label : Label} (hs : w.step label = some v) :
    (∃ log, (∀ partition, (w.log partition).Grows (log partition)) ∧ v = { w with log := log }) ∨
    (∃ poll, (w.Told → { w with poll := poll }.Told) ∧ v = { w with poll := poll }) ∨
    ∃ fetches limit starts ends batch, label = .read fetches ∧ w.poll = .ended limit starts ends ∧
      tailMessages w.topic w.cursor limit starts ends fetches = some (.ok batch) ∧
      gapFree w.log (tailPositions w.cursor starts ends).1 ends (fetched fetches) = true ∧
      v = w.handOn batch := by
  cases label with
  | produce partition record =>
    simp only [World.step] at hs
    split at hs
    · rename_i hr
      exact .inl ⟨_, RetainedLog.grows_update (RetainedLog.grows_append _ record hr.1), (Option.some.inj hs).symm⟩
    · cases hs
  | move partition first next =>
    simp only [World.step] at hs
    split at hs
    · rename_i hm
      exact .inl ⟨_, RetainedLog.grows_update (RetainedLog.grows_moveTo _ first next hm),
        (Option.some.inj hs).symm⟩
    · cases hs
  | listStarts limit starts =>
    right; left
    cases hp : w.poll <;> cases starts <;> simp only [World.step, hp, reduceCtorEq] at hs
    · exact ⟨w.poll, id, (Option.some.inj hs).symm⟩
    · simp only [Option.ite_none_right_eq_some, Option.some.injEq] at hs
      obtain ⟨hans, rfl⟩ := hs
      exact ⟨.started limit _, fun _ partition =>
        offsetAt_le hans partition (w.log partition).nonneg, rfl⟩
  | listEnds ends =>
    right; left
    cases hp : w.poll <;> cases ends <;> simp only [World.step, hp, reduceCtorEq] at hs
    · exact ⟨.idle, fun _ => trivial, (Option.some.inj hs).symm⟩
    · simp only [Option.ite_none_right_eq_some, Option.some.injEq] at hs
      obtain ⟨hans, rfl⟩ := hs
      refine ⟨.ended _ _ _, fun htold => ⟨?_, fun partition => offsetAt_le hans partition ?_⟩, rfl⟩
      · rwa [World.Told, hp] at htold
      · exact (w.log partition).nonneg.trans (w.log partition).first_le
  | read fetches =>
    right; right
    cases hp : w.poll <;> simp only [World.step, hp, reduceCtorEq] at hs
    split at hs
    · rename_i batch hbatch
      simp only [Option.ite_none_right_eq_some, Option.some.injEq] at hs
      exact ⟨fetches, _, _, _, batch, rfl, rfl, hbatch, hs.1, hs.2.symm⟩
    · cases hs
  | fail fetches =>
    right; left
    cases hp : w.poll <;> simp only [World.step, hp, reduceCtorEq] at hs
    split at hs
    · exact ⟨.idle, fun _ => trivial, (Option.some.inj hs).symm⟩
    · cases hs

theorem sound_step {label : Label} (h : w.Sound) (hs : w.step label = some v)
    (hlisted : AllListed w label) : v.Sound := by
  obtain ⟨log, hg, rfl⟩ | ⟨poll, htold, rfl⟩ |
    ⟨fetches, limit, starts, ends, batch, rfl, hp, hbatch, hgap, rfl⟩ := step_cases hs
  · exact h.grow hg
  · exact h.withPoll (htold h.told)
  · exact h.handOn hp hbatch hgap (hlisted _ _ _ hp)

/-- **Nothing is lost**, in whatever order of the timestamps. -/
theorem sound_of_listed (h : Reachable (tailing.guard AllListed) w) : w.Sound := by
  refine h.inv (P := World.Sound) ?_ ?_
  · rintro _ ⟨topic, log, rfl⟩
    exact sound_new topic log
  · rintro u label v hu ⟨hstep, hlisted⟩
    exact sound_step hu hstep hlisted

/-- The order that a step keeps. -/
theorem ordered_step {label : Label} (h : w.Sound)
    (ho : ∀ partition, (ofLog partition w.returned).Pairwise (· < ·))
    (hs : w.step label = some v) (hsteady : Steady w label) (partition : Int32) :
    (ofLog partition v.returned).Pairwise (· < ·) := by
  obtain ⟨log, -, rfl⟩ | ⟨poll, -, rfl⟩ |
    ⟨fetches, limit, starts, ends, batch, rfl, hp, hbatch, hgap, rfl⟩ := step_cases hs
  · exact ho partition
  · exact ho partition
  · obtain ⟨lo, lost, hf, -⟩ := h.followed
    rw [returned_handOn]
    exact hf.poll_ordered (h.polls hp hbatch hgap (hsteady.1 _ _ _ hp)) (ho partition)
      (tailMessages_ordered hbatch hgap (hsteady.2 _ rfl) partition)

theorem World.Sound.complete (h : w.Sound)
    (ho : ∀ partition, (ofLog partition w.returned).Pairwise (· < ·)) : w.Complete := by
  obtain ⟨lo, lost, hf, hlen, hlo⟩ := h.followed
  refine ⟨⟨lost, hlen, fun partition since place hsince hplace record hr hge hlt => ?_⟩, ho⟩
  exact hf.accounted hplace hr ((hlo partition since hsince).trans hge) hlt

/-- **The tail loses nothing silently**, while every poll that returns was told the end of every
partition of its cursor, and reads no partition's timestamps going back. -/
theorem complete_of_steady (h : Reachable (tailing.guard Steady) w) : w.Complete := by
  have hinv : w.Sound ∧ ∀ partition, (ofLog partition w.returned).Pairwise (· < ·) := by
    refine h.inv (P := fun w => w.Sound ∧ ∀ partition,
      (ofLog partition w.returned).Pairwise (· < ·)) ?_ ?_
    · rintro _ ⟨topic, log, rfl⟩
      exact ⟨sound_new topic log, fun _ => .nil⟩
    · rintro u label v ⟨hu, ho⟩ ⟨hstep, hsteady⟩
      exact ⟨sound_step hu hstep hsteady.1, ordered_step hu ho hstep hsteady⟩
  exact hinv.1.complete hinv.2

/-! ### A poll that is not told an end -/

def sampleRecord : Record := ⟨0, 0, 0, none, "a", []⟩

/-- An answer for partition 0. -/
def listing (offset : Int) (err : Option String) : ListedOffsets :=
  (∅ : ListedOffsets).insert 0 ⟨offset, err⟩

def Label.isRead : Label → Bool
  | .read _ => true
  | _ => false

/-- What the next read would be told of partition 0. -/
def World.endTold (w : World) : Option Int :=
  match w.poll with
  | .ended _ _ ends => some (offsetAt ends 0)
  | _ => none

theorem reachable_of_quiet {labels : List Label} (hw : Reachable (tailing.guard Steady) w)
    (hl : ∀ label ∈ labels, label.isRead = false) (hs : runSteps World.step w labels = some v) :
    Reachable (tailing.guard Steady) v := by
  refine ((Path.of_runSteps (S := tailing) id hs).guard (G := Steady) (P := fun _ => True) trivial
    (fun _ _ _ _ _ _ => trivial) fun u label hm _ => ?_).1.reachable hw
  have hread := hl label hm
  refine ⟨?_, fun fetches he => ?_⟩
  · cases label <;> trivial
  · rw [he] at hread
    cases hread

/-- A record that comes between two polls is handed on. -/
theorem next_record_is_handed_on : ∃ w, Reachable (tailing.guard Steady) w ∧
    w.returned = [(0, 0)] ∧ w.Complete := by
  have hrun : (runSteps World.step (World.new "orders" fun _ => .empty)
      [.listStarts 0 (some (listing 0 none)), .listEnds (some (listing 0 none))]).bind (fun w =>
        (w.step (.read [])).bind fun v =>
          (runSteps World.step v [.produce 0 sampleRecord, .listStarts 0 (some (listing 0 none)),
            .listEnds (some (listing 1 none))]).bind fun u =>
              (u.step (.read [.records [sampleRecord]])).map fun t =>
                (w.cursor, u.cursor, u.endTold, t.returned)) =
      some (⟨[]⟩, ⟨[⟨"", 0, 0⟩]⟩, some 1, [(0, 0)]) := by decide +kernel
  obtain ⟨w, hw, hrun⟩ := Option.bind_eq_some_iff.mp hrun
  obtain ⟨v, hv, hrun⟩ := Option.bind_eq_some_iff.mp hrun
  obtain ⟨u, hu, hrun⟩ := Option.bind_eq_some_iff.mp hrun
  obtain ⟨t, ht, hout⟩ := Option.map_eq_some_iff.mp hrun
  simp only [Prod.mk.injEq] at hout
  obtain ⟨hwc, huc, hend, hret⟩ := hout
  have hreachw := reachable_of_quiet (.init ⟨_, _, rfl⟩) (by decide) hw
  have hreachv : Reachable (tailing.guard Steady) v := by
    refine hreachw.step ⟨hv, fun limit starts ends _ partition hp => ?_, fun fetches hf => ?_⟩
    · rw [hwc] at hp
      exact absurd rfl hp
    · cases hf
      exact fun _ => .nil
  have hreachu := reachable_of_quiet hreachv (by decide) hu
  have hreacht : Reachable (tailing.guard Steady) t := by
    refine hreachu.step ⟨ht, fun limit starts ends hpoll partition hp => ?_, fun fetches hf => ?_⟩
    · have hzero : 0 = partition := by
        by_contra hne
        rw [huc] at hp
        refine hp ?_
        show ((∅ : Positions).insert 0 0)[partition]? = none
        rw [getElem?_insert, if_neg hne]
        rfl
      subst hzero
      rw [World.endTold, hpoll] at hend
      simp [Option.some.inj hend]
    · cases hf
      intro partition
      exact List.Pairwise.filter _ (List.pairwise_singleton _ _)
  exact ⟨t, hreacht, hret, complete_of_steady hreacht⟩

/-- The end of a partition cannot be listed in one poll: the next starts at its end, and the record
that came in between is neither handed on nor counted. -/
def missedEnd : List Label :=
  [.listStarts 0 (some (listing 0 none)), .listEnds (some (listing 0 none)), .read [],
    .produce 0 sampleRecord,
    .listStarts 0 (some (listing 0 none)), .listEnds (some (listing 0 (some "timeout"))), .read [],
    .listStarts 0 (some (listing 0 none)), .listEnds (some (listing 1 none)), .read []]

/-- One listing error for a partition, and a record is lost. -/
theorem missed_end_loses_record : ¬ ∀ w, Reachable tailing w → w.Complete := by
  intro hall
  have hrun : (runSteps World.step (World.new "orders" fun _ => .empty) missedEnd).map (fun w =>
      ((w.log 0).entries, decide (w.since 0 = some 0 ∧ position w.cursor 0 = some 1 ∧
        w.returned = [] ∧ w.dropped = 0))) = some ([sampleRecord], true) := by decide +kernel
  obtain ⟨w, hw, hout⟩ := Option.map_eq_some_iff.mp hrun
  simp only [Prod.mk.injEq, decide_eq_true_eq] at hout
  obtain ⟨hlog, hsince, hplace, hreturned, hdropped⟩ := hout
  have hcomplete := hall w
    ((Path.of_runSteps (S := tailing) id hw).reachable (.init ⟨_, _, rfl⟩))
  obtain ⟨lost, hlen, haccounted⟩ := hcomplete.accounted
  rw [hdropped, Nat.cast_eq_zero, List.length_eq_zero_iff] at hlen
  have := haccounted 0 0 1 hsince hplace sampleRecord (by rw [hlog]; simp) (by decide) (by decide)
  rw [hreturned, hlen] at this
  simp at this

end MqStudio.Kafka
