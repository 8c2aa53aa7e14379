import MqStudio.Kafka.RecordTail
import MqStudio.Lib.Parts
import MqStudio.Lib.Strconv

/-!
# Reading a Kafka record by its id

`kafka/record_read.go`: the id of a record, and the lookup that lists the partition's
range and reads one record forward from the offset.

* `Logs`: what the partitions hold, data beside control and aborted records, with gaps.
* `Delivered`: what the client may have handed over of them.
* `messageByID_names_iff`: the lookup never answers with another record exactly if the
  offset holds a record, or nothing from it on does, or it is out of the range.
-/

namespace MqStudio.Kafka

open Std (ExtTreeMap)
open Lib.Maps Lib.Parts Lib.Strconv
open Model

/-! ### Ids -/

def parseMessageID (id : String) : Option (Int32 × Int) :=
  match cutLast '-' id.toList with
  | none => none
  | some (rest, offset) =>
    if rest = [] then none
    else match cutLast '-' rest with
      | none => none
      | some (topic, partition) =>
        if topic = [] then none
        else match parseInt 32 partition, parseInt 64 offset with
          | some partition, some offset => some (Int32.ofInt partition, offset)
          | _, _ => none

/-- **An id reads back**, whatever hyphens the topic has. -/
theorem parseMessageID_messageID {topic : String} (ht : topic ≠ "") {partition : Int32}
    (hp : 0 ≤ partition.toInt) {offset : Int} (ho : 0 ≤ offset) (hfits : Fits 64 offset) :
    parseMessageID (messageID topic partition offset) = some (partition, offset) := by
  have hlist : (messageID topic partition offset).toList =
      (topic.toList ++ '-' :: (toString partition.toInt).toList) ++
        '-' :: (toString offset).toList := by
    simp [messageID, String.toList_append]
  have hpart : parseInt 32 (toString partition.toInt).toList = some partition.toInt :=
    parseInt_toString hp ⟨Int32.le_toInt partition, Int32.toInt_lt partition⟩
  have htopic : topic.toList ≠ [] := by simpa using ht
  unfold parseMessageID
  rw [hlist, cutLast_append (notMem_toString (by decide) ho)]
  simp only [List.append_eq_nil_iff, htopic, false_and, if_false]
  rw [cutLast_append (notMem_toString (by decide) hp)]
  simp only [htopic, if_false, hpart, parseInt_toString ho hfits, Int32.ofInt_toInt]

/-! ### What the partitions hold -/

/-- What an offset of a log holds; only committed data is handed to a reader. -/
inductive Kind where
  | data
  | control
  | aborted
deriving DecidableEq

structure Entry where
  record : Record
  kind : Kind

/-- The log of a partition: offsets increase, with any gaps. -/
structure MixedLog (partition : Int32) where
  entries : List Entry
  sorted : entries.Pairwise fun a b => a.record.offset < b.record.offset
  own : ∀ e ∈ entries, e.record.partition = partition

/-- The logs of a topic. -/
abbrev Logs := (partition : Int32) → MixedLog partition

/-- The records a reader gets from an offset on. -/
def MixedLog.deliverable {partition : Int32} (log : MixedLog partition) (start : Int) :
    List Record :=
  (log.entries.filter fun e => e.kind = .data && decide (start ≤ e.record.offset)).map (·.record)

/-- The records of one partition among those of several. -/
abbrev ofPartition (partition : Int32) (records : List Record) : List Record :=
  part Record.partition partition records

/-- What a client that reads from these places may have handed over: of each partition the next
records in order, and of no other partition any. -/
def Delivered (logs : Logs) (positions : Positions) (records : List Record) : Prop :=
  ∀ partition, match positions[partition]? with
    | some start => ofPartition partition records <+: (logs partition).deliverable start
    | none => ofPartition partition records = []

theorem mem_deliverable {partition : Int32} {log : MixedLog partition} {start : Int}
    {record : Record} (h : record ∈ log.deliverable start) :
    record.partition = partition ∧ start ≤ record.offset := by
  obtain ⟨e, he, rfl⟩ := List.mem_map.mp h
  obtain ⟨hmem, hkind⟩ := List.mem_filter.mp he
  simp only [Bool.and_eq_true, decide_eq_true_eq] at hkind
  exact ⟨log.own e hmem, hkind.2⟩

theorem sorted_deliverable {partition : Int32} (log : MixedLog partition) (start : Int) :
    (log.deliverable start).Pairwise fun a b => a.offset < b.offset :=
  (log.sorted.filter _).map _ fun _ _ h => h

/-! ### The lookup -/

inductive ByIDError where
  | invalidID (id : String)
  | listing (err : String)
  | noPartition (topic : String) (partition : Int32)
  | outside (offset : Int) (partition : Int32) (first last : Int)
  | reading (err : String)
  | noRecord (id : String)

/-- A lookup, given the two listings and what its read was answered. -/
def messageByID (topic id : String) (starts ends : Except String ListedOffsets)
    (fetches : List Fetch) : Option (Except ByIDError MessageItem) :=
  match parseMessageID id with
  | none => some (.error (.invalidID id))
  | some (partition, offset) =>
    match starts, ends with
    | .error err, _ => some (.error (.listing err))
    | .ok _, .error err => some (.error (.listing err))
    | .ok starts, .ok ends =>
      let start := offsetAt starts partition
      let ending := offsetAt ends partition
      if ending < 0 then some (.error (.noPartition topic partition))
      else if offset < start ∨ ending ≤ offset then
        some (.error (.outside offset partition start (ending - 1)))
      else
        (readRecords topic ((∅ : Positions).insert partition offset) ends 1 none fetches).map
          fun
          | .error err => .error (.reading err)
          | .ok [] => .error (.noRecord id)
          | .ok (message :: _) => .ok message

/-- The offset is in the range that was listed. -/
def InRange (starts ends : Except String ListedOffsets) (partition : Int32) (offset : Int) : Prop :=
  ∃ s e, starts = .ok s ∧ ends = .ok e ∧ 0 ≤ offsetAt e partition ∧ offsetAt s partition ≤ offset ∧
    offset < offsetAt e partition

section

variable {topic : String} {partition : Int32} {offset : Int}

variable (topic) in
theorem messageByID_out {id : String} (hid : parseMessageID id = some (partition, offset))
    {starts ends : Except String ListedOffsets} (h : ¬ InRange starts ends partition offset)
    (fetches : List Fetch) : ∃ err, messageByID topic id starts ends fetches = some (.error err) := by
  unfold messageByID
  rw [hid]
  dsimp only
  split
  · exact ⟨_, rfl⟩
  · exact ⟨_, rfl⟩
  · rename_i s e
    split
    · exact ⟨_, rfl⟩
    split
    · exact ⟨_, rfl⟩
    · rename_i hend hout
      push Not at hend hout
      exact absurd ⟨s, e, rfl, rfl, hend, hout⟩ h

variable (topic) in
theorem messageByID_in {id : String} (hid : parseMessageID id = some (partition, offset))
    {starts ends : ListedOffsets} (h : InRange (.ok starts) (.ok ends) partition offset)
    (fetches : List Fetch) :
    messageByID topic id (.ok starts) (.ok ends) fetches =
      (readRecords topic ((∅ : Positions).insert partition offset) ends 1 none fetches).map
        fun
        | .error err => .error (.reading err)
        | .ok [] => .error (.noRecord id)
        | .ok (message :: _) => .ok message := by
  obtain ⟨s, e, hs, he, hend, hstart, hlt⟩ := h
  obtain rfl := Except.ok.inj hs
  obtain rfl := Except.ok.inj he
  unfold messageByID
  rw [hid]
  dsimp only
  rw [if_neg (by omega), if_neg (by omega)]

/-- What is handed over for one partition is the beginning of its log from the offset. -/
theorem delivered_single {logs : Logs} {records : List Record}
    (h : Delivered logs ((∅ : Positions).insert partition offset) records) :
    records <+: (logs partition).deliverable offset := by
  have hown := h partition
  rw [getElem?_insert, if_pos rfl] at hown
  have hall : ofPartition partition records = records := by
    refine List.filter_eq_self.mpr fun record hmem => ?_
    by_contra hne
    have hother := h record.partition
    have hne' : partition ≠ record.partition := by
      intro he
      exact hne (by simp [he])
    rw [getElem?_insert, if_neg hne', ExtTreeMap.getElem?_empty] at hother
    have hin : record ∈ ofPartition record.partition records :=
      List.mem_filter.mpr ⟨hmem, by simp⟩
    rw [hother] at hin
    cases hin
  rwa [hall] at hown

/-- A read of one record answers with the first that was handed over. -/
theorem readRecords_single {ends : ListedOffsets} {fetches : List Fetch} {logs : Logs}
    (h : Delivered logs ((∅ : Positions).insert partition offset) (fetched fetches))
    {message : MessageItem} {rest : List MessageItem}
    (hread : readRecords topic ((∅ : Positions).insert partition offset) ends 1 none fetches =
      some (.ok (message :: rest))) :
    ∃ record, ((logs partition).deliverable offset).head? = some record ∧
      message = messageFrom topic record := by
  obtain ⟨taken, hpre, hmsg⟩ := readRecords_taken hread
  have hlog := hpre.trans (delivered_single h)
  cases taken with
  | nil => cases hmsg
  | cons record taken =>
    obtain ⟨more, hmore⟩ := hlog
    refine ⟨record, by rw [← hmore]; rfl, ?_⟩
    exact (List.cons.inj hmsg).1

/-- The first record from an offset on is the one at the offset, where there is one. -/
theorem head_deliverable {log : MixedLog partition} {record first : Record}
    (hr : record ∈ log.deliverable offset) (ho : record.offset = offset)
    (hf : (log.deliverable offset).head? = some first) : first = record := by
  cases hl : log.deliverable offset with
  | nil =>
    rw [hl] at hf
    cases hf
  | cons a rest =>
    rw [hl] at hf hr
    obtain rfl := Option.some.inj hf
    rcases List.mem_cons.mp hr with rfl | hrest
    · rfl
    · have hsorted := sorted_deliverable log offset
      rw [hl] at hsorted
      have hlt := (List.pairwise_cons.mp hsorted).1 record hrest
      have hge : a ∈ log.deliverable offset := by
        rw [hl]
        exact List.mem_cons_self
      have := (mem_deliverable hge).2
      omega

/-- The answer is the record at the asked place. -/
def Names (topic : String) (logs : Logs) (partition : Int32) (offset : Int)
    (message : MessageItem) : Prop :=
  ∃ record ∈ (logs partition).deliverable offset, record.offset = offset ∧
    message = messageFrom topic record

/-- A poll that hands over the next record of the partition. -/
theorem delivered_head {logs : Logs} {first : Record}
    (hf : ((logs partition).deliverable offset).head? = some first) :
    Delivered logs ((∅ : Positions).insert partition offset) (fetched [.records [first]]) := by
  intro other
  rw [getElem?_insert]
  have hmem : first ∈ (logs partition).deliverable offset := List.mem_of_head? hf
  have hpart := (mem_deliverable hmem).1
  by_cases hp : partition = other
  · subst hp
    rw [if_pos rfl]
    cases hl : (logs partition).deliverable offset with
    | nil =>
      rw [hl] at hf
      cases hf
    | cons a rest =>
      rw [hl] at hf
      obtain rfl := Option.some.inj hf
      have hown : ofPartition partition (fetched [.records [a]]) = [a] := by
        simp [part, fetched, hpart]
      rw [hown]
      change [a] <+: (logs partition).deliverable offset
      rw [hl]
      exact ⟨rest, rfl⟩
  · rw [if_neg hp, ExtTreeMap.getElem?_empty]
    simp [part, fetched, hpart, hp]

theorem getElem?_readable (positions : Positions) (ends : ListedOffsets) (partition : Int32) :
    (readable positions ends)[partition]? = positions[partition]?.bind fun start =>
      if offsetAt ends partition < 0 ∨ offsetAt ends partition ≤ start then none
      else some (offsetAt ends partition) := by
  rw [readable, ExtTreeMap.getElem?_filterMap']

/-- The read of one record that a poll hands over. -/
theorem readRecords_head {ends : ListedOffsets} (hend : 0 ≤ offsetAt ends partition)
    (hlt : offset < offsetAt ends partition) (first : Record) :
    readRecords topic ((∅ : Positions).insert partition offset) ends 1 none [.records [first]] =
      some (.ok [messageFrom topic first]) := by
  have hget : (readable ((∅ : Positions).insert partition offset) ends)[partition]? =
      some (offsetAt ends partition) := by
    rw [getElem?_readable, getElem?_insert, if_pos rfl, Option.bind_some, if_neg (by omega)]
  have hne : readable ((∅ : Positions).insert partition offset) ends ≠ ∅ :=
    ne_empty_iff.mpr ⟨partition, _, hget⟩
  have hsize : 0 < (readable ((∅ : Positions).insert partition offset) ends).size := by
    rw [Nat.pos_iff_ne_zero, ne_eq, ← ExtTreeMap.eq_empty_iff_size_eq_zero]
    exact hne
  have hempty : (readable ((∅ : Positions).insert partition offset) ends).isEmpty = false :=
    ExtTreeMap.isEmpty_eq_false_iff.mpr hne
  unfold readRecords
  dsimp only
  rw [hempty]
  simp [Scan.loop, Scan.wantsMore, Scan.record, hsize]

/-- **The lookup never answers with another record** exactly where the offset is out of the listed
range, holds a record, or nothing from it on does: it reads forward to the next one there is. -/
theorem messageByID_names_iff (ht : topic ≠ "") (hp : 0 ≤ partition.toInt) (ho : 0 ≤ offset)
    (hfits : Fits 64 offset) (logs : Logs) (starts ends : Except String ListedOffsets) :
    (parseMessageID (messageID topic partition offset) = some (partition, offset) ∧
      ∀ fetches, Delivered logs ((∅ : Positions).insert partition offset) (fetched fetches) →
        ∀ message, messageByID topic (messageID topic partition offset) starts ends fetches =
          some (.ok message) → Names topic logs partition offset message) ↔
      ¬ InRange starts ends partition offset ∨
      (∃ record ∈ (logs partition).deliverable offset, record.offset = offset) ∨
      (logs partition).deliverable offset = [] := by
  have hid := parseMessageID_messageID ht hp ho hfits
  constructor
  · rintro ⟨-, hall⟩
    by_contra hcond
    push Not at hcond
    obtain ⟨hrange, hnone, hsome⟩ := hcond
    obtain ⟨s, e, rfl, rfl, hend, hstart, hlt⟩ := hrange
    obtain ⟨first, rest, hl⟩ := List.exists_cons_of_ne_nil hsome
    have hf : ((logs partition).deliverable offset).head? = some first := by rw [hl]; rfl
    have hread := messageByID_in topic hid ⟨s, e, rfl, rfl, hend, hstart, hlt⟩
      [.records [first]]
    rw [readRecords_head hend hlt] at hread
    obtain ⟨record, hmem, hoff, -⟩ := hall _ (delivered_head hf) _ hread
    exact hnone record hmem hoff
  · intro hcond
    refine ⟨hid, fun fetches hdel message hread => ?_⟩
    by_cases hrange : InRange starts ends partition offset
    · obtain ⟨s, e, rfl, rfl, hend, hstart, hlt⟩ := id hrange
      rw [messageByID_in topic hid hrange] at hread
      obtain ⟨result, hresult, hmap⟩ := Option.map_eq_some_iff.mp hread
      split at hmap
      · cases hmap
      · cases hmap
      · obtain rfl := Except.ok.inj hmap
        obtain ⟨first, hf, rfl⟩ := readRecords_single hdel hresult
        rcases hcond with hout | ⟨record, hmem, hoff⟩ | hnil
        · exact absurd hrange hout
        · obtain rfl := head_deliverable hmem hoff hf
          exact ⟨first, hmem, hoff, rfl⟩
        · rw [hnil] at hf
          cases hf
    · obtain ⟨err, herr⟩ := messageByID_out topic hid hrange fetches
      rw [herr] at hread
      cases hread

end

/-! ### A compacted offset -/

def plainRecord (offset : Int) : Record := ⟨0, offset, 0, none, "", []⟩

/-- The log of partition 0, with data at the offsets of a list. -/
def dataLogs (offsets : List Int) (h : offsets.Pairwise (· < ·)) : Logs := fun partition =>
  if hp : partition = 0 then
    { entries := offsets.map fun offset => ⟨plainRecord offset, .data⟩
      sorted := h.map _ fun _ _ hlt => hlt
      own := by
        intro e he
        obtain ⟨offset, -, rfl⟩ := List.mem_map.mp he
        exact hp.symm }
  else ⟨[], .nil, nofun⟩

/-- A listing of partition 0. -/
def listedAt (offset : Int) : Except String ListedOffsets :=
  .ok ((∅ : ListedOffsets).insert 0 ⟨offset, none⟩)

/-- Offset 5 was compacted away, and asking for it answers with the record at 6. -/
theorem compacted_answers_next :
    ∃ fetches message,
      Delivered (dataLogs [4, 6] (by decide)) ((∅ : Positions).insert 0 5) (fetched fetches) ∧
      messageByID "orders-eu" (messageID "orders-eu" 0 5) (listedAt 0) (listedAt 7) fetches =
        some (.ok message) ∧
      message.queueOffset = 6 ∧ ¬ Names "orders-eu" (dataLogs [4, 6] (by decide)) 0 5 message := by
  have hhead : ((dataLogs [4, 6] (by decide) 0).deliverable 5).head? = some (plainRecord 6) := rfl
  have hid : parseMessageID (messageID "orders-eu" 0 5) = some (0, 5) :=
    parseMessageID_messageID (by decide) (by decide) (by decide) (by decide)
  have hin : InRange (listedAt 0) (listedAt 7) 0 5 :=
    ⟨_, _, rfl, rfl, by decide, by decide, by decide⟩
  refine ⟨[.records [plainRecord 6]], messageFrom "orders-eu" (plainRecord 6),
    delivered_head hhead, ?_, rfl, ?_⟩
  · refine (messageByID_in _ hid hin _).trans ?_
    rw [readRecords_head (by decide) (by decide)]
    rfl
  · rintro ⟨record, -, hoff, heq⟩
    have hne : (6 : Int) = record.offset := congrArg MessageItem.queueOffset heq
    omega

/-- Where every offset holds a record, the record at 5 answers to its id. -/
theorem dense_names_record :
    ∃ fetches message,
      Delivered (dataLogs [4, 5, 6] (by decide)) ((∅ : Positions).insert 0 5) (fetched fetches) ∧
      messageByID "orders-eu" (messageID "orders-eu" 0 5) (listedAt 0) (listedAt 7) fetches =
        some (.ok message) ∧
      Names "orders-eu" (dataLogs [4, 5, 6] (by decide)) 0 5 message := by
  have hiff := @messageByID_names_iff "orders-eu" 0 5
    (by decide) (by decide) (by decide) (by decide) (dataLogs [4, 5, 6] (by decide)) (listedAt 0)
    (listedAt 7)
  have hheld : plainRecord 5 ∈ (dataLogs [4, 5, 6] (by decide) 0).deliverable 5 :=
    List.mem_cons_self
  obtain ⟨hid, hnames⟩ := hiff.mpr (Or.inr (Or.inl ⟨plainRecord 5, hheld, rfl⟩))
  have hhead : ((dataLogs [4, 5, 6] (by decide) 0).deliverable 5).head? = some (plainRecord 5) := rfl
  have hin : InRange (listedAt 0) (listedAt 7) 0 5 :=
    ⟨_, _, rfl, rfl, by decide, by decide, by decide⟩
  have hread : messageByID "orders-eu" (messageID "orders-eu" 0 5) (listedAt 0) (listedAt 7)
      [.records [plainRecord 5]] = some (.ok (messageFrom "orders-eu" (plainRecord 5))) := by
    refine (messageByID_in _ hid hin _).trans ?_
    rw [readRecords_head (by decide) (by decide)]
    rfl
  exact ⟨_, _, delivered_head hhead, hread, hnames _ (delivered_head hhead) _ hread⟩

end MqStudio.Kafka
