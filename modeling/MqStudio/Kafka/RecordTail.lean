import MqStudio.Lib.RetainedLog
import MqStudio.Lib.Transition
import MqStudio.Model.Tail

/-!
# The Kafka tail

`kafka/record_tail.go` and the reader it uses: one poll lists the start and the
end of every partition, works out where each is read from, and reads forward
from there.

* `tailPositions`, `readRecords`, `tailMessages`: the poll, given what the broker
  answered.
* `readRecords_taken`: a read hands on the first of the records that were fetched.
-/

namespace MqStudio.Kafka

open Std (ExtTreeMap)
open Lib.Maps Lib.Tail
open Model

/-! ### Records -/

structure Record where
  partition : Int32
  offset : Int
  timestamp : Int
  key : Option String
  value : String
  headers : List (String × String)
deriving DecidableEq

/-- Marks a record written with no key at all. -/
def nullKey : String := "\x00__mqs_null_key"

def keyOf (record : Record) : String := record.key.getD nullKey

def messageID (topic : String) (partition : Int32) (offset : Int) : String :=
  topic ++ "-" ++ toString partition.toInt ++ "-" ++ toString offset

def messageFrom (topic : String) (record : Record) : MessageItem where
  id := 0
  topic := topic
  messageID := messageID topic record.partition record.offset
  tags := ""
  keys := keyOf record
  queueID := record.partition.toInt
  queueOffset := record.offset
  storeTimestamp := record.timestamp
  status := .normal
  body := record.value
  properties := record.headers.foldl (fun properties header => properties.insert header.1 header.2) ∅

/-! ### Offsets -/

/-- What the broker answered for a partition: an offset, or an error. -/
structure ListedOffset where
  offset : Int
  err : Option String

/-- The answers for the partitions of the one topic. -/
abbrev ListedOffsets := ExtTreeMap Int32 ListedOffset compare

abbrev Positions := ExtTreeMap Int32 Int compare

def offsetAt (offsets : ListedOffsets) (partition : Int32) : Int :=
  match offsets[partition]? with
  | none => -1
  | some listed => if listed.err.isSome then -1 else listed.offset

/-- The places of a cursor, by partition. -/
def TailCursor.known (cursor : TailCursor) : Positions :=
  cursor.positions.foldl (fun known position =>
    known.insert (Int32.ofInt position.queueID) position.offset) ∅

/-- Where one partition's next poll starts, and what aged out beneath it. -/
def tailPosition (known : Option Int) (start ending : Int) : Option (Int × Int) :=
  if ending < 0 then none
  else match known with
    | none => some (ending, 0)
    | some place =>
      if 0 ≤ start ∧ place < start then some (start, start - place) else some (place, 0)

def tailPositions (cursor : TailCursor) (starts ends : ListedOffsets) : Positions × Int :=
  let known := TailCursor.known cursor
  let position (partition : Int32) :=
    tailPosition known[partition]? (offsetAt starts partition) (offsetAt ends partition)
  (ends.filterMap fun partition _ => (position partition).map (·.1),
    (ends.keys.map fun partition => ((position partition).map (·.2)).getD 0).sum)

/-- The positions in the order of their partitions. -/
def cursorFrom (positions : Positions) : TailCursor :=
  ⟨positions.toList.map fun position => ⟨"", position.1.toInt, position.2⟩⟩

/-! ### Reading -/

/-- What one `PollRecords` comes back with. -/
inductive Fetch where
  | records (records : List Record)
  | failed (err : String)
  /-- The caller's deadline is over. -/
  | expired

/-- Caps how many records a key search reads before giving up. -/
def scanLimit : Nat := 200000

/-- What a read has so far: the messages, how many records it looked at, and the partitions it has
come to the end of. -/
structure Scan where
  messages : List MessageItem
  scanned : Nat
  done : ExtTreeMap Int32 Bool compare

section

variable (topic : String) (limit : Int) (remaining : Positions) (matching : Option (Record → Bool))

def Scan.record (s : Scan) (record : Record) : Scan :=
  let s := { s with
    scanned := s.scanned + 1
    done := if (remaining[record.partition]?).getD 0 ≤ record.offset + 1 then
      s.done.insert record.partition true else s.done }
  if limit ≤ s.messages.length then s
  else if (matching.map fun accepts => !accepts record).getD false then s
  else { s with messages := s.messages ++ [messageFrom topic record] }

/-- The read goes on: there is room for more, and a partition it has not come to the end of. -/
def Scan.wantsMore (s : Scan) : Bool :=
  decide ((s.messages.length : Int) < limit) && decide (s.done.size < remaining.size)

/-- The loop over the fetches; nothing where it has not ended with the last of them. -/
def Scan.loop : List Fetch → Scan → Option (Except String (List MessageItem))
  | [], s => if s.wantsMore limit remaining then none else some (.ok s.messages)
  | fetch :: fetches, s =>
    if !s.wantsMore limit remaining then some (.ok s.messages)
    else match fetch with
      | .expired => some (.ok s.messages)
      | .failed err => some (.error err)
      | .records records =>
        if records.isEmpty then some (.ok s.messages)
        else
          let s := records.foldl (Scan.record topic limit remaining matching) s
          if matching.isSome ∧ scanLimit ≤ s.scanned then some (.ok s.messages)
          else loop fetches s

end

/-- The partitions that hold something to read, with their ends. -/
def readable (positions : Positions) (ends : ListedOffsets) : Positions :=
  positions.filterMap fun partition offset =>
    let ending := offsetAt ends partition
    if ending < 0 ∨ ending ≤ offset then none else some ending

def readRecords (topic : String) (positions : Positions) (ends : ListedOffsets) (limit : Int)
    (matching : Option (Record → Bool)) (fetches : List Fetch) :
    Option (Except String (List MessageItem)) :=
  let remaining := readable positions ends
  if remaining.isEmpty then some (.ok [])
  else Scan.loop topic limit remaining matching fetches ⟨[], 0, ∅⟩

/-! ### The poll -/

/-- The order of a batch. -/
def before (a b : MessageItem) : Bool :=
  if a.storeTimestamp ≠ b.storeTimestamp then a.storeTimestamp < b.storeTimestamp
  else a.queueOffset < b.queueOffset

/-- Moves the places past what was read. -/
def advance (positions : Positions) (messages : List MessageItem) : Positions :=
  messages.foldl (fun next message =>
    let partition := Int32.ofInt message.queueID
    if (next[partition]?).getD 0 < message.queueOffset + 1 then
      next.insert partition (message.queueOffset + 1) else next) positions

def number (messages : List MessageItem) : List MessageItem :=
  messages.mapIdx fun index message => { message with id := index + 1 }

/-- A poll, given the two listings and what its read was answered. -/
def tailMessages (topic : String) (cursor : TailCursor) (limit : Int) (starts ends : ListedOffsets)
    (fetches : List Fetch) : Option (Except String TailBatch) :=
  let limit := if limit ≤ 0 then 100 else limit
  let (positions, dropped) := tailPositions cursor starts ends
  if positions.isEmpty then some (.ok ⟨[], cursorFrom positions, dropped⟩)
  else (readRecords topic positions ends limit none fetches).map fun result =>
    result.map fun messages =>
      let messages := messages.insertionSort fun a b => (!before b a) = true
      ⟨number messages, cursorFrom (advance positions messages), dropped⟩

/-! ### What a read hands on -/

/-- The records that came, in order. -/
def fetched (fetches : List Fetch) : List Record :=
  fetches.flatMap fun
    | .records records => records
    | _ => []

section

variable {topic : String} {limit : Int} {remaining : Positions} {seen : List Record} {s : Scan}

/-- The messages of a read are the first of the records it saw, all of them below the limit. -/
def Scan.Took (topic : String) (limit : Int) (s : Scan) (seen : List Record) : Prop :=
  ∃ taken, taken <+: seen ∧ s.messages = taken.map (messageFrom topic) ∧
    (taken = seen ∨ limit ≤ s.messages.length)

theorem Scan.record_messages (s : Scan) (record : Record) :
    (s.record topic limit remaining none record).messages =
      if limit ≤ s.messages.length then s.messages
      else s.messages ++ [messageFrom topic record] := by
  rw [Scan.record]
  simp only [Option.map_none, Option.getD_none, Bool.false_eq_true, if_false]
  split <;> rfl

variable (remaining) in
theorem Scan.Took.record (h : s.Took topic limit seen) (record : Record) :
    (s.record topic limit remaining none record).Took topic limit (seen ++ [record]) := by
  obtain ⟨taken, hpre, hmsg, hall⟩ := h
  by_cases hlim : limit ≤ s.messages.length
  · have hsame : (s.record topic limit remaining none record).messages = s.messages := by
      rw [record_messages, if_pos hlim]
    exact ⟨taken, hpre.trans (List.prefix_append _ _), hsame ▸ hmsg, Or.inr (hsame ▸ hlim)⟩
  · obtain rfl := hall.resolve_right hlim
    refine ⟨taken ++ [record], List.prefix_rfl, ?_, Or.inl rfl⟩
    rw [record_messages, if_neg hlim, hmsg, List.map_append]
    rfl

theorem Scan.Took.records (records : List Record) (h : s.Took topic limit seen) :
    (records.foldl (Scan.record topic limit remaining none) s).Took topic limit
      (seen ++ records) := by
  induction records generalizing s seen with
  | nil => simpa using h
  | cons record records ih =>
    have := ih (h.record remaining record)
    rwa [List.append_assoc] at this

theorem Scan.Took.result (h : s.Took topic limit seen) (more : List Record) :
    ∃ taken, taken <+: seen ++ more ∧ s.messages = taken.map (messageFrom topic) := by
  obtain ⟨taken, hpre, hmsg, -⟩ := h
  exact ⟨taken, hpre.trans (List.prefix_append _ _), hmsg⟩

theorem Scan.Took.loop {fetches : List Fetch} {messages : List MessageItem}
    (h : s.Took topic limit seen)
    (hl : Scan.loop topic limit remaining none fetches s = some (.ok messages)) :
    ∃ taken, taken <+: seen ++ fetched fetches ∧ messages = taken.map (messageFrom topic) := by
  induction fetches generalizing s seen with
  | nil =>
    rw [Scan.loop] at hl
    split at hl
    · cases hl
    · obtain rfl := Except.ok.inj (Option.some.inj hl)
      exact h.result _
  | cons fetch fetches ih =>
    unfold Scan.loop at hl
    split at hl
    · obtain rfl := Except.ok.inj (Option.some.inj hl)
      exact h.result _
    · cases fetch with
      | expired =>
        obtain rfl := Except.ok.inj (Option.some.inj hl)
        exact h.result _
      | failed err => exact absurd (Option.some.inj hl) nofun
      | records records =>
        simp only [Option.isSome_none, Bool.false_eq_true, false_and, if_false] at hl
        split at hl
        · obtain rfl := Except.ok.inj (Option.some.inj hl)
          exact h.result _
        · obtain ⟨taken, hpre, hmsg⟩ := ih (h.records records) hl
          exact ⟨taken, by simpa [fetched] using hpre, hmsg⟩

/-- **A read hands on the first of the records that were fetched.** -/
theorem readRecords_taken {positions : Positions} {ends : ListedOffsets} {fetches : List Fetch}
    {messages : List MessageItem}
    (h : readRecords topic positions ends limit none fetches = some (.ok messages)) :
    ∃ taken, taken <+: fetched fetches ∧ messages = taken.map (messageFrom topic) := by
  simp only [readRecords] at h
  split at h
  · obtain rfl := Except.ok.inj (Option.some.inj h)
    exact ⟨[], List.nil_prefix, rfl⟩
  · have hstart : Scan.Took topic limit ⟨[], 0, ∅⟩ [] := ⟨[], List.prefix_rfl, rfl, Or.inl rfl⟩
    simpa using hstart.loop h

end

/-! ### Where a poll goes on -/

theorem known_cursorFrom (positions : Positions) :
    TailCursor.known (cursorFrom positions) = positions := by
  rw [TailCursor.known, cursorFrom, List.foldl_map]
  simp only [Int32.ofInt_toInt]
  exact foldl_insert_toList positions

/-- The place of a message. -/
def place (message : MessageItem) : Int32 × Int :=
  (Int32.ofInt message.queueID, message.queueOffset)

theorem place_messageFrom (topic : String) (record : Record) :
    place (messageFrom topic record) = (record.partition, record.offset) := by
  simp [place, messageFrom]

theorem advance_cons (positions : Positions) (message : MessageItem) (messages : List MessageItem) :
    advance positions (message :: messages) =
      advance (if (positions[(place message).1]?).getD 0 < message.queueOffset + 1 then
        positions.insert (place message).1 (message.queueOffset + 1) else positions) messages :=
  rfl

theorem getElem?_advance (messages : List MessageItem) {positions : Positions} {partition : Int32}
    {offset : Int} (h : positions[partition]? = some offset) :
    (advance positions messages)[partition]? =
      some (furthest offset (ofLog partition (messages.map place))) := by
  induction messages generalizing positions offset with
  | nil => exact h
  | cons message messages ih =>
    rw [advance_cons, List.map_cons, ofLog_cons]
    by_cases hp : (place message).1 = partition
    · rw [if_pos hp]
      refine ih ?_
      change _ = some (max offset (message.queueOffset + 1))
      rw [hp, h, Option.getD_some]
      split
      · rw [getElem?_insert, if_pos rfl, max_eq_right (by omega)]
      · rw [h, max_eq_left (by omega)]
    · rw [if_neg hp]
      refine ih ?_
      split
      · rw [getElem?_insert, if_neg hp, h]
      · exact h

theorem getElem?_advance_none (messages : List MessageItem) {positions : Positions}
    {partition : Int32} (h : positions[partition]? = none)
    (hm : ofLog partition (messages.map place) = []) :
    (advance positions messages)[partition]? = none := by
  induction messages generalizing positions with
  | nil => exact h
  | cons message messages ih =>
    rw [List.map_cons, ofLog_cons] at hm
    have hp : (place message).1 ≠ partition := by
      intro hp
      rw [if_pos hp] at hm
      cases hm
    rw [if_neg hp] at hm
    rw [advance_cons]
    refine ih ?_ hm
    split
    · rw [getElem?_insert, if_neg hp, h]
    · exact h

/-! ### What a poll passes over -/

section

variable {cursor : TailCursor} {starts ends : ListedOffsets} {partition : Int32}

/-- Where a partition that the cursor holds is read from. -/
def resumed (place start : Int) : Int := if 0 ≤ start ∧ place < start then start else place

theorem le_resumed (place start : Int) : place ≤ resumed place start := by
  rw [resumed]
  split <;> omega

theorem tailPosition_known {place start ending : Int} (h : 0 ≤ ending) :
    tailPosition (some place) start ending =
      some (resumed place start, resumed place start - place) := by
  rw [tailPosition, if_neg (by omega), resumed]
  split <;> simp

/-- An answer is for a partition that was listed. -/
theorem mem_of_offsetAt (h : 0 ≤ offsetAt ends partition) : partition ∈ ends := by
  rw [offsetAt] at h
  cases hp : ends[partition]? with
  | none =>
    rw [hp] at h
    exact absurd h (by decide)
  | some listed => exact ExtTreeMap.mem_iff_isSome_getElem?.mpr (by rw [hp]; rfl)

theorem getElem?_tailPositions (cursor : TailCursor) (starts ends : ListedOffsets)
    (partition : Int32) :
    (tailPositions cursor starts ends).1[partition]? =
      (tailPosition (TailCursor.known cursor)[partition]? (offsetAt starts partition)
        (offsetAt ends partition)).map (·.1) := by
  rw [tailPositions, ExtTreeMap.getElem?_filterMap']
  cases hp : ends[partition]? with
  | some listed => rfl
  | none =>
    have hend : offsetAt ends partition = -1 := by rw [offsetAt, hp]
    rw [hend]
    rfl

/-- The offsets of a partition that a poll reports as dropped. -/
def agedAt (cursor : TailCursor) (starts ends : ListedOffsets) (partition : Int32) : List Int :=
  match (TailCursor.known cursor)[partition]? with
  | some place =>
    if 0 ≤ offsetAt ends partition then gap place (resumed place (offsetAt starts partition)) else []
  | none => []

/-- The places a poll reports as dropped. -/
def agedOut (cursor : TailCursor) (starts ends : ListedOffsets) : List (Int32 × Int) :=
  ends.keys.flatMap fun partition => (agedAt cursor starts ends partition).map (partition, ·)

theorem ofLog_agedOut (cursor : TailCursor) (starts ends : ListedOffsets) (partition : Int32) :
    ofLog partition (agedOut cursor starts ends) = agedAt cursor starts ends partition := by
  by_cases hmem : partition ∈ ends.keys
  · have hnodup : (ends.keys.map id).Nodup := by
      rw [List.map_id]
      exact ExtTreeMap.nodup_keys
    exact ofLog_flatMap_of_mem hnodup hmem
  · have hend : ¬ 0 ≤ offsetAt ends partition := fun h =>
      hmem (ExtTreeMap.mem_keys.mpr (mem_of_offsetAt h))
    have hnil : ofLog partition (agedOut cursor starts ends) = [] :=
      ofLog_flatMap_of_notMem fun other ho (he : other = partition) => hmem (he ▸ ho)
    rw [hnil, agedAt]
    split
    · rw [if_neg hend]
    · rfl

theorem length_agedAt (cursor : TailCursor) (starts ends : ListedOffsets) (partition : Int32) :
    ((agedAt cursor starts ends partition).length : Int) =
      ((tailPosition (TailCursor.known cursor)[partition]? (offsetAt starts partition)
        (offsetAt ends partition)).map (·.2)).getD 0 := by
  rw [agedAt]
  cases (TailCursor.known cursor)[partition]? with
  | none =>
    simp only [tailPosition]
    split <;> rfl
  | some place =>
    by_cases hend : 0 ≤ offsetAt ends partition
    · simp only [hend, if_true, tailPosition_known hend]
      exact length_gap (le_resumed _ _)
    · simp only [hend, if_false, tailPosition, if_pos (lt_of_not_ge hend)]
      rfl

/-- **A poll counts what it passes over.** -/
theorem length_agedOut (cursor : TailCursor) (starts ends : ListedOffsets) :
    ((agedOut cursor starts ends).length : Int) = (tailPositions cursor starts ends).2 := by
  rw [agedOut, tailPositions, List.length_flatMap]
  simp only [List.length_map]
  rw [Nat.cast_list_sum, List.map_map]
  exact congrArg List.sum (List.map_congr_left fun partition _ => length_agedAt _ _ _ partition)

end

end MqStudio.Kafka
