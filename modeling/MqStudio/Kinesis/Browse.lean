import MqStudio.Lib.Maps
import MqStudio.Lib.Ranking
import MqStudio.Lib.Text
import MqStudio.Lib.Traverse

/-!
# Browsing a Kinesis stream

`kinesis/message.go`: a browse reads a quota of each shard from its oldest record on, merges what it
read by the time of arrival, and cuts it to the page.

* `readShard`, `queryMessages`: the reads and the merge.
* `Right`: the page is full of different records, the newest first, and no shard has less of it than
  its share.
* `fair_page_right_iff`: that is so exactly if the cut takes one record at most of each shard that
  has more than its share, and none of any other.
-/

namespace MqStudio.Kinesis.Browse

open Std (ExtTreeMap)
open Lib Lib.Maps Lib.Ranking Lib.Text Lib.Traverse

/-! ### Streams -/

/-- A record; the time it arrived is in milliseconds. -/
structure Record where
  sequenceNumber : String
  partitionKey : String
  arrived : Option ℤ
  data : String
  encryptionType : String

/-- A shard with its records, the oldest first.  Reading one may be refused. -/
structure Shard where
  id : String
  closed : Bool
  records : List Record
  refused : Option String
  distinct : (records.map (·.sequenceNumber)).Nodup

/-- A stream; the id of a shard is made of letters, digits, dots, dashes and underscores. -/
structure Stream where
  shards : List Shard
  distinct : (shards.map (·.id)).Nodup
  plain : ∀ shard ∈ shards, ':' ∉ shard.id.toList

/-! ### Messages -/

structure MessageItem where
  id : ℕ
  topic : String
  messageID : String
  keys : String
  storeTimestamp : ℤ
  body : String
  properties : ExtTreeMap String String compare

def propShardID : String := "shardId"
def propSequenceNumber : String := "sequenceNumber"
def propPartitionKey : String := "partitionKey"
def propEncryption : String := "encryptionType"
def filterShardID : String := "shardId"
def idSeparator : String := ":"
def maxBrowse : ℕ := 500
def browseCallsPerShard : ℕ := 5

/-- `time.Time{}` in milliseconds. -/
def zeroTime : ℤ := -62135596800000

def messageOf (stream shard : String) (record : Record) : MessageItem where
  id := 0
  topic := stream
  messageID := shard ++ idSeparator ++ record.sequenceNumber
  keys := record.partitionKey
  storeTimestamp := record.arrived.getD zeroTime
  body := record.data
  properties := ((((∅ : ExtTreeMap String String compare).insert propShardID shard).insert
    propSequenceNumber record.sequenceNumber).insert propPartitionKey record.partitionKey).insert
      propEncryption record.encryptionType

structure MessageQueryParams where
  topic : String
  maxResults : ℤ
  shardFilter : String
  startTime : ℤ
  endTime : ℤ
  messageKey : String

def matchesParams (params : MessageQueryParams) (message : MessageItem) : Bool :=
  !(decide (0 < params.endTime) && decide (params.endTime < message.storeTimestamp)) &&
    (trimSpace params.messageKey == "" || message.keys == trimSpace params.messageKey)

/-! ### Reading one shard -/

/-- Where an iterator starts: at the oldest record, or at the first one from a time on. -/
def iteratorAt (shard : Shard) (startTime : ℤ) : ℕ :=
  if 0 < startTime then
    shard.records.findIdx fun record => decide (startTime ≤ record.arrived.getD zeroTime)
  else 0

/-- `GetRecords`: as many as asked for, where that many remain, and the next iterator, which a
closed shard does not have once it has been read to its end. -/
def getRecords (shard : Shard) (cursor limit : ℕ) : List Record × Option ℕ :=
  let batch := (shard.records.drop cursor).take limit
  let next := cursor + batch.length
  (batch, if shard.closed ∧ shard.records.length ≤ next then none else some next)

/-- The loop of `readShard`, with the calls that are left.  `behind` is how far behind the service
reports a read to be. -/
def readLoop (behind : ℕ → ℕ) (stream : String) (shard : Shard) (params : MessageQueryParams)
    (wanted : ℕ) : ℕ → Option ℕ → List MessageItem → List MessageItem
  | 0, _, collected => collected
  | _ + 1, none, collected => collected
  | calls + 1, some cursor, collected =>
    if wanted ≤ collected.length then collected
    else
      let (batch, next) := getRecords shard cursor (min (wanted - collected.length) maxBrowse)
      let collected := collected ++
        (batch.map (messageOf stream shard.id)).filter (matchesParams params)
      if batch = [] ∧ behind cursor = 0 then collected
      else readLoop behind stream shard params wanted calls next collected

def readShard (behind : ℕ → ℕ) (stream : String) (shard : Shard) (params : MessageQueryParams)
    (wanted : ℕ) : Except String (List MessageItem) :=
  match shard.refused with
  | some err => .error (shard.id ++ ": " ++ err)
  | none => .ok (readLoop behind stream shard params wanted browseCallsPerShard
      (some (iteratorAt shard params.startTime)) [])

/-! ### The browse -/

/-- The size of a page. -/
def wantedOf (maxResults : ℤ) : ℕ :=
  if maxResults ≤ 0 ∨ (maxBrowse : ℤ) < maxResults then maxBrowse else maxResults.toNat

/-- The shards a browse reads: the one that is named, or all of them, the closed ones included. -/
def browsableShards (s : Stream) (only : String) : Except String (List Shard) :=
  if trimSpace only ≠ "" then
    match s.shards.find? fun shard => shard.id = trimSpace only with
    | some shard => .ok [shard]
    | none => .error (trimSpace only ++ ": no such shard")
  else .ok s.shards

/-- Newest first; of records that arrived together the one of the higher id. -/
def newness (message : MessageItem) : ℤ ×ₗ String :=
  toLex (message.storeTimestamp, message.messageID)

def number (messages : List MessageItem) : List MessageItem :=
  messages.mapIdx fun index message => { message with id := index + 1 }

/-- What the service answers: how far behind each read is, and in which order the reads of the
shards are through. -/
structure Meets where
  behind : String → ℕ → ℕ
  finish : List Shard → List Shard
  finished : ∀ shards, (finish shards).Perm shards

def queryMessages (s : Stream) (meets : Meets) (params : MessageQueryParams) :
    Except String (List MessageItem) := do
  let stream := trimSpace params.topic
  if stream = "" then throw "a browse needs a stream name"
  let wanted := wantedOf params.maxResults
  let shards ← browsableShards s params.shardFilter
  if shards = [] then return []
  let perShard := wanted / shards.length + 1
  let batches ← (meets.finish shards).mapM fun shard =>
    readShard (meets.behind shard.id) stream shard params perShard
  let collected := descending newness batches.flatten
  return number (if wanted < collected.length then collected.take wanted else collected)

/-! ### What a browse should return -/

/-- The messages of a shard on a page. -/
def ofShard (shard : Shard) (message : MessageItem) : Bool :=
  decide (message.properties[propShardID]? = some shard.id)

/-- The shard and the sequence number of a record. -/
def originOf (message : MessageItem) : Option String × Option String :=
  (message.properties[propShardID]?, message.properties[propSequenceNumber]?)

/-- At most a page of different records of the stream, the newest first, and of each shard what it
holds or its share. -/
structure Right (s : Stream) (wanted : ℕ) (items : List MessageItem) : Prop where
  few : items.length ≤ wanted
  once : (items.map originOf).Nodup
  newestFirst : items.Pairwise fun a b => b.storeTimestamp ≤ a.storeTimestamp
  shares : ∀ shard ∈ s.shards, min shard.records.length (wanted / s.shards.length) ≤
    (items.filter (ofShard shard)).length

/-- The records of a shard that a browse reads: one more than its share. -/
def readOf (s : Stream) (stream : String) (wanted : ℕ) (shard : Shard) : List MessageItem :=
  (shard.records.take (wanted / s.shards.length + 1)).map (messageOf stream shard.id)

/-- What is read of the stream. -/
def allRead (s : Stream) (stream : String) (wanted : ℕ) : List MessageItem :=
  s.shards.flatMap (readOf s stream wanted)

/-- The records of a shard that have a page of newer ones among all that are read. -/
def late (s : Stream) (stream : String) (wanted : ℕ) (shard : Shard) : List MessageItem :=
  (readOf s stream wanted shard).filter fun m =>
    wanted ≤ higher newness (allRead s stream wanted) m

/-- One record at most is late of a shard that has more than its share, and none of any other. -/
def Fair (s : Stream) (stream : String) (wanted : ℕ) : Prop :=
  ∀ shard ∈ s.shards, (late s stream wanted shard).length ≤
    if wanted / s.shards.length < shard.records.length then 1 else 0

/-! ### What is read of a shard -/

section Reading

variable {behind : ℕ → ℕ} {stream : String} {shard : Shard} {params : MessageQueryParams}
  {wanted : ℕ}

/-- No filter of the driver's own is set. -/
structure Unfiltered (params : MessageQueryParams) : Prop where
  shard : trimSpace params.shardFilter = ""
  start : params.startTime ≤ 0
  «end» : params.endTime ≤ 0
  key : trimSpace params.messageKey = ""

theorem matchesParams_of_unfiltered (h : Unfiltered params) (m : MessageItem) :
    matchesParams params m = true := by
  have hend : ¬0 < params.endTime := not_lt.mpr h.end
  simp [matchesParams, hend, h.key]

/-- The messages of the first `n` records of a shard. -/
def messagesTo (stream : String) (shard : Shard) (n : ℕ) : List MessageItem :=
  (shard.records.take n).map (messageOf stream shard.id)

theorem messagesTo_of_le {n m : ℕ} (hn : shard.records.length ≤ n)
    (hm : shard.records.length ≤ m) : messagesTo stream shard n = messagesTo stream shard m := by
  rw [messagesTo, messagesTo, List.take_of_length_le hn, List.take_of_length_le hm]

theorem length_messagesTo {n : ℕ} : (messagesTo stream shard n).length =
    min n shard.records.length := by
  rw [messagesTo, List.length_map, List.length_take]

/-- **The loop reads what is wanted**, if the calls that are left suffice for it. -/
theorem readLoop_eq (hall : ∀ m, matchesParams params m = true) {calls pos : ℕ}
    {cursor : Option ℕ} (hwanted : pos ≤ wanted) (hpos : pos ≤ shard.records.length)
    (hcursor : cursor = some pos ∨ cursor = none ∧ shard.records.length ≤ pos)
    (hcalls : wanted ≤ pos + maxBrowse * calls ∨ shard.records.length ≤ pos) :
    readLoop behind stream shard params wanted calls cursor (messagesTo stream shard pos) =
      messagesTo stream shard wanted := by
  have hdone : shard.records.length ≤ pos →
      messagesTo stream shard pos = messagesTo stream shard wanted := fun h =>
    messagesTo_of_le h (h.trans hwanted)
  induction calls generalizing pos cursor with
  | zero =>
    rw [readLoop]
    rcases hcalls with hcalls | hcalls
    · rw [show pos = wanted by omega]
    · exact hdone hcalls
  | succ calls ih =>
    rcases hcursor with rfl | ⟨rfl, hend⟩
    · have hlength : (messagesTo stream shard pos).length = pos := by
        rw [length_messagesTo, Nat.min_eq_left hpos]
      rw [readLoop, hlength]
      by_cases hfull : wanted ≤ pos
      · rw [if_pos hfull, show pos = wanted by omega]
      · rw [if_neg hfull, getRecords]
        dsimp only
        have hbatch : ((shard.records.drop pos).take (min (wanted - pos) maxBrowse)).length =
            min (min (wanted - pos) maxBrowse) (shard.records.length - pos) := by
          rw [List.length_take, List.length_drop]
        have hmore : messagesTo stream shard pos ++ (((shard.records.drop pos).take
            (min (wanted - pos) maxBrowse)).map (messageOf stream shard.id)).filter
              (matchesParams params) = messagesTo stream shard (pos + ((shard.records.drop pos).take
                (min (wanted - pos) maxBrowse)).length) := by
          rw [List.filter_eq_self.mpr fun m _ => hall m, messagesTo, messagesTo, ← List.map_append,
            ← List.take_add, hbatch]
          congr 1
          rw [List.take_eq_take_iff]
          omega
        have hsize : (maxBrowse : ℕ) = 500 := rfl
        generalize hn : ((shard.records.drop pos).take (min (wanted - pos) maxBrowse)).length = n
          at hbatch hmore ⊢
        rw [hmore]
        split
        · rename_i hstop
          rw [hstop.1, List.length_nil] at hn
          have hend : shard.records.length ≤ pos := by omega
          rw [← hn, Nat.add_zero]
          exact hdone hend
        · refine ih (by omega) (by omega) ?_ (by rw [Nat.mul_succ] at hcalls; omega) fun h =>
            messagesTo_of_le h (h.trans (by omega))
          split
          · rename_i hclosed
            exact .inr ⟨rfl, hclosed.2⟩
          · exact .inl rfl
    · rw [readLoop]
      exact hdone hend

/-- What is read of a shard, where that is not refused. -/
theorem readShard_eq (h : Unfiltered params) (hrefused : shard.refused = none)
    (hwanted : wanted ≤ maxBrowse * browseCallsPerShard) :
    readShard behind stream shard params wanted = .ok (messagesTo stream shard wanted) := by
  have hstart : iteratorAt shard params.startTime = 0 := by
    rw [iteratorAt, if_neg (not_lt.mpr h.start)]
  have hloop := @readLoop_eq behind stream shard params wanted (matchesParams_of_unfiltered h)
    browseCallsPerShard 0 (some 0) (Nat.zero_le _) (Nat.zero_le _) (.inl rfl)
    (.inl (by rwa [Nat.zero_add]))
  rw [readShard, hrefused, hstart]
  exact congrArg _ hloop

end Reading

/-! ### What is read of a stream -/

theorem shardID_messageOf (stream shard : String) (record : Record) :
    (messageOf stream shard record).properties[propShardID]? = some shard := by
  rw [messageOf, getElem?_insert, if_neg (by decide), getElem?_insert, if_neg (by decide),
    getElem?_insert, if_neg (by decide), getElem?_insert, if_pos rfl]

theorem sequenceNumber_messageOf (stream shard : String) (record : Record) :
    (messageOf stream shard record).properties[propSequenceNumber]? =
      some record.sequenceNumber := by
  rw [messageOf, getElem?_insert, if_neg (by decide), getElem?_insert, if_neg (by decide),
    getElem?_insert, if_pos rfl]

/-- An id has no colon, so a message's id tells the shard from the sequence number. -/
theorem messageID_inj {shard shard' number number' : String} (h : ':' ∉ shard.toList)
    (h' : ':' ∉ shard'.toList)
    (heq : shard ++ idSeparator ++ number = shard' ++ idSeparator ++ number') :
    shard = shard' ∧ number = number' := by
  have hchars : shard.toList ++ ':' :: number.toList = shard'.toList ++ ':' :: number'.toList := by
    have := congrArg String.toList heq
    simpa [idSeparator] using this
  have hcut := cut_append h number.toList
  rw [hchars, cut_append h'] at hcut
  obtain ⟨hshard, hnumber⟩ := Prod.mk.inj (Option.some.inj hcut)
  exact ⟨String.toList_inj.mp hshard.symm, String.toList_inj.mp hnumber.symm⟩

section Counting

variable {s : Stream} {stream : String} {wanted : ℕ}

theorem readOf_eq_messagesTo (shard : Shard) :
    readOf s stream wanted shard = messagesTo stream shard (wanted / s.shards.length + 1) := rfl

/-- A key that tells the records of the stream apart tells what is read of them apart. -/
theorem nodup_map_allRead {κ : Type} (key : MessageItem → κ)
    (hkey : ∀ a ∈ s.shards, ∀ b ∈ s.shards, ∀ r r', key (messageOf stream a.id r) =
      key (messageOf stream b.id r') → a.id = b.id ∧ r.sequenceNumber = r'.sequenceNumber) :
    ((allRead s stream wanted).map key).Nodup := by
  rw [allRead, List.map_flatMap, List.nodup_flatMap]
  constructor
  · intro shard hshard
    have hrecords := (shard.distinct.of_map.sublist
      (List.take_sublist (wanted / s.shards.length + 1) shard.records))
    rw [readOf, List.map_map]
    refine List.Nodup.map_on (fun r hr r' hr' heq => ?_) hrecords
    have hsame := (hkey shard hshard shard hshard r r' heq).2
    exact List.inj_on_of_nodup_map shard.distinct (List.mem_of_mem_take hr)
      (List.mem_of_mem_take hr') hsame
  · refine (List.pairwise_map.mp s.distinct).imp_of_mem ?_
    intro a b ha hb hne x hxa hxb
    obtain ⟨m, hm, rfl⟩ := List.mem_map.mp hxa
    obtain ⟨m', hm', heq⟩ := List.mem_map.mp hxb
    obtain ⟨r, -, rfl⟩ := List.mem_map.mp hm
    obtain ⟨r', -, rfl⟩ := List.mem_map.mp hm'
    exact hne (hkey a ha b hb r r' heq.symm).1

theorem nodup_origins : ((allRead s stream wanted).map originOf).Nodup := by
  refine nodup_map_allRead originOf fun a _ b _ r r' heq => ?_
  rw [originOf, originOf, shardID_messageOf, shardID_messageOf, sequenceNumber_messageOf,
    sequenceNumber_messageOf] at heq
  obtain ⟨hshard, hnumber⟩ := Prod.mk.inj heq
  exact ⟨Option.some.inj hshard, Option.some.inj hnumber⟩

theorem nodup_newness : ((allRead s stream wanted).map newness).Nodup := by
  refine nodup_map_allRead newness fun a ha b hb r r' heq => ?_
  have hids := (Prod.mk.inj (toLex.injective heq)).2
  exact messageID_inj (s.plain a ha) (s.plain b hb) hids

theorem filter_flatMap_other {shard : Shard} {shards : List Shard}
    (h : ∀ other ∈ shards, other.id ≠ shard.id) :
    (shards.flatMap (readOf s stream wanted)).filter (ofShard shard) = [] := by
  refine List.filter_eq_nil_iff.mpr fun m hm => ?_
  obtain ⟨other, hother, hm⟩ := List.mem_flatMap.mp hm
  obtain ⟨r, -, rfl⟩ := List.mem_map.mp hm
  rw [ofShard, shardID_messageOf, decide_eq_true_iff]
  exact fun heq => h other hother (Option.some.inj heq)

/-- What is of a shard among all that is read is what is read of the shard. -/
theorem filter_allRead {shard : Shard} (hshard : shard ∈ s.shards) :
    (allRead s stream wanted).filter (ofShard shard) = readOf s stream wanted shard := by
  obtain ⟨before, after, hsplit⟩ := List.append_of_mem hshard
  have hdistinct := s.distinct
  rw [hsplit, List.map_append, List.map_cons] at hdistinct
  obtain ⟨-, hcons, hapart⟩ := List.nodup_append.mp hdistinct
  have hbefore : ∀ other ∈ before, other.id ≠ shard.id := fun other hother =>
    hapart _ (List.mem_map_of_mem hother) _ List.mem_cons_self
  have hafter : ∀ other ∈ after, other.id ≠ shard.id := fun other hother heq =>
    (List.nodup_cons.mp hcons).1 (heq ▸ List.mem_map_of_mem hother)
  have hown : (readOf s stream wanted shard).filter (ofShard shard) =
      readOf s stream wanted shard := by
    refine List.filter_eq_self.mpr fun m hm => ?_
    obtain ⟨r, -, rfl⟩ := List.mem_map.mp hm
    rw [ofShard, shardID_messageOf, decide_eq_true_iff]
  calc (allRead s stream wanted).filter (ofShard shard)
      = ((before ++ shard :: after).flatMap (readOf s stream wanted)).filter (ofShard shard) := by
        rw [allRead, ← hsplit]
    _ = readOf s stream wanted shard := by
        rw [List.flatMap_append, List.flatMap_cons, List.filter_append, List.filter_append,
          filter_flatMap_other hbefore, filter_flatMap_other hafter, hown, List.append_nil,
          List.nil_append]

/-! ### The page -/

/-- The numbers of a page leave everything else as it is. -/
theorem map_number {β : Type} (f : MessageItem → β) (hf : ∀ m n, f { m with id := n } = f m)
    (messages : List MessageItem) : (number messages).map f = messages.map f := by
  refine List.ext_getElem (by simp [number]) fun i _ _ => ?_
  simp [number, hf]

theorem length_filter_number (p : MessageItem → Bool) (hp : ∀ m n, p { m with id := n } = p m)
    (messages : List MessageItem) : ((number messages).filter p).length =
      (messages.filter p).length := by
  have hcount : ∀ l : List MessageItem, (l.filter p).length = (l.map p).countP id := by
    intro l
    rw [List.countP_map, ← List.countP_eq_length_filter]
    rfl
  rw [hcount, hcount, map_number p hp]

/-- What a browse returns: the first page of all that is read, in its order. -/
theorem queryMessages_eq (s : Stream) (meets : Meets) {params : MessageQueryParams}
    (htopic : trimSpace params.topic ≠ "") (h : Unfiltered params)
    (hrefused : ∀ shard ∈ s.shards, shard.refused = none) :
    ∃ read : List MessageItem,
      read.Perm (allRead s (trimSpace params.topic) (wantedOf params.maxResults)) ∧
        queryMessages s meets params =
          .ok (number ((descending newness read).take (wantedOf params.maxResults))) := by
  have hbrowsable : browsableShards s params.shardFilter = .ok s.shards := by
    rw [browsableShards, if_neg (not_not.mpr h.shard)]
  have hmax : wantedOf params.maxResults ≤ maxBrowse := by
    rw [wantedOf]
    split
    · exact le_rfl
    · rename_i hnot
      have hsize : maxBrowse = 500 := rfl
      omega
  by_cases hshards : s.shards = []
  · refine ⟨[], by rw [allRead, hshards]; rfl, ?_⟩
    rw [queryMessages]
    simp only [htopic, hbrowsable, hshards, if_true, if_false, bind, Except.bind, pure, Except.pure]
    rw [descending, List.mergeSort_nil, List.take_nil]
    rfl
  · have hquota : wantedOf params.maxResults / s.shards.length + 1 ≤
        maxBrowse * browseCallsPerShard := by
      have hle := Nat.div_le_self (wantedOf params.maxResults) s.shards.length
      have hsize : maxBrowse * browseCallsPerShard = 2500 := rfl
      have hlimit : maxBrowse = 500 := rfl
      omega
    have hreads : (meets.finish s.shards).mapM (fun shard => readShard (meets.behind shard.id)
        (trimSpace params.topic) shard params (wantedOf params.maxResults / s.shards.length + 1)) =
          .ok ((meets.finish s.shards).map
            (readOf s (trimSpace params.topic) (wantedOf params.maxResults))) := by
      rw [mapM_eq_ok, List.forall₂_map_right_iff, List.forall₂_same]
      intro shard hshard
      have hmem := (meets.finished s.shards).mem_iff.mp hshard
      rw [readOf_eq_messagesTo]
      exact readShard_eq h (hrefused shard hmem) hquota
    refine ⟨(meets.finish s.shards).flatMap
      (readOf s (trimSpace params.topic) (wantedOf params.maxResults)),
        (meets.finished s.shards).flatMap_right _, ?_⟩
    rw [queryMessages]
    simp only [htopic, hbrowsable, hshards, hreads, if_false, bind, Except.bind, pure, Except.pure]
    rw [← List.flatMap_def]
    split
    · rfl
    · rename_i hfew
      rw [List.take_of_length_le (not_lt.mp hfew)]

/-- How many messages of a shard are on the page: what is read of it, less what is late. -/
theorem length_ofShard {read : List MessageItem} (hread : read.Perm (allRead s stream wanted))
    {shard : Shard} (hshard : shard ∈ s.shards) :
    ((number ((descending newness read).take wanted)).filter (ofShard shard)).length +
      (late s stream wanted shard).length =
        min (wanted / s.shards.length + 1) shard.records.length := by
  have hkeys : (read.map newness).Nodup := (hread.map newness).nodup_iff.mpr nodup_newness
  have hpart : (read.filter (ofShard shard)).Perm (readOf s stream wanted shard) :=
    filter_allRead hshard ▸ hread.filter (ofShard shard)
  have hpage : (((descending newness read).take wanted).filter (ofShard shard)).Perm
      ((readOf s stream wanted shard).filter fun m =>
        higher newness (allRead s stream wanted) m < wanted) := by
    refine (filter_take_descending hkeys (ofShard shard)).trans ?_
    simp only [higher_perm hread]
    exact hpart.filter _
  have hsplit := List.length_eq_length_filter_add (l := readOf s stream wanted shard)
    fun m => higher newness (allRead s stream wanted) m < wanted
  have hlate : late s stream wanted shard = (readOf s stream wanted shard).filter fun m =>
      !decide (higher newness (allRead s stream wanted) m < wanted) := by
    simp only [late, ← decide_not, not_lt]
  rw [length_filter_number _ (fun _ _ => rfl), hpage.length_eq, hlate, ← hsplit,
    readOf_eq_messagesTo, length_messagesTo]

end Counting

/-! ### The browse is right -/

/-- **A browse of a whole stream** is what it should be exactly if the cut takes no more than one
record of a shard that has more than its share, and none of any other. -/
theorem fair_page_right_iff (s : Stream) (meets : Meets) (params : MessageQueryParams)
    (htopic : trimSpace params.topic ≠ "") (h : Unfiltered params)
    (hrefused : ∀ shard ∈ s.shards, shard.refused = none) :
    ∃ items, queryMessages s meets params = .ok items ∧
      (Right s (wantedOf params.maxResults) items ↔
        Fair s (trimSpace params.topic) (wantedOf params.maxResults)) := by
  obtain ⟨read, hread, hitems⟩ := queryMessages_eq s meets htopic h hrefused
  refine ⟨_, hitems, ?_⟩
  constructor
  · intro hright shard hshard
    have hshare := hright.shares shard hshard
    have hcount := length_ofShard hread hshard
    split <;> omega
  · intro hfair
    refine ⟨?_, ?_, ?_, fun shard hshard => ?_⟩
    · rw [number, List.length_mapIdx]
      exact List.length_take_le _ _
    · rw [map_number originOf fun _ _ => rfl]
      have hsub := (List.take_sublist (wantedOf params.maxResults) (descending newness read)).map
        originOf
      have hperm := ((perm_descending newness read).trans hread).map originOf
      exact (hperm.nodup_iff.mpr nodup_origins).sublist hsub
    · have hordered : ((descending newness read).map (·.storeTimestamp)).Pairwise
          fun a b => b ≤ a := by
        refine List.pairwise_map.mpr ((ordered_descending newness read).imp fun {a b} hle => ?_)
        rcases Prod.Lex.le_iff.mp hle with hlt | heq
        · exact hlt.le
        · exact heq.1.le
      refine (List.pairwise_map (f := MessageItem.storeTimestamp)
        (R := fun a b => b ≤ a)).mp ?_
      rw [map_number (·.storeTimestamp) fun _ _ => rfl, List.map_take]
      exact hordered.sublist (List.take_sublist _ _)
    · have hcount := length_ofShard hread hshard
      have hlate := hfair shard hshard
      split at hlate <;> omega


/-! ### A busy shard -/

def recordAt (sequenceNumber : String) (arrived : ℤ) : Record where
  sequenceNumber := sequenceNumber
  partitionKey := "order"
  arrived := some arrived
  data := "{}"
  encryptionType := ""

/-- Two shards; all of the second shard's records are older than those of the first. -/
def busyStream : Stream where
  shards := [⟨"shardId-0", false, [recordAt "11" 3000, recordAt "12" 4000], none, by decide⟩,
    ⟨"shardId-1", false, [recordAt "21" 1000, recordAt "22" 2000], none, by decide⟩]
  distinct := by decide
  plain := by decide

def prompt : Meets where
  behind := fun _ _ => 0
  finish := id
  finished := fun _ => .refl _

def pageOf (maxResults : ℤ) : MessageQueryParams := ⟨"orders", maxResults, "", 0, 0, ""⟩

theorem unfiltered_pageOf (maxResults : ℤ) : Unfiltered (pageOf maxResults) :=
  ⟨rfl, le_rfl, le_rfl, rfl⟩

/-- Nothing is cut from a page of four. -/
theorem page_of_four_right : ∃ items, queryMessages busyStream prompt (pageOf 4) = .ok items ∧
    Right busyStream 4 items := by
  obtain ⟨items, hitems, hright⟩ := fair_page_right_iff busyStream prompt (pageOf 4) (by decide)
    (unfiltered_pageOf 4) (by decide)
  refine ⟨items, hitems, hright.mpr ?_⟩
  unfold Fair
  decide

/-- Both records of a page of two are the first shard's: the second one is not seen, although each
shard was to have one of them. -/
theorem busy_shard_hides_other : ∃ items, queryMessages busyStream prompt (pageOf 2) = .ok items ∧
    ¬Right busyStream (wantedOf (pageOf 2).maxResults) items := by
  obtain ⟨read, hread, hitems⟩ := queryMessages_eq busyStream prompt (by decide)
    (unfiltered_pageOf 2) (by decide)
  refine ⟨_, hitems, fun hright => ?_⟩
  obtain ⟨quiet, hquiet, hlate⟩ : ∃ shard ∈ busyStream.shards,
      (late busyStream "orders" 2 shard).length = 2 ∧ shard.records.length = 2 := by decide
  have hshare := hright.shares quiet hquiet
  have hcount := length_ofShard hread hquiet
  have hshards : busyStream.shards.length = 2 := rfl
  have hwanted : wantedOf (pageOf 2).maxResults = 2 := rfl
  have htopic : trimSpace (pageOf 2).topic = "orders" := by decide
  rw [hwanted] at hshare hcount
  rw [htopic, hlate.1] at hcount
  omega


end MqStudio.Kinesis.Browse
