import MqStudio.Kinesis.Browse
import MqStudio.Kinesis.Publish
import MqStudio.Lib.Transition
import MqStudio.Lib.Words

/-!
# Looking up one record of a Kinesis stream

A browse and a send name a record by its shard and its sequence number, and `MessageByID` of
`kinesis/message.go` reads one record of the shard from that number on.  What it reads is not
compared with what was asked for.

* `sendMessage`, `messageByID`: what returns an id, and what takes one.
* `World`: a stream whose records expire, and the ids that were returned.
* `names_of_issued`: every id that was returned names a record.
* `record_lookup_right_iff`: when a lookup is right about such an id.
-/

namespace MqStudio.Kinesis.Lookup

open Lib.Errors Lib.Text Lib.Transition
open Browse (Record MessageItem MessageQueryParams messageOf idSeparator)
open Publish (publish)

/-! ### Sending -/

inductive SendError where
  | tagged
  | delayed
  | publish (err : Publish.PublishError)

/-- `SendMessage`: the id of the record that was sent, and an error. -/
def sendMessage (conn : Conn) (service : Publish.Service) (topic tags keys body : String)
    (delayLevel : ℤ) : String × Option SendError :=
  if trimSpace tags ≠ "" then ("", some .tagged)
  else if delayLevel ≠ 0 then ("", some .delayed)
  else
    let o := publish conn service ⟨topic, body, keys, "", 1⟩
    let err := o.err.map .publish
    match o.result with
    | none => ("", err)
    | some result =>
      if result.sequenceNumber = "" then ("", err)
      else (result.shardID ++ idSeparator ++ result.sequenceNumber, err)

/-! ### Looking up -/

inductive IteratorError where
  | notFound
  | other (err : Error)

inductive ReadError where
  | throughputExceeded (err : Error)
  | other (err : Error)

/-- The two calls that read records from a sequence number on. -/
structure Service where
  Iterator : Type
  getShardIterator : (stream shard sequence : String) → Except IteratorError Iterator
  getRecords : Iterator → (limit : ℕ) → Except ReadError (List Record)

inductive LookupError where
  | failed (err : Error)
  | noStream
  | partOfID (messageID : String)
  | noShard (shard stream : String)
  | notSequenceNumber (sequence shard : String) (err : Error)
  | overAllowance (shard : String) (err : Error)
  | agedOut (shard sequence : String)

/-- The text of an error of the driver's own; a value is quoted in it. -/
def LookupError.text : LookupError → String
  | .failed _ => ""
  | .noStream => "a record is addressed within a stream"
  | .partOfID messageID =>
      "a kinesis record is addressed by shard and sequence number, written " ++
        "\"shardId-000000000000:49590...\"; \"" ++ messageID ++ "\" names only one of them"
  | .noShard shard stream => "no shard " ++ shard ++ " on " ++ stream
  | .notSequenceNumber sequence shard _ =>
      sequence ++ " is not a sequence number on " ++ shard
  | .overAllowance shard _ =>
      shard ++ " is over its read allowance - five GetRecords a second and two " ++
        "megabytes a second, shared with every consumer reading it"
  | .agedOut shard sequence =>
      shard ++ " holds no record at " ++ sequence ++
        "; it may have aged out of the retention period"

def browseError (shard : String) : ReadError → LookupError
  | .throughputExceeded err => .overAllowance shard err
  | .other err => .failed err

/-- `MessageByID`: the first record that is read is the one that is returned. -/
def messageByID (conn : Conn) (service : Service) (topic messageID : String) :
    Except LookupError MessageItem :=
  let stream := trimSpace topic
  if conn.closed then .error (.failed connectionDown)
  else if stream = "" then .error .noStream
  else match cut ':' (trimSpace messageID).toList with
    | none => .error (.partOfID messageID)
    | some (front, back) =>
      let shard := String.ofList front
      let sequence := String.ofList back
      if shard = "" ∨ sequence = "" then .error (.partOfID messageID)
      else match service.getShardIterator stream shard sequence with
        | .error .notFound => .error (.noShard shard stream)
        | .error (.other err) => .error (.notSequenceNumber sequence shard err)
        | .ok iterator =>
          match service.getRecords iterator 1 with
          | .error err => .error (browseError shard err)
          | .ok [] => .error (.agedOut shard sequence)
          | .ok (record :: _) => .ok (messageOf stream shard record)

/-! ### Shards that forget -/

/-- The id of a shard. -/
structure ShardID (id : String) : Prop where
  nonempty : id ≠ ""
  plain : ∀ c ∈ id.toList, c.isAlphanum = true ∨ c ∈ ['_', '.', '-']

/-- A sequence number is written in decimal. -/
structure SequenceNumber (s : String) : Prop where
  nonempty : s ≠ ""
  digit : ∀ c ∈ s.toList, c.isDigit = true

def valueOf (sequence : String) : ℕ := Nat.ofDigitChars 10 sequence.toList 0

/-- The records that were written to a shard, the oldest first, of which some have expired. -/
structure ShardHistory where
  id : String
  written : List Record
  expired : ℕ
  named : ShardID id
  numbered : ∀ r ∈ written, SequenceNumber r.sequenceNumber
  ascending : written.Pairwise fun r r' => valueOf r.sequenceNumber < valueOf r'.sequenceNumber

/-- The records that are left. -/
def ShardHistory.retained (h : ShardHistory) : List Record := h.written.drop h.expired

/-- The records from a sequence number on. -/
def ShardHistory.atOrAfter (h : ShardHistory) (sequence : String) : List Record :=
  h.retained.dropWhile fun r => valueOf r.sequenceNumber < valueOf sequence

theorem ShardHistory.nodup (h : ShardHistory) :
    (h.retained.map (·.sequenceNumber)).Nodup := by
  have hsub : h.retained.Sublist h.written := List.drop_sublist _ _
  rw [List.Nodup, List.pairwise_map]
  refine (h.ascending.sublist hsub).imp fun hlt heq => ?_
  rw [heq] at hlt
  exact lt_irrefl _ hlt

theorem ShardID.notMem_colon {id : String} (h : ShardID id) : ':' ∉ id.toList := fun hmem => by
  rcases h.plain ':' hmem with halnum | hother
  · exact absurd halnum (by decide)
  · exact absurd hother (by decide)

/-- What a browse sees of a shard. -/
def ShardHistory.shard (h : ShardHistory) (closed : Bool) (refused : Option String) :
    Browse.Shard :=
  ⟨h.id, closed, h.retained, refused, h.nodup⟩

/-! ### A stream over time -/

/-- A stream, and the ids that were returned. -/
structure World where
  name : String
  shards : List ShardHistory
  issued : List String
  named : trimSpace name = name ∧ name ≠ ""
  distinct : (shards.map (·.id)).Nodup

/-- What a browse sees of the stream.  It is the service's to close a shard, and to refuse to read
it. -/
def World.stream (w : World) (closed : String → Bool) (refused : String → Option String) :
    Browse.Stream where
  shards := w.shards.map fun h => h.shard (closed h.id) (refused h.id)
  distinct := by
    rw [List.map_map]
    exact w.distinct
  plain := by
    intro shard hshard
    obtain ⟨h, -, rfl⟩ := List.mem_map.mp hshard
    exact h.named.notMem_colon

/-- The answers to a lookup.  A read at a sequence number starts with the first record that is left
at or after it, but the service may leave it empty. -/
def World.service (w : World) (empty : Bool) : Service where
  Iterator := List Record
  getShardIterator stream shard sequence :=
    match w.shards.find? fun h => h.id = shard with
    | none => .error .notFound
    | some h =>
      if stream = w.name then .ok (h.atOrAfter sequence) else .error .notFound
  getRecords iterator limit := .ok (if empty then [] else iterator.take limit)

/-- The service accepts a record and answers where it is. -/
def accepting (shard sequence : String) : Publish.Service := fun _ entries =>
  .ok ⟨entries.map fun _ => ⟨none, none, some sequence, some shard⟩, some 0⟩

/-- What happens to a stream: records are written, by this program or by others, and expire; shards
are added to it; and it is browsed. -/
inductive Event where
  | written (shard : String) (record : Record)
  | sent (conn : Conn) (tags keys body : String) (delayLevel : ℤ) (shard : String)
    (record : Record)
  | expired (shard : String)
  | opened (shard : String)
  | browsed (closed : String → Bool) (refused : String → Option String) (meets : Browse.Meets)
    (params : MessageQueryParams)

/-- One shard of a stream is replaced by what it has become. -/
def Becomes (w w' : World) (h h' : ShardHistory) : Prop :=
  ∃ before after, w.shards = before ++ h :: after ∧ w'.shards = before ++ h' :: after

/-- A record is written to a shard. -/
def Writes (w w' : World) (shard : String) (r : Record) : Prop :=
  ∃ h h', Becomes w w' h h' ∧ h.id = shard ∧ h'.id = shard ∧ h'.written = h.written ++ [r] ∧
    h'.expired = h.expired

def Step (w : World) (e : Event) (w' : World) : Prop :=
  w'.name = w.name ∧
  match e with
  | .written shard r => Writes w w' shard r ∧ w'.issued = w.issued
  | .sent conn tags keys body delayLevel shard r =>
    Writes w w' shard r ∧
      w'.issued = w.issued ++ ([(sendMessage conn (accepting shard r.sequenceNumber) w.name tags
        keys body delayLevel).1].filter fun id => id ≠ "")
  | .expired shard =>
    (∃ h h', Becomes w w' h h' ∧ h.id = shard ∧ h'.id = shard ∧ h'.written = h.written ∧
      h.expired ≤ h'.expired) ∧ w'.issued = w.issued
  | .opened shard =>
    (∃ h, w'.shards = w.shards ++ [h] ∧ h.id = shard ∧ h.written = []) ∧ w'.issued = w.issued
  | .browsed closed refused meets params =>
    w'.shards = w.shards ∧ ∃ items,
      Browse.queryMessages (w.stream closed refused) meets params = .ok items ∧
        w'.issued = w.issued ++ items.map (·.messageID)

/-- A stream from which nothing was read yet. -/
def system : System World Event where
  Init w := w.issued = []
  Step := Step

/-! ### What a lookup should do -/

/-- The record that an id names, and its shard. -/
structure Names (w : World) (id : String) (h : ShardHistory) (r : Record) : Prop where
  shard : h ∈ w.shards
  record : r ∈ h.written
  id_eq : id = h.id ++ idSeparator ++ r.sequenceNumber

/-- The record while its shard has it, and an error when it is gone. -/
def Right (w : World) (id : String) (answer : Except LookupError MessageItem) : Prop :=
  ∀ h r, Names w id h r →
    (r ∈ h.retained → answer = .ok (messageOf w.name h.id r)) ∧
      (r ∉ h.retained → ∃ err, answer = .error err)

/-- A read of the record is not left empty while its shard has it, and one that comes too late is,
or finds nothing. -/
def Answered (w : World) (id : String) (empty : Bool) : Prop :=
  ∀ h r, Names w id h r →
    (r ∈ h.retained → empty = false) ∧ (r ∉ h.retained → empty = true ∨ h.retained = [])

/-! ### One lookup -/

theorem isSpace_eq_false {c : Char} (h : 33 ≤ c.toNat ∧ c.toNat ≤ 122) : isSpace c = false := by
  have hs : c ≠ ' ' := by
    rintro rfl
    exact absurd h.1 (by decide)
  simp only [isSpace, Bool.or_eq_false_iff, beq_eq_false_iff_ne, Bool.and_eq_false_iff,
    decide_eq_false_iff_not]
  refine ⟨⟨⟨⟨⟨⟨⟨⟨⟨⟨hs, ?_⟩, ?_⟩, ?_⟩, ?_⟩, ?_⟩, ?_⟩, ?_⟩, ?_⟩, ?_⟩, ?_⟩ <;> omega

theorem isSpace_of_isAlphanum {c : Char} (h : c.isAlphanum = true) : isSpace c = false := by
  refine isSpace_eq_false ?_
  simp only [Char.isAlphanum, Char.isAlpha, Char.isUpper, Char.isLower, Char.isDigit,
    Bool.or_eq_true, Bool.and_eq_true, decide_eq_true_eq, UInt32.le_iff_toNat_le, ge_iff_le] at h
  have hnat : c.toNat = c.val.toNat := rfl
  have hA : ('A' : Char).val.toNat = 65 := rfl
  have hZ : ('Z' : Char).val.toNat = 90 := rfl
  have ha : ('a' : Char).val.toNat = 97 := rfl
  have hz : ('z' : Char).val.toNat = 122 := rfl
  have hzero : ('0' : Char).val.toNat = 48 := rfl
  have hnine : ('9' : Char).val.toNat = 57 := rfl
  omega

section Reading

variable {w : World} {id : String} {h : ShardHistory} {r : Record}

/-- An id has no white space. -/
theorem trimSpace_of_names (hn : Names w id h r) : trimSpace id = id := by
  refine trimSpace_eq_self fun c hc => ?_
  rw [hn.id_eq] at hc
  simp only [String.toList_append, List.mem_append] at hc
  rcases hc with (hc | hc) | hc
  · rcases h.named.plain c hc with halnum | hother
    · exact isSpace_of_isAlphanum halnum
    · simp only [List.mem_cons, List.not_mem_nil, or_false] at hother
      rcases hother with rfl | rfl | rfl <;> decide
  · rw [List.mem_singleton.mp hc]
    decide
  · exact not_isSpace_of_isDigit ((h.numbered r hn.record).digit c hc)

/-- The shard of an id is found by its own. -/
theorem find?_of_mem (hh : h ∈ w.shards) : (w.shards.find? fun h' => h'.id = h.id) = some h := by
  obtain ⟨before, after, hsplit⟩ := List.append_of_mem hh
  have hdistinct := w.distinct
  rw [hsplit, List.map_append, List.map_cons] at hdistinct
  have hbefore : ∀ x ∈ before, ¬ (decide (x.id = h.id) = true) := fun x hx heq =>
    (List.nodup_append.mp hdistinct).2.2 _ (List.mem_map_of_mem hx) _ List.mem_cons_self
      (of_decide_eq_true heq)
  rw [hsplit, List.find?_append, List.find?_eq_none.mpr hbefore, Option.none_or,
    List.find?_cons_of_pos]
  exact decide_eq_true rfl

/-- A lookup reads from the sequence number of its id on. -/
theorem messageByID_of_names (hn : Names w id h r) (region : String) (empty : Bool) :
    messageByID ⟨false, region⟩ (w.service empty) w.name id =
      match if empty then [] else (h.atOrAfter r.sequenceNumber).take 1 with
      | [] => .error (.agedOut h.id r.sequenceNumber)
      | record :: _ => .ok (messageOf w.name h.id record) := by
  have hcut : cut ':' id.toList = some (h.id.toList, r.sequenceNumber.toList) := by
    have hchars : id.toList = h.id.toList ++ ':' :: r.sequenceNumber.toList := by
      rw [hn.id_eq]
      simp [idSeparator]
    rw [hchars, cut_append h.named.notMem_colon]
  have hhalves : ¬ (h.id = "" ∨ r.sequenceNumber = "") :=
    not_or.mpr ⟨h.named.nonempty, (h.numbered r hn.record).nonempty⟩
  have hiterator : (w.service empty).getShardIterator w.name h.id r.sequenceNumber =
      .ok (h.atOrAfter r.sequenceNumber) := by
    simp only [World.service, find?_of_mem hn.shard, if_true]
  rw [messageByID, w.named.1, trimSpace_of_names hn, if_neg Bool.false_ne_true, if_neg w.named.2,
    hcut]
  simp only [String.ofList_toList, if_neg hhalves, hiterator]
  cases empty with
  | true => rfl
  | false =>
    have hread : (w.service false).getRecords (h.atOrAfter r.sequenceNumber) 1 =
        .ok ((h.atOrAfter r.sequenceNumber).take 1) := rfl
    rw [hread, if_neg Bool.false_ne_true]
    cases (h.atOrAfter r.sequenceNumber).take 1 <;> rfl

/-- What is left of a shard from one of its records on. -/
theorem head?_atOrAfter (hr : r ∈ h.retained) :
    ∃ later, h.atOrAfter r.sequenceNumber = r :: later := by
  obtain ⟨before, after, hsplit⟩ := List.append_of_mem hr
  have hasc := h.ascending.sublist (List.drop_sublist h.expired h.written)
  rw [show h.written.drop h.expired = before ++ r :: after from hsplit] at hasc
  have hbefore : ∀ x ∈ before,
      decide (valueOf x.sequenceNumber < valueOf r.sequenceNumber) = true := fun x hx =>
    decide_eq_true ((List.pairwise_append.mp hasc).2.2 x hx r List.mem_cons_self)
  refine ⟨after, ?_⟩
  rw [ShardHistory.atOrAfter, hsplit, List.dropWhile_append_of_pos hbefore,
    List.dropWhile_cons_of_neg (by simp)]

/-- What is left of a shard from one of its expired records on is all that is left. -/
theorem atOrAfter_of_expired (hr : r ∈ h.written) (hgone : r ∉ h.retained) :
    h.atOrAfter r.sequenceNumber = h.retained := by
  have hasc := h.ascending
  rw [← List.take_append_drop h.expired h.written] at hr hasc
  have htake : r ∈ h.written.take h.expired :=
    (List.mem_append.mp hr).resolve_right hgone
  rw [ShardHistory.atOrAfter]
  cases hleft : h.retained with
  | nil => rfl
  | cons x later =>
    have hx : x ∈ h.written.drop h.expired := by
      show x ∈ h.retained
      rw [hleft]
      exact List.mem_cons_self
    have hlt := (List.pairwise_append.mp hasc).2.2 r htake x hx
    rw [List.dropWhile_cons_of_neg]
    simpa using hlt.le

/-- **One lookup**: right exactly if the read is not left empty while the shard has the record, and
is or finds nothing when it is gone. -/
theorem lookup_iff (hn : Names w id h r) (region : String) (empty : Bool) :
    ((r ∈ h.retained →
        messageByID ⟨false, region⟩ (w.service empty) w.name id =
          .ok (messageOf w.name h.id r)) ∧
      (r ∉ h.retained →
        ∃ err, messageByID ⟨false, region⟩ (w.service empty) w.name id = .error err)) ↔
    (r ∈ h.retained → empty = false) ∧ (r ∉ h.retained → empty = true ∨ h.retained = []) := by
  rw [messageByID_of_names hn]
  refine and_congr (forall_congr' fun hr => ?_) (forall_congr' fun hgone => ?_)
  · obtain ⟨later, hlater⟩ := head?_atOrAfter hr
    rw [hlater]
    cases empty with
    | true => exact iff_of_false (fun h => nomatch h) (fun h => nomatch h)
    | false => exact iff_of_true rfl rfl
  · rw [atOrAfter_of_expired hn.record hgone]
    cases empty with
    | true => exact iff_of_true ⟨_, rfl⟩ (.inl rfl)
    | false =>
      cases hleft : h.retained with
      | nil => exact iff_of_true ⟨_, rfl⟩ (.inr rfl)
      | cons x later =>
        refine iff_of_false ?_ ?_
        · rintro ⟨err, herr⟩
          cases herr
        · rintro (hempty | hnil)
          · cases hempty
          · cases hnil

theorem right_iff_answered (w : World) (id region : String) (empty : Bool) :
    Right w id (messageByID ⟨false, region⟩ (w.service empty) w.name id) ↔ Answered w id empty :=
  forall_congr' fun _ => forall_congr' fun _ => forall_congr' fun hn => lookup_iff hn region empty

end Reading

/-! ### The ids that are returned -/

section Ids

open Browse

variable {s : Browse.Stream} {meets : Meets} {params : MessageQueryParams}

/-- What the loop over one shard collects is of its records. -/
theorem mem_readLoop {behind : ℕ → ℕ} {stream : String} {shard : Shard} {wanted calls : ℕ}
    {cursor : Option ℕ} {collected : List MessageItem}
    (h : ∀ m ∈ collected, ∃ r ∈ shard.records, m = messageOf stream shard.id r) :
    ∀ m ∈ readLoop behind stream shard params wanted calls cursor collected,
      ∃ r ∈ shard.records, m = messageOf stream shard.id r := by
  induction calls generalizing cursor collected with
  | zero => exact h
  | succ calls ih =>
    cases cursor with
    | none => exact h
    | some cursor =>
      rw [readLoop]
      split
      · exact h
      · have hmore : ∀ m ∈ collected ++ ((getRecords shard cursor
            (min (wanted - collected.length) maxBrowse)).1.map
              (messageOf stream shard.id)).filter (matchesParams params),
            ∃ r ∈ shard.records, m = messageOf stream shard.id r := by
          intro m hm
          rcases List.mem_append.mp hm with hm | hm
          · exact h m hm
          · obtain ⟨r, hr, rfl⟩ := List.mem_map.mp (List.mem_of_mem_filter hm)
            exact ⟨r, List.mem_of_mem_drop (List.mem_of_mem_take hr), rfl⟩
        dsimp only
        split
        · exact hmore
        · exact ih hmore

theorem mem_readShard {behind : ℕ → ℕ} {stream : String} {shard : Shard} {wanted : ℕ}
    {items : List MessageItem} (h : readShard behind stream shard params wanted = .ok items) :
    ∀ m ∈ items, ∃ r ∈ shard.records, m = messageOf stream shard.id r := by
  rw [readShard] at h
  split at h
  · cases h
  · rw [← Except.ok.inj h]
    exact mem_readLoop (List.forall_mem_nil _)

theorem mem_browsableShards {only : String} {shards : List Shard}
    (h : browsableShards s only = .ok shards) : ∀ shard ∈ shards, shard ∈ s.shards := by
  rw [browsableShards] at h
  split at h
  · split at h
    · rename_i shard hfind
      rw [← Except.ok.inj h]
      exact List.forall_mem_singleton.mpr (List.mem_of_find?_eq_some hfind)
    · cases h
  · rw [← Except.ok.inj h]
    exact fun _ hshard => hshard

/-- A page holds records of the stream. -/
theorem mem_queryMessages {items : List MessageItem}
    (h : queryMessages s meets params = .ok items) :
    ∀ m ∈ items, ∃ shard ∈ s.shards, ∃ r ∈ shard.records,
      m.messageID = shard.id ++ idSeparator ++ r.sequenceNumber := by
  unfold queryMessages at h
  dsimp only at h
  split at h
  · cases h
  · obtain ⟨shards, hshards, h⟩ := Lib.Traverse.bind_eq_ok.mp h
    split at h
    · rw [← Except.ok.inj h]
      exact List.forall_mem_nil _
    · obtain ⟨batches, hbatches, h⟩ := Lib.Traverse.bind_eq_ok.mp h
      have hread : ∀ m ∈ batches.flatten, ∃ shard ∈ s.shards, ∃ r ∈ shard.records,
          m.messageID = shard.id ++ idSeparator ++ r.sequenceNumber := by
        intro m hm
        obtain ⟨batch, hbatch, hm⟩ := List.mem_flatten.mp hm
        obtain ⟨shard, hshard, hok⟩ := Lib.Traverse.exists_of_mem_mapM hbatches hbatch
        have hmem := (meets.finished shards).mem_iff.mp hshard
        obtain ⟨r, hr, rfl⟩ := mem_readShard hok m hm
        exact ⟨shard, mem_browsableShards hshards shard hmem, r, hr, rfl⟩
      intro m hm
      rw [← Except.ok.inj h] at hm
      have hid := List.mem_map_of_mem (f := MessageItem.messageID) hm
      rw [map_number _ fun _ _ => rfl] at hid
      obtain ⟨m', hm', heq⟩ := List.mem_map.mp hid
      have hcollected : m' ∈ Lib.Ranking.descending newness batches.flatten := by
        split at hm'
        · exact List.mem_of_mem_take hm'
        · exact hm'
      rw [← heq]
      exact hread m' ((Lib.Ranking.perm_descending _ _).mem_iff.mp hcollected)

end Ids

/-- A single record that is accepted is the first of its send. -/
theorem result_publish_accepting {request : Publish.PublishRequest} {c : Publish.Checked}
    (hcheck : Publish.check request = .ok c) (hcount : c.count = 1)
    (region shard sequence : String) :
    (publish ⟨false, region⟩ (accepting shard sequence) request).result =
      some ⟨1, sequence, shard, 0⟩ := by
  have hbatch : c.batch 0 = [c.entry 0] := by
    rw [Publish.Checked.batch, hcount]
    rfl
  rw [Publish.publish_of_check rfl hcheck, Publish.sendFrom, if_pos c.positive, hbatch]
  have hanswer : accepting shard sequence (0 / Publish.putBatch) [c.entry 0] =
      .ok ⟨[⟨none, none, some sequence, some shard⟩], some 0⟩ := rfl
  simp only [hanswer, Option.getD_some, lt_irrefl, if_false]
  rw [Publish.sendFrom, if_neg (by rw [hcount]; decide)]
  rfl

/-- A send that is answered returns the id of the record, or none. -/
theorem sendMessage_accepting (conn : Conn) (shard sequence topic tags keys body : String)
    (delayLevel : ℤ) :
    (sendMessage conn (accepting shard sequence) topic tags keys body delayLevel).1 = "" ∨
      (sendMessage conn (accepting shard sequence) topic tags keys body delayLevel).1 =
        shard ++ idSeparator ++ sequence := by
  obtain ⟨closed, region⟩ := conn
  rw [sendMessage]
  split
  · exact .inl rfl
  split
  · exact .inl rfl
  dsimp only
  cases closed with
  | true => exact .inl rfl
  | false =>
    cases hcheck : Publish.check ⟨topic, body, keys, "", 1⟩ with
    | error refusal =>
      have hnone : (publish ⟨false, region⟩ (accepting shard sequence)
          ⟨topic, body, keys, "", 1⟩).result = none := by
        rw [publish, if_neg Bool.false_ne_true, hcheck]
      rw [hnone]
      exact .inl rfl
    | ok c =>
      rw [result_publish_accepting hcheck (Publish.count_of_check hcheck)]
      dsimp only
      split
      · exact .inl rfl
      · exact .inr rfl

/-- What an id names it names in a stream that has become more. -/
theorem Names.becomes {w w' : World} {id : String} {h h' k : ShardHistory} {r : Record}
    (hn : Names w id k r) (hw : Becomes w w' h h') (hid : h'.id = h.id)
    (hwritten : ∀ x ∈ h.written, x ∈ h'.written) : ∃ k', Names w' id k' r := by
  obtain ⟨before, after, hbefore, hafter⟩ := hw
  have hk := hn.shard
  rw [hbefore, List.mem_append, List.mem_cons] at hk
  have hmem : ∀ x, x ∈ before ∨ x = h' ∨ x ∈ after → x ∈ w'.shards := fun x hx => by
    rwa [hafter, List.mem_append, List.mem_cons]
  rcases hk with hk | rfl | hk
  · exact ⟨k, hmem k (.inl hk), hn.record, hn.id_eq⟩
  · exact ⟨h', hmem h' (.inr (.inl rfl)), hwritten r hn.record, hid ▸ hn.id_eq⟩
  · exact ⟨k, hmem k (.inr (.inr hk)), hn.record, hn.id_eq⟩

/-- Every id of a stream that was returned names a record of it. -/
def Sound (w : World) : Prop := ∀ id ∈ w.issued, ∃ h r, Names w id h r

theorem Writes.keeps {w w' : World} {shard id : String} {h : ShardHistory} {r x : Record}
    (hw : Writes w w' shard r) (hn : Names w id h x) : ∃ h', Names w' id h' x := by
  obtain ⟨k, k', hbecomes, hk, hk', hwritten, -⟩ := hw
  exact hn.becomes hbecomes (hk'.trans hk.symm) fun y hy => by
    rw [hwritten]
    exact List.mem_append_left _ hy

/-- The record that is written is named by its id. -/
theorem Writes.names {w w' : World} {shard : String} {r : Record} (hw : Writes w w' shard r) :
    ∃ h, Names w' (shard ++ idSeparator ++ r.sequenceNumber) h r := by
  obtain ⟨k, k', ⟨before, after, -, hafter⟩, -, hk', hwritten, -⟩ := hw
  refine ⟨k', ?_, ?_, by rw [hk']⟩
  · rw [hafter]
    exact List.mem_append_right _ List.mem_cons_self
  · rw [hwritten]
    exact List.mem_append_right _ (List.mem_singleton_self r)

/-- One step keeps the ids naming records. -/
theorem Sound.step {w w' : World} {e : Event} (h : Sound w) (hstep : Step w e w') : Sound w' := by
  cases e with
  | written shard r =>
    obtain ⟨-, hw, hissued⟩ := hstep
    intro id hid
    rw [hissued] at hid
    obtain ⟨k, x, hn⟩ := h id hid
    obtain ⟨k', hn'⟩ := hw.keeps hn
    exact ⟨k', x, hn'⟩
  | sent conn tags keys body delayLevel shard r =>
    obtain ⟨-, hw, hissued⟩ := hstep
    intro id hid
    rw [hissued, List.mem_append] at hid
    rcases hid with hid | hid
    · obtain ⟨k, x, hn⟩ := h id hid
      obtain ⟨k', hn'⟩ := hw.keeps hn
      exact ⟨k', x, hn'⟩
    · rw [List.mem_filter, List.mem_singleton, decide_eq_true_eq] at hid
      obtain ⟨rfl, hne⟩ := hid
      rcases sendMessage_accepting conn shard r.sequenceNumber w.name tags keys body delayLevel with
        hnone | hsome
      · exact absurd hnone hne
      · rw [hsome]
        obtain ⟨k, hn⟩ := hw.names
        exact ⟨k, r, hn⟩
  | expired shard =>
    obtain ⟨-, ⟨k, k', hbecomes, hk, hk', hwritten, -⟩, hissued⟩ := hstep
    intro id hid
    rw [hissued] at hid
    obtain ⟨j, x, hn⟩ := h id hid
    obtain ⟨j', hn'⟩ := hn.becomes hbecomes (hk'.trans hk.symm) fun y hy => hwritten ▸ hy
    exact ⟨j', x, hn'⟩
  | opened shard =>
    obtain ⟨-, ⟨k, hshards, -, -⟩, hissued⟩ := hstep
    intro id hid
    rw [hissued] at hid
    obtain ⟨j, x, hn⟩ := h id hid
    refine ⟨j, x, ?_, hn.record, hn.id_eq⟩
    rw [hshards]
    exact List.mem_append_left _ hn.shard
  | browsed closed refused meets params =>
    obtain ⟨-, hshards, items, hitems, hissued⟩ := hstep
    intro id hid
    rw [hissued, List.mem_append] at hid
    rcases hid with hid | hid
    · obtain ⟨j, x, hn⟩ := h id hid
      exact ⟨j, x, hshards ▸ hn.shard, hn.record, hn.id_eq⟩
    · obtain ⟨m, hm, rfl⟩ := List.mem_map.mp hid
      obtain ⟨shard, hshard, r, hr, hmid⟩ := mem_queryMessages hitems m hm
      obtain ⟨j, hj, rfl⟩ := List.mem_map.mp hshard
      exact ⟨j, r, hshards ▸ hj, List.mem_of_mem_drop hr, hmid⟩

/-- Every id that was returned names a record. -/
theorem names_of_issued {w : World} (h : Reachable system w) : Sound w := by
  refine h.inv (fun w hinit id hid => ?_) fun w e w' hw hstep => hw.step hstep
  rw [show w.issued = [] from hinit] at hid
  exact absurd hid List.not_mem_nil

/-- **A lookup of an id that was returned is right exactly if it is answered**: with the record
while the shard has it, and with nothing when it is gone. -/
theorem record_lookup_right_iff {w : World} (h : Reachable system w) {id : String} (hid : id ∈ w.issued)
    (region : String) (empty : Bool) :
    (∃ h r, Names w id h r) ∧
      (Right w id (messageByID ⟨false, region⟩ (w.service empty) w.name id) ↔
        Answered w id empty) :=
  ⟨names_of_issued h id hid, right_iff_answered w id region empty⟩

/-! ### A record that has expired -/

def orderAt (sequence : String) : Record := ⟨sequence, "k", none, "body", "NONE"⟩

/-- A shard to which at most two records were written. -/
def orderShard (written : List String) (expired : ℕ) (h : written.Sublist ["1", "2"]) :
    ShardHistory where
  id := "s-0"
  written := written.map orderAt
  expired := expired
  named := ⟨by decide, by simp⟩
  numbered := by
    intro r hr
    obtain ⟨sequence, hs, rfl⟩ := List.mem_map.mp hr
    have hs' : sequence = "1" ∨ sequence = "2" := by simpa using h.subset hs
    rcases hs' with rfl | rfl
    · exact ⟨by decide, List.forall_mem_singleton.mpr rfl⟩
    · exact ⟨by decide, List.forall_mem_singleton.mpr rfl⟩
  ascending := by
    rw [List.pairwise_map]
    exact List.Pairwise.sublist h (by decide)

def orders (written : List String) (expired : ℕ) (issued : List String)
    (h : written.Sublist ["1", "2"]) : World where
  name := "orders"
  shards := [orderShard written expired h]
  issued := issued
  named := ⟨rfl, by decide⟩
  distinct := List.nodup_singleton _

theorem sent_id : (sendMessage ⟨false, "eu-west-1"⟩ (accepting "s-0" "1") "orders" "" "k" "body"
    0).1 = "s-0:1" := by
  obtain ⟨c, hcheck⟩ : ∃ c, Publish.check ⟨"orders", "body", "k", "", 1⟩ = .ok c := by
    refine ⟨⟨"orders", "body", "k", 1, "", by decide, by decide, by decide⟩, ?_⟩
    have hsmall : "body".utf8ByteSize ≤ Publish.maxRecordBytes := by decide
    have hstream : trimSpace "orders" = "orders" := rfl
    have hkey : trimSpace "k" = "k" := rfl
    have hcount : Publish.copiesOf ⟨"orders", "body", "k", "", 1⟩ = 1 := rfl
    simp only [Publish.check, hstream, hkey, trimSpace_empty, hcount]
    rw [if_neg (by decide), if_neg (by decide), dif_pos hsmall, if_neg (by decide),
      dif_pos (by decide), if_pos trivial]
  have hresult := result_publish_accepting hcheck (Publish.count_of_check hcheck) "eu-west-1" "s-0"
    "1"
  rw [sendMessage, trimSpace_empty, if_neg (not_not.mpr rfl), if_neg (not_not.mpr rfl)]
  dsimp only
  rw [hresult]
  rfl

/-- One record is sent, and another follows it. -/
theorem reachable_orders :
    Reachable system (orders ["1", "2"] 0 ["s-0:1"] (List.Sublist.refl _)) := by
  have hone : ["1"].Sublist ["1", "2"] := by decide
  have hsent : Reachable system (orders ["1"] 0 ["s-0:1"] hone) := by
    refine .step (s := orders [] 0 [] (List.nil_sublist _)) (.init rfl)
      (i := .sent ⟨false, "eu-west-1"⟩ "" "k" "body" 0 "s-0" (orderAt "1"))
      ⟨rfl, ⟨_, _, ⟨[], [], rfl, rfl⟩, rfl, rfl, rfl, rfl⟩, ?_⟩
    rw [show (orderAt "1").sequenceNumber = "1" from rfl,
      show (orders [] 0 [] (List.nil_sublist _)).name = "orders" from rfl, sent_id]
    rfl
  exact .step hsent (i := .written "s-0" (orderAt "2"))
    ⟨rfl, ⟨_, _, ⟨[], [], rfl, rfl⟩, rfl, rfl, rfl, rfl⟩, rfl⟩

/-- While nothing has expired the record that was sent is returned. -/
theorem sent_record_found :
    Right (orders ["1", "2"] 0 ["s-0:1"] (List.Sublist.refl _)) "s-0:1"
      (messageByID ⟨false, "eu-west-1"⟩
        ((orders ["1", "2"] 0 ["s-0:1"] (List.Sublist.refl _)).service false) "orders"
          "s-0:1") := by
  refine (record_lookup_right_iff reachable_orders (List.mem_singleton_self _) "eu-west-1" false).2.mpr
    fun h r hn => ⟨fun _ => rfl, fun hgone => absurd ?_ hgone⟩
  obtain rfl := List.mem_singleton.mp hn.shard
  exact hn.record

/-- The record behind the one that has expired is returned in its place. -/
theorem next_record_returned : ∃ w, Reachable system w ∧ ∃ id ∈ w.issued,
    ¬ Right w id (messageByID ⟨false, "eu-west-1"⟩ (w.service false) w.name id) := by
  refine ⟨orders ["1", "2"] 1 ["s-0:1"] (List.Sublist.refl _), .step reachable_orders
    (i := .expired "s-0") ⟨rfl, ⟨_, _, ⟨[], [], rfl, rfl⟩, rfl, rfl, rfl, Nat.zero_le _⟩, rfl⟩,
    "s-0:1", List.mem_singleton_self _, fun hright => ?_⟩
  rw [right_iff_answered] at hright
  have hnames : Names (orders ["1", "2"] 1 ["s-0:1"] (List.Sublist.refl _)) "s-0:1"
      (orderShard ["1", "2"] 1 (List.Sublist.refl _)) (orderAt "1") :=
    ⟨List.mem_singleton_self _, List.mem_cons_self, rfl⟩
  have hgone : orderAt "1" ∉ (orderShard ["1", "2"] 1 (List.Sublist.refl _)).retained := by
    intro hmem
    have hsame := congrArg Record.sequenceNumber (List.mem_singleton.mp hmem)
    exact absurd hsame (by decide)
  rcases (hright _ _ hnames).2 hgone with hempty | hnil
  · cases hempty
  · exact absurd hnil (List.cons_ne_nil _ _)

end MqStudio.Kinesis.Lookup
