import MqStudio.Kinesis.Stream

/-!
# Sending records to a Kinesis stream

`kinesis/publish.go`: the copies of one body are sent in requests of five hundred records, and the
service accepts or refuses every record on its own.

* `check`, `publish`, `sendMessage`: the checks of a send, its requests, and the send of the port.
* `Right`: the requests are within the limits of the service, and what it accepted is counted.
* `publish_right_iff`: that is so exactly if the batches that the copies make are small enough.
-/

namespace MqStudio.Kinesis.Publish

open Lib.Errors Lib.Text

/-! ### What is asked -/

/-- The most records of a request. -/
def putBatch : ℕ := 500

def maxSendCount : ℕ := 1000

def maxRecordBytes : ℕ := 1024 * 1024

/-- The most bytes of a request: five megabytes. -/
def maxBatchBytes : ℕ := 5 * (1024 * 1024)

structure PublishRequest where
  stream : String
  body : String
  partitionKey : String
  explicitHashKey : String
  count : ℤ

/-- What the driver itself refuses. -/
inductive Refusal where
  | noStream
  | emptyBody
  | tooLarge (bytes : ℕ)
  | noPartitionKey
  | tooMany
  | hashKeyTooLong (value : String)
  | hashKeyNotDecimal (value : String)
deriving DecidableEq

/-- The text of a refusal; a value is quoted in it. -/
def Refusal.text : Refusal → String
  | .noStream => "a send needs a stream"
  | .emptyBody => "kinesis refuses an empty record"
  | .tooLarge bytes =>
      "a kinesis record carries at most " ++ toString maxRecordBytes ++ " bytes; this one is " ++
        toString bytes
  | .noPartitionKey =>
      "every record needs a partition key: it is what decides which shard takes it"
  | .tooMany => "this console sends at most " ++ toString maxSendCount ++ " records at once"
  | .hashKeyTooLong value =>
      "an explicit hash key is a 128-bit number; \"" ++ value ++ "\" is too long"
  | .hashKeyNotDecimal value =>
      "an explicit hash key is a decimal number between 0 and 2^128-1; \"" ++ value ++ "\" is not"

def validHashKey (value : String) : Option Refusal :=
  if 39 < value.utf8ByteSize then some (.hashKeyTooLong value)
  else if value.toList.all fun digit => '0' ≤ digit ∧ digit ≤ '9' then none
  else some (.hashKeyNotDecimal value)

/-- A request that was checked. -/
structure Checked where
  stream : String
  body : String
  key : String
  count : ℕ
  hashKey : String
  small : body.utf8ByteSize ≤ maxRecordBytes
  positive : 0 < count
  capped : count ≤ maxSendCount

/-- The copies that a request asks for: one, where it asks for none. -/
def copiesOf (request : PublishRequest) : ℕ :=
  if request.count ≤ 0 then 1 else request.count.toNat

theorem copiesOf_pos (request : PublishRequest) : 0 < copiesOf request := by
  unfold copiesOf
  split <;> omega

/-- The checks of `Publish`, in their order. -/
def check (request : PublishRequest) : Except Refusal Checked :=
  let stream := trimSpace request.stream
  let key := trimSpace request.partitionKey
  let count := copiesOf request
  let hashKey := trimSpace request.explicitHashKey
  if stream = "" then .error .noStream
  else if request.body = "" then .error .emptyBody
  else if hsmall : request.body.utf8ByteSize ≤ maxRecordBytes then
    if key = "" then .error .noPartitionKey
    else if hcapped : count ≤ maxSendCount then
      match if hashKey = "" then none else validHashKey hashKey with
      | some refusal => .error refusal
      | none =>
        .ok ⟨stream, request.body, key, count, hashKey, hsmall, copiesOf_pos request, hcapped⟩
    else .error .tooMany
  else .error (.tooLarge request.body.utf8ByteSize)

/-- Each copy of a repeated body has a key of its own. -/
def partitionKeyFor (key : String) (index count : ℕ) (hashKey : String) : String :=
  if count ≤ 1 ∨ hashKey ≠ "" then key else key ++ "-" ++ toString index

/-! ### The service -/

structure Entry where
  data : String
  partitionKey : String
  explicitHashKey : Option String

/-- What an entry counts for against the limit of a request. -/
def Entry.size (e : Entry) : ℕ := e.data.utf8ByteSize + e.partitionKey.utf8ByteSize

structure RecordResult where
  errorCode : Option String
  errorMessage : Option String
  sequenceNumber : Option String
  shardID : Option String

/-- A record of a request was accepted. -/
def RecordResult.accepted (r : RecordResult) : Bool := r.errorCode.isNone

structure PutRecordsOutput where
  records : List RecordResult
  failedRecordCount : Option ℤ

inductive PutRecordsError where
  | notFound
  | other (err : Error)

/-- What the service answers to the requests, in their order. -/
abbrev Service := ℕ → List Entry → Except PutRecordsError PutRecordsOutput

/-- The service answers for every record of a request, and counts those it refused. -/
def Documented (service : Service) : Prop :=
  ∀ n entries out, service n entries = .ok out → out.records.length = entries.length ∧
    out.failedRecordCount.getD 0 = out.records.countP fun r => !r.accepted

/-! ### The send -/

structure PublishResult where
  sent : ℕ
  sequenceNumber : String
  shardID : String
  failed : ℕ

/-- The counters after one record of an answer. -/
def PublishResult.note (result : PublishResult) (record : RecordResult) : PublishResult :=
  if record.accepted then
    let result := { result with sent := result.sent + 1 }
    if result.sequenceNumber = "" then
      { result with
        sequenceNumber := record.sequenceNumber.getD ""
        shardID := record.shardID.getD "" }
    else result
  else { result with failed := result.failed + 1 }

/-- Why the first of the refused records was refused. -/
def firstPutError (records : List RecordResult) : String :=
  match records.find? fun r => !r.accepted with
  | some r => r.errorCode.getD "" ++ ": " ++ r.errorMessage.getD ""
  | none => "the service gave no reason"

inductive PublishError where
  | refused (refusal : Refusal)
  | failed (err : Error)
  | notFound (stream region : String)
  | partly (stream : String) (failed : ℤ) (count : ℕ) (reason : String)

/-- What was sent and answered so far, and the counters. -/
structure Sending where
  requests : List (List Entry)
  answered : List PutRecordsOutput
  result : PublishResult

def Checked.entry (c : Checked) (index : ℕ) : Entry where
  data := c.body
  partitionKey := partitionKeyFor c.key index c.count c.hashKey
  explicitHashKey := if c.hashKey = "" then none else some c.hashKey

/-- The copies from an index on that one request carries. -/
def Checked.batch (c : Checked) (start : ℕ) : List Entry :=
  (List.range' start (min (start + putBatch) c.count - start)).map c.entry

/-- A request is sent. -/
def Sending.ask (s : Sending) (entries : List Entry) : Sending :=
  { s with requests := s.requests ++ [entries] }

/-- A request is sent and answered. -/
def Sending.answer (s : Sending) (entries : List Entry) (out : PutRecordsOutput) : Sending where
  requests := s.requests ++ [entries]
  answered := s.answered ++ [out]
  result := out.records.foldl PublishResult.note s.result

/-- The loop over the batches. -/
def sendFrom (conn : Conn) (service : Service) (c : Checked) (start : ℕ) (s : Sending) :
    Sending × Option PublishError :=
  if start < c.count then
    let entries := c.batch start
    match service (start / putBatch) entries with
    | .error .notFound => (s.ask entries, some (.notFound c.stream conn.region))
    | .error (.other err) =>
      (s.ask entries, some (.failed (.wrap (c.stream ++ " took " ++ toString s.result.sent ++
        " of " ++ toString c.count ++ " before failing") err)))
    | .ok out =>
      let failed := out.failedRecordCount.getD 0
      if 0 < failed then
        (s.answer entries out, some (.partly c.stream failed c.count (firstPutError out.records)))
      else sendFrom conn service c (start + putBatch) (s.answer entries out)
  else (s, none)
termination_by c.count - start
decreasing_by
  have : 0 < putBatch := by decide
  omega

/-- What a send did: its requests and their answers, and what it returns. -/
structure Outcome where
  requests : List (List Entry)
  answered : List PutRecordsOutput
  result : Option PublishResult
  err : Option PublishError

def publish (conn : Conn) (service : Service) (request : PublishRequest) : Outcome :=
  if conn.closed then ⟨[], [], none, some (.failed connectionDown)⟩
  else match check request with
    | .error refusal => ⟨[], [], none, some (.refused refusal)⟩
    | .ok c =>
      let (s, err) := sendFrom conn service c 0 ⟨[], [], ⟨0, "", "", 0⟩⟩
      ⟨s.requests, s.answered, some s.result, err⟩

/-! ### What a send should do -/

/-- The records that the service accepted. -/
def acceptedOf (answered : List PutRecordsOutput) : ℕ :=
  (answered.flatMap (·.records)).countP (·.accepted)

/-- The requests are within the limits of the service, every answer is counted, and there is an
error unless all copies were accepted. -/
structure Right (request : PublishRequest) (service : Service) (o : Outcome) : Prop where
  few : ∀ entries ∈ o.requests, entries.length ≤ 500
  small : ∀ entries ∈ o.requests, (entries.map Entry.size).sum ≤ maxBatchBytes
  counted : ∀ result, o.result = some result →
    result.sent + result.failed = (o.answered.map (·.records.length)).sum
  complete : Documented service → o.err = none → acceptedOf o.answered = copiesOf request

/-- The digits of the numbers below a number, which is a thousand at most. -/
def digitsBelow (n : ℕ) : ℕ := n + (n - 10) + (n - 100)

/-- The bytes of the copies from an index up to another: a copy of its own key has a hyphen and its
index behind it. -/
def Checked.bytes (c : Checked) (start stop : ℕ) : ℕ :=
  (stop - start) * (c.body.utf8ByteSize + c.key.utf8ByteSize) +
    if c.count ≤ 1 ∨ c.hashKey ≠ "" then 0
    else (stop - start) + (digitsBelow stop - digitsBelow start)

/-- The first five hundred copies fit a request, and so do the others. -/
def Checked.Fits (c : Checked) : Prop :=
  c.bytes 0 (min putBatch c.count) ≤ maxBatchBytes ∧
    (putBatch < c.count → c.bytes putBatch c.count ≤ maxBatchBytes)

/-! ### The loop -/

section Loop

variable {conn : Conn} {service : Service} {c : Checked}

/-- The induction over the loop: what holds before a batch, and what holds where it ends. -/
theorem sendFrom_induct {P : ℕ → Sending → Prop} {Q : Sending → Option PublishError → Prop}
    (done : ∀ start s, c.count ≤ start → P start s → Q s none)
    (lost : ∀ start s failure err, start < c.count → P start s →
      service (start / putBatch) (c.batch start) = .error failure →
        Q (s.ask (c.batch start)) (some err))
    (partly : ∀ start s out err, start < c.count → P start s →
      service (start / putBatch) (c.batch start) = .ok out → 0 < out.failedRecordCount.getD 0 →
        Q (s.answer (c.batch start) out) (some err))
    (next : ∀ start s out, start < c.count → P start s →
      service (start / putBatch) (c.batch start) = .ok out → out.failedRecordCount.getD 0 ≤ 0 →
        P (start + putBatch) (s.answer (c.batch start) out))
    {start : ℕ} {s : Sending} (h : P start s) :
    Q (sendFrom conn service c start s).1 (sendFrom conn service c start s).2 := by
  fun_induction sendFrom conn service c start s with
  | case1 start s hlt entries hfail => exact lost start s _ _ hlt h hfail
  | case2 start s hlt entries err hfail => exact lost start s _ _ hlt h hfail
  | case3 start s hlt entries out hok failed hfailed => exact partly start s out _ hlt h hok hfailed
  | case4 start s hlt entries out hok failed hfailed ih =>
    exact ih (next start s out hlt h hok (not_lt.mp hfailed))
  | case5 start s hge => exact done start s (not_lt.mp hge) h

/-- Every request is a batch of the copies. -/
theorem requests_sendFrom {start : ℕ} {s : Sending}
    (h : putBatch ∣ start ∧ ∀ entries ∈ s.requests,
      ∃ k, putBatch ∣ k ∧ k < c.count ∧ entries = c.batch k) :
    ∀ entries ∈ (sendFrom conn service c start s).1.requests,
      ∃ k, putBatch ∣ k ∧ k < c.count ∧ entries = c.batch k := by
  have hmore : ∀ start (s : Sending), start < c.count → (putBatch ∣ start ∧
      ∀ entries ∈ s.requests, ∃ k, putBatch ∣ k ∧ k < c.count ∧ entries = c.batch k) →
      ∀ entries ∈ s.requests ++ [c.batch start],
        ∃ k, putBatch ∣ k ∧ k < c.count ∧ entries = c.batch k := by
    intro start s hlt hp entries hmem
    rcases List.mem_append.mp hmem with hmem | hmem
    · exact hp.2 entries hmem
    · exact ⟨start, hp.1, hlt, List.mem_singleton.mp hmem⟩
  refine sendFrom_induct (P := fun start s => putBatch ∣ start ∧ ∀ entries ∈ s.requests,
      ∃ k, putBatch ∣ k ∧ k < c.count ∧ entries = c.batch k)
    (Q := fun s _ => ∀ entries ∈ s.requests, ∃ k, putBatch ∣ k ∧ k < c.count ∧ entries = c.batch k)
    (fun _ _ _ hp => hp.2) (fun start s _ _ hlt hp _ => hmore start s hlt hp)
    (fun start s _ _ hlt hp _ _ => hmore start s hlt hp)
    (fun start s _ hlt hp _ _ => ⟨(Nat.dvd_add_right hp.1).mpr dvd_rfl, hmore start s hlt hp⟩) h

theorem note_counts (result : PublishResult) (record : RecordResult) :
    (result.note record).sent + (result.note record).failed = result.sent + result.failed + 1 := by
  rw [PublishResult.note]
  split
  · dsimp only
    split <;> exact Nat.add_right_comm _ _ _
  · rfl

theorem foldl_note_counts (records : List RecordResult) (result : PublishResult) :
    (records.foldl PublishResult.note result).sent +
        (records.foldl PublishResult.note result).failed =
      result.sent + result.failed + records.length := by
  induction records generalizing result with
  | nil => rfl
  | cons record records ih =>
    rw [List.foldl_cons, ih, note_counts, List.length_cons]
    omega

/-- Every record that is answered for is counted, as sent or as failed. -/
theorem counted_sendFrom {start : ℕ} {s : Sending}
    (h : s.result.sent + s.result.failed = (s.answered.map (·.records.length)).sum) :
    (sendFrom conn service c start s).1.result.sent +
        (sendFrom conn service c start s).1.result.failed =
      ((sendFrom conn service c start s).1.answered.map (·.records.length)).sum := by
  have hmore : ∀ (s : Sending) entries out,
      s.result.sent + s.result.failed = (s.answered.map (·.records.length)).sum →
      (s.answer entries out).result.sent + (s.answer entries out).result.failed =
        ((s.answer entries out).answered.map (·.records.length)).sum := by
    intro s entries out hs
    rw [Sending.answer, foldl_note_counts, hs, List.map_append, List.sum_append, List.map_singleton,
      List.sum_singleton]
  exact sendFrom_induct
    (P := fun _ s => s.result.sent + s.result.failed = (s.answered.map (·.records.length)).sum)
    (Q := fun s _ => s.result.sent + s.result.failed = (s.answered.map (·.records.length)).sum)
    (fun _ _ _ hp => hp) (fun _ _ _ _ _ hp _ => hp) (fun _ s out _ _ hp _ _ => hmore s _ out hp)
    (fun _ s out _ hp _ _ => hmore s _ out hp) h

theorem length_batch (c : Checked) (start : ℕ) :
    (c.batch start).length = min (start + putBatch) c.count - start := by
  rw [Checked.batch, List.length_map, List.length_range']

/-- Where the service does as documented and no error is returned, all copies were accepted. -/
theorem complete_sendFrom (hdoc : Documented service) {start : ℕ} {s : Sending}
    (h : acceptedOf s.answered = min start c.count)
    (hnone : (sendFrom conn service c start s).2 = none) :
    acceptedOf (sendFrom conn service c start s).1.answered = c.count := by
  have hsend := @sendFrom_induct conn service c
    (P := fun start s => acceptedOf s.answered = min start c.count)
    (Q := fun s err => err = none → acceptedOf s.answered = c.count)
    (fun start s hge hp _ => hp.trans (Nat.min_eq_right hge)) (fun _ _ _ _ _ _ _ h => nomatch h)
    (fun _ _ _ _ _ _ _ _ h => nomatch h) ?_ start s h
  · exact hsend hnone
  · intro start s out hlt hp hok hfailed
    obtain ⟨hlength, hcount⟩ := hdoc _ _ _ hok
    rw [hcount] at hfailed
    have hrefused : (out.records.countP fun r => !r.accepted) = 0 := by omega
    have hall : out.records.countP (·.accepted) = out.records.length := by
      have hsum := List.length_eq_countP_add_countP (·.accepted) (l := out.records)
      have hneg : out.records.countP (fun r => decide ¬ r.accepted = true) =
          out.records.countP fun r => !r.accepted :=
        List.countP_congr fun r _ => by cases r.accepted <;> simp
      omega
    have hmore : acceptedOf (s.answer (c.batch start) out).answered =
        acceptedOf s.answered + out.records.countP (·.accepted) := by
      rw [Sending.answer, acceptedOf, acceptedOf, List.flatMap_append, List.countP_append,
        List.flatMap_singleton]
    rw [hmore, hp, hall, hlength, length_batch]
    omega

/-- The service accepts every record. -/
def acceptAll : Service := fun _ entries =>
  .ok ⟨entries.map fun _ => ⟨none, none, some "0", some "shardId-000000000000"⟩, some 0⟩

/-- All batches are sent to a service that accepts every record. -/
theorem batch_mem_requests {start : ℕ} {s : Sending}
    (h : ∀ k, putBatch ∣ k → k < start → k < c.count → c.batch k ∈ s.requests)
    (hstart : putBatch ∣ start) {k : ℕ} (hk : putBatch ∣ k) (hlt : k < c.count) :
    c.batch k ∈ (sendFrom conn acceptAll c start s).1.requests := by
  have hsend := @sendFrom_induct conn acceptAll c
    (P := fun start s => putBatch ∣ start ∧
      ∀ k, putBatch ∣ k → k < start → k < c.count → c.batch k ∈ s.requests)
    (Q := fun s _ => ∀ k, putBatch ∣ k → k < c.count → c.batch k ∈ s.requests)
    (fun start s hge hp k hk hlt => hp.2 k hk (hlt.trans_le hge) hlt)
    (fun _ _ _ _ _ _ hok => nomatch hok) ?_ ?_ start s ⟨hstart, h⟩
  · exact hsend k hk hlt
  · rintro start s out err - - hok hfailed
    obtain rfl := Except.ok.inj hok
    exact absurd hfailed (lt_irrefl _)
  · rintro start s out - ⟨hdvd, hp⟩ - -
    refine ⟨(Nat.dvd_add_right hdvd).mpr dvd_rfl, fun k hk hbelow hlt => ?_⟩
    rcases Nat.lt_or_ge k start with hbefore | hfrom
    · exact List.mem_append_left _ (hp k hk hbefore hlt)
    · -- The only multiple from here to the next batch is this one.
      obtain ⟨a, rfl⟩ := hdvd
      obtain ⟨b, rfl⟩ := hk
      have hsize : putBatch = 500 := rfl
      rw [hsize] at hbelow hfrom
      obtain rfl : a = b := by omega
      exact List.mem_append_right _ (List.mem_singleton_self _)

end Loop

/-! ### The bytes of a batch -/

theorem utf8ByteSize_of_isDigit {cs : List Char} (h : ∀ d ∈ cs, d.isDigit = true) :
    (String.ofList cs).utf8ByteSize = cs.length := by
  rw [String.utf8ByteSize_ofList]
  induction cs with
  | nil => rfl
  | cons d ds ih =>
    obtain ⟨hd, hds⟩ := List.forall_mem_cons.mp h
    have hone : d.utf8Size = 1 := by
      rw [Char.isDigit, Bool.and_eq_true, decide_eq_true_eq, decide_eq_true_eq] at hd
      have hnine : ('9' : Char).val ≤ 0x7f := by decide
      exact if_pos (UInt32.le_trans hd.2 hnine)
    rw [String.utf8Len_cons, ih hds, hone, List.length_cons]

/-- The digits of a number below a thousand. -/
theorem utf8ByteSize_toString {n : ℕ} (h : n < 1000) :
    (toString n).utf8ByteSize + digitsBelow n = digitsBelow (n + 1) := by
  have hone := Nat.length_toDigits_le_iff (b := 10) (n := n) (k := 1) (by decide) (by decide)
  have htwo := Nat.length_toDigits_le_iff (b := 10) (n := n) (k := 2) (by decide) (by decide)
  have hthree := Nat.length_toDigits_le_iff (b := 10) (n := n) (k := 3) (by decide) (by decide)
  have hpos : 0 < (Nat.toDigits 10 n).length := Nat.length_toDigits_pos
  rw [Nat.toString_eq_ofList_toDigits, utf8ByteSize_of_isDigit fun d hd =>
    Nat.isDigit_of_mem_toDigits (by decide) (by decide) hd, digitsBelow, digitsBelow]
  omega

theorem digitsBelow_mono {m n : ℕ} (h : m ≤ n) : digitsBelow m ≤ digitsBelow n := by
  unfold digitsBelow
  omega

/-- What the indexes of copies add to their keys. -/
theorem sum_digits (start : ℕ) {n : ℕ} (h : start + n ≤ 1000) :
    ((List.range' start n).map fun i => (toString i).utf8ByteSize).sum =
      digitsBelow (start + n) - digitsBelow start := by
  induction n with
  | zero => simp
  | succ n ih =>
    have hnext := utf8ByteSize_toString (n := start + n) (by omega)
    have hmono := digitsBelow_mono (Nat.le_add_right start n)
    rw [List.range'_1_concat, List.map_append, List.sum_append, ih (by omega), List.map_singleton,
      List.sum_singleton]
    rw [← Nat.add_assoc]
    omega

/-- The bytes of the records of a batch. -/
theorem sum_size_batch (c : Checked) {start : ℕ} (hstart : start < c.count) :
    ((c.batch start).map Entry.size).sum = c.bytes start (min (start + putBatch) c.count) := by
  have hcap : c.count ≤ 1000 := c.capped
  generalize hstop : min (start + putBatch) c.count = stop
  have hle : start ≤ stop := by omega
  rw [Checked.batch, Checked.bytes, List.map_map, hstop]
  by_cases hsame : c.count ≤ 1 ∨ c.hashKey ≠ ""
  · have hsize : ∀ i, (Entry.size ∘ c.entry) i = c.body.utf8ByteSize + c.key.utf8ByteSize := by
      intro i
      rw [Function.comp_apply, Entry.size, Checked.entry, partitionKeyFor, if_pos hsame]
    rw [if_pos hsame, List.map_congr_left fun i _ => hsize i, List.map_const', List.sum_replicate,
      List.length_range', smul_eq_mul, Nat.add_zero]
  · have hsize : ∀ i, (Entry.size ∘ c.entry) i =
        (c.body.utf8ByteSize + c.key.utf8ByteSize + 1) + (toString i).utf8ByteSize := by
      intro i
      have hhyphen : "-".utf8ByteSize = 1 := rfl
      rw [Function.comp_apply, Entry.size, Checked.entry, partitionKeyFor, if_neg hsame]
      dsimp only
      rw [String.utf8ByteSize_append, String.utf8ByteSize_append, hhyphen]
      simp only [Nat.add_assoc]
    rw [if_neg hsame, List.map_congr_left fun i _ => hsize i, List.sum_map_add,
      sum_digits start (by omega), List.map_const', List.sum_replicate, List.length_range',
      smul_eq_mul, Nat.mul_succ, Nat.add_sub_cancel' hle, Nat.add_assoc]

/-! ### Sends -/

/-- The batches of the copies are the first five hundred and the rest. -/
theorem fits_iff (c : Checked) :
    c.Fits ↔ ∀ k, putBatch ∣ k → k < c.count →
      ((c.batch k).map Entry.size).sum ≤ maxBatchBytes := by
  have hcap : c.count ≤ 1000 := c.capped
  have hsize : putBatch = 500 := rfl
  constructor
  · rintro ⟨hfirst, hrest⟩ k ⟨a, rfl⟩ hlt
    rw [sum_size_batch c hlt]
    have ha : a = 0 ∨ a = 1 := by
      rw [hsize] at hlt
      omega
    rcases ha with rfl | rfl
    · rwa [Nat.mul_zero, Nat.zero_add]
    · rw [Nat.mul_one] at hlt ⊢
      rw [Nat.min_eq_right (by omega)]
      exact hrest hlt
  · intro h
    refine ⟨?_, fun hlt => ?_⟩
    · have hfirst := h 0 (dvd_zero _) c.positive
      rwa [sum_size_batch c c.positive, Nat.zero_add] at hfirst
    · have hrest := h putBatch dvd_rfl hlt
      rwa [sum_size_batch c hlt, Nat.min_eq_right (by omega)] at hrest

/-- The copies of a request that passes the checks. -/
theorem count_of_check {request : PublishRequest} {c : Checked} (h : check request = .ok c) :
    c.count = copiesOf request := by
  rw [check] at h
  split at h
  · cases h
  split at h
  · cases h
  split at h
  · split at h
    · cases h
    split at h
    · split at h
      · cases h
      · rw [← Except.ok.inj h]
    · cases h
  · cases h

/-- What a send that passes the checks is. -/
theorem publish_of_check {conn : Conn} (hconn : conn.closed = false) {request : PublishRequest}
    {c : Checked} (h : check request = .ok c) (service : Service) :
    publish conn service request =
      ⟨(sendFrom conn service c 0 ⟨[], [], ⟨0, "", "", 0⟩⟩).1.requests,
        (sendFrom conn service c 0 ⟨[], [], ⟨0, "", "", 0⟩⟩).1.answered,
        some (sendFrom conn service c 0 ⟨[], [], ⟨0, "", "", 0⟩⟩).1.result,
        (sendFrom conn service c 0 ⟨[], [], ⟨0, "", "", 0⟩⟩).2⟩ := by
  rw [publish, hconn, if_neg (by decide), h]

/-- A send that is refused sends nothing. -/
theorem right_of_refused (request : PublishRequest) (service : Service) (err : PublishError) :
    Right request service ⟨[], [], none, some err⟩ where
  few := List.forall_mem_nil _
  small := List.forall_mem_nil _
  counted := fun _ h => nomatch h
  complete := fun _ h => nomatch h

section Sends

variable {conn : Conn} {request : PublishRequest} {c : Checked}

/-- The sends of copies that fit. -/
theorem right_of_fits (hconn : conn.closed = false) (hcheck : check request = .ok c)
    (hfits : c.Fits) (service : Service) :
    Right request service (publish conn service request) := by
  rw [publish_of_check hconn hcheck]
  have hbatches : ∀ entries ∈
      (sendFrom conn service c 0 ⟨[], [], ⟨0, "", "", 0⟩⟩).1.requests,
      ∃ k, putBatch ∣ k ∧ k < c.count ∧ entries = c.batch k :=
    requests_sendFrom ⟨dvd_zero _, List.forall_mem_nil _⟩
  refine ⟨fun entries hentries => ?_, fun entries hentries => ?_, fun result hresult => ?_,
    fun hdoc hnone => ?_⟩
  · obtain ⟨k, -, -, rfl⟩ := hbatches entries hentries
    have hsize : putBatch = 500 := rfl
    rw [length_batch]
    omega
  · obtain ⟨k, hdvd, hlt, rfl⟩ := hbatches entries hentries
    exact (fits_iff c).mp hfits k hdvd hlt
  · obtain rfl := Option.some.inj hresult
    exact counted_sendFrom rfl
  · rw [← count_of_check hcheck]
    exact complete_sendFrom hdoc (Nat.zero_min _).symm hnone

/-- All copies are sent to a service that accepts them. -/
theorem fits_of_right (hconn : conn.closed = false) (hcheck : check request = .ok c)
    (h : Right request acceptAll (publish conn acceptAll request)) : c.Fits := by
  refine (fits_iff c).mpr fun k hdvd hlt => ?_
  rw [publish_of_check hconn hcheck] at h
  exact h.small _ (batch_mem_requests (fun k _ hk _ => absurd hk (Nat.not_lt_zero k))
    (dvd_zero _) hdvd hlt)

end Sends

/-- **A send is right exactly if the batches of its copies fit a request.**  They are cut by the
number of records alone. -/
theorem publish_right_iff (conn : Conn) (request : PublishRequest) :
    (∀ service, Right request service (publish conn service request)) ↔
      (conn.closed = false → ∀ c, check request = .ok c → c.Fits) := by
  constructor
  · exact fun hright hconn c hcheck => fits_of_right hconn hcheck (hright acceptAll)
  · intro hfits service
    cases hconn : conn.closed with
    | true =>
      rw [publish, hconn, if_pos rfl]
      exact right_of_refused request service _
    | false =>
      cases hcheck : check request with
      | error refusal =>
        rw [publish, hconn, if_neg (by decide), hcheck]
        exact right_of_refused request service _
      | ok c => exact right_of_fits hconn hcheck (hfits hconn c hcheck) service

/-- Six records of a megabyte. -/
def largeRequest : PublishRequest where
  stream := "orders"
  body := String.ofList (List.replicate maxRecordBytes '0')
  partitionKey := "k"
  explicitHashKey := ""
  count := 6

theorem six_megabytes_sent :
    ¬ Right largeRequest acceptAll (publish ⟨false, "eu-west-1"⟩ acceptAll largeRequest) := by
  have hbytes : largeRequest.body.utf8ByteSize = maxRecordBytes := by
    have hdigits : ∀ d ∈ List.replicate maxRecordBytes '0', d.isDigit = true := fun d hd => by
      rw [(List.mem_replicate.mp hd).2]
      rfl
    rw [largeRequest, utf8ByteSize_of_isDigit hdigits, List.length_replicate]
  have hbody : largeRequest.body ≠ "" := by
    intro hempty
    rw [hempty] at hbytes
    exact absurd hbytes (by decide)
  obtain ⟨c, hcheck, hc, hkey, hhash⟩ : ∃ c, check largeRequest = .ok c ∧
      c.body = largeRequest.body ∧ c.key = "k" ∧ c.hashKey = "" := by
    have hcount : copiesOf largeRequest = 6 := rfl
    have hsmall : largeRequest.body.utf8ByteSize ≤ maxRecordBytes := hbytes.le
    refine ⟨⟨"orders", largeRequest.body, "k", 6, "", hsmall, by decide, by decide⟩, ?_, rfl, rfl,
      rfl⟩
    have hstream : trimSpace largeRequest.stream = "orders" := rfl
    have hkey : trimSpace largeRequest.partitionKey = "k" := rfl
    have hhash : trimSpace largeRequest.explicitHashKey = "" := rfl
    simp only [check, hstream, hkey, hhash, hcount]
    rw [if_neg (by decide), if_neg hbody, dif_pos hsmall, if_neg (by decide),
      dif_pos (by decide), if_pos trivial]
  intro hright
  have hfits := (fits_of_right rfl hcheck hright).1
  have hcount : c.count = 6 := count_of_check hcheck
  rw [Checked.bytes, hc, hbytes, hcount, hkey, hhash] at hfits
  revert hfits
  decide

end MqStudio.Kinesis.Publish
