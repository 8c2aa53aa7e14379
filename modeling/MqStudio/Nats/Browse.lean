import MqStudio.Lib.Pattern
import MqStudio.Lib.Strconv
import MqStudio.Nats.Subscriptions
import MqStudio.Nats.Tail

/-!
# The NATS browse

`nats/message.go`: a browse reads the messages of a stream one at a time from an ordered
consumer, until it has enough, a message is past the end of the window, or it was handed
the last one that it can expect.

* `browseConfig`, `lastMatching`, `queryMessages`: the browse, where a consumer that has nothing
  left to deliver keeps it waiting.
* `Page.Right`: it did not wait, and the page is the first messages that match.
* `browse_right_iff`: that is so exactly if one of the messages that are delivered ends the walk, and
  none that match come after one past the end.
-/

namespace MqStudio.Nats.Browse

open Std (ExtTreeMap)
open Lib.Json Lib.Text Lib.Pattern Lib.Strconv
open Model
open Nats.Live (LiveError validateSubject)

/-! ### Queries -/

def FilterSubject : String := "subject"
def FilterStartSeq : String := "startSeq"
def FilterHeaderName : String := "headerName"
def FilterHeaderValue : String := "headerValue"

structure MessageQueryParams where
  topic : String
  messageID : String
  startTime : Int
  endTime : Int
  maxResults : Int
  filters : ExtTreeMap String String compare

/-- A filter of the query; one that is not there is blank. -/
def MessageQueryParams.filter (params : MessageQueryParams) (name : String) : String :=
  (params.filters[name]?).getD ""

inductive QueryError where
  | streamRequired
  | noStream (name : String)
  | invalidSubject (error : LiveError)
  | notASequence (raw : String)
  | noMessage (stream : String) (sequence : Nat)
  | consumerRefused (stream : String)
deriving DecidableEq

inductive DeliverPolicy where
  | all
  | byStartSequence (sequence : Nat)
  /-- In nanoseconds. -/
  | byStartTime (start : Int)

structure OrderedConsumerConfig where
  deliverPolicy : DeliverPolicy
  filterSubjects : List String

/-- The list the form collected, each subject once. -/
def splitSubjects (raw : String) : List String :=
  (fieldsFunc (fun c => c ∈ [',', ';', '\n', '\r', '\t', ' ']) raw).foldl
    (fun subjects field =>
      let subject := trimSpace field
      if subject = "" ∨ subject ∈ subjects then subjects else subjects ++ [subject]) []

/-- `strconv.ParseUint`, base ten and 64 bits. -/
def parseUint (raw : String) : Option Nat :=
  ((digitsValue raw.toList).map Int.toNat).filter (· < 2 ^ 64)

/-- Milliseconds as nanoseconds, as the times of messages are. -/
def unixMilli (ms : Int) : Int := ms * 1000000

/-- Where the walk starts. -/
def startPolicy (params : MessageQueryParams) : Except QueryError DeliverPolicy :=
  let raw := trimSpace (params.filter FilterStartSeq)
  if raw ≠ "" then
    match parseUint raw with
    | none => .error (.notASequence raw)
    | some sequence => .ok (.byStartSequence sequence)
  else if 0 < params.startTime then .ok (.byStartTime (unixMilli params.startTime))
  else .ok .all

/-- Where the walk starts and what it takes. -/
def browseConfig (params : MessageQueryParams) : Except QueryError OrderedConsumerConfig :=
  let subjects := splitSubjects (params.filter FilterSubject)
  match subjects.findSome? validateSubject with
  | some error => .error (.invalidSubject error)
  | none => (startPolicy params).map fun policy => ⟨policy, subjects⟩

/-- The far edge of the window, in nanoseconds. -/
def endBefore (params : MessageQueryParams) : Option Int :=
  if params.endTime ≤ 0 then none else some (unixMilli params.endTime)

/-- The message is past the far edge. -/
def pastEnd (params : MessageQueryParams) (timestamp : Int) : Bool :=
  (endBefore params).any (· < timestamp)

def matchesHeader (message : StoredMessage) (params : MessageQueryParams) : Bool :=
  let name := trimSpace (params.filter FilterHeaderName)
  if name = "" then true
  else
    let values := ((message.header[name]?).getD [])
    let wanted := params.filter FilterHeaderValue
    if wanted = "" then values ≠ [] else wanted ∈ values

/-- How many messages a page has at most. -/
def pageLimit (params : MessageQueryParams) : Nat :=
  (if params.maxResults ≤ 0 ∨ maxBrowse < params.maxResults then maxBrowse
    else params.maxResults).toNat

/-! ### Streams -/

/-- A stream that receives nothing while it is browsed.  Messages may be missing anywhere, also the
last ones; times are in nanoseconds. -/
structure JetStream where
  messages : List StoredMessage
  lastSeq : Int
  ordered : messages.Pairwise fun m n => m.sequence < n.sequence
  within : ∀ m ∈ messages, 1 ≤ m.sequence ∧ m.sequence ≤ lastSeq

/-- The tokens of a subject filter.  `>` stands for one token or more. -/
def pieces (subject : String) : List (Piece (List Char)) :=
  (subject.toList.splitOnP (· = '.')).flatMap fun token =>
    if token = ['*'] then [.one] else if token = ['>'] then [.one, .many] else [.word token]

/-- The server's rule for subject filters. -/
def selects (filter subject : String) : Bool :=
  fits (pieces filter) (subject.toList.splitOnP (· = '.'))

/-- The message is on one of the subjects. -/
def onSubjects (filters : List String) (message : StoredMessage) : Bool :=
  filters = [] || filters.any fun filter => selects filter message.subject

/-- The messages from the start position on. -/
def JetStream.startingAt (stream : JetStream) : DeliverPolicy → List StoredMessage
  | .all => stream.messages
  | .byStartSequence sequence => stream.messages.filter fun m => (sequence : Int) ≤ m.sequence
  | .byStartTime start => stream.messages.dropWhile fun m => m.timestamp < start

/-- What an ordered consumer has to deliver. -/
def JetStream.pending (stream : JetStream) (config : OrderedConsumerConfig) :
    List StoredMessage :=
  (stream.startingAt config.deliverPolicy).filter (onSubjects config.filterSubjects)

/-- The consumer delivers each message with its sequence and its time. -/
def deliver (message : StoredMessage) : Delivery :=
  ⟨message, some (message.sequence, message.timestamp)⟩

/-- `GetLastMsgForSubject`. -/
def JetStream.lastMsgForSubject (stream : JetStream) (subject : String) : Option StoredMessage :=
  (stream.messages.filter fun m => selects subject m.subject).getLast?

/-- A server: its streams, and the consumers it creates. -/
structure Server where
  stream : String → Option JetStream
  accepts : String → OrderedConsumerConfig → Bool

/-! ### The browse -/

/-- The highest sequence a browse can expect to be delivered. -/
def lastMatching (stream : JetStream) (filters : List String) : Int :=
  if filters = [] then stream.lastSeq
  else filters.foldl (fun last subject =>
    match stream.lastMsgForSubject subject with
    | none => last
    | some raw => if last < raw.sequence then raw.sequence else last) 0

def messageByID (server : Server) (topic messageID : String) : Except QueryError MessageItem :=
  if trimSpace topic = "" then .error .streamRequired
  else
    match parseUint (trimSpace messageID) with
    | none => .error (.notASequence messageID)
    | some sequence =>
      match server.stream topic with
      | none => .error (.noStream topic)
      | some stream =>
        match stream.messages.find? fun m => m.sequence = (sequence : Int) with
        | none => .error (.noMessage topic sequence)
        | some m => .ok (messageItem topic m m.sequence (m.timestamp / 1000000))

/-- What was collected, and whether the walk was still waiting for a message when its time was
over. -/
structure Page where
  items : List MessageItem
  waited : Bool

/-- The loop over `Next`, which waits where nothing is left to deliver. -/
def walk (params : MessageQueryParams) (streamName : String) (limit : Nat) (last : Int) :
    List MessageItem → List Delivery → Page
  | items, [] => ⟨items, items.length < limit⟩
  | items, delivery :: rest =>
    if limit ≤ items.length then ⟨items, false⟩
    else
      match delivery.metadata with
      | none => walk params streamName limit last items rest
      | some (sequence, timestamp) =>
        if pastEnd params timestamp then ⟨items, false⟩
        else
          let items :=
            if matchesHeader delivery.message params then
              items ++ [messageItem streamName delivery.message sequence (timestamp / 1000000)]
            else items
          if last ≤ sequence then ⟨items, false⟩ else walk params streamName limit last items rest

/-- The browse itself, of a stream that was found. -/
def browse (server : Server) (streamName : String) (stream : JetStream)
    (params : MessageQueryParams) : Except QueryError Page :=
  match browseConfig params with
  | .error error => .error error
  | .ok config =>
    if !server.accepts streamName config then .error (.consumerRefused streamName)
    else
      let last := lastMatching stream config.filterSubjects
      if last = 0 then .ok ⟨[], false⟩
      else .ok (walk params streamName (pageLimit params) last []
        ((stream.pending config).map deliver))

def queryMessages (server : Server) (params : MessageQueryParams) : Except QueryError Page :=
  let streamName := trimSpace params.topic
  let id := trimSpace params.messageID
  if streamName = "" then .error .streamRequired
  else if id ≠ "" then (messageByID server streamName id).map fun item => ⟨[item], false⟩
  else
    match server.stream streamName with
    | none => .error (.noStream streamName)
    | some stream => browse server streamName stream params

/-! ### What a browse is to return -/

/-- A browse that the server takes: the stream is there, the query names no message by its id and
is well formed, and the consumer is created. -/
structure Asks (server : Server) (params : MessageQueryParams) (stream : JetStream)
    (config : OrderedConsumerConfig) : Prop where
  named : trimSpace params.topic ≠ ""
  notByID : trimSpace params.messageID = ""
  found : server.stream (trimSpace params.topic) = some stream
  wellFormed : browseConfig params = .ok config
  accepted : server.accepts (trimSpace params.topic) config = true

/-- The first messages from the start position on that match and are not past the end. -/
def wanted (params : MessageQueryParams) (pending : List StoredMessage) : List MessageItem :=
  ((pending.filter fun m => matchesHeader m params && !pastEnd params m.timestamp).take
    (pageLimit params)).map fun m =>
      messageItem (trimSpace params.topic) m m.sequence (m.timestamp / 1000000)

/-- **A right answer**: it never waited, and returns exactly what is wanted. -/
structure Page.Right (page : Page) (params : MessageQueryParams) (pending : List StoredMessage) :
    Prop where
  prompt : page.waited = false
  exact : page.items = wanted params pending

/-- Something that is delivered ends the walk, or nothing can be: the last sequence of the stream,
or of its messages on the subjects, is among what is delivered, or a message past the end, or enough
messages. -/
inductive Ends (params : MessageQueryParams) (stream : JetStream)
    (config : OrderedConsumerConfig) : Prop
  | empty (h : config.filterSubjects = []) (hlast : stream.lastSeq = 0)
  | unmatched (h : config.filterSubjects ≠ [])
    (hnone : ∀ m ∈ stream.messages, onSubjects config.filterSubjects m = false)
  | lastKept (m : StoredMessage) (h : config.filterSubjects = []) (hm : m ∈ stream.pending config)
    (hlast : m.sequence = stream.lastSeq)
  | matched (h : config.filterSubjects ≠ []) (hne : stream.pending config ≠ [])
  | past (m : StoredMessage) (hm : m ∈ stream.pending config)
    (hpast : pastEnd params m.timestamp = true)
  | enough (h : pageLimit params ≤ ((stream.pending config).filter (matchesHeader · params)).length)

/-- What is delivered up to the first message past the end. -/
def upToEnd (params : MessageQueryParams) (pending : List StoredMessage) : List StoredMessage :=
  pending.takeWhile fun m => !pastEnd params m.timestamp

/-- The page is full before the first message past the end, or no message that is wanted comes
after it. -/
def InOrder (params : MessageQueryParams) (pending : List StoredMessage) : Prop :=
  pageLimit params ≤ ((upToEnd params pending).filter (matchesHeader · params)).length ∨
    ∀ m ∈ pending.dropWhile fun m => !pastEnd params m.timestamp,
      matchesHeader m params = true → pastEnd params m.timestamp = true

/-! ### The bound -/

/-- A message that is on one of the subjects. -/
theorem onSubjects_iff {filters : List String} (h : filters ≠ []) (m : StoredMessage) :
    onSubjects filters m = true ↔ ∃ subject ∈ filters, selects subject m.subject = true := by
  simp [onSubjects, h]

/-- The last message on a subject bounds those on it. -/
theorem le_of_lastMsgForSubject {stream : JetStream} {subject : String} {raw m : StoredMessage}
    (h : stream.lastMsgForSubject subject = some raw) (hm : m ∈ stream.messages)
    (hs : selects subject m.subject = true) : m.sequence ≤ raw.sequence := by
  have hmem : m ∈ stream.messages.filter fun m => selects subject m.subject :=
    List.mem_filter.mpr ⟨hm, hs⟩
  have hsorted := stream.ordered.sublist
    (List.filter_sublist (p := fun m => selects subject m.subject))
  obtain ⟨front, hfront⟩ := List.getLast?_eq_some_iff.mp h
  rw [hfront] at hmem hsorted
  rcases List.mem_append.mp hmem with hmem | hmem
  · exact ((List.pairwise_append.mp hsorted).2.2 m hmem raw (by simp)).le
  · rw [List.mem_singleton.mp hmem]

theorem mem_of_lastMsgForSubject {stream : JetStream} {subject : String} {raw : StoredMessage}
    (h : stream.lastMsgForSubject subject = some raw) :
    raw ∈ stream.messages ∧ selects subject raw.subject = true :=
  List.mem_filter.mp (List.mem_of_getLast? h)

theorem lastMsgForSubject_eq_none {stream : JetStream} {subject : String}
    (h : stream.lastMsgForSubject subject = none) :
    ∀ m ∈ stream.messages, selects subject m.subject = false := by
  intro m hm
  have hnil := List.getLast?_eq_none_iff.mp h
  rw [Bool.eq_false_iff]
  exact List.filter_eq_nil_iff.mp hnil m hm

/-- One subject of the loop of `lastMatching`. -/
def latest (stream : JetStream) (last : Int) (subject : String) : Int :=
  match stream.lastMsgForSubject subject with
  | none => last
  | some raw => if last < raw.sequence then raw.sequence else last

theorem latest_spec (stream : JetStream) (last : Int) (subject : String) :
    last ≤ latest stream last subject ∧
      (∀ m ∈ stream.messages, selects subject m.subject = true →
        m.sequence ≤ latest stream last subject) ∧
      (latest stream last subject = last ∨ ∃ m ∈ stream.messages,
        selects subject m.subject = true ∧ m.sequence = latest stream last subject) := by
  rw [latest]
  split
  case h_1 hnone =>
    refine ⟨le_rfl, fun m hm hs => ?_, .inl rfl⟩
    rw [lastMsgForSubject_eq_none hnone m hm] at hs
    exact absurd hs (by simp)
  case h_2 raw hsome =>
    obtain ⟨hmem, hselected⟩ := mem_of_lastMsgForSubject hsome
    have hle := fun m hm => le_of_lastMsgForSubject (m := m) hsome hm
    split
    case isTrue hlt => exact ⟨hlt.le, hle, .inr ⟨raw, hmem, hselected, rfl⟩⟩
    case isFalse hge => exact ⟨le_rfl, fun m hm hs => (hle m hm hs).trans (not_lt.mp hge), .inl rfl⟩

/-- The loop finds the highest sequence on any of the subjects. -/
theorem foldl_latest_spec (stream : JetStream) (filters : List String) (last : Int) :
    last ≤ filters.foldl (latest stream) last ∧
      (∀ m ∈ stream.messages, (∃ subject ∈ filters, selects subject m.subject = true) →
        m.sequence ≤ filters.foldl (latest stream) last) ∧
      (filters.foldl (latest stream) last = last ∨ ∃ m ∈ stream.messages,
        (∃ subject ∈ filters, selects subject m.subject = true) ∧
          m.sequence = filters.foldl (latest stream) last) := by
  induction filters generalizing last with
  | nil => simp
  | cons subject filters ih =>
    obtain ⟨hlow, hbound, hreach⟩ := latest_spec stream last subject
    obtain ⟨ihlow, ihbound, ihreach⟩ := ih (latest stream last subject)
    refine ⟨hlow.trans ihlow, ?_, ?_⟩
    · rintro m hm ⟨other, hother, hs⟩
      rcases List.mem_cons.mp hother with rfl | hother
      · exact (hbound m hm hs).trans ihlow
      · exact ihbound m hm ⟨other, hother, hs⟩
    · rcases ihreach with heq | ⟨m, hm, ⟨other, hother, hs⟩, heq⟩
      · rw [List.foldl_cons, heq]
        rcases hreach with hsame | ⟨m, hm, hs, hseq⟩
        · exact .inl hsame
        · exact .inr ⟨m, hm, ⟨subject, by simp, hs⟩, hseq⟩
      · exact .inr ⟨m, hm, ⟨other, by simp [hother], hs⟩, heq⟩

theorem lastMatching_eq_foldl {stream : JetStream} {filters : List String} (h : filters ≠ []) :
    lastMatching stream filters = filters.foldl (latest stream) 0 := by
  rw [lastMatching, if_neg h]
  rfl

/-- What is delivered is in the stream. -/
theorem startingAt_sublist (stream : JetStream) (policy : DeliverPolicy) :
    (stream.startingAt policy).Sublist stream.messages := by
  cases policy with
  | all => exact List.Sublist.refl _
  | byStartSequence sequence => exact List.filter_sublist
  | byStartTime start => exact List.dropWhile_sublist _

theorem pending_sublist (stream : JetStream) (config : OrderedConsumerConfig) :
    (stream.pending config).Sublist stream.messages :=
  List.filter_sublist.trans (startingAt_sublist stream config.deliverPolicy)

variable {stream : JetStream} {config : OrderedConsumerConfig} {m : StoredMessage}

theorem onSubjects_of_mem_pending (hm : m ∈ stream.pending config) :
    onSubjects config.filterSubjects m = true :=
  (List.mem_filter.mp hm).2

/-- Nothing that is delivered is past the bound. -/
theorem le_lastMatching (hm : m ∈ stream.pending config) :
    m.sequence ≤ lastMatching stream config.filterSubjects := by
  have hmem := (pending_sublist stream config).subset hm
  by_cases h : config.filterSubjects = []
  · rw [lastMatching, if_pos h]
    exact (stream.within m hmem).2
  · rw [lastMatching_eq_foldl h]
    exact (foldl_latest_spec stream config.filterSubjects 0).2.1 m hmem
      ((onSubjects_iff h m).mp (onSubjects_of_mem_pending hm))

/-- What comes after a delivered message in the stream is from the start position on as well. -/
theorem mem_startingAt {policy : DeliverPolicy} {p : StoredMessage}
    (hp : p ∈ stream.startingAt policy) (hm : m ∈ stream.messages)
    (hle : p.sequence ≤ m.sequence) : m ∈ stream.startingAt policy := by
  cases policy with
  | all => exact hm
  | byStartSequence sequence =>
    have hfrom : (sequence : Int) ≤ p.sequence := by simpa using (List.mem_filter.mp hp).2
    exact List.mem_filter.mpr ⟨hm, by simpa using hfrom.trans hle⟩
  | byStartTime start =>
    have hsplit := List.takeWhile_append_dropWhile
      (p := fun m : StoredMessage => m.timestamp < start) (l := stream.messages)
    rw [← hsplit] at hm
    rcases List.mem_append.mp hm with hm | hm
    · have hordered := stream.ordered
      rw [← hsplit] at hordered
      exact absurd ((List.pairwise_append.mp hordered).2.2 m hm p hp) (not_lt.mpr hle)
    · exact hm

/-- The last message on the subjects, where there is one. -/
theorem exists_lastMatching (h : config.filterSubjects ≠ []) (hm : m ∈ stream.messages)
    (hon : onSubjects config.filterSubjects m = true) :
    ∃ l ∈ stream.messages, onSubjects config.filterSubjects l = true ∧
      l.sequence = lastMatching stream config.filterSubjects := by
  obtain ⟨-, hbound, hreach⟩ := foldl_latest_spec stream config.filterSubjects 0
  rw [← lastMatching_eq_foldl h] at hbound hreach
  rcases hreach with hzero | ⟨l, hl, hselected, hseq⟩
  · have hle := hbound m hm ((onSubjects_iff h m).mp hon)
    have hpos := (stream.within m hm).1
    omega
  · exact ⟨l, hl, (onSubjects_iff h l).mpr hselected, hseq⟩

/-- Where something on the subjects is delivered, the last message on them is. -/
theorem exists_last_of_mem_pending (h : config.filterSubjects ≠ [])
    (hm : m ∈ stream.pending config) :
    ∃ l ∈ stream.pending config, l.sequence = lastMatching stream config.filterSubjects := by
  have hstart := (List.mem_filter.mp hm).1
  have hmem := (pending_sublist stream config).subset hm
  obtain ⟨l, hl, hon, hseq⟩ := exists_lastMatching h hmem (onSubjects_of_mem_pending hm)
  have hle : m.sequence ≤ l.sequence := hseq ▸ le_lastMatching hm
  exact ⟨l, List.mem_filter.mpr ⟨mem_startingAt hstart hl hle, hon⟩, hseq⟩

/-- A browse without a bound has nothing to deliver. -/
theorem lastMatching_eq_zero_iff (stream : JetStream) (config : OrderedConsumerConfig) :
    lastMatching stream config.filterSubjects = 0 ↔
      (config.filterSubjects = [] ∧ stream.lastSeq = 0) ∨
        (config.filterSubjects ≠ [] ∧
          ∀ m ∈ stream.messages, onSubjects config.filterSubjects m = false) := by
  by_cases h : config.filterSubjects = []
  · simp [lastMatching, h]
  · have hspec := foldl_latest_spec stream config.filterSubjects 0
    rw [← lastMatching_eq_foldl h] at hspec
    constructor
    · intro hzero
      refine .inr ⟨h, fun m hm => Bool.eq_false_iff.mpr fun hon => ?_⟩
      have hle := hspec.2.1 m hm ((onSubjects_iff h m).mp hon)
      have hpos := (stream.within m hm).1
      omega
    · rintro (⟨hnil, -⟩ | ⟨-, hnone⟩)
      · exact absurd hnil h
      · rcases hspec.2.2 with hzero | ⟨l, hl, hselected, -⟩
        · exact hzero
        · rw [← onSubjects_iff h, hnone l hl] at hselected
          exact absurd hselected (by simp)

/-! ### The walk -/

variable {params : MessageQueryParams} {streamName : String} {limit : Nat} {last : Int}
  {items : List MessageItem} {pending : List StoredMessage}

/-- What the walk collects: it ends early only where nothing more is to come. -/
theorem walk_items (hsorted : pending.Pairwise fun m n => m.sequence < n.sequence)
    (hlast : ∀ m ∈ pending, m.sequence ≤ last) (hroom : items.length ≤ limit) :
    (walk params streamName limit last items (pending.map deliver)).items = items ++
      (((upToEnd params pending).filter (matchesHeader · params)).take
        (limit - items.length)).map fun m =>
          messageItem streamName m m.sequence (m.timestamp / 1000000) := by
  induction pending generalizing items with
  | nil => simp [walk, upToEnd]
  | cons m pending ih =>
    obtain ⟨hfirst, hsorted⟩ := List.pairwise_cons.mp hsorted
    have hrest : ∀ m ∈ pending, m.sequence ≤ last := fun m hm => hlast m (by simp [hm])
    have hend : last ≤ m.sequence → pending = [] := by
      intro hge
      refine List.eq_nil_iff_forall_not_mem.mpr fun n hn => ?_
      exact absurd (hfirst n hn) (not_lt.mpr ((hrest n hn).trans hge))
    rw [List.map_cons, walk]
    split
    case isTrue hfull =>
      have hzero : limit - items.length = 0 := by omega
      simp [hzero]
    case isFalse hopen =>
      simp only [deliver]
      by_cases hpast : pastEnd params m.timestamp = true
      · simp [hpast, upToEnd]
      · have hup : upToEnd params (m :: pending) = m :: upToEnd params pending := by
          simp [upToEnd, hpast]
        have hmore : limit - items.length = (limit - (items.length + 1)) + 1 := by omega
        simp only [hpast, Bool.false_eq_true, if_false]
        rw [hup]
        by_cases hkeep : matchesHeader m params = true
        · simp only [hkeep, if_true, List.filter_cons_of_pos]
          split
          case isTrue hge => simp [hend hge, upToEnd, hmore]
          case isFalse =>
            rw [ih hsorted hrest (by simp; omega), hmore, List.take_succ_cons]
            simp
        · simp only [hkeep, Bool.false_eq_true, if_false]
          have hskip : (m :: upToEnd params pending).filter (matchesHeader · params) =
              (upToEnd params pending).filter (matchesHeader · params) := by simp [hkeep]
          rw [hskip]
          split
          case isTrue hge => simp [hend hge, upToEnd]
          case isFalse => exact ih hsorted hrest hroom

/-- The walk waits exactly if nothing that is delivered ends it. -/
theorem walk_waited_iff :
    (walk params streamName limit last items (pending.map deliver)).waited = true ↔
      items.length + (pending.filter (matchesHeader · params)).length < limit ∧
        ∀ m ∈ pending, pastEnd params m.timestamp = false ∧ m.sequence < last := by
  induction pending generalizing items with
  | nil => simp [walk]
  | cons m pending ih =>
    rw [List.map_cons, walk]
    split
    case isTrue hfull =>
      simp only [Bool.false_eq_true, false_iff]
      intro h
      have := h.1
      omega
    case isFalse hopen =>
      simp only [deliver]
      by_cases hpast : pastEnd params m.timestamp = true
      · simp [hpast]
      · simp only [hpast, Bool.false_eq_true, if_false]
        by_cases hge : last ≤ m.sequence
        · have hnot : ¬ m.sequence < last := not_lt.mpr hge
          simp [hge, hnot]
        · have hlt : m.sequence < last := not_le.mp hge
          by_cases hkeep : matchesHeader m params = true
          · simp only [hkeep, if_true, hge, if_false]
            rw [ih]
            simp [hpast, hlt, hkeep, Nat.add_assoc, Nat.add_comm 1]
          · simp only [hkeep, Bool.false_eq_true, if_false, hge]
            rw [ih]
            simp [hpast, hlt, hkeep]

/-! ### When a browse is right -/

/-- The bound ends the walk exactly if something that is delivered reaches it. -/
theorem ends_iff (hlast : lastMatching stream config.filterSubjects ≠ 0) :
    Ends params stream config ↔
      pageLimit params ≤ ((stream.pending config).filter (matchesHeader · params)).length ∨
        ∃ m ∈ stream.pending config, pastEnd params m.timestamp = true ∨
          lastMatching stream config.filterSubjects ≤ m.sequence := by
  rw [ne_eq, lastMatching_eq_zero_iff, not_or] at hlast
  constructor
  · intro h
    cases h with
    | empty h hzero => exact absurd ⟨h, hzero⟩ hlast.1
    | unmatched h hnone => exact absurd ⟨h, hnone⟩ hlast.2
    | lastKept m h hm hseq =>
      have hbound : lastMatching stream config.filterSubjects = m.sequence := by
        rw [lastMatching, if_pos h, hseq]
      exact .inr ⟨m, hm, .inr hbound.le⟩
    | matched h hne =>
      obtain ⟨m, hm⟩ := List.exists_mem_of_ne_nil _ hne
      obtain ⟨l, hl, hseq⟩ := exists_last_of_mem_pending h hm
      exact .inr ⟨l, hl, .inr hseq.ge⟩
    | past m hm hpast => exact .inr ⟨m, hm, .inl hpast⟩
    | enough h => exact .inl h
  · rintro (h | ⟨m, hm, hpast | hge⟩)
    · exact .enough h
    · exact .past m hm hpast
    · by_cases h : config.filterSubjects = []
      · refine .lastKept m h hm (le_antisymm ?_ ?_)
        · exact (stream.within m ((pending_sublist stream config).subset hm)).2
        · rwa [lastMatching, if_pos h] at hge
      · exact .matched h (List.ne_nil_of_mem hm)

/-- What is wanted is what comes before the end, and what is left for after it. -/
theorem wanted_eq (params : MessageQueryParams) (pending : List StoredMessage) :
    wanted params pending = (((upToEnd params pending).filter (matchesHeader · params) ++
      (pending.dropWhile fun m => !pastEnd params m.timestamp).filter fun m =>
        matchesHeader m params && !pastEnd params m.timestamp).take (pageLimit params)).map
          fun m => messageItem (trimSpace params.topic) m m.sequence (m.timestamp / 1000000) := by
  have hup : (upToEnd params pending).filter (fun m => matchesHeader m params &&
      !pastEnd params m.timestamp) = (upToEnd params pending).filter (matchesHeader · params) := by
    refine List.filter_congr fun m hm => ?_
    rw [List.mem_takeWhile_imp hm, Bool.and_true]
  rw [wanted, ← hup, ← List.filter_append, upToEnd, List.takeWhile_append_dropWhile]

/-- The messages before the end fill the page as it is wanted exactly if nothing is left after
them. -/
theorem collected_eq_wanted_iff (params : MessageQueryParams) (pending : List StoredMessage) :
    (((upToEnd params pending).filter (matchesHeader · params)).take (pageLimit params)).map
        (fun m => messageItem (trimSpace params.topic) m m.sequence (m.timestamp / 1000000)) =
      wanted params pending ↔ InOrder params pending := by
  rw [wanted_eq, InOrder]
  generalize (upToEnd params pending).filter (matchesHeader · params) = before
  constructor
  · intro h
    have hlen := congrArg List.length h
    simp only [List.length_map, List.length_take, List.length_append] at hlen
    by_cases hfull : pageLimit params ≤ before.length
    · exact .inl hfull
    · refine .inr fun m hm hkeep => ?_
      have hnone : ((pending.dropWhile fun m => !pastEnd params m.timestamp).filter fun m =>
          matchesHeader m params && !pastEnd params m.timestamp) = [] :=
        List.length_eq_zero_iff.mp (by omega)
      simpa [hkeep] using List.filter_eq_nil_iff.mp hnone m hm
  · rintro (hfull | hnone)
    · rw [List.take_append_of_le_length hfull]
    · have hnil : ((pending.dropWhile fun m => !pastEnd params m.timestamp).filter fun m =>
          matchesHeader m params && !pastEnd params m.timestamp) = [] := by
        refine List.filter_eq_nil_iff.mpr fun m hm hboth => ?_
        obtain ⟨hkeep, hin⟩ := (Bool.and_eq_true _ _).mp hboth
        rw [hnone m hm hkeep] at hin
        exact absurd hin (by simp)
      rw [hnil, List.append_nil]

/-- Where the times of the stream are in order, what is delivered is. -/
theorem inOrder_of_timed (params : MessageQueryParams)
    (h : pending.Pairwise fun m n => m.timestamp ≤ n.timestamp) : InOrder params pending := by
  refine .inr fun m hm _ => ?_
  have hsuffix := h.sublist (List.dropWhile_sublist fun m => !pastEnd params m.timestamp)
  have hfirst := List.head?_dropWhile_not (fun m => !pastEnd params m.timestamp) pending
  generalize pending.dropWhile (fun m => !pastEnd params m.timestamp) = rest at *
  cases rest with
  | nil => exact absurd hm (by simp)
  | cons first rest =>
    have hpast : pastEnd params first.timestamp = true := by simpa using hfirst
    rcases List.mem_cons.mp hm with rfl | hm
    · exact hpast
    · have hle := (List.pairwise_cons.mp hsuffix).1 m hm
      rw [pastEnd, Option.any_eq_true] at hpast ⊢
      obtain ⟨far, hfar, hlt⟩ := hpast
      exact ⟨far, hfar, by simp at hlt ⊢; omega⟩

theorem browse_eq {server : Server} (h : Asks server params stream config) :
    queryMessages server params =
      if lastMatching stream config.filterSubjects = 0 then .ok ⟨[], false⟩
      else .ok (walk params (trimSpace params.topic) (pageLimit params)
        (lastMatching stream config.filterSubjects) [] ((stream.pending config).map deliver)) := by
  have hid : ¬ trimSpace params.messageID ≠ "" := not_not.mpr h.notByID
  simp only [queryMessages, if_neg h.named, if_neg hid, h.found, browse, h.wellFormed, h.accepted]
  simp

/-- **When a NATS browse is right**: exactly if something that is delivered ends the walk. -/
theorem browse_right_iff {server : Server} (h : Asks server params stream config) :
    ∃ page, queryMessages server params = .ok page ∧
      (page.Right params (stream.pending config) ↔
        Ends params stream config ∧ InOrder params (stream.pending config)) := by
  rw [browse_eq h]
  by_cases hlast : lastMatching stream config.filterSubjects = 0
  · rw [if_pos hlast]
    refine ⟨_, rfl, ?_⟩
    have hnil : stream.pending config = [] := by
      refine List.eq_nil_iff_forall_not_mem.mpr fun m hm => ?_
      have hle := le_lastMatching hm
      have hpos := (stream.within m ((pending_sublist stream config).subset hm)).1
      omega
    have hends : Ends params stream config := by
      rcases (lastMatching_eq_zero_iff stream config).mp hlast with ⟨hsub, hzero⟩ | ⟨hsub, hnone⟩
      · exact .empty hsub hzero
      · exact .unmatched hsub hnone
    rw [hnil]
    refine ⟨fun _ => ⟨hends, .inr (by simp)⟩, fun _ => ⟨rfl, by simp [wanted]⟩⟩
  · rw [if_neg hlast]
    refine ⟨_, rfl, ?_⟩
    have hsorted := stream.ordered.sublist (pending_sublist stream config)
    generalize hpage : walk params (trimSpace params.topic) (pageLimit params)
      (lastMatching stream config.filterSubjects) [] ((stream.pending config).map deliver) = page
    have hitems : page.items = wanted params (stream.pending config) ↔
        InOrder params (stream.pending config) := by
      rw [← hpage, walk_items hsorted (fun m hm => le_lastMatching hm) (Nat.zero_le _)]
      exact collected_eq_wanted_iff params (stream.pending config)
    have hprompt : page.waited = false ↔ Ends params stream config := by
      rw [ends_iff hlast, ← Bool.not_eq_true, ← hpage, walk_waited_iff, not_and_or]
      simp [or_iff_not_imp_left]
    exact ⟨fun h => ⟨hprompt.mp h.prompt, hitems.mp h.exact⟩,
      fun h => ⟨hprompt.mpr h.1, hitems.mpr h.2⟩⟩

/-! ### A deleted last message -/

/-- A stream whose last message was deleted. -/
def trimmedStream : JetStream where
  messages := [⟨1, "orders.new", ∅, "a", 1000000⟩]
  lastSeq := 2
  ordered := by simp
  within := by simp

def trimmedServer : Server := ⟨fun name => if name = "ORDERS" then some trimmedStream else none,
  fun _ _ => true⟩

/-- A browse with no filter at all, and one by subject. -/
def plainQuery : MessageQueryParams := ⟨"ORDERS", "", 0, 0, 50, ∅⟩
def subjectQuery : MessageQueryParams := ⟨"ORDERS", "", 0, 0, 50, .ofList [("subject", "orders.>")]⟩

theorem asks_subject : Asks trimmedServer subjectQuery trimmedStream ⟨.all, ["orders.>"]⟩ where
  named := by decide
  notByID := by decide
  found := by
    have htopic : trimSpace subjectQuery.topic = "ORDERS" := by decide
    rw [htopic]
    rfl
  wellFormed := by
    have hsubjects : splitSubjects (subjectQuery.filter FilterSubject) = ["orders.>"] := by
      decide
    have hvalid : ["orders.>"].findSome? validateSubject = none := by decide
    have hstart : trimSpace (subjectQuery.filter FilterStartSeq) = "" := by decide
    rw [browseConfig, hsubjects]
    simp only [hvalid, startPolicy, hstart]
    rfl
  accepted := rfl

theorem orders_selects : selects "orders.>" "orders.new" = true := by
  have hpieces : pieces "orders.>" = [.word "orders".toList, .one, .many] := by decide
  have htokens : "orders.new".toList.splitOnP (· = '.') = ["orders".toList, "new".toList] := by
    decide
  rw [selects, hpieces, htokens]
  exact (fits_iff _ _).mpr (.word _ (.one _ (match_rest [])))

theorem subject_browse_right : ∃ page, queryMessages trimmedServer subjectQuery = .ok page ∧
    page.Right subjectQuery (trimmedStream.pending ⟨.all, ["orders.>"]⟩) := by
  obtain ⟨page, hpage, hright⟩ := browse_right_iff asks_subject
  have htimed : (trimmedStream.pending ⟨.all, ["orders.>"]⟩).Pairwise fun m n =>
      m.timestamp ≤ n.timestamp :=
    (List.pairwise_singleton _ _).sublist (pending_sublist trimmedStream ⟨.all, ["orders.>"]⟩)
  refine ⟨page, hpage, hright.mpr ⟨.matched (by simp) ?_, inOrder_of_timed _ htimed⟩⟩
  exact List.ne_nil_of_mem (List.mem_filter.mpr ⟨List.mem_singleton.mpr rfl,
    (onSubjects_iff (by simp) _).mpr ⟨"orders.>", by simp, orders_selects⟩⟩)

theorem asks_plain : Asks trimmedServer plainQuery trimmedStream ⟨.all, []⟩ where
  named := by decide
  notByID := by decide
  found := by
    have htopic : trimSpace plainQuery.topic = "ORDERS" := by decide
    rw [htopic]
    rfl
  wellFormed := by
    have hsubjects : splitSubjects (plainQuery.filter FilterSubject) = [] := by decide
    have hstart : trimSpace (plainQuery.filter FilterStartSeq) = "" := by decide
    rw [browseConfig, hsubjects]
    simp only [List.findSome?_nil, startPolicy, hstart]
    rfl
  accepted := rfl

/-- The browse that asks for everything waits for the message that was deleted. -/
theorem deleted_last_waits : ¬ ∀ server params stream config, Asks server params stream config →
    ∃ page, queryMessages server params = .ok page ∧
      page.Right params (stream.pending config) := by
  intro h
  obtain ⟨page, hpage, hright⟩ := h trimmedServer plainQuery trimmedStream ⟨.all, []⟩ asks_plain
  have hrun : (queryMessages trimmedServer plainQuery).toOption.map (·.waited) = some true := by
    decide
  simp [hpage, Except.toOption, hright.prompt] at hrun

end MqStudio.Nats.Browse
