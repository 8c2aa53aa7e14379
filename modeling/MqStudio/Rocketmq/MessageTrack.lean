import MqStudio.Lib.Json.Decode
import MqStudio.Lib.Strconv
import MqStudio.Lib.Words

/-!
# Tracking the consumption of a RocketMQ message

`rocketmq/message_matching.go` and `message_tracking.go`: the offsets that a consumer group
committed come under keys that spell a queue in one of three ways, and the first one that matches
the message's queue decides whether the message counts as consumed.

* `Spells`: the three spellings of a queue.
* `matchesMessageQueueKey`, `populateTrack`: the matching, and what is reported.
* `matches_iff`: which spelled queues the matching takes for the message's own.
* `tracks_iff`: the report is right in every order of the table exactly if no other queue that is
  taken for the message's own makes a difference.
-/

namespace MqStudio.Rocketmq.MessageTrack

open Lib.Json Lib.Text

/-! ### Queues and their spellings -/

/-- The characters of names: none that a spelling uses as punctuation. -/
def isPlain (c : Char) : Bool := !Lib.Text.isSpace c && c ∉ ['{', '=', ',', ']']

/-- The name of a topic or of a broker. -/
structure IsName (name : String) : Prop where
  named : name ≠ ""
  plain : ∀ c ∈ name.toList, isPlain c = true

structure MessageQueue where
  topic : String
  brokerName : String
  queueId : Int
  isTopic : IsName topic
  isBroker : IsName brokerName
  fits : 0 ≤ queueId ∧ queueId < 2 ^ 31

/-- The dashed spelling. -/
def dashed (topic brokerName : String) (queueId : Int) : String :=
  topic ++ "-" ++ brokerName ++ "-" ++ toString queueId

/-- Java's `toString`. -/
def javaText (queue : MessageQueue) : String :=
  "MessageQueue [topic=" ++ queue.topic ++ ", brokerName=" ++ queue.brokerName ++ ", queueId=" ++
    toString queue.queueId ++ "]"

/-- The members of the JSON spelling, in any order. -/
def jsonMembers (queue : MessageQueue) : List (String × Value) :=
  [("topic", .string queue.topic), ("brokerName", .string queue.brokerName),
    ("queueId", ofInt queue.queueId)]

inductive Spelling where
  | json
  | java
  | dashed
deriving DecidableEq

/-- A key spells a queue. -/
def Spells (queue : MessageQueue) (key : String) : Spelling → Prop
  | .json => ∃ members, parse key = some (.object members) ∧ members.Perm (jsonMembers queue)
  | .java => key = javaText queue
  | .dashed => key = dashed queue.topic queue.brokerName queue.queueId

/-! ### The matching -/

/-- What a JSON key is read into. -/
structure QueueKey where
  topic : String
  brokerName : String
  queueId : Int

def queueKeyFields : List (Member QueueKey) :=
  [.of "topic" .string decodeString (·.topic) (fun k v => { k with topic := v }),
    .of "brokerName" .string decodeString (·.brokerName) (fun k v => { k with brokerName := v }),
    .of "queueId" ofInt decodeInt (·.queueId) (fun k v => { k with queueId := v })]

/-- `json.Unmarshal` of a key, where it reports no error. -/
def unmarshalKey (key : String) : Option QueueKey :=
  match parse key with
  | none => none
  | some v =>
    let read := decodeStruct queueKeyFields ⟨"", "", 0⟩ v
    if read.2 then some read.1 else none

/-- What follows the first occurrence of a marker: `strings.Index` and a slice. -/
def afterFirst (marker : List Char) : List Char → Option (List Char)
  | [] => if marker = [] then some [] else none
  | c :: cs =>
    if marker <+: c :: cs then some ((c :: cs).drop marker.length) else afterFirst marker cs

def extractQueueKeyField (key field : String) : String :=
  match afterFirst (field ++ "=").toList key.toList with
  | none => ""
  | some value =>
    trimSpace (String.ofList (value.takeWhile fun c => !(c = ',' || c = ']')))

/-- `strings.HasSuffix`. -/
def hasSuffix (s p : String) : Bool := decide (p.toList <:+ s.toList)

def matchesMessageQueueKey (key topic brokerName : String) (queueID : Int) : Bool :=
  match (unmarshalKey key).filter (·.topic ≠ "") with
  | some parsed =>
    parsed.topic = topic && parsed.queueId = queueID &&
      (brokerName = "" || parsed.brokerName = brokerName)
  | none =>
    if (afterFirst "topic=".toList key.toList).isSome then
      extractQueueKeyField key "topic" = topic &&
        extractQueueKeyField key "queueId" = toString queueID &&
        (brokerName = "" || extractQueueKeyField key "brokerName" = brokerName)
    else if brokerName = "" then
      hasPrefix key (topic ++ "-") && hasSuffix key ("-" ++ toString queueID)
    else key = dashed topic brokerName queueID

/-! ### The report -/

/-- A message; its broker is blank where it could not be resolved. -/
structure MessageExt where
  topic : String
  brokerName : String
  queueId : Int
  queueOffset : Int

structure MessageTrackItem where
  consumerGroup : String
  trackType : String
  consumeStatus : String
  exceptionDesc : String

/-- The offsets of a group, in the order of one iteration: the offset that is committed under a key,
where there is one. -/
abbrev OffsetTable := List (String × Option Int)

/-- The first entry that is taken for the message's queue. -/
def targetEntry (table : OffsetTable) (message : MessageExt) : Option (String × Option Int) :=
  table.find? fun entry => entry.2.isSome &&
    matchesMessageQueueKey entry.1 message.topic message.brokerName message.queueId

/-- Fills a track in, from the answer about the group. -/
def populateTrack (stats : Except String OffsetTable) (message : MessageExt)
    (track : MessageTrackItem) : Except String MessageTrackItem :=
  match stats with
  | .error err => .error err
  | .ok table =>
    match (targetEntry table message).bind (·.2) with
    | none =>
      .ok { track with trackType := "NOT_CONSUME_YET", consumeStatus := "未找到该消息队列的消费位点" }
    | some consumerOffset =>
      if message.queueOffset < consumerOffset then
        .ok { track with trackType := "CONSUMED", consumeStatus := "已消费" }
      else .ok { track with trackType := "NOT_CONSUME_YET", consumeStatus := "未消费" }

/-! ### The JSON spelling -/

theorem decodeMember_topic (k : QueueKey) (topic : String) :
    decodeMember queueKeyFields k ("topic", .string topic) = ({ k with topic := topic }, true) :=
  rfl

theorem decodeMember_brokerName (k : QueueKey) (brokerName : String) :
    decodeMember queueKeyFields k ("brokerName", .string brokerName) =
      ({ k with brokerName := brokerName }, true) :=
  rfl

theorem decodeMember_queueId (k : QueueKey) {i : Int} (h : 0 ≤ i ∧ i < 2 ^ 31) :
    decodeMember queueKeyFields k ("queueId", ofInt i) = ({ k with queueId := i }, true) := by
  have hint : decodeInt k.queueId (ofInt i) = (i, true) := decodeInt_ofInt _ (by omega)
  show ({ k with queueId := (decodeInt k.queueId (ofInt i)).1 },
    (decodeInt k.queueId (ofInt i)).2) = _
  rw [hint]

variable {queue : MessageQueue} {key : String}

/-- A key in the JSON spelling is read into its queue, whatever the order of its members. -/
theorem unmarshalKey_json (h : Spells queue key .json) :
    unmarshalKey key = some ⟨queue.topic, queue.brokerName, queue.queueId⟩ := by
  obtain ⟨members, hparse, hperm⟩ := h
  have hmem := List.mem_permutations.mpr hperm
  simp only [jsonMembers, List.permutations, List.permutationsAux, List.permutationsAux.rec,
    List.permutationsAux2, List.mem_cons, List.not_mem_nil, id, List.foldr_cons, List.foldr_nil,
    or_false] at hmem
  have hread : decodeStruct queueKeyFields ⟨"", "", 0⟩ (.object members) =
      (⟨queue.topic, queue.brokerName, queue.queueId⟩, true) := by
    rcases hmem with rfl | rfl | rfl | rfl | rfl | rfl <;>
      simp [decodeStruct, decodeAll, decodeMember_topic, decodeMember_brokerName,
        decodeMember_queueId _ queue.fits]
  rw [unmarshalKey, hparse]
  simp [hread]

/-- The text of an object has a brace. -/
theorem brace_of_parse_object {text : String} {members : List (String × Value)}
    (h : parse text = some (.object members)) : '{' ∈ text.toList := by
  rw [parse] at h
  split at h
  · exact absurd h (by simp)
  · rename_i v r hvalue
    split at h
    · obtain rfl := Option.some.inj h
      rw [value] at hvalue
      split at hvalue
      · exact absurd hvalue (by simp)
      · rename_i c cs hskip
        have hmem : c ∈ text.toList := by
          refine (List.dropWhile_sublist (p := Lib.Json.isSpace)).subset ?_
          have hc : c ∈ skipSpace text.toList := by simp [hskip]
          exact hc
        split at hvalue
        · simp at hvalue
        · split at hvalue
          · split at hvalue <;> simp at hvalue
          · split at hvalue
            case isTrue hbrace => exact hbrace ▸ hmem
            case isFalse =>
              rw [scalar] at hvalue
              repeat' split at hvalue
              all_goals simp at hvalue
    · exact absurd h (by simp)

/-- A key without a brace names no topic to `json.Unmarshal`. -/
theorem unmarshalKey_of_no_brace (h : '{' ∉ key.toList) :
    (unmarshalKey key).filter (·.topic ≠ "") = none := by
  rw [unmarshalKey]
  split
  · rfl
  · rename_i v hparse
    cases v with
    | object members => exact absurd (brace_of_parse_object hparse) h
    | null => simp [decodeStruct]
    | bool | number | string | array => simp [decodeStruct]

/-! ### The other spellings -/

/-- Where a marker stands at the first `=`, what follows it is found. -/
theorem afterFirst_hit {name front : List Char} (hname : '=' ∉ name) (hfront : '=' ∉ front)
    (rest : List Char) :
    afterFirst (name ++ ['=']) (front ++ (name ++ '=' :: rest)) = some rest := by
  induction front with
  | nil =>
    have hpre : name ++ ['='] <+: name ++ '=' :: rest := ⟨rest, by simp⟩
    rw [List.nil_append]
    cases hcase : name ++ '=' :: rest with
    | nil => simp at hcase
    | cons c cs =>
      rw [hcase] at hpre
      rw [afterFirst, if_pos hpre, ← hcase]
      simp
  | cons c front ih =>
    have hrest : '=' ∉ front := fun hm => hfront (List.mem_cons_of_mem _ hm)
    rw [List.cons_append, afterFirst, if_neg, ih hrest]
    rintro ⟨u, hu⟩
    have hleft : cut '=' (name ++ '=' :: u) = some (name, u) := cut_append hname u
    have hright : cut '=' ((c :: front ++ name) ++ '=' :: rest) = some (c :: front ++ name, rest) :=
      cut_append (by simp only [List.mem_append, not_or]; exact ⟨hfront, hname⟩) rest
    have hsame : name ++ '=' :: u = (c :: front ++ name) ++ '=' :: rest := by simpa using hu
    rw [hsame, hright] at hleft
    have hlength := congrArg List.length (congrArg Prod.fst (Option.some.inj hleft))
    simp at hlength
    omega

/-- A `=` with something else in front of it is passed over. -/
theorem afterFirst_skip {name front : List Char} (hname : '=' ∉ name) (hfront : '=' ∉ front)
    (hnot : ¬ name <:+ front) (rest : List Char) :
    afterFirst (name ++ ['=']) (front ++ '=' :: rest) = afterFirst (name ++ ['=']) rest := by
  induction front with
  | nil =>
    rw [List.nil_append, afterFirst, if_neg]
    rintro ⟨u, hu⟩
    cases name with
    | nil => exact hnot (List.suffix_refl [])
    | cons n ns =>
      rw [List.cons_append, List.cons_append] at hu
      exact hname (by rw [(List.cons.inj hu).1]; exact List.mem_cons_self)
  | cons c front ih =>
    have hrest : '=' ∉ front := fun hm => hfront (List.mem_cons_of_mem _ hm)
    rw [List.cons_append, afterFirst, if_neg,
      ih hrest fun hs => hnot (hs.trans (List.suffix_cons c front))]
    rintro ⟨u, hu⟩
    have hleft : cut '=' (name ++ '=' :: u) = some (name, u) := cut_append hname u
    have hright : cut '=' ((c :: front) ++ '=' :: rest) = some (c :: front, rest) :=
      cut_append hfront rest
    have hsame : name ++ '=' :: u = (c :: front) ++ '=' :: rest := by simpa using hu
    rw [hsame, hright] at hleft
    have hname : c :: front = name := congrArg Prod.fst (Option.some.inj hleft)
    exact hnot (hname ▸ List.suffix_refl (c :: front))

/-- What a field may hold. -/
def IsField (cs : List Char) : Prop :=
  ∀ c ∈ cs, c ≠ '=' ∧ c ≠ ',' ∧ c ≠ ']' ∧ c ≠ '{' ∧ Lib.Text.isSpace c = false

theorem IsName.isField {name : String} (h : IsName name) : IsField name.toList := by
  intro c hc
  have hplain := h.plain c hc
  simp only [isPlain, Bool.and_eq_true, Bool.not_eq_true', decide_eq_true_eq, List.mem_cons,
    List.not_mem_nil, or_false, not_or] at hplain
  exact ⟨hplain.2.2.1, hplain.2.2.2.1, hplain.2.2.2.2, hplain.2.1, hplain.1⟩

theorem isField_queueId (queue : MessageQueue) : IsField (toString queue.queueId).toList := by
  intro c hc
  have hdigit : c.isDigit = true := by
    by_contra hnot
    exact Lib.Strconv.notMem_toString (by simpa using hnot) queue.fits.1 hc
  refine ⟨?_, ?_, ?_, ?_, not_isSpace_of_isDigit hdigit⟩ <;>
    · rintro rfl
      exact absurd hdigit (by decide)

theorem IsField.no_equals {cs : List Char} (h : IsField cs) : '=' ∉ cs := fun hm => (h _ hm).1 rfl

/-- A field ends at a comma or a bracket. -/
theorem field_value {s : String} (h : IsField s.toList) {stop : Char}
    (hstop : stop = ',' ∨ stop = ']') (rest : List Char) : trimSpace (String.ofList
      ((s.toList ++ stop :: rest).takeWhile fun c => !(c = ',' || c = ']'))) = s := by
  have hall : ∀ c ∈ s.toList, (!(decide (c = ',') || decide (c = ']'))) = true := by
    intro c hc
    simp [(h c hc).2.1, (h c hc).2.2.1]
  have hend : (!(decide (stop = ',') || decide (stop = ']'))) = false := by
    rcases hstop with rfl | rfl <;> rfl
  rw [List.takeWhile_append_of_pos hall, List.takeWhile_cons_of_neg (by simp [hend]),
    List.append_nil, String.ofList_toList]
  exact trimSpace_eq_self fun c hc => (h c hc).2.2.2.2

/-- What follows the topic in the Java spelling. -/
def afterTopic (queue : MessageQueue) : List Char :=
  queue.topic.toList ++ (", brokerName".toList ++ '=' :: (queue.brokerName.toList ++
    (", queueId".toList ++ '=' :: ((toString queue.queueId).toList ++ [']']))))

theorem toList_spelled (topic brokerName queueId : String) :
    ("MessageQueue [topic=" ++ topic ++ ", brokerName=" ++ brokerName ++ ", queueId=" ++ queueId ++
      "]").toList = "MessageQueue [topic".toList ++ '=' :: (topic.toList ++
        (", brokerName".toList ++ '=' :: (brokerName.toList ++
          (", queueId".toList ++ '=' :: (queueId.toList ++ [']']))))) := by
  have htopic : "MessageQueue [topic=".toList = "MessageQueue [topic".toList ++ ['='] := by
    decide
  have hbroker : ", brokerName=".toList = ", brokerName".toList ++ ['='] := by decide
  have hid : ", queueId=".toList = ", queueId".toList ++ ['='] := by decide
  have hend : "]".toList = [']'] := by decide
  simp only [String.toList_append, List.append_assoc]
  rw [htopic, hbroker, hid, hend]
  simp only [List.append_assoc, List.cons_append, List.nil_append]

theorem toList_javaText (queue : MessageQueue) :
    (javaText queue).toList = "MessageQueue [topic".toList ++ '=' :: afterTopic queue :=
  toList_spelled queue.topic queue.brokerName (toString queue.queueId)

theorem marker_eq (field : String) : (field ++ "=").toList = field.toList ++ ['='] := by
  rw [String.toList_append]
  rfl

theorem afterFirst_topic (queue : MessageQueue) :
    afterFirst ("topic" ++ "=").toList (javaText queue).toList = some (afterTopic queue) := by
  have hsplit : "MessageQueue [topic".toList = "MessageQueue [".toList ++ "topic".toList := by
    decide
  rw [marker_eq, toList_javaText, hsplit, List.append_assoc]
  exact afterFirst_hit (by decide) (by decide) _

theorem extract_topic (queue : MessageQueue) :
    extractQueueKeyField (javaText queue) "topic" = queue.topic := by
  have hcomma : ", brokerName".toList = ',' :: " brokerName".toList := by decide
  rw [extractQueueKeyField, afterFirst_topic]
  simp only [afterTopic, hcomma, List.cons_append]
  exact field_value queue.isTopic.isField (.inl rfl) _

theorem extract_brokerName (queue : MessageQueue) :
    extractQueueKeyField (javaText queue) "brokerName" = queue.brokerName := by
  have hsplit : ", brokerName".toList = ", ".toList ++ "brokerName".toList := by decide
  have hcomma : ", queueId".toList = ',' :: " queueId".toList := by decide
  have hfront : '=' ∉ queue.topic.toList ++ ", ".toList := by
    rw [List.mem_append, not_or]
    exact ⟨queue.isTopic.isField.no_equals, by decide⟩
  have hafter : afterTopic queue = (queue.topic.toList ++ ", ".toList) ++
      ("brokerName".toList ++ '=' :: (queue.brokerName.toList ++
        (", queueId".toList ++ '=' :: ((toString queue.queueId).toList ++ [']'])))) := by
    rw [afterTopic, hsplit]
    simp
  rw [extractQueueKeyField, marker_eq, toList_javaText,
    afterFirst_skip (by decide) (by decide) (by decide), hafter,
    afterFirst_hit (by decide) hfront]
  simp only [hcomma, List.cons_append]
  exact field_value queue.isBroker.isField (.inl rfl) _

theorem extract_queueId (queue : MessageQueue) :
    extractQueueKeyField (javaText queue) "queueId" = toString queue.queueId := by
  have hsplit : ", queueId".toList = ", ".toList ++ "queueId".toList := by decide
  have hfront : '=' ∉ queue.topic.toList ++ ", brokerName".toList := by
    rw [List.mem_append, not_or]
    exact ⟨queue.isTopic.isField.no_equals, by decide⟩
  have hother : ¬ "queueId".toList <:+ queue.topic.toList ++ ", brokerName".toList := by
    rintro ⟨front, he⟩
    have hlast := congrArg List.getLast? he
    rw [List.getLast?_append_of_ne_nil _ (by decide),
      List.getLast?_append_of_ne_nil _ (by decide)] at hlast
    exact absurd hlast (by decide)
  have hbroker : '=' ∉ queue.brokerName.toList ++ ", ".toList := by
    rw [List.mem_append, not_or]
    exact ⟨queue.isBroker.isField.no_equals, by decide⟩
  have hafter : afterTopic queue = (queue.topic.toList ++ ", brokerName".toList) ++ '=' ::
      ((queue.brokerName.toList ++ ", ".toList) ++ ("queueId".toList ++ '=' ::
        ((toString queue.queueId).toList ++ [']']))) := by
    rw [afterTopic, hsplit]
    simp
  rw [extractQueueKeyField, marker_eq, toList_javaText,
    afterFirst_skip (by decide) (by decide) (by decide), hafter,
    afterFirst_skip (by decide) hfront hother, afterFirst_hit (by decide) hbroker]
  exact field_value (isField_queueId queue) (.inr rfl) _

/-! ### Which keys match -/

/-- Which spelled queues are taken for a message's own: those of its topic and queue id, and of its
broker where that is known.  In the dashed spelling it is those that are spelled the same, or with
the broker not known those that begin with the topic and end with the queue id. -/
def ReadsAs (own : MessageQueue) (known : Bool) (queue : MessageQueue) : Spelling → Prop
  | .json | .java => queue.topic = own.topic ∧ queue.queueId = own.queueId ∧
      (known = true → queue.brokerName = own.brokerName)
  | .dashed =>
    let spelled := dashed queue.topic queue.brokerName queue.queueId
    if known = true then spelled = dashed own.topic own.brokerName own.queueId
    else (∃ rest, spelled = own.topic ++ "-" ++ rest) ∧
      ∃ front, spelled = front ++ ("-" ++ toString own.queueId)

/-- The broker of a message, blank where it is not known. -/
def brokerOf (own : MessageQueue) (known : Bool) : String := if known then own.brokerName else ""

theorem brokerOf_eq_empty_iff (own : MessageQueue) (known : Bool) :
    brokerOf own known = "" ↔ known = false := by
  cases known <;> simp [brokerOf, own.isBroker.named]

/-- A known broker is compared, and another is not. -/
theorem brokerOf_matches_iff (own : MessageQueue) (known : Bool) (brokerName : String) :
    (brokerOf own known = "" ∨ brokerName = brokerOf own known) ↔
      (known = true → brokerName = own.brokerName) := by
  cases known <;> simp [brokerOf, own.isBroker.named]

theorem toString_inj_of_fits {a b : MessageQueue} (h : toString a.queueId = toString b.queueId) :
    a.queueId = b.queueId := by
  have hread : ∀ queue : MessageQueue,
      Lib.Strconv.parseInt 32 (toString queue.queueId).toList = some queue.queueId := by
    intro queue
    exact Lib.Strconv.parseInt_toString queue.fits.1 (by have := queue.fits; constructor <;> omega)
  have hboth := hread a
  rw [h, hread b] at hboth
  exact (Option.some.inj hboth).symm

theorem dashed_toList (queue : MessageQueue) :
    (dashed queue.topic queue.brokerName queue.queueId).toList = queue.topic.toList ++
      ('-' :: (queue.brokerName.toList ++ '-' :: (toString queue.queueId).toList)) := by
  have hdash : "-".toList = ['-'] := by decide
  simp only [dashed, String.toList_append, hdash, List.append_assoc, List.cons_append,
    List.nil_append]

/-- A character of the spellings' own is not in a dashed key. -/
theorem notMem_dashed (queue : MessageQueue) {c : Char} (hc : c ≠ '-')
    (h : ∀ cs, IsField cs → c ∉ cs) :
    c ∉ (dashed queue.topic queue.brokerName queue.queueId).toList := by
  rw [dashed_toList]
  simp only [List.mem_append, List.mem_cons, hc, false_or, not_or]
  exact ⟨h _ queue.isTopic.isField, h _ queue.isBroker.isField, h _ (isField_queueId queue)⟩

theorem afterFirst_eq_none {name cs : List Char} (h : '=' ∉ cs) :
    afterFirst (name ++ ['=']) cs = none := by
  induction cs with
  | nil => simp [afterFirst]
  | cons c cs ih =>
    rw [afterFirst, if_neg, ih fun hm => h (List.mem_cons_of_mem _ hm)]
    rintro ⟨u, hu⟩
    exact h (hu ▸ by simp)

theorem javaText_no_brace (queue : MessageQueue) : '{' ∉ (javaText queue).toList := by
  have hno : ∀ {cs : List Char}, IsField cs → '{' ∉ cs := fun h hm => (h _ hm).2.2.2.1 rfl
  have hfront : '{' ∉ "MessageQueue [topic".toList := by decide
  have hbroker : '{' ∉ ", brokerName".toList := by decide
  have hid : '{' ∉ ", queueId".toList := by decide
  rw [toList_javaText, afterTopic]
  simp only [List.mem_append, List.mem_cons, List.not_mem_nil, not_or]
  exact ⟨hfront, by decide, hno queue.isTopic.isField, hbroker, by decide,
    hno queue.isBroker.isField, hid, by decide, hno (isField_queueId queue), by decide, not_false⟩

theorem hasSuffix_iff {s p : String} : hasSuffix s p = true ↔ ∃ front, s = front ++ p := by
  rw [hasSuffix, decide_eq_true_iff]
  constructor
  · rintro ⟨front, h⟩
    exact ⟨String.ofList front, String.toList_inj.mp (by simp [← h])⟩
  · rintro ⟨front, rfl⟩
    exact ⟨front.toList, by simp⟩

/-- **Which keys match** a message of a queue. -/
theorem matches_iff {spelling : Spelling} (h : Spells queue key spelling) (own : MessageQueue)
    (known : Bool) :
    matchesMessageQueueKey key own.topic (brokerOf own known) own.queueId = true ↔
      ReadsAs own known queue spelling := by
  cases spelling with
  | json =>
    have hread : (unmarshalKey key).filter (·.topic ≠ "") =
        some ⟨queue.topic, queue.brokerName, queue.queueId⟩ := by
      rw [unmarshalKey_json h, Option.filter_some, if_pos (by simpa using queue.isTopic.named)]
    rw [matchesMessageQueueKey, hread]
    simp only [Bool.and_eq_true, Bool.or_eq_true, decide_eq_true_eq, brokerOf_matches_iff,
      and_assoc, ReadsAs]
  | java =>
    obtain rfl : key = javaText queue := h
    have hmarker : (afterFirst "topic=".toList (javaText queue).toList).isSome = true := by
      have hfound := afterFirst_topic queue
      have hliteral : "topic=".toList = ("topic" ++ "=").toList := by decide
      rw [hliteral, hfound]
      rfl
    have hid : toString queue.queueId = toString own.queueId ↔ queue.queueId = own.queueId :=
      ⟨toString_inj_of_fits, congrArg toString⟩
    rw [matchesMessageQueueKey, unmarshalKey_of_no_brace (javaText_no_brace queue)]
    simp only [hmarker, if_true, extract_topic, extract_brokerName, extract_queueId,
      Bool.and_eq_true, Bool.or_eq_true, decide_eq_true_eq, brokerOf_matches_iff, and_assoc, hid,
      ReadsAs]
  | dashed =>
    obtain rfl : key = dashed queue.topic queue.brokerName queue.queueId := h
    have hbrace := notMem_dashed queue (c := '{') (by decide) fun cs hf hm => (hf _ hm).2.2.2.1 rfl
    have hequals := notMem_dashed queue (c := '=') (by decide) fun cs hf hm => (hf _ hm).1 rfl
    have hmarker : afterFirst "topic=".toList
        (dashed queue.topic queue.brokerName queue.queueId).toList = none := by
      have hliteral : "topic=".toList = "topic".toList ++ ['='] := by decide
      rw [hliteral, afterFirst_eq_none hequals]
    rw [matchesMessageQueueKey, unmarshalKey_of_no_brace hbrace]
    simp only [hmarker, Option.isSome_none, Bool.false_eq_true, if_false, ReadsAs]
    cases known with
    | true => simp [brokerOf, own.isBroker.named]
    | false =>
      simp only [brokerOf, Bool.false_eq_true, if_false, if_true, Bool.and_eq_true,
        hasPrefix_iff, hasSuffix_iff]

/-- A spelling of the message's own queue matches. -/
theorem readsAs_self (own : MessageQueue) (known : Bool) (spelling : Spelling) :
    ReadsAs own known own spelling := by
  cases spelling with
  | json | java => exact ⟨rfl, rfl, fun _ => rfl⟩
  | dashed =>
    cases known with
    | true => rfl
    | false =>
      refine ⟨⟨own.brokerName ++ "-" ++ toString own.queueId, ?_⟩,
        own.topic ++ "-" ++ own.brokerName, ?_⟩ <;>
        simp only [dashed, String.append_assoc]

/-! ### When a report is right -/

/-- An entry of a group's offsets, with the queue that its key spells. -/
structure Entry where
  key : String
  queue : MessageQueue
  spelling : Spelling
  offset : Option Int
  spelled : Spells queue key spelling

/-- The offsets of a group, under different keys. -/
structure Table where
  entries : List Entry
  distinct : (entries.map (·.key)).Nodup

def Entry.pair (entry : Entry) : String × Option Int := (entry.key, entry.offset)

/-- A message of a queue, with its broker or without. -/
def messageOf (own : MessageQueue) (known : Bool) (queueOffset : Int) : MessageExt :=
  ⟨own.topic, brokerOf own known, own.queueId, queueOffset⟩

/-- An offset is committed for exactly this queue. -/
def Table.Commits (table : Table) (own : MessageQueue) (offset : Int) : Prop :=
  ∃ entry ∈ table.entries, entry.queue = own ∧ entry.offset = some offset

/-- **An honest report**, in whatever order the table is gone through. -/
structure Honest (table : Table) (own : MessageQueue) (known : Bool) (queueOffset : Int) :
    Prop where
  consumed : ∀ order : List Entry, order.Perm table.entries → ∀ track report,
    populateTrack (.ok (order.map Entry.pair)) (messageOf own known queueOffset) track =
      .ok report → report.trackType = "CONSUMED" →
        ∃ offset, table.Commits own offset ∧ queueOffset < offset
  used : known = true → (∃ offset, table.Commits own offset) →
    ∀ order : List Entry, order.Perm table.entries → ∃ entry ∈ table.entries,
      entry.queue = own ∧
        targetEntry (order.map Entry.pair) (messageOf own known queueOffset) = some entry.pair

/-- An entry of another queue that is taken for the message's own. -/
def Entry.Deceives (entry : Entry) (own : MessageQueue) (known : Bool) : Prop :=
  entry.queue ≠ own ∧ ReadsAs own known entry.queue entry.spelling

/-- No other queue makes a difference: one that is taken for the message's own has an offset past
the message only where its own has too, and beside an entry of its own, with the broker known, there
is none. -/
structure Undeceived (table : Table) (own : MessageQueue) (known : Bool) (queueOffset : Int) :
    Prop where
  offsets : ∀ entry ∈ table.entries, entry.Deceives own known → ∀ offset,
    entry.offset = some offset → queueOffset < offset →
      ∃ offset, table.Commits own offset ∧ queueOffset < offset
  none : known = true → (∃ offset, table.Commits own offset) →
    ∀ entry ∈ table.entries, entry.offset ≠ none → ¬ entry.Deceives own known

variable {own : MessageQueue} {known : Bool} {queueOffset : Int} {table : Table}
  {order : List Entry}

/-- The entry that the loop stops at. -/
theorem targetEntry_eq (order : List Entry) (own : MessageQueue) (known : Bool)
    (queueOffset : Int) :
    targetEntry (order.map Entry.pair) (messageOf own known queueOffset) =
      (order.find? fun entry => entry.offset.isSome && matchesMessageQueueKey entry.key own.topic
        (brokerOf own known) own.queueId).map Entry.pair := by
  rw [targetEntry, List.find?_map]
  rfl

/-- What the loop stops at has an offset and reads as the message's own queue. -/
theorem target_reads {entry : Entry}
    (h : (order.find? fun entry => entry.offset.isSome && matchesMessageQueueKey entry.key own.topic
      (brokerOf own known) own.queueId) = some entry) :
    entry ∈ order ∧ entry.offset ≠ none ∧ ReadsAs own known entry.queue entry.spelling := by
  have htaken := List.find?_some h
  obtain ⟨hoffset, hmatches⟩ := (Bool.and_eq_true _ _).mp htaken
  exact ⟨List.mem_of_find?_eq_some h, Option.isSome_iff_ne_none.mp hoffset,
    (matches_iff entry.spelled own known).mp hmatches⟩

/-- An entry that reads as the message's own queue is the target where it comes first. -/
theorem target_first {entry : Entry} (hoffset : entry.offset ≠ none)
    (hreads : ReadsAs own known entry.queue entry.spelling) (rest : List Entry) :
    targetEntry ((entry :: rest).map Entry.pair) (messageOf own known queueOffset) =
      some entry.pair := by
  rw [targetEntry_eq, List.find?_cons_of_pos, Option.map_some]
  rw [(matches_iff entry.spelled own known).mpr hreads, Bool.and_true]
  exact Option.isSome_iff_ne_none.mpr hoffset

/-- The report says consumed exactly if the target's offset is past the message. -/
theorem consumed_iff {pairs : OffsetTable} {message : MessageExt} {track report : MessageTrackItem}
    (h : populateTrack (.ok pairs) message track = .ok report) :
    report.trackType = "CONSUMED" ↔ ∃ offset,
      (targetEntry pairs message).bind (·.2) = some offset ∧ message.queueOffset < offset := by
  rw [populateTrack] at h
  split at h
  case h_1 hnone =>
    obtain rfl := Except.ok.inj h
    simp [hnone]
  case h_2 offset hsome =>
    split at h
    case isTrue hlt =>
      obtain rfl := Except.ok.inj h
      simp [hsome, hlt]
    case isFalse hge =>
      obtain rfl := Except.ok.inj h
      simp [hsome, hge]

theorem exists_report (pairs : OffsetTable) (message : MessageExt) (track : MessageTrackItem) :
    ∃ report, populateTrack (.ok pairs) message track = .ok report := by
  rw [populateTrack]
  split
  · exact ⟨_, rfl⟩
  · split <;> exact ⟨_, rfl⟩

/-- Any entry can come first. -/
theorem exists_order {entry : Entry} (h : entry ∈ table.entries) :
    ∃ rest, (entry :: rest).Perm table.entries := by
  obtain ⟨front, back, heq⟩ := List.append_of_mem h
  exact ⟨front ++ back, heq ▸ List.perm_middle.symm⟩

theorem Table.eq_of_key {a b : Entry} (ha : a ∈ table.entries) (hb : b ∈ table.entries)
    (h : a.key = b.key) : a = b :=
  List.inj_on_of_nodup_map table.distinct ha hb h

/-- **When tracking is honest**: exactly if no other queue is taken for the message's own to any
effect. -/
theorem track_honest_iff : Honest table own known queueOffset ↔
    Undeceived table own known queueOffset := by
  constructor
  · intro h
    constructor
    · rintro entry hentry ⟨-, hreads⟩ offset hoffset hpast
      obtain ⟨rest, hperm⟩ := exists_order hentry
      obtain ⟨report, hreport⟩ := exists_report ((entry :: rest).map Entry.pair)
        (messageOf own known queueOffset) ⟨"", "", "", ""⟩
      refine h.consumed _ hperm _ report hreport ((consumed_iff hreport).mpr ⟨offset, ?_, hpast⟩)
      rw [target_first (by simp [hoffset]) hreads]
      exact hoffset
    · rintro hknown hown entry hentry hoffset ⟨hother, hreads⟩
      obtain ⟨rest, hperm⟩ := exists_order hentry
      obtain ⟨used, hused, hqueue, htarget⟩ := h.used hknown hown _ hperm
      rw [target_first hoffset hreads] at htarget
      have hkey : entry.key = used.key := congrArg Prod.fst (Option.some.inj htarget)
      exact hother (Table.eq_of_key hentry hused hkey ▸ hqueue)
  · intro h
    constructor
    · intro order hperm track report hreport hconsumed
      obtain ⟨offset, htarget, hpast⟩ := (consumed_iff hreport).mp hconsumed
      rw [targetEntry_eq] at htarget
      obtain ⟨pair, hpair, hoffset⟩ := Option.bind_eq_some_iff.mp htarget
      obtain ⟨entry, hfind, rfl⟩ := Option.map_eq_some_iff.mp hpair
      obtain ⟨hmem, -, hreads⟩ := target_reads hfind
      have hentry := hperm.subset hmem
      by_cases hqueue : entry.queue = own
      · exact ⟨offset, ⟨entry, hentry, hqueue, hoffset⟩, hpast⟩
      · exact h.offsets entry hentry ⟨hqueue, hreads⟩ offset hoffset hpast
    · rintro hknown ⟨offset, own', hown', rfl, hoffset⟩ order hperm
      have hown := hperm.symm.subset hown'
      rw [targetEntry_eq]
      cases hfind : order.find? fun entry => entry.offset.isSome &&
          matchesMessageQueueKey entry.key own'.queue.topic (brokerOf own'.queue known)
            own'.queue.queueId with
      | none =>
        have hnot := List.find?_eq_none.mp hfind own' hown
        have hself := (matches_iff own'.spelled own'.queue known).mpr (readsAs_self _ known _)
        simp [hoffset, hself] at hnot
      | some entry =>
        obtain ⟨hmem, hsome, hreads⟩ := target_reads hfind
        have hentry := hperm.subset hmem
        refine ⟨entry, hentry, ?_, rfl⟩
        by_contra hother
        exact h.none hknown ⟨offset, own', hown', rfl, hoffset⟩ entry hentry hsome
          ⟨hother, hreads⟩

/-! ### Two queues with one dashed spelling -/

theorem isName_of_all {name : String} (h : name ≠ "") (hall : name.toList.all isPlain = true) :
    IsName name :=
  ⟨h, List.all_eq_true.mp hall⟩

def ordersQueue : MessageQueue where
  topic := "orders"
  brokerName := "broker-a"
  queueId := 0
  isTopic := isName_of_all (by decide) (by decide)
  isBroker := isName_of_all (by decide) (by decide)
  fits := by decide

def brokerQueue : MessageQueue where
  topic := "orders-broker"
  brokerName := "a"
  queueId := 0
  isTopic := isName_of_all (by decide) (by decide)
  isBroker := isName_of_all (by decide) (by decide)
  fits := by decide

/-- The other queue was consumed, and its key reads the same. -/
def brokerEntry : Entry := ⟨dashed "orders-broker" "a" 0, brokerQueue, .dashed, some 20, rfl⟩

def brokerTable : Table := ⟨[brokerEntry], List.nodup_singleton _⟩

/-- **A message counts as consumed** by what was committed for another queue. -/
theorem other_queue_counts : ¬ ∀ table own known queueOffset,
    Honest table own known queueOffset := by
  intro h
  have hhonest := h brokerTable ordersQueue true 10
  have hreads : ReadsAs ordersQueue true brokerEntry.queue .dashed := by
    have hsame : dashed "orders-broker" "a" 0 = dashed "orders" "broker-a" 0 := by decide
    exact hsame
  obtain ⟨report, hreport⟩ := exists_report (brokerTable.entries.map Entry.pair)
    (messageOf ordersQueue true 10) ⟨"", "", "", ""⟩
  have htarget : targetEntry ([brokerEntry].map Entry.pair) (messageOf ordersQueue true 10) =
      some brokerEntry.pair := target_first (by simp [brokerEntry]) hreads []
  have hconsumed : report.trackType = "CONSUMED" := by
    refine (consumed_iff hreport).mpr ⟨20, ?_, by decide⟩
    rw [brokerTable, htarget]
    rfl
  obtain ⟨offset, ⟨entry, hentry, hqueue, -⟩, -⟩ :=
    hhonest.consumed _ (List.Perm.refl _) _ report hreport hconsumed
  have hname := congrArg MessageQueue.topic hqueue
  rw [List.mem_singleton.mp hentry] at hname
  exact absurd hname (by decide)

end MqStudio.Rocketmq.MessageTrack
