import MqStudio.Lib.Maps
import MqStudio.Lib.Text

/-!
# Browsing an IBM MQ queue

`ibmmq/message.go`: a browse lists the identifiers of the messages on a queue, and then reads one
message for each of them by its identifier, which an application may give to several messages.

* `browseOne`, `queryMessages`: the rows, from the listing and the reads.
* `Shows`, `Right`: a row says what is at its place in the queue.
* `query_right_iff`: the rows are right exactly if the first message with the identifier of a listed
  one reads as that one does.
-/

namespace MqStudio.Ibmmq.Browse

open Std (ExtTreeMap)
open Lib.Maps Lib.Text

/-! ### Messages -/

/-- `net/http` writes the name of a header so that no part of it begins with a lower-case letter. -/
def isCanonical (name : String) : Bool := name.toList.head?.all fun c => !c.isLower

/-- What is sent in the headers of a message; the properties an application has set are under their
own names. -/
structure Descriptor where
  correlationID : String
  persistence : String
  expiry : String
  replyToQueue : String
  replyToQmgr : String
  userProperties : ExtTreeMap String String compare
  canonical : ∀ name value, userProperties[name]? = some value → isCanonical name = true

/-- A message on a queue.  The server has no text of one that it cannot decode. -/
structure Message where
  messageID : String
  format : String
  text : Option String
  descriptor : Descriptor

/-- What `GET` on the message resource answers. -/
inductive Answer where
  | message (body messageID : String) (descriptor : Descriptor)
  | unsupported
  | noMessage

def Message.answer (m : Message) : Answer :=
  match m.text with
  | some body => .message body m.messageID m.descriptor
  | none => .unsupported

/-- The first message with an identifier. -/
def messagingGet (queue : List Message) (messageID : String) : Answer :=
  match queue.find? fun m => m.messageID = messageID with
  | some m => m.answer
  | none => .noMessage

structure MessageListEntry where
  messageID : String
  correlationID : String
  format : String

def Message.entry (m : Message) : MessageListEntry :=
  ⟨m.messageID, m.descriptor.correlationID, m.format⟩

/-- The messages on a queue in the order in which they would be delivered. -/
def messageList (queue : List Message) (limit : ℕ) : List MessageListEntry :=
  (queue.take limit).map Message.entry

/-! ### Rows -/

structure MessageItem where
  id : ℕ
  cluster : String
  topic : String
  messageID : String
  status : String
  body : String
  properties : ExtTreeMap String String compare

def propFormat : String := "format"
def propCorrelationID : String := "correlationId"
def propPersistence : String := "persistence"
def propExpiry : String := "expiry"
def propReplyToQueue : String := "replyToQueue"
def propReplyToQmgr : String := "replyToQueueManager"
def propBodyUnavailable : String := "bodyUnavailable"
def browseLimit : ℕ := 50
def maxBrowseLimit : ℕ := 500
def msgNormal : String := "normal"

/-- A property that is there only where it has a value. -/
def setProperty (properties : ExtTreeMap String String compare) (key value : String) :
    ExtTreeMap String String compare :=
  if value ≠ "" then properties.insert key value else properties

def readDescriptor (item : MessageItem) (messageID : String) (headers : Descriptor) :
    MessageItem :=
  let properties := setProperty item.properties propCorrelationID headers.correlationID
  let properties := setProperty properties propPersistence headers.persistence
  let properties := setProperty properties propExpiry headers.expiry
  let properties := setProperty properties propReplyToQueue headers.replyToQueue
  let properties := setProperty properties propReplyToQmgr headers.replyToQmgr
  { item with
    messageID := if messageID ≠ "" then messageID else item.messageID
    properties := properties ∪ headers.userProperties }

/-- What the listing knows of a message. -/
def listedItem (qmgr topic : String) (entry : MessageListEntry) : MessageItem where
  id := 0
  cluster := qmgr
  topic := topic
  messageID := entry.messageID
  status := msgNormal
  body := ""
  properties := setProperty (setProperty ∅ propFormat entry.format) propCorrelationID
    entry.correlationID

/-- The row of a message, unless it is gone. -/
def browseOne (qmgr topic : String) (queue : List Message) (entry : MessageListEntry) :
    Option MessageItem :=
  let item := listedItem qmgr topic entry
  match messagingGet queue entry.messageID with
  | .noMessage => none
  | .unsupported =>
    let format := if entry.format = "" then "unknown" else entry.format
    some { item with properties := item.properties.insert propBodyUnavailable format }
  | .message body messageID headers =>
    some (readDescriptor { item with body := body } messageID headers)

/-! ### The browse -/

structure MessageQueryParams where
  topic : String
  messageID : String
  maxResults : ℤ

/-- Nothing but zeros, which the queue manager takes for no identifier. -/
def isNoneIdentifier (id : String) : Bool := id.toList.all fun c => c == '0'

def messageByID (qmgr : String) (queue : List Message) (topic messageID : String) :
    Except String (Option MessageItem) :=
  let topic := trimSpace topic
  let id := trimSpace messageID
  if topic = "" ∨ id = "" then .error "browsing one message needs a queue and a message id"
  else if isNoneIdentifier id then
    .error ("\"" ++ id ++ "\" is MQ's empty message id, which matches the first message " ++
      "on the queue rather than a particular one")
  else .ok ((browseOne qmgr topic queue ⟨id, "", ""⟩).map fun item => { item with id := 1 })

def limitOf (maxResults : ℤ) : ℕ :=
  let limit := if maxResults ≤ 0 then (browseLimit : ℤ) else maxResults
  (min limit maxBrowseLimit).toNat

/-- `QueryMessages` on a queue; `queue` is what is on the queue that is named. -/
def queryMessages (qmgr : String) (queue : List Message) (params : MessageQueryParams) :
    Except String (List MessageItem) :=
  let topic := trimSpace params.topic
  if topic = "" then .error "no queue name given"
  else if trimSpace params.messageID ≠ "" then
    (messageByID qmgr queue topic (trimSpace params.messageID)).map Option.toList
  else
    let listed := messageList queue (limitOf params.maxResults)
    .ok (listed.zipIdx.filterMap fun (entry, index) =>
      (browseOne qmgr topic queue entry).map fun item => { item with id := index + 1 })

/-! ### What a browse should return -/

def nonblank (value : String) : Option String := if value = "" then none else some value

/-- What the server shows of a message's descriptor: nothing, where it cannot decode the message. -/
def Message.shown (m : Message) (field : Descriptor → String) : Option String :=
  m.text.bind fun _ => nonblank (field m.descriptor)

/-- A row says what is at its place in the queue. -/
structure Shows (m : Message) (item : MessageItem) : Prop where
  messageID : item.messageID = m.messageID
  body : item.body = m.text.getD ""
  unavailable : item.properties[propBodyUnavailable]? =
    if m.text.isSome then none else some (if m.format = "" then "unknown" else m.format)
  format : item.properties[propFormat]? = nonblank m.format
  correlationID : item.properties[propCorrelationID]? = nonblank m.descriptor.correlationID
  persistence : item.properties[propPersistence]? = m.shown (·.persistence)
  expiry : item.properties[propExpiry]? = m.shown (·.expiry)
  replyToQueue : item.properties[propReplyToQueue]? = m.shown (·.replyToQueue)
  replyToQmgr : item.properties[propReplyToQmgr]? = m.shown (·.replyToQmgr)
  user : ∀ name, isCanonical name = true →
    item.properties[name]? = m.text.bind fun _ => m.descriptor.userProperties[name]?

/-- One row for each listed message, in order, and each one shows its message. -/
def Right (queue : List Message) (limit : ℕ) (items : List MessageItem) : Prop :=
  List.Forall₂ Shows (queue.take limit) items

/-- A message cannot be told from another one by reading it, the correlation id apart, which a
listing has too where it is blank in what is read. -/
def ReadsAs (first m : Message) : Prop :=
  first.text = m.text ∧ (m.text.isSome = true →
    (first.descriptor.correlationID = "" ∨
      first.descriptor.correlationID = m.descriptor.correlationID) ∧
    first.descriptor.persistence = m.descriptor.persistence ∧
    first.descriptor.expiry = m.descriptor.expiry ∧
    first.descriptor.replyToQueue = m.descriptor.replyToQueue ∧
    first.descriptor.replyToQmgr = m.descriptor.replyToQmgr ∧
    first.descriptor.userProperties = m.descriptor.userProperties)

/-- The first message with the identifier of a listed one reads as that one. -/
def Told (queue : List Message) (limit : ℕ) : Prop :=
  ∀ m ∈ queue.take limit, ∀ first, queue.find? (fun other => other.messageID = m.messageID) =
    some first → ReadsAs first m

/-! ### Looking up a property -/

/-- The properties that the driver itself sets. -/
def reserved : List String :=
  [propFormat, propCorrelationID, propPersistence, propExpiry, propReplyToQueue, propReplyToQmgr,
    propBodyUnavailable]

theorem not_canonical_of_reserved : ∀ name ∈ reserved, isCanonical name = false := by decide

theorem ne_of_canonical {name key : String} (h : isCanonical name = true) (hkey : key ∈ reserved) :
    key ≠ name := by
  intro heq
  rw [heq] at hkey
  rw [not_canonical_of_reserved name hkey] at h
  exact Bool.false_ne_true h

/-- An application's own property is none of the driver's. -/
theorem userProperties_of_not_canonical (d : Descriptor) {name : String}
    (h : isCanonical name = false) : d.userProperties[name]? = none := by
  cases hvalue : d.userProperties[name]? with
  | none => rfl
  | some value =>
    rw [d.canonical name value hvalue] at h
    cases h

theorem nonblank_inj {value value' : String} (h : nonblank value = nonblank value') :
    value = value' := by
  rw [nonblank, nonblank] at h
  split at h <;> split at h
  · rename_i hvalue hvalue'
    rw [hvalue, hvalue']
  · cases h
  · cases h
  · exact Option.some.inj h

theorem getElem?_setProperty (properties : ExtTreeMap String String compare)
    (key value name : String) : (setProperty properties key value)[name]? =
      if key = name then (nonblank value).or properties[name]? else properties[name]? := by
  rw [setProperty, nonblank]
  by_cases hvalue : value = ""
  · rw [if_neg (not_not.mpr hvalue), if_pos hvalue, Option.none_or, ite_self]
  · rw [if_pos hvalue, if_neg hvalue, getElem?_insert, Option.some_or]

/-- A property of a row that was only listed. -/
theorem getElem?_listedItem (qmgr topic : String) (entry : MessageListEntry) (name : String) :
    (listedItem qmgr topic entry).properties[name]? =
      if propCorrelationID = name then nonblank entry.correlationID
      else if propFormat = name then nonblank entry.format
      else none := by
  have hempty : (∅ : ExtTreeMap String String compare)[name]? = none := ExtTreeMap.getElem?_empty
  rw [listedItem, getElem?_setProperty, getElem?_setProperty, hempty, Option.or_none]
  split
  · rename_i hname
    subst hname
    rw [if_neg (by decide), Option.or_none]
  · rfl

/-! ### One row -/

section Rows

variable {qmgr topic : String} {queue : List Message} {m first : Message} {item : MessageItem}

theorem messagingGet_eq
    (h : queue.find? (fun other => other.messageID = m.messageID) = some first) :
    messagingGet queue m.messageID = first.answer := by
  rw [messagingGet, h]

theorem messageID_of_find
    (h : queue.find? (fun other => other.messageID = m.messageID) = some first) :
    first.messageID = m.messageID := by simpa using List.find?_some h

/-- A row of which only the listing is known. -/
theorem browseOne_of_unreadable
    (h : queue.find? (fun other => other.messageID = m.messageID) = some first)
    (htext : first.text = none) : browseOne qmgr topic queue m.entry =
      some { listedItem qmgr topic m.entry with
        properties := (listedItem qmgr topic m.entry).properties.insert propBodyUnavailable
          (if m.format = "" then "unknown" else m.format) } := by
  have hget := messagingGet_eq h
  rw [Message.answer, htext] at hget
  dsimp only [browseOne, Message.entry]
  rw [hget]

/-- A row of which the message was read. -/
theorem browseOne_of_readable {body : String}
    (h : queue.find? (fun other => other.messageID = m.messageID) = some first)
    (htext : first.text = some body) : browseOne qmgr topic queue m.entry =
      some (readDescriptor { listedItem qmgr topic m.entry with body := body } first.messageID
        first.descriptor) := by
  have hget := messagingGet_eq h
  rw [Message.answer, htext] at hget
  dsimp only [browseOne, Message.entry]
  rw [hget]

/-- What a message that was read adds to the listing's properties. -/
theorem getElem?_readDescriptor (messageID : String) (d : Descriptor) (name : String) :
    (readDescriptor item messageID d).properties[name]? = d.userProperties[name]?.or
      (if propReplyToQmgr = name then (nonblank d.replyToQmgr).or item.properties[name]?
      else if propReplyToQueue = name then (nonblank d.replyToQueue).or item.properties[name]?
      else if propExpiry = name then (nonblank d.expiry).or item.properties[name]?
      else if propPersistence = name then (nonblank d.persistence).or item.properties[name]?
      else if propCorrelationID = name then (nonblank d.correlationID).or item.properties[name]?
      else item.properties[name]?) := by
  dsimp only [readDescriptor]
  rw [ExtTreeMap.getElem?_union]
  congr 1
  simp only [getElem?_setProperty]
  by_cases hname : name ∈ reserved
  · revert name
    simp only [reserved, List.forall_mem_cons]
    simp [propFormat, propCorrelationID, propPersistence, propExpiry, propReplyToQueue,
      propReplyToQmgr, propBodyUnavailable]
  · have hne : ∀ key ∈ reserved, key ≠ name := fun key hkey heq => hname (heq ▸ hkey)
    simp only [hne propReplyToQmgr (by decide), hne propReplyToQueue (by decide),
      hne propExpiry (by decide), hne propPersistence (by decide),
      hne propCorrelationID (by decide), if_false]

/-- A property of a row whose message was read, for each name that a row can have. -/
theorem getElem?_read (messageID : String) (d : Descriptor) {entry : MessageListEntry}
    {body : String} (name : String) :
    (readDescriptor { listedItem qmgr topic entry with body := body } messageID
      d).properties[name]? = d.userProperties[name]?.or
      (if propReplyToQmgr = name then nonblank d.replyToQmgr
      else if propReplyToQueue = name then nonblank d.replyToQueue
      else if propExpiry = name then nonblank d.expiry
      else if propPersistence = name then nonblank d.persistence
      else if propCorrelationID = name then
        (nonblank d.correlationID).or (nonblank entry.correlationID)
      else if propFormat = name then nonblank entry.format
      else none) := by
  rw [getElem?_readDescriptor]
  dsimp only
  rw [getElem?_listedItem]
  congr 1
  by_cases hname : name ∈ reserved
  · revert name
    simp only [reserved, List.forall_mem_cons]
    simp [propFormat, propCorrelationID, propPersistence, propExpiry, propReplyToQueue,
      propReplyToQmgr, propBodyUnavailable]
  · have hne : ∀ key ∈ reserved, key ≠ name := fun key hkey heq => hname (heq ▸ hkey)
    simp only [hne propReplyToQmgr (by decide), hne propReplyToQueue (by decide),
      hne propExpiry (by decide), hne propPersistence (by decide),
      hne propCorrelationID (by decide), if_false]

/-- **A row that could not be read** shows what could not be read either. -/
theorem shows_of_unreadable_iff (qmgr topic : String) (m : Message) :
    Shows m { listedItem qmgr topic m.entry with
      properties := (listedItem qmgr topic m.entry).properties.insert propBodyUnavailable
        (if m.format = "" then "unknown" else m.format) } ↔ m.text = none := by
  constructor
  · intro h
    have hmark := h.unavailable
    dsimp only at hmark
    rw [getElem?_insert, if_pos rfl] at hmark
    cases htext : m.text with
    | none => rfl
    | some body =>
      rw [htext] at hmark
      cases hmark
  · intro htext
    have hlookup : ∀ name, propBodyUnavailable ≠ name → ((listedItem qmgr topic
        m.entry).properties.insert propBodyUnavailable
          (if m.format = "" then "unknown" else m.format))[name]? =
            if propCorrelationID = name then nonblank m.descriptor.correlationID
            else if propFormat = name then nonblank m.format
            else none := by
      intro name hname
      rw [getElem?_insert, if_neg hname, getElem?_listedItem]
      rfl
    have habsent : ∀ field, m.shown field = none := by
      intro field
      rw [Message.shown, htext, Option.bind_none]
    refine ⟨rfl, by rw [htext]; rfl, ?_, hlookup _ (by decide), hlookup _ (by decide), ?_, ?_, ?_,
      ?_, fun name hname => ?_⟩
    · rw [htext]
      exact (getElem?_insert ..).trans (if_pos rfl)
    · exact (hlookup _ (by decide)).trans (habsent _).symm
    · exact (hlookup _ (by decide)).trans (habsent _).symm
    · exact (hlookup _ (by decide)).trans (habsent _).symm
    · exact (hlookup _ (by decide)).trans (habsent _).symm
    · rw [htext, Option.bind_none]
      refine (hlookup _ (ne_of_canonical hname (by decide))).trans ?_
      rw [if_neg (ne_of_canonical hname (by decide)), if_neg (ne_of_canonical hname (by decide))]

theorem or_nonblank_eq_iff {value own : String} :
    (nonblank value).or (nonblank own) = nonblank own ↔ value = "" ∨ value = own := by
  by_cases hvalue : value = ""
  · rw [nonblank, if_pos hvalue, Option.none_or]
    exact iff_of_true rfl (.inl hvalue)
  · have hsome : nonblank value = some value := if_neg hvalue
    rw [hsome, Option.some_or, ← hsome]
    exact ⟨fun h => .inr (nonblank_inj h), fun h => by rw [h.resolve_left hvalue]⟩

/-- **A row that was read** shows its message exactly if what was read reads as the message. -/
theorem shows_of_readable_iff {body : String} (htext : first.text = some body)
    (hid : first.messageID = m.messageID) :
    Shows m (readDescriptor { listedItem qmgr topic m.entry with body := body } first.messageID
      first.descriptor) ↔ ReadsAs first m := by
  have hown : ∀ name, isCanonical name = false → ∀ rest : Option String,
      first.descriptor.userProperties[name]?.or rest = rest := by
    intro name hname rest
    rw [userProperties_of_not_canonical _ hname, Option.none_or]
  constructor
  · intro h
    have hmark := h.unavailable
    rw [getElem?_read, hown _ (by decide)] at hmark
    cases hm : m.text with
    | none =>
      rw [hm] at hmark
      cases hmark
    | some own =>
      have hshown : ∀ field, m.shown field = nonblank (field m.descriptor) := by
        intro field
        rw [Message.shown, hm, Option.bind_some]
      have hbody : body = own := by
        have hbody := h.body
        rw [hm] at hbody
        exact hbody
      have hcorrelation := h.correlationID
      have hpersistence := h.persistence
      have hexpiry := h.expiry
      have hqueue := h.replyToQueue
      have hqmgr := h.replyToQmgr
      rw [getElem?_read, hown _ (by decide)] at hcorrelation hpersistence hexpiry hqueue hqmgr
      rw [hshown] at hpersistence hexpiry hqueue hqmgr
      refine ⟨by rw [htext, hm, hbody], fun _ => ⟨or_nonblank_eq_iff.mp hcorrelation,
        nonblank_inj hpersistence, nonblank_inj hexpiry, nonblank_inj hqueue, nonblank_inj hqmgr,
        ExtTreeMap.ext_getElem? fun name => ?_⟩⟩
      cases hname : isCanonical name with
      | false =>
        rw [userProperties_of_not_canonical _ hname, userProperties_of_not_canonical _ hname]
      | true =>
        have huser := h.user name hname
        rw [getElem?_read, hm, Option.bind_some] at huser
        rw [if_neg (ne_of_canonical hname (by decide)), if_neg (ne_of_canonical hname (by decide)),
          if_neg (ne_of_canonical hname (by decide)), if_neg (ne_of_canonical hname (by decide)),
          if_neg (ne_of_canonical hname (by decide)), if_neg (ne_of_canonical hname (by decide)),
          Option.or_none] at huser
        exact huser
  · rintro ⟨hsame, hreads⟩
    rw [htext] at hsame
    obtain ⟨hcorrelation, hpersistence, hexpiry, hqueue, hqmgr, huser⟩ :=
      hreads (by rw [← hsame]; rfl)
    have hshown : ∀ field, m.shown field = nonblank (field m.descriptor) := by
      intro field
      rw [Message.shown, ← hsame, Option.bind_some]
    refine ⟨?_, by rw [← hsame]; rfl, ?_, ?_, ?_, ?_, ?_, ?_, ?_, fun name hname => ?_⟩
    · rw [readDescriptor]
      dsimp only
      split
      · exact hid
      · rfl
    · rw [getElem?_read, hown _ (by decide), ← hsame]
      rfl
    · rw [getElem?_read, hown _ (by decide)]
      rfl
    · rw [getElem?_read, hown _ (by decide)]
      exact or_nonblank_eq_iff.mpr hcorrelation
    · rw [getElem?_read, hown _ (by decide), hshown, ← hpersistence]
      rfl
    · rw [getElem?_read, hown _ (by decide), hshown, ← hexpiry]
      rfl
    · rw [getElem?_read, hown _ (by decide), hshown, ← hqueue]
      rfl
    · rw [getElem?_read, hown _ (by decide), hshown, ← hqmgr]
      rfl
    · rw [getElem?_read, ← hsame, Option.bind_some, huser]
      rw [if_neg (ne_of_canonical hname (by decide)), if_neg (ne_of_canonical hname (by decide)),
        if_neg (ne_of_canonical hname (by decide)), if_neg (ne_of_canonical hname (by decide)),
        if_neg (ne_of_canonical hname (by decide)), if_neg (ne_of_canonical hname (by decide)),
        Option.or_none]

/-- **The row of a listed message**: there is one, and it is right exactly if the first message
with that identifier reads as the listed one. -/
theorem browseOne_spec (hfirst : queue.find? (fun other => other.messageID = m.messageID) =
    some first) : ∃ item, browseOne qmgr topic queue m.entry = some item ∧
      (Shows m item ↔ ReadsAs first m) := by
  cases htext : first.text with
  | none =>
    refine ⟨_, browseOne_of_unreadable hfirst htext,
      (shows_of_unreadable_iff qmgr topic m).trans ?_⟩
    rw [ReadsAs, htext]
    constructor
    · intro hm
      rw [hm]
      exact ⟨rfl, fun h => nomatch h⟩
    · exact fun h => h.1.symm
  | some body =>
    exact ⟨_, browseOne_of_readable hfirst htext,
      shows_of_readable_iff htext (messageID_of_find hfirst)⟩

end Rows

/-! ### The page -/

/-- A row's number is not what is shown of its message. -/
theorem shows_number {m : Message} {item : MessageItem} {n : ℕ} :
    Shows m { item with id := n } ↔ Shows m item :=
  ⟨fun ⟨h₁, h₂, h₃, h₄, h₅, h₆, h₇, h₈, h₉, h₁₀⟩ => ⟨h₁, h₂, h₃, h₄, h₅, h₆, h₇, h₈, h₉, h₁₀⟩,
    fun ⟨h₁, h₂, h₃, h₄, h₅, h₆, h₇, h₈, h₉, h₁₀⟩ => ⟨h₁, h₂, h₃, h₄, h₅, h₆, h₇, h₈, h₉, h₁₀⟩⟩

/-- The rows of some of the messages of a queue, numbered from anywhere. -/
theorem rows_spec (qmgr topic : String) {queue messages : List Message} (hsub : messages ⊆ queue)
    (start : ℕ) :
    List.Forall₂ Shows messages (((messages.map Message.entry).zipIdx start).filterMap
      fun (entry, index) => (browseOne qmgr topic queue entry).map fun item =>
        { item with id := index + 1 }) ↔
      ∀ m ∈ messages, ∀ first, queue.find? (fun other => other.messageID = m.messageID) =
        some first → ReadsAs first m := by
  induction messages generalizing start with
  | nil => simp
  | cons m messages ih =>
    obtain ⟨hm, hrest⟩ := List.cons_subset.mp hsub
    obtain ⟨first, hfirst⟩ : ∃ first,
        queue.find? (fun other => other.messageID = m.messageID) = some first := by
      refine Option.isSome_iff_exists.mp (List.find?_isSome.mpr ⟨m, hm, ?_⟩)
      exact decide_eq_true rfl
    obtain ⟨item, hitem, hshows⟩ : ∃ item, browseOne qmgr topic queue m.entry = some item ∧
        (Shows m item ↔ ReadsAs first m) := browseOne_spec hfirst
    rw [List.map_cons, List.zipIdx_cons,
      List.filterMap_cons_some (by dsimp only; rw [hitem]; rfl), List.forall₂_cons,
      ih hrest, shows_number, hshows, List.forall_mem_cons, hfirst]
    simp

/-- **A browse shows what is on the queue**, row by row, exactly if the first message with the
identifier of each listed one reads as that one. -/
theorem query_right_iff (qmgr : String) (queue : List Message) (params : MessageQueryParams)
    (htopic : trimSpace params.topic ≠ "") (hid : trimSpace params.messageID = "") :
    ∃ items, queryMessages qmgr queue params = .ok items ∧
      (Right queue (limitOf params.maxResults) items ↔
        Told queue (limitOf params.maxResults)) := by
  refine ⟨_, ?_, rows_spec qmgr (trimSpace params.topic) (List.take_subset _ _) 0⟩
  rw [queryMessages, if_neg htopic, if_neg (not_not.mpr hid)]
  rfl


/-! ### Two messages with one identifier -/

def plainDescriptor : Descriptor where
  correlationID := ""
  persistence := "nonPersistent"
  expiry := "unlimited"
  replyToQueue := ""
  replyToQmgr := ""
  userProperties := ∅
  canonical := fun name value h => by
    rw [ExtTreeMap.getElem?_empty] at h
    cases h

def textMessage (messageID body : String) : Message :=
  ⟨messageID, "MQSTR", some body, plainDescriptor⟩

def browseOrders : MessageQueryParams := ⟨"ORDERS", "", 10⟩

/-- Messages with identifiers of their own are shown as they are. -/
theorem own_identifiers_right : ∃ items,
    queryMessages "QM1" [textMessage "a1" "first", textMessage "a2" "second"] browseOrders =
      .ok items ∧
      Right [textMessage "a1" "first", textMessage "a2" "second"]
        (limitOf browseOrders.maxResults) items := by
  obtain ⟨items, hitems, hright⟩ := query_right_iff "QM1"
    [textMessage "a1" "first", textMessage "a2" "second"] browseOrders (by decide) (by decide)
  refine ⟨items, hitems, hright.mpr fun m hm first hfirst => ?_⟩
  have hlimit : limitOf browseOrders.maxResults = 10 := rfl
  rw [hlimit] at hm
  rcases List.mem_cons.mp hm with rfl | hm
  · obtain rfl := Option.some.inj hfirst
    exact ⟨rfl, fun _ => ⟨.inl rfl, rfl, rfl, rfl, rfl, rfl⟩⟩
  · obtain rfl := List.mem_singleton.mp hm
    obtain rfl := Option.some.inj hfirst
    exact ⟨rfl, fun _ => ⟨.inl rfl, rfl, rfl, rfl, rfl, rfl⟩⟩

/-- The second of two messages with one identifier is shown with the text of the first. -/
theorem second_shown_as_first : ∃ items,
    queryMessages "QM1" [textMessage "a1" "first", textMessage "a1" "second"] browseOrders =
      .ok items ∧
      ¬Right [textMessage "a1" "first", textMessage "a1" "second"]
        (limitOf browseOrders.maxResults) items := by
  refine ⟨_, rfl, fun hright => ?_⟩
  have hall := (rows_spec "QM1" (trimSpace browseOrders.topic) (List.take_subset _ _) 0).mp hright
  have hsame := hall (textMessage "a1" "second") (by simp [limitOf, browseOrders, maxBrowseLimit])
    (textMessage "a1" "first") rfl
  exact absurd hsame.1 (by decide)


end MqStudio.Ibmmq.Browse
