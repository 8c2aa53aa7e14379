import MqStudio.Lib.Parts
import MqStudio.Lib.Strconv
import MqStudio.Lib.Text
import MqStudio.Lib.Transition
import MqStudio.Lib.Maps

/-!
# Putting an Azure dead letter back

`azureservicebus/deadletter.go`: `ResendMessage` receives dead letters in order, hands
back those it does not look for, sends a copy of the one it does and completes it.

* `World.step`: the steps of one call and what the broker makes of each.
* `World.Kept`: no letter leaves the store before a copy is accepted.
* `resend_right_iff`: a call is always right exactly if the letter is out of its search,
  or comes last in every batch it is received first with.
-/

namespace MqStudio.Azureservicebus

open Std (ExtTreeMap)
open Lib.Strconv Lib.Text Lib.Transition

/-! ### Messages and names -/

/-- A received message, with what a copy carries of it. -/
structure ReceivedMessage where
  sequenceNumber : Option Int
  body : List UInt8
  subject : Option String
  correlationID : Option String
  contentType : Option String
  replyTo : Option String
  toAddress : Option String
  sessionID : Option String
  partitionKey : Option String
  applicationProperties : ExtTreeMap String String compare

structure Message where
  body : List UInt8
  subject : Option String
  correlationID : Option String
  contentType : Option String
  replyTo : Option String
  toAddress : Option String
  sessionID : Option String
  partitionKey : Option String
  applicationProperties : ExtTreeMap String String compare

/-- The properties the service writes when it gives up on a message. -/
def deadLetterAnnotations : List String :=
  ["DeadLetterReason", "DeadLetterErrorDescription", "DeadLetterSource"]

/-- The copy that goes back, without the marks of the failure. -/
def resubmit (message : ReceivedMessage) : Message where
  body := message.body
  subject := message.subject
  correlationID := message.correlationID
  contentType := message.contentType
  replyTo := message.replyTo
  toAddress := message.toAddress
  sessionID := message.sessionID.filter (· ≠ "")
  partitionKey := message.partitionKey
  applicationProperties :=
    message.applicationProperties.filter fun name _ => name ∉ deadLetterAnnotations

inductive ResendError where
  | connectionDown
  | noEntity
  | noName (kind : String)
  | subEntity (name kind : String)
  | notASequence (messageID : String)
  | openReader (label err : String)
  | openSender (entity err : String)
  | reading (label err : String)
  | puttingBack (sequence : Int) (entity err : String)
  | stillThere (sequence : Int) (entity err : String)
  | notAmong (sequence : Int) (first : Nat) (label : String)

def requiredName (kind name : String) : Except ResendError String :=
  let trimmed := trimSpace name
  if trimmed = "" then .error (.noName kind)
  else if hasPrefix trimmed "$" ∨ "/$".toList <:+: trimmed.toList then
    .error (.subEntity trimmed kind)
  else .ok trimmed

/-- Splits "queue" or "topic/subscription" into its parts. -/
def entityPath (path : String) : Except ResendError (String × String) :=
  let trimmed := trimSpace path
  if trimmed = "" then .error .noEntity
  else match cut '/' trimmed.toList with
    | none => (requiredName "queue" trimmed).map fun name => (name, "")
    | some (entity, subscription) =>
      match requiredName "topic" (String.ofList entity) with
      | .error err => .error err
      | .ok _ =>
        match requiredName "subscription" (String.ofList subscription) with
        | .error err => .error err
        | .ok _ => .ok (String.ofList entity, String.ofList subscription)

def browseLabel (entity subscription : String) (deadLetters : Bool) : String :=
  let name := if subscription = "" then entity else entity ++ "/" ++ subscription
  if deadLetters then name ++ "/$DeadLetterQueue" else name

/-! ### One call -/

/-- How many dead letters a resend receives at most. -/
def resendSearch : Nat := 200

/-- How many it asks for at once. -/
def resendBatch : Nat := 20

structure Request where
  consumerGroup : String
  messageID : String

/-- What a request names, once it was read. -/
structure Target where
  entity : String
  subscription : String
  sequence : Int

def Request.target (request : Request) : Except ResendError Target :=
  match entityPath request.consumerGroup with
  | .error err => .error err
  | .ok (entity, subscription) =>
    match parseInt 64 (trimSpace request.messageID).toList with
    | none => .error (.notASequence request.messageID)
    | some sequence => .ok ⟨entity, subscription, sequence⟩

def Target.label (target : Target) : String := browseLabel target.entity target.subscription true

def Target.notAmong (target : Target) : ResendError :=
  .notAmong target.sequence resendSearch target.label

/-- Where the call is. -/
inductive Phase where
  | starting
  | openingReader (target : Target)
  | openingSender (target : Target)
  | receiving (target : Target)
  /-- The messages of the batch that are still to be looked at. -/
  | handling (target : Target) (batch : List ReceivedMessage)
  | handingBack (target : Target) (message : ReceivedMessage) (err : String)
  | completing (target : Target) (message : ReceivedMessage)
  | returned (result : Except ResendError String)

/-- The broker's side is the dead-letter store in sequence order, the numbers of the letters that
are locked and the copies the entity accepted.  The rest is the call's, with the messages each of
its calls was made for, and whether a step failed. -/
structure World where
  request : Request
  letters : List ReceivedMessage
  locked : List (Option Int)
  accepted : List Message
  received : List ReceivedMessage
  abandoned : List ReceivedMessage
  sent : List Message
  completed : List ReceivedMessage
  searched : Nat
  failed : Bool
  phase : Phase

def World.new (request : Request) (letters : List ReceivedMessage) : World where
  request := request
  letters := letters
  locked := []
  accepted := []
  received := []
  abandoned := []
  sent := []
  completed := []
  searched := 0
  failed := false
  phase := .starting

/-- The letters nobody has locked. -/
def World.offered (w : World) : List ReceivedMessage :=
  w.letters.filter fun letter => letter.sequenceNumber ∉ w.locked

/-- How many letters a receive can hand over. -/
def World.most (w : World) : Nat :=
  min (min (resendSearch - w.searched) resendBatch) w.offered.length

/-- A step, with what comes of it.  One that fails may have been done all the same. -/
inductive Label where
  | start (down : Bool)
  | openReader (err : Option String)
  | openSender (err : Option String)
  | receive (n : Nat)
  | receiveFails (err : String)
  /-- The wait for a first letter ran out. -/
  | timeout
  /-- The search has come to its end. -/
  | stop
  | nextBatch
  | abandon (ok done : Bool)
  | send (err : Option String) (done : Bool)
  | handBack (ok done : Bool)
  | complete (err : Option String) (done : Bool)
  /-- The lock on a letter runs out. -/
  | expire (sequence : Option Int)

def World.unlock (w : World) (sequence : Option Int) : List (Option Int) :=
  w.locked.filter (· ≠ sequence)

def World.start (w : World) (down : Bool) : World :=
  if down then { w with failed := true, phase := .returned (.error .connectionDown) }
  else match w.request.target with
    | .error err => { w with phase := .returned (.error err) }
    | .ok target => { w with phase := .openingReader target }

/-- The next letters in order that are not locked: at least one, and at least `least` of them where
there are so many. -/
def World.receive (least : Nat) (w : World) (target : Target) (n : Nat) : Option World :=
  if 0 < n ∧ n ≤ w.most ∧ min least w.most ≤ n then
    some { w with
      locked := w.locked ++ (w.offered.take n).map (·.sequenceNumber)
      received := w.received ++ w.offered.take n
      searched := w.searched + n
      phase := .handling target (w.offered.take n) }
  else none

/-- A message that is not the one goes straight back. -/
def World.abandon (w : World) (message : ReceivedMessage) (phase : Phase) (ok done : Bool) :
    World :=
  { w with
    abandoned := w.abandoned ++ [message]
    locked := if ok || done then w.unlock message.sequenceNumber else w.locked
    failed := w.failed || !ok
    phase := phase }

def World.send (w : World) (target : Target) (message : ReceivedMessage) (err : Option String)
    (done : Bool) : World :=
  let copied := resubmit message
  let w' := { w with sent := w.sent ++ [copied] }
  match err with
  | none => { w' with accepted := w.accepted ++ [copied], phase := .completing target message }
  | some err =>
    { w' with
      accepted := if done then w.accepted ++ [copied] else w.accepted
      failed := true
      phase := .handingBack target message err }

def World.complete (w : World) (target : Target) (message : ReceivedMessage) (err : Option String)
    (done : Bool) : World :=
  let rest := w.letters.filter fun letter => letter.sequenceNumber ≠ message.sequenceNumber
  let w' := { w with completed := w.completed ++ [message] }
  match err with
  | none => { w' with letters := rest, phase := .returned (.ok (toString target.sequence)) }
  | some err =>
    { w' with
      letters := if done then rest else w.letters
      failed := true
      phase := .returned (.error (.stillThere target.sequence target.entity err)) }

def World.step (least : Nat) (w : World) : Label → Option World
  | .start down =>
    match w.phase with
    | .starting => some (w.start down)
    | _ => none
  | .openReader err =>
    match w.phase, err with
    | .openingReader target, none => some { w with phase := .openingSender target }
    | .openingReader target, some err =>
      some { w with failed := true, phase := .returned (.error (.openReader target.label err)) }
    | _, _ => none
  | .openSender err =>
    match w.phase, err with
    | .openingSender target, none => some { w with phase := .receiving target }
    | .openingSender target, some err =>
      some { w with failed := true, phase := .returned (.error (.openSender target.entity err)) }
    | _, _ => none
  | .receive n =>
    match w.phase with
    | .receiving target => if w.searched < resendSearch then w.receive least target n else none
    | _ => none
  | .receiveFails err =>
    match w.phase with
    | .receiving target =>
      if w.searched < resendSearch then
        some { w with failed := true, phase := .returned (.error (.reading target.label err)) }
      else none
    | _ => none
  | .timeout =>
    match w.phase with
    | .receiving target =>
      if w.searched < resendSearch then
        some { w with
          failed := w.failed || !w.offered.isEmpty
          phase := .returned (.error target.notAmong) }
      else none
    | _ => none
  | .stop =>
    match w.phase with
    | .receiving target =>
      if w.searched < resendSearch then none
      else some { w with phase := .returned (.error target.notAmong) }
    | _ => none
  | .nextBatch =>
    match w.phase with
    | .handling target [] => some { w with phase := .receiving target }
    | _ => none
  | .abandon ok done =>
    match w.phase with
    | .handling target (message :: batch) =>
      if message.sequenceNumber = some target.sequence then none
      else some (w.abandon message (.handling target batch) ok done)
    | _ => none
  | .send err done =>
    match w.phase with
    | .handling target (message :: _) =>
      if message.sequenceNumber = some target.sequence then some (w.send target message err done)
      else none
    | _ => none
  | .handBack ok done =>
    match w.phase with
    | .handingBack target message err =>
      some (w.abandon message
        (.returned (.error (.puttingBack target.sequence target.entity err))) ok done)
    | _ => none
  | .complete err done =>
    match w.phase with
    | .completing target message => some (w.complete target message err done)
    | _ => none
  | .expire sequence => some { w with locked := w.unlock sequence }

/-- A dead-letter store: every letter has a number, and they are in the order of their numbers. -/
structure Store where
  letters : List ReceivedMessage
  numbered : ∀ letter ∈ letters, letter.sequenceNumber ≠ none
  sorted : letters.Pairwise fun a b =>
    ∀ m ∈ a.sequenceNumber, ∀ n ∈ b.sequenceNumber, m < n

theorem Store.nodup (store : Store) : (store.letters.map (·.sequenceNumber)).Nodup := by
  refine List.pairwise_map.mpr (store.sorted.imp_of_mem fun {a b} ha _ hlt he => ?_)
  obtain ⟨n, hn⟩ := Option.ne_none_iff_exists'.mp (store.numbered a ha)
  exact lt_irrefl n (hlt n hn n (he ▸ hn))

/-- Two letters of a store have two numbers. -/
theorem Store.eq_of_sequenceNumber (store : Store) {a b : ReceivedMessage} (ha : a ∈ store.letters)
    (hb : b ∈ store.letters) (h : a.sequenceNumber = b.sequenceNumber) : a = b :=
  List.inj_on_of_nodup_map store.nodup ha hb h

/-- One call over a store that nobody else reads or fills, where a receive hands over at least
`least` letters if so many are there and asked for. -/
def resending (least : Nat) (request : Request) (store : Store) : System World Label where
  Init w := w = World.new request store.letters
  Step w label v := w.step least label = some v

/-! ### What is right -/

/-- The request names this letter. -/
def Request.Asks (request : Request) (letter : ReceivedMessage) : Prop :=
  ∃ target, request.target = .ok target ∧ letter.sequenceNumber = some target.sequence

/-- Every letter of the store is still there, or it is the one asked for and the entity accepted a
copy of it. -/
def World.Kept (letters : List ReceivedMessage) (w : World) : Prop :=
  ∀ letter ∈ letters, letter ∈ w.letters ∨
    w.request.Asks letter ∧ resubmit letter ∈ w.accepted

/-- One copy was sent, of a letter that was asked for.  It was completed, and whatever else was
received was abandoned. -/
def World.Resent (w : World) : Prop :=
  ∃ letter, w.request.Asks letter ∧ w.sent = [resubmit letter] ∧ w.completed = [letter] ∧
    w.received.Perm (letter :: w.abandoned)

/-- The step is one of the call's own. -/
def Label.ofCall : Label → Bool
  | .expire _ => false
  | _ => true

/-- The most steps one call can take. -/
def callSteps : Nat := 3 * resendSearch + 7

/-- The call can go on without a failure. -/
def World.GoesOn (least : Nat) (w : World) : Prop :=
  ∃ label v, label.ofCall = true ∧ w.step least label = some v ∧ v.failed = w.failed

/-- At every point of the call nothing is lost.  A success leaves nothing behind.  The call comes to
an end, and where no step fails it finds the letter among the first of the store. -/
def Right (least : Nat) (request : Request) (store : Store) : Prop :=
  ∀ labels w, Path (resending least request store) (World.new request store.letters) labels w →
    w.Kept store.letters ∧
    (∀ sequence, w.phase = .returned (.ok sequence) → w.Resent) ∧
    (labels.filter Label.ofCall).length ≤ callSteps ∧
    ((∀ result, w.phase ≠ .returned result) → w.GoesOn least) ∧
    ((∃ letter ∈ store.letters.take resendSearch, request.Asks letter) → w.failed = false →
      ∀ result, w.phase = .returned result → ∃ sequence, result = .ok sequence)

/-- The letter is out of the search, or comes with the first batch, as the last of it. -/
def Last (least : Nat) (request : Request) (store : Store) : Prop :=
  ∀ front letter rest, store.letters = front ++ letter :: rest → request.Asks letter →
    resendSearch ≤ front.length ∨
      front.length < max least 1 ∧ front.length < resendBatch ∧
        (rest = [] ∨ front.length + 1 = resendBatch)

/-! ### What a step can do -/

/-- A phase in front of the first message that is looked at. -/
def Phase.Early : Phase → Prop
  | .starting | .openingReader _ | .openingSender _ | .receiving _ => True
  | _ => False

/-- There is nothing to find. -/
def World.Exhausted (w : World) : Prop :=
  (∃ err, w.request.target = .error err) ∨ w.offered = [] ∨ resendSearch ≤ w.searched

/-- What a step leaves, and when it can be taken.  The flag tells the steps of the call. -/
inductive Move (least : Nat) (w : World) : Bool → World → Prop where
  | expire (sequence : Option Int) : Move least w false { w with locked := w.unlock sequence }
  | gives {err : ResendError} {failed : Bool} (h : w.phase.Early)
      (hfine : failed = false → w.failed = false ∧ w.Exhausted) :
      Move least w true { w with failed := failed, phase := .returned (.error err) }
  | begins {target : Target} (h : w.phase = .starting) (ht : w.request.target = .ok target) :
      Move least w true { w with phase := .openingReader target }
  | opened {target : Target} (h : w.phase = .openingReader target) :
      Move least w true { w with phase := .openingSender target }
  | ready {target : Target} (h : w.phase = .openingSender target) :
      Move least w true { w with phase := .receiving target }
  | received {target : Target} {n : Nat} {v : World} (h : w.phase = .receiving target)
      (hv : w.receive least target n = some v) : Move least w true v
  | again {target : Target} (h : w.phase = .handling target []) :
      Move least w true { w with phase := .receiving target }
  | abandoned {target : Target} {message : ReceivedMessage} {batch : List ReceivedMessage}
      {ok done : Bool} (h : w.phase = .handling target (message :: batch))
      (hne : message.sequenceNumber ≠ some target.sequence) :
      Move least w true (w.abandon message (.handling target batch) ok done)
  | sent {target : Target} {message : ReceivedMessage} {batch : List ReceivedMessage}
      {err : Option String} {done : Bool} (h : w.phase = .handling target (message :: batch))
      (heq : message.sequenceNumber = some target.sequence) :
      Move least w true (w.send target message err done)
  | handedBack {target : Target} {message : ReceivedMessage} {err : String} {ok done : Bool}
      (h : w.phase = .handingBack target message err) :
      Move least w true (w.abandon message
        (.returned (.error (.puttingBack target.sequence target.entity err))) ok done)
  | completed {target : Target} {message : ReceivedMessage} {err : Option String} {done : Bool}
      (h : w.phase = .completing target message) :
      Move least w true (w.complete target message err done)

variable {least : Nat} {w v : World} {label : Label} {own : Bool}

theorem World.start_move (h : w.phase = .starting) (down : Bool) :
    Move least w true (w.start down) := by
  have hearly : w.phase.Early := by simp [h, Phase.Early]
  unfold World.start
  split
  · exact .gives hearly nofun
  · split
    · rename_i err ht
      exact .gives hearly fun hf => ⟨hf, Or.inl ⟨err, ht⟩⟩
    · rename_i target ht
      exact .begins h ht

theorem Move.of_step (h : w.step least label = some v) :
    Move least w label.ofCall v := by
  cases label with
  | start down =>
    simp only [World.step] at h
    split at h
    · rename_i hp
      exact Option.some.inj h ▸ World.start_move hp down
    · cases h
  | openReader err =>
    simp only [World.step] at h
    split at h
    · rename_i hp
      exact Option.some.inj h ▸ .opened hp
    · rename_i hp
      exact Option.some.inj h ▸ .gives (by simp [hp, Phase.Early]) nofun
    · cases h
  | openSender err =>
    simp only [World.step] at h
    split at h
    · rename_i hp
      exact Option.some.inj h ▸ .ready hp
    · rename_i hp
      exact Option.some.inj h ▸ .gives (by simp [hp, Phase.Early]) nofun
    · cases h
  | receive n =>
    simp only [World.step] at h
    split at h
    · rename_i hp
      split at h
      · exact .received hp h
      · cases h
    · cases h
  | receiveFails err =>
    simp only [World.step] at h
    split at h
    · rename_i hp
      split at h
      · exact Option.some.inj h ▸ .gives (by simp [hp, Phase.Early]) nofun
      · cases h
    · cases h
  | timeout =>
    simp only [World.step] at h
    split at h
    · rename_i hp
      split at h
      · refine Option.some.inj h ▸ .gives (by simp [hp, Phase.Early]) fun hf => ?_
        simp only [Bool.or_eq_false_iff, Bool.not_eq_false', List.isEmpty_iff] at hf
        exact ⟨hf.1, Or.inr (Or.inl hf.2)⟩
      · cases h
    · cases h
  | stop =>
    simp only [World.step] at h
    split at h
    · rename_i hp
      split at h
      · cases h
      · rename_i hlt
        exact Option.some.inj h ▸ .gives (by simp [hp, Phase.Early]) fun hf =>
          ⟨hf, Or.inr (Or.inr (by omega))⟩
    · cases h
  | nextBatch =>
    simp only [World.step] at h
    split at h
    · rename_i hp
      exact Option.some.inj h ▸ .again hp
    · cases h
  | abandon ok done =>
    simp only [World.step] at h
    split at h
    · rename_i hp
      split at h
      · cases h
      · rename_i hne
        exact Option.some.inj h ▸ .abandoned hp hne
    · cases h
  | send err done =>
    simp only [World.step] at h
    split at h
    · rename_i hp
      split at h
      · rename_i heq
        exact Option.some.inj h ▸ .sent hp heq
      · cases h
    · cases h
  | handBack ok done =>
    simp only [World.step] at h
    split at h
    · rename_i hp
      exact Option.some.inj h ▸ .handedBack hp
    · cases h
  | complete err done =>
    simp only [World.step] at h
    split at h
    · rename_i hp
      exact Option.some.inj h ▸ .completed hp
    · cases h
  | expire sequence => exact Option.some.inj h ▸ .expire sequence

/-! ### Nothing is lost -/

/-- Nothing was sent or completed, and the store is what it was. -/
structure World.Untouched (letters : List ReceivedMessage) (w : World) : Prop where
  letters : w.letters = letters
  sent : w.sent = []
  completed : w.completed = []

/-- Nothing was received. -/
structure World.Fresh (w : World) : Prop where
  received : w.received = []
  abandoned : w.abandoned = []
  locked : w.locked = []
  searched : w.searched = 0

/-- What is so in a phase of the call. -/
def World.At (letters : List ReceivedMessage) (w : World) : Phase → Prop
  | .starting => w.Untouched letters ∧ w.Fresh
  | .openingReader target | .openingSender target =>
    w.request.target = .ok target ∧ w.Untouched letters ∧ w.Fresh
  | .receiving target =>
    w.request.target = .ok target ∧ w.Untouched letters ∧ w.received = w.abandoned
  | .handling target batch =>
    w.request.target = .ok target ∧ w.Untouched letters ∧ batch ⊆ letters ∧
      w.received = w.abandoned ++ batch
  | .handingBack _ _ _ => w.letters = letters
  | .completing target message =>
    w.letters = letters ∧ message ∈ letters ∧ w.request.target = .ok target ∧
      message.sequenceNumber = some target.sequence ∧ resubmit message ∈ w.accepted ∧
      w.sent = [resubmit message] ∧ w.completed = [] ∧
      ∃ batch, w.received = w.abandoned ++ message :: batch
  | .returned (.ok _) =>
    ∃ message ∈ letters, w.request.Asks message ∧ w.sent = [resubmit message] ∧
      w.completed = [message] ∧ ∃ batch, w.received = w.abandoned ++ message :: batch
  | .returned (.error _) => True

structure World.Sound (request : Request) (letters : List ReceivedMessage) (w : World) : Prop where
  request : w.request = request
  kept : w.Kept letters
  locked : w.locked.length ≤ w.searched
  searched : w.searched ≤ resendSearch
  phase : w.At letters w.phase

variable {request : Request} {letters : List ReceivedMessage}

theorem length_unlock (w : World) (sequence : Option Int) :
    (w.unlock sequence).length ≤ w.locked.length := List.length_filter_le ..

theorem offered_subset (w : World) : w.offered ⊆ w.letters := List.filter_subset_self _

theorem most_le (w : World) :
    w.most ≤ resendSearch - w.searched ∧ w.most ≤ resendBatch ∧ w.most ≤ w.offered.length := by
  rw [World.most]
  omega

/-- What a receive takes and leaves. -/
theorem receive_eq {target : Target} {n : Nat} (h : w.receive least target n = some v) :
    (0 < n ∧ n ≤ w.most ∧ min least w.most ≤ n) ∧
      v = { w with
        locked := w.locked ++ (w.offered.take n).map (·.sequenceNumber)
        received := w.received ++ w.offered.take n
        searched := w.searched + n
        phase := .handling target (w.offered.take n) } := by
  unfold World.receive at h
  split at h
  · rename_i hn
    exact ⟨hn, (Option.some.inj h).symm⟩
  · cases h

theorem sound_new (request : Request) (letters : List ReceivedMessage) :
    (World.new request letters).Sound request letters where
  request := rfl
  kept _ h := Or.inl h
  locked := Nat.le_refl 0
  searched := Nat.zero_le _
  phase := ⟨⟨rfl, rfl, rfl⟩, ⟨rfl, rfl, rfl, rfl⟩⟩

/-- Only the letter that is completed leaves the store. -/
theorem kept_complete {store : Store} {target : Target} {message : ReceivedMessage}
    (hw : w.Sound request store.letters) (h : w.phase = .completing target message)
    (err : Option String) (done : Bool) :
    (w.complete target message err done).Kept store.letters := by
  have hat := hw.phase
  rw [h] at hat
  obtain ⟨hletters, hmem, htarget, hseq, haccepted, -⟩ := hat
  have hrest : ∀ letter ∈ store.letters,
      letter ∈ (w.letters.filter fun other => other.sequenceNumber ≠ message.sequenceNumber) ∨
        w.request.Asks letter ∧ resubmit letter ∈ w.accepted := by
    intro letter hl
    by_cases he : letter.sequenceNumber = message.sequenceNumber
    · obtain rfl := store.eq_of_sequenceNumber hl hmem he
      exact Or.inr ⟨⟨target, htarget, hseq⟩, haccepted⟩
    · exact Or.inl (List.mem_filter.mpr ⟨hletters ▸ hl, by simpa using he⟩)
  intro letter hl
  unfold World.complete
  cases err with
  | none => exact hrest letter hl
  | some err =>
    cases done with
    | true => exact hrest letter hl
    | false => exact hw.kept letter hl

theorem sound_move {store : Store} (hw : w.Sound request store.letters) (h : Move least w own v) :
    v.Sound request store.letters := by
  have hat := hw.phase
  cases h with
  | expire sequence =>
    refine ⟨hw.request, hw.kept, (length_unlock w sequence).trans hw.locked, hw.searched, ?_⟩
    change ({ w with locked := w.unlock sequence } : World).At store.letters w.phase
    generalize w.phase = phase at hat
    cases phase with
    | starting =>
      obtain ⟨hu, hf⟩ := hat
      exact ⟨⟨hu.1, hu.2, hu.3⟩, ⟨hf.1, hf.2, by simp [World.unlock, hf.locked], hf.4⟩⟩
    | openingReader target | openingSender target =>
      obtain ⟨ht, hu, hf⟩ := hat
      exact ⟨ht, ⟨hu.1, hu.2, hu.3⟩, ⟨hf.1, hf.2, by simp [World.unlock, hf.locked], hf.4⟩⟩
    | receiving target =>
      obtain ⟨ht, hu, hr⟩ := hat
      exact ⟨ht, ⟨hu.1, hu.2, hu.3⟩, hr⟩
    | handling target batch =>
      obtain ⟨ht, hu, hr⟩ := hat
      exact ⟨ht, ⟨hu.1, hu.2, hu.3⟩, hr⟩
    | handingBack target message err => exact hat
    | completing target message => exact hat
    | returned result => cases result <;> exact hat
  | gives he hfine => exact ⟨hw.request, hw.kept, hw.locked, hw.searched, trivial⟩
  | begins hp ht =>
    rw [hp] at hat
    obtain ⟨hu, hf⟩ := hat
    exact ⟨hw.request, hw.kept, hw.locked, hw.searched, ht, ⟨hu.1, hu.2, hu.3⟩,
      ⟨hf.1, hf.2, hf.3, hf.4⟩⟩
  | opened hp =>
    rw [hp] at hat
    obtain ⟨ht, hu, hf⟩ := hat
    exact ⟨hw.request, hw.kept, hw.locked, hw.searched, ht, ⟨hu.1, hu.2, hu.3⟩,
      ⟨hf.1, hf.2, hf.3, hf.4⟩⟩
  | ready hp =>
    rw [hp] at hat
    obtain ⟨ht, hu, hf⟩ := hat
    exact ⟨hw.request, hw.kept, hw.locked, hw.searched, ht, ⟨hu.1, hu.2, hu.3⟩,
      hf.received.trans hf.abandoned.symm⟩
  | @received target n _ hp hv =>
    rw [hp] at hat
    obtain ⟨ht, hu, hr⟩ := hat
    obtain ⟨⟨-, hn, -⟩, rfl⟩ := receive_eq hv
    have hmost := most_le w
    have hlen : (w.offered.take n).length = n := by
      rw [List.length_take]
      omega
    refine ⟨hw.request, hw.kept, ?_, ?_, ht, ⟨hu.1, hu.2, hu.3⟩, ?_, ?_⟩
    · have := hw.locked
      simp only [List.length_append, List.length_map, hlen]
      omega
    · have := hw.searched
      change w.searched + n ≤ resendSearch
      omega
    · intro letter hl
      exact hu.letters ▸ offered_subset w (List.mem_of_mem_take hl)
    · change w.received ++ _ = w.abandoned ++ _
      rw [hr]
  | again hp =>
    rw [hp] at hat
    obtain ⟨ht, hu, -, hr⟩ := hat
    exact ⟨hw.request, hw.kept, hw.locked, hw.searched, ht, ⟨hu.1, hu.2, hu.3⟩,
      hr.trans (List.append_nil _)⟩
  | @abandoned target message batch ok done hp hne =>
    rw [hp] at hat
    obtain ⟨ht, hu, hsub, hr⟩ := hat
    refine ⟨hw.request, hw.kept, ?_, hw.searched, ht, ⟨hu.1, hu.2, hu.3⟩,
      (List.cons_subset.mp hsub).2, by simp [World.abandon, hr]⟩
    rw [World.abandon]
    split
    · exact (length_unlock w _).trans hw.locked
    · exact hw.locked
  | @sent target message batch err done hp heq =>
    rw [hp] at hat
    obtain ⟨ht, hu, hsub, hr⟩ := hat
    have hmem : message ∈ store.letters := hsub List.mem_cons_self
    have hkept : ∀ letter ∈ store.letters, letter ∈ w.letters := fun letter hl => hu.letters ▸ hl
    cases err with
    | none =>
      exact ⟨hw.request, fun letter hl => Or.inl (hkept letter hl), hw.locked, hw.searched,
        hu.letters, hmem, ht, heq, by simp [World.send], by simp [World.send, hu.sent],
        hu.completed, batch, hr⟩
    | some err =>
      exact ⟨hw.request, fun letter hl => Or.inl (hkept letter hl), hw.locked, hw.searched,
        hu.letters⟩
  | @handedBack target message err ok done hp =>
    refine ⟨hw.request, hw.kept, ?_, hw.searched, trivial⟩
    rw [World.abandon]
    split
    · exact (length_unlock w _).trans hw.locked
    · exact hw.locked
  | @completed target message err done hp =>
    have hkept := kept_complete hw hp err done
    rw [hp] at hat
    obtain ⟨-, hmem, ht, hseq, -, hsent, hcompleted, batch, hr⟩ := hat
    cases err with
    | none =>
      exact ⟨hw.request, hkept, hw.locked, hw.searched, message, hmem, ⟨target, ht, hseq⟩, hsent,
        by simp [World.complete, hcompleted], batch, hr⟩
    | some err => exact ⟨hw.request, hkept, hw.locked, hw.searched, trivial⟩

theorem sound_of_reachable {store : Store}
    (h : Reachable (resending least request store) w) : w.Sound request store.letters :=
  h.inv (P := fun w => w.Sound request store.letters)
    (fun _ hi => hi ▸ sound_new request store.letters)
    fun _ _ _ hw hs => sound_move hw (.of_step hs)

/-! ### A letter beyond the search -/

theorem asks_unique {store : Store} {a b : ReceivedMessage} (ha : a ∈ store.letters)
    (hb : b ∈ store.letters) (hasks : request.Asks a) (hasks' : request.Asks b) : a = b := by
  obtain ⟨target, ht, hs⟩ := hasks
  obtain ⟨target', ht', hs'⟩ := hasks'
  obtain rfl := Except.ok.inj (ht.symm.trans ht')
  exact store.eq_of_sequenceNumber ha hb (hs.trans hs'.symm)

theorem notMem_front {store : Store} {front rest : List ReceivedMessage} {letter : ReceivedMessage}
    (h : store.letters = front ++ letter :: rest) : letter ∉ front := by
  have hnodup : (front ++ letter :: rest).Nodup := h ▸ store.nodup.of_map
  exact fun hmem => (List.nodup_append.mp hnodup).2.2 letter hmem letter List.mem_cons_self rfl

/-- What a receive hands over is no further from the front than the search has come. -/
theorem position_lt {store : Store} (hw : w.Sound request store.letters)
    (hletters : w.letters = store.letters) {front rest : List ReceivedMessage}
    {letter : ReceivedMessage} (h : store.letters = front ++ letter :: rest) {n : Nat}
    (hn : letter ∈ w.offered.take n) : front.length < w.searched + n := by
  rw [World.offered, hletters, h] at hn
  have hfree := Lib.Parts.length_filter_lt_of_mem_take (notMem_front h) hn
  -- The letters in front of it that are locked have numbers of their own.
  have hheld : (front.filter fun letter => !decide (letter.sequenceNumber ∉ w.locked)).length ≤
      w.locked.length := by
    have hnodup : ((front.filter fun letter => !decide (letter.sequenceNumber ∉ w.locked)).map
        (·.sequenceNumber)).Nodup := by
      refine List.Nodup.sublist (List.Sublist.map _ List.filter_sublist) ?_
      have := store.nodup
      rw [h, List.map_append] at this
      exact (List.nodup_append.mp this).1
    refine (List.length_map (·.sequenceNumber)).symm.le.trans
      (hnodup.subperm fun number hm => ?_).length_le
    obtain ⟨other, ho, rfl⟩ := List.mem_map.mp hm
    simpa using (List.mem_filter.mp ho).2
  have hsplit := List.length_eq_length_filter_add (l := front) fun letter =>
    decide (letter.sequenceNumber ∉ w.locked)
  have := hw.locked
  omega

/-- The call never gets to the letter. -/
def Phase.Missing (request : Request) : Phase → Prop
  | .handling _ batch => ∀ letter ∈ batch, ¬ request.Asks letter
  | .handingBack _ _ _ | .completing _ _ | .returned (.ok _) => False
  | _ => True

theorem missing_move {store : Store} (hfar : ∀ front letter rest,
      store.letters = front ++ letter :: rest → request.Asks letter → resendSearch ≤ front.length)
    (hw : w.Sound request store.letters) (hm : w.phase.Missing request) (h : Move least w own v) :
    v.phase.Missing request := by
  have hat := hw.phase
  cases h with
  | expire sequence => exact hm
  | gives | begins | opened | ready | again => trivial
  | @received target n _ hp hv =>
    rw [hp] at hat
    obtain ⟨⟨-, hn, -⟩, rfl⟩ := receive_eq hv
    intro letter hl hasks
    have hmem : letter ∈ store.letters :=
      hat.2.1.letters ▸ offered_subset w (List.mem_of_mem_take hl)
    obtain ⟨front, rest, hsplit⟩ := List.append_of_mem hmem
    have hge := hfar front letter rest hsplit hasks
    have hlt := position_lt hw hat.2.1.letters hsplit hl
    have := most_le w
    have := hw.searched
    omega
  | @abandoned target message batch ok done hp hne =>
    rw [hp] at hm
    exact fun letter hl => hm letter (List.mem_cons_of_mem _ hl)
  | @sent target message batch err done hp heq =>
    rw [hp] at hm hat
    exact absurd ⟨target, hw.request ▸ hat.1, heq⟩ (hm message List.mem_cons_self)
  | handedBack hp =>
    rw [hp] at hm
    exact hm.elim
  | completed hp =>
    rw [hp] at hm
    exact hm.elim

/-! ### A letter that comes last in its batch -/

/-- The call is in front of its first batch, which ends with the letter, or has got there. -/
def World.Once (front : List ReceivedMessage) (letter : ReceivedMessage) (w : World) : Phase → Prop
  | .starting | .openingReader _ | .openingSender _ => True
  | .receiving _ => w.received = [] ∧ w.locked = [] ∧ w.searched = 0
  | .handling _ batch => w.received = front ++ [letter] ∧ letter ∈ batch
  | .completing _ _ | .returned (.ok _) => w.received = front ++ [letter]
  | .handingBack _ _ _ | .returned (.error _) => w.failed = true

theorem offered_eq (h : w.locked = []) : w.offered = w.letters := by simp [World.offered, h]

/-- Before its first receive the call finds the store as it was. -/
theorem fresh_of_once {store : Store} {front : List ReceivedMessage} {letter : ReceivedMessage}
    (hw : w.Sound request store.letters) (ho : w.Once front letter w.phase) (h : w.phase.Early) :
    w.offered = store.letters ∧ w.received = [] ∧ w.searched = 0 := by
  have hat := hw.phase
  generalize w.phase = phase at hat ho h
  cases phase with
  | starting =>
    obtain ⟨hu, hf⟩ := hat
    exact ⟨(offered_eq hf.locked).trans hu.letters, hf.received, hf.searched⟩
  | openingReader target | openingSender target =>
    obtain ⟨-, hu, hf⟩ := hat
    exact ⟨(offered_eq hf.locked).trans hu.letters, hf.received, hf.searched⟩
  | receiving target =>
    obtain ⟨hr, hl, hs⟩ := ho
    exact ⟨(offered_eq hl).trans hat.2.1.letters, hr, hs⟩
  | _ => exact h.elim

theorem once_move {store : Store} {front rest : List ReceivedMessage} {letter : ReceivedMessage}
    (hsplit : store.letters = front ++ letter :: rest) (hasks : request.Asks letter)
    (hfirst : front.length < max least 1) (hbatch : front.length < resendBatch)
    (hlast : rest = [] ∨ front.length + 1 = resendBatch)
    (hw : w.Sound request store.letters) (ho : w.Once front letter w.phase)
    (h : Move least w own v) :
    v.Once front letter v.phase := by
  have hat := hw.phase
  have hmem : letter ∈ store.letters := by simp [hsplit]
  cases h with
  | expire sequence =>
    change ({ w with locked := w.unlock sequence } : World).Once front letter w.phase
    generalize w.phase = phase at ho
    cases phase with
    | receiving target => exact ⟨ho.1, by simp [World.unlock, ho.2.1], ho.2.2⟩
    | returned result => cases result <;> exact ho
    | _ => exact ho
  | @gives err failed hearly hfine =>
    cases failed with
    | true => rfl
    | false =>
      obtain ⟨target, ht, hs⟩ := hasks
      obtain ⟨-, ⟨err, herr⟩ | hnone | hfar⟩ := hfine rfl
      · rw [hw.request, ht] at herr
        cases herr
      · rw [(fresh_of_once hw ho hearly).1] at hnone
        rw [hnone] at hmem
        cases hmem
      · rw [(fresh_of_once hw ho hearly).2.2] at hfar
        cases hfar
  | begins | opened => trivial
  | ready hp =>
    rw [hp] at hat
    exact ⟨hat.2.2.received, hat.2.2.locked, hat.2.2.searched⟩
  | @received target n _ hp hv =>
    obtain ⟨hoffered, hr, hs⟩ := fresh_of_once hw ho (by simp [hp, Phase.Early])
    obtain ⟨⟨hpos, hle, hge⟩, rfl⟩ := receive_eq hv
    have hn : n = front.length + 1 := by
      rw [World.most, hoffered, hs, hsplit, List.length_append, List.length_cons] at hle hge
      rw [resendBatch] at hbatch hlast hle hge
      rw [resendSearch] at hle hge
      rcases hlast with rfl | hlast
      · simp only [List.length_nil] at hle hge
        omega
      · omega
    have hbatch : w.offered.take n = front ++ [letter] := by
      rw [hoffered, hsplit, hn, List.take_length_add_append]
      rfl
    refine ⟨?_, ?_⟩
    · change w.received ++ w.offered.take n = _
      rw [hr, hbatch]
      rfl
    · rw [hbatch]
      simp
  | again hp =>
    rw [hp] at ho
    cases ho.2
  | @abandoned target message batch ok done hp hne =>
    rw [hp] at ho hat
    refine ⟨ho.1, (List.mem_cons.mp ho.2).resolve_left ?_⟩
    rintro rfl
    obtain ⟨target', ht, hs⟩ := hasks
    obtain rfl := Except.ok.inj (ht.symm.trans (hw.request ▸ hat.1))
    exact hne hs
  | @sent target message batch err done hp heq =>
    rw [hp] at ho
    cases err with
    | none => exact ho.1
    | some err => rfl
  | @handedBack target message err ok done hp =>
    rw [hp] at ho
    change (w.failed || !ok) = true
    rw [show w.failed = true from ho]
    rfl
  | @completed target message err done hp =>
    rw [hp] at ho
    cases err with
    | none => exact ho
    | some err => rfl

/-! ### The call comes to an end -/

/-- A bound on the steps that the call still takes. -/
def World.left (w : World) : Nat :=
  match w.phase with
  | .starting => callSteps
  | .openingReader _ => 3 * resendSearch + 6
  | .openingSender _ => 3 * resendSearch + 5
  | .receiving _ => 3 * (resendSearch - w.searched) + 4
  | .handling _ batch => 3 * (resendSearch - w.searched) + 5 + batch.length
  | .handingBack _ _ _ | .completing _ _ => 1
  | .returned _ => 0

theorem left_of_early (h : w.phase.Early) : 0 < w.left := by
  unfold World.left
  cases hp : w.phase <;> simp_all [Phase.Early, callSteps]

/-- Every step of the call brings it closer to its end. -/
theorem left_move (h : Move least w true v) : v.left < w.left := by
  cases h with
  | gives he => exact left_of_early he
  | begins hp | opened hp => simp [World.left, hp, callSteps]
  | ready hp =>
    simp only [World.left, hp]
    omega
  | @received target n _ hp hv =>
    obtain ⟨⟨hpos, hle, -⟩, rfl⟩ := receive_eq hv
    have := most_le w
    simp only [World.left, hp, List.length_take]
    omega
  | again hp => simp [World.left, hp]
  | abandoned hp => simp [World.left, hp, World.abandon]
  | @sent target message batch err done hp =>
    have hone : (w.send target message err done).left = 1 := by cases err <;> rfl
    rw [hone]
    simp only [World.left, hp]
    omega
  | handedBack hp => simp [World.left, hp, World.abandon]
  | @completed target message err done hp =>
    cases err <;> simp [World.left, hp, World.complete]

theorem left_expire (h : Move least w false v) : v.left = w.left := by
  cases h
  rfl

/-- A call takes no more than `callSteps` steps. -/
theorem callSteps_bound {store : Store} {labels : List Label}
    (h : Path (resending least request store) (World.new request store.letters) labels w) :
    (labels.filter Label.ofCall).length + w.left ≤ callSteps := by
  generalize hs : World.new request store.letters = s at h
  induction h with
  | refl => simp [← hs, World.left, World.new]
  | @tail t u is i _ hstep ih =>
    subst hs
    have hmove := Move.of_step hstep
    rw [List.filter_append, List.length_append]
    cases hown : i.ofCall with
    | true =>
      rw [hown] at hmove
      have := left_move hmove
      simp only [List.filter_cons, hown, if_true, List.filter_nil, List.length_singleton]
      omega
    | false =>
      rw [hown] at hmove
      rw [left_expire hmove]
      simpa [hown] using ih

/-- A call that has not returned can go on without a failure. -/
theorem goesOn_of_not_returned (h : ∀ result, w.phase ≠ .returned result) : w.GoesOn least := by
  cases hp : w.phase with
  | starting =>
    refine ⟨.start false, w.start false, rfl, by simp [World.step, hp], ?_⟩
    rw [World.start, if_neg (by simp)]
    split <;> rfl
  | openingReader target =>
    exact ⟨.openReader none, { w with phase := .openingSender target }, rfl,
      by simp [World.step, hp], rfl⟩
  | openingSender target =>
    exact ⟨.openSender none, { w with phase := .receiving target }, rfl,
      by simp [World.step, hp], rfl⟩
  | receiving target =>
    by_cases hlt : w.searched < resendSearch
    · by_cases hnone : w.offered = []
      · exact ⟨.timeout, { w with phase := .returned (.error target.notAmong) }, rfl,
          by simp [World.step, hp, hlt, hnone], rfl⟩
      · have hpos := List.length_pos_iff.mpr hnone
        have hmost : 0 < w.most := by
          rw [World.most, resendBatch]
          omega
        obtain ⟨v, hv⟩ : ∃ v, w.receive least target w.most = some v :=
          ⟨_, if_pos ⟨hmost, le_rfl, min_le_right ..⟩⟩
        refine ⟨.receive w.most, v, rfl, by simp [World.step, hp, hlt, hv], ?_⟩
        rw [(receive_eq hv).2]
    · exact ⟨.stop, { w with phase := .returned (.error target.notAmong) }, rfl,
        by simp [World.step, hp, hlt], rfl⟩
  | handling target batch =>
    cases batch with
    | nil =>
      exact ⟨.nextBatch, { w with phase := .receiving target }, rfl, by simp [World.step, hp], rfl⟩
    | cons message batch =>
      by_cases heq : message.sequenceNumber = some target.sequence
      · exact ⟨.send none true, w.send target message none true, rfl,
          by simp [World.step, hp, heq], rfl⟩
      · exact ⟨.abandon true true, w.abandon message (.handling target batch) true true, rfl,
          by simp [World.step, hp, heq], by simp [World.abandon]⟩
  | handingBack target message err =>
    exact ⟨.handBack true true, w.abandon message
      (.returned (.error (.puttingBack target.sequence target.entity err))) true true, rfl,
      by simp [World.step, hp], by simp [World.abandon]⟩
  | completing target message =>
    exact ⟨.complete none true, w.complete target message none true, rfl,
      by simp [World.step, hp], rfl⟩
  | returned result => exact absurd hp (h result)

/-! ### Where the letter comes last, a call is right -/

theorem resent_of_once {front : List ReceivedMessage} {letter : ReceivedMessage}
    {store : Store} {rest : List ReceivedMessage} (hsplit : store.letters = front ++ letter :: rest)
    (hasks : request.Asks letter) (hw : w.Sound request store.letters)
    (ho : w.Once front letter w.phase) {sequence : String}
    (h : w.phase = .returned (.ok sequence)) :
    w.Resent := by
  have hat := hw.phase
  rw [h] at hat ho
  obtain ⟨message, hmem, hasks', hsent, hcompleted, batch, hr⟩ := hat
  obtain rfl := asks_unique hmem (by simp [hsplit]) (hw.request ▸ hasks') hasks
  have hreceived : w.received = front ++ [message] := ho
  -- Nothing was received behind the letter, for it is not in front of itself.
  have hlast : batch = [] := by
    rcases batch.eq_nil_or_concat with hnil | ⟨behind, x, rfl⟩
    · exact hnil
    · have heq : front ++ [message] = (w.abandoned ++ message :: behind) ++ [x] := by
        rw [← hreceived, hr]
        simp
      have hfront := (List.append_inj' heq rfl).1
      exact absurd (hfront ▸ by simp) (notMem_front hsplit)
  refine ⟨message, hasks', hsent, hcompleted, ?_⟩
  rw [hr, hlast]
  exact List.perm_append_comm

theorem right_of_last {store : Store} (h : Last least request store) :
    Right least request store := by
  intro labels w hpath
  have hreach := hpath.reachable (.init rfl)
  have hw := sound_of_reachable hreach
  have hbound := callSteps_bound hpath
  have hgo := @goesOn_of_not_returned least w
  have hcount : (labels.filter Label.ofCall).length ≤ callSteps := by omega
  by_cases hfar : ∀ front letter rest, store.letters = front ++ letter :: rest →
      request.Asks letter → resendSearch ≤ front.length
  · have hmissing : w.phase.Missing request :=
      hreach.inv_of (P := fun w => w.phase.Missing request) sound_of_reachable
        (fun s hi => by rw [show s = _ from hi]; trivial)
        fun _ _ _ hs hm hst => missing_move hfar hs hm (.of_step hst)
    refine ⟨hw.kept, fun sequence hp => ?_, hcount, hgo, fun hfirst => ?_⟩
    · rw [hp] at hmissing
      exact hmissing.elim
    · obtain ⟨letter, hl, hasks⟩ := hfirst
      obtain ⟨i, hi, rfl⟩ := List.getElem_of_mem hl
      rw [List.length_take] at hi
      rw [List.getElem_take] at hasks
      have := hfar (store.letters.take i) _ (store.letters.drop (i + 1))
        (by rw [← List.drop_eq_getElem_cons, List.take_append_drop]) hasks
      rw [List.length_take] at this
      omega
  · push Not at hfar
    obtain ⟨front, letter, rest, hsplit, hasks, hnear⟩ := hfar
    obtain ⟨hfirst, hbatch, hlast⟩ := (h front letter rest hsplit hasks).resolve_left (by omega)
    have honce : w.Once front letter w.phase :=
      hreach.inv_of (P := fun w => w.Once front letter w.phase) sound_of_reachable
        (fun s hi => by rw [show s = _ from hi]; trivial)
        fun _ _ _ hs ho hst => once_move hsplit hasks hfirst hbatch hlast hs ho (.of_step hst)
    refine ⟨hw.kept, fun sequence hp => resent_of_once hsplit hasks hw honce hp, hcount, hgo,
      fun _ hfine result hp => ?_⟩
    rw [hp] at honce
    cases result with
    | ok sequence => exact ⟨sequence, rfl⟩
    | error err =>
      have hfailed : w.failed = true := honce
      rw [hfine] at hfailed
      cases hfailed

/-! ### Elsewhere a call can go wrong -/

/-- A call that could be begun. -/
def World.begun (request : Request) (letters : List ReceivedMessage) (target : Target) : World :=
  { World.new request letters with phase := .receiving target }

theorem path_receiving (least : Nat) (store : Store) {target : Target}
    (ht : request.target = .ok target) :
    ∃ labels, Path (resending least request store) (World.new request store.letters) labels
      (World.begun request store.letters target) := by
  have hstart : (World.new request store.letters).step least (.start false) =
      some { World.new request store.letters with phase := .openingReader target } := by
    simp [World.step, World.start, World.new, ht]
  have hreader : ({ World.new request store.letters with phase := .openingReader target } :
      World).step least (.openReader none) =
      some { World.new request store.letters with phase := .openingSender target } := rfl
  have hsender : ({ World.new request store.letters with phase := .openingSender target } :
      World).step least (.openSender none) =
      some (World.begun request store.letters target) := rfl
  exact ⟨_, .cons hstart (.cons hreader (.cons hsender (.refl _)))⟩

/-- Messages that are not the one are handed back one by one. -/
theorem path_abandon {store : Store} {target : Target} {rest : List ReceivedMessage}
    {batch : List ReceivedMessage} (hne : ∀ message ∈ batch,
      message.sequenceNumber ≠ some target.sequence)
    (h : w.phase = .handling target (batch ++ rest)) :
    ∃ labels v, Path (resending least request store) w labels v ∧
      v.phase = .handling target rest ∧ v.letters = w.letters ∧ v.received = w.received ∧
      v.abandoned = w.abandoned ++ batch ∧ v.searched = w.searched ∧ v.failed = w.failed ∧
      ∀ number ∈ v.locked, number ∈ w.locked ∧ number ∉ batch.map (·.sequenceNumber) := by
  induction batch generalizing w with
  | nil => exact ⟨[], w, .refl w, h, rfl, rfl, by simp, rfl, rfl, fun n hn => ⟨hn, by simp⟩⟩
  | cons message batch ih =>
    have hstep : w.step least (.abandon true true) =
        some (w.abandon message (.handling target (batch ++ rest)) true true) := by
      simp [World.step, h, hne message List.mem_cons_self]
    obtain ⟨labels, v, hpath, hphase, hletters, hreceived, habandoned, hsearched, hfailed,
      hlocked⟩ := @ih (w.abandon message (.handling target (batch ++ rest)) true true)
        (fun m hm => hne m (List.mem_cons_of_mem _ hm)) rfl
    refine ⟨_, v, .cons hstep hpath, hphase, hletters, hreceived, ?_, hsearched, ?_, ?_⟩
    · rw [habandoned, World.abandon]
      simp
    · rw [hfailed, World.abandon]
      simp
    · intro number hn
      obtain ⟨hin, hout⟩ := hlocked number hn
      simp only [World.abandon, Bool.or_self, if_true, World.unlock, List.mem_filter,
        decide_eq_true_eq] at hin
      exact ⟨hin.1, by simp [hin.2, hout]⟩

/-- A receive of so many letters. -/
theorem step_receive {target : Target} {n : Nat} (h : w.phase = .receiving target)
    (hlt : w.searched < resendSearch) (hn : 0 < n ∧ n ≤ w.most ∧ min least w.most ≤ n) :
    w.step least (.receive n) = some { w with
      locked := w.locked ++ (w.offered.take n).map (·.sequenceNumber)
      received := w.received ++ w.offered.take n
      searched := w.searched + n
      phase := .handling target (w.offered.take n) } := by
  simp only [World.step, h, if_pos hlt, World.receive, if_pos hn]

/-- Letters in front of the one are received again and again, until the search is over. -/
theorem path_search {store : Store} {target : Target} {front behind : List ReceivedMessage}
    (hsplit : store.letters = front ++ behind)
    (hne : ∀ message ∈ front, message.sequenceNumber ≠ some target.sequence)
    (hfront : max least 1 ≤ front.length ∨ front ≠ [] ∧ resendBatch ≤ front.length)
    (h : w.phase = .receiving target) (hletters : w.letters = store.letters)
    (hlocked : w.locked = []) (hfailed : w.failed = false) (hs : w.searched ≤ resendSearch) :
    ∃ labels v, Path (resending least request store) w labels v ∧
      v.phase = .returned (.error target.notAmong) ∧ v.failed = false := by
  induction hleft : resendSearch - w.searched using Nat.strongRecOn generalizing w with
  | ind left ih =>
    by_cases hlt : w.searched < resendSearch
    · have hoffered : w.offered = front ++ behind :=
        (offered_eq hlocked).trans (hletters.trans hsplit)
      have hmost := most_le w
      have hpos : 0 < w.most := by
        rw [World.most, hoffered, List.length_append, resendBatch]
        rw [resendBatch] at hfront
        omega
      obtain ⟨n, hn, hnfront⟩ : ∃ n, (0 < n ∧ n ≤ w.most ∧ min least w.most ≤ n) ∧
          n ≤ front.length := ⟨min (max least 1) w.most, by omega, by omega⟩
      have htake : w.offered.take n = front.take n := by
        rw [hoffered, List.take_append_of_le_length hnfront]
      have hlen : (w.offered.take n).length = n := by
        rw [htake, List.length_take]
        omega
      obtain ⟨labels, v, hpath, hphase, hl, -, -, hsearched, hf, hlock⟩ :=
        @path_abandon least { w with
          locked := w.locked ++ (w.offered.take n).map (·.sequenceNumber)
          received := w.received ++ w.offered.take n
          searched := w.searched + n
          phase := .handling target (w.offered.take n) } request store target [] (w.offered.take n)
          (fun message hm => hne message (List.mem_of_mem_take (htake ▸ hm))) (by simp)
      have hunlocked : v.locked = [] := by
        refine List.eq_nil_iff_forall_not_mem.mpr fun number hm => ?_
        obtain ⟨hin, hout⟩ := hlock number hm
        rw [hlocked, List.nil_append] at hin
        exact hout hin
      have hv : v.searched = w.searched + n := hsearched
      obtain ⟨labels', u, hpath', hu⟩ := @ih (resendSearch - (w.searched + n)) (by omega)
        { v with phase := .receiving target } rfl (hl.trans hletters) hunlocked
        (hf.trans hfailed) (by rw [hv]; omega) (by rw [hv])
      have hnext : v.step least .nextBatch = some { v with phase := .receiving target } := by
        simp only [World.step, hphase]
      exact ⟨_, u, .cons (step_receive h hlt hn) (hpath.trans (.cons hnext hpath')), hu⟩
    · have hstop : w.step least .stop =
          some { w with phase := .returned (.error target.notAmong) } := by
        simp only [World.step, h, if_neg hlt]
      exact ⟨_, _, .cons hstop (.refl _), rfl, hfailed⟩

/-- A letter that is received with others behind it is sent back, and they stay locked. -/
theorem path_resent {store : Store} {target : Target} {front rest : List ReceivedMessage}
    {letter : ReceivedMessage} {n : Nat}
    (hn : 0 < n ∧ n ≤ w.most ∧ min least w.most ≤ n)
    (htake : w.offered.take n = front ++ letter :: rest)
    (hne : ∀ message ∈ front, message.sequenceNumber ≠ some target.sequence)
    (heq : letter.sequenceNumber = some target.sequence)
    (h : w.phase = .receiving target) (hlt : w.searched < resendSearch) :
    ∃ labels v, Path (resending least request store) w labels v ∧
      v.phase = .returned (.ok (toString target.sequence)) ∧
      v.received = w.received ++ (front ++ letter :: rest) ∧
      v.abandoned = w.abandoned ++ front := by
  obtain ⟨labels, v, hpath, hphase, -, hreceived, habandoned, -⟩ :=
    @path_abandon least { w with
      locked := w.locked ++ (w.offered.take n).map (·.sequenceNumber)
      received := w.received ++ w.offered.take n
      searched := w.searched + n
      phase := .handling target (w.offered.take n) } request store target (letter :: rest) front hne
      (by simp [htake])
  have hsend : v.step least (.send none true) = some (v.send target letter none true) := by
    simp only [World.step, hphase, if_pos heq]
  have hcomplete : (v.send target letter none true).step least (.complete none true) =
      some ((v.send target letter none true).complete target letter none true) := rfl
  refine ⟨_, _, .cons (step_receive h hlt hn) (hpath.trans (.cons hsend
    (.cons hcomplete (.refl _)))), rfl, ?_, habandoned⟩
  change v.received = _
  rw [hreceived, htake]

/-- **A call is always right** exactly if the letter is out of its search, or comes last in every
batch it is first received with. -/
theorem resend_right_iff (least : Nat) (request : Request) (store : Store) :
    Right least request store ↔ Last least request store := by
  refine ⟨fun h => ?_, right_of_last⟩
  rintro front letter rest hsplit ⟨target, ht, heq⟩
  by_contra hcond
  push Not at hcond
  obtain ⟨hnear, hcond⟩ := hcond
  have hne : ∀ message ∈ front, message.sequenceNumber ≠ some target.sequence := by
    intro message hm hs
    have hmem : message ∈ store.letters := by simp [hsplit, hm]
    have hsame := store.eq_of_sequenceNumber hmem (by simp [hsplit]) (hs.trans heq.symm)
    exact notMem_front hsplit (hsame ▸ hm)
  obtain ⟨labels, hbegin⟩ := path_receiving least store ht
  by_cases hfront : max least 1 ≤ front.length ∨ front ≠ [] ∧ resendBatch ≤ front.length
  · obtain ⟨labels', v, hpath, hphase, hfine⟩ := @path_search least
      (World.begun request store.letters target) request store target front _ hsplit hne hfront
      rfl rfl rfl rfl (Nat.zero_le _)
    obtain ⟨-, -, -, -, hfinds⟩ := h _ v (hbegin.trans hpath)
    have hfirst : letter ∈ store.letters.take resendSearch := by
      rw [hsplit, List.take_append, List.mem_append]
      refine Or.inr ?_
      obtain ⟨k, hk⟩ := Nat.exists_eq_add_of_lt hnear
      rw [show resendSearch - front.length = k + 1 by omega]
      exact List.mem_cons_self
    obtain ⟨sequence, hok⟩ := hfinds ⟨letter, hfirst, target, ht, heq⟩ hfine _ hphase
    cases hok
  · push Not at hfront
    have hbatch : front.length < resendBatch := by
      by_contra hge
      have := hfront.2 (by rintro rfl; exact hge (by decide))
      omega
    obtain ⟨hrest, hsize⟩ := hcond hfront.1 hbatch
    have hoffered : (World.begun request store.letters target).offered = store.letters :=
      offered_eq rfl
    have hlength : store.letters.length = front.length + (rest.length + 1) := by simp [hsplit]
    have hlong := List.length_pos_iff.mpr hrest
    have hmost : (World.begun request store.letters target).most =
        min resendBatch store.letters.length := by
      rw [World.most, hoffered]
      change min (min (resendSearch - 0) resendBatch) _ = _
      rfl
    have htake : (World.begun request store.letters target).offered.take
        (World.begun request store.letters target).most =
          front ++ letter :: rest.take
            ((World.begun request store.letters target).most - front.length - 1) := by
      obtain ⟨k, hk⟩ : ∃ k, (World.begun request store.letters target).most =
          front.length + (k + 1) := ⟨min resendBatch store.letters.length - front.length - 1, by
        rw [hmost]
        omega⟩
      rw [hoffered, hk, hsplit, List.take_length_add_append, List.take_succ_cons]
      congr 3
      omega
    obtain ⟨labels', v, hpath, hphase, hreceived, habandoned⟩ :=
      @path_resent least _ request store target front _ letter _
        ⟨by omega, le_rfl, min_le_right ..⟩ htake hne heq rfl
        (show 0 < resendSearch by decide)
    obtain ⟨-, hresent, -⟩ := h _ v (hbegin.trans hpath)
    obtain ⟨message, -, -, -, hperm⟩ := hresent _ hphase
    have hcount := hperm.length_eq
    rw [hreceived, habandoned] at hcount
    simp only [World.begun, World.new, List.nil_append, List.length_append, List.length_cons,
      List.length_take] at hcount hmost
    omega

/-! ### Two dead letters -/

def plainLetter (sequence : Int) : ReceivedMessage where
  sequenceNumber := some sequence
  body := []
  subject := none
  correlationID := none
  contentType := none
  replyTo := none
  toAddress := none
  sessionID := none
  partitionKey := none
  applicationProperties := ∅

def twoLetters : Store where
  letters := [plainLetter 7, plainLetter 8]
  numbered := by simp [plainLetter]
  sorted := by simp [plainLetter]

/-- The first of two letters is put back, and the second, which came with it, is left locked. -/
theorem second_letter_left : ¬ Right resendBatch ⟨"orders", "7"⟩ twoLetters := by
  intro h
  let labels : List Label := [.start false, .openReader none, .openSender none, .receive 2,
    .send none true, .complete none true]
  have hrun : (runSteps (World.step resendBatch) (World.new ⟨"orders", "7"⟩ twoLetters.letters)
      labels).map (fun v => (v.received.length, v.abandoned.length,
        match v.phase with | .returned (.ok sequence) => some sequence | _ => none)) =
      some (2, 0, some "7") := by decide
  obtain ⟨v, hv, hshape⟩ := Option.map_eq_some_iff.mp hrun
  obtain ⟨hreceived, hrest⟩ := Prod.mk.inj hshape
  obtain ⟨habandoned, hphase⟩ := Prod.mk.inj hrest
  have hreturned : v.phase = .returned (.ok "7") := by
    split at hphase
    · rename_i sequence hp
      rw [hp, Option.some.inj hphase]
    · cases hphase
  have hpath : Path (resending resendBatch ⟨"orders", "7"⟩ twoLetters)
      (World.new ⟨"orders", "7"⟩ twoLetters.letters) labels v := .of_runSteps id hv
  obtain ⟨message, -, -, -, hperm⟩ := (h labels v hpath).2.1 _ hreturned
  have hcount := hperm.length_eq
  rw [hreceived, List.length_cons, habandoned] at hcount
  omega

end MqStudio.Azureservicebus
