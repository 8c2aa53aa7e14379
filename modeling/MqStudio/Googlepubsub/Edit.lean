import MqStudio.Lib.Float64
import MqStudio.Lib.JavaScript
import MqStudio.Model.Attributes

/-!
# Saving a Pub/Sub subscription as it was opened

`googlepubsub/subscription.go` and `subscription_actions.go`: how a subscription is shown and what
an update of it sends.  `mq/googlepubsub/subscriptions.ts`, `names.ts` and
`SubscriptionDialogGooglePubSub.tsx`: the dialog in between.

* `subscriptionOf`, `draftOf`, `submit`, `updateSpec`, `applySettings`: there and back.
* `saved_eq`: what a save of what was opened sends.
* `Saved.Kept`: durations are whole seconds or shown as none, and the dead-letter topic is one of
  this project.
* `Saved.unchanged_iff`: such a save changes nothing exactly if the subscription is kept.
-/

namespace MqStudio.Googlepubsub.Edit

open Lib.JavaScript Lib.Text Model.Attributes

/-! ### Names -/

def NAME_MIN : ℕ := 3
def NAME_MAX : ℕ := 255

/-- A letter, a digit or one of `-_.~+%`. -/
def isNameChar (c : Char) : Bool := c.isAlphanum || "-_.~+%".toList.contains c

def reservedPrefix : List Char := "goog".toList

inductive NameProblem where
  | empty
  | tooShort
  | tooLong
  | charset
  | reserved

def nameProblem (typed : String) : Option NameProblem :=
  let name := jsTrim typed
  if name = "" then some .empty
  else if jsLength name < NAME_MIN then some .tooShort
  else if NAME_MAX < jsLength name then some .tooLong
  else if !(name.toList.head?.any Char.isAlpha && name.toList.all isNameChar) then some .charset
  else if reservedPrefix.isPrefixOf (name.toList.map Char.toLower) then some .reserved
  else none

def submittableName (typed : String) : Option String :=
  match nameProblem typed with
  | none => some (jsTrim typed)
  | some _ => none

/-- What stands behind the last slash. -/
def shortName (path : String) : String :=
  String.ofList ((trimSpace path).toList.rtakeWhile (· != '/'))

inductive Error where
  | connectionDown
  | unusableName
  | numberTooLarge
  | noName (kind : String)
  | slashInName (kind name : String)
  | notANumber (label raw : String)
  | outside (label : String) (given : ℤ)
  | bothBackoffs
  | backoffsCrossed (low high : ℤ)
  | service (text : String)

def requiredName (kind name : String) : Except Error String :=
  let trimmed := trimSpace name
  if trimmed = "" then .error (.noName kind)
  else if '/' ∈ trimmed.toList then .error (.slashInName kind trimmed)
  else .ok trimmed

/-! ### Stored subscriptions -/

/-- A protocol buffer duration. -/
structure Duration where
  seconds : ℤ
  nanos : ℤ
deriving DecidableEq

/-- A duration that is not negative, and that a duration of Go holds. -/
structure Duration.Valid (d : Duration) : Prop where
  seconds_nonneg : 0 ≤ d.seconds
  seconds_lt : d.seconds < 9223372036
  nanos_nonneg : 0 ≤ d.nanos
  nanos_lt : d.nanos < 1000000000

structure RetryPolicy where
  minimumBackoff : Duration
  maximumBackoff : Duration
deriving DecidableEq

structure DeadLetterPolicy where
  deadLetterTopic : String
  maxDeliveryAttempts : ℤ
deriving DecidableEq

/-- The settings of a subscription that the dialog shows. -/
structure Subscription where
  topic : String
  ackDeadlineSeconds : ℤ
  messageRetentionDuration : Option Duration
  retainAckedMessages : Bool
  enableExactlyOnceDelivery : Bool
  filter : String
  enableMessageOrdering : Bool
  retryPolicy : Option RetryPolicy
  deadLetterPolicy : Option DeadLetterPolicy
deriving DecidableEq

/-- A subscription that the service can hold: durations it takes, and numbers of 32 bits. -/
structure Subscription.Valid (s : Subscription) : Prop where
  ackDeadline : Lib.Strconv.Fits 32 s.ackDeadlineSeconds
  retention : ∀ d, s.messageRetentionDuration = some d → d.Valid
  retry : ∀ p, s.retryPolicy = some p → p.minimumBackoff.Valid ∧ p.maximumBackoff.Valid
  attempts : ∀ p, s.deadLetterPolicy = some p → Lib.Strconv.Fits 32 p.maxDeliveryAttempts

/-- `time.Duration.Seconds`, as a whole number. -/
def wholeSeconds (d : Duration) : ℤ :=
  ⌊Lib.Float64.nearest (d.seconds + Lib.Float64.nearest (d.nanos / 1000000000))⌋

/-! ### The page -/

/-- The attributes that the dialog reads and the update takes, under the same keys. -/
structure Attributes where
  topic : Option String := none
  ackDeadlineSec : Option String := none
  retentionSec : Option String := none
  retainAcked : Option String := none
  exactlyOnce : Option String := none
  filter : Option String := none
  messageOrdering : Option String := none
  deadLetterTopic : Option String := none
  maxDeliveryAttempts : Option String := none
  retryMinBackoffSec : Option String := none
  retryMaxBackoffSec : Option String := none

def deletedTopic : String := "_deleted-topic_"

def topicNameOf (topic : String) : String :=
  if topic = deletedTopic then deletedTopic else shortName topic

def seconds (d : Duration) : String := toString (wholeSeconds d)

def subscriptionOf (s : Subscription) : Attributes where
  topic := some (topicNameOf s.topic)
  ackDeadlineSec := some (toString s.ackDeadlineSeconds)
  retentionSec := s.messageRetentionDuration.map seconds
  retainAcked := some (formatBool s.retainAckedMessages)
  exactlyOnce := some (formatBool s.enableExactlyOnceDelivery)
  filter := if s.filter ≠ "" then some s.filter else none
  messageOrdering := some (formatBool s.enableMessageOrdering)
  deadLetterTopic := s.deadLetterPolicy.map fun dead => shortName dead.deadLetterTopic
  maxDeliveryAttempts := s.deadLetterPolicy.map fun dead => toString dead.maxDeliveryAttempts
  retryMinBackoffSec := s.retryPolicy.map fun retry => seconds retry.minimumBackoff
  retryMaxBackoffSec := s.retryPolicy.map fun retry => seconds retry.maximumBackoff

structure Draft where
  name : String
  topic : String
  ackDeadlineSec : ℤ
  retentionSec : ℤ
  retainAcked : Bool
  exactlyOnce : Bool
  filter : String
  ordering : Bool
  deadLetterTopic : String
  maxAttempts : ℤ
  retryMinBackoffSec : ℤ
  retryMaxBackoffSec : ℤ

def draftOf (name : String) (row : Attributes) : Draft where
  name := name
  topic := (text row.topic).getD ""
  ackDeadlineSec := (number row.ackDeadlineSec).getD 10
  retentionSec := (number row.retentionSec).getD 604800
  retainAcked := flag row.retainAcked
  exactlyOnce := flag row.exactlyOnce
  filter := (text row.filter).getD ""
  ordering := flag row.messageOrdering
  deadLetterTopic := (text row.deadLetterTopic).getD ""
  maxAttempts := (number row.maxDeliveryAttempts).getD 5
  retryMinBackoffSec := (number row.retryMinBackoffSec).getD 0
  retryMaxBackoffSec := (number row.retryMaxBackoffSec).getD 0

structure SubscriptionSpec where
  name : String
  topic : String
  ackDeadlineSec : ℤ
  retentionSec : ℤ
  retainAcked : Bool
  exactlyOnce : Bool
  filter : String
  ordering : Bool
  deadLetterTopic : String
  maxAttempts : ℤ
  retryMinBackoffSec : ℤ
  retryMaxBackoffSec : ℤ

/-- What the dialog submits, as the bridge takes it. -/
def submit (draft : Draft) : Except Error SubscriptionSpec :=
  match submittableName draft.name with
  | none => .error .unusableName
  | some name =>
    match goInt draft.ackDeadlineSec, goInt draft.retentionSec, goInt draft.maxAttempts,
      goInt draft.retryMinBackoffSec, goInt draft.retryMaxBackoffSec with
    | some ackDeadlineSec, some retentionSec, some maxAttempts, some low, some high => .ok {
        name
        topic := jsTrim draft.topic
        ackDeadlineSec
        retentionSec
        retainAcked := draft.retainAcked
        exactlyOnce := draft.exactlyOnce
        filter := jsTrim draft.filter
        ordering := draft.ordering
        deadLetterTopic := jsTrim draft.deadLetterTopic
        maxAttempts
        retryMinBackoffSec := low
        retryMaxBackoffSec := high }
    | _, _, _, _, _ => .error .numberTooLarge

/-! ### The update -/

def SubscriptionSpec.addSettings (s : SubscriptionSpec) (attributes : Attributes) : Attributes :=
  let attributes :=
    if 0 < s.ackDeadlineSec then
      { attributes with ackDeadlineSec := some (toString s.ackDeadlineSec) }
    else attributes
  let attributes :=
    if 0 < s.retentionSec then { attributes with retentionSec := some (toString s.retentionSec) }
    else attributes
  let attributes :=
    if trimSpace s.deadLetterTopic ≠ "" then
      let attributes := { attributes with deadLetterTopic := some (trimSpace s.deadLetterTopic) }
      if 0 < s.maxAttempts then
        { attributes with maxDeliveryAttempts := some (toString s.maxAttempts) }
      else attributes
    else attributes
  if 0 < s.retryMinBackoffSec ∨ 0 < s.retryMaxBackoffSec then
    { attributes with
      retryMinBackoffSec := some (toString s.retryMinBackoffSec)
      retryMaxBackoffSec := some (toString s.retryMaxBackoffSec) }
  else attributes

def SubscriptionSpec.updateSpec (s : SubscriptionSpec) : String × Attributes :=
  (trimSpace s.name, s.addSettings {
    retainAcked := some (formatBool s.retainAcked)
    exactlyOnce := some (formatBool s.exactlyOnce)
    deadLetterTopic := some (trimSpace s.deadLetterTopic) })

/-- What the update mask names, with what is sent for it. -/
structure Changes where
  ackDeadlineSeconds : Option ℤ
  messageRetentionDuration : Option Duration
  retainAckedMessages : Option Bool
  enableExactlyOnceDelivery : Option Bool
  retryPolicy : Option RetryPolicy
  deadLetterPolicy : Option (Option DeadLetterPolicy)

/-- The service replaces what the mask names. -/
def Changes.on (changes : Changes) (s : Subscription) : Subscription where
  topic := s.topic
  ackDeadlineSeconds := changes.ackDeadlineSeconds.getD s.ackDeadlineSeconds
  messageRetentionDuration := changes.messageRetentionDuration.or s.messageRetentionDuration
  retainAckedMessages := changes.retainAckedMessages.getD s.retainAckedMessages
  enableExactlyOnceDelivery := changes.enableExactlyOnceDelivery.getD s.enableExactlyOnceDelivery
  filter := s.filter
  enableMessageOrdering := s.enableMessageOrdering
  retryPolicy := changes.retryPolicy.or s.retryPolicy
  deadLetterPolicy := changes.deadLetterPolicy.getD s.deadLetterPolicy

/-- `time.Duration(seconds) * time.Second`, in nanoseconds of 64 bits. -/
def nanoseconds (seconds : ℤ) : ℤ := Int.bmod (seconds * 1000000000) (2 ^ 64)

def int32 (n : ℤ) : ℤ := Int.bmod n (2 ^ 32)

/-- `durationpb.New`. -/
def newDuration (nanoseconds : ℤ) : Duration where
  seconds := nanoseconds.tdiv 1000000000
  nanos := nanoseconds.tmod 1000000000

def minAckDeadline : ℤ := 10 * 1000000000
def maxAckDeadline : ℤ := 600 * 1000000000
def minSubRetention : ℤ := 600 * 1000000000
def maxSubRetention : ℤ := 2678400 * 1000000000
def minDeliveryAttempts : ℤ := 5
def maxDeliveryAttempts : ℤ := 100

/-- A number of seconds within bounds, none where nothing is said. -/
def boundedSeconds (label : String) (low high : ℤ) (value : Option String) :
    Except Error (Option ℤ) :=
  if said value = "" then .ok none
  else
    match atoi (said value) with
    | none => .error (.notANumber label (said value))
    | some seconds =>
      if nanoseconds seconds < low ∨ high < nanoseconds seconds then .error (.outside label seconds)
      else .ok (some seconds)

def retryPolicyOf (attributes : Attributes) : Except Error (Option RetryPolicy) :=
  let minimum := said attributes.retryMinBackoffSec
  let maximum := said attributes.retryMaxBackoffSec
  if minimum = "" ∧ maximum = "" then .ok none
  else if minimum = "" ∨ maximum = "" then .error .bothBackoffs
  else
    match atoi minimum, atoi maximum with
    | none, _ => .error (.notANumber "minimum backoff" minimum)
    | some _, none => .error (.notANumber "maximum backoff" maximum)
    | some low, some high =>
      if high < low then .error (.backoffsCrossed low high)
      else .ok (some ⟨newDuration (nanoseconds low), newDuration (nanoseconds high)⟩)

/-- A connection to a project; the service may refuse changes for reasons of its own. -/
structure Conn where
  project : String
  live : Bool
  refuse : String → Changes → Option String

namespace Conn

variable (c : Conn)

def topicPath (name : String) : String := "projects/" ++ c.project ++ "/topics/" ++ name

def subscriptionPath (name : String) : String :=
  "projects/" ++ c.project ++ "/subscriptions/" ++ name

def deadLetterPolicyOf (target : String) (attributes : Attributes) :
    Except Error (Option DeadLetterPolicy) :=
  if target = "" then .ok none
  else
    match requiredName "dead-letter topic" target with
    | .error err => .error err
    | .ok name =>
      let raw := said attributes.maxDeliveryAttempts
      match if raw = "" then some 5 else atoi raw with
      | none => .error (.notANumber "delivery limit" raw)
      | some attempts =>
        if attempts < minDeliveryAttempts ∨ maxDeliveryAttempts < attempts then
          .error (.outside "delivery limit" attempts)
        else .ok (some ⟨c.topicPath name, attempts⟩)

def applySettings (attributes : Attributes) : Except Error Changes :=
  match boundedSeconds "ack deadline" minAckDeadline maxAckDeadline attributes.ackDeadlineSec with
  | .error err => .error err
  | .ok ackDeadline =>
    match boundedSeconds "retention" minSubRetention maxSubRetention attributes.retentionSec with
    | .error err => .error err
    | .ok retention =>
      match retryPolicyOf attributes with
      | .error err => .error err
      | .ok retry =>
        match attributes.deadLetterTopic with
        | none => .ok ⟨ackDeadline.map int32,
            retention.map fun s => newDuration (nanoseconds s), saidFlag attributes.retainAcked,
            saidFlag attributes.exactlyOnce, retry, none⟩
        | some target =>
          match c.deadLetterPolicyOf (trimSpace target) attributes with
          | .error err => .error err
          | .ok policy => .ok ⟨ackDeadline.map int32,
              retention.map fun s => newDuration (nanoseconds s), saidFlag attributes.retainAcked,
              saidFlag attributes.exactlyOnce, retry, some policy⟩

/-- The path of the subscription that is changed, and the changes. -/
def updateSubscription (spec : String × Attributes) : Except Error (String × Changes) :=
  if !c.live then .error .connectionDown
  else
    match requiredName "subscription" spec.1 with
    | .error err => .error err
    | .ok name =>
      match c.applySettings spec.2 with
      | .error err => .error err
      | .ok changes =>
        match c.refuse (c.subscriptionPath name) changes with
        | some text => .error (.service text)
        | none => .ok (c.subscriptionPath name, changes)

/-- A subscription opened in the dialog and saved as it is. -/
def resave (path : String) (s : Subscription) : Except Error (String × Changes) :=
  match submit (draftOf (shortName path) (subscriptionOf s)) with
  | .error err => .error err
  | .ok spec => c.updateSubscription spec.updateSpec

end Conn

/-! ### Names come back -/

theorem isNameChar_bounds {ch : Char} (h : isNameChar ch = true) :
    33 ≤ ch.toNat ∧ ch.toNat ≤ 126 ∧ ch ≠ '/' := by
  simp only [isNameChar, Bool.or_eq_true, List.contains_iff_mem] at h
  rcases h with h | h
  · have hc := toNat_of_isAlphanum h
    refine ⟨by omega, by omega, ?_⟩
    rintro rfl
    exact absurd h (by decide)
  · rw [show "-_.~+%".toList = ['-', '_', '.', '~', '+', '%'] from rfl] at h
    simp only [List.mem_cons, List.not_mem_nil, or_false] at h
    rcases h with rfl | rfl | rfl | rfl | rfl | rfl <;> decide

/-- The names that the service gives topics and subscriptions. -/
structure IsName (name : String) : Prop where
  usable : nameProblem name = none
  trimmed : jsTrim name = name

namespace IsName

variable {name : String} (h : IsName name)

include h

theorem bounds {ch : Char} (hc : ch ∈ name.toList) : 33 ≤ ch.toNat ∧ ch.toNat ≤ 126 ∧ ch ≠ '/' := by
  have husable := h.usable
  simp only [nameProblem, h.trimmed] at husable
  split_ifs at husable with h1 h2 h3 h4 h5
  simp only [Bool.not_eq_true, Bool.not_eq_false', Bool.and_eq_true] at h4
  exact isNameChar_bounds (List.all_eq_true.mp h4.2 ch hc)

theorem ne_empty : name ≠ "" := by
  have husable := h.usable
  simp only [nameProblem, h.trimmed] at husable
  intro hblank
  rw [if_pos hblank] at husable
  cases husable

theorem submittable : submittableName name = some name := by
  rw [submittableName, h.usable, h.trimmed]

theorem trimSpace_eq : trimSpace name = name :=
  trimSpace_eq_self fun _ hc => not_isSpace_of_prints ⟨(h.bounds hc).1, (h.bounds hc).2.1⟩

theorem required (kind : String) : requiredName kind name = .ok name := by
  simp only [requiredName, h.trimSpace_eq]
  rw [if_neg h.ne_empty, if_neg fun hmem => (h.bounds hmem).2.2 rfl]

/-- **The name of a path comes back.** -/
theorem shortName_append (start : String) : shortName (start ++ "/" ++ name) = name := by
  obtain ⟨rest, hrest⟩ := trim_append_cons (show isSpace '/' = false by decide) start.toList
    fun ch hc => not_isSpace_of_prints ⟨(h.bounds hc).1, (h.bounds hc).2.1⟩
  have htake := rtakeWhile_append_cons (p := fun ch => ch != '/')
    (show ('/' != '/') = false by decide) rest fun ch hc => by simpa using (h.bounds hc).2.2
  have hslash : "/".toList = ['/'] := rfl
  rw [shortName]
  simp only [trimSpace, String.toList_append, hslash, List.append_assoc, List.singleton_append,
    String.toList_ofList, hrest, htake, String.ofList_toList]

end IsName

/-! ### Durations -/

theorem wholeSeconds_bounds {d : Duration} (h : d.Valid) :
    0 ≤ wholeSeconds d ∧ wholeSeconds d ≤ 9223372036 := by
  have hfraction : Lib.Float64.nearest (d.nanos / 1000000000) ≤ 1 := by
    rcases h.nanos_nonneg.lt_or_eq with hpos | hzero
    · have hq : (0 : ℚ) < d.nanos / 1000000000 := by
        have hcast : (0 : ℚ) < d.nanos := by exact_mod_cast hpos
        positivity
      have hle : (d.nanos / 1000000000 : ℚ) ≤ ((1 : ℕ) : ℚ) := by
        have hcast : (d.nanos : ℚ) ≤ 1000000000 := by exact_mod_cast h.nanos_lt.le
        rw [div_le_iff₀ (by norm_num)]
        simpa using hcast
      simpa using Lib.Float64.nearest_le_natCast hq hle (by norm_num)
    · rw [← hzero, Int.cast_zero, zero_div, Lib.Float64.nearest_zero]
      exact zero_le_one
  have hsum : (d.seconds + Lib.Float64.nearest (d.nanos / 1000000000) : ℚ) ≤
      ((9223372036 : ℕ) : ℚ) := by
    have hcast : (d.seconds : ℚ) ≤ 9223372035 := by
      exact_mod_cast Int.lt_add_one_iff.mp h.seconds_lt
    push_cast
    linarith
  constructor
  · exact Int.floor_nonneg.mpr (Lib.Float64.nearest_nonneg _)
  · have hle : Lib.Float64.nearest (d.seconds + Lib.Float64.nearest (d.nanos / 1000000000)) ≤
        ((9223372036 : ℕ) : ℚ) := by
      have hnonneg : (0 : ℚ) ≤ d.seconds := by exact_mod_cast h.seconds_nonneg
      have hsum0 := add_nonneg hnonneg (Lib.Float64.nearest_nonneg (d.nanos / 1000000000))
      rcases hsum0.lt_or_eq with hpos | hzero
      · exact Lib.Float64.nearest_le_natCast hpos hsum (by norm_num)
      · rw [← hzero, Lib.Float64.nearest_zero]
        norm_num
    rw [wholeSeconds, ← Int.lt_add_one_iff, Int.floor_lt]
    push_cast at hle ⊢
    linarith

/-- A duration without a fraction is shown as it is. -/
theorem wholeSeconds_of_whole {d : Duration} (h : d.Valid) (hwhole : d.nanos = 0) :
    wholeSeconds d = d.seconds := by
  obtain ⟨n, hn⟩ := Int.eq_ofNat_of_zero_le h.seconds_nonneg
  have hlt := h.seconds_lt
  have hseconds := Lib.Float64.nearest_natCast (n := n) (by omega)
  rw [wholeSeconds, hwhole, hn, Int.cast_zero, zero_div, Lib.Float64.nearest_zero, add_zero,
    Int.cast_natCast, hseconds, Int.floor_natCast]

theorem whole_iff {d : Duration} (h : d.Valid) :
    (⟨wholeSeconds d, 0⟩ : Duration) = d ↔ d.nanos = 0 := by
  constructor
  · intro heq
    rw [← heq]
  · intro hnanos
    rw [wholeSeconds_of_whole h hnanos, ← hnanos]

theorem nanoseconds_eq {n : ℤ} (h0 : 0 ≤ n) (h : n ≤ 9223372036) :
    nanoseconds n = n * 1000000000 := by
  unfold nanoseconds
  rw [Int.bmod_eq_of_le] <;> omega

theorem newDuration_nanoseconds {n : ℤ} (h0 : 0 ≤ n) (h : n ≤ 9223372036) :
    newDuration (nanoseconds n) = ⟨n, 0⟩ := by
  rw [nanoseconds_eq h0 h, newDuration]
  simp

theorem int32_eq {n : ℤ} (h : Lib.Strconv.Fits 32 n) : int32 n = n := by
  obtain ⟨hlow, hhigh⟩ := h
  unfold int32
  rw [Int.bmod_eq_of_le] <;> norm_num at * <;> omega

theorem fits_of_bounds {n : ℤ} (h0 : 0 ≤ n) (h : n ≤ 9223372036) : Lib.Strconv.Fits 64 n := by
  constructor <;> norm_num <;> omega

/-! ### What the dialog is opened with -/

section Opened

variable {s : Subscription} {name : String}

/-- The name that is shown of the dead-letter topic. -/
def shownTopic (s : Subscription) : String :=
  (s.deadLetterPolicy.map fun dead => shortName dead.deadLetterTopic).getD ""

/-- The backoffs that are shown. -/
def shownRetry (s : Subscription) : ℤ × ℤ :=
  (s.retryPolicy.map fun p => (wholeSeconds p.minimumBackoff, wholeSeconds p.maximumBackoff)).getD
    (0, 0)

theorem number_seconds {d : Duration} (h : d.Valid) : number (some (seconds d)) =
    some (wholeSeconds d) :=
  number_toString (fits_of_bounds (wholeSeconds_bounds h).1 (wholeSeconds_bounds h).2)

/-- **What the dialog opens with.** -/
theorem draftOf_subscriptionOf (h : s.Valid) : draftOf name (subscriptionOf s) = {
    name := name
    topic := topicNameOf s.topic
    ackDeadlineSec := s.ackDeadlineSeconds
    retentionSec := (s.messageRetentionDuration.map wholeSeconds).getD 604800
    retainAcked := s.retainAckedMessages
    exactlyOnce := s.enableExactlyOnceDelivery
    filter := s.filter
    ordering := s.enableMessageOrdering
    deadLetterTopic := shownTopic s
    maxAttempts := (s.deadLetterPolicy.map (·.maxDeliveryAttempts)).getD 5
    retryMinBackoffSec := (shownRetry s).1
    retryMaxBackoffSec := (shownRetry s).2 } := by
  have hack : (number (subscriptionOf s).ackDeadlineSec).getD 10 = s.ackDeadlineSeconds := by
    rw [subscriptionOf, number_toString (fits_of_fits h.ackDeadline), Option.getD_some]
  have hretention : (number (subscriptionOf s).retentionSec).getD 604800 =
      (s.messageRetentionDuration.map wholeSeconds).getD 604800 := by
    cases hd : s.messageRetentionDuration with
    | none => simp only [subscriptionOf, hd, Option.map_none]; rfl
    | some d => simp only [subscriptionOf, hd, Option.map_some, number_seconds (h.retention d hd)]
  have hfilter : (text (subscriptionOf s).filter).getD "" = s.filter := by
    rw [getD_text, subscriptionOf]
    by_cases hblank : s.filter = "" <;> simp [hblank]
  have htopic : (text (subscriptionOf s).topic).getD "" = topicNameOf s.topic := getD_text _
  have hdead : (text (subscriptionOf s).deadLetterTopic).getD "" = shownTopic s := getD_text _
  have hattempts : (number (subscriptionOf s).maxDeliveryAttempts).getD 5 =
      (s.deadLetterPolicy.map (·.maxDeliveryAttempts)).getD 5 := by
    cases hp : s.deadLetterPolicy with
    | none => simp only [subscriptionOf, hp, Option.map_none]; rfl
    | some p => simp only [subscriptionOf, hp, Option.map_some,
        number_toString (fits_of_fits (h.attempts p hp))]
  have hretry : (number (subscriptionOf s).retryMinBackoffSec).getD 0 = (shownRetry s).1 ∧
      (number (subscriptionOf s).retryMaxBackoffSec).getD 0 = (shownRetry s).2 := by
    cases hp : s.retryPolicy with
    | none => simp only [subscriptionOf, shownRetry, hp, Option.map_none]; exact ⟨rfl, rfl⟩
    | some p =>
      obtain ⟨hmin, hmax⟩ := h.retry p hp
      simp only [subscriptionOf, shownRetry, hp, Option.map_some, number_seconds hmin,
        number_seconds hmax, Option.getD_some, and_self]
  have hflags (b : Bool) : flag (some (formatBool b)) = b := flag_formatBool b
  rw [draftOf, hack, hretention, hfilter, htopic, hdead, hattempts, hretry.1, hretry.2]
  simp only [subscriptionOf, hflags]

end Opened

/-! ### What is sent -/

section Sent

variable {spec : SubscriptionSpec} {draft : Draft}

theorem submit_ok (h : submit draft = .ok spec) :
    ∃ name, submittableName draft.name = some name ∧ spec = {
      name := name
      topic := jsTrim draft.topic
      ackDeadlineSec := draft.ackDeadlineSec
      retentionSec := draft.retentionSec
      retainAcked := draft.retainAcked
      exactlyOnce := draft.exactlyOnce
      filter := jsTrim draft.filter
      ordering := draft.ordering
      deadLetterTopic := jsTrim draft.deadLetterTopic
      maxAttempts := draft.maxAttempts
      retryMinBackoffSec := draft.retryMinBackoffSec
      retryMaxBackoffSec := draft.retryMaxBackoffSec } := by
  unfold submit at h
  split at h
  · cases h
  · rename_i name hname
    split at h
    · rename_i hack hretention hattempts hlow hhigh
      refine ⟨name, hname, ?_⟩
      rw [← Except.ok.inj h, (goInt_eq_some hack).1, (goInt_eq_some hretention).1,
        (goInt_eq_some hattempts).1, (goInt_eq_some hlow).1, (goInt_eq_some hhigh).1]
    · cases h

/-- The attributes of an update. -/
theorem updateSpec_eq : spec.updateSpec = (trimSpace spec.name, {
    ackDeadlineSec := positive spec.ackDeadlineSec
    retentionSec := positive spec.retentionSec
    retainAcked := some (formatBool spec.retainAcked)
    exactlyOnce := some (formatBool spec.exactlyOnce)
    deadLetterTopic := some (trimSpace spec.deadLetterTopic)
    maxDeliveryAttempts :=
      if trimSpace spec.deadLetterTopic ≠ "" then positive spec.maxAttempts else none
    retryMinBackoffSec :=
      if 0 < spec.retryMinBackoffSec ∨ 0 < spec.retryMaxBackoffSec then
        some (toString spec.retryMinBackoffSec)
      else none
    retryMaxBackoffSec :=
      if 0 < spec.retryMinBackoffSec ∨ 0 < spec.retryMaxBackoffSec then
        some (toString spec.retryMaxBackoffSec)
      else none }) := by
  unfold SubscriptionSpec.updateSpec SubscriptionSpec.addSettings positive
  split_ifs <;> rfl

theorem boundedSeconds_positive {label : String} {low high n : ℤ} {r : Option ℤ}
    (hn : Lib.Strconv.Fits 64 n) (h : boundedSeconds label low high (positive n) = .ok r) :
    r = if 0 < n then some n else none := by
  unfold boundedSeconds at h
  rw [said_positive] at h
  by_cases hpos : 0 < n
  · rw [if_pos hpos, if_neg (toString_ne_empty n), atoi_toString hn] at h
    rw [if_pos hpos]
    dsimp only at h
    split_ifs at h
    exact (Except.ok.inj h).symm
  · rw [if_neg hpos, if_pos rfl] at h
    rw [if_neg hpos]
    exact (Except.ok.inj h).symm

/-- Both backoffs are sent, or neither. -/
theorem retryPolicyOf_ok {a : Attributes} {low high : ℤ} {r : Option RetryPolicy}
    (hlow : 0 ≤ low ∧ low ≤ 9223372036) (hhigh : 0 ≤ high ∧ high ≤ 9223372036)
    (hmin : a.retryMinBackoffSec =
      if 0 < low ∨ 0 < high then some (toString low) else none)
    (hmax : a.retryMaxBackoffSec =
      if 0 < low ∨ 0 < high then some (toString high) else none)
    (h : retryPolicyOf a = .ok r) :
    r = if 0 < low ∨ 0 < high then some ⟨⟨low, 0⟩, ⟨high, 0⟩⟩ else none := by
  unfold retryPolicyOf at h
  rw [hmin, hmax] at h
  by_cases hpos : 0 < low ∨ 0 < high
  · simp only [if_pos hpos, said_toString hlow.1, said_toString hhigh.1] at h
    rw [if_neg fun hboth => toString_ne_empty low hboth.1,
      if_neg (not_or.mpr ⟨toString_ne_empty low, toString_ne_empty high⟩),
      atoi_toString (fits_of_bounds hlow.1 hlow.2),
      atoi_toString (fits_of_bounds hhigh.1 hhigh.2)] at h
    dsimp only at h
    split_ifs at h
    rw [if_pos hpos, ← Except.ok.inj h, newDuration_nanoseconds hlow.1 hlow.2,
      newDuration_nanoseconds hhigh.1 hhigh.2]
  · have hblank : said none = "" := by decide
    simp only [if_neg hpos, hblank, and_self, if_true] at h
    rw [if_neg hpos]
    exact (Except.ok.inj h).symm

/-- The delivery limit that goes with a dead-letter topic. -/
def sentAttempts (n : ℤ) : ℤ := if 0 < n then n else 5

theorem requiredName_ok {kind name r : String} (h : requiredName kind name = .ok r) :
    r = trimSpace name := by
  unfold requiredName at h
  dsimp only at h
  split_ifs at h
  exact (Except.ok.inj h).symm

theorem deadLetterPolicyOf_ok {c : Conn} {a : Attributes} {target : String} {n : ℤ}
    {r : Option DeadLetterPolicy} (hn : Lib.Strconv.Fits 64 n)
    (htrim : trimSpace target = target)
    (ha : a.maxDeliveryAttempts = if target ≠ "" then positive n else none)
    (h : c.deadLetterPolicyOf target a = .ok r) :
    r = if target = "" then none else some ⟨c.topicPath target, sentAttempts n⟩ := by
  unfold Conn.deadLetterPolicyOf at h
  by_cases hblank : target = ""
  · rw [if_pos hblank] at h
    rw [if_pos hblank]
    exact (Except.ok.inj h).symm
  · rw [if_neg hblank] at h
    rw [if_neg hblank]
    rw [if_pos hblank] at ha
    split at h
    · cases h
    · rename_i name hname
      rw [requiredName_ok hname, htrim, ha, said_positive] at h
      by_cases hpos : 0 < n
      · simp only [if_pos hpos, if_neg (toString_ne_empty n), atoi_toString hn] at h
        split_ifs at h
        rw [← Except.ok.inj h, sentAttempts, if_pos hpos]
      · simp only [if_neg hpos, if_true] at h
        split_ifs at h
        rw [← Except.ok.inj h, sentAttempts, if_neg hpos]

/-- The numbers of a specification that came out of the dialog. -/
structure SubscriptionSpec.Shown (spec : SubscriptionSpec) : Prop where
  ack : Lib.Strconv.Fits 32 spec.ackDeadlineSec
  retention : 0 ≤ spec.retentionSec ∧ spec.retentionSec ≤ 9223372036
  attempts : Lib.Strconv.Fits 32 spec.maxAttempts
  low : 0 ≤ spec.retryMinBackoffSec ∧ spec.retryMinBackoffSec ≤ 9223372036
  high : 0 ≤ spec.retryMaxBackoffSec ∧ spec.retryMaxBackoffSec ≤ 9223372036

/-- The changes that a specification asks for. -/
def SubscriptionSpec.changes (c : Conn) (spec : SubscriptionSpec) : Changes where
  ackDeadlineSeconds := if 0 < spec.ackDeadlineSec then some spec.ackDeadlineSec else none
  messageRetentionDuration :=
    if 0 < spec.retentionSec then some ⟨spec.retentionSec, 0⟩ else none
  retainAckedMessages := some spec.retainAcked
  enableExactlyOnceDelivery := some spec.exactlyOnce
  retryPolicy :=
    if 0 < spec.retryMinBackoffSec ∨ 0 < spec.retryMaxBackoffSec then
      some ⟨⟨spec.retryMinBackoffSec, 0⟩, ⟨spec.retryMaxBackoffSec, 0⟩⟩
    else none
  deadLetterPolicy :=
    some (if trimSpace spec.deadLetterTopic = "" then none
      else some ⟨c.topicPath (trimSpace spec.deadLetterTopic), sentAttempts spec.maxAttempts⟩)

/-- **What an update sends.** -/
theorem applySettings_ok {c : Conn} {changes : Changes} (hs : spec.Shown)
    (h : c.applySettings spec.updateSpec.2 = .ok changes) : changes = spec.changes c := by
  rw [updateSpec_eq] at h
  unfold Conn.applySettings at h
  split at h
  · cases h
  rename_i ack hack
  split at h
  · cases h
  rename_i retention hretention
  split at h
  · cases h
  rename_i retry hretry
  dsimp only at h
  split at h
  · cases h
  rename_i policy hpolicy
  have hack := boundedSeconds_positive (fits_of_fits hs.ack) hack
  have hretention := boundedSeconds_positive
    (fits_of_bounds hs.retention.1 hs.retention.2) hretention
  have hretry := retryPolicyOf_ok hs.low hs.high rfl rfl hretry
  rw [trimSpace_trimSpace] at hpolicy
  have hpolicy := deadLetterPolicyOf_ok (fits_of_fits hs.attempts) (trimSpace_trimSpace _) rfl
    hpolicy
  have hackMap : ack.map int32 = if 0 < spec.ackDeadlineSec then some spec.ackDeadlineSec
      else none := by
    rw [hack, apply_ite (Option.map int32), Option.map_some, Option.map_none, int32_eq hs.ack]
  have hretentionMap : (retention.map fun s => newDuration (nanoseconds s)) =
      if 0 < spec.retentionSec then some ⟨spec.retentionSec, 0⟩ else none := by
    rw [hretention, apply_ite (Option.map _), Option.map_some, Option.map_none,
      newDuration_nanoseconds hs.retention.1 hs.retention.2]
  rw [← Except.ok.inj h, hackMap, hretentionMap, hretry, hpolicy, saidFlag_formatBool,
    saidFlag_formatBool, SubscriptionSpec.changes]

end Sent

/-! ### Saved as it was opened -/

theorem Changes.on_eq_iff {changes : Changes} {s : Subscription} : changes.on s = s ↔
    changes.ackDeadlineSeconds.getD s.ackDeadlineSeconds = s.ackDeadlineSeconds ∧
      changes.messageRetentionDuration.or s.messageRetentionDuration =
        s.messageRetentionDuration ∧
      changes.retainAckedMessages.getD s.retainAckedMessages = s.retainAckedMessages ∧
      changes.enableExactlyOnceDelivery.getD s.enableExactlyOnceDelivery =
        s.enableExactlyOnceDelivery ∧
      changes.retryPolicy.or s.retryPolicy = s.retryPolicy ∧
      changes.deadLetterPolicy.getD s.deadLetterPolicy = s.deadLetterPolicy := by
  constructor
  · intro h
    exact ⟨congrArg Subscription.ackDeadlineSeconds h,
      congrArg Subscription.messageRetentionDuration h,
      congrArg Subscription.retainAckedMessages h,
      congrArg Subscription.enableExactlyOnceDelivery h, congrArg Subscription.retryPolicy h,
      congrArg Subscription.deadLetterPolicy h⟩
  · rintro ⟨hack, hretention, hretain, hexactly, hretry, hdead⟩
    rw [Changes.on, hack, hretention, hretain, hexactly, hretry, hdead]

/-- A subscription that was opened in the dialog and saved as it was. -/
structure Saved where
  c : Conn
  name : String
  isName : IsName name
  stored : Subscription
  valid : stored.Valid
  target : String
  changes : Changes
  saved : c.resave (c.subscriptionPath name) stored = .ok (target, changes)

/-- The name that the dead-letter topic of a policy is sent by. -/
def sentTopic (policy : DeadLetterPolicy) : String :=
  trimSpace (jsTrim (shortName policy.deadLetterTopic))

namespace Saved

variable (e : Saved)

/-- The subscription is the one that is changed, and the changes are none. -/
def Unchanged : Prop :=
  e.target = e.c.subscriptionPath e.name ∧ e.changes.on e.stored = e.stored

/-- Durations are whole seconds or shown as none, and the dead-letter topic is one of this
project. -/
structure Kept : Prop where
  retention : ∃ d, e.stored.messageRetentionDuration = some d ∧ (d.nanos = 0 ∨ wholeSeconds d = 0)
  retry : ∀ p, e.stored.retryPolicy = some p →
    p.minimumBackoff.nanos = 0 ∧ p.maximumBackoff.nanos = 0 ∨
      wholeSeconds p.minimumBackoff = 0 ∧ wholeSeconds p.maximumBackoff = 0
  deadLetter : ∀ p, e.stored.deadLetterPolicy = some p →
    sentTopic p ≠ "" ∧ e.c.topicPath (sentTopic p) = p.deadLetterTopic ∧
      sentAttempts p.maxDeliveryAttempts = p.maxDeliveryAttempts

/-- The specification that the dialog submits. -/
def spec : SubscriptionSpec where
  name := e.name
  topic := jsTrim (topicNameOf e.stored.topic)
  ackDeadlineSec := e.stored.ackDeadlineSeconds
  retentionSec := (e.stored.messageRetentionDuration.map wholeSeconds).getD 604800
  retainAcked := e.stored.retainAckedMessages
  exactlyOnce := e.stored.enableExactlyOnceDelivery
  filter := jsTrim e.stored.filter
  ordering := e.stored.enableMessageOrdering
  deadLetterTopic := jsTrim (shownTopic e.stored)
  maxAttempts := (e.stored.deadLetterPolicy.map (·.maxDeliveryAttempts)).getD 5
  retryMinBackoffSec := (shownRetry e.stored).1
  retryMaxBackoffSec := (shownRetry e.stored).2

theorem shown_spec : e.spec.Shown where
  ack := e.valid.ackDeadline
  retention := by
    show 0 ≤ (e.stored.messageRetentionDuration.map wholeSeconds).getD 604800 ∧ _
    cases hd : e.stored.messageRetentionDuration with
    | none => norm_num [spec, hd]
    | some d => simpa [spec, hd] using wholeSeconds_bounds (e.valid.retention d hd)
  attempts := by
    show Lib.Strconv.Fits 32 ((e.stored.deadLetterPolicy.map (·.maxDeliveryAttempts)).getD 5)
    cases hp : e.stored.deadLetterPolicy with
    | none => constructor <;> norm_num
    | some p => exact e.valid.attempts p hp
  low := by
    show 0 ≤ (shownRetry e.stored).1 ∧ (shownRetry e.stored).1 ≤ 9223372036
    cases hp : e.stored.retryPolicy with
    | none => simp [shownRetry, hp]
    | some p => simpa [shownRetry, hp] using wholeSeconds_bounds (e.valid.retry p hp).1
  high := by
    show 0 ≤ (shownRetry e.stored).2 ∧ (shownRetry e.stored).2 ≤ 9223372036
    cases hp : e.stored.retryPolicy with
    | none => simp [shownRetry, hp]
    | some p => simpa [shownRetry, hp] using wholeSeconds_bounds (e.valid.retry p hp).2

theorem shortName_subscriptionPath : shortName (e.c.subscriptionPath e.name) = e.name := by
  have hpath : e.c.subscriptionPath e.name =
      ("projects/" ++ e.c.project ++ "/subscriptions") ++ "/" ++ e.name := by
    rw [Conn.subscriptionPath, show "/subscriptions/" = "/subscriptions" ++ "/" from rfl]
    simp only [String.append_assoc]
  rw [hpath, e.isName.shortName_append]

/-- **What was saved is what the specification says, at its place.** -/
theorem saved_eq : e.target = e.c.subscriptionPath e.name ∧ e.changes = e.spec.changes e.c := by
  have h := e.saved
  unfold Conn.resave at h
  rw [e.shortName_subscriptionPath, draftOf_subscriptionOf e.valid] at h
  split at h
  · cases h
  rename_i spec hspec
  obtain ⟨name, hname, rfl⟩ := submit_ok hspec
  obtain rfl : e.name = name := by
    rw [e.isName.submittable] at hname
    exact Option.some.inj hname
  change e.c.updateSubscription e.spec.updateSpec = _ at h
  unfold Conn.updateSubscription at h
  split_ifs at h
  have hfirst : e.spec.updateSpec.1 = e.name := e.isName.trimSpace_eq
  rw [hfirst, e.isName.required] at h
  dsimp only at h
  split at h
  · cases h
  rename_i changes hchanges
  split at h
  · cases h
  obtain ⟨htarget, heq⟩ := Prod.mk.inj (Except.ok.inj h)
  exact ⟨htarget.symm, heq ▸ applySettings_ok e.shown_spec hchanges⟩

theorem retention_iff :
    ((e.spec.changes e.c).messageRetentionDuration.or e.stored.messageRetentionDuration =
      e.stored.messageRetentionDuration) ↔
      ∃ d, e.stored.messageRetentionDuration = some d ∧ (d.nanos = 0 ∨ wholeSeconds d = 0) := by
  cases hd : e.stored.messageRetentionDuration with
  | none => simp [SubscriptionSpec.changes, spec, hd]
  | some d =>
    have hvalid := e.valid.retention d hd
    have hnonneg := (wholeSeconds_bounds hvalid).1
    by_cases hpos : 0 < wholeSeconds d
    · have hne : wholeSeconds d ≠ 0 := hpos.ne'
      simp only [SubscriptionSpec.changes, spec, hd, Option.map_some, Option.getD_some, if_pos hpos,
        Option.some_or, Option.some.injEq, exists_eq_left', hne, or_false]
      exact whole_iff hvalid
    · have hzero : wholeSeconds d = 0 := by omega
      simp [SubscriptionSpec.changes, spec, hd, hzero]

theorem retry_iff :
    ((e.spec.changes e.c).retryPolicy.or e.stored.retryPolicy = e.stored.retryPolicy) ↔
      ∀ p, e.stored.retryPolicy = some p →
        p.minimumBackoff.nanos = 0 ∧ p.maximumBackoff.nanos = 0 ∨
          wholeSeconds p.minimumBackoff = 0 ∧ wholeSeconds p.maximumBackoff = 0 := by
  cases hp : e.stored.retryPolicy with
  | none => simp [SubscriptionSpec.changes, spec, shownRetry, hp]
  | some p =>
    obtain ⟨hmin, hmax⟩ := e.valid.retry p hp
    have hlow := (wholeSeconds_bounds hmin).1
    have hhigh := (wholeSeconds_bounds hmax).1
    simp only [SubscriptionSpec.changes, spec, shownRetry, hp, Option.map_some, Option.getD_some,
      Option.some.injEq, forall_eq']
    by_cases hpos : 0 < wholeSeconds p.minimumBackoff ∨ 0 < wholeSeconds p.maximumBackoff
    · have hne : ¬(wholeSeconds p.minimumBackoff = 0 ∧ wholeSeconds p.maximumBackoff = 0) := by
        omega
      rw [if_pos hpos, Option.some_or, or_iff_left hne, ← whole_iff hmin, ← whole_iff hmax,
        Option.some.injEq]
      constructor
      · intro heq
        exact ⟨congrArg RetryPolicy.minimumBackoff heq, congrArg RetryPolicy.maximumBackoff heq⟩
      · rintro ⟨h1, h2⟩
        rw [h1, h2]
    · rw [if_neg hpos, Option.none_or]
      exact iff_of_true rfl (.inr (by omega))

theorem deadLetter_iff :
    ((e.spec.changes e.c).deadLetterPolicy.getD e.stored.deadLetterPolicy =
      e.stored.deadLetterPolicy) ↔
      ∀ p, e.stored.deadLetterPolicy = some p →
        sentTopic p ≠ "" ∧ e.c.topicPath (sentTopic p) = p.deadLetterTopic ∧
          sentAttempts p.maxDeliveryAttempts = p.maxDeliveryAttempts := by
  cases hp : e.stored.deadLetterPolicy with
  | none =>
    have hblank : trimSpace (jsTrim "") = "" := by decide
    simp only [SubscriptionSpec.changes, spec, shownTopic, hp, Option.map_none, Option.getD_none,
      hblank, if_true, Option.getD_some, reduceCtorEq, false_imp_iff, implies_true]
  | some p =>
    simp only [SubscriptionSpec.changes, spec, shownTopic, hp, Option.map_some, Option.getD_some,
      Option.some.injEq, forall_eq']
    have hfold : trimSpace (jsTrim (shortName p.deadLetterTopic)) = sentTopic p := rfl
    rw [hfold]
    by_cases hsent : sentTopic p = ""
    · rw [if_pos hsent]
      exact iff_of_false nofun fun h => h.1 hsent
    · rw [if_neg hsent, Option.some.injEq]
      constructor
      · intro heq
        exact ⟨hsent, congrArg DeadLetterPolicy.deadLetterTopic heq,
          congrArg DeadLetterPolicy.maxDeliveryAttempts heq⟩
      · rintro ⟨-, h1, h2⟩
        rw [h1, h2]

/-- The ack deadline and the flags are sent as they are. -/
theorem on_stored_iff : e.changes.on e.stored = e.stored ↔
    (e.spec.changes e.c).messageRetentionDuration.or e.stored.messageRetentionDuration =
        e.stored.messageRetentionDuration ∧
      (e.spec.changes e.c).retryPolicy.or e.stored.retryPolicy = e.stored.retryPolicy ∧
      (e.spec.changes e.c).deadLetterPolicy.getD e.stored.deadLetterPolicy =
        e.stored.deadLetterPolicy := by
  have hack : (e.spec.changes e.c).ackDeadlineSeconds.getD e.stored.ackDeadlineSeconds =
      e.stored.ackDeadlineSeconds := by
    rw [SubscriptionSpec.changes]
    dsimp only
    have hspec : e.spec.ackDeadlineSec = e.stored.ackDeadlineSeconds := rfl
    rw [hspec]
    split_ifs <;> rfl
  have hretain : (e.spec.changes e.c).retainAckedMessages = some e.stored.retainAckedMessages := rfl
  have hexactly : (e.spec.changes e.c).enableExactlyOnceDelivery =
      some e.stored.enableExactlyOnceDelivery := rfl
  rw [e.saved_eq.2, Changes.on_eq_iff, hretain, hexactly]
  simp only [hack, Option.getD_some, true_and]

/-- **Saving what was opened changes nothing exactly if it is kept.** -/
theorem unchanged_iff : e.Unchanged ↔ e.Kept := by
  rw [Unchanged, and_iff_right e.saved_eq.1, on_stored_iff, retention_iff, retry_iff,
    deadLetter_iff]
  exact ⟨fun h => ⟨h.1, h.2.1, h.2.2⟩, fun h => ⟨h.retention, h.retry, h.deadLetter⟩⟩

end Saved

end MqStudio.Googlepubsub.Edit
