import MqStudio.Lib.Errors
import MqStudio.Lib.Json.Decode
import MqStudio.Lib.Strconv
import MqStudio.Lib.Words

/-!
# Creating and changing Kinesis streams

`kinesis/destination_admin.go`: a stream's mode, its capacity and its retention are three operations
of the service, sent one after another.

* `createDestination`, `updateDestination`: what is sent, and what is refused.
* `created_refused`: a create that is refused has sent nothing.
* `updateStream`: an edit as the form submits it.
-/

namespace MqStudio.Kinesis

open Lib.Errors Lib.Json Lib.Maps Lib.Strconv Lib.Text

/-! ### Streams and the service -/

inductive StreamMode where
  | provisioned
  | onDemand
deriving DecidableEq

/-- What the service describes of a stream. -/
structure Stream where
  streamModeDetails : Option StreamMode
  openShardCount : Option Int32
  retentionPeriodHours : Option Int32

def Stream.mode (s : Stream) : StreamMode := s.streamModeDetails.getD .provisioned

def Stream.openShards (s : Stream) : Int := (s.openShardCount.getD 0).toInt

def Stream.retention (s : Stream) : Int := (s.retentionPeriodHours.getD 0).toInt

/-- The calls that change a stream. -/
inductive Mutation where
  | createStream (shardCount : Option Int32) (mode : StreamMode)
  | updateStreamMode (mode : StreamMode)
  | updateShardCount (target : Int32)
  | increaseStreamRetentionPeriod (hours : Int32)
  | decreaseStreamRetentionPeriod (hours : Int32)
deriving DecidableEq

/-- What a call does to the stream once it has settled: a change of the mode leaves the shards and
the retention alone, and a new stream keeps its records for a day. -/
def Mutation.apply : Mutation → Stream → Stream
  | .createStream shardCount mode, _ => ⟨some mode, shardCount, some 24⟩
  | .updateStreamMode mode, s => { s with streamModeDetails := some mode }
  | .updateShardCount target, s => { s with openShardCount := some target }
  | .increaseStreamRetentionPeriod hours, s => { s with retentionPeriodHours := some hours }
  | .decreaseStreamRetentionPeriod hours, s => { s with retentionPeriodHours := some hours }

/-- The errors of the calls, and of waiting for a stream to be active again.  The service takes no
shard count below one. -/
structure Service where
  refuse : Mutation → Option Error
  await : Mutation → Option Error
  positive : ∀ target : Int32, target.toInt < 1 → refuse (.updateShardCount target) ≠ none

/-- What was sent so far, and the stream it has led to. -/
structure Progress where
  stream : Stream
  calls : List Mutation

def Progress.call (p : Progress) (service : Service) (m : Mutation) : Progress × Option Error :=
  match service.refuse m with
  | some err => ({ p with calls := p.calls ++ [m] }, some err)
  | none => (⟨m.apply p.stream, p.calls ++ [m]⟩, none)

/-- A call, and the wait for the stream to be active behind it. -/
def Progress.callAndAwait (p : Progress) (service : Service) (m : Mutation)
    (describe : Error → Error) : Progress × Option Error :=
  match p.call service m with
  | (p, some err) => (p, some (describe err))
  | (p, none) => (p, service.await m)

/-! ### What is asked -/

def attrMode : String := "streamMode"
def attrRetentionHours : String := "retentionHours"

structure DestinationSpec where
  name : String
  partitions : Int64
  attributes : StringMap

def minRetentionHours : Int := 24
def maxRetentionHours : Int := 8760

/-- What the driver itself refuses. -/
inductive Refusal where
  | unnamed
  | createOnDemandCount
  | createNoShards
  | onDemandCount
  | notANumber (raw : String)
  | outOfBounds (hours : Int)
  | nothingToChange
deriving DecidableEq

/-- The text of a refusal; a raw value is quoted in it. -/
def Refusal.text : Refusal → String
  | .unnamed => "a stream needs a name"
  | .createOnDemandCount =>
      "an on-demand stream has no shard count to set; AWS scales it, and a " ++
        "provisioned stream is what takes a number"
  | .createNoShards => "a provisioned stream needs at least one shard"
  | .onDemandCount =>
      "an on-demand stream's shard count is the service's to choose; " ++
        "switch it to provisioned to set one"
  | .notANumber raw => "the retention has to be a number of hours, not \"" ++ raw ++ "\""
  | .outOfBounds hours =>
      "kinesis keeps a record for between " ++ toString minRetentionHours ++ " and " ++
        toString maxRetentionHours ++ " hours; " ++ toString hours ++ " is outside that"
  | .nothingToChange => "nothing to change"

inductive UpdateError where
  | refused (refusal : Refusal)
  | failed (err : Error)

def onDemand (mode : String) : Bool := equalFold (trimSpace mode) "ON_DEMAND"

/-- The wanted retention, where one is given. -/
def retentionOf (attributes : StringMap) : Except Refusal (Option Int) :=
  let raw := trimSpace (attributes.getD attrRetentionHours "")
  if raw = "" then .ok none
  else
    match parseInt 64 raw.toList with
    | none => .error (.notANumber raw)
    | some hours =>
      if hours < minRetentionHours ∨ maxRetentionHours < hours then .error (.outOfBounds hours)
      else .ok (some hours)

/-- `setRetention`: the call is chosen by the direction. -/
def retentionCall (hours stored : Int) : Mutation :=
  if stored < hours then .increaseStreamRetentionPeriod (Int32.ofInt hours)
  else .decreaseStreamRetentionPeriod (Int32.ofInt hours)

/-! ### Creating -/

structure Conn where
  closed : Bool
  region : String

def connectionDown : Error := .new "kinesis connection is not open"

/-- A create that was checked. -/
structure CreateRequest where
  shardCount : Option Int32
  mode : StreamMode
  hours : Option Int

/-- The checks of `CreateDestination`, in their order. -/
def createRequest (spec : DestinationSpec) : Except Refusal CreateRequest :=
  if trimSpace spec.name = "" then .error .unnamed
  else
    match retentionOf spec.attributes with
    | .error refusal => .error refusal
    | .ok hours =>
      if onDemand (spec.attributes.getD attrMode "") then
        if 0 < spec.partitions then .error .createOnDemandCount
        else .ok ⟨none, .onDemand, hours⟩
      else if spec.partitions ≤ 0 then .error .createNoShards
      else .ok ⟨some spec.partitions.toInt32, .provisioned, hours⟩

/-- The retention is not a part of the create: a new stream keeps its records for a day. -/
def sendCreate (service : Service) (start : Progress) (request : CreateRequest) :
    Progress × Option Error :=
  let m := Mutation.createStream request.shardCount request.mode
  match request.hours.filter (· ≠ minRetentionHours) with
  | none => start.call service m
  | some hours =>
    match start.callAndAwait service m id with
    | (p, some err) => (p, some err)
    | (p, none) => p.call service (retentionCall hours minRetentionHours)

/-- `CreateDestination`: everything is checked before anything is created. -/
def createDestination (c : Conn) (service : Service) (spec : DestinationSpec) :
    Progress × Option UpdateError :=
  let start : Progress := ⟨⟨none, none, none⟩, []⟩
  if c.closed then (start, some (.failed connectionDown))
  else
    match createRequest spec with
    | .error refusal => (start, some (.refused refusal))
    | .ok request =>
      let r := sendCreate service start request
      (r.1, r.2.map .failed)

/-- **A create that is refused has sent nothing.** -/
theorem created_refused (c : Conn) (service : Service) (spec : DestinationSpec)
    (refusal : Refusal) (h : (createDestination c service spec).2 = some (.refused refusal)) :
    (createDestination c service spec).1.calls = [] := by
  unfold createDestination at h ⊢
  dsimp only at h ⊢
  split
  · rfl
  · rename_i hopen
    split
    · rfl
    · rename_i request hrequest
      rw [if_neg hopen, hrequest] at h
      obtain ⟨err, -, herr⟩ := Option.map_eq_some_iff.mp h
      cases herr

/-! ### Changing -/

/-- The mode a spec asks for: the stored one where it asks for none. -/
def wantedMode (current : StreamMode) (attributes : StringMap) : StreamMode :=
  match attributes[attrMode]? with
  | none => current
  | some mode =>
    if trimSpace mode = "" then current
    else if onDemand mode then .onDemand
    else .provisioned

def changeMode (service : Service) (p : Progress) (current wanted : StreamMode) :
    Progress × Option Error :=
  if wanted = current then (p, none) else p.callAndAwait service (.updateStreamMode wanted) id

/-- Whether a count is given that is not the stored one. -/
def Resizes (stored : Stream) (partitions : Int64) : Prop :=
  0 < partitions.toInt ∧ partitions.toInt ≠ stored.openShards

instance (stored : Stream) (partitions : Int64) : Decidable (Resizes stored partitions) :=
  inferInstanceAs (Decidable (_ ∧ _))

def changeShards (service : Service) (p : Progress) (name : String) (stored : Stream)
    (partitions : Int64) : Progress × Option Error :=
  p.callAndAwait service (.updateShardCount partitions.toInt32) fun err =>
    .wrap s!"resizing {name} from {stored.openShards} shards to {partitions.toInt}" err

/-- The retention, and whether anything was changed, the steps before it included. -/
def changeRetention (service : Service) (p : Progress) (stored : Stream) (attributes : StringMap)
    (changed : Bool) : Progress × Option UpdateError :=
  match retentionOf attributes with
  | .error refusal => (p, some (.refused refusal))
  | .ok hours =>
    match hours.filter (· ≠ stored.retention) with
    | some hours =>
      let r := p.call service (retentionCall hours stored.retention)
      (r.1, r.2.map .failed)
    | none => if changed then (p, none) else (p, some (.refused .nothingToChange))

/-- `UpdateDestination`, on what the service describes of the stream: the mode, then the capacity,
then the retention, each with its own checks in front of it. -/
def updateDestination (c : Conn) (service : Service) (described : Except Error Stream)
    (spec : DestinationSpec) : Progress × Option UpdateError :=
  let start : Progress := ⟨described.toOption.getD ⟨none, none, none⟩, []⟩
  let name := trimSpace spec.name
  if c.closed then (start, some (.failed connectionDown))
  else if name = "" then (start, some (.refused .unnamed))
  else
    match described with
    | .error err => (start, some (.failed err))
    | .ok stored =>
      let wanted := wantedMode stored.mode spec.attributes
      match changeMode service start stored.mode wanted with
      | (p, some err) => (p, some (.failed err))
      | (p, none) =>
        if Resizes stored spec.partitions then
          if wanted = .onDemand then (p, some (.refused .onDemandCount))
          else
            match changeShards service p name stored spec.partitions with
            | (p, some err) => (p, some (.failed err))
            | (p, none) => changeRetention service p stored spec.attributes true
        else changeRetention service p stored spec.attributes (wanted ≠ stored.mode)

/-- A stream as the form collects it. -/
structure StreamSpec where
  name : String
  onDemand : Bool
  shards : Int64
  retentionHours : Int64

def StreamSpec.mode (s : StreamSpec) : StreamMode := if s.onDemand then .onDemand else .provisioned

def modeText : StreamMode → String
  | .provisioned => "PROVISIONED"
  | .onDemand => "ON_DEMAND"

def StreamSpec.spec (s : StreamSpec) : DestinationSpec :=
  let attributes := (∅ : StringMap).insert attrMode (modeText s.mode)
  ⟨trimSpace s.name, s.shards,
    if 0 < s.retentionHours.toInt then
      attributes.insert attrRetentionHours (toString s.retentionHours.toInt)
    else attributes⟩

def createStream (c : Conn) (service : Service) (s : StreamSpec) : Progress × Option UpdateError :=
  createDestination c service s.spec

def updateStream (c : Conn) (service : Service) (described : Except Error Stream)
    (s : StreamSpec) : Progress × Option UpdateError :=
  updateDestination c service described s.spec

/-! ### What the form asks for -/

theorem attributes_mode (s : StreamSpec) :
    s.spec.attributes[attrMode]? = some (modeText s.mode) := by
  have hne : attrRetentionHours ≠ attrMode := by decide
  rw [StreamSpec.spec]
  dsimp only
  split
  · rw [getElem?_insert, if_neg hne, getElem?_insert, if_pos rfl]
  · rw [getElem?_insert, if_pos rfl]

/-- The form always says which mode it wants. -/
theorem wantedMode_spec (s : StreamSpec) (current : StreamMode) :
    wantedMode current s.spec.attributes = s.mode := by
  have hasked : ∀ mode, trimSpace (modeText mode) ≠ "" ∧
      (if onDemand (modeText mode) then StreamMode.onDemand else .provisioned) = mode := by
    intro mode
    cases mode <;> decide
  rw [wantedMode, attributes_mode]
  dsimp only
  rw [if_neg (hasked s.mode).1, (hasked s.mode).2]

/-- A retention that is given is sent, and has to be within the bounds. -/
theorem retentionOf_spec (s : StreamSpec) : retentionOf s.spec.attributes =
    if s.retentionHours.toInt ≤ 0 then .ok none
    else if s.retentionHours.toInt < minRetentionHours ∨ maxRetentionHours < s.retentionHours.toInt
      then .error (.outOfBounds s.retentionHours.toInt)
    else .ok (some s.retentionHours.toInt) := by
  have hne : attrMode ≠ attrRetentionHours := by decide
  by_cases hgiven : 0 < s.retentionHours.toInt
  · have hnonneg : 0 ≤ s.retentionHours.toInt := by omega
    have hplain : trimSpace (toString s.retentionHours.toInt) =
        toString s.retentionHours.toInt := by
      refine trimSpace_eq_self fun c hc => ?_
      by_contra hspace
      have hdigit : c.isDigit = false := by
        by_contra hd
        simp only [Bool.not_eq_false] at hd hspace
        rw [not_isSpace_of_isDigit hd] at hspace
        cases hspace
      exact notMem_toString hdigit hnonneg hc
    have hfits : Fits 64 s.retentionHours.toInt := ⟨Int64.le_toInt _, Int64.toInt_lt _⟩
    have hparse := parseInt_toString hnonneg hfits
    have hblank : toString s.retentionHours.toInt ≠ "" := by
      intro he
      have hempty : parseInt 64 "".toList = none := by decide
      rw [he, hempty] at hparse
      cases hparse
    have hget : s.spec.attributes.getD attrRetentionHours "" =
        toString s.retentionHours.toInt := by
      rw [Std.ExtTreeMap.getD_eq_getD_getElem?, StreamSpec.spec]
      dsimp only
      rw [if_pos hgiven, getElem?_insert, if_pos rfl]
      rfl
    rw [retentionOf, hget, hplain, if_neg hblank, hparse, if_neg (not_le.mpr hgiven)]
  · have hget : s.spec.attributes.getD attrRetentionHours "" = "" := by
      rw [Std.ExtTreeMap.getD_eq_getD_getElem?, StreamSpec.spec]
      dsimp only
      rw [if_neg hgiven, getElem?_insert, if_neg hne]
      rfl
    rw [retentionOf, hget, if_pos trimSpace_empty, if_pos (not_lt.mp hgiven)]

end MqStudio.Kinesis
