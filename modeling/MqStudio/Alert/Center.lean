import MqStudio.Lib.Json.Decode
import MqStudio.Lib.OrderedMap
import MqStudio.Lib.Transition

/-!
# The notification centre

`frontend/src/lib/alertCenter.ts`: the memory of the alerts a connection has
raised, kept as a pure merge of what one sweep observed into what was recorded,
and the two read actions of `useAlertCenter.tsx`.

Rule keys, severities and parameters are passed through unread.  An optional
field that is absent is `none`.  `observed` is a `Map` and the records an
object, so both are maps in insertion order; `known` and `read` are sets.
-/

namespace MqStudio.Alert

open Lib

/-- How long a recovered alert stays on the list, in milliseconds. -/
def resolvedRetentionMs : Int := 30 * 60000

structure AlertRuleKey where
  name : String
deriving DecidableEq

inductive AlertSeverity where
  | crit
  | warn
  | info
deriving DecidableEq

/-- A parameter of a message. -/
inductive Param where
  | text (s : String)
  | number (n : Rat)
deriving DecidableEq

/-- What a rule reports about a connection right now. -/
structure DerivedAlert where
  key : String
  ruleKey : AlertRuleKey
  severity : AlertSeverity
  params : List (String × Param)
  since : Option String
deriving DecidableEq

structure AlertRecord where
  id : String
  connectionId : Int
  ruleKey : AlertRuleKey
  severity : AlertSeverity
  params : List (String × Param)
  since : Option String
  firstSeen : Int
  lastSeen : Int
  resolvedAt : Option Int
  read : Bool
deriving DecidableEq

abbrev Records := OrderedMap String AlertRecord

/-- The connection id in decimal, a colon, the alert's key. -/
def recordId (connectionId : Int) (key : String) : String :=
  String.ofList (Json.intLit connectionId) ++ ":" ++ key

/-- One sweep. -/
structure MergeInput where
  previous : Records
  observed : OrderedMap Int (List DerivedAlert)
  known : List Int
  read : List String
  now : Int

structure MergeResult where
  records : Records
  fired : List AlertRecord

/-! ### The merge -/

def expired (now : Int) (record : AlertRecord) : Bool :=
  match record.resolvedAt with
  | some t => resolvedRetentionMs < now - t
  | none => false

/-- Carry forward, dropping deleted connections and expired recoveries. -/
def carryForward (previous : Records) (known : List Int) (now : Int) : Records :=
  previous.values.foldl (fun records record =>
    if !known.contains record.connectionId then records
    else if expired now record then records
    else records.set record.id record) .empty

/-- What an observation says of a record, written over it. -/
def AlertRecord.withShape (record : AlertRecord) (connectionId : Int) (derived : DerivedAlert)
    (now : Int) : AlertRecord :=
  { record with
    id := recordId connectionId derived.key
    connectionId := connectionId
    ruleKey := derived.ruleKey
    severity := derived.severity
    params := derived.params
    since := derived.since
    lastSeen := now }

/-- Merge one observed alert. -/
def observeAlert (connectionId : Int) (read : List String) (now : Int) (acc : MergeResult)
    (derived : DerivedAlert) : MergeResult :=
  let id := recordId connectionId derived.key
  let fresh (isRead : Bool) : AlertRecord :=
    { id := id, connectionId := connectionId, ruleKey := derived.ruleKey,
      severity := derived.severity, params := derived.params, since := derived.since,
      firstSeen := now, lastSeen := now, resolvedAt := none, read := isRead }
  match acc.records.get? id with
  | some before =>
      if before.resolvedAt = none then
        -- Still firing: the numbers move, the record and its read state do not.
        { acc with records := acc.records.set id (before.withShape connectionId derived now) }
      else
        -- Recovered and now back: unread, whatever was read before.
        { records := acc.records.set id (fresh false), fired := acc.fired ++ [fresh false] }
  | none =>
      -- Genuinely new: the stored read set decides.
      let record := fresh (read.contains id)
      { records := acc.records.set id record
        fired := if record.read then acc.fired else acc.fired ++ [record] }

/-- Anything the connection was firing and no longer is has recovered. -/
def resolveGone (connectionId : Int) (stillFiring : List String) (now : Int) (records : Records) :
    Records :=
  records.values.foldl (fun records record =>
    if record.connectionId ≠ connectionId then records
    else if record.resolvedAt ≠ none then records
    else if stillFiring.contains record.id then records
    else records.set record.id { record with resolvedAt := some now }) records

/-- Merge what one connection reported. -/
def observeConnection (read : List String) (now : Int) (acc : MergeResult)
    (observation : Int × List DerivedAlert) : MergeResult :=
  let stillFiring := observation.2.map fun derived => recordId observation.1 derived.key
  let acc := observation.2.foldl (observeAlert observation.1 read now) acc
  { acc with records := resolveGone observation.1 stillFiring now acc.records }

def mergeAlerts (input : MergeInput) : MergeResult :=
  input.observed.entries.foldl (observeConnection input.read input.now)
    ⟨carryForward input.previous input.known input.now, []⟩

/-! ### The hook -/

/-- The records on screen and the ids the user has seen. -/
structure Center where
  records : Records
  readIds : List String

/-- What one sweep brings. -/
structure Round where
  observed : OrderedMap Int (List DerivedAlert)
  known : List Int
  now : Int

def Center.input (s : Center) (r : Round) : MergeInput :=
  ⟨s.records, r.observed, r.known, s.readIds, r.now⟩

def Center.merge (s : Center) (r : Round) : Center :=
  { s with records := (mergeAlerts (s.input r)).records }

/-- Every unread record is marked, and its id remembered. -/
def Center.markAllRead (s : Center) : Center :=
  s.records.entries.foldl (fun s e =>
    if e.2.read then s
    else ⟨s.records.set e.1 { e.2 with read := true }, s.readIds ++ [e.1]⟩) s

def Center.markRead (s : Center) (id : String) : Center :=
  match s.records.get? id with
  | none => s
  | some record =>
      if record.read then s
      else ⟨s.records.set id { record with read := true }, s.readIds ++ [id]⟩

/-- A step of the hook. -/
inductive Step where
  | round (r : Round)
  | markRead (id : String)
  | markAllRead

def Center.step (s : Center) : Step → Center
  | .round r => s.merge r
  | .markRead id => s.markRead id
  | .markAllRead => s.markAllRead

end MqStudio.Alert
