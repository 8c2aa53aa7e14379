import MqStudio.Lib.Text

/-!
# MQTT topic filters

`matchesFilter` decides again what the broker has decided: whether a topic
belongs to a filter.  `validFilter` rejects what a broker would refuse.
-/

namespace MqStudio.Mqtt

open Lib.Text

/-- `$share/<group>/<filter>` is a shared subscription. -/
def sharedPrefix : String := "$share/"

/-- Separates a shared subscription's group from the filter it wraps. -/
def splitShared (filter : String) : String × String :=
  if !hasPrefix filter sharedPrefix then ("", filter)
  else
    let rest := filter.toList.drop sharedPrefix.toList.length
    match rest.dropWhile (· ≠ '/') with
    | [] => ("", filter)
    | _ :: topicFilter => (String.ofList (rest.takeWhile (· ≠ '/')), String.ofList topicFilter)

/-- `strings.Split(s, "/")`. -/
def levels (s : String) : List (List Char) := s.toList.splitOnP (· = '/')

/-- The loop over the levels of a filter. -/
def matchLevels : List (List Char) → List (List Char) → Bool
  | [], topicLevels => topicLevels.isEmpty
  | level :: rest, topicLevels =>
    -- A wildcard for the rest is the filter's last level.
    if level = ['#'] then rest.isEmpty
    else
      match topicLevels with
      | [] => false
      | topicLevel :: topicLevels =>
        if level = ['+'] ∨ level = topicLevel then matchLevels rest topicLevels else false

/-- Whether a topic name matches a topic filter. -/
def matchesFilter (filter topic : String) : Bool :=
  if filter = "" ∨ topic = "" then false
  else
    let filterLevels := levels (splitShared filter).2
    if hasPrefix topic "$" ∧ (filterLevels.head? = some ['#'] ∨ filterLevels.head? = some ['+']) then
      false
    else matchLevels filterLevels (levels topic)

/-- A wildcard is a whole level, and the one for the rest the last level. -/
def validLevels : List (List Char) → Bool
  | [] => true
  | level :: rest =>
    if level = ['#'] then rest.isEmpty && validLevels rest
    else if level = ['+'] then validLevels rest
    else if level.any fun c => c = '+' || c = '#' then false
    else validLevels rest

/-- Rejects what a broker would refuse, before it is sent. -/
def validFilter (filter : String) : Bool :=
  if filter = "" then false
  else
    let (group, topicFilter) := splitShared filter
    if topicFilter = "" || (hasPrefix filter sharedPrefix && group = "") then false
    else validLevels (levels topicFilter)

/-- The two subscription wildcards, which no topic name may contain. -/
def containsWildcard (topic : String) : Bool := topic.toList.any fun c => c = '+' || c = '#'

example : matchesFilter "sensors/+/#" "sensors/room-1" = true := by decide

example : matchesFilter "#" "$SYS/broker/uptime" = false := by decide

end MqStudio.Mqtt
