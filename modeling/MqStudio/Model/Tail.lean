import MqStudio.Lib.Maps

/-!
# Tails

`model/message.go`: a message in the shape all families share, and the cursor a
caller hands from one poll of a tail to the next.
-/

namespace MqStudio.Model

open Std (ExtTreeMap)

/-- Marks a number that no broker reports. -/
def UnknownMetric : Int := -1

inductive MessageStatus where
  | normal
  | retry
  | dlq
deriving DecidableEq

structure MessageItem where
  id : Int
  topic : String
  messageID : String
  tags : String
  keys : String
  queueID : Int
  queueOffset : Int
  storeTimestamp : Int
  status : MessageStatus
  body : String
  properties : ExtTreeMap String String compare

/-- One partition's place in a tail. -/
structure QueuePosition where
  node : String
  queueID : Int
  offset : Int
deriving DecidableEq

/-- Where a tail has read to.  An empty cursor starts at the end. -/
structure TailCursor where
  positions : List QueuePosition
deriving DecidableEq

/-- One poll's worth of a tail. -/
structure TailBatch where
  messages : List MessageItem
  cursor : TailCursor
  dropped : Int

end MqStudio.Model
