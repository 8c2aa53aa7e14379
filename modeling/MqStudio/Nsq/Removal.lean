import Mathlib

/-!
# Removing a topic or a channel of NSQ

`nsq/destination_admin.go` and `nsq/subscription.go`: a delete runs on every nsqd, and where none of
them failed on every nsqlookupd, all of one tier at once.

* `onEveryCarrier`, `forgetAtLookupd`: the two tiers, folded into one error each.
* `removal_sound`: what the error of a removal says, and which daemons were asked.
-/

namespace MqStudio.Nsq

/-! ### Daemons -/

/-- What a call of a daemon fails with: its own name for the failure, or none that it gave. -/
inductive CallError where
  | api (status : ℕ) (code : String)
  | transport (text : String)
deriving DecidableEq

def notFound : CallError → Bool
  | .api _ code => code = "TOPIC_NOT_FOUND" || code = "CHANNEL_NOT_FOUND"
  | .transport _ => false

/-- What an answer says: the call worked, or there was nothing to work on. -/
def settled (answer : Option CallError) : Bool := answer.all notFound

/-- An nsqd, with its answer to the delete; `before` and `after` are whether it carries the object
when it is asked and when it has answered. -/
structure Nsqd where
  address : String
  answer : Option CallError
  before : Bool
  after : Bool
  deleted : answer = none → before = true ∧ after = false
  missing : answer.any notFound = true → before = false ∧ after = false

structure Lookupd where
  address : String
  answer : Option CallError

/-- The daemons of a connection, each tier in the order in which its answers come. -/
structure Conn where
  live : Bool
  nodes : List Nsqd
  lookupd : List Lookupd

structure Ref where
  nameSpace : String
  name : String

inductive RemoveError where
  | connectionDown
  | invalid (text : String)
  | daemon (address : String) (err : CallError)
  | notCarried (what : String)
deriving DecidableEq

def notCarried : RemoveError → Bool
  | .notCarried _ => true
  | _ => false

/-- One call of a daemon. -/
structure Post where
  address : String
  path : String
  query : List (String × String)
deriving DecidableEq

/-- A removal: what each tier was asked, and the error. -/
structure Removal where
  nodes : List Post
  lookupd : List Post
  err : Option RemoveError

/-! ### The two tiers -/

/-- `group.Wait`: the first failure, where being asked for something that is not there is none. -/
def firstFailure (answers : List (String × Option CallError)) : Option RemoveError :=
  answers.findSome? fun (address, answer) =>
    answer.bind fun err => if notFound err then none else some (.daemon address err)

def Conn.onEveryCarrier (c : Conn) (missing : String) : Option RemoveError :=
  match firstFailure (c.nodes.map fun n => (n.address, n.answer)) with
  | some err => some err
  | none => if c.nodes.any (·.answer.isNone) then none else some (.notCarried missing)

def Conn.forgetAtLookupd (c : Conn) : Option RemoveError :=
  firstFailure (c.lookupd.map fun l => (l.address, l.answer))

/-- A removal on a live connection. -/
def Conn.remove (c : Conn) (path : String) (query : List (String × String)) (missing : String) :
    Removal :=
  let nodes := c.nodes.map fun n => ⟨n.address, path, query⟩
  let removed := c.onEveryCarrier missing
  if removed.any (!notCarried ·) then ⟨nodes, [], removed⟩
  else
    ⟨nodes, c.lookupd.map fun l => ⟨l.address, path, query⟩,
      match c.forgetAtLookupd with
      | some err => some err
      | none => removed⟩

def Conn.removeDestination (c : Conn) (ref : Ref) : Removal :=
  if !c.live then ⟨[], [], some .connectionDown⟩
  else if ref.name = "" then ⟨[], [], some (.invalid "a topic needs a name")⟩
  else
    c.remove "/topic/delete" [("topic", ref.name)]
      ("no nsqd in this connection was carrying the topic \"" ++ ref.name ++ "\"")

def Conn.removeSubscription (c : Conn) (ref : Ref) : Removal :=
  if !c.live then ⟨[], [], some .connectionDown⟩
  else if ref.nameSpace = "" ∨ ref.name = "" then
    ⟨[], [], some (.invalid "a channel is identified by its topic and its own name")⟩
  else
    c.remove "/channel/delete" [("topic", ref.nameSpace), ("channel", ref.name)]
      ("no nsqd in this connection was carrying the channel \"" ++ ref.name ++ "\" on \"" ++
        ref.nameSpace ++ "\"")

/-! ### What the tiers say -/

theorem firstFailure_eq_none {answers : List (String × Option CallError)} :
    firstFailure answers = none ↔ ∀ a ∈ answers, settled a.2 = true := by
  rw [firstFailure, List.findSome?_eq_none_iff]
  refine forall₂_congr fun a _ => ?_
  rcases a with ⟨address, _ | err⟩
  · exact ⟨fun _ => rfl, fun _ => rfl⟩
  · simp [settled]

theorem settled_of_any {answer : Option CallError} (h : answer.any notFound = true) :
    settled answer = true := by
  rcases answer with _ | err
  · rfl
  · exact h

theorem notCarried_of_firstFailure {answers : List (String × Option CallError)} {err : RemoveError}
    (h : firstFailure answers = some err) : notCarried err = false := by
  rw [firstFailure] at h
  obtain ⟨⟨address, answer⟩, _, hanswer⟩ := List.exists_of_findSome?_eq_some h
  obtain ⟨_, _, herr⟩ := Option.bind_eq_some_iff.mp hanswer
  split at herr
  case isTrue => nomatch herr
  case isFalse => obtain rfl := Option.some.inj herr; rfl

/-- No nsqd failed, and none of those that answered carries the object now. -/
theorem Nsqd.after_of_settled {n : Nsqd} (h : settled n.answer = true) : n.after = false := by
  rcases hanswer : n.answer with _ | err
  · exact (n.deleted hanswer).2
  · rw [hanswer] at h
    exact (n.missing (by rw [hanswer]; exact h)).2

/-- The verdict of the first tier. -/
theorem onEveryCarrier_cases (c : Conn) (missing : String) :
    (∃ err, c.onEveryCarrier missing = some err ∧ notCarried err = false ∧
        ∃ n ∈ c.nodes, settled n.answer = false) ∨
      (c.onEveryCarrier missing = none ∧ (∃ n ∈ c.nodes, n.answer = none) ∧
        ∀ n ∈ c.nodes, settled n.answer = true) ∨
      (c.onEveryCarrier missing = some (.notCarried missing) ∧
        (∀ n ∈ c.nodes, n.answer ≠ none) ∧ ∀ n ∈ c.nodes, settled n.answer = true) := by
  rw [Conn.onEveryCarrier]
  generalize hfailure : firstFailure (c.nodes.map fun n => (n.address, n.answer)) = failure
  rcases failure with _ | err
  · have hsettled : ∀ n ∈ c.nodes, settled n.answer = true := fun n hn =>
      firstFailure_eq_none.mp hfailure _ (List.mem_map_of_mem hn)
    dsimp only
    split
    case isTrue hany =>
      obtain ⟨n, hn, hnone⟩ := List.any_eq_true.mp hany
      exact .inr (.inl ⟨rfl, ⟨n, hn, Option.isNone_iff_eq_none.mp hnone⟩, hsettled⟩)
    case isFalse hany =>
      refine .inr (.inr ⟨rfl, fun n hn hnone => hany ?_, hsettled⟩)
      exact List.any_eq_true.mpr ⟨n, hn, by rw [hnone]; rfl⟩
  · refine .inl ⟨err, rfl, notCarried_of_firstFailure hfailure, ?_⟩
    by_contra hall
    have hsettled : ∀ a ∈ c.nodes.map fun n => (n.address, n.answer), settled a.2 = true := by
      intro a ha
      obtain ⟨n, hn, rfl⟩ := List.mem_map.mp ha
      exact Bool.of_not_eq_false fun hfailed => hall ⟨n, hn, hfailed⟩
    rw [firstFailure_eq_none.mpr hsettled] at hfailure
    nomatch hfailure

/-! ### Removals -/

/-- What the error of a removal says, and whom it asked. -/
structure Sound (c : Conn) (accepted : Prop) (path : String) (query : List (String × String))
    (r : Removal) : Prop where
  /-- Without an error the object was somewhere, is nowhere, and every lookupd has forgotten it. -/
  removed : r.err = none → (∃ n ∈ c.nodes, n.before = true) ∧ (∀ n ∈ c.nodes, n.after = false) ∧
    ∀ l ∈ c.lookupd, ⟨l.address, path, query⟩ ∈ r.lookupd ∧ settled l.answer = true
  /-- After a failure of an nsqd no lookupd is asked. -/
  failed : (∃ n ∈ c.nodes, settled n.answer = false) → r.lookupd = [] ∧ r.err ≠ none
  /-- What no nsqd carried is swept all the same. -/
  swept : accepted → (∀ n ∈ c.nodes, n.answer.any notFound = true) →
    r.lookupd = c.lookupd.map fun l => ⟨l.address, path, query⟩
  /-- A call that is refused asks nobody. -/
  refused : ¬accepted → r.nodes = [] ∧ r.lookupd = [] ∧ r.err ≠ none

theorem sound_refused {c : Conn} {accepted : Prop} {path : String}
    {query : List (String × String)} {err : RemoveError} (h : ¬accepted) :
    Sound c accepted path query ⟨[], [], some err⟩ where
  removed := nofun
  failed _ := ⟨rfl, nofun⟩
  swept haccepted := absurd haccepted h
  refused _ := ⟨rfl, rfl, nofun⟩

theorem forgetAtLookupd_eq_none {c : Conn} :
    c.forgetAtLookupd = none ↔ ∀ l ∈ c.lookupd, settled l.answer = true := by
  rw [Conn.forgetAtLookupd, firstFailure_eq_none]
  exact ⟨fun h l hl => h _ (List.mem_map_of_mem hl), fun h a ha => by
    obtain ⟨l, hl, rfl⟩ := List.mem_map.mp ha
    exact h l hl⟩

theorem sound_remove (c : Conn) {accepted : Prop} (path : String)
    (query : List (String × String)) (missing : String) (h : accepted) :
    Sound c accepted path query (c.remove path query missing) := by
  rw [Conn.remove]
  rcases onEveryCarrier_cases c missing with
    ⟨err, herr, hcarried, n, hn, hfailed⟩ | ⟨hnone, ⟨n, hn, hanswer⟩, hall⟩ | ⟨hmissing, _, hall⟩
  · -- an nsqd failed
    rw [herr, if_pos (by rw [Option.any_some, hcarried]; rfl)]
    refine ⟨nofun, fun _ => ⟨rfl, nofun⟩, fun _ hmissing => ?_, absurd h⟩
    rw [settled_of_any (hmissing n hn)] at hfailed
    nomatch hfailed
  · -- at least one nsqd had it
    rw [hnone, if_neg (by simp)]
    refine ⟨fun hdone => ?_, fun ⟨n, hn, hfailed⟩ => ?_, fun _ _ => rfl, absurd h⟩
    · have hforgot : c.forgetAtLookupd = none := by
        rcases hforget : c.forgetAtLookupd with _ | err
        · rfl
        · rw [hforget] at hdone
          nomatch hdone
      refine ⟨⟨n, hn, (n.deleted hanswer).1⟩, fun n hn => n.after_of_settled (hall n hn),
        fun l hl => ⟨List.mem_map_of_mem hl, forgetAtLookupd_eq_none.mp hforgot l hl⟩⟩
    · rw [hall n hn] at hfailed
      nomatch hfailed
  · -- no nsqd had it
    rw [hmissing, if_neg (by simp [notCarried])]
    refine ⟨fun hdone => ?_, fun ⟨n, hn, hfailed⟩ => ?_, fun _ _ => rfl, absurd h⟩
    · rcases hforget : c.forgetAtLookupd with _ | err
      · rw [hforget] at hdone
        nomatch hdone
      · rw [hforget] at hdone
        nomatch hdone
    · rw [hall n hn] at hfailed
      nomatch hfailed

/-- **What the error of a removal says**: for topics and for channels, whatever the daemons of both
tiers answer, in whatever order. -/
theorem removal_sound (c : Conn) (ref : Ref) :
    Sound c (c.live = true ∧ ref.name ≠ "") "/topic/delete" [("topic", ref.name)]
        (c.removeDestination ref) ∧
      Sound c (c.live = true ∧ ref.nameSpace ≠ "" ∧ ref.name ≠ "") "/channel/delete"
        [("topic", ref.nameSpace), ("channel", ref.name)] (c.removeSubscription ref) := by
  constructor
  · rw [Conn.removeDestination]
    split
    case isTrue hlive => exact sound_refused fun h => by simp [h.1] at hlive
    case isFalse hlive =>
      split
      case isTrue hname => exact sound_refused fun h => h.2 hname
      case isFalse hname => exact sound_remove c _ _ _ ⟨by simpa using hlive, hname⟩
  · rw [Conn.removeSubscription]
    split
    case isTrue hlive => exact sound_refused fun h => by simp [h.1] at hlive
    case isFalse hlive =>
      split
      case isTrue hname => exact sound_refused fun h => hname.elim h.2.1 h.2.2
      case isFalse hname =>
        obtain ⟨hspace, hname⟩ := not_or.mp hname
        exact sound_remove c _ _ _ ⟨by simpa using hlive, hspace, hname⟩

end MqStudio.Nsq
