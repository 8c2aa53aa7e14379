import MqStudio.Mqtt.Stream
import MqStudio.Mqtt.TopicFilter
import MqStudio.Lib.Maps
import MqStudio.Lib.Traverse

/-!
# Starting and stopping live subscriptions

`StartLiveSubscription` and `StopLiveSubscription` on one connection, any number
of calls at once.  A section under the connection's lock is one step, and so is
a call to the broker; the broker holds a set of filters, each with the quality
of service it was last subscribed with.

* `World.step`: one step of one call.
* `Agrees`: every filter a call is not yet subscribing is on the broker while a
  stream has it, and every filter on the broker is some stream's, or a call will
  take it off.
* `held_of_uncrossed`: where no subscription crosses an unsubscription of the
  same filter, the broker holds the streams' filters once the calls are over.
-/

namespace MqStudio.Mqtt

open Std (ExtTreeMap)
open Lib.Maps
open Lib.Transition

/-! ### Requests -/

def defaultStreamBuffer : Nat := 500

def maxStreamBuffer : Int := 20000

/-- How many subscriptions one connection can hold. -/
def maxStreams : Nat := 32

/-- What the broker is asked for: a pattern and the quality of service. -/
structure SubscribeFilter where
  pattern : String
  qos : Nat
deriving DecidableEq

structure LiveSubscriptionSpec where
  filters : List LiveFilter
  buffer : Int

/-- Why a call is refused or fails. -/
inductive LiveError where
  | noFilter
  | notAFilter (pattern : String)
  | sharedNeedsV5
  | badQoS (raw : String)
  | bufferTooLarge
  | tooManyStreams
  | noStream (id : String)
  | broker (text : String)
deriving DecidableEq

/-- `strconv.Atoi`. -/
def atoi (raw : String) : Option Int :=
  let (negative, digits) := match raw.toList with
    | '-' :: cs => (true, cs)
    | '+' :: cs => (false, cs)
    | cs => (false, cs)
  if digits.isEmpty || !digits.all Char.isDigit then none
  else
    let n : Int := digits.foldl (fun n c => n * 10 + (c.toNat - '0'.toNat : Nat)) 0
    let value := if negative then -n else n
    if -2 ^ 63 ≤ value ∧ value < 2 ^ 63 then some value else none

def attrQoS : String := "qos"

/-- The per-filter quality of service. -/
def filterQoS (filter : LiveFilter) : Except LiveError Nat :=
  match filter.options[attrQoS]? with
  | none => .ok 0
  | some raw =>
    if raw = "" then .ok 0
    else
      match atoi raw with
      | none => .error (.badQoS raw)
      | some qos => if qos < 0 ∨ 2 < qos then .error (.badQoS raw) else .ok qos.toNat

/-- One filter as the broker is asked for it. -/
def subscribeFilter (protocolV5 : Bool) (filter : LiveFilter) : Except LiveError SubscribeFilter :=
  if !validFilter filter.pattern then .error (.notAFilter filter.pattern)
  else if (splitShared filter.pattern).1 ≠ "" ∧ !protocolV5 then .error .sharedNeedsV5
  else (filterQoS filter).map fun qos => ⟨filter.pattern, qos⟩

/-- What a call that passed its checks goes on with. -/
structure Request where
  filters : List LiveFilter
  subscriptions : List SubscribeFilter
  buffer : Nat
  positive : 0 < buffer
  patterns : subscriptions.map (·.pattern) = filters.map (·.pattern)

theorem subscribeFilter_pattern {protocolV5 : Bool} {filter : LiveFilter}
    {subscription : SubscribeFilter} (h : subscribeFilter protocolV5 filter = .ok subscription) :
    subscription.pattern = filter.pattern := by
  unfold subscribeFilter at h
  split at h
  · cases h
  · split at h
    · cases h
    · cases hq : filterQoS filter with
      | error err =>
        rw [hq] at h
        cases h
      | ok qos =>
        rw [hq] at h
        obtain rfl := Except.ok.inj h
        rfl

theorem mapM_subscribeFilter {protocolV5 : Bool} {filters : List LiveFilter}
    {subscriptions : List SubscribeFilter}
    (h : filters.mapM (subscribeFilter protocolV5) = .ok subscriptions) :
    subscriptions.map (·.pattern) = filters.map (·.pattern) := by
  have hall := Lib.Traverse.mapM_eq_ok.mp h
  clear h
  induction hall with
  | nil => rfl
  | cons hf _ ih => rw [List.map_cons, List.map_cons, ih, subscribeFilter_pattern hf]

/-- The checks of `StartLiveSubscription`, before it takes the lock. -/
def requestOf (protocolV5 : Bool) (spec : LiveSubscriptionSpec) : Except LiveError Request :=
  if spec.filters = [] then .error .noFilter
  else
    match h : spec.filters.mapM (subscribeFilter protocolV5) with
    | .error err => .error err
    | .ok subscriptions =>
      if hb : spec.buffer ≤ 0 then
        .ok ⟨spec.filters, subscriptions, defaultStreamBuffer, by decide, mapM_subscribeFilter h⟩
      else if maxStreamBuffer < spec.buffer then .error .bufferTooLarge
      else
        .ok ⟨spec.filters, subscriptions, spec.buffer.toNat, by omega, mapM_subscribeFilter h⟩

/-! ### Calls -/

/-- Where a call is. -/
inductive Call where
  | idle
  | registering (request : Request)
  | subscribing (id : String) (request : Request)
  /-- The broker refused; the stream is still registered. -/
  | abandoning (id : String) (err : LiveError)
  | stopping (id : String)
  /-- The filters no other stream wants so far, and those still to look at. -/
  | checking (patterns : List String) (rest : List LiveFilter)
  | unsubscribing (patterns : List String)
  | returned (err : Option LiveError)

/-- One connection, the filters its session holds on the broker, and the calls on it. -/
structure World where
  protocolV5 : Bool
  streams : ExtTreeMap String Stream compare
  broker : ExtTreeMap String Nat compare
  calls : Nat → Call

/-- Nothing streams, and nobody asked for anything. -/
def World.new (protocolV5 : Bool) : World := ⟨protocolV5, ∅, ∅, fun _ => .idle⟩

def World.setCall (w : World) (tid : Nat) (call : Call) : World :=
  { w with calls := Function.update w.calls tid call }

/-- Whether a stream still wants a pattern. -/
def filterInUse (streams : ExtTreeMap String Stream compare) (pattern : String) : Bool :=
  (streams.toList.map (·.2)).any fun live => live.filters.any fun filter => filter.pattern = pattern

/-- The broker after a `Subscribe` that it accepts. -/
def subscribed (broker : ExtTreeMap String Nat compare) (subscriptions : List SubscribeFilter) :
    ExtTreeMap String Nat compare :=
  subscriptions.foldl (fun broker s => broker.insert s.pattern s.qos) broker

/-- The broker after an `Unsubscribe` that it accepts. -/
def unsubscribed (broker : ExtTreeMap String Nat compare) (patterns : List String) :
    ExtTreeMap String Nat compare :=
  patterns.foldl (·.erase ·) broker

inductive Label where
  | start (tid : Nat) (spec : LiveSubscriptionSpec)
  /-- The section that registers a stream, under an id nobody has. -/
  | register (tid : Nat) (id startedAt : String)
  | subscribe (tid : Nat) (err : Option LiveError)
  | abandon (tid : Nat)
  | stop (tid : Nat) (id : String)
  | remove (tid : Nat)
  /-- One call of `filterInUse`, or the end of its loop. -/
  | check (tid : Nat)
  | unsubscribe (tid : Nat) (err : Option LiveError)

def Call.isIdle : Call → Bool
  | .idle => true
  | _ => false

/-- The call has not started, or it is over. -/
def Call.isQuiet : Call → Bool
  | .idle | .returned _ => true
  | _ => false

def World.register (w : World) (tid : Nat) (request : Request) (id startedAt : String) :
    Option World :=
  if maxStreams ≤ w.streams.size then some (w.setCall tid (.returned (some .tooManyStreams)))
  else if id ∈ w.streams then none
  else
    let live := newStream id request.filters startedAt request.buffer request.positive
    some ({ w with streams := w.streams.insert id live }.setCall tid (.subscribing id request))

def World.remove (w : World) (tid : Nat) (id : String) : World :=
  match w.streams[id]? with
  | none => w.setCall tid (.returned (some (.noStream id)))
  | some live =>
    { w with streams := w.streams.erase id }.setCall tid (.checking [] live.filters)

def World.check (w : World) (tid : Nat) (patterns : List String) : List LiveFilter → World
  | [] =>
    w.setCall tid (if patterns = [] then .returned none else .unsubscribing patterns)
  | filter :: rest =>
    w.setCall tid (if filterInUse w.streams filter.pattern then .checking patterns rest
      else .checking (patterns ++ [filter.pattern]) rest)

def World.step (w : World) : Label → Option World
  | .start tid spec =>
    if (w.calls tid).isIdle then
      match requestOf w.protocolV5 spec with
      | .error err => some (w.setCall tid (.returned (some err)))
      | .ok request => some (w.setCall tid (.registering request))
    else none
  | .register tid id startedAt =>
    match w.calls tid with
    | .registering request => w.register tid request id startedAt
    | _ => none
  | .subscribe tid err =>
    match w.calls tid, err with
    | .subscribing id _, some err => some (w.setCall tid (.abandoning id err))
    | .subscribing _ request, none =>
      some ({ w with broker := subscribed w.broker request.subscriptions }.setCall tid
        (.returned none))
    | _, _ => none
  | .abandon tid =>
    match w.calls tid with
    | .abandoning id err =>
      some ({ w with streams := w.streams.erase id }.setCall tid (.returned (some err)))
    | _ => none
  | .stop tid id => if (w.calls tid).isIdle then some (w.setCall tid (.stopping id)) else none
  | .remove tid =>
    match w.calls tid with
    | .stopping id => some (w.remove tid id)
    | _ => none
  | .check tid =>
    match w.calls tid with
    | .checking patterns rest => some (w.check tid patterns rest)
    | _ => none
  | .unsubscribe tid err =>
    match w.calls tid, err with
    | .unsubscribing _, some err => some (w.setCall tid (.returned (some err)))
    | .unsubscribing patterns, none =>
      some ({ w with broker := unsubscribed w.broker patterns }.setCall tid (.returned none))
    | _, _ => none

/-- The connection and its broker, from an empty session on. -/
def session : System World Label where
  Init w := ∃ protocolV5, w = World.new protocolV5
  Step w label v := w.step label = some v

/-! ### What is wanted and what is held -/

/-- A registered stream has the pattern among its filters. -/
def World.Wanted (w : World) (pattern : String) : Prop :=
  ∃ (id : String) (live : Stream), w.streams[id]? = some live ∧
    pattern ∈ live.filters.map (·.pattern)

/-- The call is still going to subscribe to the pattern. -/
def Call.WillSubscribe (pattern : String) : Call → Prop
  | .subscribing _ request => pattern ∈ request.filters.map (·.pattern)
  | _ => False

/-- The call is still going to look at the pattern, or to take it off the broker. -/
def Call.WillUnsubscribe (pattern : String) : Call → Prop
  | .checking patterns rest => pattern ∈ patterns ∨ pattern ∈ rest.map (·.pattern)
  | .unsubscribing patterns => pattern ∈ patterns
  | _ => False

/-- The call was refused by the broker. -/
def Call.Refused : Call → Prop
  | .abandoning _ _ => True
  | _ => False

/-- What the calls in progress have still to do makes up for every difference. -/
structure World.Agrees (w : World) : Prop where
  accepted : ∀ tid, ¬ (w.calls tid).Refused
  held : ∀ pattern, w.Wanted pattern →
    pattern ∈ w.broker ∨ ∃ tid, (w.calls tid).WillSubscribe pattern
  wanted : ∀ pattern ∈ w.broker,
    w.Wanted pattern ∨ ∃ tid, (w.calls tid).WillUnsubscribe pattern

/-- No call is in progress. -/
def World.Quiet (w : World) : Prop := ∀ tid, (w.calls tid).isQuiet = true

/-- The broker holds the filters of the streams, and no other. -/
def World.InStep (w : World) : Prop := ∀ pattern, pattern ∈ w.broker ↔ w.Wanted pattern

theorem Call.not_will_of_isQuiet {call : Call} (h : call.isQuiet = true) (pattern : String) :
    ¬ call.WillSubscribe pattern ∧ ¬ call.WillUnsubscribe pattern := by
  cases call <;> first | exact ⟨not_false, not_false⟩ | cases h

theorem World.Agrees.inStep {w : World} (h : w.Agrees) (hq : w.Quiet) : w.InStep := by
  intro pattern
  constructor
  · intro hb
    refine (h.wanted pattern hb).resolve_right ?_
    rintro ⟨tid, hu⟩
    exact (Call.not_will_of_isQuiet (hq tid) pattern).2 hu
  · intro hw
    refine (h.held pattern hw).resolve_right ?_
    rintro ⟨tid, hs⟩
    exact (Call.not_will_of_isQuiet (hq tid) pattern).1 hs

theorem filterInUse_iff {w : World} {pattern : String} :
    filterInUse w.streams pattern = true ↔ w.Wanted pattern := by
  simp only [filterInUse, List.any_eq_true, decide_eq_true_eq]
  constructor
  · rintro ⟨live, hlive, filter, hf, hp⟩
    obtain ⟨id, hid⟩ := mem_values.mp hlive
    exact ⟨id, live, hid, List.mem_map.mpr ⟨filter, hf, hp⟩⟩
  · rintro ⟨id, live, hid, hp⟩
    obtain ⟨filter, hf, hp⟩ := List.mem_map.mp hp
    exact ⟨live, mem_values.mpr ⟨id, hid⟩, filter, hf, hp⟩

theorem mem_subscribed {subscriptions : List SubscribeFilter} {pattern : String}
    {broker : ExtTreeMap String Nat compare} :
    pattern ∈ subscribed broker subscriptions ↔
      pattern ∈ broker ∨ pattern ∈ subscriptions.map (·.pattern) := by
  unfold subscribed
  induction subscriptions generalizing broker with
  | nil => simp
  | cons s rest ih =>
    rw [List.foldl_cons, ih, ExtTreeMap.mem_insert, Std.compare_eq_iff_eq, List.map_cons,
      List.mem_cons, eq_comm]
    tauto

theorem mem_unsubscribed {patterns : List String} {pattern : String}
    {broker : ExtTreeMap String Nat compare} :
    pattern ∈ unsubscribed broker patterns ↔ pattern ∈ broker ∧ pattern ∉ patterns := by
  unfold unsubscribed
  induction patterns generalizing broker with
  | nil => simp
  | cons p rest ih =>
    rw [List.foldl_cons, ih, ExtTreeMap.mem_erase, List.mem_cons, ne_eq, Std.compare_eq_iff_eq,
      eq_comm]
    tauto

/-! ### Steps -/

/-- The broker accepts what it is asked for. -/
def Accepts (_ : World) : Label → Prop
  | .subscribe _ err | .unsubscribe _ err => err = none
  | _ => True

instance (w : World) (label : Label) : Decidable (Accepts w label) := by
  cases label <;> unfold Accepts <;> infer_instance

/-- No subscription crosses an unsubscription of the same filter: a filter that is taken off the
broker is no stream's, or its subscription is still to come, and a filter that is subscribed to is
a stream's, or a call will still look at it. -/
def Uncrossed (w : World) : Label → Prop
  | .subscribe tid _ => ∀ pattern, (w.calls tid).WillSubscribe pattern →
      w.Wanted pattern ∨ ∃ other, (w.calls other).WillUnsubscribe pattern
  | .unsubscribe tid _ => ∀ pattern, (w.calls tid).WillUnsubscribe pattern →
      w.Wanted pattern → ∃ other, (w.calls other).WillSubscribe pattern
  | _ => True

variable {w v : World} {tid : Nat} {call : Call}

theorem World.setCall_self (w : World) (tid : Nat) (call : Call) :
    (w.setCall tid call).calls tid = call := Function.update_self ..

theorem World.setCall_of_ne (w : World) {tid other : Nat} (call : Call) (h : other ≠ tid) :
    (w.setCall tid call).calls other = w.calls other := Function.update_of_ne h ..

/-- A call goes on, with what it has still to do made up for. -/
theorem World.Agrees.keep (h : w.Agrees) (hc : v.calls = Function.update w.calls tid call)
    (hr : ¬ call.Refused)
    (hheld : ∀ pattern, v.Wanted pattern →
      (w.Wanted pattern ∧ ((w.calls tid).WillSubscribe pattern →
        pattern ∈ v.broker ∨ call.WillSubscribe pattern) ∧
        (pattern ∈ w.broker → pattern ∈ v.broker ∨ ∃ i, (v.calls i).WillSubscribe pattern)) ∨
      call.WillSubscribe pattern)
    (hwanted : ∀ pattern ∈ v.broker,
      (pattern ∈ w.broker ∧ ((w.calls tid).WillUnsubscribe pattern →
        v.Wanted pattern ∨ call.WillUnsubscribe pattern) ∧
        (w.Wanted pattern → v.Wanted pattern ∨ ∃ i, (v.calls i).WillUnsubscribe pattern)) ∨
      v.Wanted pattern ∨ ∃ i, (v.calls i).WillUnsubscribe pattern) : v.Agrees := by
  have hself : v.calls tid = call := by rw [hc, Function.update_self]
  have hother : ∀ i, i ≠ tid → v.calls i = w.calls i := fun i hi => by
    rw [hc, Function.update_of_ne hi]
  refine ⟨fun i => ?_, ?_, ?_⟩
  · by_cases hit : i = tid
    · rwa [hit, hself]
    · rw [hother i hit]
      exact h.accepted i
  · intro pattern hw
    rcases hheld pattern hw with ⟨hw, hwill, hkeep⟩ | hwill
    · rcases h.held pattern hw with hb | ⟨i, hi⟩
      · exact hkeep hb
      · by_cases hit : i = tid
        · subst hit
          exact (hwill hi).imp_right fun hx => ⟨i, hself ▸ hx⟩
        · exact Or.inr ⟨i, hother i hit ▸ hi⟩
    · exact Or.inr ⟨tid, hself ▸ hwill⟩
  · intro pattern hb
    rcases hwanted pattern hb with ⟨hb, hwill, hkeep⟩ | hdone
    · rcases h.wanted pattern hb with hw | ⟨i, hi⟩
      · exact hkeep hw
      · by_cases hit : i = tid
        · subst hit
          exact (hwill hi).imp_right fun hx => ⟨i, hself ▸ hx⟩
        · exact Or.inr ⟨i, hother i hit ▸ hi⟩
    · exact hdone

/-- A call goes on that had nothing to do on the broker, where nothing else changes. -/
theorem World.Agrees.stay (h : w.Agrees) (hr : ¬ call.Refused)
    (hs : ∀ pattern, (w.calls tid).WillSubscribe pattern → call.WillSubscribe pattern)
    (hu : ∀ pattern, (w.calls tid).WillUnsubscribe pattern →
      w.Wanted pattern ∨ call.WillUnsubscribe pattern) : (w.setCall tid call).Agrees :=
  h.keep rfl hr (fun pattern hw => Or.inl ⟨hw, fun hx => Or.inr (hs pattern hx), Or.inl⟩)
    fun pattern hb => Or.inl ⟨hb, hu pattern, Or.inl⟩

theorem agrees_register (h : w.Agrees) {request : Request} {id startedAt : String}
    (hcall : w.calls tid = .registering request)
    (hs : w.register tid request id startedAt = some v) : v.Agrees := by
  unfold World.register at hs
  split at hs
  · obtain rfl := Option.some.inj hs
    exact h.stay not_false (by rw [hcall]; exact fun _ => False.elim) (by rw [hcall]; exact fun _ => False.elim)
  · split at hs
    · cases hs
    · rename_i hfresh
      obtain rfl := Option.some.inj hs
      have hnone : w.streams[id]? = none := ExtTreeMap.getElem?_eq_none hfresh
      refine h.keep rfl not_false (fun pattern hw => ?_) fun pattern hb => ?_
      · obtain ⟨i, live, hi, hp⟩ := hw
        change (w.streams.insert id _)[i]? = _ at hi
        rw [getElem?_insert] at hi
        split at hi
        · obtain rfl := Option.some.inj hi
          exact Or.inr hp
        · refine Or.inl ⟨⟨i, live, hi, hp⟩, ?_, Or.inl⟩
          rw [hcall]
          exact False.elim
      · refine Or.inl ⟨hb, by rw [hcall]; exact False.elim, ?_⟩
        rintro ⟨i, live, hi, hp⟩
        refine Or.inl ⟨i, live, ?_, hp⟩
        change (w.streams.insert id _)[i]? = _
        rw [getElem?_insert, if_neg]
        · exact hi
        · rintro rfl
          cases hnone.symm.trans hi

theorem agrees_subscribe (h : w.Agrees) {id : String} {request : Request}
    (hcall : w.calls tid = .subscribing id request)
    (hg : ∀ pattern, (w.calls tid).WillSubscribe pattern →
      w.Wanted pattern ∨ ∃ other, (w.calls other).WillUnsubscribe pattern) :
    ({ w with broker := subscribed w.broker request.subscriptions }.setCall tid
      (.returned none)).Agrees := by
  have hmem : ∀ pattern, pattern ∈ subscribed w.broker request.subscriptions ↔
      pattern ∈ w.broker ∨ (w.calls tid).WillSubscribe pattern := by
    intro pattern
    rw [mem_subscribed, request.patterns, hcall]
    rfl
  refine h.keep rfl not_false (fun pattern hw => ?_) fun pattern hb => ?_
  · exact Or.inl ⟨hw, fun hx => Or.inl ((hmem pattern).mpr (Or.inr hx)),
      fun hx => Or.inl ((hmem pattern).mpr (Or.inl hx))⟩
  · rcases (hmem pattern).mp hb with hb | hx
    · refine Or.inl ⟨hb, ?_, Or.inl⟩
      rw [hcall]
      exact False.elim
    · refine Or.inr ((hg pattern hx).imp_right ?_)
      rintro ⟨other, ho⟩
      have hne : other ≠ tid := by
        rintro rfl
        rw [hcall] at ho
        exact ho
      exact ⟨other, by rwa [World.setCall_of_ne _ _ hne]⟩

theorem agrees_remove (h : w.Agrees) {id : String} (hcall : w.calls tid = .stopping id) :
    (w.remove tid id).Agrees := by
  have hidle : ∀ pattern, ¬ (w.calls tid).WillSubscribe pattern ∧
      ¬ (w.calls tid).WillUnsubscribe pattern := by
    intro pattern
    rw [hcall]
    exact ⟨not_false, not_false⟩
  unfold World.remove
  split
  · exact h.stay not_false (fun pattern hx => absurd hx (hidle pattern).1)
      fun pattern hx => absurd hx (hidle pattern).2
  · rename_i live hlive
    refine h.keep rfl not_false (fun pattern hw => ?_) fun pattern hb => ?_
    · obtain ⟨i, other, hi, hp⟩ := hw
      change (w.streams.erase id)[i]? = _ at hi
      rw [getElem?_erase] at hi
      split at hi
      · cases hi
      · exact Or.inl ⟨⟨i, other, hi, hp⟩, fun hx => absurd hx (hidle pattern).1, Or.inl⟩
    · refine Or.inl ⟨hb, fun hx => absurd hx (hidle pattern).2, ?_⟩
      rintro ⟨i, other, hi, hp⟩
      by_cases hid : id = i
      · -- The filters of the stream that is gone are looked at next.
        subst hid
        obtain rfl := Option.some.inj (hlive.symm.trans hi)
        exact Or.inr ⟨tid, by rw [World.setCall_self]; exact Or.inr hp⟩
      · refine Or.inl ⟨i, other, ?_, hp⟩
        change (w.streams.erase id)[i]? = _
        rw [getElem?_erase, if_neg hid]
        exact hi

theorem agrees_check (h : w.Agrees) {patterns : List String} {rest : List LiveFilter}
    (hcall : w.calls tid = .checking patterns rest) : (w.check tid patterns rest).Agrees := by
  cases rest with
  | nil =>
    refine h.stay (by split <;> exact not_false) (by rw [hcall]; exact fun _ => False.elim) fun pattern hx => ?_
    rw [hcall] at hx
    rcases hx with hx | hx
    · rw [if_neg (List.ne_nil_of_mem hx)]
      exact Or.inr hx
    · simp at hx
  | cons filter rest =>
    refine h.stay (by split <;> exact not_false) (by rw [hcall]; exact fun _ => False.elim) fun pattern hx => ?_
    rw [hcall] at hx
    split
    · rename_i huse
      rcases hx with hx | hx
      · exact Or.inr (Or.inl hx)
      · rcases List.mem_cons.mp hx with rfl | hx
        · exact Or.inl (filterInUse_iff.mp huse)
        · exact Or.inr (Or.inr hx)
    · right
      rcases hx with hx | hx
      · exact Or.inl (List.mem_append_left _ hx)
      · rcases List.mem_cons.mp hx with rfl | hx
        · exact Or.inl (by simp)
        · exact Or.inr hx

theorem agrees_unsubscribe (h : w.Agrees) {patterns : List String}
    (hcall : w.calls tid = .unsubscribing patterns)
    (hg : ∀ pattern, (w.calls tid).WillUnsubscribe pattern →
      w.Wanted pattern → ∃ other, (w.calls other).WillSubscribe pattern) :
    ({ w with broker := unsubscribed w.broker patterns }.setCall tid (.returned none)).Agrees := by
  refine h.keep rfl not_false (fun pattern hw => Or.inl ⟨hw, ?_, fun hb => ?_⟩) fun pattern hb => ?_
  · rw [hcall]
    exact False.elim
  · by_cases hp : pattern ∈ patterns
    · obtain ⟨other, ho⟩ := hg pattern (by rw [hcall]; exact hp) hw
      have hne : other ≠ tid := by
        rintro rfl
        rw [hcall] at ho
        exact ho
      exact Or.inr ⟨other, by rwa [World.setCall_of_ne _ _ hne]⟩
    · exact Or.inl (mem_unsubscribed.mpr ⟨hb, hp⟩)
  · obtain ⟨hb, hp⟩ := mem_unsubscribed.mp hb
    refine Or.inl ⟨hb, fun hx => ?_, Or.inl⟩
    rw [hcall] at hx
    exact absurd hx hp

/-- **What is still to do makes up for every difference**, where the broker accepts what it is asked
for and no subscription crosses an unsubscription. -/
theorem agrees_step (h : w.Agrees) {label : Label} (hs : w.step label = some v)
    (ha : Accepts w label) (hg : Uncrossed w label) : v.Agrees := by
  cases label with
  | start tid spec =>
    simp only [World.step] at hs
    split at hs
    · rename_i hidle
      have hcall : w.calls tid = .idle := by
        cases hc : w.calls tid <;> rw [hc] at hidle <;> first | rfl | cases hidle
      split at hs <;>
      · obtain rfl := Option.some.inj hs
        exact h.stay not_false (by rw [hcall]; exact fun _ => False.elim)
          (by rw [hcall]; exact fun _ => False.elim)
    · cases hs
  | register tid id startedAt =>
    simp only [World.step] at hs
    split at hs
    · rename_i hcall
      exact agrees_register h hcall hs
    · cases hs
  | subscribe tid err =>
    obtain rfl : err = none := ha
    simp only [World.step] at hs
    split at hs
    · rename_i he
      cases he
    · rename_i id request hcall _
      obtain rfl := Option.some.inj hs
      exact agrees_subscribe h hcall hg
    · cases hs
  | abandon tid =>
    simp only [World.step] at hs
    split at hs
    · rename_i hcall
      exact absurd (by rw [hcall]; trivial) (h.accepted tid)
    · cases hs
  | stop tid id =>
    simp only [World.step] at hs
    split at hs
    · rename_i hidle
      obtain rfl := Option.some.inj hs
      have hcall : w.calls tid = .idle := by
        cases hc : w.calls tid <;> rw [hc] at hidle <;> first | rfl | cases hidle
      exact h.stay not_false (by rw [hcall]; exact fun _ => False.elim)
        (by rw [hcall]; exact fun _ => False.elim)
    · cases hs
  | remove tid =>
    simp only [World.step] at hs
    split at hs
    · rename_i hcall
      obtain rfl := Option.some.inj hs
      exact agrees_remove h hcall
    · cases hs
  | check tid =>
    simp only [World.step] at hs
    split at hs
    · rename_i hcall
      obtain rfl := Option.some.inj hs
      exact agrees_check h hcall
    · cases hs
  | unsubscribe tid err =>
    obtain rfl : err = none := ha
    simp only [World.step] at hs
    split at hs
    · rename_i he
      cases he
    · rename_i patterns hcall _
      obtain rfl := Option.some.inj hs
      exact agrees_unsubscribe h hcall hg
    · cases hs

theorem agrees_new (protocolV5 : Bool) : (World.new protocolV5).Agrees := by
  refine ⟨fun _ => not_false, fun pattern hw => ?_, fun pattern hb => ?_⟩
  · obtain ⟨id, live, hi, -⟩ := hw
    simp [World.new] at hi
  · simp [World.new] at hb

/-! ### Runs -/

/-- **The broker holds what the streams want** once no call is in progress, in every run in which the
broker accepts what it is asked for and no subscription crosses an unsubscription. -/
theorem held_of_uncrossed
    (h : Reachable (session.guard fun w label => Accepts w label ∧ Uncrossed w label) w)
    (hq : w.Quiet) : w.InStep := by
  have hagrees : w.Agrees := by
    refine Reachable.inv (P := World.Agrees) ?_ (fun _ _ _ ha hs => ?_) h
    · rintro _ ⟨protocolV5, rfl⟩
      exact agrees_new protocolV5
    · exact agrees_step ha hs.1 hs.2.1 hs.2.2
  exact hagrees.inStep hq

/-! ### A stop that crosses a start -/

def Label.caller : Label → Nat
  | .start tid _ | .register tid _ _ | .subscribe tid _ | .abandon tid | .stop tid _ | .remove tid
  | .check tid | .unsubscribe tid _ => tid

/-- A step is of one call. -/
theorem step_calls_of_ne {label : Label} (h : w.step label = some v) {i : Nat}
    (hi : i ≠ label.caller) : v.calls i = w.calls i := by
  have hset : ∀ (u : World) (call : Call), (u.setCall label.caller call).calls i = u.calls i :=
    fun u call => u.setCall_of_ne call hi
  cases label with
  | start | stop | subscribe | abandon | unsubscribe =>
    simp only [World.step] at h
    repeat' split at h
    all_goals first | (obtain rfl := Option.some.inj h; exact hset _ _) | cases h
  | register tid id startedAt =>
    simp only [World.step, World.register] at h
    repeat' split at h
    all_goals first | (obtain rfl := Option.some.inj h; exact hset _ _) | cases h
  | remove tid =>
    simp only [World.step, World.remove] at h
    repeat' split at h
    all_goals first | (obtain rfl := Option.some.inj h; exact hset _ _) | cases h
  | check tid =>
    simp only [World.step] at h
    split at h
    · rename_i patterns rest _
      obtain rfl := Option.some.inj h
      cases rest <;> exact hset _ _
    · cases h

/-- A run of the first few calls is over where these are. -/
theorem quiet_of_run {labels : List Label} (n : Nat) : ∀ {w : World},
    runSteps World.step w labels = some v → (∀ label ∈ labels, label.caller < n) →
    (∀ i, n ≤ i → (w.calls i).isQuiet = true) → (∀ i < n, (v.calls i).isQuiet = true) →
    v.Quiet := by
  induction labels with
  | nil =>
    intro w h _ hw hv i
    obtain rfl := Option.some.inj h
    by_cases hi : i < n
    · exact hv i hi
    · exact hw i (Nat.le_of_not_lt hi)
  | cons label labels ih =>
    intro w h hl hw hv
    obtain ⟨u, hu, hrest⟩ := Option.bind_eq_some_iff.mp h
    refine ih hrest (fun l hm => hl l (by simp [hm])) (fun i hi => ?_) hv
    have hlt := hl label (by simp)
    rw [step_calls_of_ne hu (by omega)]
    exact hw i hi

/-- A stream of one plain filter. -/
def alarms : LiveSubscriptionSpec := ⟨[⟨"alarms", ∅⟩], 0⟩

/-- A start, all of it. -/
def startBy (tid : Nat) (id : String) : List Label :=
  [.start tid alarms, .register tid id "", .subscribe tid none]

/-- A stop of the only stream of a filter finds it unused; before it takes it off the broker another
stream of the same filter starts. -/
def crossing : List Label :=
  startBy 0 "a" ++ [.stop 1 "a", .remove 1, .check 1, .check 1] ++ startBy 2 "b" ++
    [.unsubscribe 1 none]

/-- What is left after a run: whether three calls are over, the patterns of a stream, and whether
the broker holds the filter. -/
def outcome (id : String) (w : World) : Bool × List String × Bool :=
  ((List.range 3).all fun i => (w.calls i).isQuiet,
    (w.streams[id]?.map fun live => live.filters.map (·.pattern)).getD [],
    w.broker.contains "alarms")

theorem wanted_of_outcome (id : String) {pattern : String}
    (h : pattern ∈ (outcome id w).2.1) : w.Wanted pattern := by
  change pattern ∈ (w.streams[id]?.map fun live => live.filters.map (·.pattern)).getD [] at h
  cases hl : w.streams[id]? with
  | none => simp [hl] at h
  | some live =>
    rw [hl] at h
    exact ⟨id, live, hl, h⟩

/-- The filter of a stream that runs is taken off the broker. -/
theorem crossing_stop_silences_stream :
    ¬ ∀ w, Reachable (session.guard Accepts) w → w.Quiet → w.InStep := by
  intro hall
  have hrun : (runSteps World.step (World.new true) crossing).map (outcome "b") =
      some (true, ["alarms"], false) := by decide
  obtain ⟨w, hw, hout⟩ := Option.map_eq_some_iff.mp hrun
  have hpath := Path.of_runSteps (S := session) id hw
  have hguard := (hpath.guard (G := Accepts) (P := fun _ => True) trivial
    (fun _ _ _ _ _ _ => trivial) fun u label hm _ =>
      (by decide : ∀ label ∈ crossing, Accepts (World.new true) label) label hm).1
  have hquiet : w.Quiet := by
    refine quiet_of_run 3 hw (by decide) (fun _ _ => rfl) fun i hi => ?_
    have hall := congrArg Prod.fst hout
    exact List.all_eq_true.mp hall i (List.mem_range.mpr hi)
  have hin := hall w (hguard.reachable (.init ⟨true, rfl⟩)) hquiet "alarms"
  have hwanted : w.Wanted "alarms" := wanted_of_outcome "b" (by rw [hout]; decide)
  have hbroker : w.broker.contains "alarms" = false := congrArg (·.2.2) hout
  rw [ExtTreeMap.mem_iff_contains, hbroker] at hin
  exact absurd (hin.mpr hwanted) (by decide)

/-- What a call has still to subscribe to. -/
def Call.toSubscribe : Call → List String
  | .subscribing _ request => request.filters.map (·.pattern)
  | _ => []

theorem held_after_start : ∃ w, Reachable
    (session.guard fun w label => Accepts w label ∧ Uncrossed w label) w ∧ w.Quiet ∧
      w.broker.contains "alarms" = true ∧ w.InStep := by
  have hrun : (runSteps World.step (World.new true) [.start 0 alarms, .register 0 "a" ""]).bind
      (fun w => (w.step (.subscribe 0 none)).map fun v =>
        ((w.calls 0).toSubscribe, (outcome "a" w).2.1, outcome "a" v)) =
      some (["alarms"], ["alarms"], (true, ["alarms"], true)) := by decide
  obtain ⟨w, hw, h⟩ := Option.bind_eq_some_iff.mp hrun
  obtain ⟨v, hv, h⟩ := Option.map_eq_some_iff.mp h
  simp only [Prod.mk.injEq] at h
  obtain ⟨hcall, hstream, hout⟩ := h
  have hpath := ((Path.of_runSteps (S := session) id hw).guard
    (G := fun w label => Accepts w label ∧ Uncrossed w label) (P := fun _ => True) trivial
    (fun _ _ _ _ _ _ => trivial) fun u label hm _ => by
      simp only [List.mem_cons, List.not_mem_nil, or_false] at hm
      rcases hm with rfl | rfl <;> exact ⟨trivial, trivial⟩).1
  have hreach : Reachable (session.guard fun w label => Accepts w label ∧ Uncrossed w label) v := by
    refine (hpath.reachable (.init ⟨true, rfl⟩)).step ⟨hv, rfl, fun pattern hp => Or.inl ?_⟩
    have hmem : pattern ∈ (w.calls 0).toSubscribe := by
      cases hc : w.calls 0 <;> rw [hc] at hp <;> first | exact hp | exact absurd hp not_false
    exact wanted_of_outcome "a" (by rwa [hstream, ← hcall])
  have hquiet : v.Quiet := by
    have hstart : runSteps World.step (World.new true) (startBy 0 "a") = some v := by
      change runSteps World.step (World.new true)
        ([.start 0 alarms, .register 0 "a" ""] ++ [.subscribe 0 none]) = some v
      rw [runSteps_append, hw]
      exact Option.bind_eq_some_iff.mpr ⟨w, rfl, Option.bind_eq_some_iff.mpr ⟨v, hv, rfl⟩⟩
    refine quiet_of_run 3 hstart (by decide) (fun _ _ => rfl) fun i hi => ?_
    exact List.all_eq_true.mp (congrArg Prod.fst hout) i (List.mem_range.mpr hi)
  exact ⟨v, hreach, hquiet, congrArg (·.2.2) hout, held_of_uncrossed hreach hquiet⟩

end MqStudio.Mqtt
