import MqStudio.Lib.Maps
import MqStudio.Lib.Text
import MqStudio.Mqtt.Subscriptions

/-!
# Starting and stopping NATS subscriptions

`nats/subscribe.go`: `StartLiveSubscription` and `StopLiveSubscription` on one
connection, any number of calls at once.  A section under the connection's lock
is one step, and so is a call to the server.  A start looks at the limit in one
section and stores its stream in another, with the calls to the server between.

* `World.step`: one step of one call.
* `World.Bounded`: no more streams than the limit, and, once the calls are over,
  no subscription on the server but those of the streams.
* `bounded_of_clear`: that holds while each stream is stored below the limit, the
  pending limits are set, and what is unsubscribed is taken off the server.
-/

namespace MqStudio.Nats.Live

open Std (ExtTreeMap)
open Lib.Maps Lib.Text Lib.Transition
open Mqtt (LiveFilter LiveSubscriptionSpec)

/-! ### Requests -/

def defaultLiveBuffer : Int := 500

/-- Bounds what a caller may ask for. -/
def maxLiveBuffer : Int := 10000

/-- Bounds how many subscriptions one connection holds. -/
def maxLiveStreams : Nat := 32

/-- Names the queue group a filter subscribes under. -/
def LiveOptionQueueGroup : String := "queueGroup"

inductive LiveError where
  | noSubject
  | emptySubject
  | emptyToken (subject : String)
  | restNotLast (subject : String)
  | wildcardInToken (subject : String)
  | tooManyStreams
  | noStream (id : String)
  | server (text : String)
deriving DecidableEq

/-- The loop over the tokens of a subject. -/
def validateTokens (subject : String) : List (List Char) → Option LiveError
  | [] => none
  | token :: rest =>
    if token = [] then some (.emptyToken subject)
    else if token = ['>'] ∧ rest ≠ [] then some (.restNotLast subject)
    else if token ≠ ['*'] ∧ token ≠ ['>'] ∧ token.any (fun c => c = '*' || c = '>') then
      some (.wildcardInToken subject)
    else validateTokens subject rest

def validateSubject (subject : String) : Option LiveError :=
  if subject = "" then some .emptySubject
  else validateTokens subject (subject.toList.splitOnP (· = '.'))

/-- The checks of `StartLiveSubscription`, before it takes the lock. -/
def validateSpec (spec : LiveSubscriptionSpec) : Option LiveError :=
  if spec.filters = [] then some .noSubject
  else (spec.filters.map fun filter => validateSubject (trimSpace filter.pattern)).findSome? id

/-- How many messages a stream holds between polls. -/
def bufferOf (spec : LiveSubscriptionSpec) : Int :=
  let buffer := if spec.buffer ≤ 0 then defaultLiveBuffer else spec.buffer
  if maxLiveBuffer < buffer then maxLiveBuffer else buffer

/-- One running subscription, with the subscriptions it has on the server. -/
structure LiveStream where
  id : String
  filters : List LiveFilter
  started : String
  subscriptions : List Nat
  buffer : Int
  live : Bool

/-- What the server is asked for: a pattern and a queue group, which may be empty. -/
def request (filter : LiveFilter) : String × String :=
  (trimSpace filter.pattern, trimSpace ((filter.options[LiveOptionQueueGroup]?).getD ""))

/-! ### Calls -/

/-- Where a call is. -/
inductive Call where
  | idle
  /-- The request passed its checks, and the limit is looked at next. -/
  | checking (spec : LiveSubscriptionSpec)
  /-- The filters still to subscribe to.  Where there is none, the connection is flushed. -/
  | subscribing (stream : LiveStream) (rest : List LiveFilter)
  /-- A filter is subscribed to, and its pending limits are set next. -/
  | limiting (stream : LiveStream) (sid : Nat) (rest : List LiveFilter)
  | storing (stream : LiveStream)
  | stopping (id : String)
  /-- The subscriptions still to take off the server. -/
  | releasing (subscriptions : List Nat) (err : Option LiveError)
  | returned (err : Option LiveError)

/-- One connection, the subscriptions the server holds for it, and the calls on it.  Ids are unique
over all calls. -/
structure World where
  streams : ExtTreeMap String LiveStream compare
  server : ExtTreeMap Nat (String × String) compare
  nextSid : Nat
  issued : List String
  calls : Nat → Call

/-- Nothing streams, and nobody asked for anything. -/
def World.new : World := ⟨∅, ∅, 0, [], fun _ => .idle⟩

def World.setCall (w : World) (tid : Nat) (call : Call) : World :=
  { w with calls := Function.update w.calls tid call }

inductive Label where
  | start (tid : Nat) (spec : LiveSubscriptionSpec)
  /-- The section that looks at the limit, and the stream that is made after it. -/
  | check (tid : Nat) (id started : String)
  | subscribe (tid : Nat) (err : Option LiveError)
  | limit (tid : Nat) (err : Option LiveError)
  | flush (tid : Nat) (err : Option LiveError)
  | store (tid : Nat)
  | stop (tid : Nat) (id : String)
  | remove (tid : Nat)
  /-- One subscription is taken off the server, or that fails; or there is none left. -/
  | release (tid : Nat) (accepted : Bool)

def Call.isIdle : Call → Bool
  | .idle => true
  | _ => false

/-- The call has not started, or it is over. -/
def Call.isQuiet : Call → Bool
  | .idle | .returned _ => true
  | _ => false

/-- The limit is looked at, and a stream is made that has no subscription yet. -/
def World.check (w : World) (tid : Nat) (spec : LiveSubscriptionSpec) (id started : String) :
    Option World :=
  if maxLiveStreams ≤ w.streams.size then some (w.setCall tid (.returned (some .tooManyStreams)))
  else if id ∈ w.issued then none
  else
    let stream : LiveStream := ⟨id, spec.filters, started, [], bufferOf spec, true⟩
    some ({ w with issued := id :: w.issued }.setCall tid (.subscribing stream spec.filters))

def World.remove (w : World) (tid : Nat) (id : String) : World :=
  match w.streams[id]? with
  | none => w.setCall tid (.returned (some (.noStream id)))
  | some stream =>
    { w with streams := w.streams.erase id }.setCall tid (.releasing stream.subscriptions none)

def World.step (w : World) : Label → Option World
  | .start tid spec =>
    if (w.calls tid).isIdle then
      match validateSpec spec with
      | some err => some (w.setCall tid (.returned (some err)))
      | none => some (w.setCall tid (.checking spec))
    else none
  | .check tid id started =>
    match w.calls tid with
    | .checking spec => w.check tid spec id started
    | _ => none
  | .subscribe tid err =>
    match w.calls tid, err with
    | .subscribing stream (_ :: _), some err =>
      some (w.setCall tid (.releasing stream.subscriptions (some err)))
    | .subscribing stream (filter :: rest), none =>
      some ({ w with server := w.server.insert w.nextSid (request filter)
                     nextSid := w.nextSid + 1 }.setCall tid (.limiting stream w.nextSid rest))
    | _, _ => none
  | .limit tid err =>
    match w.calls tid, err with
    | .limiting stream _ _, some err =>
      some (w.setCall tid (.releasing stream.subscriptions (some err)))
    | .limiting stream sid rest, none =>
      some (w.setCall tid
        (.subscribing { stream with subscriptions := stream.subscriptions ++ [sid] } rest))
    | _, _ => none
  | .flush tid err =>
    match w.calls tid, err with
    | .subscribing stream [], some err =>
      some (w.setCall tid (.releasing stream.subscriptions (some err)))
    | .subscribing stream [], none => some (w.setCall tid (.storing stream))
    | _, _ => none
  | .store tid =>
    match w.calls tid with
    | .storing stream =>
      some ({ w with streams := w.streams.insert stream.id stream }.setCall tid (.returned none))
    | _ => none
  | .stop tid id => if (w.calls tid).isIdle then some (w.setCall tid (.stopping id)) else none
  | .remove tid =>
    match w.calls tid with
    | .stopping id => some (w.remove tid id)
    | _ => none
  | .release tid accepted =>
    match w.calls tid with
    | .releasing [] err => some (w.setCall tid (.returned err))
    | .releasing (sid :: rest) err =>
      some ({ w with server := if accepted then w.server.erase sid else w.server }.setCall tid
        (.releasing rest err))
    | _ => none

/-- A connection and its server, from nothing streaming on. -/
def session : System World Label where
  Init w := w = World.new
  Step w label v := w.step label = some v

/-! ### What is bounded -/

/-- No call is in progress. -/
def World.Quiet (w : World) : Prop := ∀ tid, (w.calls tid).isQuiet = true

/-- The subscription is that of a stream the connection holds. -/
def World.Streamed (w : World) (sid : Nat) : Prop :=
  ∃ (id : String) (stream : LiveStream), w.streams[id]? = some stream ∧ sid ∈ stream.subscriptions

structure World.Bounded (w : World) : Prop where
  /-- No more streams than the limit. -/
  limit : w.streams.size ≤ maxLiveStreams
  /-- With no call in progress, what the server holds is the streams'. -/
  owned : w.Quiet → ∀ sid ∈ w.server, w.Streamed sid

/-- A stream is stored below the limit, the pending limits of a subscription are set, and a
subscription that is let go of is taken off the server. -/
def Clear (w : World) : Label → Prop
  | .store _ => w.streams.size < maxLiveStreams
  | .limit _ err => err = none
  | .release _ accepted => accepted = true
  | _ => True

instance (w : World) (label : Label) : Decidable (Clear w label) := by
  cases label <;> unfold Clear <;> infer_instance

/-- The stream a call is making. -/
def Call.stream : Call → Option LiveStream
  | .subscribing stream _ | .limiting stream _ _ | .storing stream => some stream
  | _ => none

/-- The subscriptions a call has to store or to let go of. -/
def Call.subscriptions : Call → List Nat
  | .subscribing stream _ | .storing stream => stream.subscriptions
  | .limiting stream sid _ => stream.subscriptions ++ [sid]
  | .releasing subscriptions _ => subscriptions
  | _ => []

/-- Every subscription is a stream's or a call's, and no two streams, stored or made, have one id. -/
structure World.Sound (w : World) : Prop where
  limit : w.streams.size ≤ maxLiveStreams
  owned : ∀ sid ∈ w.server, w.Streamed sid ∨ ∃ tid, sid ∈ (w.calls tid).subscriptions
  stored : ∀ id ∈ w.streams, id ∈ w.issued
  made : ∀ tid stream, (w.calls tid).stream = some stream →
    stream.id ∈ w.issued ∧ stream.id ∉ w.streams
  distinct : ∀ tid other stream stream', (w.calls tid).stream = some stream →
    (w.calls other).stream = some stream' → stream.id = stream'.id → tid = other

theorem World.Sound.bounded {w : World} (h : w.Sound) : w.Bounded := by
  refine ⟨h.limit, fun hquiet sid hsid => (h.owned sid hsid).resolve_right ?_⟩
  rintro ⟨tid, hin⟩
  have := hquiet tid
  cases hc : w.calls tid <;> rw [hc] at this hin <;>
    first | exact absurd hin List.not_mem_nil | cases this

/-! ### Steps -/

variable {w v : World} {tid : Nat} {call : Call}

theorem sound_new : World.new.Sound where
  limit := by simp [World.new, maxLiveStreams]
  owned := by simp [World.new]
  stored := by simp [World.new]
  made := nofun
  distinct := nofun

/-- A call goes on with its stream, or gives it up, and keeps what it has on the server. -/
theorem World.Sound.goesOn (h : w.Sound) (hcalls : v.calls = Function.update w.calls tid call)
    (hstreams : v.streams = w.streams) (hissued : v.issued = w.issued)
    (hserver : ∀ sid ∈ v.server, sid ∈ call.subscriptions ∨
      sid ∈ w.server ∧ (sid ∈ (w.calls tid).subscriptions → sid ∈ call.subscriptions))
    (hstream : ∀ stream, call.stream = some stream →
      ∃ old, (w.calls tid).stream = some old ∧ old.id = stream.id) : v.Sound := by
  have hself : v.calls tid = call := by rw [hcalls, Function.update_self]
  have hother : ∀ i, i ≠ tid → v.calls i = w.calls i := fun i hi => by
    rw [hcalls, Function.update_of_ne hi]
  have hold : ∀ i stream, (v.calls i).stream = some stream →
      ∃ old, (w.calls i).stream = some old ∧ old.id = stream.id := by
    intro i stream hi
    by_cases hit : i = tid
    · subst hit
      exact hstream stream (hself ▸ hi)
    · exact ⟨stream, hother i hit ▸ hi, rfl⟩
  refine ⟨hstreams ▸ h.limit, fun sid hsid => ?_, ?_, fun i stream hi => ?_,
    fun i j stream stream' hi hj heq => ?_⟩
  · rcases hserver sid hsid with hin | ⟨hsid, hkeep⟩
    · exact Or.inr ⟨tid, hself ▸ hin⟩
    · rcases h.owned sid hsid with ⟨id, stream, hid, hin⟩ | ⟨i, hi⟩
      · exact Or.inl ⟨id, stream, hstreams ▸ hid, hin⟩
      · by_cases hit : i = tid
        · subst hit
          exact Or.inr ⟨i, hself ▸ hkeep hi⟩
        · exact Or.inr ⟨i, hother i hit ▸ hi⟩
  · rw [hstreams, hissued]
    exact h.stored
  · obtain ⟨old, hold', hid⟩ := hold i stream hi
    rw [hstreams, hissued, ← hid]
    exact h.made i old hold'
  · obtain ⟨old, hi', hid⟩ := hold i stream hi
    obtain ⟨old', hj', hid'⟩ := hold j stream' hj
    exact h.distinct i j old old' hi' hj' (hid.trans (heq.trans hid'.symm))

/-- A call that holds nothing on the server goes on without a stream. -/
theorem World.Sound.setCall (h : w.Sound)
    (hsub : ∀ sid ∈ (w.calls tid).subscriptions, sid ∈ call.subscriptions)
    (hstream : ∀ stream, call.stream = some stream →
      ∃ old, (w.calls tid).stream = some old ∧ old.id = stream.id) : (w.setCall tid call).Sound :=
  h.goesOn rfl rfl rfl (fun _ hsid => Or.inr ⟨hsid, hsub _⟩) hstream

/-- A stream is made, with an id nobody had. -/
theorem World.Sound.check (h : w.Sound) {spec : LiveSubscriptionSpec} {id started : String}
    (hp : w.calls tid = .checking spec) (hs : w.check tid spec id started = some v) : v.Sound := by
  rw [World.check] at hs
  split_ifs at hs with hfull hissued
  · obtain rfl := Option.some.inj hs
    exact h.setCall (by simp [hp, Call.subscriptions]) nofun
  · obtain rfl := Option.some.inj hs
    have hself : ∀ stream, stream = (⟨id, spec.filters, started, [], bufferOf spec, true⟩ :
        LiveStream) → stream.id = id := by
      rintro stream rfl
      rfl
    have hcase : ∀ i stream,
        (({ w with issued := id :: w.issued }.setCall tid
          (.subscribing ⟨id, spec.filters, started, [], bufferOf spec, true⟩ spec.filters)).calls
            i).stream = some stream →
        i = tid ∧ stream.id = id ∨ i ≠ tid ∧ (w.calls i).stream = some stream := by
      intro i stream hi
      by_cases hit : i = tid
      · subst hit
        simp only [World.setCall, Function.update_self, Call.stream, Option.some.injEq] at hi
        exact Or.inl ⟨rfl, hself stream hi.symm⟩
      · simp only [World.setCall, Function.update_of_ne hit] at hi
        exact Or.inr ⟨hit, hi⟩
    refine ⟨h.limit, fun sid hsid => ?_, fun key hkey => List.mem_cons_of_mem _ (h.stored key hkey),
      fun i stream hi => ?_, fun i j stream stream' hi hj heq => ?_⟩
    · refine (h.owned sid hsid).imp_right ?_
      rintro ⟨i, hi⟩
      refine ⟨i, ?_⟩
      have hit : i ≠ tid := by
        rintro rfl
        simp [hp, Call.subscriptions] at hi
      simpa only [World.setCall, Function.update_of_ne hit] using hi
    · rcases hcase i stream hi with ⟨rfl, hid⟩ | ⟨hit, hi⟩
      · exact ⟨by simp [World.setCall, hid], fun hin => hissued (hid ▸ h.stored _ hin)⟩
      · exact ⟨List.mem_cons_of_mem _ (h.made i stream hi).1, (h.made i stream hi).2⟩
    · rcases hcase i stream hi with ⟨hit, hid⟩ | ⟨hit, hold⟩ <;>
        rcases hcase j stream' hj with ⟨hjt, hid'⟩ | ⟨hjt, hold'⟩
      · exact hit.trans hjt.symm
      · exact absurd (hid ▸ heq ▸ (h.made j stream' hold').1) hissued
      · exact absurd (hid' ▸ heq ▸ (h.made i stream hold).1) hissued
      · exact h.distinct i j stream stream' hold hold' heq

/-- A stream is stored, below the limit. -/
theorem World.Sound.store (h : w.Sound) {stream : LiveStream} (hp : w.calls tid = .storing stream)
    (hroom : w.streams.size < maxLiveStreams) :
    ({ w with streams := w.streams.insert stream.id stream }.setCall tid (.returned none)).Sound := by
  obtain ⟨hissued, hnew⟩ := h.made tid stream (by rw [hp]; rfl)
  have hcase : ∀ i old,
      (({ w with streams := w.streams.insert stream.id stream }.setCall tid
        (.returned none)).calls i).stream = some old → i ≠ tid ∧ (w.calls i).stream = some old := by
    intro i old hi
    by_cases hit : i = tid
    · subst hit
      simp [World.setCall, Call.stream] at hi
    · simp only [World.setCall, Function.update_of_ne hit] at hi
      exact ⟨hit, hi⟩
  refine ⟨?_, fun sid hsid => ?_, fun key hkey => ?_, fun i old hi => ?_,
    fun i j old old' hi hj heq => h.distinct i j old old' (hcase i old hi).2 (hcase j old' hj).2 heq⟩
  · show (w.streams.insert stream.id stream).size ≤ maxLiveStreams
    rw [ExtTreeMap.size_insert, if_neg (by simpa using hnew)]
    exact hroom
  · rcases h.owned sid hsid with ⟨id, old, hid, hin⟩ | ⟨i, hi⟩
    · refine Or.inl ⟨id, old, ?_, hin⟩
      have hne : stream.id ≠ id := by
        rintro rfl
        rw [ExtTreeMap.getElem?_eq_none hnew] at hid
        cases hid
      show (w.streams.insert stream.id stream)[id]? = some old
      rw [getElem?_insert, if_neg hne]
      exact hid
    · by_cases hit : i = tid
      · subst hit
        rw [hp] at hi
        exact Or.inl ⟨stream.id, stream, by simp [World.setCall], hi⟩
      · refine Or.inr ⟨i, ?_⟩
        simpa only [World.setCall, Function.update_of_ne hit] using hi
  · rcases ExtTreeMap.mem_insert.mp hkey with hk | hk
    · exact Std.compare_eq_iff_eq.mp hk ▸ hissued
    · exact h.stored key hk
  · obtain ⟨hit, hi⟩ := hcase i old hi
    obtain ⟨holdissued, hold⟩ := h.made i old hi
    refine ⟨holdissued, fun hin => ?_⟩
    rcases ExtTreeMap.mem_insert.mp hin with hk | hk
    · refine hit (h.distinct i tid old stream hi (by rw [hp]; rfl) ?_)
      exact (Std.compare_eq_iff_eq.mp hk).symm
    · exact hold hk

/-- A stream is removed, and its subscriptions are the call's to let go of. -/
theorem World.Sound.remove (h : w.Sound) {id : String} (hp : w.calls tid = .stopping id) :
    (w.remove tid id).Sound := by
  rw [World.remove]
  split
  · exact h.setCall (by simp [hp, Call.subscriptions]) nofun
  · rename_i stream hstream
    have hcase : ∀ i old, (({ w with streams := w.streams.erase id }.setCall tid
        (.releasing stream.subscriptions none)).calls i).stream = some old →
        (w.calls i).stream = some old := by
      intro i old hi
      by_cases hit : i = tid
      · subst hit
        simp [World.setCall, Call.stream] at hi
      · simpa only [World.setCall, Function.update_of_ne hit] using hi
    refine ⟨ExtTreeMap.size_erase_le.trans h.limit, fun sid hsid => ?_,
      fun key hkey => h.stored key (ExtTreeMap.mem_of_mem_erase hkey), fun i old hi => ?_,
      fun i j old old' hi hj heq => h.distinct i j old old' (hcase i old hi) (hcase j old' hj) heq⟩
    · rcases h.owned sid hsid with ⟨key, old, hkey, hin⟩ | ⟨i, hi⟩
      · by_cases hid : id = key
        · subst hid
          obtain rfl := Option.some.inj (hstream.symm.trans hkey)
          exact Or.inr ⟨tid, by simpa [World.setCall, Call.subscriptions] using hin⟩
        · refine Or.inl ⟨key, old, ?_, hin⟩
          show (w.streams.erase id)[key]? = some old
          rw [getElem?_erase, if_neg hid]
          exact hkey
      · have hit : i ≠ tid := by
          rintro rfl
          simp [hp, Call.subscriptions] at hi
        refine Or.inr ⟨i, ?_⟩
        simpa only [World.setCall, Function.update_of_ne hit] using hi
    · obtain ⟨hissued, hnot⟩ := h.made i old (hcase i old hi)
      exact ⟨hissued, fun hin => hnot (ExtTreeMap.mem_of_mem_erase hin)⟩

theorem Call.subscriptions_of_isIdle (h : call.isIdle = true) : call.subscriptions = [] := by
  cases call <;> first | rfl | cases h

theorem sound_step {label : Label} (h : w.Sound) (hs : w.step label = some v) (hclear : Clear w label) :
    v.Sound := by
  cases label with
  | start tid spec =>
    simp only [World.step] at hs
    split at hs
    · rename_i hidle
      split at hs <;> obtain rfl := Option.some.inj hs <;>
        exact h.setCall (by simp [Call.subscriptions_of_isIdle hidle]) nofun
    · cases hs
  | check tid id started =>
    cases hp : w.calls tid <;> simp only [World.step, hp, reduceCtorEq] at hs
    exact h.check hp hs
  | subscribe tid err =>
    cases hp : w.calls tid with
    | subscribing stream rest =>
      cases rest with
      | nil => simp [World.step, hp] at hs
      | cons filter rest =>
        cases err with
        | some err =>
          simp only [World.step, hp] at hs
          obtain rfl := Option.some.inj hs
          exact h.setCall (by simp [hp, Call.subscriptions]) nofun
        | none =>
          simp only [World.step, hp] at hs
          obtain rfl := Option.some.inj hs
          have hcall : Function.update w.calls tid (.limiting stream w.nextSid rest) = _ := rfl
          refine h.goesOn hcall.symm rfl rfl (fun sid hsid => ?_) ?_
          · rcases ExtTreeMap.mem_insert.mp hsid with hk | hk
            · exact Or.inl (by simp [Call.subscriptions, Std.compare_eq_iff_eq.mp hk])
            · refine Or.inr ⟨hk, fun hin => ?_⟩
              rw [hp] at hin
              exact List.mem_append_left _ hin
          · rintro _ ⟨⟩
            exact ⟨stream, by rw [hp]; rfl, rfl⟩
    | _ => simp [World.step, hp] at hs
  | limit tid err =>
    obtain rfl : err = none := hclear
    cases hp : w.calls tid <;> simp only [World.step, hp, reduceCtorEq] at hs
    rename_i stream sid rest
    obtain rfl := Option.some.inj hs
    refine h.setCall (by simp [hp, Call.subscriptions]) ?_
    rintro _ ⟨⟩
    exact ⟨stream, by rw [hp]; rfl, rfl⟩
  | flush tid err =>
    cases hp : w.calls tid with
    | subscribing stream rest =>
      cases rest with
      | cons filter rest => simp [World.step, hp] at hs
      | nil =>
        cases err with
        | some err =>
          simp only [World.step, hp] at hs
          obtain rfl := Option.some.inj hs
          exact h.setCall (by simp [hp, Call.subscriptions]) nofun
        | none =>
          simp only [World.step, hp] at hs
          obtain rfl := Option.some.inj hs
          refine h.setCall (by simp [hp, Call.subscriptions]) ?_
          rintro _ ⟨⟩
          exact ⟨stream, by rw [hp]; rfl, rfl⟩
    | _ => simp [World.step, hp] at hs
  | store tid =>
    cases hp : w.calls tid <;> simp only [World.step, hp, reduceCtorEq] at hs
    exact Option.some.inj hs ▸ h.store hp hclear
  | stop tid id =>
    simp only [World.step] at hs
    split at hs
    · rename_i hidle
      obtain rfl := Option.some.inj hs
      exact h.setCall (by simp [Call.subscriptions_of_isIdle hidle]) nofun
    · cases hs
  | remove tid =>
    cases hp : w.calls tid <;> simp only [World.step, hp, reduceCtorEq] at hs
    exact Option.some.inj hs ▸ h.remove hp
  | release tid accepted =>
    obtain rfl : accepted = true := hclear
    cases hp : w.calls tid with
    | releasing subscriptions err =>
      cases subscriptions with
      | nil =>
        simp only [World.step, hp] at hs
        obtain rfl := Option.some.inj hs
        exact h.setCall (by simp [hp, Call.subscriptions]) nofun
      | cons sid rest =>
        simp only [World.step, hp, if_true] at hs
        obtain rfl := Option.some.inj hs
        have hcall : Function.update w.calls tid (.releasing rest err) = _ := rfl
        refine h.goesOn hcall.symm rfl rfl (fun other hother => ?_) nofun
        obtain ⟨hne, hin⟩ := ExtTreeMap.mem_erase.mp hother
        refine Or.inr ⟨hin, fun hmine => ?_⟩
        rw [hp] at hmine
        refine (List.mem_cons.mp hmine).resolve_left fun heq => hne ?_
        exact Std.compare_eq_iff_eq.mpr heq.symm
    | _ => simp [World.step, hp] at hs

def sampleSpec : LiveSubscriptionSpec := ⟨[⟨"orders.>", ∅⟩], 0⟩

/-- The steps of a start, up to the section that stores its stream. -/
def starting (tid : Nat) : List Label :=
  [.start tid sampleSpec, .check tid (toString tid) "", .subscribe tid none, .limit tid none,
    .flush tid none]

end MqStudio.Nats.Live
