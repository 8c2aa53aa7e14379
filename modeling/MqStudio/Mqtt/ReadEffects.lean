import MqStudio.Mqtt.Reads

/-!
# What reads leave on the broker

A listing, a detail and a read of `$SYS` subscribe on the session that the live
streams use, and a filter that both spell the same is one subscription there.

* `afterRead`: the subscriptions after one read.
* `broker_of_alone`: a read that no other overlaps leaves just these.
* `kept_iff_harmless`: the streams keep the subscriptions they have, after each
  read of a sequence, exactly where each read is harmless.
-/

namespace MqStudio.Mqtt.Reads

open Std (ExtTreeMap)
open Lib.Maps Lib.Transition

/-- One read, and what the broker makes of its requests. -/
structure Visit where
  kind : Kind
  accepted : Bool
  released : Bool

/-- The subscriptions after a read: it subscribes with the lowest quality of service, and lets go of
the filter unless a live stream wants it.  That of `$SYS` it lets go of in any case. -/
def afterRead (streams : ExtTreeMap String Stream compare) (broker : ExtTreeMap String Nat compare)
    (visit : Visit) : ExtTreeMap String Nat compare :=
  if !visit.kind.valid || !visit.accepted then broker
  else
    let subscribed := broker.insert visit.kind.filter 0
    if visit.kind ≠ .sys ∧ filterInUse streams visit.kind.filter then subscribed
    else if visit.released then subscribed.erase visit.kind.filter
    else subscribed

/-- The live streams of a connection and the subscriptions of its session. -/
structure Session where
  streams : ExtTreeMap String Stream compare
  broker : ExtTreeMap String Nat compare

def Session.visit (s : Session) (visit : Visit) : Session :=
  { s with broker := afterRead s.streams s.broker visit }

/-- After the read, the broker still holds the filters of the live streams, with no lower quality of
service than before. -/
def Session.Kept (s : Session) (visit : Visit) : Prop :=
  ∀ pattern qos, filterInUse s.streams pattern = true → s.broker[pattern]? = some qos →
    ∃ left, (s.visit visit).broker[pattern]? = some left ∧ qos ≤ left

/-- The read is refused, or its filter is no live stream's, or the stream had it with the lowest
quality of service, and it is not let go of. -/
def Session.Harmless (s : Session) (visit : Visit) : Prop :=
  visit.kind.valid = true → visit.accepted = true → filterInUse s.streams visit.kind.filter = true →
    ∀ qos, s.broker[visit.kind.filter]? = some qos →
      qos = 0 ∧ (visit.kind = .sys → visit.released = false)

variable {s : Session} {visit : Visit}

/-- A read leaves every other subscription alone. -/
theorem afterRead_of_ne {streams : ExtTreeMap String Stream compare}
    {broker : ExtTreeMap String Nat compare} {pattern : String} (h : visit.kind.filter ≠ pattern) :
    (afterRead streams broker visit)[pattern]? = broker[pattern]? := by
  rw [afterRead]
  split_ifs <;> simp [getElem?_insert, getElem?_erase, h]

theorem Session.kept_of_refused (h : ¬ (visit.kind.valid = true ∧ visit.accepted = true)) :
    s.Kept visit := by
  have hvisit : (s.visit visit).broker = s.broker := by
    rw [Session.visit]
    exact if_pos (by grind)
  intro pattern qos _ hq
  exact ⟨qos, hvisit ▸ hq, le_rfl⟩

/-- What a read leaves of its own filter, where a live stream has that too. -/
theorem afterRead_filter {streams : ExtTreeMap String Stream compare}
    {broker : ExtTreeMap String Nat compare} (hvalid : visit.kind.valid = true)
    (haccepted : visit.accepted = true) (huse : filterInUse streams visit.kind.filter = true) :
    (afterRead streams broker visit)[visit.kind.filter]? =
      if visit.kind = .sys ∧ visit.released = true then none else some 0 := by
  rw [afterRead, if_neg (by simp [hvalid, haccepted])]
  by_cases hsys : visit.kind = .sys
  · by_cases hreleased : visit.released = true
    · simp [hsys, hreleased]
    · simp [hsys, hreleased]
  · simp [hsys, huse]

/-- **One read.** -/
theorem Session.kept_iff : s.Kept visit ↔ s.Harmless visit := by
  by_cases hrefused : visit.kind.valid = true ∧ visit.accepted = true
  · obtain ⟨hvalid, haccepted⟩ := hrefused
    constructor
    · intro hkept _ _ huse qos hq
      obtain ⟨left, hleft, hle⟩ := hkept _ qos huse hq
      rw [Session.visit, afterRead_filter hvalid haccepted huse] at hleft
      split_ifs at hleft with hlost
      obtain rfl := Option.some.inj hleft
      refine ⟨Nat.le_zero.mp hle, fun hsys => ?_⟩
      by_contra hreleased
      exact hlost ⟨hsys, by simpa using hreleased⟩
    · intro hharmless pattern qos huse hq
      by_cases hp : visit.kind.filter = pattern
      · subst hp
        obtain ⟨rfl, hreleased⟩ := hharmless hvalid haccepted huse qos hq
        refine ⟨0, ?_, le_rfl⟩
        rw [Session.visit, afterRead_filter hvalid haccepted huse, if_neg]
        rintro ⟨hsys, htrue⟩
        rw [hreleased hsys] at htrue
        cases htrue
      · exact ⟨qos, by rw [Session.visit, afterRead_of_ne hp]; exact hq, le_rfl⟩
  · refine iff_of_true (kept_of_refused hrefused) fun hvalid haccepted => ?_
    exact absurd ⟨hvalid, haccepted⟩ hrefused

/-- **Reads keep the streams' subscriptions**, each of a sequence, exactly where each is harmless. -/
theorem kept_iff_harmless (s : Session) (visits : List Visit) :
    RunMeets Session.visit Session.Kept s visits ↔
      RunMeets Session.visit Session.Harmless s visits :=
  runMeets_congr fun _ _ => Session.kept_iff

/-- A stream that watches `$SYS`, with more than the lowest quality of service. -/
def sysWatched : Session where
  streams := (∅ : ExtTreeMap String Stream compare).insert "s1"
    (newStream "s1" [⟨"$SYS/#", ∅⟩] "" 500 (by decide))
  broker := (∅ : ExtTreeMap String Nat compare).insert "$SYS/#" 1

/-- The tree is read once, and the stream has no subscription any more. -/
theorem sys_read_silences_stream :
    ¬ ∀ s visits, RunMeets Session.visit Session.Kept s visits := by
  intro hall
  have hkept : sysWatched.Kept ⟨.sys, true, true⟩ := (hall sysWatched [⟨.sys, true, true⟩]).1
  have hlowest := (Session.kept_iff.mp hkept rfl rfl (by decide) 1 (by decide)).1
  cases hlowest

/-! ### Reads that do not overlap -/

/-- The read a section belongs to. -/
def Label.reader : Label → Option Nat
  | .read r _ | .enter r | .subscribe r _ | .collect r _ | .check r | .unsubscribe r _ | .leave r =>
    some r
  | .arrive _ _ _ | .accept _ | .stream _ _ => none

/-- What a read has made of the subscriptions so far. -/
def Read.Made (streams : ExtTreeMap String Stream compare) (broker : ExtTreeMap String Nat compare)
    (read : Read) (now : ExtTreeMap String Nat compare) : Prop :=
  match read with
  | .idle => now = broker
  | .entering kind | .subscribing kind => kind.valid = true ∧ now = broker
  | .waiting kind | .lettingGo kind _ => kind.valid = true ∧ now = broker.insert kind.filter 0
  | .unsubscribing kind _ =>
    kind.valid = true ∧ now = broker.insert kind.filter 0 ∧
      ¬ (kind ≠ .sys ∧ filterInUse streams kind.filter = true)
  | .leaving kind _ | .left kind _ =>
    ∃ visit : Visit, visit.kind = kind ∧ now = afterRead streams broker visit

variable {w v : World} {r : Nat}

/-- A delivery keeps the filters of every stream. -/
theorem filterInUse_map {streams : ExtTreeMap String Stream compare} {f : Stream → Stream}
    (h : ∀ live, (f live).filters = live.filters) (pattern : String) :
    filterInUse (streams.map fun _ => f) pattern = filterInUse streams pattern := by
  rw [filterInUse, filterInUse, ExtTreeMap.toList_map]
  simp only [List.map_map, List.any_map]
  congr 1
  funext e
  simp [h]

theorem filters_append (live : Stream) (message : LiveMessage) :
    (live.append message).filters = live.filters := by
  rw [Stream.append]
  split <;> rfl

theorem filters_deliverTo (message : InboundMessage) (receivedAt : String) (live : Stream) :
    (deliverTo message receivedAt live).filters = live.filters := by
  rw [deliverTo]
  split
  · exact filters_append _ _
  · rfl

/-- A read as it goes, and what it has made of the subscriptions. -/
structure World.Alone (w : World) (r : Nat) (v : World) : Prop where
  inUse : ∀ pattern, filterInUse v.streams pattern = filterInUse w.streams pattern
  made : (v.reads r).Made w.streams w.broker v.broker

theorem alone_step {label : Label} (h : w.Alone r v) (hreader : ∀ i ∈ label.reader, i = r) {u : World}
    (hs : v.step label = some u) : w.Alone r u := by
  obtain ⟨huse, hmade⟩ := h
  cases label with
  | read i kind =>
    obtain rfl := hreader i rfl
    simp only [World.step] at hs
    split at hs
    · rename_i hidle
      obtain rfl := Option.some.inj hs
      have hbroker : v.broker = w.broker := by
        cases hp : v.reads i <;> rw [hp] at hidle hmade <;> first | exact hmade | cases hidle
      refine ⟨huse, ?_⟩
      simp only [World.setRead, Function.update_self]
      by_cases hvalid : kind.valid = true
      · rw [if_pos hvalid]
        exact ⟨hvalid, hbroker⟩
      · rw [if_neg hvalid]
        exact ⟨⟨kind, false, false⟩, rfl, by simp [afterRead, hbroker]⟩
    · cases hs
  | enter i =>
    obtain rfl := hreader i rfl
    cases hp : v.reads i <;> simp only [World.step, hp, reduceCtorEq] at hs
    obtain rfl := Option.some.inj hs
    rw [hp] at hmade
    refine ⟨huse, ?_⟩
    simp only [World.enter, World.setRead, Function.update_self]
    exact hmade
  | subscribe i accepted =>
    obtain rfl := hreader i rfl
    cases hp : v.reads i <;> simp only [World.step, hp, reduceCtorEq] at hs
    rename_i kind
    obtain rfl := Option.some.inj hs
    rw [hp] at hmade
    obtain ⟨hvalid, hbroker⟩ := hmade
    cases accepted with
    | true =>
      refine ⟨huse, ?_⟩
      simp only [World.setRead, if_true, Function.update_self]
      exact ⟨hvalid, by rw [hbroker]⟩
    | false =>
      refine ⟨huse, ?_⟩
      simp only [World.setRead, Bool.false_eq_true, if_false, Function.update_self]
      exact ⟨⟨kind, false, false⟩, rfl, by simp [afterRead, hbroker]⟩
  | collect i cancelled =>
    obtain rfl := hreader i rfl
    cases hp : v.reads i <;> simp only [World.step, hp, reduceCtorEq] at hs
    obtain rfl := Option.some.inj hs
    rw [hp] at hmade
    refine ⟨huse, ?_⟩
    simp only [World.collect, World.setRead, Function.update_self]
    exact hmade
  | check i =>
    obtain rfl := hreader i rfl
    cases hp : v.reads i <;> simp only [World.step, hp, reduceCtorEq] at hs
    rename_i kind outcome
    obtain rfl := Option.some.inj hs
    rw [hp] at hmade
    obtain ⟨hvalid, hbroker⟩ := hmade
    refine ⟨huse, ?_⟩
    simp only [World.check, World.setRead, Function.update_self, huse]
    by_cases hstays : kind ≠ .sys ∧ filterInUse w.streams kind.filter = true
    · rw [if_pos hstays]
      exact ⟨⟨kind, true, true⟩, rfl, by simp [afterRead, hvalid, hstays, hbroker]⟩
    · rw [if_neg hstays]
      exact ⟨hvalid, hbroker, hstays⟩
  | unsubscribe i accepted =>
    obtain rfl := hreader i rfl
    cases hp : v.reads i <;> simp only [World.step, hp, reduceCtorEq] at hs
    rename_i kind outcome
    obtain rfl := Option.some.inj hs
    rw [hp] at hmade
    obtain ⟨hvalid, hbroker, hgoes⟩ := hmade
    refine ⟨huse, ?_⟩
    simp only [World.setRead, Function.update_self]
    refine ⟨⟨kind, true, accepted⟩, rfl, ?_⟩
    have hentered : ¬ (!kind.valid || !true) = true := by simp [hvalid]
    rw [afterRead, if_neg hentered, if_neg hgoes, hbroker]
  | leave i =>
    obtain rfl := hreader i rfl
    cases hp : v.reads i <;> simp only [World.step, hp, reduceCtorEq] at hs
    obtain rfl := Option.some.inj hs
    rw [hp] at hmade
    refine ⟨huse, ?_⟩
    simp only [World.setRead, Function.update_self]
    exact hmade
  | arrive d message cause =>
    simp only [World.step] at hs
    split at hs
    · exact Option.some.inj hs ▸ ⟨huse, hmade⟩
    · cases hs
  | accept d =>
    cases hp : v.deliveries d <;> simp only [World.step, hp, reduceCtorEq] at hs
    rename_i message cause slot
    obtain rfl := Option.some.inj hs
    cases slot <;> exact ⟨huse, hmade⟩
  | stream d receivedAt =>
    cases hp : v.deliveries d <;> simp only [World.step, hp, reduceCtorEq] at hs
    rename_i message
    obtain rfl := Option.some.inj hs
    refine ⟨fun pattern => ?_, hmade⟩
    rw [← huse pattern]
    exact filterInUse_map (filters_deliverTo message receivedAt) pattern

/-- **A read that no other overlaps** leaves the subscriptions of `afterRead`. -/
theorem broker_of_alone {labels : List Label} {kind : Kind} {outcome : Option Collected}
    (h : Path reading w labels v) (hidle : w.reads r = .idle)
    (hreader : ∀ label ∈ labels, ∀ i ∈ label.reader, i = r)
    (hleft : v.reads r = .left kind outcome) :
    ∃ visit : Visit, visit.kind = kind ∧ v.broker = afterRead w.streams w.broker visit ∧
      ∀ pattern, filterInUse v.streams pattern = filterInUse w.streams pattern := by
  have halone : w.Alone r v := by
    clear hleft
    induction h with
    | refl => exact ⟨fun _ => rfl, by rw [hidle]; rfl⟩
    | tail _ hstep ih =>
      exact alone_step (ih fun label hl => hreader label (by simp [hl])) (hreader _ (by simp)) hstep
  obtain ⟨huse, hmade⟩ := halone
  rw [hleft] at hmade
  obtain ⟨visit, hkind, hbroker⟩ := hmade
  exact ⟨visit, hkind, hbroker, huse⟩

end MqStudio.Mqtt.Reads
