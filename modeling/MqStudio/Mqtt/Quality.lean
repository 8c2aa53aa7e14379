import MqStudio.Mqtt.Subscriptions

/-!
# The quality of service of shared filters

The streams of one connection share the broker's subscriptions by the text of the filter.  A start,
a stop and the resubscription after a reconnect each say anew with which quality of service a filter
is subscribed.

* `resubscribeFilters`: what is asked after a reconnect, in the order a map is gone through.
* `Conn.step`: a call, or a reconnect.
* `Conn.Covered`: every filter was last asked for with what any running stream wants of it.
* `covered_of_heeded`: so it stays where every start and every reconnect is `Heeded`.
-/

namespace MqStudio.Mqtt.Quality

open Std (ExtTreeMap)
open Lib.Maps
open Lib.Transition

/-! ### What is asked after a reconnect -/

/-- The quality of service a stream wants of a filter. -/
def quality (filter : LiveFilter) : Nat :=
  match filterQoS filter with
  | .ok qos => qos
  | .error _ => 0

/-- A filter as the broker is asked for it. -/
def ask (filter : LiveFilter) : SubscribeFilter := ⟨filter.pattern, quality filter⟩

/-- The filters that were not seen, with what they were first seen with. -/
def unseen (filters : List SubscribeFilter) (filter : LiveFilter) : List SubscribeFilter :=
  if filters.any fun s => s.pattern = filter.pattern then filters else filters ++ [ask filter]

/-- Every filter the live streams need, the streams being gone through in any order. -/
def resubscribeFilters (streams : List Stream) : List SubscribeFilter :=
  ((streams.flatMap (·.filters)).foldl unseen []).mergeSort fun s t => s.pattern ≤ t.pattern

/-! ### Calls and reconnects -/

/-- What comes of a request to the broker. -/
inductive Reply where
  | accepted
  /-- It went out, and an error came back. -/
  | refused
  /-- It did not go out. -/
  | unsent
deriving DecidableEq

/-- One connection, and the quality of service each filter was last asked for with. -/
structure Conn where
  protocolV5 : Bool
  streams : ExtTreeMap String Stream compare
  requested : ExtTreeMap String Nat compare

def Conn.new (protocolV5 : Bool) : Conn := ⟨protocolV5, ∅, ∅⟩

inductive Label where
  | start (spec : LiveSubscriptionSpec) (id startedAt : String) (reply : Reply)
  | stop (id : String) (reply : Reply)
  /-- The connection is back; the map of the streams is gone through in this order. -/
  | reconnect (order : List String)

/-- A start that passed its checks; a stream whose filters are not accepted is taken out again. -/
def Conn.start (c : Conn) (request : Request) (id startedAt : String) : Reply → Conn
  | .accepted =>
    { c with
      streams := c.streams.insert id
        (newStream id request.filters startedAt request.buffer request.positive)
      requested := subscribed c.requested request.subscriptions }
  | .refused => { c with requested := subscribed c.requested request.subscriptions }
  | .unsent => c

def Conn.stop (c : Conn) (id : String) (live : Stream) (reply : Reply) : Conn :=
  let streams := c.streams.erase id
  let patterns := (live.filters.filter fun filter => !filterInUse streams filter.pattern).map
    (·.pattern)
  { c with
    streams := streams
    requested := if reply = .unsent then c.requested else unsubscribed c.requested patterns }

def Conn.step (c : Conn) : Label → Option Conn
  | .start spec id startedAt reply =>
    match requestOf c.protocolV5 spec with
    | .error _ => some c
    | .ok request =>
      if maxStreams ≤ c.streams.size then some c
      else if id ∈ c.streams then none
      else some (c.start request id startedAt reply)
  | .stop id reply =>
    match c.streams[id]? with
    | none => some c
    | some live => some (c.stop id live reply)
  | .reconnect order =>
    if order.Perm c.streams.keys then
      let streams := order.filterMap fun id => c.streams[id]?
      some { c with requested := subscribed c.requested (resubscribeFilters streams) }
    else none

def system : System Conn Label where
  Init c := ∃ protocolV5, c = Conn.new protocolV5
  Step c label d := c.step label = some d

/-! ### What the streams want -/

/-- A running stream has the filter. -/
def Conn.Wants (c : Conn) (filter : LiveFilter) : Prop :=
  ∃ (id : String) (live : Stream), c.streams[id]? = some live ∧ filter ∈ live.filters

/-- Every filter of a running stream was last asked for with at least what the stream wants. -/
def Conn.Covered (c : Conn) : Prop :=
  ∀ filter, c.Wants filter → ∃ qos, c.requested[filter.pattern]? = some qos ∧ quality filter ≤ qos

/-- The filter is the last of its pattern. -/
def LastAsked (subscriptions : List SubscribeFilter) (s : SubscribeFilter) : Prop :=
  (subscriptions.filter (·.pattern = s.pattern)).getLast? = some s

/-- A start that reaches the broker names every pattern last with at least what each running stream
wants of it, its own among them; and every running stream names a pattern first with the most that
any of them wants of it when the connection comes back. -/
def Heeded (c : Conn) : Label → Prop
  | .start spec _ _ reply => ∀ request, requestOf c.protocolV5 spec = .ok request →
      c.streams.size < maxStreams → reply ≠ .unsent → ∀ s, LastAsked request.subscriptions s →
        (∀ filter, c.Wants filter → filter.pattern = s.pattern → quality filter ≤ s.qos) ∧
          (reply = .accepted → ∀ t ∈ request.subscriptions, t.pattern = s.pattern → t.qos ≤ s.qos)
  | .stop _ _ => True
  | .reconnect _ => ∀ (id : String) (live : Stream), c.streams[id]? = some live → ∀ first pattern,
      live.filters.find? (·.pattern = pattern) = some first → ∀ filter, c.Wants filter →
        filter.pattern = pattern → quality filter ≤ quality first

/-! ### Requests -/

section

variable {filters : List LiveFilter} {subscriptions : List SubscribeFilter}

theorem eq_ask_of_subscribeFilter {protocolV5 : Bool} {filter : LiveFilter} {s : SubscribeFilter}
    (h : subscribeFilter protocolV5 filter = .ok s) : s = ask filter := by
  rw [subscribeFilter] at h
  split at h
  · cases h
  · split at h
    · cases h
    · cases hq : filterQoS filter with
      | error err =>
        rw [hq] at h
        cases h
      | ok qos =>
        rw [hq] at h
        rw [ask, quality, hq]
        exact (Except.ok.inj h).symm

/-- A start asks for what the stream wants. -/
theorem subscriptions_eq {protocolV5 : Bool} {spec : LiveSubscriptionSpec} {request : Request}
    (h : requestOf protocolV5 spec = .ok request) :
    request.subscriptions = request.filters.map ask := by
  have hmap : ∀ {filters : List LiveFilter} {subscriptions : List SubscribeFilter},
      filters.mapM (subscribeFilter protocolV5) = .ok subscriptions →
        subscriptions = filters.map ask := by
    intro filters subscriptions hmap
    have hall := Lib.Traverse.mapM_eq_ok.mp hmap
    clear hmap
    induction hall with
    | nil => rfl
    | cons hf _ ih => rw [List.map_cons, ← ih, eq_ask_of_subscribeFilter hf]
  rw [requestOf] at h
  split at h
  · cases h
  · split at h
    · cases h
    · rename_i subscriptions hsub
      split_ifs at h
      · obtain rfl := Except.ok.inj h
        exact hmap hsub
      · obtain rfl := Except.ok.inj h
        exact hmap hsub

/-- What is asked for last is what counts. -/
theorem getElem?_subscribed (requested : ExtTreeMap String Nat compare) (pattern : String) :
    (subscribed requested subscriptions)[pattern]? =
      ((subscriptions.filter (·.pattern = pattern)).getLast?.map (·.qos)).or
        requested[pattern]? := by
  induction subscriptions using List.reverseRecOn with
  | nil => rfl
  | append_singleton subscriptions last ih =>
    rw [subscribed, List.foldl_append, List.foldl_cons, List.foldl_nil, getElem?_insert,
      List.filter_append]
    rw [subscribed] at ih
    by_cases hlast : last.pattern = pattern
    · simp [hlast]
    · simp [hlast, ih]

theorem getElem?_subscribed_of_last {requested : ExtTreeMap String Nat compare}
    {s : SubscribeFilter} (h : LastAsked subscriptions s) :
    (subscribed requested subscriptions)[s.pattern]? = some s.qos := by
  rw [getElem?_subscribed, h]
  rfl

/-- Every pattern that is asked for is asked for a last time. -/
theorem exists_lastAsked {t : SubscribeFilter} (h : t ∈ subscriptions) :
    ∃ s, LastAsked subscriptions s ∧ s.pattern = t.pattern := by
  have hmem : t ∈ subscriptions.filter (·.pattern = t.pattern) := by simp [h]
  obtain ⟨s, hs⟩ : ∃ s, (subscriptions.filter (·.pattern = t.pattern)).getLast? = some s :=
    ⟨_, List.getLast?_eq_some_getLast (List.ne_nil_of_mem hmem)⟩
  have hpattern : s.pattern = t.pattern := by
    have := (List.mem_filter.mp (List.mem_of_getLast? hs)).2
    simpa using this
  exact ⟨s, by rw [LastAsked, hpattern, hs], hpattern⟩

theorem getElem?_subscribed_of_notMem {requested : ExtTreeMap String Nat compare} {pattern : String}
    (h : ∀ s ∈ subscriptions, s.pattern ≠ pattern) :
    (subscribed requested subscriptions)[pattern]? = requested[pattern]? := by
  have hnil : subscriptions.filter (·.pattern = pattern) = [] := by
    rw [List.filter_eq_nil_iff]
    intro s hs
    simpa using h s hs
  rw [getElem?_subscribed, hnil]
  rfl

theorem getElem?_unsubscribed {requested : ExtTreeMap String Nat compare} {patterns : List String}
    {pattern : String} (h : pattern ∉ patterns) :
    (unsubscribed requested patterns)[pattern]? = requested[pattern]? := by
  rw [unsubscribed]
  induction patterns generalizing requested with
  | nil => rfl
  | cons p patterns ih =>
    rw [List.mem_cons, not_or] at h
    rw [List.foldl_cons, ih h.2, getElem?_erase, if_neg (Ne.symm h.1)]

/-- A pattern is asked for with what it was first seen with. -/
theorem mem_foldl_unseen (s : SubscribeFilter) : s ∈ filters.foldl unseen [] ↔
    ∃ filter, filters.find? (·.pattern = s.pattern) = some filter ∧ s = ask filter := by
  induction filters using List.reverseRecOn generalizing s with
  | nil => simp
  | append_singleton filters last ih =>
    have hseen : (filters.foldl unseen []).any (fun s => s.pattern = last.pattern) = true ↔
        ∃ filter, filters.find? (·.pattern = last.pattern) = some filter := by
      simp only [List.any_eq_true, decide_eq_true_eq]
      constructor
      · rintro ⟨t, ht, hpattern⟩
        obtain ⟨filter, hfind, -⟩ := (ih t).mp ht
        exact ⟨filter, hpattern ▸ hfind⟩
      · rintro ⟨filter, hfind⟩
        have hpattern : filter.pattern = last.pattern := by simpa using List.find?_some hfind
        exact ⟨ask filter, (ih _).mpr ⟨filter, by rwa [ask, hpattern], rfl⟩, hpattern⟩
    rw [List.foldl_append, List.foldl_cons, List.foldl_nil, unseen]
    simp only [List.find?_append, Option.or_eq_some_iff]
    by_cases hany : (filters.foldl unseen []).any (fun s => s.pattern = last.pattern) = true
    · obtain ⟨first, hfirst⟩ := hseen.mp hany
      rw [if_pos hany, ih]
      refine ⟨fun ⟨filter, h, hs⟩ => ⟨filter, Or.inl h, hs⟩, ?_⟩
      rintro ⟨filter, h | ⟨hnone, h⟩, rfl⟩
      · exact ⟨filter, h, rfl⟩
      · -- The last filter is new only where its pattern was not seen.
        obtain rfl : last = filter := by
          simpa using (List.mem_singleton.mp (List.mem_of_find?_eq_some h)).symm
        rw [ask, hfirst] at hnone
        cases hnone
    · have hnone : filters.find? (·.pattern = last.pattern) = none := by
        rw [Option.eq_none_iff_forall_ne_some]
        exact fun filter hfind => hany (hseen.mpr ⟨filter, hfind⟩)
      rw [if_neg hany, List.mem_append, List.mem_singleton, ih]
      constructor
      · rintro (⟨filter, h, hs⟩ | rfl)
        · exact ⟨filter, Or.inl h, hs⟩
        · exact ⟨last, Or.inr ⟨hnone, by simp [ask]⟩, rfl⟩
      · rintro ⟨filter, h | ⟨-, h⟩, hs⟩
        · exact Or.inl ⟨filter, h, hs⟩
        · obtain rfl := List.mem_singleton.mp (List.mem_of_find?_eq_some h)
          exact Or.inr hs

/-- After a reconnect every pattern is asked for once. -/
theorem lastAsked_resubscribe {streams : List Stream} {s : SubscribeFilter}
    (h : s ∈ resubscribeFilters streams) : LastAsked (resubscribeFilters streams) s := by
  obtain ⟨t, hlast, hpattern⟩ := exists_lastAsked h
  have ht : t ∈ resubscribeFilters streams :=
    List.mem_of_mem_filter (List.mem_of_getLast? hlast)
  rw [resubscribeFilters, List.mem_mergeSort, mem_foldl_unseen] at h ht
  obtain ⟨filter, hfind, hs⟩ := h
  obtain ⟨filter', hfind', ht⟩ := ht
  rw [hpattern, hfind] at hfind'
  rw [Option.some.inj hfind', ← ht] at hs
  rwa [hs]

end

/-! ### Steps -/

section

variable {c d : Conn}

/-- What is asked for covers what is wanted, pattern by pattern. -/
theorem covered_subscribed (wants : LiveFilter → Prop) {requested : ExtTreeMap String Nat compare}
    {subscriptions : List SubscribeFilter}
    (hlast : ∀ s, LastAsked subscriptions s → ∀ filter, wants filter →
      filter.pattern = s.pattern → quality filter ≤ s.qos)
    (hrest : ∀ filter, wants filter → (∀ s ∈ subscriptions, s.pattern ≠ filter.pattern) →
      ∃ qos, requested[filter.pattern]? = some qos ∧ quality filter ≤ qos)
    {filter : LiveFilter} (hwants : wants filter) :
    ∃ qos, (subscribed requested subscriptions)[filter.pattern]? = some qos ∧
      quality filter ≤ qos := by
  by_cases hasked : ∃ s ∈ subscriptions, s.pattern = filter.pattern
  · obtain ⟨t, ht, hpattern⟩ := hasked
    obtain ⟨s, hs, hst⟩ := exists_lastAsked ht
    rw [hpattern] at hst
    refine ⟨s.qos, ?_, hlast s hs filter hwants hst.symm⟩
    rw [← hst, getElem?_subscribed_of_last hs]
  · have hnone : ∀ s ∈ subscriptions, s.pattern ≠ filter.pattern := fun s hs he =>
      hasked ⟨s, hs, he⟩
    rw [getElem?_subscribed_of_notMem hnone]
    exact hrest filter hwants hnone

theorem Conn.Covered.start (h : c.Covered) {spec : LiveSubscriptionSpec} {request : Request}
    (hrequest : requestOf c.protocolV5 spec = .ok request) (hsize : c.streams.size < maxStreams)
    {id : String} (startedAt : String) {reply : Reply}
    (hin : Heeded c (.start spec id startedAt reply)) :
    (c.start request id startedAt reply).Covered := by
  have hin' := hin request hrequest hsize
  cases reply with
  | unsent => exact h
  | refused =>
    intro filter hwants
    exact covered_subscribed c.Wants (fun s hs => (hin' (by decide) s hs).1)
      (fun filter hwants _ => h filter hwants) hwants
  | accepted =>
    intro filter hwants
    refine covered_subscribed (c.start request id startedAt .accepted).Wants ?_ ?_ hwants
    · rintro s hs filter ⟨id', live, hget, hmem⟩ hpattern
      simp only [Conn.start] at hget
      rw [getElem?_insert] at hget
      split at hget
      · obtain rfl := Option.some.inj hget
        refine (hin' (by decide) s hs).2 rfl (ask filter) ?_ hpattern
        rw [subscriptions_eq hrequest]
        exact List.mem_map_of_mem hmem
      · exact (hin' (by decide) s hs).1 filter ⟨id', live, hget, hmem⟩ hpattern
    · rintro filter ⟨id', live, hget, hmem⟩ hnone
      simp only [Conn.start] at hget
      rw [getElem?_insert] at hget
      split at hget
      · obtain rfl := Option.some.inj hget
        refine absurd rfl (hnone (ask filter) ?_)
        rw [subscriptions_eq hrequest]
        exact List.mem_map_of_mem hmem
      · exact h filter ⟨id', live, hget, hmem⟩

theorem Conn.Covered.stop (h : c.Covered) (id : String) (live : Stream) (reply : Reply) :
    (c.stop id live reply).Covered := by
  rintro filter ⟨id', other, hget, hmem⟩
  have hstreams : (c.streams.erase id)[id']? = some other := hget
  have hbefore : c.streams[id']? = some other := by
    rw [getElem?_erase] at hstreams
    split at hstreams
    · cases hstreams
    · exact hstreams
  obtain ⟨qos, hqos, hle⟩ := h filter ⟨id', other, hbefore, hmem⟩
  refine ⟨qos, ?_, hle⟩
  rw [Conn.stop]
  simp only
  split
  · exact hqos
  · rw [getElem?_unsubscribed, hqos]
    -- A pattern that a remaining stream has stays.
    intro hpattern
    obtain ⟨gone, hgone, heq⟩ := List.mem_map.mp hpattern
    have hinUse : filterInUse (c.streams.erase id) gone.pattern = true := by
      rw [filterInUse, List.any_eq_true]
      refine ⟨other, mem_values.mpr ⟨id', hstreams⟩, List.any_eq_true.mpr ⟨filter, hmem, ?_⟩⟩
      simp [heq]
    rw [List.mem_filter, hinUse] at hgone
    exact absurd hgone.2 (by decide)

/-- The streams that are gone through are those of the map. -/
theorem mem_order {order : List String} (horder : order.Perm c.streams.keys) {live : Stream} :
    live ∈ order.filterMap (fun id => c.streams[id]?) ↔
      ∃ id : String, c.streams[id]? = some live := by
  rw [List.mem_filterMap]
  constructor
  · rintro ⟨id, -, hget⟩
    exact ⟨id, hget⟩
  · rintro ⟨id, hget⟩
    refine ⟨id, horder.mem_iff.mpr ?_, hget⟩
    rw [ExtTreeMap.mem_keys, ExtTreeMap.mem_iff_isSome_getElem?, hget]
    rfl

theorem covered_reconnect {order : List String} (hin : Heeded c (.reconnect order))
    (horder : order.Perm c.streams.keys) {filter : LiveFilter} (hwants : c.Wants filter) :
    ∃ qos, (subscribed c.requested (resubscribeFilters
      (order.filterMap fun id => c.streams[id]?)))[filter.pattern]? = some qos ∧
        quality filter ≤ qos := by
  obtain ⟨id, live, hget, hmem⟩ := hwants
  have hlive := (mem_order horder).mpr ⟨id, hget⟩
  -- The first stream in the order that has the pattern decides what is asked.
  have hsome : (((order.filterMap fun id => c.streams[id]?).flatMap (·.filters)).find?
      fun f => f.pattern = filter.pattern).isSome := by
    rw [List.find?_isSome]
    exact ⟨filter, List.mem_flatMap.mpr ⟨live, hlive, hmem⟩, decide_eq_true rfl⟩
  obtain ⟨first, hfirst⟩ := Option.isSome_iff_exists.mp hsome
  have hpattern : first.pattern = filter.pattern := by simpa using List.find?_some hfirst
  have hask : ask first ∈ resubscribeFilters (order.filterMap fun id => c.streams[id]?) := by
    rw [resubscribeFilters, List.mem_mergeSort, mem_foldl_unseen]
    exact ⟨first, by rwa [ask, hpattern], rfl⟩
  rw [List.find?_flatMap] at hfirst
  obtain ⟨other, hother, hfind⟩ := List.exists_of_findSome?_eq_some hfirst
  obtain ⟨id', hget'⟩ := (mem_order horder).mp hother
  refine ⟨quality first, ?_, hin id' other hget' first _ hfind filter ⟨id, live, hget, hmem⟩ rfl⟩
  rw [← hpattern]
  exact getElem?_subscribed_of_last (lastAsked_resubscribe hask)

theorem Conn.Covered.step (h : c.Covered) {label : Label} (hin : Heeded c label)
    (hstep : c.step label = some d) : d.Covered := by
  cases label with
  | start spec id startedAt reply =>
    rw [Conn.step] at hstep
    split at hstep
    case h_1 => exact Option.some.inj hstep ▸ h
    case h_2 request hrequest =>
    split_ifs at hstep with hfull hknown
    · exact Option.some.inj hstep ▸ h
    · obtain rfl := Option.some.inj hstep
      exact h.start hrequest (by omega) startedAt hin
  | stop id reply =>
    rw [Conn.step] at hstep
    split at hstep
    · exact Option.some.inj hstep ▸ h
    · obtain rfl := Option.some.inj hstep
      exact h.stop id _ reply
  | reconnect order =>
    rw [Conn.step] at hstep
    split_ifs at hstep with horder
    obtain rfl := Option.some.inj hstep
    intro filter hwants
    exact covered_reconnect hin horder hwants

end

/-- **Every filter stays covered**, in every run whose starts and reconnects are heeded. -/
theorem covered_of_heeded {c : Conn} (h : Reachable (system.guard Heeded) c) : c.Covered := by
  refine Reachable.inv (P := Conn.Covered) ?_ ?_ h
  · rintro c ⟨protocolV5, rfl⟩ filter ⟨id, live, hget, -⟩
    simp [Conn.new] at hget
  · intro c label d hinv hstep
    exact hinv.step hstep.2 hstep.1

/-! ### A later start that asks for less -/

/-- One filter, with a quality of service. -/
def wanting (qos : String) : LiveSubscriptionSpec :=
  ⟨[⟨"alarms", (∅ : ExtTreeMap String String compare).insert attrQoS qos⟩], 0⟩

/-- What the broker was last asked for, and what the first stream wants. -/
def outcome (c : Conn) : Option Nat × List (String × Nat) :=
  (c.requested["alarms"]?, (c.streams["a"]?.toList.flatMap (·.filters)).map fun filter =>
    (filter.pattern, quality filter))

theorem later_start_lowers : ∃ c, Reachable system c ∧ ¬ c.Covered := by
  have hrun : (runSteps Conn.step (Conn.new true) [.start (wanting "2") "a" "" .accepted,
      .start (wanting "0") "b" "" .accepted]).map outcome =
      some (some 0, [("alarms", 2)]) := by decide
  obtain ⟨c, hc, hout⟩ := Option.map_eq_some_iff.mp hrun
  refine ⟨c, (Path.of_runSteps (S := system) id hc).reachable (.init ⟨true, rfl⟩), fun h => ?_⟩
  have hwants : ("alarms", 2) ∈ (outcome c).2 := by
    rw [hout]
    exact List.mem_singleton.mpr rfl
  have hrequested : c.requested["alarms"]? = some 0 := congrArg Prod.fst hout
  obtain ⟨filter, hmem, hfilter⟩ := List.mem_map.mp hwants
  obtain ⟨hpattern, hquality⟩ := Prod.mk.inj hfilter
  obtain ⟨live, hlive, hmem⟩ := List.mem_flatMap.mp hmem
  obtain ⟨qos, hqos, hle⟩ := h filter ⟨"a", live, Option.mem_toList.mp hlive, hmem⟩
  rw [hpattern, hrequested] at hqos
  rw [hquality, ← Option.some.inj hqos] at hle
  exact absurd hle (by decide)

theorem one_start_covered :
    ∃ c, Reachable (system.guard Heeded) c ∧ (outcome c).1 = some 2 ∧ c.Covered := by
  have hrun : (runSteps Conn.step (Conn.new true)
      [.start (wanting "2") "a" "" .accepted]).map outcome =
      some (some 2, [("alarms", 2)]) := by decide
  have hasked : (requestOf true (wanting "2")).map (·.subscriptions) = .ok [⟨"alarms", 2⟩] := by
    decide
  have hheeded : Heeded (Conn.new true) (.start (wanting "2") "a" "" .accepted) := by
    intro request hrequest _ _ s hs
    rw [show (Conn.new true).protocolV5 = true from rfl] at hrequest
    rw [hrequest] at hasked
    have hsub : request.subscriptions = [⟨"alarms", 2⟩] := Except.ok.inj hasked
    refine ⟨?_, fun _ t ht _ => ?_⟩
    · rintro filter ⟨id, live, hget, -⟩
      simp [Conn.new] at hget
    · have hmem := List.mem_of_mem_filter (List.mem_of_getLast? hs)
      rw [hsub, List.mem_singleton] at ht hmem
      rw [ht, hmem]
  obtain ⟨c, hc, hout⟩ := Option.map_eq_some_iff.mp hrun
  obtain ⟨d, hd, hc⟩ := Option.bind_eq_some_iff.mp hc
  obtain rfl := Option.some.inj hc
  have hstep : (system.guard Heeded).Step (Conn.new true)
      (.start (wanting "2") "a" "" .accepted) d := ⟨hd, hheeded⟩
  have hreach : Reachable (system.guard Heeded) d := .step (.init ⟨true, rfl⟩) hstep
  exact ⟨d, hreach, congrArg Prod.fst hout, covered_of_heeded hreach⟩

end MqStudio.Mqtt.Quality
