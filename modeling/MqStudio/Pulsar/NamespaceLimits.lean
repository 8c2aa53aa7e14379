import MqStudio.Lib.Text
import MqStudio.Lib.Transition

/-!
# The limits of a Pulsar namespace

`namespace.go`: six limits that are set one at a time.  Two of them are one policy on the broker,
which takes both at once.

* `setNamespaceLimit`: one call, with what becomes of its requests.
* `Right`: a call changes no other limit, and nothing at all where it fails after a failed read.
* `limits_right_iff`: the calls of a run are right exactly if each of them that writes a half of the
  retention pair has read a pair to write back.
-/

namespace MqStudio.Pulsar.NamespaceLimits

open Lib Lib.Transition

/-! ### The policies of a namespace -/

structure RetentionPolicies where
  retentionTimeInMinutes : ℤ
  retentionSizeInMB : ℤ

/-- The policies that carry a limit; none is not configured. -/
structure Policies where
  messageTTLInSeconds : Option ℤ
  maxProducersPerTopic : Option ℤ
  maxConsumersPerTopic : Option ℤ
  maxConsumersPerSubscription : Option ℤ
  retentionPolicies : Option RetentionPolicies

inductive Limit where
  | messageTTLSeconds
  | retentionTimeMinutes
  | retentionSizeMB
  | maxProducersPerTopic
  | maxConsumersPerTopic
  | maxConsumersPerSubscription
  deriving DecidableEq

namespace Limit

/-- The keys the pages set the limits by. -/
def key : Limit → String
  | messageTTLSeconds => "messageTtlSeconds"
  | retentionTimeMinutes => "retentionTimeMinutes"
  | retentionSizeMB => "retentionSizeMb"
  | maxProducersPerTopic => "maxProducersPerTopic"
  | maxConsumersPerTopic => "maxConsumersPerTopic"
  | maxConsumersPerSubscription => "maxConsumersPerSubscription"

def all : List Limit :=
  [messageTTLSeconds, retentionTimeMinutes, retentionSizeMB, maxProducersPerTopic,
    maxConsumersPerTopic, maxConsumersPerSubscription]

def ofKey (k : String) : Option Limit := all.find? fun l => l.key = k

/-- The other half of the retention pair. -/
def otherHalf : Limit → Option Limit
  | retentionTimeMinutes => some retentionSizeMB
  | retentionSizeMB => some retentionTimeMinutes
  | _ => none

end Limit

/-- `applyPolicies`: the limits that are set. -/
def Policies.limits (p : Policies) : Limit → Option ℤ
  | .messageTTLSeconds => p.messageTTLInSeconds
  | .retentionTimeMinutes => p.retentionPolicies.map (·.retentionTimeInMinutes)
  | .retentionSizeMB => p.retentionPolicies.map (·.retentionSizeInMB)
  | .maxProducersPerTopic => p.maxProducersPerTopic
  | .maxConsumersPerTopic => p.maxConsumersPerTopic
  | .maxConsumersPerSubscription => p.maxConsumersPerSubscription

/-- The policies of every namespace, by its full name. -/
abbrev Store := String → Policies

/-! ### The requests of a call -/

/-- The client library: how it spells a namespace of a tenant, where it accepts the two names. -/
structure Admin where
  getNameSpaceName : String → String → Option String
  spelled : ∀ tenant short full, getNameSpaceName tenant short = some full →
    full = tenant ++ "/" ++ short

inductive ReadReply where
  | answered
  | failed

/-- What becomes of a write: a `lost` one is carried out, and reported as failed. -/
inductive WriteReply where
  | done
  | refused
  | lost
  deriving DecidableEq

inductive SetError where
  | blankName
  | notQualified (name : String)
  | unknownLimit (limit : String)
  | failed (limit qualified : String)

/-- What a call leaves, with whether a write was carried out and whether a read had failed. -/
structure Outcome where
  store : Store
  wrote : Bool
  readFailed : Bool
  err : Option SetError

structure Call where
  name : String
  limit : String
  value : ℤ
  read : ReadReply
  write : WriteReply

/-- One write request to a namespace. -/
def send (store : Store) (qualified limit : String) (reply : WriteReply) (readFailed : Bool)
    (change : Policies → Policies) : Outcome :=
  let written := Function.update store qualified (change (store qualified))
  match reply with
  | .done => ⟨written, true, readFailed, none⟩
  | .refused => ⟨store, false, readFailed, some (.failed limit qualified)⟩
  | .lost => ⟨written, true, readFailed, some (.failed limit qualified)⟩

/-! ### Setting a limit -/

/-- `qualifyNamespace`. -/
def qualifyNamespace (tenant name : String) : Except SetError String :=
  let trimmed := Text.trimSpace name
  if trimmed = "" then .error .blankName
  else if '/' ∈ trimmed.toList then
    if trimmed.toList.count '/' ≠ 1 then .error (.notQualified name) else .ok trimmed
  else .ok (tenant ++ "/" ++ trimmed)

def tenantOf (ns : String) : String := ((Text.cut '/' ns.toList).map (String.ofList ·.1)).getD ns

def shortNamespaceOf (ns : String) : String :=
  ((Text.cut '/' ns.toList).map (String.ofList ·.2)).getD ""

/-- The pair a write starts from: what was read, or zeros where the read failed or found none. -/
def basePair (p : Policies) : ReadReply → RetentionPolicies
  | .answered => p.retentionPolicies.getD ⟨0, 0⟩
  | .failed => ⟨0, 0⟩

def setHalf (limit : Limit) (value : ℤ) (pair : RetentionPolicies) : RetentionPolicies :=
  if limit = .retentionTimeMinutes then { pair with retentionTimeInMinutes := value }
  else { pair with retentionSizeInMB := value }

def setRetention (store : Store) (qualified : String) (limit : Limit) (c : Call) : Outcome :=
  send store qualified c.limit c.write (c.read matches .failed) fun p =>
    { p with retentionPolicies := some (setHalf limit c.value (basePair p c.read)) }

def setPerTopicLimit (admin : Admin) (store : Store) (qualified : String) (limit : Limit)
    (c : Call) : Outcome :=
  match admin.getNameSpaceName (tenantOf qualified) (shortNamespaceOf qualified) with
  | none => ⟨store, false, false, some (.failed c.limit qualified)⟩
  | some full => send store full c.limit c.write false fun p =>
    match limit with
    | .maxProducersPerTopic => { p with maxProducersPerTopic := some c.value }
    | .maxConsumersPerTopic => { p with maxConsumersPerTopic := some c.value }
    | _ => { p with maxConsumersPerSubscription := some c.value }

def setNamespaceLimit (admin : Admin) (tenant : String) (store : Store) (c : Call) : Outcome :=
  match qualifyNamespace tenant c.name with
  | .error e => ⟨store, false, false, some e⟩
  | .ok qualified =>
    match Limit.ofKey c.limit with
    | some .messageTTLSeconds => send store qualified c.limit c.write false fun p =>
      { p with messageTTLInSeconds := some c.value }
    | some .retentionTimeMinutes => setRetention store qualified .retentionTimeMinutes c
    | some .retentionSizeMB => setRetention store qualified .retentionSizeMB c
    | some limit => setPerTopicLimit admin store qualified limit c
    | none => ⟨store, false, false, some (.unknownLimit c.limit)⟩

/-! ### What a call should leave alone -/

/-- The namespace and limit a call names. -/
def Call.Names (tenant : String) (c : Call) (ns : String) (limit : Limit) : Prop :=
  qualifyNamespace tenant c.name = .ok ns ∧ Limit.ofKey c.limit = some limit

/-- No other limit changes, and nothing is written where the call fails after a failed read. -/
structure Right (admin : Admin) (tenant : String) (store : Store) (c : Call) : Prop where
  others : ∀ ns limit, ¬c.Names tenant ns limit →
    ((setNamespaceLimit admin tenant store c).store ns).limits limit = (store ns).limits limit
  failed : (setNamespaceLimit admin tenant store c).readFailed = true →
    (setNamespaceLimit admin tenant store c).err ≠ none →
      (setNamespaceLimit admin tenant store c).wrote = false

/-- A half of the retention pair is not written, or its other half was read; or it was zero all the
same, and the write is confirmed. -/
def ReadBack (tenant : String) (store : Store) (c : Call) : Prop :=
  ∀ ns limit other, c.Names tenant ns limit → limit.otherHalf = some other →
    c.write = .refused ∨
      match c.read with
      | .answered => (store ns).limits other ≠ none
      | .failed => c.write = .done ∧ (store ns).limits other = some 0

/-! ### What a call changes -/

section Calls

variable {admin : Admin} {tenant : String} {store : Store} {c : Call} {ns qualified : String}
  {limit other : Limit}

/-- What a call does to the policies of the namespace it names. -/
def change (limit : Limit) (c : Call) (p : Policies) : Policies :=
  match limit with
  | .messageTTLSeconds => { p with messageTTLInSeconds := some c.value }
  | .retentionTimeMinutes | .retentionSizeMB =>
    { p with retentionPolicies := some (setHalf limit c.value (basePair p c.read)) }
  | .maxProducersPerTopic => { p with maxProducersPerTopic := some c.value }
  | .maxConsumersPerTopic => { p with maxConsumersPerTopic := some c.value }
  | .maxConsumersPerSubscription => { p with maxConsumersPerSubscription := some c.value }

theorem limits_change (p : Policies) (hne : other ≠ limit) (hhalf : limit.otherHalf ≠ some other) :
    (change limit c p).limits other = p.limits other := by
  cases limit <;> cases other <;> first | rfl | exact absurd rfl hne | exact absurd rfl hhalf

/-- The other half becomes what was read of it, or zero. -/
theorem limits_change_otherHalf (p : Policies) (hhalf : limit.otherHalf = some other) :
    (change limit c p).limits other = some (match c.read with
      | .answered => (p.limits other).getD 0
      | .failed => 0) := by
  obtain ⟨name, key, value, read, write⟩ := c
  obtain ⟨ttl, producers, consumers, perSubscription, retention⟩ := p
  cases limit <;> cases hhalf <;> cases read <;> cases retention <;> rfl

theorem slash_mem_of_qualifyNamespace {name : String} (h : qualifyNamespace tenant name = .ok ns) :
    '/' ∈ ns.toList := by
  rw [qualifyNamespace] at h
  split at h
  · cases h
  split at h
  · rename_i hslash
    split at h
    · cases h
    · cases h
      exact hslash
  · cases h
    simp

/-- A name that is cut at its first slash and put together again is the name. -/
theorem tenantOf_append_shortNamespaceOf (h : '/' ∈ ns.toList) :
    tenantOf ns ++ "/" ++ shortNamespaceOf ns = ns := by
  cases hcut : Text.cut '/' ns.toList with
  | none => exact absurd h (Text.eq_none_of_cut hcut)
  | some parts =>
    obtain ⟨before, after⟩ := parts
    rw [tenantOf, shortNamespaceOf, hcut]
    refine String.toList_inj.mp ?_
    rw [(Text.cut_spec hcut).1]
    simp

/-- A call that names no limit of a namespace sends nothing. -/
theorem setNamespaceLimit_of_not_names (h : ∀ ns limit, ¬c.Names tenant ns limit) :
    (setNamespaceLimit admin tenant store c).store = store ∧
      (setNamespaceLimit admin tenant store c).wrote = false := by
  rw [setNamespaceLimit]
  cases hname : qualifyNamespace tenant c.name with
  | error e => exact ⟨rfl, rfl⟩
  | ok qualified =>
    cases hkey : Limit.ofKey c.limit with
    | none => exact ⟨rfl, rfl⟩
    | some limit => exact absurd ⟨hname, hkey⟩ (h qualified limit)

/-- A half of the retention pair is always sent. -/
theorem setNamespaceLimit_of_otherHalf (h : c.Names tenant ns limit)
    (hhalf : limit.otherHalf = some other) : setNamespaceLimit admin tenant store c =
      send store ns c.limit c.write (c.read matches .failed) (change limit c) := by
  obtain ⟨hname, hkey⟩ := h
  rw [setNamespaceLimit, hname]
  dsimp only
  rw [hkey]
  cases limit <;> first | rfl | cases hhalf

/-- Any other limit is sent, or refused by the library, and nothing is read for it. -/
theorem setNamespaceLimit_of_single (h : c.Names tenant ns limit) (hhalf : limit.otherHalf = none) :
    setNamespaceLimit admin tenant store c = ⟨store, false, false, some (.failed c.limit ns)⟩ ∨
      setNamespaceLimit admin tenant store c =
        send store ns c.limit c.write false (change limit c) := by
  obtain ⟨hname, hkey⟩ := h
  have hslash := slash_mem_of_qualifyNamespace hname
  have hperTopic : ∀ f : Policies → Policies,
      (match admin.getNameSpaceName (tenantOf ns) (shortNamespaceOf ns) with
        | none => ⟨store, false, false, some (.failed c.limit ns)⟩
        | some full => send store full c.limit c.write false f) =
          (⟨store, false, false, some (.failed c.limit ns)⟩ : Outcome) ∨
      (match admin.getNameSpaceName (tenantOf ns) (shortNamespaceOf ns) with
        | none => ⟨store, false, false, some (.failed c.limit ns)⟩
        | some full => send store full c.limit c.write false f) =
          send store ns c.limit c.write false f := by
    intro f
    cases hspelled : admin.getNameSpaceName (tenantOf ns) (shortNamespaceOf ns) with
    | none => exact .inl rfl
    | some full =>
      rw [admin.spelled _ _ _ hspelled, tenantOf_append_shortNamespaceOf hslash]
      exact .inr rfl
  rw [setNamespaceLimit, hname]
  dsimp only
  rw [hkey]
  cases limit with
  | messageTTLSeconds => exact .inr rfl
  | retentionTimeMinutes => cases hhalf
  | retentionSizeMB => cases hhalf
  | maxProducersPerTopic => exact hperTopic _
  | maxConsumersPerTopic => exact hperTopic _
  | maxConsumersPerSubscription => exact hperTopic _

theorem Call.Names.unique {ns' : String} {limit' : Limit} (h : c.Names tenant ns limit)
    (h' : c.Names tenant ns' limit') : ns' = ns ∧ limit' = limit :=
  ⟨Except.ok.inj (h'.1.symm.trans h.1), Option.some.inj (h'.2.symm.trans h.2)⟩

/-- What a request that is carried out changes. -/
theorem store_send {readFailed : Bool} {text : String} {reply : WriteReply}
    {f : Policies → Policies} (ns : String) :
    (send store qualified text reply readFailed f).store ns =
      if reply ≠ .refused ∧ ns = qualified then f (store qualified) else store ns := by
  cases reply <;> by_cases hns : ns = qualified <;> simp [send, hns]

/-- The limits a request leaves, where it changes no other than the one named. -/
theorem limits_send {readFailed : Bool} {ns' : String} {limit' : Limit}
    (hnames : c.Names tenant ns limit) (hother : ¬c.Names tenant ns' limit')
    (hkeeps : c.write ≠ .refused → ns' = ns → limit' ≠ limit →
      (change limit c (store ns)).limits limit' = (store ns).limits limit') :
    ((send store ns c.limit c.write readFailed (change limit c)).store ns').limits limit' =
      (store ns').limits limit' := by
  rw [store_send]
  split
  · rename_i hwritten
    obtain ⟨hreply, rfl⟩ := hwritten
    exact hkeeps hreply rfl fun heq => hother (heq ▸ hnames)
  · rfl

end Calls


/-! ### When a call is right -/

section Calls

variable {admin : Admin} {tenant : String} {store : Store} {c : Call} {ns : String}
  {limit other : Limit}

/-- A limit that is a policy of its own is set without touching another. -/
theorem right_of_single (h : c.Names tenant ns limit) (hhalf : limit.otherHalf = none) :
    Right admin tenant store c := by
  rcases @setNamespaceLimit_of_single admin tenant store c ns limit h hhalf with heq | heq
  · exact ⟨fun _ _ _ => by rw [heq], fun _ _ => by rw [heq]⟩
  · refine ⟨fun ns' limit' hother => ?_, fun hfailed => ?_⟩
    · rw [heq]
      refine limits_send h hother fun _ _ hne => limits_change _ hne ?_
      rw [hhalf]
      exact Option.some_ne_none _ |>.symm
    · rw [heq] at hfailed
      cases hwrite : c.write <;> rw [hwrite] at hfailed <;> cases hfailed

/-- Nothing changes where the write of a half is refused. -/
theorem right_of_refused (h : c.Names tenant ns limit) (hhalf : limit.otherHalf = some other)
    (hwrite : c.write = .refused) : Right admin tenant store c := by
  have heq := @setNamespaceLimit_of_otherHalf admin tenant store c ns limit other h hhalf
  rw [hwrite] at heq
  exact ⟨fun _ _ _ => by rw [heq]; rfl, fun _ _ => by rw [heq]; rfl⟩

/-- A half that is written leaves the other exactly if that is what it was written back as. -/
theorem right_iff_of_written (h : c.Names tenant ns limit) (hhalf : limit.otherHalf = some other)
    (hwrite : c.write ≠ .refused) : Right admin tenant store c ↔
      (change limit c (store ns)).limits other = (store ns).limits other ∧
        (c.read = .failed → c.write = .done) := by
  have heq := @setNamespaceLimit_of_otherHalf admin tenant store c ns limit other h hhalf
  have hne : other ≠ limit := by
    rintro rfl
    cases other <;> cases hhalf
  have hother : ¬c.Names tenant ns other := fun hnames => hne (h.unique hnames).2
  constructor
  · rintro ⟨hothers, hfailed⟩
    rw [heq] at hothers hfailed
    refine ⟨?_, fun hread => ?_⟩
    · have hkept := hothers ns other hother
      rwa [store_send, if_pos ⟨hwrite, rfl⟩] at hkept
    · cases hreply : c.write with
      | done => rfl
      | refused => exact absurd hreply hwrite
      | lost =>
        rw [hread, hreply] at hfailed
        exact absurd (hfailed rfl (Option.some_ne_none _)) (by simp [send])
  · rintro ⟨hkept, hconfirmed⟩
    refine ⟨fun ns' limit' hnot => ?_, fun hfailed herr => ?_⟩
    · rw [heq]
      refine limits_send h hnot fun _ hns hlimit => ?_
      by_cases hhalf' : limit' = other
      · rw [hhalf']
        exact hkept
      · refine limits_change _ hlimit ?_
        rw [hhalf]
        exact fun hsome => hhalf' (Option.some.inj hsome).symm
    · rw [heq] at hfailed herr
      cases hread : c.read with
      | answered =>
        rw [hread] at hfailed
        cases hreply : c.write <;> rw [hreply] at hfailed <;> cases hfailed
      | failed =>
        rw [hconfirmed hread] at herr
        exact absurd rfl herr

/-- What is written back is what was there, if it was read, or was zero. -/
theorem limits_change_eq_iff (hhalf : limit.otherHalf = some other) (p : Policies) :
    (change limit c p).limits other = p.limits other ∧ (c.read = .failed → c.write = .done) ↔
      match c.read with
      | .answered => p.limits other ≠ none
      | .failed => c.write = .done ∧ p.limits other = some 0 := by
  rw [limits_change_otherHalf p hhalf]
  cases c.read with
  | answered =>
    cases p.limits other with
    | none => simp
    | some value => simp
  | failed =>
    simp only [forall_const]
    rw [and_comm]
    exact and_congr_right fun _ => eq_comm

/-- **One call is right** exactly if the half it does not name was read back. -/
theorem right_iff (admin : Admin) (tenant : String) (store : Store) (c : Call) :
    Right admin tenant store c ↔ ReadBack tenant store c := by
  by_cases hnames : ∃ ns limit, c.Names tenant ns limit
  · obtain ⟨ns, limit, h⟩ := hnames
    cases hhalf : limit.otherHalf with
    | none =>
      refine ⟨fun _ ns' limit' other h' hhalf' => ?_, fun _ => right_of_single h hhalf⟩
      rw [(h.unique h').2, hhalf] at hhalf'
      cases hhalf'
    | some other =>
      have hback : ReadBack tenant store c ↔ c.write = .refused ∨
          match c.read with
          | .answered => (store ns).limits other ≠ none
          | .failed => c.write = .done ∧ (store ns).limits other = some 0 := by
        refine ⟨fun hall => hall ns limit other h hhalf, fun hone ns' limit' other' h' hhalf' => ?_⟩
        obtain ⟨rfl, rfl⟩ := h.unique h'
        rw [hhalf] at hhalf'
        obtain rfl := Option.some.inj hhalf'
        exact hone
      rw [hback]
      by_cases hwrite : c.write = .refused
      · exact iff_of_true (right_of_refused h hhalf hwrite) (.inl hwrite)
      · rw [right_iff_of_written h hhalf hwrite, limits_change_eq_iff hhalf, or_iff_right hwrite]
  · simp only [not_exists] at hnames
    have hnothing := @setNamespaceLimit_of_not_names admin tenant store c hnames
    refine iff_of_true ⟨fun ns limit _ => by rw [hnothing.1], fun _ _ => hnothing.2⟩ ?_
    exact fun ns limit other h _ => absurd h (hnames ns limit)

end Calls

/-! ### Runs -/

section Runs

variable {admin : Admin} {tenant : String} {store : Store}

/-- The store after a call. -/
def step (admin : Admin) (tenant : String) (store : Store) (c : Call) : Store :=
  (setNamespaceLimit admin tenant store c).store

/-- A limit that no call of a run names keeps its value, where every half was read back. -/
theorem limits_run {calls : List Call} {ns : String} {limit : Limit}
    (hback : RunMeets (step admin tenant) (ReadBack tenant) store calls)
    (hnames : ∀ c ∈ calls, ¬c.Names tenant ns limit) :
    (run (step admin tenant) store calls ns).limits limit = (store ns).limits limit := by
  induction calls generalizing store with
  | nil => rfl
  | cons c rest ih =>
    rw [run_cons, ih hback.2 fun d hd => hnames d (List.mem_cons_of_mem _ hd)]
    exact ((right_iff admin tenant store c).mpr hback.1).others ns limit
      (hnames c List.mem_cons_self)

/-- **The calls of a run are right** exactly if each that writes a half of the retention pair read
a pair to write back, or happens to write the zero that was there. -/
theorem limits_right_iff (admin : Admin) (tenant : String) (store : Store) (calls : List Call) :
    RunMeets (step admin tenant) (Right admin tenant) store calls ↔
      RunMeets (step admin tenant) (ReadBack tenant) store calls :=
  runMeets_congr fun store c => right_iff admin tenant store c

/-- A library that accepts every name. -/
def anyName : Admin where
  getNameSpaceName tenant short := some (tenant ++ "/" ++ short)
  spelled _ _ _ h := (Option.some.inj h).symm

/-- A week and a gigabyte are kept. -/
def weekAndGigabyte : Store := fun _ =>
  { messageTTLInSeconds := none
    maxProducersPerTopic := none
    maxConsumersPerTopic := none
    maxConsumersPerSubscription := none
    retentionPolicies := some ⟨10080, 1024⟩ }

/-- Setting the time to a day while the pair cannot be read turns the gigabyte to zero. -/
theorem size_lost : ¬RunMeets (step anyName "public") (Right anyName "public") weekAndGigabyte
    [⟨"default", "retentionTimeMinutes", 1440, .failed, .done⟩] := by
  rintro ⟨hright, -⟩
  have hkept := hright.others "public/default" .retentionSizeMB fun hnames => by
    have hkey : Limit.ofKey "retentionTimeMinutes" = some .retentionSizeMB := hnames.2
    cases hkey
  revert hkept
  decide

end Runs


end MqStudio.Pulsar.NamespaceLimits
