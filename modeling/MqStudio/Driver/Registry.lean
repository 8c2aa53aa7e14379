import MqStudio.Lib.Custody
import MqStudio.Lib.Maps
import MqStudio.Lib.Transition
import MqStudio.Model.Profile

/-!
# The driver registry

Open connections by profile id, and the calls that open, close and choose them,
any number at once.  A section under the registry's lock is one step, and so are
a dial and a `Close` of a connection.  Connections are numbered in the order
their drivers returned them.

* `custody_step`: every step moves connections between the registry, the calls
  and the closed ones, and copies or drops none.
* `no_connection_leaks`: so once the calls are over every connection is either
  stored under its id or closed, once.
-/

namespace MqStudio.Driver

open Std (ExtTreeMap)
open Lib Lib.Maps Lib.Transition
open Model

/-- Open connections, keyed by connection id, and the one the UI points at. -/
structure Registry where
  conns : ExtTreeMap Int Nat compare
  activeID : Int

/-- `ActiveID`: the active profile id, or zero where none is active. -/
def Registry.ActiveID (r : Registry) : Int := if r.activeID ∈ r.conns then r.activeID else 0

/-- Why a call fails. -/
inductive CallError where
  | unknownKind (kind : MQKind)
  | dial (text : String)
  | notConnected (id : Int)
deriving DecidableEq

/-- Where a call is. -/
inductive Call where
  | idle
  | dialing (id : Int)
  /-- The driver returned a connection, which is not stored yet. -/
  | storing (id : Int) (conn : Nat)
  | closing (id : Int)
  | closingAll
  | settingActive (id : Int)
  /-- The connections this call has still to close, outside the lock. -/
  | releasing (conns : List Nat)
  | returned (err : Option CallError)

/-- The registry, the calls on it, the profile ids of the connections the drivers returned so far,
and how often each was closed. -/
structure World where
  registered : MQKind → Bool
  registry : Registry
  opened : List Int
  closed : Nat → Nat
  calls : Nat → Call

def World.new (registered : MQKind → Bool) : World :=
  ⟨registered, ⟨∅, 0⟩, [], fun _ => 0, fun _ => .idle⟩

def World.setCall (w : World) (tid : Nat) (call : Call) : World :=
  { w with calls := Function.update w.calls tid call }

inductive Label where
  | open (tid : Nat) (profile : ConnectionProfile)
  /-- The driver's `Open` returns a connection, or fails. -/
  | dial (tid : Nat) (err : Option String)
  | store (tid : Nat)
  | close (tid : Nat) (id : Int)
  | take (tid : Nat)
  | closeAll (tid : Nat)
  | takeAll (tid : Nat)
  /-- The next `Close` of a connection, or the end of the call. -/
  | release (tid : Nat)
  | setActive (tid : Nat) (id : Int)
  | activate (tid : Nat)

def Call.isIdle : Call → Bool
  | .idle => true
  | _ => false

def World.dial (w : World) (tid : Nat) (id : Int) : Option String → World
  | some text => w.setCall tid (.returned (some (.dial text)))
  | none => { w with opened := w.opened ++ [id] }.setCall tid (.storing id w.opened.length)

/-- The section of `Open`: the connection is stored over whatever was open for its id. -/
def World.store (w : World) (tid : Nat) (id : Int) (conn : Nat) : World :=
  { w with registry.conns := w.registry.conns.insert id conn }.setCall tid
    (.releasing (w.registry.conns[id]?).toList)

/-- The section of `Close`. -/
def World.take (w : World) (tid : Nat) (id : Int) : World :=
  { w with registry := ⟨w.registry.conns.erase id,
      if w.registry.activeID = id then 0 else w.registry.activeID⟩ }.setCall tid
    (.releasing (w.registry.conns[id]?).toList)

/-- The section of `CloseAll`. -/
def World.takeAll (w : World) (tid : Nat) : World :=
  { w with registry := ⟨∅, 0⟩ }.setCall tid (.releasing (w.registry.conns.toList.map Prod.snd))

/-- A `Close` of one connection. -/
def World.release (w : World) (tid : Nat) : List Nat → World
  | [] => w.setCall tid (.returned none)
  | conn :: rest =>
    { w with closed := Function.update w.closed conn (w.closed conn + 1) }.setCall tid
      (.releasing rest)

/-- The section of `SetActive`. -/
def World.activate (w : World) (tid : Nat) (id : Int) : World :=
  if id ∈ w.registry.conns then
    { w with registry.activeID := id }.setCall tid (.returned none)
  else w.setCall tid (.returned (some (.notConnected id)))

def World.step (w : World) : Label → Option World
  | .open tid profile =>
    if (w.calls tid).isIdle then
      some (w.setCall tid (if w.registered profile.kind then .dialing profile.id
        else .returned (some (.unknownKind profile.kind))))
    else none
  | .dial tid err =>
    match w.calls tid with
    | .dialing id => some (w.dial tid id err)
    | _ => none
  | .store tid =>
    match w.calls tid with
    | .storing id conn => some (w.store tid id conn)
    | _ => none
  | .close tid id => if (w.calls tid).isIdle then some (w.setCall tid (.closing id)) else none
  | .take tid =>
    match w.calls tid with
    | .closing id => some (w.take tid id)
    | _ => none
  | .closeAll tid => if (w.calls tid).isIdle then some (w.setCall tid .closingAll) else none
  | .takeAll tid =>
    match w.calls tid with
    | .closingAll => some (w.takeAll tid)
    | _ => none
  | .release tid =>
    match w.calls tid with
    | .releasing conns => some (w.release tid conns)
    | _ => none
  | .setActive tid id =>
    if (w.calls tid).isIdle then some (w.setCall tid (.settingActive id)) else none
  | .activate tid =>
    match w.calls tid with
    | .settingActive id => some (w.activate tid id)
    | _ => none

def registry : System World Label where
  Init w := ∃ registered, w = World.new registered
  Step w label v := w.step label = some v

/-! ### Custody of the connections -/

/-- The connections a call has in its hands. -/
def Call.held : Call → List Nat
  | .storing _ conn => [conn]
  | .releasing conns => conns
  | _ => []

/-- Who has which connection. -/
def World.custody (w : World) : Custody Int Nat Nat where
  stored id := w.registry.conns[id]?
  held tid := (w.calls tid).held
  released := w.closed
  known conn := conn < w.opened.length

variable {w v : World} {tid : Nat}

theorem held_setCall (w : World) (tid : Nat) (call : Call) :
    (fun i => ((w.setCall tid call).calls i).held) =
      Function.update (fun i => (w.calls i).held) tid call.held := by
  funext i
  by_cases hi : i = tid
  · subst hi
    simp [World.setCall]
  · simp [World.setCall, hi]

/-- A call that keeps what it has in its hands. -/
theorem custody_setCall {call : Call} (h : call.held = (w.calls tid).held) :
    (w.setCall tid call).custody = w.custody := by
  have hheld := held_setCall w tid call
  rw [h, Function.update_eq_self] at hheld
  unfold World.custody
  rw [hheld]
  rfl

theorem held_of_isIdle (h : (w.calls tid).isIdle = true) : (w.calls tid).held = [] := by
  cases hc : w.calls tid <;> rw [hc] at h <;> first | rfl | cases h

theorem custody_dial {id : Int} (hcall : w.calls tid = .dialing id) (err : Option String) :
    (w.dial tid id err).custody = w.custody ∨
      Custody.Move w.custody (w.dial tid id err).custody := by
  cases err with
  | some text => exact Or.inl (custody_setCall (by rw [hcall]; rfl))
  | none =>
    right
    have hmove := Custody.Move.acquire (c := w.custody) tid w.opened.length
      (show (w.calls tid).held = [] by rw [hcall]; rfl) (lt_irrefl w.opened.length)
    convert hmove using 1
    unfold World.custody World.dial
    rw [held_setCall]
    congr 1
    funext conn
    simp only [World.setCall, List.length_append, List.length_singleton, eq_iff_iff]
    omega

theorem custody_store {id : Int} {conn : Nat} (hcall : w.calls tid = .storing id conn) :
    Custody.Move w.custody (w.store tid id conn).custody := by
  have hmove := Custody.Move.store (c := w.custody) tid id conn []
    (show (w.calls tid).held = [conn] by rw [hcall]; rfl)
  convert hmove using 1
  unfold World.custody World.store
  rw [held_setCall]
  congr 1
  funext k
  rw [Function.update_apply]
  change (w.registry.conns.insert id conn)[k]? = _
  rw [getElem?_insert]
  simp only [eq_comm]

theorem custody_take {id : Int} (hcall : w.calls tid = .closing id) :
    Custody.Move w.custody (w.take tid id).custody := by
  have hmove := Custody.Move.take (c := w.custody) tid id
  rw [show w.custody.held tid = [] from show (w.calls tid).held = [] by rw [hcall]; rfl] at hmove
  convert hmove using 1
  unfold World.custody World.take
  rw [held_setCall]
  congr 1
  funext k
  rw [Function.update_apply]
  change (w.registry.conns.erase id)[k]? = _
  rw [getElem?_erase]
  simp only [eq_comm]

theorem custody_takeAll (h : w.custody.Sound) (hcall : w.calls tid = .closingAll) :
    Custody.Move w.custody (w.takeAll tid).custody := by
  have hnodup : (w.registry.conns.toList.map Prod.snd).Nodup := by
    refine List.pairwise_map.mpr (ExtTreeMap.distinct_keys_toList.imp_of_mem ?_)
    rintro ⟨k, conn⟩ ⟨j, conn'⟩ hk hj hne heq
    obtain rfl : conn = conn' := heq
    have hk := ExtTreeMap.mem_toList_iff_getElem?_eq_some.mp hk
    have hj := ExtTreeMap.mem_toList_iff_getElem?_eq_some.mp hj
    exact hne (Std.compare_eq_iff_eq.mpr (h.stored_inj hk hj))
  have hmove := Custody.Move.takeAll (c := w.custody) tid _ hnodup fun conn => mem_values
  rw [show w.custody.held tid = [] from show (w.calls tid).held = [] by rw [hcall]; rfl] at hmove
  convert hmove using 1
  unfold World.custody World.takeAll
  rw [held_setCall]
  congr 1

theorem custody_release {conns : List Nat} (hcall : w.calls tid = .releasing conns) :
    (w.release tid conns).custody = w.custody ∨
      Custody.Move w.custody (w.release tid conns).custody := by
  cases conns with
  | nil => exact Or.inl (custody_setCall (by rw [hcall]; rfl))
  | cons conn rest =>
    right
    have hmove := Custody.Move.release (c := w.custody) tid conn rest
      (show (w.calls tid).held = conn :: rest by rw [hcall]; rfl)
    convert hmove using 1
    unfold World.custody World.release
    rw [held_setCall]
    rfl

/-- **Every step moves connections**, if any, from one place to another. -/
theorem custody_step (h : w.custody.Sound) {label : Label} (hs : w.step label = some v) :
    v.custody = w.custody ∨ Custody.Move w.custody v.custody := by
  cases label with
  | «open» tid profile =>
    simp only [World.step] at hs
    split at hs
    · rename_i hidle
      obtain rfl := Option.some.inj hs
      left
      apply custody_setCall
      rw [held_of_isIdle hidle]
      split <;> rfl
    · cases hs
  | close tid | closeAll tid | setActive tid =>
    simp only [World.step] at hs
    split at hs
    · rename_i hidle
      obtain rfl := Option.some.inj hs
      exact Or.inl (custody_setCall (held_of_isIdle hidle).symm)
    · cases hs
  | dial tid err =>
    simp only [World.step] at hs
    split at hs
    · rename_i hcall
      obtain rfl := Option.some.inj hs
      exact custody_dial hcall err
    · cases hs
  | store tid =>
    simp only [World.step] at hs
    split at hs
    · rename_i hcall
      obtain rfl := Option.some.inj hs
      exact Or.inr (custody_store hcall)
    · cases hs
  | take tid =>
    simp only [World.step] at hs
    split at hs
    · rename_i hcall
      obtain rfl := Option.some.inj hs
      exact Or.inr (custody_take hcall)
    · cases hs
  | takeAll tid =>
    simp only [World.step] at hs
    split at hs
    · rename_i hcall
      obtain rfl := Option.some.inj hs
      exact Or.inr (custody_takeAll h hcall)
    · cases hs
  | release tid =>
    simp only [World.step] at hs
    split at hs
    · rename_i hcall
      obtain rfl := Option.some.inj hs
      exact custody_release hcall
    · cases hs
  | activate tid =>
    simp only [World.step] at hs
    split at hs
    · rename_i hcall
      obtain rfl := Option.some.inj hs
      left
      unfold World.activate
      split <;> exact custody_setCall (by rw [hcall]; rfl)
    · cases hs

theorem custody_new (registered : MQKind → Bool) : (World.new registered).custody.Sound := by
  convert Custody.sound_empty (κ := Int) (ι := Nat) (ρ := Nat) using 1
  unfold World.custody World.new Custody.empty
  congr 1
  funext conn
  simp

/-! ### Ids -/

/-- A connection is stored under the id of the profile it was opened for, and the active id is that
of a stored connection. -/
structure World.Labelled (w : World) : Prop where
  stored : ∀ (id : Int) (conn : Nat), w.registry.conns[id]? = some conn → w.opened[conn]? = some id
  storing : ∀ (tid : Nat) (id : Int) (conn : Nat), w.calls tid = .storing id conn →
    w.opened[conn]? = some id
  active : w.registry.activeID = 0 ∨ w.registry.activeID ∈ w.registry.conns

/-- A section of a call that opens nothing. -/
theorem World.Labelled.section (h : w.Labelled) {registry : Registry} {closed : Nat → Nat}
    {call : Call} (hstored : ∀ (id : Int) (conn : Nat), registry.conns[id]? = some conn →
      w.opened[conn]? = some id)
    (hactive : registry.activeID = 0 ∨ registry.activeID ∈ registry.conns)
    (hcall : ∀ id conn, call ≠ .storing id conn) :
    ({ w with registry := registry, closed := closed }.setCall tid call).Labelled := by
  refine ⟨hstored, fun i id conn hi => ?_, hactive⟩
  by_cases hit : i = tid
  · subst hit
    exact absurd ((Function.update_self ..).symm.trans hi) (hcall id conn)
  · exact h.storing i id conn ((Function.update_of_ne hit ..).symm.trans hi)

theorem World.Labelled.setCall (h : w.Labelled) {call : Call}
    (hcall : ∀ id conn, call ≠ .storing id conn) : (w.setCall tid call).Labelled :=
  h.section h.stored h.active hcall

theorem World.Labelled.dial (h : w.Labelled) (id : Int) (err : Option String) :
    (w.dial tid id err).Labelled := by
  have hold : ∀ {conn : Nat} {k : Int}, w.opened[conn]? = some k →
      (w.opened ++ [id])[conn]? = some k := fun hk => by
    rw [List.getElem?_append_left (List.getElem?_eq_some_iff.mp hk).1, hk]
  cases err with
  | some text => exact h.setCall nofun
  | none =>
    refine ⟨fun k conn hk => hold (h.stored k conn hk), fun i k conn hi => ?_, h.active⟩
    by_cases hit : i = tid
    · subst hit
      obtain ⟨rfl, rfl⟩ := Call.storing.inj ((Function.update_self ..).symm.trans hi)
      change (w.opened ++ [id])[w.opened.length]? = some id
      simp
    · exact hold (h.storing i k conn ((Function.update_of_ne hit ..).symm.trans hi))

theorem World.Labelled.store (h : w.Labelled) {id : Int} {conn : Nat}
    (hcall : w.calls tid = .storing id conn) : (w.store tid id conn).Labelled := by
  refine h.section (fun k c hk => ?_) ?_ nofun
  · change (w.registry.conns.insert id conn)[k]? = some c at hk
    rw [getElem?_insert] at hk
    split at hk
    · rename_i hid
      obtain rfl := Option.some.inj hk
      exact hid ▸ h.storing tid id conn hcall
    · exact h.stored k c hk
  · refine h.active.imp_right fun hmem => ?_
    change w.registry.activeID ∈ w.registry.conns.insert id conn
    exact ExtTreeMap.mem_insert.mpr (Or.inr hmem)

theorem World.Labelled.take (h : w.Labelled) (id : Int) : (w.take tid id).Labelled := by
  refine h.section (fun k c hk => ?_) ?_ nofun
  · change (w.registry.conns.erase id)[k]? = some c at hk
    rw [getElem?_erase] at hk
    split at hk
    · cases hk
    · exact h.stored k c hk
  · change (if _ then _ else _) = (0 : Int) ∨ (if _ then _ else _) ∈ w.registry.conns.erase id
    split
    · exact Or.inl rfl
    · rename_i hne
      refine h.active.imp_right fun hmem => ExtTreeMap.mem_erase.mpr ⟨?_, hmem⟩
      rw [ne_eq, Std.compare_eq_iff_eq]
      exact fun he => hne he.symm

theorem labelled_step (h : w.Labelled) {label : Label} (hs : w.step label = some v) :
    v.Labelled := by
  cases label with
  | «open» tid profile =>
    simp only [World.step] at hs
    split at hs
    · obtain rfl := Option.some.inj hs
      refine h.setCall fun id conn => ?_
      split <;> nofun
    · cases hs
  | close tid | closeAll tid | setActive tid =>
    simp only [World.step] at hs
    split at hs
    · obtain rfl := Option.some.inj hs
      exact h.setCall nofun
    · cases hs
  | dial tid err =>
    simp only [World.step] at hs
    split at hs
    · obtain rfl := Option.some.inj hs
      exact h.dial _ err
    · cases hs
  | store tid =>
    simp only [World.step] at hs
    split at hs
    · rename_i hcall
      obtain rfl := Option.some.inj hs
      exact h.store hcall
    · cases hs
  | take tid =>
    simp only [World.step] at hs
    split at hs
    · obtain rfl := Option.some.inj hs
      exact h.take _
    · cases hs
  | takeAll tid =>
    simp only [World.step] at hs
    split at hs
    · obtain rfl := Option.some.inj hs
      exact h.section (fun k c hk => by simp at hk) (Or.inl rfl) nofun
    · cases hs
  | release tid =>
    simp only [World.step] at hs
    split at hs
    · rename_i conns _
      obtain rfl := Option.some.inj hs
      cases conns with
      | nil => exact h.setCall nofun
      | cons conn rest => exact h.section h.stored h.active nofun
    · cases hs
  | activate tid =>
    simp only [World.step] at hs
    split at hs
    · obtain rfl := Option.some.inj hs
      unfold World.activate
      split
      · rename_i hmem
        exact h.section h.stored (Or.inr hmem) nofun
      · exact h.setCall nofun
    · cases hs

theorem labelled_new (registered : MQKind → Bool) : (World.new registered).Labelled :=
  ⟨fun id conn h => by simp [World.new] at h, nofun, Or.inl rfl⟩

/-! ### Runs -/

/-- The call has not started, or it is over. -/
def Call.isQuiet : Call → Bool
  | .idle | .returned _ => true
  | _ => false

/-- No call is in progress. -/
def World.Quiet (w : World) : Prop := ∀ tid, (w.calls tid).isQuiet = true

/-- No connection leaks, and none is closed twice. -/
structure World.Leakless (w : World) : Prop where
  once : ∀ conn, w.closed conn ≤ 1
  apart : ∀ (id : Int) (conn : Nat), w.registry.conns[id]? = some conn → w.closed conn = 0
  settled : w.Quiet → ∀ (conn : Nat) (id : Int), w.opened[conn]? = some id →
    (w.registry.conns[id]? = some conn ∧ w.closed conn = 0) ∨
      (∀ k : Int, w.registry.conns[k]? ≠ some conn) ∧ w.closed conn = 1
  active : w.registry.ActiveID = w.registry.activeID ∧
    (w.registry.ActiveID = 0 ∨ w.registry.ActiveID ∈ w.registry.conns)

theorem activeID_of_labelled (h : w.Labelled) : w.registry.ActiveID = w.registry.activeID := by
  unfold Registry.ActiveID
  split
  · rfl
  · rename_i hmem
    exact (h.active.resolve_right hmem).symm

theorem leakless_of_sound (h : w.custody.Sound) (hl : w.Labelled) : w.Leakless := by
  refine ⟨fun conn => (h.released_le conn).1, fun id conn hk => (h.released_le conn).2 id hk,
    fun hq conn id hid => ?_, activeID_of_labelled hl, ?_⟩
  · have hempty : ∀ tid, w.custody.held tid = [] := by
      intro tid
      have htid := hq tid
      change (w.calls tid).held = []
      cases hc : w.calls tid <;> rw [hc] at htid <;> first | rfl | cases htid
    have hknown : w.custody.known conn := (List.getElem?_eq_some_iff.mp hid).1
    rcases h.stored_or_released hempty hknown with ⟨k, hk, hrel⟩ | hgone
    · obtain rfl := Option.some.inj ((hl.stored k conn hk).symm.trans hid)
      exact Or.inl ⟨hk, hrel⟩
    · exact Or.inr hgone
  · rw [activeID_of_labelled hl]
    exact hl.active

/-- **No connection leaks**, in any order of the steps of any calls. -/
theorem no_connection_leaks (h : Reachable registry w) : w.Leakless := by
  have hinv : w.custody.Sound ∧ w.Labelled := by
    refine Reachable.inv (P := fun w => w.custody.Sound ∧ w.Labelled) ?_ (fun u _ x hu hs => ?_) h
    · rintro _ ⟨registered, rfl⟩
      exact ⟨custody_new registered, labelled_new registered⟩
    · refine ⟨?_, labelled_step hu.2 hs⟩
      rcases custody_step hu.1 hs with he | hm
      · exact he ▸ hu.1
      · exact hu.1.move hm
  exact leakless_of_sound hinv.1 hinv.2

/-- Two opens of one id that cross, and a `CloseAll` between their sections. -/
def crossingOpens (profile : ConnectionProfile) : List Label :=
  [.open 0 profile, .open 1 profile, .dial 0 none, .dial 1 none, .store 1, .closeAll 2, .takeAll 2,
    .store 0, .release 2, .release 0, .release 1, .release 2]

/-- The connection that was stored first is closed, the other is stored. -/
theorem crossing_opens_leak_nothing : ∃ w, Reachable registry w ∧
    (w.opened, w.closed 0, w.closed 1, w.registry.conns[(7 : Int)]?) = ([7, 7], 0, 1, some 0) ∧
    w.Leakless := by
  have hrun : (runSteps World.step (World.new fun _ => true)
      (crossingOpens { ConnectionProfile.zero with id := 7 })).map
      (fun w => (w.opened, w.closed 0, w.closed 1, w.registry.conns[(7 : Int)]?)) =
      some ([7, 7], 0, 1, some 0) := by decide
  obtain ⟨w, hw, hout⟩ := Option.map_eq_some_iff.mp hrun
  have hreach : Reachable registry w :=
    (Path.of_runSteps (S := registry) id hw).reachable (.init ⟨_, rfl⟩)
  exact ⟨w, hreach, hout, no_connection_leaks hreach⟩

end MqStudio.Driver
