import MqStudio.Lib.Latest
import MqStudio.Lib.Transition

/-!
# What a page reads from its connection

`useBrokerData.ts`: a page loads one thing from the connection it is scoped to, again on a timer and
whenever it asks for it.  A reply counts while no later load was started.

* `Hook.step`: the renders, their effects, the calls of `refresh`, the timer and the replies.
* `Right`: what is shown is what the current load returned for the current connection.
* `right_of_fresh`: so it is in every run in which no handle of another connection or load starts
  one, once the effects have run.
* `stale_refresh_shows`: one that does shows what it is answered.
-/

namespace MqStudio.Hooks.BrokerData

open Lib.Latest Lib.Transition

variable {L T E : Type}

/-! ### The hook -/

/-- What a `run` closes over. -/
structure Run (L : Type) where
  active : Bool
  connID : ℤ
  load : L
deriving DecidableEq

/-- What a render is given. -/
structure Inputs (L : Type) where
  load : L
  refreshMs : Option ℕ
  enabled : Bool
  connID : ℤ
  online : Bool

def Inputs.active (inputs : Inputs L) : Bool :=
  inputs.enabled && inputs.online && decide (inputs.connID ≠ 0)

def Inputs.run (inputs : Inputs L) : Run L := ⟨inputs.active, inputs.connID, inputs.load⟩

/-- What a load returned for a connection. -/
structure Reply (L T E : Type) where
  load : L
  connID : ℤ
  result : Except E T

/-- The hook after a step.  The replies are those that arrived so far, whether they counted or
not. -/
structure Hook (L T E : Type) where
  data : Option T
  loading : Bool
  refreshing : Bool
  error : Option String
  generation : Requests (Run L)
  rendered : Inputs L
  /-- The handles of all renders so far. -/
  handles : List (Run L)
  /-- The effects of the latest render have not run. -/
  pending : Bool
  timer : Option (Run L)
  replies : List (Reply L T E)

namespace Hook

/-- The first render. -/
def mount (inputs : Inputs L) : Hook L T E where
  data := none
  loading := true
  refreshing := false
  error := none
  generation := .idle
  rendered := inputs
  handles := [inputs.run]
  pending := true
  timer := none
  replies := []

/-- `run`: the number is taken when the load is started. -/
def run (h : Hook L T E) (r : Run L) (silent : Bool) : Hook L T E :=
  if r.active then
    { h with generation := h.generation.start r, refreshing := silent || h.refreshing }
  else h

/-- The effect: the timer of the one before is cleared, and the page is emptied and loaded. -/
def effects (h : Hook L T E) : Hook L T E :=
  if h.pending then
    let emptied := { h with
      pending := false, timer := none, generation := h.generation.bump, data := none, error := none,
      refreshing := false, loading := h.rendered.active }
    if h.rendered.active then
      { emptied.run h.rendered.run false with
        timer := h.rendered.refreshMs.map fun _ => h.rendered.run }
    else emptied
  else h

/-- A render; the effects of the one before have run by then. -/
def render [DecidableEq L] (h : Hook L T E) (inputs : Inputs L) : Hook L T E :=
  { h.effects with
    rendered := inputs
    handles := inputs.run :: h.handles
    pending := inputs.run ≠ h.rendered.run ∨ inputs.refreshMs ≠ h.rendered.refreshMs }

/-- What a reply does that counts. -/
def settle (formatErrorMessage : E → String) (h : Hook L T E) : Except E T → Hook L T E
  | .ok next => { h with data := some next, error := none, loading := false, refreshing := false }
  | .error failure =>
    { h with
      error := some (formatErrorMessage failure), data := none, loading := false,
      refreshing := false }

/-- The reply to one of the loads in flight. -/
def reply (formatErrorMessage : E → String) (h : Hook L T E) (i : ℕ) (result : Except E T) :
    Option (Hook L T E) :=
  h.generation.flying[i]?.map fun request =>
    let h' := { h with
      generation := h.generation.land i
      replies := ⟨request.2.load, request.2.connID, result⟩ :: h.replies }
    if request.1 = h.generation.last then h'.settle formatErrorMessage result else h'

end Hook

inductive Label (L T E : Type) where
  | render (inputs : Inputs L)
  | effects
  /-- A call of the `refresh` of any render so far. -/
  | refresh (handle : Run L)
  | tick
  | reply (i : ℕ) (result : Except E T)

variable (formatErrorMessage : E → String)

def Hook.step [DecidableEq L] (h : Hook L T E) : Label L T E → Option (Hook L T E)
  | .render inputs => some (h.render inputs)
  | .effects => some h.effects
  | .refresh handle => if handle ∈ h.handles then some (h.run handle true) else none
  | .tick => h.timer.map fun r => h.run r true
  | .reply i result => h.reply formatErrorMessage i result

def hooks [DecidableEq L] : System (Hook L T E) (Label L T E) where
  Init h := ∃ inputs, h = .mount inputs
  Step h label h' := h.step formatErrorMessage label = some h'

/-! ### What is shown -/

variable {formatErrorMessage} {h h' : Hook L T E}

/-- What is shown, once the effects have run, is from the current load and connection. -/
structure Right (formatErrorMessage : E → String) (h : Hook L T E) : Prop where
  data : h.pending = false → ∀ v, h.data = some v →
    ⟨h.rendered.load, h.rendered.connID, .ok v⟩ ∈ h.replies
  error : h.pending = false → ∀ text, h.error = some text →
    ∃ failure, ⟨h.rendered.load, h.rendered.connID, .error failure⟩ ∈ h.replies ∧
      text = formatErrorMessage failure

/-- A load of what the latest render asks for. -/
def Current (h : Hook L T E) (r : Run L) : Prop :=
  r.load = h.rendered.load ∧ r.connID = h.rendered.connID

/-- No handle starts a load of something else than the latest render asks for, once its effects have
run. -/
def Fresh (h : Hook L T E) : Label L T E → Prop
  | .refresh handle => h.pending = false → handle.active = true → Current h handle
  | _ => True

/-- What every step keeps: the load whose reply counts is current. -/
structure Sound (formatErrorMessage : E → String) (h : Hook L T E) : Prop where
  right : Right formatErrorMessage h
  counts : h.pending = false → h.generation.Only (Current h)
  timer : h.pending = false → ∀ r, h.timer = some r → r = h.rendered.run

theorem sound_of_pending (hp : h.pending = true) : Sound formatErrorMessage h := by
  refine ⟨⟨fun hn => ?_, fun hn => ?_⟩, fun hn => ?_, fun hn => ?_⟩ <;>
    · rw [hp] at hn
      cases hn

/-- A load of what the latest render asks for may be started. -/
theorem Sound.run (hs : Sound formatErrorMessage h) {r : Run L}
    (hr : h.pending = false → r.active = true → Current h r) (silent : Bool) :
    Sound formatErrorMessage (h.run r silent) := by
  rw [Hook.run]
  split
  · rename_i hactive
    exact ⟨⟨hs.right.data, hs.right.error⟩,
      fun hp => h.generation.only_start (hr hp hactive), hs.timer⟩
  · exact hs

theorem pending_effects (h : Hook L T E) : h.effects.pending = false := by
  rw [Hook.effects]
  split
  · dsimp only
    split
    · rw [Hook.run]
      split <;> rfl
    · rfl
  · rename_i hp
    exact Bool.eq_false_iff.mpr hp

theorem rendered_effects (h : Hook L T E) : h.effects.rendered = h.rendered := by
  rw [Hook.effects]
  split
  · dsimp only
    split
    · rw [Hook.run]
      split <;> rfl
    · rfl
  · rfl

/-- The effects empty the page, and their load is the only one that counts. -/
theorem Sound.effects (hs : Sound formatErrorMessage h) : Sound formatErrorMessage h.effects := by
  rw [Hook.effects]
  split
  · have hemptied : Sound formatErrorMessage { h with
        pending := false, timer := none, generation := h.generation.bump, data := none,
        error := none, refreshing := false, loading := h.rendered.active } :=
      ⟨⟨fun _ => nofun, fun _ => nofun⟩, fun _ => h.generation.only_bump, fun _ => nofun⟩
    dsimp only
    split
    · have hrun := hemptied.run (r := h.rendered.run) (fun _ _ => ⟨rfl, rfl⟩) false
      refine ⟨⟨hrun.right.data, hrun.right.error⟩, hrun.counts, fun _ r hr => ?_⟩
      obtain ⟨ms, -, rfl⟩ := Option.map_eq_some_iff.mp hr
      rw [Hook.run]
      split <;> rfl
    · exact hemptied
  · exact hs

/-- A reply that counts is of the current load. -/
theorem Sound.reply (hs : Sound formatErrorMessage h) {i : ℕ} {result : Except E T}
    (hr : h.reply formatErrorMessage i result = some h') : Sound formatErrorMessage h' := by
  obtain ⟨request, hrequest, rfl⟩ := Option.map_eq_some_iff.mp hr
  have hflying := List.mem_of_getElem? hrequest
  have hmore : ∀ {x : Reply L T E}, x ∈ h.replies →
      x ∈ (⟨request.2.load, request.2.connID, result⟩ : Reply L T E) :: h.replies :=
    fun hx => List.mem_cons_of_mem _ hx
  dsimp only
  split
  · rename_i hlast
    have hcurrent : h.pending = false → request.2.load = h.rendered.load ∧
        request.2.connID = h.rendered.connID := fun hp => hs.counts hp request hflying hlast
    cases result with
    | ok next =>
      refine ⟨⟨fun hp v hv => ?_, fun _ => nofun⟩,
        fun hp => Requests.only_land (hs.counts hp) i, hs.timer⟩
      obtain ⟨hload, hconn⟩ := hcurrent hp
      obtain rfl := Option.some.inj hv
      show (⟨h.rendered.load, h.rendered.connID, .ok next⟩ : Reply L T E) ∈ _
      rw [← hload, ← hconn]
      exact List.mem_cons_self
    | error failure =>
      refine ⟨⟨fun _ => nofun, fun hp text ht => ⟨failure, ?_, (Option.some.inj ht).symm⟩⟩,
        fun hp => Requests.only_land (hs.counts hp) i, hs.timer⟩
      obtain ⟨hload, hconn⟩ := hcurrent hp
      show (⟨h.rendered.load, h.rendered.connID, .error failure⟩ : Reply L T E) ∈ _
      rw [← hload, ← hconn]
      exact List.mem_cons_self
  · exact ⟨⟨fun hp v hv => hmore (hs.right.data hp v hv), fun hp text ht =>
      (hs.right.error hp text ht).imp fun failure hf => ⟨hmore hf.1, hf.2⟩⟩,
      fun hp => Requests.only_land (hs.counts hp) i, hs.timer⟩

variable [DecidableEq L]

/-- A render that changes nothing the effect depends on leaves what is shown right. -/
theorem Sound.render (hs : Sound formatErrorMessage h) (inputs : Inputs L) :
    Sound formatErrorMessage (h.render inputs) := by
  have he := hs.effects
  by_cases hchanged : inputs.run ≠ h.rendered.run ∨ inputs.refreshMs ≠ h.rendered.refreshMs
  · exact sound_of_pending (decide_eq_true hchanged)
  · have hp := pending_effects h
    have hrun : inputs.run = h.effects.rendered.run := by
      rw [rendered_effects]
      exact not_not.mp (not_or.mp hchanged).1
    have hload : inputs.load = h.effects.rendered.load := congrArg Run.load hrun
    have hconn : inputs.connID = h.effects.rendered.connID := congrArg Run.connID hrun
    refine ⟨⟨fun _ v hv => ?_, fun _ text ht => ?_⟩, fun _ r hr hlast => ?_, fun _ r hr => ?_⟩
    · show ⟨inputs.load, inputs.connID, .ok v⟩ ∈ h.effects.replies
      rw [hload, hconn]
      exact he.right.data hp v hv
    · show ∃ failure, ⟨inputs.load, inputs.connID, .error failure⟩ ∈ h.effects.replies ∧ _
      rw [hload, hconn]
      exact he.right.error hp text ht
    · obtain ⟨hrload, hrconn⟩ := he.counts hp r hr hlast
      exact ⟨hrload.trans hload.symm, hrconn.trans hconn.symm⟩
    · exact (he.timer hp r hr).trans hrun.symm

/-- Every step keeps the load that counts current. -/
theorem Sound.step (hs : Sound formatErrorMessage h) {label : Label L T E}
    (hstep : h.step formatErrorMessage label = some h') (hfresh : Fresh h label) :
    Sound formatErrorMessage h' := by
  cases label with
  | render inputs =>
    obtain rfl := Option.some.inj hstep
    exact hs.render inputs
  | effects =>
    obtain rfl := Option.some.inj hstep
    exact hs.effects
  | refresh handle =>
    rw [Hook.step] at hstep
    split at hstep
    · obtain rfl := Option.some.inj hstep
      exact hs.run hfresh true
    · cases hstep
  | tick =>
    obtain ⟨r, hr, rfl⟩ := Option.map_eq_some_iff.mp hstep
    refine hs.run (fun hp _ => ?_) true
    rw [hs.timer hp r hr]
    exact ⟨rfl, rfl⟩
  | reply i result => exact hs.reply hstep

/-- **A page shows its own connection's data** in every run in which no stale handle starts a load
once the effects have run. -/
theorem right_of_fresh (hr : Reachable ((hooks formatErrorMessage).guard Fresh) h) :
    Right formatErrorMessage h := by
  have hsound : Sound formatErrorMessage h := by
    refine hr.inv ?_ ?_
    · rintro _ ⟨inputs, rfl⟩
      exact sound_of_pending rfl
    · intro s label t hs hstep
      exact hs.step hstep.1 hstep.2
  exact hsound.right

/-! ### Stale handles -/

/-- A handle of any render that was active starts a load whose answer is shown, whatever the page is
scoped to by then. -/
theorem stale_refresh_shows {handle : Run L} (hmem : handle ∈ h.handles)
    (hactive : handle.active = true) (v : T) : ∃ h', Path (hooks formatErrorMessage) h
      [.refresh handle, .reply 0 (.ok v)] h' ∧ h'.data = some v ∧ h'.rendered = h.rendered ∧
        h'.pending = h.pending ∧
        h'.replies = ⟨handle.load, handle.connID, .ok v⟩ :: h.replies := by
  have hrefresh : h.step formatErrorMessage (.refresh handle) = some (h.run handle true) :=
    if_pos hmem
  have hrun : h.run handle true = { h with
      generation := h.generation.start handle, refreshing := true } := by
    rw [Hook.run, if_pos hactive]
    rfl
  have hreply : (h.run handle true).step formatErrorMessage (.reply 0 (.ok v)) = some { h with
      data := some v, error := none, loading := false, refreshing := false,
      generation := (h.generation.start handle).land 0,
      replies := ⟨handle.load, handle.connID, .ok v⟩ :: h.replies } := by
    rw [hrun]
    simp [Hook.step, Hook.reply, Requests.start, Hook.settle]
  exact ⟨_, .cons hrefresh (.cons hreply (.refl _)), rfl, rfl, rfl, rfl⟩

/-- A page that is open on a connection. -/
def page (connID : ℤ) : Inputs Unit := ⟨(), some 30000, true, connID, true⟩

/-- The page is opened on the first connection, which is read. -/
theorem reachable_first : ∃ h : Hook Unit ℤ String,
    Reachable ((hooks id).guard Fresh) h ∧ h.data = some 10 ∧ h.pending = false := by
  refine ⟨_, .step (.step (.init ⟨page 1, rfl⟩) (i := .effects) ⟨rfl, trivial⟩)
    (i := .reply 0 (.ok 10)) ⟨rfl, trivial⟩, rfl, rfl⟩

/-- What it shows was returned for it. -/
theorem first_right : ∃ h : Hook Unit ℤ String, Reachable ((hooks id).guard Fresh) h ∧
    h.data = some 10 ∧ Right id h := by
  obtain ⟨h, hr, hdata, -⟩ := reachable_first
  exact ⟨h, hr, hdata, right_of_fresh hr⟩

/-- The page is moved to a second connection, and the handle of the first is called: the page of the
second shows what the first returned. -/
theorem first_shown_on_second : ∃ h : Hook Unit ℤ String, Reachable (hooks id) h ∧
    h.rendered.connID = 2 ∧ h.data = some 10 ∧ ¬Right id h := by
  have hmoved : Reachable (hooks id)
      ((Hook.mount (page 1)).effects.render (page 2) : Hook Unit ℤ String).effects :=
    .step (.step (.step (.init ⟨page 1, rfl⟩) (i := .effects) rfl) (i := .render (page 2)) rfl)
      (i := .effects) rfl
  obtain ⟨t, hpath, hdata, hrendered, hpending, hreplies⟩ := @stale_refresh_shows Unit ℤ String id
    ((Hook.mount (page 1)).effects.render (page 2) : Hook Unit ℤ String).effects _ (page 1).run
    (by decide) rfl 10
  have hconn : t.rendered.connID = 2 := by rw [hrendered]; rfl
  refine ⟨t, hpath.reachable hmoved, hconn, hdata, fun hright => ?_⟩
  have hreturned := hright.data (by rw [hpending]; rfl) 10 hdata
  rw [hreplies, hconn] at hreturned
  rcases List.mem_cons.mp hreturned with heq | hnone
  · have hsame : (2 : ℤ) = 1 := congrArg Reply.connID heq
    exact absurd hsame (by decide)
  · cases hnone

end MqStudio.Hooks.BrokerData
