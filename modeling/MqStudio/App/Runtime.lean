import MqStudio.Driver.Registry

/-!
# The connection that is sampled

`app/runtime.go`: opening a connection makes it the active one, which is what background sampling
reads, and closing the active one hands that to another.  Calls run any number at once; a section
under the registry's lock is one step, and the `Close` of a connection, which touches no registry,
is none.

* `Covered`: a connection that some call has still to offer.
* `active_is_open`: when no call is under way and anything is open, the active connection is open.
-/

namespace MqStudio.App

open Std (ExtTreeMap)
open Lib.Maps Lib.Transition
open Driver (Registry CallError)

/-- Where a call is. -/
inductive Call where
  | idle
  /-- `Connect`: `registry.Open`, in front of the dial and of its section. -/
  | dialing (id : Int)
  | storing (id : Int)
  | settingActive (id : Int)
  /-- `Remove`: `registry.Close`, then `ActiveID`, then `IDs`, then `SetActive` of each of them. -/
  | taking (id : Int)
  | checking
  | listing
  | offering (ids : List Int)
  | takingAll
  | returned (err : Option CallError)

def Call.isIdle : Call → Bool
  | .idle => true
  | _ => false

theorem eq_idle_of_isIdle {call : Call} (h : call.isIdle = true) : call = .idle := by
  cases call with
  | idle => rfl
  | _ => cases h

structure Runtime where
  registry : Registry
  /-- How many connections have been opened, which numbers the next. -/
  opened : ℕ
  calls : ℕ → Call

def Runtime.new : Runtime := ⟨⟨∅, 0⟩, 0, fun _ => .idle⟩

def Runtime.setCall (w : Runtime) (tid : ℕ) (call : Call) : Runtime :=
  { w with calls := Function.update w.calls tid call }

inductive Label where
  | connect (tid : ℕ) (id : Int)
  | dial (tid : ℕ) (err : Option CallError)
  | store (tid : ℕ)
  | activate (tid : ℕ)
  | remove (tid : ℕ) (id : Int)
  | take (tid : ℕ)
  | check (tid : ℕ)
  | list (tid : ℕ)
  | offer (tid : ℕ)
  | closeAll (tid : ℕ)
  | takeAll (tid : ℕ)

/-! ### Sections of the registry -/

def openAs (r : Registry) (id : Int) (conn : ℕ) : Registry :=
  { r with conns := r.conns.insert id conn }

/-- None if the connection is not open. -/
def setActive (r : Registry) (id : Int) : Option Registry :=
  if id ∈ r.conns then some { r with activeID := id } else none

def close (r : Registry) (id : Int) : Registry :=
  ⟨r.conns.erase id, if r.activeID = id then 0 else r.activeID⟩

/-- `IDs`, which sorts them. -/
def ids (r : Registry) : List Int := r.conns.keys

/-! ### Steps -/

def Runtime.activate (w : Runtime) (tid : ℕ) (id : Int) : Runtime :=
  match setActive w.registry id with
  | some registry => { w with registry := registry }.setCall tid (.returned none)
  | none => w.setCall tid (.returned (some (.notConnected id)))

def Runtime.offer (w : Runtime) (tid : ℕ) : List Int → Runtime
  | [] => w.setCall tid (.returned none)
  | id :: rest =>
    match setActive w.registry id with
    | some registry => { w with registry := registry }.setCall tid (.returned none)
    | none => w.setCall tid (.offering rest)

def Runtime.step (w : Runtime) : Label → Option Runtime
  | .connect tid id => if (w.calls tid).isIdle then some (w.setCall tid (.dialing id)) else none
  | .dial tid err =>
    match w.calls tid with
    | .dialing id => some (w.setCall tid (match err with
        | some err => .returned (some err)
        | none => .storing id))
    | _ => none
  | .store tid =>
    match w.calls tid with
    | .storing id => some ({ w with
        registry := openAs w.registry id w.opened
        opened := w.opened + 1 }.setCall tid (.settingActive id))
    | _ => none
  | .activate tid =>
    match w.calls tid with
    | .settingActive id => some (w.activate tid id)
    | _ => none
  | .remove tid id => if (w.calls tid).isIdle then some (w.setCall tid (.taking id)) else none
  | .take tid =>
    match w.calls tid with
    | .taking id => some ({ w with registry := close w.registry id }.setCall tid .checking)
    | _ => none
  | .check tid =>
    match w.calls tid with
    | .checking => some (w.setCall tid
        (if w.registry.ActiveID ≠ 0 then .returned none else .listing))
    | _ => none
  | .list tid =>
    match w.calls tid with
    | .listing => some (w.setCall tid (.offering (ids w.registry)))
    | _ => none
  | .offer tid =>
    match w.calls tid with
    | .offering ids => some (w.offer tid ids)
    | _ => none
  | .closeAll tid => if (w.calls tid).isIdle then some (w.setCall tid .takingAll) else none
  | .takeAll tid =>
    match w.calls tid with
    | .takingAll => some ({ w with registry := ⟨∅, 0⟩ }.setCall tid (.returned none))
    | _ => none

def runtime : System Runtime Label where
  Init w := w = .new
  Step w label v := w.step label = some v

/-- A profile that is connected has an id, as every stored one has. -/
def Numbered (_ : Runtime) : Label → Prop
  | .connect _ id => id ≠ 0
  | _ => True

abbrev Run (w : Runtime) : Prop := Reachable (runtime.guard Numbered) w

/-! ### What calls have still to offer -/

/-- What a call will yet make the active connection, if nothing else is by then. -/
def Call.Offers (id : Int) : Call → Prop
  | .settingActive other => other = id
  | .checking | .listing => True
  | .offering ids => id ∈ ids
  | _ => False

def Covered (w : Runtime) (id : Int) : Prop := ∃ tid, (w.calls tid).Offers id

/-- The id a call is for. -/
def Call.connects : Call → Option Int
  | .dialing id | .storing id | .settingActive id => some id
  | _ => none

structure Runtime.Inv (w : Runtime) : Prop where
  numbered : ∀ tid id, (w.calls tid).connects = some id → id ≠ 0
  stored : ∀ id ∈ w.registry.conns, id ≠ 0
  active : w.registry.activeID = 0 ∨ w.registry.activeID ∈ w.registry.conns
  covered : w.registry.activeID = 0 → ∀ id ∈ w.registry.conns, Covered w id

variable {w v : Runtime} {tid : ℕ} {label : Label} {id : Int}

theorem calls_setCall (w : Runtime) (tid : ℕ) (call : Call) :
    (w.setCall tid call).calls tid = call := Function.update_self ..

theorem calls_setCall_of_ne (w : Runtime) {i : ℕ} (call : Call) (h : i ≠ tid) :
    (w.setCall tid call).calls i = w.calls i := Function.update_of_ne h ..

/-- A call moves on with the registry: what it offered and no longer does is not open or not
needed. -/
theorem Runtime.Inv.move (h : w.Inv) (registry : Registry) (opened : ℕ) {call : Call}
    (hnumbered : ∀ id, call.connects = some id → id ≠ 0)
    (hstored : ∀ id ∈ registry.conns, id ∈ w.registry.conns ∨ call.connects = some id)
    (hactive : registry.activeID = 0 ∨ registry.activeID ∈ registry.conns)
    (hcovered : registry.activeID = 0 → ∀ id ∈ registry.conns, call.Offers id ∨
      (w.registry.activeID = 0 ∧ id ∈ w.registry.conns ∧ ¬ (w.calls tid).Offers id)) :
    ({ w with registry := registry, opened := opened }.setCall tid call).Inv := by
  have hself := calls_setCall { w with registry := registry, opened := opened } tid call
  refine ⟨fun i id hi => ?_, fun id hid => ?_, hactive, fun hzero id hid => ?_⟩
  · by_cases hit : i = tid
    · subst hit
      rw [hself] at hi
      exact hnumbered id hi
    · rw [calls_setCall_of_ne _ call hit] at hi
      exact h.numbered i id hi
  · rcases hstored id hid with hold | hnew
    · exact h.stored id hold
    · exact hnumbered id hnew
  · rcases hcovered hzero id hid with hoffers | ⟨hold, hmem, hnot⟩
    · exact ⟨tid, hself.symm ▸ hoffers⟩
    · obtain ⟨i, hi⟩ := h.covered hold id hmem
      have hit : i ≠ tid := by
        rintro rfl
        exact hnot hi
      exact ⟨i, (calls_setCall_of_ne _ call hit).symm ▸ hi⟩

/-- A call moves on, the registry is as it was and everything it offered is offered still. -/
theorem Runtime.Inv.stay (h : w.Inv) {call : Call}
    (hnumbered : ∀ id, call.connects = some id → id ≠ 0)
    (hoffers : ∀ id ∈ w.registry.conns, w.registry.activeID = 0 → (w.calls tid).Offers id →
      call.Offers id) : (w.setCall tid call).Inv := by
  refine h.move w.registry w.opened hnumbered (fun _ hid => Or.inl hid)
    h.active fun hzero id hid => ?_
  by_cases ho : (w.calls tid).Offers id
  · exact Or.inl (hoffers id hid hzero ho)
  · exact Or.inr ⟨hzero, hid, ho⟩

theorem setActive_cases (r : Registry) (id : Int) :
    (id ∈ r.conns ∧ setActive r id = some { r with activeID := id }) ∨
      (id ∉ r.conns ∧ setActive r id = none) := by
  unfold setActive
  split
  · exact Or.inl ⟨‹_›, rfl⟩
  · exact Or.inr ⟨‹_›, rfl⟩

/-- A connection that is open is made the active one. -/
theorem Runtime.Inv.setActive (h : w.Inv) (hid : id ∈ w.registry.conns) {call : Call}
    (hnumbered : ∀ id, call.connects = some id → id ≠ 0) :
    ({ w with registry.activeID := id }.setCall tid call).Inv :=
  h.move _ w.opened hnumbered (fun _ ho => Or.inl ho) (Or.inr hid)
    fun hzero => absurd hzero (h.stored _ hid)

/-- **Every step keeps the invariant.** -/
theorem Runtime.Inv.step (h : w.Inv) (hn : Numbered w label) (hs : w.step label = some v) :
    v.Inv := by
  cases label with
  | connect tid id =>
    simp only [Runtime.step] at hs
    split at hs
    · rename_i hidle
      obtain rfl := Option.some.inj hs
      refine h.stay (fun other ho => ?_) fun other _ _ ho => ?_
      · obtain rfl := Option.some.inj ho
        exact hn
      · rw [eq_idle_of_isIdle hidle] at ho
        cases ho
    · cases hs
  | remove tid id | closeAll tid =>
    simp only [Runtime.step] at hs
    split at hs
    · rename_i hidle
      obtain rfl := Option.some.inj hs
      refine h.stay nofun fun other _ _ ho => ?_
      rw [eq_idle_of_isIdle hidle] at ho
      cases ho
    · cases hs
  | dial tid err =>
    simp only [Runtime.step] at hs
    split at hs
    · rename_i id hcall
      obtain rfl := Option.some.inj hs
      have hid := h.numbered tid id (by rw [hcall]; rfl)
      cases err with
      | some err => exact h.stay nofun fun other _ _ ho => by rw [hcall] at ho; exact ho
      | none =>
        refine h.stay (fun other ho => ?_) fun other _ _ ho => by rw [hcall] at ho; exact ho
        obtain rfl := Option.some.inj ho
        exact hid
    · cases hs
  | store tid =>
    simp only [Runtime.step] at hs
    split at hs
    · rename_i id hcall
      obtain rfl := Option.some.inj hs
      have hid := h.numbered tid id (by rw [hcall]; rfl)
      have hmem : ∀ other, other ∈ (openAs w.registry id w.opened).conns →
          other = id ∨ other ∈ w.registry.conns := by
        intro other ho
        rcases ExtTreeMap.mem_insert.mp ho with heq | hold
        · exact Or.inl (Std.compare_eq_iff_eq.mp heq).symm
        · exact Or.inr hold
      refine h.move _ _ (fun other ho => ?_) (fun other ho => ?_) ?_ fun hzero other ho => ?_
      · obtain rfl := Option.some.inj ho
        exact hid
      · rcases hmem other ho with rfl | hold
        · exact Or.inr rfl
        · exact Or.inl hold
      · exact h.active.imp_right fun ha => ExtTreeMap.mem_insert.mpr (Or.inr ha)
      · rcases hmem other ho with rfl | hold
        · exact Or.inl rfl
        · exact Or.inr ⟨hzero, hold, by rw [hcall]; exact fun ho => ho⟩
    · cases hs
  | activate tid =>
    simp only [Runtime.step] at hs
    split at hs
    · rename_i id hcall
      obtain rfl := Option.some.inj hs
      unfold Runtime.activate
      rcases setActive_cases w.registry id with ⟨hid, heq⟩ | ⟨hid, heq⟩
      · rw [heq]
        exact h.setActive hid nofun
      · rw [heq]
        refine h.stay nofun fun other ho _ hoffers => ?_
        rw [hcall] at hoffers
        obtain rfl : id = other := hoffers
        exact absurd ho hid
    · cases hs
  | take tid =>
    simp only [Runtime.step] at hs
    split at hs
    · rename_i id hcall
      obtain rfl := Option.some.inj hs
      refine h.move _ w.opened nofun (fun other ho => ?_) ?_ fun _ _ _ => Or.inl trivial
      · exact Or.inl (ExtTreeMap.mem_of_mem_erase ho)
      · change (if w.registry.activeID = id then 0 else w.registry.activeID) = 0 ∨
          (if w.registry.activeID = id then 0 else w.registry.activeID) ∈ w.registry.conns.erase id
        split
        · exact Or.inl rfl
        · rename_i hne
          refine h.active.imp_right fun ha => ExtTreeMap.mem_erase.mpr ⟨fun he => ?_, ha⟩
          exact hne (Std.compare_eq_iff_eq.mp he).symm
    · cases hs
  | check tid =>
    simp only [Runtime.step] at hs
    split at hs
    · rename_i hcall
      obtain rfl := Option.some.inj hs
      split
      · rename_i hne
        refine h.stay nofun fun other _ hzero _ => absurd ?_ hne
        rw [Registry.ActiveID, hzero]
        split <;> rfl
      · exact h.stay nofun fun _ _ _ _ => trivial
    · cases hs
  | list tid =>
    simp only [Runtime.step] at hs
    split at hs
    · obtain rfl := Option.some.inj hs
      exact h.stay nofun fun other ho _ _ => ExtTreeMap.mem_keys.mpr ho
    · cases hs
  | offer tid =>
    simp only [Runtime.step] at hs
    split at hs
    · rename_i ids hcall
      obtain rfl := Option.some.inj hs
      cases ids with
      | nil => exact h.stay nofun fun other _ _ ho => by rw [hcall] at ho; cases ho
      | cons id rest =>
        unfold Runtime.offer
        dsimp only
        rcases setActive_cases w.registry id with ⟨hid, heq⟩ | ⟨hid, heq⟩
        · rw [heq]
          exact h.setActive hid nofun
        · rw [heq]
          refine h.stay nofun fun other ho _ hoffers => ?_
          rw [hcall] at hoffers
          rcases List.mem_cons.mp hoffers with rfl | hrest
          · exact absurd ho hid
          · exact hrest
    · cases hs
  | takeAll tid =>
    simp only [Runtime.step] at hs
    split at hs
    · obtain rfl := Option.some.inj hs
      exact h.move _ w.opened nofun (fun other ho => by simp at ho) (Or.inl rfl)
        fun _ other ho => by simp at ho
    · cases hs

theorem Run.inv (h : Run w) : w.Inv :=
  Reachable.inv (S := runtime.guard Numbered) (P := Runtime.Inv)
    (fun s hs => by
      obtain rfl : s = .new := hs
      exact ⟨nofun, by simp [Runtime.new], Or.inl rfl, by simp [Runtime.new]⟩)
    (fun _ _ _ hw hs => hw.step hs.2 hs.1) h

/-- No call is under way. -/
def Quiet (w : Runtime) : Prop := ∀ tid, w.calls tid = .idle ∨ ∃ err, w.calls tid = .returned err

/-- **Whatever is open, something open is sampled**: with no call under way the active connection
is open, unless none is. -/
theorem active_is_open (h : Run w) (hq : Quiet w) :
    (w.registry.conns = ∅ ∧ w.registry.ActiveID = 0) ∨
      (w.registry.ActiveID ≠ 0 ∧ w.registry.ActiveID ∈ w.registry.conns) := by
  have hinv := h.inv
  have huncovered : ∀ id, ¬ Covered w id := by
    rintro id ⟨tid, ho⟩
    rcases hq tid with hidle | ⟨err, hreturned⟩
    · rw [hidle] at ho
      exact ho
    · rw [hreturned] at ho
      exact ho
  by_cases hempty : w.registry.conns = ∅
  · refine Or.inl ⟨hempty, ?_⟩
    rw [Registry.ActiveID, hempty, if_neg (by simp)]
  · right
    have hmem : w.registry.activeID ∈ w.registry.conns := by
      refine hinv.active.resolve_left fun hzero => hempty ?_
      by_contra hne
      obtain ⟨id, conn, hid⟩ := ne_empty_iff.mp hne
      have hopen : id ∈ w.registry.conns :=
        ExtTreeMap.mem_iff_isSome_getElem?.mpr (by rw [hid]; rfl)
      exact huncovered id (hinv.covered hzero id hopen)
    rw [Registry.ActiveID, if_pos hmem]
    exact ⟨hinv.stored _ hmem, hmem⟩

theorem Run.system_call (h : Run w) (label : Label) (hn : Numbered w label)
    (hs : w.step label = some v) : Run v := Reachable.step h ⟨hs, hn⟩

/-- Two connections are opened, and the one that was opened last is closed. -/
theorem handed_over : ∃ w, Run w ∧ ((w.registry.conns = ∅ ∧ w.registry.ActiveID = 0) ∨
    (w.registry.ActiveID ≠ 0 ∧ w.registry.ActiveID ∈ w.registry.conns)) ∧
    w.registry.ActiveID = 1 := by
  have h0 : Run .new := .init rfl
  have h1 := h0.system_call (.connect 0 1) one_ne_zero rfl
  have h2 := h1.system_call (.dial 0 none) trivial rfl
  have h3 := h2.system_call (.store 0) trivial rfl
  have h4 := h3.system_call (.activate 0) trivial rfl
  have h5 := h4.system_call (.connect 1 2) two_ne_zero rfl
  have h6 := h5.system_call (.dial 1 none) trivial rfl
  have h7 := h6.system_call (.store 1) trivial rfl
  have h8 := h7.system_call (.activate 1) trivial rfl
  have h9 := h8.system_call (.remove 2 2) trivial rfl
  have h10 := h9.system_call (.take 2) trivial rfl
  have h11 := h10.system_call (.check 2) trivial rfl
  have h12 := h11.system_call (.list 2) trivial rfl
  have h13 := h12.system_call (.offer 2) trivial rfl
  refine ⟨_, h13, active_is_open h13 fun tid => ?_, by decide⟩
  match tid with
  | 0 | 1 | 2 => exact Or.inr ⟨_, rfl⟩
  | n + 3 => exact Or.inl rfl

end MqStudio.App
