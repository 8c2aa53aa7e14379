import MqStudio.Lib.Transition

/-!
# The RabbitMQ data plane

`rabbitmq/amqp.go`: the message operations of one profile share an AMQP connection, which is
dialled when one needs it and closed 90 seconds after the last one is done.

* `World.step`: the critical sections of the operations, of the timers and of `close`, in any
  order.
* `World.Safe`: an idle timer closes no connection that an operation holds, and none stays open
  when no operation and no timer is left.
* `close` sets the count to zero under the operations that hold the old connection, and their
  `release` then takes the place of one that holds the new one (`late_release_closes_connection`).
  `safe_of_counted` is about the runs without such a release.
-/

namespace MqStudio.Rabbitmq.Pool

open Lib.Transition

/-! ### The pool and its operations -/

/-- A connection that an operation acquired, and how often the pool was closed before. -/
structure Hold where
  conn : Nat
  epoch : Nat
  deriving DecidableEq

inductive PoolError where
  | dial (text : String)
  | staleConnection (text : String)
  | operation (text : String)

/-- Where `withChannel` is, on its first try or on its second. -/
inductive Stage where
  | acquiring (retried : Bool)
  | opening (hold : Hold) (retried : Bool)
  | discarding (hold : Hold) (retried : Bool) (text : String)
  | failed (hold : Hold) (retried : Bool) (text : String)
  | running (hold : Hold)
  | returned (err : Option PoolError)

/-- What an operation has acquired and not released. -/
def Stage.hold : Stage → Option Hold
  | .opening hold _ | .discarding hold _ _ | .failed hold _ _ | .running hold => some hold
  | .acquiring _ | .returned _ => none

/-- `conn`, `active` and `idle` are the fields of the pool.  Connections and timers are numbered;
a timer is `armed`, or its function has been started and waits for the lock (`fired`).  `closes`
counts the calls of `close`. -/
structure World where
  conn : Option Nat
  active : Nat
  idle : Option Nat
  dialled : Nat
  openConns : List Nat
  timers : Nat
  armed : List Nat
  fired : List Nat
  closes : Nat
  operations : List Stage

def World.new : World where
  conn := none
  active := 0
  idle := none
  dialled := 0
  openConns := []
  timers := 0
  armed := []
  fired := []
  closes := 0
  operations := []

inductive Label where
  | begin
  | acquire (i : Nat) (err : Option String)
  | openChannel (i : Nat) (err : Option String)
  | discard (i : Nat)
  | release (i : Nat) (err : Option String)
  | expire (timer : Nat)
  | closeIfIdle (timer : Nat)
  | close
  /-- The broker or the network ends a connection. -/
  | die (conn : Nat)

/-- A timer whose function has been started is not stopped. -/
def World.stopIdle (w : World) : World :=
  match w.idle with
  | some timer => { w with armed := w.armed.filter (· ≠ timer), idle := none }
  | none => w

def World.closeConn (w : World) : World :=
  match w.conn with
  | some conn => { w with openConns := w.openConns.filter (· ≠ conn), conn := none }
  | none => w

/-- The pooled connection, if it is not closed. -/
def World.usable (w : World) : Option Nat := w.conn.filter (· ∈ w.openConns)

def World.acquire (w : World) (err : Option String) : World × Except PoolError Hold :=
  let w := w.stopIdle
  match w.usable, err with
  | some conn, _ => ({ w with active := w.active + 1 }, .ok ⟨conn, w.closes⟩)
  | none, some err => (w, .error (.dial err))
  | none, none =>
    ({ w with
        conn := some w.dialled
        active := w.active + 1
        dialled := w.dialled + 1
        openConns := w.dialled :: w.openConns },
      .ok ⟨w.dialled, w.closes⟩)

def World.release (w : World) : World :=
  let active := w.active - 1
  if 0 < active ∨ w.conn = none then { w with active := active }
  else { w with
    active := active
    idle := some w.timers
    timers := w.timers + 1
    armed := w.timers :: w.armed }

def World.closeIfIdle (w : World) : World := if 0 < w.active then w else w.closeConn

def World.discard (w : World) (dead : Nat) : World :=
  if w.conn = some dead then w.closeConn else w

def World.close (w : World) : World :=
  { w.stopIdle.closeConn with active := 0, closes := w.closes + 1 }

def World.put (w : World) (i : Nat) (stage : Stage) : World :=
  { w with operations := w.operations.set i stage }

def World.step (w : World) : Label → Option World
  | .begin => some { w with operations := w.operations ++ [.acquiring false] }
  | .acquire i err =>
    match w.operations[i]? with
    | some (.acquiring retried) =>
      match w.acquire err with
      | (v, .ok hold) => some (v.put i (.opening hold retried))
      | (v, .error err) => some (v.put i (.returned (some err)))
    | _ => none
  | .openChannel i err =>
    match w.operations[i]?, err with
    | some (.opening hold retried), some text => some (w.put i (.discarding hold retried text))
    | some (.opening hold _), none =>
      if hold.conn ∈ w.openConns then some (w.put i (.running hold)) else none
    | _, _ => none
  | .discard i =>
    match w.operations[i]? with
    | some (.discarding hold retried text) =>
      some ((w.discard hold.conn).put i (.failed hold retried text))
    | _ => none
  | .release i err =>
    match w.operations[i]? with
    | some (.failed _ retried text) =>
      -- A connection that died since it was last used is worth one retry.
      some (w.release.put i (if retried then .returned (some (.staleConnection text))
        else .acquiring true))
    | some (.running _) => some (w.release.put i (.returned (err.map .operation)))
    | _ => none
  | .expire timer =>
    if timer ∈ w.armed then
      some { w with armed := w.armed.filter (· ≠ timer), fired := timer :: w.fired }
    else none
  | .closeIfIdle timer =>
    if timer ∈ w.fired then
      some ({ w with fired := w.fired.filter (· ≠ timer) }).closeIfIdle
    else none
  | .close => some w.close
  | .die conn => some { w with openConns := w.openConns.filter (· ≠ conn) }

def pool : System World Label where
  Init w := w = World.new
  Step w label v := w.step label = some v

/-- An operation has acquired a connection and not released it. -/
def World.Holds (w : World) (hold : Hold) : Prop := ∃ stage ∈ w.operations, stage.hold = some hold

def World.holders (w : World) : Nat := w.operations.countP fun stage => stage.hold.isSome

structure World.Safe (w : World) : Prop where
  /-- An idle timer that runs now closes no connection under an operation. -/
  held : ∀ timer v, w.step (.closeIfIdle timer) = some v →
    ∀ hold, w.Holds hold → hold.conn ∈ w.openConns → hold.conn ∈ v.openConns
  /-- When every operation has released and every armed timer has fired, nothing is left open. -/
  quiet : w.holders = 0 → w.armed = [] → w.fired = [] → w.openConns = []

/-- An operation that acquired its connection before a `close` releases it only while no operation
that acquired one since is counted. -/
def Counted (w : World) : Label → Prop
  | .release i _ => ∀ stage ∈ w.operations[i]?, ∀ hold ∈ stage.hold,
      hold.epoch ≠ w.closes → w.active = 0
  | _ => True

instance (w : World) (label : Label) : Decidable (Counted w label) := by
  cases label <;> unfold Counted <;> infer_instance

/-! ### Every run -/

/-- The operations that acquired a connection since the last `close`. -/
def World.current (w : World) : Nat :=
  w.operations.countP fun stage => stage.hold.any fun hold => hold.epoch = w.closes

structure World.Sound (w : World) : Prop where
  fresh : ∀ conn ∈ w.openConns, conn < w.dialled
  pooled : ∀ conn ∈ w.openConns, w.conn = some conn
  held : ∀ hold, w.Holds hold → hold.conn < w.dialled ∧ hold.epoch ≤ w.closes
  /-- `close` has closed the connections that were acquired before it. -/
  stale : ∀ hold, w.Holds hold → hold.epoch ≠ w.closes → hold.conn ∉ w.openConns
  count : w.active ≤ w.holders
  pending : w.holders = 0 → w.openConns ≠ [] → w.armed ≠ [] ∨ w.fired ≠ []

variable {w v : World} {i : Nat} {stage stage' : Stage} {hold : Hold} {retried : Bool}

theorem sound_new : World.new.Sound where
  fresh := nofun
  pooled := nofun
  held := nofun
  stale := nofun
  count := le_rfl
  pending _ h := absurd rfl h

/-! ### One operation goes on -/

/-- Counting after one entry of a list was replaced. -/
theorem countP_set_add (p : Stage → Bool) (stage' : Stage) {stages : List Stage}
    (h : stages[i]? = some stage) : (stages.set i stage').countP p + (if p stage then 1 else 0) =
      stages.countP p + (if p stage' then 1 else 0) := by
  obtain ⟨hi, rfl⟩ := List.getElem?_eq_some_iff.mp h
  rw [List.countP_set hi]
  have hpos : p stages[i] = true → 0 < stages.countP p := fun hp =>
    List.countP_pos_iff.mpr ⟨_, List.getElem_mem hi, hp⟩
  split <;> rename_i hp
  · have := hpos hp
    omega
  · omega

theorem World.holders_pos (h : w.Holds hold) : 0 < w.holders := by
  obtain ⟨stage, hmem, hstage⟩ := h
  exact List.countP_pos_iff.mpr ⟨stage, hmem, by simp [hstage]⟩

theorem World.current_pos (h : w.Holds hold) (he : hold.epoch = w.closes) : 0 < w.current := by
  obtain ⟨stage, hmem, hstage⟩ := h
  exact List.countP_pos_iff.mpr ⟨stage, hmem, by simp [hstage, he]⟩

/-- A step that leaves `closes` as it is: what is open was open or has just been dialled, and what
is held was held or has just been acquired. -/
theorem World.Sound.goesOn (h : w.Sound) (hcloses : v.closes = w.closes)
    (hdialled : w.dialled ≤ v.dialled)
    (hopen : ∀ conn ∈ v.openConns, conn ∈ w.openConns ∨ w.dialled ≤ conn ∧ conn < v.dialled)
    (hpooled : ∀ conn ∈ v.openConns, v.conn = some conn)
    (hholds : ∀ hold, v.Holds hold →
      w.Holds hold ∨ hold.conn < v.dialled ∧ hold.epoch = w.closes)
    (hcount : v.active ≤ v.holders)
    (hpending : v.holders = 0 → v.openConns ≠ [] → v.armed ≠ [] ∨ v.fired ≠ []) : v.Sound := by
  refine ⟨fun conn hc => ?_, hpooled, fun hold hh => ?_, fun hold hh he hc => ?_, hcount, hpending⟩
  · exact (hopen conn hc).elim (fun hc => (h.fresh conn hc).trans_le hdialled) And.right
  · rw [hcloses]
    rcases hholds hold hh with hh | hnew
    · exact ⟨(h.held hold hh).1.trans_le hdialled, (h.held hold hh).2⟩
    · exact ⟨hnew.1, hnew.2.le⟩
  · rw [hcloses] at he
    rcases hholds hold hh with hh | hnew
    · rcases hopen _ hc with hc | hc
      · exact h.stale hold hh he hc
      · exact absurd (h.held hold hh).1 (not_lt.mpr hc.1)
    · exact he hnew.2

/-! ### The critical sections -/

theorem stopIdle_eq (w : World) :
    ∃ armed idle, w.stopIdle = { w with armed := armed, idle := idle } := by
  unfold World.stopIdle
  split
  · exact ⟨_, _, rfl⟩
  · exact ⟨w.armed, w.idle, rfl⟩

/-- What `acquire` does: the pooled connection is taken if it is open, else one is dialled. -/
theorem World.Sound.acquire_cases (h : w.Sound) (err : Option String) : ∃ armed idle,
    (w.openConns = [] ∧ ∃ e,
      w.acquire err = ({ w with armed := armed, idle := idle }, .error e)) ∨
    (∃ conn ∈ w.openConns, w.acquire err =
      ({ w with armed := armed, idle := idle, active := w.active + 1 },
        .ok ⟨conn, w.closes⟩)) ∨
    (w.openConns = [] ∧ w.acquire err =
      ({ w with armed := armed, idle := idle, active := w.active + 1, conn := some w.dialled,
                dialled := w.dialled + 1, openConns := [w.dialled] },
        .ok ⟨w.dialled, w.closes⟩)) := by
  obtain ⟨armed, idle, hstop⟩ := stopIdle_eq w
  refine ⟨armed, idle, ?_⟩
  unfold World.acquire
  rw [hstop]
  have hnone : w.usable = none → w.openConns = [] := by
    intro hu
    refine List.eq_nil_iff_forall_not_mem.mpr fun conn hc => ?_
    simp [World.usable, h.pooled conn hc, hc] at hu
  cases hu : w.usable with
  | some conn =>
    have hmem : conn ∈ w.openConns := by
      have := Option.filter_eq_some_iff.mp hu
      simpa using this.2
    refine Or.inr (Or.inl ⟨conn, hmem, ?_⟩)
    simp only [World.usable] at hu ⊢
    rw [hu]
  | none =>
    have hempty := hnone hu
    cases err with
    | some err =>
      refine Or.inl ⟨hempty, .dial err, ?_⟩
      simp only [World.usable] at hu ⊢
      rw [hu]
    | none =>
      refine Or.inr (Or.inr ⟨hempty, ?_⟩)
      simp only [World.usable] at hu ⊢
      rw [hu, hempty]

/-- Closing the pooled connection leaves none open. -/
theorem closeConn_eq (h : ∀ conn ∈ w.openConns, w.conn = some conn) :
    w.closeConn = { w with openConns := [], conn := none } := by
  unfold World.closeConn
  cases hconn : w.conn with
  | some conn =>
    have hempty : w.openConns.filter (· ≠ conn) = [] := by
      refine List.filter_eq_nil_iff.mpr fun other hother => ?_
      have hsame : other = conn := Option.some.inj ((h other hother).symm.trans hconn)
      simp [hsame]
    simp only [hempty]
  | none =>
    have hempty : w.openConns = [] := by
      refine List.eq_nil_iff_forall_not_mem.mpr fun other hother => ?_
      cases hconn.symm.trans (h other hother)
    simp only [← hempty, ← hconn]

/-- **One operation goes on** to `stage'`, after a critical section that made `v` of the pool. -/
theorem World.Sound.put (h : w.Sound) (hop : w.operations[i]? = some stage)
    (hops : v.operations = w.operations) (hcloses : v.closes = w.closes)
    (hdialled : w.dialled ≤ v.dialled)
    (hopen : ∀ conn ∈ v.openConns, conn ∈ w.openConns ∨ w.dialled ≤ conn ∧ conn < v.dialled)
    (hpooled : ∀ conn ∈ v.openConns, v.conn = some conn)
    (hhold : ∀ hold, stage'.hold = some hold →
      stage.hold = some hold ∨ hold.conn < v.dialled ∧ hold.epoch = w.closes)
    (hcount : v.active + (if stage.hold.isSome then 1 else 0) ≤
      w.holders + if stage'.hold.isSome then 1 else 0)
    (hpending : stage'.hold = none → v.active = 0 → v.openConns ≠ [] →
      v.armed ≠ [] ∨ v.fired ≠ []) : (v.put i stage').Sound := by
  have hmem : stage ∈ w.operations := List.mem_of_getElem? hop
  have hactive : v.active ≤ (v.put i stage').holders := by
    have := countP_set_add (fun stage => stage.hold.isSome) stage' hop
    simp only [World.holders, World.put, hops] at hcount ⊢
    omega
  refine h.goesOn hcloses hdialled hopen hpooled ?_ hactive fun hnone => ?_
  · rintro hold ⟨other, hother, hhold'⟩
    simp only [World.put, hops] at hother
    rcases List.mem_or_eq_of_mem_set hother with hother | rfl
    · exact Or.inl ⟨other, hother, hhold'⟩
    · exact (hhold hold hhold').imp_left fun hs => ⟨stage, hmem, hs⟩
  · refine hpending ?_ (Nat.le_zero.mp (hnone ▸ hactive))
    by_contra hs
    obtain ⟨hold, hs⟩ := Option.ne_none_iff_exists'.mp hs
    obtain ⟨hi, -⟩ := List.getElem?_eq_some_iff.mp hop
    have hholds : (v.put i stage').Holds hold :=
      ⟨stage', List.mem_set (hops ▸ hi) _, hs⟩
    exact absurd hnone (World.holders_pos hholds).ne'

/-- An operation that changes nothing of the pool. -/
theorem World.Sound.put_self (h : w.Sound) (hop : w.operations[i]? = some stage)
    (hs : stage.hold = some hold) (hs' : stage'.hold = some hold) : (w.put i stage').Sound := by
  refine h.put hop rfl rfl le_rfl (fun conn hc => Or.inl hc) h.pooled (fun other ho => ?_) ?_ ?_
  · exact Or.inl (hs.trans (hs'.symm.trans ho))
  · have := h.count
    simpa [hs, hs'] using this
  · intro hnone
    exact absurd (hs'.symm.trans hnone) (by simp)

theorem World.Sound.discard (h : w.Sound) (hop : w.operations[i]? = some stage)
    (hs : stage.hold = some hold) (hs' : stage'.hold = some hold) :
    ((w.discard hold.conn).put i stage').Sound := by
  unfold World.discard
  split
  · rw [closeConn_eq h.pooled]
    refine h.put hop rfl rfl le_rfl nofun nofun (fun other ho => ?_) ?_ ?_
    · exact Or.inl (hs.trans (hs'.symm.trans ho))
    · have := h.count
      simpa [hs, hs'] using this
    · intro hnone
      exact absurd (hs'.symm.trans hnone) (by simp)
  · exact h.put_self hop hs hs'

/-- Whoever releases last leaves a timer behind, or no connection. -/
theorem World.Sound.release (h : w.Sound) (hop : w.operations[i]? = some stage)
    (hs : stage.hold = some hold) (hs' : stage'.hold = none) :
    (w.release.put i stage').Sound := by
  have hpos : 0 < w.holders := World.holders_pos ⟨stage, List.mem_of_getElem? hop, hs⟩
  have hcount := h.count
  unfold World.release
  simp only
  split
  · rename_i hstay
    refine h.put hop rfl rfl le_rfl (fun conn hc => Or.inl hc) h.pooled (by simp [hs']) ?_ ?_
    · simp only [hs, hs', Option.isSome_some, Option.isSome_none, ite_true, Bool.false_eq_true,
        ite_false]
      omega
    · intro _ hzero hne
      obtain ⟨conn, hc⟩ := List.exists_mem_of_ne_nil _ hne
      have hconn := h.pooled conn hc
      simp only at hzero
      rcases hstay with hlt | hnone
      · omega
      · rw [hconn] at hnone
        cases hnone
  · refine h.put hop rfl rfl le_rfl (fun conn hc => Or.inl hc) h.pooled (by simp [hs']) ?_ ?_
    · simp only [hs, hs', Option.isSome_some, Option.isSome_none, ite_true, Bool.false_eq_true,
        ite_false]
      omega
    · intro _ _ _
      exact Or.inl (by simp)

/-- A timer runs late or in time: under an operation that is counted it closes nothing. -/
theorem World.Sound.closeIfIdle (h : w.Sound) (fired : List Nat) :
    ({ w with fired := fired }).closeIfIdle.Sound := by
  unfold World.closeIfIdle
  have hcount := h.count
  split
  · rename_i hactive
    refine h.goesOn rfl le_rfl (fun conn hc => Or.inl hc) h.pooled (fun hold hh => Or.inl hh)
      hcount ?_
    intro hzero
    change 0 < w.active at hactive
    change w.holders = 0 at hzero
    omega
  · rw [closeConn_eq (w := { w with fired := fired }) h.pooled]
    exact h.goesOn rfl le_rfl nofun nofun (fun hold hh => Or.inl hh) hcount
      fun _ hne => absurd rfl hne

theorem World.Sound.close (h : w.Sound) : w.close.Sound := by
  obtain ⟨armed, idle, hstop⟩ := stopIdle_eq w
  unfold World.close
  rw [hstop, closeConn_eq (w := { w with armed := armed, idle := idle }) h.pooled]
  refine ⟨nofun, nofun, fun hold hh => ?_, fun _ _ _ => nofun, Nat.zero_le _,
    fun _ hne => absurd rfl hne⟩
  exact ⟨(h.held hold hh).1, (h.held hold hh).2.trans (Nat.le_succ _)⟩

theorem World.Sound.acquire (h : w.Sound) (hop : w.operations[i]? = some (.acquiring retried))
    {err : Option String} :
    (∀ u hold, w.acquire err = (u, .ok hold) → (u.put i (.opening hold retried)).Sound) ∧
      ∀ u e, w.acquire err = (u, .error e) → (u.put i (.returned (some e))).Sound := by
  have hcount := h.count
  obtain ⟨armed, idle, ⟨hempty, e, he⟩ | ⟨conn, hmem, he⟩ | ⟨hempty, he⟩⟩ := h.acquire_cases err
  · refine ⟨fun u hold hu => (nomatch (he.symm.trans hu)), fun u e' hu => ?_⟩
    obtain ⟨rfl, he'⟩ := Prod.mk.inj (he.symm.trans hu)
    refine h.put hop rfl rfl le_rfl (fun conn hc => Or.inl hc) h.pooled nofun ?_ ?_
    · simpa [Stage.hold] using hcount
    · intro _ _ hne
      exact absurd hempty hne
  · refine ⟨fun u hold hu => ?_, fun u e' hu => (nomatch (he.symm.trans hu))⟩
    obtain ⟨rfl, hok⟩ := Prod.mk.inj (he.symm.trans hu)
    obtain rfl := Except.ok.inj hok
    refine h.put hop rfl rfl le_rfl (fun conn hc => Or.inl hc) h.pooled ?_ ?_ nofun
    · intro hold hhold
      obtain rfl := Option.some.inj hhold
      exact Or.inr ⟨h.fresh conn hmem, rfl⟩
    · simpa [Stage.hold] using hcount
  · refine ⟨fun u hold hu => ?_, fun u e' hu => (nomatch (he.symm.trans hu))⟩
    obtain ⟨rfl, hok⟩ := Prod.mk.inj (he.symm.trans hu)
    obtain rfl := Except.ok.inj hok
    refine h.put hop rfl rfl (Nat.le_succ _) ?_ ?_ ?_ ?_ nofun
    · intro conn hc
      obtain rfl := List.mem_singleton.mp hc
      exact Or.inr ⟨le_rfl, Nat.lt_succ_self _⟩
    · intro conn hc
      rw [List.mem_singleton.mp hc]
    · intro hold hhold
      obtain rfl := Option.some.inj hhold
      exact Or.inr ⟨Nat.lt_succ_self _, rfl⟩
    · simpa [Stage.hold] using hcount

theorem sound_step (h : w.Sound) {label : Label} (hs : w.step label = some v) : v.Sound := by
  cases label with
  | begin =>
    obtain rfl := Option.some.inj hs
    have hholders : ({ w with operations := w.operations ++ [Stage.acquiring false] }).holders =
        w.holders := by
      simp [World.holders, Stage.hold]
    refine h.goesOn rfl le_rfl (fun conn hc => Or.inl hc) h.pooled ?_ (hholders ▸ h.count)
      (hholders ▸ h.pending)
    rintro hold ⟨stage, hmem, hhold⟩
    rcases List.mem_append.mp hmem with hmem | hmem
    · exact Or.inl ⟨stage, hmem, hhold⟩
    · rw [List.mem_singleton.mp hmem] at hhold
      cases hhold
  | acquire i err =>
    simp only [World.step] at hs
    split at hs
    · rename_i retried hop
      split at hs
      · rename_i u hold hu
        exact Option.some.inj hs ▸ (h.acquire hop).1 u hold hu
      · rename_i u e hu
        exact Option.some.inj hs ▸ (h.acquire hop).2 u e hu
    · cases hs
  | openChannel i err =>
    simp only [World.step] at hs
    split at hs
    · rename_i hold retried text hop
      exact Option.some.inj hs ▸ h.put_self hop rfl rfl
    · rename_i hold retried hop
      split at hs
      · exact Option.some.inj hs ▸ h.put_self hop rfl rfl
      · cases hs
    · cases hs
  | discard i =>
    simp only [World.step] at hs
    split at hs
    · rename_i hold retried text hop
      exact Option.some.inj hs ▸ h.discard hop rfl rfl
    · cases hs
  | release i err =>
    simp only [World.step] at hs
    split at hs
    · rename_i hold retried text hop
      exact Option.some.inj hs ▸ h.release hop rfl (by cases retried <;> rfl)
    · rename_i hold hop
      exact Option.some.inj hs ▸ h.release hop rfl rfl
    · cases hs
  | expire timer =>
    simp only [World.step] at hs
    split at hs
    · obtain rfl := Option.some.inj hs
      exact h.goesOn rfl le_rfl (fun conn hc => Or.inl hc) h.pooled (fun hold hh => Or.inl hh)
        h.count fun _ _ => Or.inr (by simp)
    · cases hs
  | closeIfIdle timer =>
    simp only [World.step] at hs
    split at hs
    · exact Option.some.inj hs ▸ h.closeIfIdle _
    · cases hs
  | close => exact Option.some.inj hs ▸ h.close
  | die conn =>
    obtain rfl := Option.some.inj hs
    refine h.goesOn rfl le_rfl (fun other ho => Or.inl (List.mem_filter.mp ho).1)
      (fun other ho => h.pooled other (List.mem_filter.mp ho).1) (fun hold hh => Or.inl hh) h.count
      fun hzero hne => h.pending hzero fun hempty => ?_
    simp [hempty] at hne

theorem sound_of_reachable (h : Reachable pool w) : w.Sound := by
  refine h.inv ?_ ?_
  · rintro w rfl
    exact sound_new
  · intro w label v hw hs
    exact sound_step hw hs

/-- **No connection is left open** in any run, `close` or not. -/
theorem quiet_of_reachable (h : Reachable pool w) (hholders : w.holders = 0) (harmed : w.armed = [])
    (hfired : w.fired = []) : w.openConns = [] := by
  by_contra hne
  exact ((sound_of_reachable h).pending hholders hne).elim (· harmed) (· hfired)

/-! ### The count -/

/-- The count is that of the operations since the last `close`. -/
def World.Exact (w : World) : Prop := w.active = w.current

theorem World.Exact.put (h : w.Exact) (hop : w.operations[i]? = some stage)
    (hops : v.operations = w.operations) (hcloses : v.closes = w.closes)
    (hcount : v.active + (if stage.hold.any fun hold => hold.epoch = w.closes then 1 else 0) =
      w.active + if stage'.hold.any fun hold => hold.epoch = w.closes then 1 else 0) :
    (v.put i stage').Exact := by
  have hset := countP_set_add (fun stage => stage.hold.any fun hold => hold.epoch = w.closes)
    stage' hop
  simp only [World.Exact, World.current, World.put, hops, hcloses] at h ⊢
  omega

/-- A late release counts for nobody else while no operation is counted. -/
theorem World.Exact.release (h : w.Exact) (hop : w.operations[i]? = some stage)
    (hs : stage.hold = some hold) (hs' : stage'.hold = none)
    (hlate : hold.epoch ≠ w.closes → w.active = 0) : (w.release.put i stage').Exact := by
  have hcount : w.active - 1 + (if stage.hold.any fun hold => hold.epoch = w.closes then 1 else 0) =
      w.active + if stage'.hold.any fun hold => hold.epoch = w.closes then 1 else 0 := by
    by_cases he : hold.epoch = w.closes
    · have hpos : 0 < w.active := by
        rw [h]
        exact World.current_pos ⟨stage, List.mem_of_getElem? hop, hs⟩ he
      simp only [hs, hs', he, Option.any_some, Option.any_none, decide_true, ite_true,
        Bool.false_eq_true, ite_false]
      omega
    · simp [hs, hs', he, hlate he]
  unfold World.release
  simp only
  split
  · exact h.put hop rfl rfl hcount
  · exact h.put hop rfl rfl hcount

theorem exact_step (hsound : w.Sound) (h : w.Exact) {label : Label} (hcounted : Counted w label)
    (hs : w.step label = some v) : v.Exact := by
  cases label with
  | begin =>
    obtain rfl := Option.some.inj hs
    simpa [World.Exact, World.current, Stage.hold] using h
  | acquire i err =>
    simp only [World.step] at hs
    split at hs
    · rename_i retried hop
      obtain ⟨armed, idle, ⟨-, e, he⟩ | ⟨conn, -, he⟩ | ⟨-, he⟩⟩ := hsound.acquire_cases err
      all_goals
        rw [he] at hs
        obtain rfl := Option.some.inj hs
        exact h.put hop rfl rfl (by simp [Stage.hold])
    · cases hs
  | openChannel i err =>
    simp only [World.step] at hs
    split at hs
    · rename_i hold retried text hop
      exact Option.some.inj hs ▸ h.put hop rfl rfl rfl
    · rename_i hold retried hop
      split at hs
      · exact Option.some.inj hs ▸ h.put hop rfl rfl rfl
      · cases hs
    · cases hs
  | discard i =>
    simp only [World.step] at hs
    split at hs
    · rename_i hold retried text hop
      obtain rfl := Option.some.inj hs
      unfold World.discard
      split
      · rw [closeConn_eq hsound.pooled]
        exact h.put hop rfl rfl rfl
      · exact h.put hop rfl rfl rfl
    · cases hs
  | release i err =>
    simp only [World.step] at hs
    split at hs
    · rename_i hold retried text hop
      refine Option.some.inj hs ▸ h.release hop rfl (by cases retried <;> rfl) ?_
      exact hcounted _ hop hold rfl
    · rename_i hold hop
      refine Option.some.inj hs ▸ h.release hop rfl rfl ?_
      exact hcounted _ hop hold rfl
    · cases hs
  | expire timer =>
    simp only [World.step] at hs
    split at hs
    · exact Option.some.inj hs ▸ h
    · cases hs
  | closeIfIdle timer =>
    simp only [World.step] at hs
    split at hs
    · obtain rfl := Option.some.inj hs
      unfold World.closeIfIdle
      split
      · exact h
      · rw [closeConn_eq (w := { w with fired := w.fired.filter (· ≠ timer) }) hsound.pooled]
        exact h
    · cases hs
  | close =>
    obtain rfl := Option.some.inj hs
    obtain ⟨armed, idle, hstop⟩ := stopIdle_eq w
    unfold World.close
    rw [hstop, closeConn_eq (w := { w with armed := armed, idle := idle }) hsound.pooled]
    -- Every operation acquired its connection before this `close`.
    refine (List.countP_eq_zero.mpr fun stage hmem => ?_).symm
    cases hhold : stage.hold with
    | none => simp
    | some hold =>
      have := (hsound.held hold ⟨stage, hmem, hhold⟩).2
      simp only [Option.any_some, decide_eq_true_eq]
      omega
  | die conn => exact Option.some.inj hs ▸ h

theorem exact_of_counted (h : Reachable (pool.guard Counted) w) : w.Exact := by
  refine h.inv_of (P := World.Exact) (fun hw => sound_of_reachable hw.of_guard) ?_ ?_
  · rintro w rfl
    rfl
  · rintro w label v hsound hexact ⟨hs, hcounted⟩
    exact exact_step hsound hexact hcounted hs

/-- What is held and open was acquired since the last `close`, and is counted. -/
theorem World.Exact.safe (h : w.Exact) (hreach : Reachable pool w) : w.Safe := by
  have hsound := sound_of_reachable hreach
  refine ⟨fun timer v hs hold hhold hopen => ?_, quiet_of_reachable hreach⟩
  have he : hold.epoch = w.closes := by
    by_contra hne
    exact hsound.stale hold hhold hne hopen
  have hactive : 0 < w.active := by
    rw [h]
    exact World.current_pos hhold he
  simp only [World.step] at hs
  split at hs
  · obtain rfl := Option.some.inj hs
    unfold World.closeIfIdle
    rw [if_pos hactive]
    exact hopen
  · cases hs

/-- **The idle timer closes no connection under an operation**, and none is left open in the end,
where a release from before a `close` never counts for an operation since. -/
theorem safe_of_counted (h : Reachable (pool.guard Counted) w) : w.Safe :=
  (exact_of_counted h).safe h.of_guard

/-- The pool is closed under an operation, a second one dials again, and the first is late. -/
def lateRelease : List Label :=
  [.begin, .acquire 0 none, .openChannel 0 none, .close,
    .begin, .acquire 1 none, .openChannel 1 none, .release 0 none, .expire 0]

/-- The timer that the late release armed closes the connection the second operation is using. -/
theorem late_release_closes_connection : ¬ ∀ w, Reachable pool w → w.Safe := by
  intro hsafe
  have hrun : (runSteps World.step World.new lateRelease).bind (fun w =>
      (w.step (.closeIfIdle 0)).map fun v =>
        decide ((∃ stage ∈ w.operations, stage.hold = some ⟨1, 1⟩) ∧ 1 ∈ w.openConns ∧
          1 ∉ v.openConns)) = some true := by decide
  obtain ⟨w, hw, hstep⟩ := Option.bind_eq_some_iff.mp hrun
  obtain ⟨v, hv, hend⟩ := Option.map_eq_some_iff.mp hstep
  obtain ⟨hhold, hopen, hclosed⟩ := of_decide_eq_true hend
  have hreach : Reachable pool w := (Path.of_runSteps (S := pool) id hw).reachable (.init rfl)
  exact hclosed ((hsafe w hreach).held 0 v hv ⟨1, 1⟩ hhold hopen)

/-- The pool is closed under an operation that is done before the next one dials.  The timer of that
one runs late, under a third. -/
def lateTimer : List Label :=
  [.begin, .acquire 0 none, .openChannel 0 none, .close, .release 0 none,
    .begin, .acquire 1 none, .openChannel 1 none, .release 1 none, .expire 0,
    .begin, .acquire 2 none, .closeIfIdle 0, .openChannel 2 none, .release 2 none,
    .expire 1, .closeIfIdle 1]

theorem late_timer_closes_nothing : ∃ w, Reachable (pool.guard Counted) w ∧
    (w.closes = 1 ∧ w.dialled = 2 ∧ w.holders = 0 ∧ w.armed = [] ∧ w.fired = []) ∧ w.Safe := by
  have hrun : (runSteps (fun w label => if Counted w label then w.step label else none)
      World.new lateTimer).map (fun w => decide (w.closes = 1 ∧ w.dialled = 2 ∧ w.holders = 0 ∧
        w.armed = [] ∧ w.fired = [])) = some true := by decide
  obtain ⟨w, hw, hend⟩ := Option.map_eq_some_iff.mp hrun
  have hstep : ∀ {w label v}, (if Counted w label then w.step label else none) = some v →
      (pool.guard Counted).Step w label v := by
    intro w label v hs
    split at hs
    · exact ⟨hs, ‹_›⟩
    · cases hs
  have hreach : Reachable (pool.guard Counted) w :=
    (Path.of_runSteps hstep hw).reachable (.init rfl)
  exact ⟨w, hreach, of_decide_eq_true hend, safe_of_counted hreach⟩

end MqStudio.Rabbitmq.Pool
