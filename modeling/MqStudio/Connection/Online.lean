import MqStudio.Connection.Disk

/-!
# On line means open

The status of a stored profile and the clients of the runtime are two objects,
written at different moments by every call that opens or closes.

* `open_exec`: every call keeps them in step, whatever dial or write fails in it.
* `onlineMeansOpen_run`: so they are in step after every run.

`Reload` is the one call that closes every client and may keep the profiles it
had, where there is no data file; `Filed` says that there are no profiles then.
-/

namespace MqStudio.Connection

open Model Lib.Maps

/-! ### The invariant -/

/-- A profile is on line. -/
def onlineAt (m : Profiles) (id : Int) : Prop :=
  ∃ p, m[id]? = some p ∧ p.status = statusOnline

/-- The runtime holds a client for exactly the stored profiles that are on line. -/
def Core.Open (c : Core) : Prop :=
  ∀ id : Int, (∃ d, c.clients[id]? = some d) ↔ onlineAt c.connections id

/-- Where there is no data file, no profile is stored. -/
def Filed (s : Service) : Prop := s.file = none → s.connections = ∅

/-- Storing one profile changes the status of that one alone. -/
theorem onlineAt_insert (m : Profiles) (id a : Int) (p : ConnectionProfile) :
    onlineAt (m.insert id p) a ↔ if id = a then p.status = statusOnline else onlineAt m a := by
  unfold onlineAt
  rw [getElem?_insert]
  split
  · simp
  · rfl

theorem onlineAt_erase (m : Profiles) (id a : Int) :
    onlineAt (m.erase id) a ↔ id ≠ a ∧ onlineAt m a := by
  unfold onlineAt
  rw [getElem?_erase]
  split <;> simp_all

theorem onlineAt_of_some {m : Profiles} {id : Int} {p : ConnectionProfile} (h : m[id]? = some p) :
    onlineAt m id ↔ p.status = statusOnline := by
  simp [onlineAt, h]

theorem heldAt_insert (m : Profiles) (id a : Int) (d : ConnectionProfile) :
    (∃ e, (m.insert id d)[a]? = some e) ↔ id = a ∨ ∃ e, m[a]? = some e := by
  rw [getElem?_insert]
  split <;> simp_all

theorem heldAt_erase (m : Profiles) (id a : Int) :
    (∃ e, (m.erase id)[a]? = some e) ↔ id ≠ a ∧ ∃ e, m[a]? = some e := by
  rw [getElem?_erase]
  split <;> simp_all

/-- A profile may be written over one of the same status. -/
theorem Core.Open.store_insert {c : Core} (h : c.Open) {id : Int} {q : ConnectionProfile}
    (hq : q.status = statusOnline ↔ onlineAt c.connections id) :
    (c.store (c.connections.insert id q)).Open := by
  intro a
  rw [show (c.store (c.connections.insert id q)).connections = c.connections.insert id q from rfl,
    onlineAt_insert]
  split
  · rename_i ha
    subst ha
    rw [hq]
    exact h id
  · exact h a

/-- A profile that goes off line has its client closed. -/
theorem Core.Open.closed {c : Core} (h : c.Open) {id : Int} {m : Profiles}
    (hid : ¬ onlineAt m id) (hm : ∀ a : Int, a ≠ id → (onlineAt m a ↔ onlineAt c.connections a)) :
    ((c.store m).hold (c.clients.erase id)).Open := by
  intro a
  change (∃ e, (c.clients.erase id)[a]? = some e) ↔ onlineAt m a
  rw [heldAt_erase, h a]
  by_cases ha : id = a
  · subst ha
    simp [hid]
  · simp [ha, hm a (Ne.symm ha)]

theorem Core.Open.opened {c : Core} (h : c.Open) {env : Env} {id : Int} {p : ConnectionProfile}
    (hid : p.id = id) : (c.opened env id p).Open := by
  intro a
  change (∃ e, (c.clients.insert (resolveForDial env.settings p).id
    (resolveForDial env.settings p))[a]? = some e) ↔ onlineAt (c.connections.insert id _) a
  rw [heldAt_insert, onlineAt_insert, resolveForDial_id, hid, h a]
  by_cases ha : id = a <;> simp [ha]

/-- Where nothing is on line, no client is needed. -/
theorem Core.open_of_clients_eq_empty {c : Core} (hc : c.clients = ∅)
    (h : ∀ id, ¬ onlineAt c.connections id) : c.Open := by
  intro a
  rw [hc]
  simp [h a]

/-! ### Loading -/

/-- Nothing is on line after a load. -/
theorem offline_buildConnectionState (ps : List ConnectionProfile) (id : Int) :
    ¬ onlineAt (buildConnectionState (ps.map some)).1 id := by
  rintro ⟨q, hq, hon⟩
  obtain ⟨p, -, i, d, rfl⟩ := mem_built hq
  have hoff : (normalizeLoaded p).status = statusOffline := by rw [normalizeLoaded_eq]
  exact absurd (hoff.symm.trans hon) (by decide)

theorem not_onlineAt_empty (id : Int) : ¬ onlineAt ∅ id := by
  rintro ⟨p, hp, -⟩
  simp at hp

/-- Only an empty map is empty off line. -/
theorem eq_empty_of_offline {m : Profiles} (h : offline m = offline ∅) : m = ∅ := by
  apply Std.ExtTreeMap.ext_getElem?
  intro k
  have hk := congrArg (·[k]?) h
  simpa using hk

theorem Filed.written {env : Env} {s t : Service} (h : Filed s) (hw : Written env s t) :
    Filed t := by
  intro hnone
  rcases hw with ⟨hf, ho⟩ | ⟨m, hf, -⟩
  · rw [h (hf.symm.trans hnone)] at ho
    exact eq_empty_of_offline ho
  · cases hf.symm.trans hnone

theorem filed_reload {s : Service} (h : Filed s) (env : Env) : Filed (s.reload env).1 := by
  rcases reload_loaded s env with hc | ⟨t, ht, -, hw⟩
  · rwa [hc]
  · refine Filed.written ?_ hw
    rcases loadConnectionsFromFile_built ht with ⟨-, rfl⟩ | ⟨data, ps, hf, hft, -, -⟩
    · exact h
    · intro hnone
      cases hf.symm.trans (hft.symm.trans hnone)

theorem filed_exec {s : Service} (hi : s.core.Inv) (h : Filed s) (c : Call) : Filed (exec s c) := by
  obtain ⟨op, env⟩ := c
  by_cases hop : op = .reload
  · subst hop
    exact filed_reload h env
  · exact h.written (written_exec hi hop)

/-! ### The calls -/

theorem open_connectRuntimeLocked {s : Service} (hi : s.core.Inv) (h : s.core.Open) (env : Env)
    (id : Int) : (s.connectRuntimeLocked env id).1.core.Open := by
  rcases connectRuntimeLocked_cases s env id with ⟨hc, -⟩ | ⟨p, hp, -, hc⟩ <;> rw [hc]
  · exact h
  · exact h.opened (hi.key_eq_id hp)

theorem open_disconnect {s : Service} (h : s.core.Open) (env : Env) (id : Int) :
    (s.disconnect env id).1.core.Open := by
  rcases disconnect_cases s env id with hc | ⟨p, -, hc⟩ <;> rw [hc]
  · exact h
  · refine h.closed ?_ fun a ha => ?_
    · rw [onlineAt_insert, if_pos rfl]
      exact (by decide : statusOffline ≠ statusOnline)
    · rw [onlineAt_insert, if_neg (Ne.symm ha)]
      rfl

theorem open_testConnection {s : Service} (h : s.core.Open) (env : Env) (id : Int) :
    (s.testConnection env id).1.core.Open := by
  rcases testConnection_cases s env id with hc | ⟨p, hp, hc⟩ <;> rw [hc]
  · exact h
  · exact h.store_insert (onlineAt_of_some hp).symm

/-- Every client is closed, and at most the default profile is opened again. -/
theorem open_restoreRuntimeLocked {s : Service} (hi : s.core.Inv)
    (hoff : ∀ id, ¬ onlineAt s.connections id) (env : Env) (plan : Bool) :
    (s.restoreRuntimeLocked env plan).1.core.Open := by
  have hempty : (s.core.hold ∅).Open := Core.open_of_clients_eq_empty rfl hoff
  rcases restoreRuntimeLocked_cases s env plan with hc | ⟨p, hp, -, hc⟩ <;> rw [hc]
  · exact hempty
  · exact hempty.opened (hi.key_eq_id hp)

theorem open_reload {s : Service} (hi : s.core.Inv) (h : s.core.Open) (hfiled : Filed s)
    (env : Env) : (s.reload env).1.core.Open := by
  unfold Service.reload
  cases hl : s.loadConnectionsFromFile env with
  | error err => exact h
  | ok t =>
    have hinv : t.core.Inv := by
      rcases loadConnectionsFromFile_cases hl with hc | ⟨qs, hc⟩ <;> rw [hc]
      · exact hi
      · exact s.core.inv_built qs
    have hoff : ∀ id, ¬ onlineAt t.connections id := by
      rcases loadConnectionsFromFile_built hl with ⟨hf, hc⟩ | ⟨data, ps, -, -, hc, -⟩ <;> rw [hc]
      · -- Nothing is stored where there is no file.
        rw [hfiled hf]
        exact not_onlineAt_empty
      · exact offline_buildConnectionState ps
    exact open_restoreRuntimeLocked (s := { t with reconnectReload := s.reloadPlanLocked })
      hinv hoff env s.reloadPlanLocked

theorem open_replaceConnections {s : Service} (h : s.core.Open) (env : Env)
    (ps : List (Option ConnectionProfile)) : (s.replaceConnections env ps).1.core.Open := by
  rcases replaceConnections_cases s env ps with hc | ⟨t, plan, prepared, -, ht, hc⟩ <;> rw [hc]
  · exact h
  · refine open_restoreRuntimeLocked (ht ▸ s.core.inv_built _) (fun id => ?_) env plan
    have hconn : t.connections = (buildConnectionState (prepared.map some)).1 :=
      congrArg Core.connections ht
    rw [hconn]
    exact offline_buildConnectionState prepared id

/-- An edit closes the client of a profile it takes off line. -/
theorem open_storeEdited {s : Service} (hi : s.core.Inv) (h : s.core.Open) (env : Env) {id : Int}
    {previous current : ConnectionProfile} {redial : Bool} (hp : s.connections[id]? = some previous)
    (hid : current.id = previous.id)
    (hkeep : redial = false → (current.status = statusOnline ↔ previous.status = statusOnline))
    (hoff : redial = true → current.status ≠ statusOnline) :
    (s.storeEdited env id previous current redial).1.core.Open := by
  have hclosed : redial = true → ((s.core.store (s.connections.insert id current)).hold
      (s.clients.erase id)).Open := by
    intro hr
    refine h.closed ?_ fun a ha => ?_
    · rw [onlineAt_insert, if_pos rfl]
      exact hoff hr
    · rw [onlineAt_insert, if_neg (Ne.symm ha)]
      rfl
  rcases storeEdited_cases env current redial hp with ⟨-, hc⟩ | ⟨-, hr, hc⟩ | ⟨hr, hc⟩ | ⟨hr, hc⟩ <;>
    rw [hc]
  · exact h
  · exact h.store_insert ((hkeep hr).trans (onlineAt_of_some hp).symm)
  · exact hclosed hr
  · exact (hclosed hr).opened (hid.trans (hi.key_eq_id hp))

theorem open_updateConnection {s : Service} (hi : s.core.Inv) (h : s.core.Open) (env : Env)
    (id : Int) (input : ConnectionProfile) : (s.updateConnection env id input).1.core.Open := by
  rcases updateConnection_cases s env id input with hc | ⟨p, q, hp, hq, hc⟩ <;> rw [hc]
  · exact h
  obtain ⟨hstat, hid⟩ := edited_status hp hq
  have hne : statusOffline ≠ statusOnline := by decide
  refine open_storeEdited hi h env hp (by split <;> exact hid) ?_ ?_
  · intro hr
    split
    · rename_i hch
      rw [hch, Bool.true_and, decide_eq_false_iff_not] at hr
      exact iff_of_false hne hr
    · rw [hstat]
  · intro hr
    simp only [Bool.and_eq_true] at hr
    rw [if_pos hr.1]
    exact hne

theorem open_setOption {s : Service} (hi : s.core.Inv) (h : s.core.Open) (env : Env) (id : Int)
    (key value : String) : (s.setOption env id key value).1.core.Open := by
  rcases setOption_cases s env id key value with hc | ⟨p, options, hp, hc⟩ <;> rw [hc]
  · exact h
  · have hne : statusOffline ≠ statusOnline := by decide
    refine open_storeEdited hi h env hp rfl (fun hr => ?_) fun _ => hne
    exact iff_of_false hne (by simpa using hr)

theorem added_status {s : Service} {input p : ConnectionProfile} (h : s.added input = some p) :
    p.status = statusOffline := by
  unfold Service.added at h
  split at h
  · obtain rfl := Option.some.inj h
    unfold applyCredentials
    dsimp only
    rw [setACL_eq]
    split <;> rfl
  · cases h

theorem open_addConnection {s : Service} (hi : s.core.Inv) (h : s.core.Open) (env : Env)
    (input : ConnectionProfile) : (s.addConnection env input).1.core.Open := by
  have hfree : s.connections[s.nextID]? = none := hi.toIdInv.free le_rfl
  rcases addConnection_cases env input hfree with hc | ⟨p, hp, hc⟩ <;> rw [hc]
  · exact h
  · have hadded : (s.core.store (s.connections.insert s.nextID p)).Open := by
      refine h.store_insert (iff_of_false ?_ ?_)
      · rw [added_status hp]
        decide
      · rintro ⟨q, hq, -⟩
        cases hfree.symm.trans hq
    exact hadded

theorem open_deleteConnection {s : Service} (h : s.core.Open) (env : Env) (id : Int) :
    (s.deleteConnection env id).1.core.Open := by
  rcases deleteConnection_cases s env id with hc | ⟨p, hp, -, hc⟩ <;> rw [hc]
  · exact h
  have hclosed : ((s.core.store (s.connections.erase id)).hold (s.clients.erase id)).Open := by
    refine h.closed ?_ fun a ha => ?_
    · rw [onlineAt_erase]
      exact fun hx => hx.1 rfl
    · rw [onlineAt_erase]
      exact ⟨fun hx => hx.2, fun hx => ⟨Ne.symm ha, hx⟩⟩
  split
  · exact hclosed
  · -- A profile that is off line has no client to close.
    rename_i hoff
    intro a
    change (∃ d, s.clients[a]? = some d) ↔ onlineAt (s.connections.erase id) a
    rw [onlineAt_erase]
    by_cases ha : id = a
    · subst ha
      refine iff_of_false (fun hx => ?_) fun hx => hx.1 rfl
      exact hoff ((onlineAt_of_some hp).mp ((h id).mp hx))
    · exact (h a).trans ⟨fun hx => ⟨ha, hx⟩, fun hx => hx.2⟩

theorem onlineAt_congr {m m' : Profiles}
    (h : ∀ k : Int, m'[k]?.map (·.status) = m[k]?.map (·.status)) (id : Int) :
    onlineAt m' id ↔ onlineAt m id := by
  have hiff : ∀ m : Profiles, onlineAt m id ↔ m[id]?.map (·.status) = some statusOnline := by
    intro m
    rw [Option.map_eq_some_iff]
    rfl
  rw [hiff, hiff, h id]

theorem open_setDefaultConnection {s : Service} (hi : s.core.Inv) (h : s.core.Open) (env : Env)
    (id : Int) : (s.setDefaultConnection env id).1.core.Open := by
  rcases setDefaultConnection_cases s env id with hc | ⟨p, hp, -, hc | hc⟩ <;> rw [hc]
  · exact h
  · intro a
    refine (h a).trans (onlineAt_congr (fun k => ?_) a).symm
    simp only [Core.store, setDefaultFlag, getElem?_modify, getElem?_clearDefaults]
    split <;> simp [Option.map_map, Function.comp_def, Service.core]
  · rw [restoredDefaults_eq (m := s.connections) hi hp]
    exact h

/-- **Every call keeps status and clients in step**, whatever it meets outside. -/
theorem open_exec {s : Service} (hi : s.core.Inv) (h : s.core.Open) (hfiled : Filed s) (c : Call) :
    (exec s c).core.Open := by
  obtain ⟨op, env⟩ := c
  cases op with
  | addConnection input => exact open_addConnection hi h env input
  | updateConnection id input => exact open_updateConnection hi h env id input
  | setOption id key value => exact open_setOption hi h env id key value
  | deleteConnection id => exact open_deleteConnection h env id
  | setDefaultConnection id => exact open_setDefaultConnection hi h env id
  | connect id => exact open_connectRuntimeLocked hi h env id
  | disconnect id => exact open_disconnect h env id
  | testConnection id => exact open_testConnection h env id
  | replaceConnections ps => exact open_replaceConnections h env ps
  | reload => exact open_reload hi h hfiled env

/-! ### Runs -/

/-- A stored profile is on line if and only if the runtime holds a client for it, and the runtime
holds no other. -/
def OnlineMeansOpen (s : Service) : Prop :=
  (∀ (id : Int) (p : ConnectionProfile), s.connections[id]? = some p →
    (p.status = statusOnline ↔ ∃ d, s.clients[id]? = some d)) ∧
  ∀ id : Int, s.connections[id]? = none → s.clients[id]? = none

theorem Core.Open.onlineMeansOpen {s : Service} (h : s.core.Open) : OnlineMeansOpen s := by
  refine ⟨fun id p hp => ((h id).trans (onlineAt_of_some hp)).symm, fun id hnone => ?_⟩
  cases hd : s.clients[id]? with
  | none => rfl
  | some d =>
    obtain ⟨p, hp, -⟩ := (h id).mp ⟨d, hd⟩
    cases hnone.symm.trans hp

/-- A service starts with every profile off line and no client. -/
theorem open_new (endpoints : Option (MQKind → Bool)) (file : Option String) (env : Env) :
    (Service.new endpoints file env).core.Open ∧ Filed (Service.new endpoints file env) := by
  unfold Service.new
  dsimp only
  split
  · rename_i t ht
    have hclients : t.clients = ∅ := by
      rcases loadConnectionsFromFile_cases ht with hc | ⟨ps, hc⟩ <;>
        exact congrArg Core.clients hc
    rcases loadConnectionsFromFile_built ht with ⟨-, rfl⟩ | ⟨data, ps, hf, hft, hc, -⟩
    · exact ⟨Core.open_of_clients_eq_empty rfl not_onlineAt_empty, fun _ => rfl⟩
    · refine ⟨?_, fun hnone => ?_⟩
      · have hoff : ∀ id, ¬ onlineAt t.connections id := by
          rw [hc]
          exact offline_buildConnectionState ps
        exact Core.open_of_clients_eq_empty hclients hoff
      · cases hf.symm.trans (hft.symm.trans hnone)
  · exact ⟨Core.open_of_clients_eq_empty rfl not_onlineAt_empty, fun _ => rfl⟩

/-- **On line means open** after every run of calls, whatever fails in it. -/
theorem onlineMeansOpen_run (endpoints : Option (MQKind → Bool)) (file : Option String) (env : Env)
    (calls : List Call) :
    OnlineMeansOpen (Lib.Transition.run exec (Service.new endpoints file env) calls) := by
  have hrun := Lib.Transition.run_inv exec
    (P := fun s => s.core.Inv ∧ s.core.Open ∧ Filed s)
    (fun s c hs => ⟨inv_exec hs.1 c, open_exec hs.1 hs.2.1 hs.2.2 c, filed_exec hs.1 hs.2.2 c⟩)
    calls _ ⟨inv_new endpoints file env, open_new endpoints file env⟩
  exact hrun.2.1.onlineMeansOpen

end MqStudio.Connection
