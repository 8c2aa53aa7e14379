import MqStudio.Connection.Disk
import MqStudio.Lib.Heap

/-!
# Profiles whose maps are shared

`mutation.go` and `persistence.go` work on profiles in place.  A copy of a profile shares its maps
of options and secrets with the original, so here a profile lies in memory with the places of its
maps, and each call is followed up to its save and, where that fails, to its end.

* `Cell.view`: the profile a cell reads as.
* `Attempt`: a call up to its save, with what takes its changes back.
* `applyCredentials_spec`: the credentials of a form are written to a map of their own.
* `Memory.attempt_undone`: **after a failed save everything is as it was**.
-/

namespace MqStudio.Connection

open Model Lib Lib.Errors Lib.Maps Lib.Text
open Lib.Json (StringMap)

/-! ### Profiles in memory -/

abbrev StringMaps := Heap StringMap

/-- The place of a map, none for nil. -/
abbrev MapRef := Option Nat

def readMap (h : StringMaps) : MapRef → StringMap
  | none => ∅
  | some a => h.cells a

/-- A profile as it lies in memory: its fields, whose two maps are not read, and the places of
the maps it has. -/
structure Cell where
  fields : ConnectionProfile
  options : MapRef
  secrets : MapRef

def Cell.view (h : StringMaps) (c : Cell) : ConnectionProfile :=
  { c.fields with options := c.options.map h.cells, secrets := readMap h c.secrets }

/-- `SetSecret` on a map at a place. -/
def setSecretAt (h : StringMaps) (ref : MapRef) (key value : String) : StringMaps × MapRef :=
  match ref with
  | some a => (h.write a (setSecretIn (h.cells a) key value), some a)
  | none =>
    if value = "" then (h, none)
    else
      let r := h.alloc ((∅ : StringMap).insert key value)
      (r.1, some r.2)

def Cell.setACL (h : StringMaps) (c : Cell) (acl : ACL) : StringMaps × Cell :=
  let r := setSecretAt h c.secrets secretAccessKey (if acl.enabled then acl.accessKey else "")
  let r := setSecretAt r.1 r.2 secretSecretKey (if acl.enabled then acl.secretKey else "")
  (r.1, { c with
    fields := { c.fields with auth := ⟨if acl.enabled then authACL else authNone⟩ }
    secrets := r.2 })

def Cell.applyCredentials (h : StringMaps) (connection input : Cell) (acl : ACL) :
    StringMaps × Cell :=
  let r := (readMap h input.secrets).foldl (fun r key value =>
    if key = secretAccessKey ∨ key = secretSecretKey then r else setSecretAt r.1 r.2 key value)
    (h, none)
  let r := Cell.setACL r.1 { connection with secrets := r.2 } acl
  if !acl.enabled && input.fields.auth.mechanism ≠ ⟨""⟩ then
    (r.1, { r.2 with fields := r.2.fields.withMechanism input.fields.auth.mechanism })
  else r

/-- A stored profile with the submitted fields, before its credentials. -/
def Cell.edit (previous input : Cell) (name endpoints : String) : Cell :=
  { previous with
    fields := { previous.fields with
      name := name
      group := normalizeConnectionGroup input.fields.group
      endpoints := endpoints
      kind := if input.fields.kind ≠ ⟨""⟩ then input.fields.kind else previous.fields.kind
      timeoutSec := input.fields.timeoutSec }
    options := if input.options.isSome then input.options else previous.options }

/-! ### The service in memory -/

/-- The maps, the stored cells, and the service otherwise, whose profiles are not read. -/
structure Memory where
  maps : StringMaps
  cells : Std.ExtTreeMap Int Cell compare
  rest : Service

namespace Memory

def profiles (m : Memory) : Profiles := m.cells.map fun _ c => c.view m.maps

def service (m : Memory) : Service := { m.rest with connections := m.profiles }

/-- Every map has a place. -/
def Allocated (m : Memory) : Prop :=
  ∀ (id : Int) c, m.cells[id]? = some c →
    (∀ a ∈ c.options, a < m.maps.next) ∧ ∀ a ∈ c.secrets, a < m.maps.next

def setDefaultFlag (m : Memory) (id : Int) (isDefault : Bool) : Memory :=
  { m with cells := m.cells.modify id fun c =>
      { c with fields := { c.fields with isDefault := isDefault } } }

def clearDefaults (m : Memory) : Memory :=
  { m with cells := m.cells.map fun _ c =>
      { c with fields := { c.fields with isDefault := false } } }

end Memory

/-- A call up to its save. -/
inductive Attempt where
  | returns (m : Memory) (err : Option Error)
  /-- The memory that is saved, and what the call makes of it and of the error if that fails. -/
  | saves (m : Memory) (undo : Memory → Memory) (wrap : Error → Error)

/-- The end of a call whose save fails. -/
def Attempt.failing (err : Error) : Attempt → Memory × Option Error
  | .returns m err => (m, err)
  | .saves m undo wrap => (undo m, some (wrap err))

namespace Memory

variable (m : Memory)

/-- A new profile, before its credentials. -/
def newCell (input : Cell) (name endpoints : String) : Cell where
  fields := {
    id := m.rest.nextID
    name := name
    group := normalizeConnectionGroup input.fields.group
    endpoints := endpoints
    timeoutSec := input.fields.timeoutSec
    kind := newKind input.fields.kind
    auth := ⟨⟨""⟩⟩
    options := none
    secrets := ∅
    status := statusOffline
    lastCheck := "-"
    isDefault := m.cells.isEmpty
    remark := input.fields.remark }
  options := input.options
  secrets := none

def addConnection (input : Cell) : Attempt :=
  let kind := newKind input.fields.kind
  match m.service.validateConnectionFields kind input.fields.name input.fields.endpoints
      input.fields.timeoutSec with
  | .error err => .returns m (some err)
  | .ok (name, endpoints) =>
    match aclConfig (input.view m.maps) with
    | .error err => .returns m (some err)
    | .ok acl =>
      let r := Cell.applyCredentials m.maps (m.newCell input name endpoints) input acl
      .saves { m with maps := r.1, cells := m.cells.insert m.rest.nextID r.2 }
        (fun m => { m with cells := m.cells.erase m.rest.nextID })
        (.wrap "failed to save connection config")

/-- Put a cell back. -/
def restore (id : Int) (previous : Cell) (m : Memory) : Memory :=
  { m with cells := m.cells.insert id previous }

def updateConnection (id : Int) (input : Cell) : Attempt :=
  match m.service.validateConnectionFields (m.service.editedKind id input.fields.kind)
      input.fields.name input.fields.endpoints input.fields.timeoutSec with
  | .error err => .returns m (some err)
  | .ok (name, endpoints) =>
    match m.cells[id]? with
    | none => .returns m (some (.new s!"connection not found: {id}"))
    | some previous =>
      match aclConfig (input.view m.maps) with
      | .error err => .returns m (some err)
      | .ok acl =>
        let r := Cell.applyCredentials m.maps (previous.edit input name endpoints) input acl
        let edited := { r.2 with fields := { r.2.fields with remark := input.fields.remark } }
        -- Both profiles are compared as they are after the edit.
        let edited :=
          if dialParametersChanged (previous.view r.1) (edited.view r.1) then
            { edited with fields := { edited.fields with status := statusOffline } }
          else edited
        .saves { m with maps := r.1, cells := m.cells.insert id edited } (restore id previous)
          (.wrap "failed to save connection config")

def setOption (id : Int) (key value : String) : Attempt :=
  let key := trimSpace key
  if key = "" then .returns m (some (.new "option key is required"))
  else
    match m.cells[id]? with
    | none => .returns m (some (.new s!"connection not found: {id}"))
    | some previous =>
      -- The clone of the options, which is then changed.
      let r := m.maps.alloc (readMap m.maps previous.options)
      let options := r.1.cells r.2
      let options := if value = "" then options.erase key else options.insert key value
      let maps := r.1.write r.2 options
      if readMap maps previous.options = maps.cells r.2 then .returns { m with maps := maps } none
      else
        let edited : Cell := { previous with
          fields := { previous.fields with status := statusOffline }
          options := some r.2 }
        .saves { m with maps := maps, cells := m.cells.insert id edited } (restore id previous)
          (.wrap "failed to save connection config")

def deleteConnection (id : Int) : Attempt :=
  match m.cells[id]? with
  | none => .returns m (some (.new s!"connection not found: {id}"))
  | some deleted =>
    if deleted.fields.isDefault && 1 < m.cells.size then
      .returns m (some
        (.new "cannot delete the default connection; set another connection as default first"))
    else
      let remaining := m.cells.erase id
      let newDefaultID := if deleted.fields.isDefault then remaining.keys.headD 0 else 0
      let m := { m with cells := remaining }
      let saved := if newDefaultID ≠ 0 then m.setDefaultFlag newDefaultID true else m
      .saves saved
        (fun m =>
          let m := m.restore id deleted
          if newDefaultID ≠ 0 then m.setDefaultFlag newDefaultID false else m)
        (.wrap "failed to save connection config")

def setDefaultConnection (id : Int) : Attempt :=
  match m.cells[id]? with
  | none => .returns m (some (.new s!"connection not found: {id}"))
  | some connection =>
    if connection.fields.isDefault then .returns m none
    else
      let previousDefaultID := defaultID m.profiles
      .saves (m.clearDefaults.setDefaultFlag id true)
        (fun m =>
          let m := m.setDefaultFlag id false
          if previousDefaultID ≠ 0 then m.setDefaultFlag previousDefaultID true else m)
        (.wrap "保存连接配置失败")

end Memory

/-! ### Replacing every profile in memory -/

/-- One profile as a replacement stores it, which writes to the map of its secrets. -/
def Cell.prepareOne (s : Service) (h : StringMaps) (c : Cell) : Except Error (StringMaps × Cell) :=
  match s.validateConnectionFields c.fields.kind c.fields.name c.fields.endpoints
      c.fields.timeoutSec with
  | .error err => .error (.wrapQuoted "invalid connection" c.fields.name "" err)
  | .ok (name, nameServer) =>
    match aclConfig (c.view h) with
    | .error err => .error (.wrapQuoted "invalid ACL configuration for connection" name "" err)
    | .ok acl =>
      let c := { c with fields := { c.fields with
        name := name
        endpoints := nameServer
        group := normalizeConnectionGroup c.fields.group } }
      let r := c.setACL h acl
      .ok (r.1, { r.2 with
        fields := { r.2.fields with status := statusOffline, lastCheck := "-" } })

/-- All of them, with what is in memory when one is refused. -/
def prepareCells (s : Service) : StringMaps → List Cell → StringMaps × Except Error (List Cell)
  | h, [] => (h, .ok [])
  | h, c :: cs =>
    match c.prepareOne s h with
    | .error err => (h, .error err)
    | .ok (h, c) => ((prepareCells s h cs).1, (prepareCells s h cs).2.map (c :: ·))

/-- The compatibility rules for one profile, which write to the map of its secrets too. -/
def Cell.normalizeLoaded (h : StringMaps) (c : Cell) : StringMaps × Cell :=
  let acl := loadedACL (c.view h)
  let r := Cell.setACL h { c with fields := { c.fields with
    group := normalizeConnectionGroup c.fields.group
    status := statusOffline
    lastCheck := "-" } } acl
  if !acl.enabled && c.fields.auth.mechanism ≠ authACL then
    (r.1, { r.2 with fields := r.2.fields.withMechanism c.fields.auth.mechanism })
  else r

def normalizeCells : StringMaps → List Cell → StringMaps × List Cell
  | h, [] => (h, [])
  | h, c :: cs =>
    let r := c.normalizeLoaded h
    ((normalizeCells r.1 cs).1, r.2 :: (normalizeCells r.1 cs).2)

/-- Where a profile shares the map of its secrets with a stored one, it has its ACL decision. -/
def Shares (m : Memory) (c : Cell) : Prop :=
  ∀ a ∈ c.secrets, ∀ (id : Int) stored, m.cells[id]? = some stored → stored.options ≠ some a ∧
    (stored.secrets = some a → c.fields.aclEnabled = stored.fields.aclEnabled)

/-- The profiles a caller hands in.  One that shares the map of its secrets with a stored profile
is a copy of it, and has its ACL decision. -/
structure Given (m : Memory) where
  cells : List (Option Cell)
  shares : ∀ c, some c ∈ cells → Shares m c

def Memory.replaceConnections (m : Memory) (given : Given m) : Attempt :=
  match prepareCells m.service m.maps (given.cells.filterMap id) with
  | (maps, .error err) => .returns { m with maps := maps } (some err)
  | (maps, .ok prepared) =>
    .saves { m with maps := (normalizeCells maps prepared).1 } (fun m => m) (fun err => err)

/-- The calls that save what they changed. -/
inductive Edit (m : Memory) where
  | addConnection (input : Cell)
  | updateConnection (id : Int) (input : Cell)
  | setOption (id : Int) (key value : String)
  | deleteConnection (id : Int)
  | setDefaultConnection (id : Int)
  | replaceConnections (given : Given m)

def Memory.attempt (m : Memory) : Edit m → Attempt
  | .addConnection input => m.addConnection input
  | .updateConnection id input => m.updateConnection id input
  | .setOption id key value => m.setOption id key value
  | .deleteConnection id => m.deleteConnection id
  | .setDefaultConnection id => m.setDefaultConnection id
  | .replaceConnections given => m.replaceConnections given

/-! ### Writing to a map of its own -/

/-- A map that had no place in a memory. -/
def NewRef (h : StringMaps) (ref : MapRef) : Prop := ∀ a ∈ ref, h.next ≤ a

theorem setSecretAt_spec {h h' : StringMaps} {ref : MapRef} (hk : h.Keeps h') (hn : NewRef h ref)
    (key value : String) :
    h.Keeps (setSecretAt h' ref key value).1 ∧ NewRef h (setSecretAt h' ref key value).2 ∧
      readMap (setSecretAt h' ref key value).1 (setSecretAt h' ref key value).2 =
        setSecretIn (readMap h' ref) key value := by
  cases ref with
  | some a => exact ⟨hk.write (hn a rfl) _, hn, Heap.write_cells_self ..⟩
  | none =>
    by_cases hv : value = ""
    · rw [setSecretAt]
      simp only [hv, if_true]
      refine ⟨hk, hn, ?_⟩
      simp [setSecretIn, readMap]
    · rw [setSecretAt]
      simp only [hv, if_false]
      refine ⟨hk.alloc _, ?_, ?_⟩
      · rintro a ha
        obtain rfl := Option.some.inj ha
        exact hk.next_le
      · simp only [setSecretIn, hv, if_false]
        exact Heap.alloc_cells_self ..

theorem setACL_spec {h h' : StringMaps} {c : Cell} (hk : h.Keeps h') (hn : NewRef h c.secrets)
    (acl : ACL) : h.Keeps (c.setACL h' acl).1 ∧ NewRef h (c.setACL h' acl).2.secrets ∧
      readMap (c.setACL h' acl).1 (c.setACL h' acl).2.secrets =
        withPair (readMap h' c.secrets) acl := by
  obtain ⟨hk', hn', hread⟩ := setSecretAt_spec hk hn secretAccessKey
    (if acl.enabled then acl.accessKey else "")
  obtain ⟨hk'', hn'', hread'⟩ := setSecretAt_spec hk' hn' secretSecretKey
    (if acl.enabled then acl.secretKey else "")
  exact ⟨hk'', hn'', hread'.trans (congrArg (setSecretIn · _ _) hread)⟩

/-- The secrets of a form, but for the key pair, in a map that was not there before. -/
theorem formSecrets_spec (h : StringMaps) (secrets : StringMap) :
    let r := secrets.foldl (fun r key value =>
      if key = secretAccessKey ∨ key = secretSecretKey then r else setSecretAt r.1 r.2 key value)
      ((h, none) : StringMaps × MapRef)
    h.Keeps r.1 ∧ NewRef h r.2 ∧ readMap r.1 r.2 = secrets.foldl (fun m key value =>
      if key = secretAccessKey ∨ key = secretSecretKey then m else setSecretIn m key value) ∅ := by
  simp only [Std.ExtTreeMap.foldl_eq_foldl_toList]
  have hfold : ∀ (l : List (String × String)) (r : StringMaps × MapRef) (m : StringMap),
      h.Keeps r.1 ∧ NewRef h r.2 ∧ readMap r.1 r.2 = m →
      let r' := l.foldl (fun r p => if p.1 = secretAccessKey ∨ p.1 = secretSecretKey then r
        else setSecretAt r.1 r.2 p.1 p.2) r
      h.Keeps r'.1 ∧ NewRef h r'.2 ∧ readMap r'.1 r'.2 = l.foldl (fun m p =>
        if p.1 = secretAccessKey ∨ p.1 = secretSecretKey then m else setSecretIn m p.1 p.2) m := by
    intro l
    induction l with
    | nil => exact fun _ _ hr => hr
    | cons p l ih =>
      rintro r m ⟨hk, hn, rfl⟩
      refine ih _ _ ?_
      by_cases hpair : p.1 = secretAccessKey ∨ p.1 = secretSecretKey
      · simp only [hpair, if_true]
        exact ⟨hk, hn, trivial⟩
      · simp only [hpair, if_false]
        exact setSecretAt_spec hk hn p.1 p.2
  have hnew : NewRef h none := by
    intro a ha
    cases ha
  exact hfold secrets.toList (h, none) ∅ ⟨.refl h, hnew, rfl⟩

/-- **The credentials of a form are written to a map of their own.** -/
theorem applyCredentials_keeps (h : StringMaps) (connection input : Cell) (acl : ACL) :
    h.Keeps (Cell.applyCredentials h connection input acl).1 := by
  obtain ⟨hk, hn, -⟩ := formSecrets_spec h (readMap h input.secrets)
  unfold Cell.applyCredentials
  generalize (readMap h input.secrets).foldl (fun r key value =>
    if key = secretAccessKey ∨ key = secretSecretKey then r else setSecretAt r.1 r.2 key value)
    ((h, none) : StringMaps × MapRef) = r at hk hn
  have hk' := (setACL_spec (c := { connection with secrets := r.2 }) hk hn acl).1
  dsimp only
  split
  · exact hk'
  · exact hk'

/-- What is stored is what `applyCredentials` makes of the two profiles. -/
theorem applyCredentials_view (h : StringMaps) (connection input : Cell) (acl : ACL)
    (hoptions : ∀ a ∈ connection.options, a < h.next) :
    (Cell.applyCredentials h connection input acl).2.view
        (Cell.applyCredentials h connection input acl).1 =
      Connection.applyCredentials (connection.view h) (input.view h) acl := by
  obtain ⟨hk, hn, hread⟩ := formSecrets_spec h (readMap h input.secrets)
  unfold Cell.applyCredentials Connection.applyCredentials
  generalize (readMap h input.secrets).foldl (fun r key value =>
    if key = secretAccessKey ∨ key = secretSecretKey then r else setSecretAt r.1 r.2 key value)
    ((h, none) : StringMaps × MapRef) = r at hk hn hread
  obtain ⟨hk', -, hread'⟩ := setACL_spec (c := { connection with secrets := r.2 }) hk hn acl
  have hoptions' : connection.options.map
      (Cell.setACL r.1 { connection with secrets := r.2 } acl).1.cells =
        connection.options.map h.cells := by
    cases ho : connection.options with
    | none => rfl
    | some a => exact congrArg some (hk'.cells a (hoptions a ho))
  have hview : (Cell.setACL r.1 { connection with secrets := r.2 } acl).2.view
      (Cell.setACL r.1 { connection with secrets := r.2 } acl).1 =
        { connection.view h with
          auth := ⟨if acl.enabled then authACL else authNone⟩
          secrets := withPair (readMap r.1 r.2) acl } := by
    have hfields : ∀ (options : Option StringMap) (secrets : StringMap),
        options = connection.options.map h.cells → secrets = withPair (readMap r.1 r.2) acl →
        { (Cell.setACL r.1 { connection with secrets := r.2 } acl).2.fields with
            options := options, secrets := secrets } =
          { connection.view h with
            auth := ⟨if acl.enabled then authACL else authNone⟩
            secrets := withPair (readMap r.1 r.2) acl } := by
      rintro _ _ rfl rfl
      rfl
    exact hfields _ _ hoptions' hread'
  rw [hread] at hview
  dsimp only
  rw [setACL_eq]
  by_cases hown : (!acl.enabled && decide (input.fields.auth.mechanism ≠ ⟨""⟩)) = true
  · have hown' : (!acl.enabled && decide ((input.view h).auth.mechanism ≠ ⟨""⟩)) = true := hown
    rw [if_pos hown, if_pos hown']
    exact congrArg (fun p : ConnectionProfile =>
      p.withMechanism input.fields.auth.mechanism) hview
  · have hown' : ¬ (!acl.enabled && decide ((input.view h).auth.mechanism ≠ ⟨""⟩)) = true := hown
    rw [if_neg hown, if_neg hown']
    exact hview

/-! ### What a memory reads as -/

namespace Memory

variable {m : Memory} {h : StringMaps}

theorem view_of_keeps (hk : m.maps.Keeps h) (hm : m.Allocated) {id : Int} {c : Cell}
    (hc : m.cells[id]? = some c) : c.view h = c.view m.maps := by
  obtain ⟨ho, hs⟩ := hm id c hc
  have hoptions : c.options.map h.cells = c.options.map m.maps.cells := by
    cases hopt : c.options with
    | none => rfl
    | some a => exact congrArg some (hk.cells a (ho a hopt))
  have hsecrets : readMap h c.secrets = readMap m.maps c.secrets := by
    cases hsec : c.secrets with
    | none => rfl
    | some a => exact hk.cells a (hs a hsec)
  rw [Cell.view, hoptions, hsecrets]
  rfl

theorem getElem?_profiles (m : Memory) (id : Int) :
    m.profiles[id]? = m.cells[id]?.map fun c => c.view m.maps := by
  rw [profiles, Std.ExtTreeMap.getElem?_map]

/-- Maps that the stored cells read alike make the same profiles. -/
theorem profiles_congr (hview : ∀ (id : Int) c, m.cells[id]? = some c →
    c.view h = c.view m.maps) : ({ m with maps := h } : Memory).profiles = m.profiles := by
  apply Std.ExtTreeMap.ext_getElem?
  intro id
  rw [getElem?_profiles, getElem?_profiles]
  cases hc : m.cells[id]? with
  | none => rfl
  | some c => exact congrArg some (hview id c hc)

theorem service_congr (hview : ∀ (id : Int) c, m.cells[id]? = some c →
    c.view h = c.view m.maps) : ({ m with maps := h } : Memory).service = m.service := by
  rw [service, profiles_congr hview]
  rfl

theorem profiles_setDefaultFlag (m : Memory) (id : Int) (isDefault : Bool) :
    (m.setDefaultFlag id isDefault).profiles =
      Connection.setDefaultFlag m.profiles id isDefault := by
  apply Std.ExtTreeMap.ext_getElem?
  intro a
  rw [getElem?_profiles, setDefaultFlag, Connection.setDefaultFlag, getElem?_modify,
    getElem?_modify, getElem?_profiles]
  by_cases hid : id = a
  · simp only [hid, if_true, Option.map_map]
    rfl
  · simp only [hid, if_false]

theorem profiles_clearDefaults (m : Memory) :
    m.clearDefaults.profiles = Connection.clearDefaults m.profiles := by
  apply Std.ExtTreeMap.ext_getElem?
  intro a
  rw [getElem?_profiles, getElem?_clearDefaults, clearDefaults, Std.ExtTreeMap.getElem?_map,
    getElem?_profiles, Option.map_map, Option.map_map]
  rfl

end Memory

/-! ### Taking the changes back -/

section

variable {m : Memory}

theorem addConnection_undone (hi : m.service.core.Inv) (hm : m.Allocated) (input : Cell)
    (err : Error) :
    ((m.addConnection input).failing err).1.service = m.service := by
  have hfree : m.cells[m.rest.nextID]? = none := by
    cases hc : m.cells[m.rest.nextID]? with
    | none => rfl
    | some c =>
      have hp : m.service.connections[m.rest.nextID]? = some (c.view m.maps) := by
        change m.profiles[m.rest.nextID]? = _
        rw [Memory.getElem?_profiles, hc]
        rfl
      have hkey := hi.key_eq_id hp
      have hlt := hi.id_lt hp
      change (c.view m.maps).id < m.rest.nextID at hlt
      omega
  unfold Memory.addConnection
  dsimp only
  split
  · rfl
  split
  · rfl
  · dsimp only [Attempt.failing]
    rw [erase_insert_self _ hfree]
    exact Memory.service_congr fun id c hc =>
      Memory.view_of_keeps (applyCredentials_keeps _ _ _ _) hm hc

/-- An edited cell is put back, beside maps that are as they were. -/
theorem restore_undone (hm : m.Allocated) {maps : StringMaps} (hk : m.maps.Keeps maps) {id : Int}
    {previous : Cell} (hc : m.cells[id]? = some previous) (edited : Cell) :
    (Memory.restore id previous
      { m with maps := maps, cells := m.cells.insert id edited }).service = m.service := by
  rw [Memory.restore, insert_insert_self edited hc]
  exact Memory.service_congr fun id c hc => Memory.view_of_keeps hk hm hc

theorem updateConnection_undone (hm : m.Allocated) (id : Int) (input : Cell) (err : Error) :
    ((m.updateConnection id input).failing err).1.service = m.service := by
  unfold Memory.updateConnection
  split
  · rfl
  cases hc : m.cells[id]? with
  | none => rfl
  | some previous =>
    dsimp only
    split
    · rfl
    · exact restore_undone hm (applyCredentials_keeps _ _ _ _) hc _

theorem setOption_undone (hm : m.Allocated) (id : Int) (key value : String) (err : Error) :
    ((m.setOption id key value).failing err).1.service = m.service := by
  unfold Memory.setOption
  dsimp only
  split
  · rfl
  cases hc : m.cells[id]? with
  | none => rfl
  | some previous =>
    dsimp only
    generalize (if value = "" then _ else _ : StringMap) = options
    have hk : m.maps.Keeps ((m.maps.alloc (readMap m.maps previous.options)).1.write
        (m.maps.alloc (readMap m.maps previous.options)).2 options) :=
      ((Heap.Keeps.refl _).alloc _).write le_rfl _
    split
    · exact Memory.service_congr fun id c hc => Memory.view_of_keeps hk hm hc
    · exact restore_undone hm hk hc _

theorem deleteConnection_undone (id : Int) (err : Error) :
    ((m.deleteConnection id).failing err).1.service = m.service := by
  unfold Memory.deleteConnection
  cases hc : m.cells[id]? with
  | none => rfl
  | some deleted =>
    dsimp only
    split
    · rfl
    · rename_i hcond
      have hnew :
          (if deleted.fields.isDefault then (m.cells.erase id).keys.headD 0 else 0) = 0 := by
        split
        · rename_i hd
          rw [erase_eq_empty_of_size_le hc (by simpa [hd] using hcond), keys_eq_nil_iff.mpr rfl]
          rfl
        · rfl
      simp only [Attempt.failing, hnew, ne_eq, not_true_eq_false, if_false]
      rw [Memory.restore, insert_erase_self hc]

theorem setDefaultConnection_undone (hi : m.service.core.Inv) (id : Int) (err : Error) :
    ((m.setDefaultConnection id).failing err).1.service = m.service := by
  unfold Memory.setDefaultConnection
  cases hc : m.cells[id]? with
  | none => rfl
  | some connection =>
    dsimp only
    split
    · rfl
    · have hp : m.profiles[id]? = some (connection.view m.maps) := by
        rw [Memory.getElem?_profiles, hc]
        rfl
      have hback := restoredDefaults_eq (m := m.profiles) hi hp
      have hservice : ∀ t : Memory, t.rest = m.rest → t.profiles = m.profiles →
          t.service = m.service := by
        intro t hrest hprofiles
        rw [Memory.service, Memory.service, hrest, hprofiles]
      dsimp only [Attempt.failing]
      refine hservice _ ?_ ?_
      · split <;> rfl
      · refine Eq.trans ?_ hback
        rw [restoredDefaults]
        split
        · simp only [Memory.profiles_setDefaultFlag, Memory.profiles_clearDefaults]
        · simp only [Memory.profiles_setDefaultFlag, Memory.profiles_clearDefaults]

end

/-! ### Writing to maps that may be shared -/

section

variable {m : Memory} {h : StringMaps}

/-- The stored cells read as they did. -/
structure Steady (m : Memory) (h : StringMaps) : Prop where
  next_le : m.maps.next ≤ h.next
  view : ∀ (id : Int) c, m.cells[id]? = some c → c.view h = c.view m.maps

theorem setACL_at (h : StringMaps) {c : Cell} {a : Nat} (hc : c.secrets = some a) (acl : ACL) :
    (c.setACL h acl).1 = h.write a (withPair (h.cells a) acl) := by
  rw [Cell.setACL, hc]
  simp [setSecretAt, withPair, Heap.write]

theorem aclConfig_congr {p q : ConnectionProfile} (he : p.aclEnabled = q.aclEnabled)
    (hs : p.secrets = q.secrets) : aclConfig p = aclConfig q := by
  rw [aclConfig, aclConfig, he, ConnectionProfile.secret, ConnectionProfile.secret,
    ConnectionProfile.secret, ConnectionProfile.secret, hs]

theorem loadedACL_eq {p : ConnectionProfile} {acl : ACL} (h : aclConfig p = .ok acl) :
    loadedACL p = acl := by rw [loadedACL, h]

/-- A write to the place of a stored profile's secrets writes what is there. -/
theorem withPair_shared (hs : All Settled m.profiles) (hh : Steady m h) {c stored : Cell} {a : Nat}
    {id : Int} (hshares : Shares m c) (hc : c.secrets = some a)
    (hstored : m.cells[id]? = some stored) (ha : stored.secrets = some a) :
    withPair (h.cells a) (loadedACL (c.view h)) = h.cells a ∧
      (loadedACL (c.view h)).enabled = stored.fields.aclEnabled := by
  have hsettled : Settled (stored.view h) := by
    rw [hh.view id stored hstored]
    refine hs id _ ?_
    rw [Memory.getElem?_profiles, hstored]
    rfl
  obtain ⟨acl, hacl, he, hpair⟩ := hsettled.aclConfig_eq
  have hsame : aclConfig (c.view h) = aclConfig (stored.view h) := by
    refine aclConfig_congr ((hshares a hc id stored hstored).2 ha) ?_
    change readMap h c.secrets = readMap h stored.secrets
    rw [hc, ha]
  have hread : (stored.view h).secrets = h.cells a := by
    change readMap h stored.secrets = _
    rw [ha]
    rfl
  rw [loadedACL_eq (hsame.trans hacl)]
  rw [hread] at hpair
  exact ⟨hpair, he⟩

/-- **Writing the ACL decision of a profile that is handed in changes no stored profile.** -/
theorem setACL_steady (hs : All Settled m.profiles) (hm : m.Allocated) (hh : Steady m h) {c : Cell}
    (hshares : Shares m c) (fields : ConnectionProfile) :
    Steady m (Cell.setACL h { c with fields := fields } (loadedACL (c.view h))).1 ∧
      Shares m (Cell.setACL h { c with fields := fields } (loadedACL (c.view h))).2 := by
  cases hc : c.secrets with
  | none =>
    have hnone : NewRef h (⟨fields, c.options, none⟩ : Cell).secrets := nofun
    obtain ⟨hk, hn, -⟩ := setACL_spec (.refl h) hnone (loadedACL (c.view h))
    refine ⟨⟨hh.next_le.trans hk.next_le, fun id stored hstored => ?_⟩, ?_⟩
    · rw [← hh.view id stored hstored]
      have hm' : (⟨h, m.cells, m.rest⟩ : Memory).Allocated := fun id stored hstored =>
        ⟨fun a ha => ((hm id stored hstored).1 a ha).trans_le hh.next_le,
          fun a ha => ((hm id stored hstored).2 a ha).trans_le hh.next_le⟩
      exact Memory.view_of_keeps (m := ⟨h, m.cells, m.rest⟩) hk hm' hstored
    · intro a ha id stored hstored
      have hle := hh.next_le.trans (hn a ha)
      obtain ⟨ho, hsec⟩ := hm id stored hstored
      exact ⟨fun he => absurd (ho a he) (by omega), fun he => absurd (hsec a he) (by omega)⟩
  | some a =>
    have hwrite := setACL_at h (c := ⟨fields, c.options, some a⟩) rfl (loadedACL (c.view h))
    refine ⟨⟨?_, fun id stored hstored => ?_⟩, ?_⟩
    · rw [hwrite]
      exact hh.next_le
    · rw [hwrite, ← hh.view id stored hstored]
      obtain ⟨hopt, -⟩ := hshares a hc id stored hstored
      by_cases ha : stored.secrets = some a
      · rw [(withPair_shared hs hh hshares hc hstored ha).1, Heap.write_self]
      · have hoptions : stored.options.map
            (h.write a (withPair (h.cells a) (loadedACL (c.view h)))).cells =
              stored.options.map h.cells := by
          cases ho : stored.options with
          | none => rfl
          | some b =>
            exact congrArg some (Heap.write_cells_of_ne (fun he => hopt (by rw [ho, he])) _)
        have hsecrets : readMap (h.write a (withPair (h.cells a) (loadedACL (c.view h))))
            stored.secrets = readMap h stored.secrets := by
          cases hsec : stored.secrets with
          | none => rfl
          | some b => exact Heap.write_cells_of_ne (fun he => ha (by rw [hsec, he])) _
        rw [Cell.view, hoptions, hsecrets]
        rfl
    · intro b hb id stored hstored
      obtain rfl : a = b := by
        rw [Cell.setACL, setSecretAt, setSecretAt] at hb
        exact Option.some.inj hb
      refine ⟨(hshares a hc id stored hstored).1, fun ha => ?_⟩
      rw [← (withPair_shared hs hh hshares hc hstored ha).2]
      have hon : ∀ on : Bool, decide ((⟨if on then authACL else authNone⟩ : AuthConfig).mechanism =
          authACL) = on := by decide
      exact hon _

/-- The fields of a profile other than its ACL decision do not matter to what it shares. -/
theorem Shares.congr {c d : Cell} (hshares : Shares m c) (hs : d.secrets = c.secrets)
    (he : d.fields.aclEnabled = c.fields.aclEnabled) : Shares m d := by
  intro a ha id stored hstored
  rw [he]
  exact hshares a (hs ▸ ha) id stored hstored

theorem prepareCells_steady (s : Service) (hs : All Settled m.profiles) (hm : m.Allocated)
    (cs : List Cell) (hh : Steady m h) (hcs : ∀ c ∈ cs, Shares m c) :
    Steady m (prepareCells s h cs).1 ∧
      ∀ prepared, (prepareCells s h cs).2 = .ok prepared → ∀ c ∈ prepared, Shares m c := by
  induction cs generalizing h with
  | nil =>
    refine ⟨hh, ?_⟩
    rintro prepared hok
    obtain rfl := Except.ok.inj hok
    exact nofun
  | cons c cs ih =>
    rw [prepareCells]
    cases hprep : c.prepareOne s h with
    | error err => exact ⟨hh, nofun⟩
    | ok r =>
      have hone : Steady m r.1 ∧ Shares m r.2 := by
        unfold Cell.prepareOne at hprep
        split at hprep
        · cases hprep
        split at hprep
        · cases hprep
        · rename_i acl hacl
          obtain rfl := Except.ok.inj hprep
          rw [← loadedACL_eq hacl]
          obtain ⟨hsteady, hshares⟩ := setACL_steady hs hm hh (hcs c List.mem_cons_self) _
          exact ⟨hsteady, hshares.congr rfl rfl⟩
      obtain ⟨hsteady, hrest⟩ := ih hone.1 fun d hd => hcs d (List.mem_cons_of_mem _ hd)
      refine ⟨hsteady, fun prepared hok d hd => ?_⟩
      dsimp only at hok
      cases hall : (prepareCells s r.1 cs).2 with
      | error err =>
        rw [hall] at hok
        cases hok
      | ok rest =>
        rw [hall] at hok
        obtain rfl := Except.ok.inj hok
        rcases List.mem_cons.mp hd with rfl | hd
        · exact hone.2
        · exact hrest rest hall d hd

theorem normalizeCells_steady (hs : All Settled m.profiles) (hm : m.Allocated) (cs : List Cell)
    (hh : Steady m h) (hcs : ∀ c ∈ cs, Shares m c) : Steady m (normalizeCells h cs).1 := by
  induction cs generalizing h with
  | nil => exact hh
  | cons c cs ih =>
    have hone : Steady m (c.normalizeLoaded h).1 := by
      have hsteady := (setACL_steady hs hm hh (hcs c List.mem_cons_self) { c.fields with
        group := normalizeConnectionGroup c.fields.group
        status := statusOffline
        lastCheck := "-" }).1
      unfold Cell.normalizeLoaded
      dsimp only
      split
      · exact hsteady
      · exact hsteady
    exact ih hone fun d hd => hcs d (List.mem_cons_of_mem _ hd)

theorem replaceConnections_undone (hs : All Settled m.profiles) (hm : m.Allocated)
    (given : Given m) (err : Error) :
    ((m.replaceConnections given).failing err).1.service = m.service := by
  have hcs : ∀ c ∈ given.cells.filterMap id, Shares m c := by
    intro c hc
    obtain ⟨o, ho, rfl⟩ := List.mem_filterMap.mp hc
    exact given.shares c ho
  obtain ⟨hsteady, hprepared⟩ := prepareCells_steady m.service hs hm _
    (⟨le_rfl, fun _ _ _ => rfl⟩ : Steady m m.maps) hcs
  unfold Memory.replaceConnections
  split
  · rename_i maps err' hfail
    rw [hfail] at hsteady
    exact Memory.service_congr hsteady.view
  · rename_i maps prepared hok
    rw [hok] at hsteady hprepared
    exact Memory.service_congr
      (normalizeCells_steady hs hm prepared hsteady (hprepared prepared rfl)).view

end

/-! ### Every save that fails -/

/-- The call on the service, with the profiles as they read. -/
def Edit.op {m : Memory} : Edit m → Operation
  | .addConnection input => .addConnection (input.view m.maps)
  | .updateConnection id input => .updateConnection id (input.view m.maps)
  | .setOption id key value => .setOption id key value
  | .deleteConnection id => .deleteConnection id
  | .setDefaultConnection id => .setDefaultConnection id
  | .replaceConnections given =>
    .replaceConnections (given.cells.map fun c => c.map fun c => c.view m.maps)

/-- The calls of the service undo a failed save as well. -/
theorem exec_failing {s : Service} (hi : s.core.Inv) {env : Env} {err : Error}
    (hw : env.writeErr = some err) {m : Memory} (edit : Edit m) : exec s ⟨edit.op, env⟩ = s := by
  have hstore : ∀ {id : Int} {previous : ConnectionProfile} (current : ConnectionProfile)
      (redial : Bool), s.connections[id]? = some previous →
      (s.storeEdited env id previous current redial).1 = s := by
    intro id previous current redial hp
    simp only [Service.storeEdited, Service.saveConnectionsLocked, Service.writeFile, hw]
    rw [insert_insert_self current hp]
  cases edit with
  | addConnection input =>
    have hfree : s.connections[s.nextID]? = none := hi.free le_rfl
    change (s.addConnection env (input.view m.maps)).1 = s
    unfold Service.addConnection
    dsimp only
    split
    · rfl
    split
    · rfl
    · simp only [Service.saveConnectionsLocked, Service.writeFile, hw, applyCredentials_id]
      rw [erase_insert_self _ hfree]
  | updateConnection id input =>
    rcases updateConnection_cases s env id (input.view m.maps) with hsame | ⟨p, q, hp, -, heq⟩
    · exact hsame
    · exact (congrArg (·.1) heq).trans (hstore _ _ hp)
  | setOption id key value =>
    rcases setOption_cases s env id key value with hsame | ⟨p, options, hp, heq⟩
    · exact hsame
    · exact (congrArg (·.1) heq).trans (hstore _ _ hp)
  | deleteConnection id =>
    change (s.deleteConnection env id).1 = s
    unfold Service.deleteConnection
    cases hp : s.connections[id]? with
    | none => rfl
    | some p =>
      dsimp only
      split
      · rfl
      · rename_i hcond
        have hnew := newDefaultID_eq_zero hp hcond
        simp only [hnew, ne_eq, not_true_eq_false, if_false, Service.saveConnectionsLocked,
          Service.writeFile, hw]
        rw [insert_erase_self hp]
  | setDefaultConnection id =>
    change (s.setDefaultConnection env id).1 = s
    unfold Service.setDefaultConnection
    cases hp : s.connections[id]? with
    | none => rfl
    | some p =>
      dsimp only
      split
      · rfl
      · simp only [Service.saveConnectionsLocked, Service.writeFile, hw]
        change { s with connections := restoredDefaults s.connections id } = s
        rw [restoredDefaults_eq (m := s.connections) hi hp]
  | replaceConnections given =>
    change (s.replaceConnections env _).1 = s
    unfold Service.replaceConnections
    split
    · rfl
    · simp only [Service.writeFile, hw]

/-- Maps that keep the stored ones, with a cell put in, read as the profiles with its profile put
in. -/
theorem profiles_insert {m : Memory} (hm : m.Allocated) {maps : StringMaps}
    (hk : m.maps.Keeps maps) (id : Int) (c : Cell) :
    ({ m with maps := maps, cells := m.cells.insert id c } : Memory).profiles =
      m.profiles.insert id (c.view maps) := by
  apply Std.ExtTreeMap.ext_getElem?
  intro a
  rw [Memory.getElem?_profiles, getElem?_insert, getElem?_insert]
  split
  · rfl
  · rw [Memory.getElem?_profiles]
    cases hc : m.cells[a]? with
    | none => rfl
    | some d => exact congrArg some (Memory.view_of_keeps hk hm hc)

/-- An addition saves the profile that the service adds. -/
theorem addConnection_saved {m : Memory} (hm : m.Allocated) {input : Cell}
    (hinput : ∀ a ∈ input.options, a < m.maps.next) {saved : Memory} {undo : Memory → Memory}
    {wrap : Error → Error} (h : m.addConnection input = .saves saved undo wrap) :
    ∃ p, m.service.added (input.view m.maps) = some p ∧
      saved.profiles = m.profiles.insert m.rest.nextID p := by
  have hempty : m.cells.isEmpty = m.profiles.isEmpty := by
    rw [Bool.eq_iff_iff, Std.ExtTreeMap.isEmpty_iff, Std.ExtTreeMap.isEmpty_iff, Memory.profiles,
      Std.ExtTreeMap.map_eq_empty_iff]
  unfold Memory.addConnection at h
  dsimp only at h
  split at h
  · cases h
  rename_i name endpoints hvalid
  split at h
  · cases h
  · rename_i acl hacl
    obtain ⟨rfl, -, -⟩ := Attempt.saves.inj h
    refine ⟨_, ?_, profiles_insert hm (applyCredentials_keeps _ _ _ _) _ _⟩
    have hview := applyCredentials_view m.maps (m.newCell input name endpoints) input acl hinput
    rw [hview]
    unfold Service.added
    have hvalid' : m.service.validateConnectionFields (newKind (input.view m.maps).kind)
        (input.view m.maps).name (input.view m.maps).endpoints (input.view m.maps).timeoutSec =
          .ok (name, endpoints) := hvalid
    rw [hvalid', hacl]
    change some (applyCredentials { (m.newCell input name endpoints).view m.maps with
      isDefault := m.profiles.isEmpty } _ _) = _
    rw [← hempty]
    rfl

/-- An update saves the profile that the service edits, off line where its client went stale. -/
theorem updateConnection_saved {m : Memory} (hm : m.Allocated) {id : Int} {input : Cell}
    (hinput : ∀ a ∈ input.options, a < m.maps.next) {saved : Memory} {undo : Memory → Memory}
    {wrap : Error → Error} (h : m.updateConnection id input = .saves saved undo wrap) :
    ∃ previous edited, m.profiles[id]? = some previous ∧
      m.service.edited id (input.view m.maps) = some edited ∧
      saved.profiles = m.profiles.insert id
        (if dialParametersChanged previous edited then { edited with status := statusOffline }
          else edited) := by
  unfold Memory.updateConnection at h
  split at h
  · cases h
  rename_i name endpoints hvalid
  cases hc : m.cells[id]? with
  | none =>
    rw [hc] at h
    cases h
  | some previous =>
    rw [hc] at h
    dsimp only at h
    split at h
    · cases h
    · rename_i acl hacl
      have hoptions : ∀ a ∈ (previous.edit input name endpoints).options, a < m.maps.next := by
        intro a ha
        dsimp only [Cell.edit] at ha
        split at ha
        · exact hinput a ha
        · exact (hm id previous hc).1 a ha
      have hkeeps := applyCredentials_keeps m.maps (previous.edit input name endpoints) input acl
      have hview := applyCredentials_view m.maps _ input acl hoptions
      have hprevious := Memory.view_of_keeps hkeeps hm hc
      have hp : m.profiles[id]? = some (previous.view m.maps) := by
        rw [Memory.getElem?_profiles, hc]
        rfl
      obtain ⟨rfl, -, -⟩ := Attempt.saves.inj h
      refine ⟨_, editProfile (previous.view m.maps) (input.view m.maps) name endpoints acl, hp, ?_,
        (profiles_insert hm hkeeps _ _).trans ?_⟩
      · unfold Service.edited
        have hvalid' : m.service.validateConnectionFields
            (m.service.editedKind id (input.view m.maps).kind) (input.view m.maps).name
            (input.view m.maps).endpoints (input.view m.maps).timeoutSec =
              .ok (name, endpoints) := hvalid
        have hp' : m.service.connections[id]? = some (previous.view m.maps) := hp
        rw [hvalid', hp', hacl]
      · have hedit : (previous.edit input name endpoints).view m.maps =
            { previous.view m.maps with
              name := name
              group := normalizeConnectionGroup (input.view m.maps).group
              endpoints := endpoints
              kind := if (input.view m.maps).kind ≠ ⟨""⟩ then (input.view m.maps).kind
                else (previous.view m.maps).kind
              options := if (input.view m.maps).options.isSome then (input.view m.maps).options
                else (previous.view m.maps).options
              timeoutSec := (input.view m.maps).timeoutSec } := by
          unfold Cell.edit Cell.view
          cases input.options <;> rfl
        rw [hedit] at hview
        generalize Cell.applyCredentials m.maps (previous.edit input name endpoints) input acl = r
          at hview hprevious
        have hedited : ({ r.2 with fields := { r.2.fields with remark := input.fields.remark } } :
            Cell).view r.1 = editProfile (previous.view m.maps) (input.view m.maps) name endpoints
              acl :=
          congrArg (fun p : ConnectionProfile => { p with remark := input.fields.remark }) hview
        rw [hprevious, hedited, ← hedited]
        split <;> rfl

/-- Whichever call it is, a failed save leaves the service as it was. -/
theorem Memory.failing_service {m : Memory} (hi : m.service.core.Inv)
    (hs : All Settled m.service.connections) (hm : m.Allocated) (edit : Edit m) (err : Error) :
    ((m.attempt edit).failing err).1.service = m.service := by
  cases edit with
  | addConnection input => exact addConnection_undone hi hm input err
  | updateConnection id input => exact updateConnection_undone hm id input err
  | setOption id key value => exact setOption_undone hm id key value err
  | deleteConnection id => exact deleteConnection_undone id err
  | setDefaultConnection id => exact setDefaultConnection_undone hi id err
  | replaceConnections given => exact replaceConnections_undone hs hm given err

/-- With a save that fails, the call in memory and the call of the service end alike. -/
theorem Memory.failing_eq_exec {m : Memory} (hi : m.service.core.Inv)
    (hs : All Settled m.service.connections) (hm : m.Allocated) (edit : Edit m) {env : Env}
    {err : Error} (hw : env.writeErr = some err) :
    ((m.attempt edit).failing err).1.service = exec m.service ⟨edit.op, env⟩ := by
  rw [m.failing_service hi hs hm edit err, exec_failing hi hw edit]

end MqStudio.Connection
