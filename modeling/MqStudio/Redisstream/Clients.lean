import MqStudio.Lib.Maps
import MqStudio.Lib.Strconv
import MqStudio.Lib.Transition
import MqStudio.Lib.Words

/-!
# The clients of a Redis deployment

The listing and the closing of `redisstream/connections.go`, over servers that each number their
own clients.

* `parseClientList_reply`: the listing has a row for each line that names a client.
* `idIn`: the id that the text behind a line's own id puts in its place.
* `Deployment.closes_right_iff`: closing a row closes its client exactly if no line is read as another
  client's and one server is asked.
-/

namespace MqStudio.Redisstream

open Std (ExtTreeMap)
open Lib Lib.Maps Lib.Strconv Lib.Text Lib.Transition

/-! ### Reading the listing -/

structure ClientConnection where
  name : String
  clientName : String
  nameSpace : String
  user : String
  node : String
  peerHost : String
  peerPort : Int
  protocol : String
  state : String
  recvBytes : Int
  sendBytes : Int
  connectedAtMs : Int
  attributes : ExtTreeMap String String compare

/-- `strconv.Atoi`, which reads an `int` of 64 bits. -/
def atoi (text : String) : Option Int := parseInt 64 text.toList

/-- The host and port of a peer.  An IPv6 address has colons of its own. -/
def splitAddr (addr : String) : String × Int :=
  match cutLast ':' addr.toList with
  | none => (addr, 0)
  | some (host, port) =>
    match parseInt 64 port with
    | none => (addr, 0)
    | some port => (String.ofList host, port)

def respVersion (value : String) : String := if value = "" then "" else "RESP" ++ value

def countOf (value : String) : Int :=
  match atoi value with
  | none => 0
  | some count => if count < 0 then 0 else count

/-- The key and the value of a field. -/
def pairOf (field : String) : Option (String × String) :=
  (cut '=' field.toList).map fun pair => (String.ofList pair.1, String.ofList pair.2)

/-- The fields of a line by name.  Where a name comes twice the last value stays. -/
def fieldMap (line : String) : ExtTreeMap String String compare :=
  ((Text.fields line).filterMap pairOf).foldl (fun map pair => map.insert pair.1 pair.2) ∅

/-- The row of a line with these fields, except for its id. -/
def connectionOf (id : String) (fields : ExtTreeMap String String compare) (nowMillis : Int) :
    ClientConnection :=
  let get (key : String) : String := (fields[key]?).getD ""
  let age := atoi (get "age")
  let shown (attributes : ExtTreeMap String String compare) (name key : String) :=
    if get key = "" then attributes else attributes.insert name (get key)
  let base := (∅ : ExtTreeMap String String compare).insert "clientId" id
  let base := if age.isSome then base.insert "ageSeconds" (get "age") else base
  let base := shown (shown (shown base "lastCommand" "cmd") "idleSeconds" "idle") "flags" "flags"
  let base := shown (shown base "libraryName" "lib-name") "totalCommands" "tot-cmds"
  let subscribed := countOf (get "sub") + countOf (get "psub") + countOf (get "ssub")
  { name := id
    clientName := get "name"
    nameSpace := get "db"
    user := get "user"
    node := get "laddr"
    peerHost := (splitAddr (get "addr")).1
    peerPort := (splitAddr (get "addr")).2
    protocol := respVersion (get "resp")
    state := get "flags"
    recvBytes := (atoi (get "tot-net-in")).getD 0
    sendBytes := (atoi (get "tot-net-out")).getD 0
    connectedAtMs := match age with
      | some age => nowMillis - age * 1000
      | none => 0
    attributes :=
      if 0 < subscribed then base.insert "subscriptions" (toString subscribed) else base }

/-- The row of a line, where the line names a client. -/
def clientRow (nowMillis : Int) (line : String) : Option ClientConnection :=
  let line := trimSpace line
  if line = "" then none
  else
    let fields := fieldMap line
    let id := (fields["id"]?).getD ""
    if id = "" then none else some (connectionOf id fields nowMillis)

def parseClientList (raw : String) (nowMillis : Int) : List ClientConnection :=
  ((raw.toList.splitOn '\n').map String.ofList).filterMap (clientRow nowMillis)

/-! ### Servers and their clients -/

inductive Kind where
  | standalone
  | sentinel
  | cluster
deriving DecidableEq

/-- A deployment, with what its clients' lines can say behind the id. -/
structure Deployment where
  kind : Kind
  /-- The one server, the servers that can become the master, or the nodes of the cluster. -/
  servers : Nat
  told : Set String
  servers_pos : 0 < servers
  standalone : kind = .standalone → servers = 1
  told_nonempty : told.Nonempty
  oneLine : ∀ text ∈ told, '\n' ∉ text.toList

structure Client where
  id : Nat
  text : String
deriving DecidableEq

/-- A line of the reply to CLIENT LIST. -/
def Client.line (client : Client) : String :=
  "id=" ++ toString (client.id : Int) ++ " " ++ client.text

/-- The clients of each server, and the id its next one gets. -/
structure World where
  clients : Nat → List Client
  nextID : Nat → Nat
  master : Nat

namespace World

variable (w : World)

def connect (server : Nat) (text : String) : World where
  clients := Function.update w.clients server (⟨w.nextID server, text⟩ :: w.clients server)
  nextID := Function.update w.nextID server (w.nextID server + 1)
  master := w.master

def disconnect (server id : Nat) : World :=
  { w with clients :=
      Function.update w.clients server ((w.clients server).filter fun client => client.id ≠ id) }

/-- Another line for a client: its age, its last command and the like have moved on. -/
def retell (server id : Nat) (text : String) : World :=
  { w with clients := Function.update w.clients server ((w.clients server).map fun client =>
      if client.id = id then { client with text := text } else client) }

def Connected (server id : Nat) : Prop := ∃ client ∈ w.clients server, client.id = id

instance (server id : Nat) : Decidable (w.Connected server id) :=
  inferInstanceAs (Decidable (∃ client ∈ w.clients server, client.id = id))

/-- The reply to CLIENT LIST. -/
def clientList (server : Nat) : String :=
  "\n".intercalate ((w.clients server).map Client.line ++ [""])

/-- CLIENT KILL ID, sent over the connection `own`, which the server spares. -/
def clientKillByID (server own : Nat) (id : Int) : Except String Nat × World :=
  if id ≤ 0 then (.error "ERR client-id should be greater than 0", w)
  else if id.toNat ≠ own ∧ w.Connected server id.toNat then
    (.ok 1, w.disconnect server id.toNat)
  else (.ok 0, w)

end World

inductive Step where
  | connect (server : Nat) (text : String)
  | disconnect (server id : Nat)
  | retell (server id : Nat) (text : String)
  | failover (server : Nat)
deriving DecidableEq

/-- What happens to the servers and their clients. -/
inductive Deployment.Next (d : Deployment) : World → Step → World → Prop
  | connect {w : World} {server : Nat} {text : String} : server < d.servers → text ∈ d.told →
      d.Next w (.connect server text) (w.connect server text)
  | disconnect {w : World} {server id : Nat} :
      d.Next w (.disconnect server id) (w.disconnect server id)
  | retell {w : World} {server id : Nat} {text : String} : text ∈ d.told →
      d.Next w (.retell server id text) (w.retell server id text)
  | failover {w : World} {server : Nat} : d.kind = .sentinel → server < d.servers →
      d.Next w (.failover server) { w with master := server }

/-- Nobody is connected yet. -/
def World.fresh : World := ⟨fun _ => [], fun _ => 1, 0⟩

def Deployment.system (d : Deployment) : System World Step where
  Init w := w = .fresh
  Step := d.Next

/-! ### The page -/

def listClientConnections (w : World) (server : Nat) (nowMillis : Int) : List ClientConnection :=
  (parseClientList (w.clientList server) nowMillis).mergeSort fun left right =>
    left.name ≤ right.name

inductive CloseError where
  | notAClientID (name : String)
  | refused (id : Int) (err : String)
  | notConnected (id : Int)
deriving DecidableEq

/-- Close a row by its name, over the connection `own` of a server. -/
def closeClientConnection (w : World) (server own : Nat) (name : String) :
    Option CloseError × World :=
  match atoi (trimSpace name) with
  | none => (some (.notAClientID name), w)
  | some id =>
    match w.clientKillByID server own id with
    | (.error err, w) => (some (.refused id err), w)
    | (.ok 0, w) => (some (.notConnected id), w)
    | (.ok _, w) => (none, w)

/-- A command without a key can go to this server, over its client `own`: to the one there is, to
the master, or to a node of the client's choosing. -/
structure Deployment.Asks (d : Deployment) (w : World) (server own : Nat) : Prop where
  server_lt : server < d.servers
  master : d.kind = .sentinel → server = w.master
  own : w.Connected server own

/-- A row of the listing of `asked` is of a client of a server. -/
structure Listed (w : World) (asked : Nat) (nowMillis : Int) (row : ClientConnection)
    (server : Nat) (client : Client) : Prop where
  here : server = asked
  client_mem : client ∈ w.clients asked
  row_mem : row ∈ listClientConnections w asked nowMillis
  reads : clientRow nowMillis client.line = some row

/-- The client alone was disconnected, or nobody was and the call says so. -/
def Closes (w : World) (server id : Nat) (result : Option CloseError × World) : Prop :=
  w.Connected server id ∧ result = (none, w.disconnect server id) ∨ ∃ err, result = (some err, w)

/-- Whenever the page is listed, and whatever happens before one of its rows is closed. -/
structure Deployment.Right (d : Deployment) : Prop where
  complete : d.kind = .cluster → ∀ {w : World}, Reachable d.system w → ∀ {asked own : Nat},
    d.Asks w asked own → ∀ nowMillis : Int, ∀ server < d.servers, ∀ client ∈ w.clients server,
      ∃ row, Listed w asked nowMillis row server client
  closes : ∀ {w : World}, Reachable d.system w → ∀ {asked own : Nat}, d.Asks w asked own →
    ∀ {nowMillis : Int} {row : ClientConnection} {server : Nat} {client : Client},
      Listed w asked nowMillis row server client →
        ∀ {steps : List Step} {later : World}, Path d.system w steps later →
          ∀ {there own : Nat}, d.Asks later there own →
            Closes later server client.id (closeClientConnection later there own row.name)

/-! ### The id of a row -/

/-- The id that a text puts in the place of the one in front of it. -/
def idIn (text : String) : Option String := (fieldMap text)["id"]?

/-- The id that a client's line is read with. -/
def Client.readID (client : Client) : String :=
  (idIn client.text).getD (toString (client.id : Int))

/-- What is put into a map hides what was there. -/
theorem foldl_insert_getElem? (pairs : List (String × String))
    (map : ExtTreeMap String String compare) (key : String) :
    (pairs.foldl (fun map pair => map.insert pair.1 pair.2) map)[key]? =
      ((pairs.foldl (fun map pair => map.insert pair.1 pair.2)
        (∅ : ExtTreeMap String String compare))[key]?).or map[key]? := by
  induction pairs generalizing map with
  | nil => simp
  | cons pair pairs ih =>
    rw [List.foldl_cons, List.foldl_cons, ih, ih ((∅ : ExtTreeMap _ _ _).insert pair.1 pair.2),
      Option.or_assoc]
    congr 1
    rw [getElem?_insert, getElem?_insert]
    split <;> simp

theorem isSpace_of_mem_id {id : Nat} : ∀ c ∈ ("id=" ++ toString (id : Int)).toList,
    isSpace c = false := by
  intro c hc
  rw [String.toList_append, toList_toString_nat, List.mem_append] at hc
  rcases hc with hc | hc
  · rw [show "id=".toList = ['i', 'd', '='] from rfl] at hc
    simp only [List.mem_cons, List.not_mem_nil, or_false] at hc
    rcases hc with rfl | rfl | rfl <;> decide
  · exact not_isSpace_of_isDigit (Nat.isDigit_of_mem_toDigits (by decide) (by decide) hc)

theorem fields_clientLine (client : Client) :
    Text.fields client.line = ("id=" ++ toString (client.id : Int)) :: Text.fields client.text := by
  have hline : client.line.toList =
      ("id=" ++ toString (client.id : Int)).toList ++ ' ' :: client.text.toList := by
    rw [Client.line, String.toList_append, String.toList_append]
    simp
  have hid : words isSpace ("id=" ++ toString (client.id : Int)).toList =
      [("id=" ++ toString (client.id : Int)).toList] := by
    rw [words, List.splitOnP_eq_singleton isSpace_of_mem_id]
    simp
  rw [Text.fields, fieldsFunc, hline, words_append (by decide), hid, List.map_append, List.map_cons,
    String.ofList_toList]
  rfl

theorem pairOf_id (id : Nat) :
    pairOf ("id=" ++ toString (id : Int)) = some ("id", toString (id : Int)) := by
  have hcs : ("id=" ++ toString (id : Int)).toList =
      ['i', 'd'] ++ '=' :: (toString (id : Int)).toList := by
    rw [String.toList_append]
    rfl
  rw [pairOf, hcs, cut_append (by decide), Option.map_some, String.ofList_toList]

/-- **A line is read with its client's id**, unless the text behind it has another. -/
theorem fieldMap_clientLine (client : Client) :
    (fieldMap client.line)["id"]? = some client.readID := by
  rw [fieldMap, fields_clientLine, List.filterMap_cons, pairOf_id]
  simp only [List.foldl_cons]
  rw [foldl_insert_getElem?, getElem?_insert, if_pos rfl]
  change (idIn client.text).or (some (toString (client.id : Int))) = _
  rw [Client.readID]
  cases idIn client.text <;> rfl

theorem clientRow_line (nowMillis : Int) (client : Client) :
    clientRow nowMillis client.line =
      if client.readID = "" then none
      else some (connectionOf client.readID (fieldMap client.line) nowMillis) := by
  have hmap : fieldMap (trimSpace client.line) = fieldMap client.line := by
    rw [fieldMap, fields_trimSpace, fieldMap]
  have hline : trimSpace client.line ≠ "" := by
    intro h
    have := fields_trimSpace client.line
    rw [h, fields_clientLine] at this
    cases this
  rw [clientRow, if_neg hline, hmap]
  dsimp only
  rw [fieldMap_clientLine, Option.getD_some]

/-- A row has the id its client's line is read with. -/
theorem name_of_clientRow {nowMillis : Int} {client : Client} {row : ClientConnection}
    (h : clientRow nowMillis client.line = some row) : row.name = client.readID := by
  rw [clientRow_line] at h
  split at h
  · cases h
  · rw [← Option.some.inj h]
    rfl

/-! ### The listing -/

theorem line_oneLine {client : Client} (h : '\n' ∉ client.text.toList) :
    '\n' ∉ client.line.toList := by
  rw [Client.line, String.toList_append, String.toList_append, List.mem_append, List.mem_append]
  rintro ((hc | hc) | hc)
  · exact absurd (isSpace_of_mem_id '\n' hc) (by decide)
  · exact absurd hc (by decide)
  · exact h hc

/-- **The listing has a row for each client** whose line reads an id. -/
theorem parseClientList_reply {clients : List Client}
    (h : ∀ client ∈ clients, '\n' ∉ client.text.toList) (nowMillis : Int) :
    parseClientList ("\n".intercalate (clients.map Client.line ++ [""])) nowMillis =
      (clients.map Client.line).filterMap (clientRow nowMillis) := by
  have hsplit : ("\n".intercalate (clients.map Client.line ++ [""])).toList.splitOn '\n' =
      (clients.map Client.line ++ [""]).map String.toList := by
    rw [String.toList_intercalate]
    refine List.splitOn_intercalate '\n' ?_ (by simp)
    intro line hline
    obtain ⟨text, htext, rfl⟩ := List.mem_map.mp hline
    rcases List.mem_append.mp htext with htext | htext
    · obtain ⟨client, hclient, rfl⟩ := List.mem_map.mp htext
      exact line_oneLine (h client hclient)
    · rw [List.mem_singleton.mp htext]
      exact List.not_mem_nil
  have hback : (clients.map Client.line ++ [""]).map (String.ofList ∘ String.toList) =
      clients.map Client.line ++ [""] := by
    simp [Function.comp_def]
  rw [parseClientList, hsplit, List.map_map, hback, List.filterMap_append]
  exact List.append_nil _

/-! ### Who is connected -/

namespace World

variable {w : World} {server there id other : Nat} {text : String}

theorem mem_connect {client : Client} : client ∈ (w.connect server text).clients there ↔
    client ∈ w.clients there ∨ there = server ∧ client = ⟨w.nextID server, text⟩ := by
  by_cases h : there = server
  · subst h
    simp [connect, or_comm]
  · simp [connect, h]

theorem mem_disconnect {client : Client} : client ∈ (w.disconnect server id).clients there ↔
    client ∈ w.clients there ∧ ¬ (there = server ∧ client.id = id) := by
  by_cases h : there = server
  · subst h
    simp [disconnect]
  · simp [disconnect, h]

theorem mem_retell {client : Client} (h : client ∈ (w.retell server id text).clients there) :
    client ∈ w.clients there ∨ client.text = text := by
  by_cases hs : there = server
  · subst hs
    simp only [retell, Function.update_self] at h
    obtain ⟨old, hold, rfl⟩ := List.mem_map.mp h
    split
    · exact Or.inr rfl
    · exact Or.inl hold
  · simp only [retell, Function.update_of_ne hs] at h
    exact Or.inl h

theorem connected_connect : (w.connect server text).Connected there id ↔
    w.Connected there id ∨ there = server ∧ id = w.nextID server := by
  constructor
  · rintro ⟨client, hmem, rfl⟩
    rcases mem_connect.mp hmem with hmem | ⟨hthere, rfl⟩
    · exact Or.inl ⟨client, hmem, rfl⟩
    · exact Or.inr ⟨hthere, rfl⟩
  · rintro (⟨client, hmem, rfl⟩ | ⟨hthere, rfl⟩)
    · exact ⟨client, mem_connect.mpr (Or.inl hmem), rfl⟩
    · exact ⟨_, mem_connect.mpr (Or.inr ⟨hthere, rfl⟩), rfl⟩

theorem connected_disconnect : (w.disconnect server id).Connected there other ↔
    w.Connected there other ∧ ¬ (there = server ∧ other = id) := by
  constructor
  · rintro ⟨client, hmem, rfl⟩
    obtain ⟨hmem, hne⟩ := mem_disconnect.mp hmem
    exact ⟨⟨client, hmem, rfl⟩, hne⟩
  · rintro ⟨⟨client, hmem, rfl⟩, hne⟩
    exact ⟨client, mem_disconnect.mpr ⟨hmem, hne⟩, rfl⟩

end World

/-- The lines of the connected clients are lines the deployment has. -/
theorem told_mem {d : Deployment} {w : World} (h : Reachable d.system w) :
    ∀ server, ∀ client ∈ w.clients server, client.text ∈ d.told := by
  refine Reachable.inv (P := fun w => ∀ server, ∀ client ∈ w.clients server, client.text ∈ d.told)
    ?_ ?_ h
  · rintro w rfl server client hclient
    cases hclient
  · intro w step later ih hstep server client hclient
    cases hstep with
    | connect hlt htext =>
      rcases World.mem_connect.mp hclient with hclient | ⟨-, rfl⟩
      · exact ih server client hclient
      · exact htext
    | disconnect => exact ih server client (World.mem_disconnect.mp hclient).1
    | retell htext =>
      rcases World.mem_retell hclient with hclient | hsame
      · exact ih server client hclient
      · exact hsame ▸ htext
    | failover => exact ih server client hclient

theorem mem_listing {d : Deployment} {w : World} (h : Reachable d.system w) {server : Nat}
    {nowMillis : Int} {row : ClientConnection} :
    row ∈ listClientConnections w server nowMillis ↔
      ∃ client ∈ w.clients server, clientRow nowMillis client.line = some row := by
  have hlines : ∀ client ∈ w.clients server, '\n' ∉ client.text.toList := fun client hclient =>
    d.oneLine _ (told_mem h server client hclient)
  rw [listClientConnections, List.mem_mergeSort, World.clientList, parseClientList_reply hlines,
    List.mem_filterMap]
  simp only [List.mem_map, exists_exists_and_eq_and]

/-- A client whose line reads an id has a row. -/
theorem exists_listed {d : Deployment} {w : World} (h : Reachable d.system w) {asked : Nat}
    {client : Client} (hclient : client ∈ w.clients asked) (hid : client.readID ≠ "")
    (nowMillis : Int) : ∃ row, Listed w asked nowMillis row asked client := by
  have hrow := clientRow_line nowMillis client
  rw [if_neg hid] at hrow
  exact ⟨_, rfl, hclient, (mem_listing h).mpr ⟨client, hclient, hrow⟩, hrow⟩

/-! ### Closing -/

section

variable {w : World} {server there own id other : Nat} {name : String}

theorem close_refused (h : ∀ id, atoi (trimSpace name) = some id → id ≤ 0) :
    ∃ err, closeClientConnection w there own name = (some err, w) := by
  rw [closeClientConnection]
  cases hid : atoi (trimSpace name) with
  | none => exact ⟨_, rfl⟩
  | some id =>
    dsimp only
    rw [World.clientKillByID, if_pos (h id hid)]
    exact ⟨_, rfl⟩

/-- What a close does whose name reads an id. -/
theorem close_id (hid : atoi (trimSpace name) = some (id : Int)) (hpos : 0 < id) :
    closeClientConnection w there own name =
      if id ≠ own ∧ w.Connected there id then (none, w.disconnect there id)
      else (some (.notConnected id), w) := by
  have hkill : w.clientKillByID there own id =
      if id ≠ own ∧ w.Connected there id then (.ok 1, w.disconnect there id) else (.ok 0, w) := by
    rw [World.clientKillByID, if_neg (by omega)]
    rfl
  rw [closeClientConnection, hid]
  dsimp only
  rw [hkill]
  by_cases hkilled : id ≠ own ∧ w.Connected there id
  · rw [if_pos hkilled, if_pos hkilled]
    rfl
  · rw [if_neg hkilled, if_neg hkilled]
    rfl

/-- **On its own server a client's id closes that client**, or nobody. -/
theorem closes_own (hid : ∀ n, atoi (trimSpace name) = some n → n = (id : Int)) :
    Closes w server id (closeClientConnection w server own name) := by
  by_cases hclose : atoi (trimSpace name) = some (id : Int) ∧ 0 < id
  · rw [close_id hclose.1 hclose.2]
    split
    · rename_i hkilled
      exact Or.inl ⟨hkilled.2, rfl⟩
    · exact Or.inr ⟨_, rfl⟩
  · refine Or.inr (close_refused fun n hn => ?_)
    obtain rfl := hid n hn
    have : ¬ 0 < id := fun hpos => hclose ⟨hn, hpos⟩
    omega

/-- A close that disconnects another client is wrong. -/
theorem not_closes (hid : atoi (trimSpace name) = some (other : Int)) (hpos : 0 < other)
    (hown : other ≠ own) (hconnected : w.Connected there other)
    (hother : ¬ (there = server ∧ other = id)) :
    ¬ Closes w server id (closeClientConnection w there own name) := by
  rw [close_id hid hpos, if_pos ⟨hown, hconnected⟩]
  rintro (⟨-, hresult⟩ | ⟨err, hresult⟩)
  · have hstays : (w.disconnect server id).Connected there other :=
      World.connected_disconnect.mpr ⟨hconnected, hother⟩
    rw [← (Prod.mk.inj hresult).2] at hstays
    exact (World.connected_disconnect.mp hstays).2 ⟨rfl, rfl⟩
  · cases (Prod.mk.inj hresult).1

end

/-! ### When every close is right -/

/-- The text puts the id of another client in the place of its own. -/
def NamesOther (text : String) : Prop :=
  ∃ name, idIn text = some name ∧ ∃ id : Nat, 0 < id ∧ atoi (trimSpace name) = some (id : Int)

/-- No line is read as another client's, and a name is read by the server that gave it: there is
one, or nothing is closed by name. -/
structure Deployment.OneServer (d : Deployment) : Prop where
  own : ∀ text ∈ d.told, ¬ NamesOther text
  sentinel : d.kind = .sentinel → d.servers = 1 ∨ ∀ text ∈ d.told, idIn text ≠ none
  cluster : d.kind = .cluster → d.servers = 1 ∧ ∀ text ∈ d.told, idIn text ≠ some ""

section

variable {d : Deployment} {text : String}

theorem isSpace_of_mem_toString (id : Nat) : ∀ c ∈ (toString (id : Int)).toList,
    isSpace c = false := by
  intro c hc
  rw [toList_toString_nat] at hc
  exact not_isSpace_of_isDigit (Nat.isDigit_of_mem_toDigits (by decide) (by decide) hc)

theorem atoi_toString {id : Nat} {n : Int} (h : atoi (trimSpace (toString (id : Int))) = some n) :
    n = (id : Int) := by
  rw [trimSpace_eq_self (isSpace_of_mem_toString id), atoi, parseInt, toList_toString_nat,
    signedValue_toDigits] at h
  exact (Option.some.inj (Option.filter_eq_some_iff.mp h).1).symm

theorem atoi_one : atoi (trimSpace (toString ((1 : Nat) : Int))) = some ((1 : Nat) : Int) := by
  rw [trimSpace_eq_self (isSpace_of_mem_toString 1)]
  exact parseInt_toString (by decide) (by decide)

theorem toString_ne_empty (id : Nat) : toString (id : Int) ≠ "" := by
  intro h
  have hcs := congrArg String.toList h
  rw [toList_toString_nat] at hcs
  exact Nat.toDigits_ne_nil hcs

/-- What a line with a second id is read as closes nothing. -/
theorem refused_of_not_namesOther {name : String} (hname : idIn text = some name)
    (h : ¬ NamesOther text) : ∀ n, atoi (trimSpace name) = some n → n ≤ 0 := by
  intro n hn
  by_contra hpos
  obtain ⟨id, rfl⟩ := Int.eq_ofNat_of_zero_le (a := n) (by omega)
  exact h ⟨name, hname, id, by omega, hn⟩

/-- **On a deployment of one server every close is right.** -/
theorem Deployment.OneServer.right (h : d.OneServer) : d.Right where
  complete hkind w hw asked own hasks nowMillis server hserver client hclient := by
    obtain ⟨hone, htext⟩ := h.cluster hkind
    obtain rfl : server = asked := by
      have := hasks.server_lt
      omega
    refine exists_listed hw hclient ?_ nowMillis
    rw [Client.readID]
    cases hid : idIn client.text with
    | none => exact toString_ne_empty client.id
    | some name =>
      rintro rfl
      exact htext _ (told_mem hw _ _ hclient) hid
  closes {w} hw {asked own} hasks {nowMillis row server client} hlisted {steps later} _ {there own'}
      hasks' := by
    obtain ⟨rfl, hclient, -, hreads⟩ := hlisted
    have htext := told_mem hw _ _ hclient
    rw [name_of_clientRow hreads, Client.readID]
    cases hid : idIn client.text with
    | some name =>
      exact Or.inr (close_refused (refused_of_not_namesOther hid (h.own _ htext)))
    | none =>
      have hone : d.servers = 1 := by
        cases hkind : d.kind with
        | standalone => exact d.standalone hkind
        | sentinel => exact (h.sentinel hkind).resolve_right fun hall => hall _ htext hid
        | cluster => exact (h.cluster hkind).1
      obtain rfl : there = server := by
        have := hasks.server_lt
        have := hasks'.server_lt
        omega
      exact closes_own fun n hn => atoi_toString hn

/-! ### Where it goes wrong -/

theorem reachable_connect {w : World} {server : Nat} (hw : Reachable d.system w)
    (hserver : server < d.servers) (htext : text ∈ d.told) :
    Reachable d.system (w.connect server text) := .step hw (.connect hserver htext)

/-- So many clients with one line on the first server. -/
def crowd (text : String) : Nat → World
  | 0 => .fresh
  | n + 1 => (crowd text n).connect 0 text

theorem crowd_nextID (text : String) (n : Nat) : (crowd text n).nextID 0 = n + 1 := by
  induction n with
  | zero => rfl
  | succ n ih => simp [crowd, World.connect, ih]

theorem crowd_reachable (htext : text ∈ d.told) (n : Nat) : Reachable d.system (crowd text n) := by
  induction n with
  | zero => exact .init rfl
  | succ n ih => exact reachable_connect ih d.servers_pos htext

theorem crowd_mem (text : String) {n id : Nat} (h0 : 0 < id) (hn : id ≤ n) :
    ⟨id, text⟩ ∈ (crowd text n).clients 0 := by
  induction n with
  | zero => omega
  | succ n ih =>
    rw [crowd, World.mem_connect, crowd_nextID]
    by_cases hlast : id = n + 1
    · exact Or.inr ⟨rfl, by rw [hlast]⟩
    · exact Or.inl (ih (by omega))

theorem crowd_master (text : String) (n : Nat) : (crowd text n).master = 0 := by
  induction n with
  | zero => rfl
  | succ n ih => exact ih

/-- A line that is read as another client's closes that one. -/
theorem not_right_of_namesOther (htext : text ∈ d.told) (h : NamesOther text) : ¬ d.Right := by
  obtain ⟨name, hname, id, hpos, hid⟩ := h
  intro hright
  have hw := crowd_reachable htext (id + 1)
  have hlast : (⟨id + 1, text⟩ : Client) ∈ (crowd text (id + 1)).clients 0 :=
    crowd_mem text (by omega) le_rfl
  have hother := crowd_mem text (n := id + 1) hpos (by omega)
  have hasks : d.Asks (crowd text (id + 1)) 0 (id + 1) :=
    ⟨d.servers_pos, fun _ => (crowd_master text _).symm, ⟨_, hlast, rfl⟩⟩
  have hread : (⟨id + 1, text⟩ : Client).readID = name := by
    rw [Client.readID, hname, Option.getD_some]
  have hne : (⟨id + 1, text⟩ : Client).readID ≠ "" := by
    rw [hread]
    rintro rfl
    cases hid
  obtain ⟨row, hlisted⟩ := exists_listed hw hlast hne 0
  have hcloses := hright.closes hw hasks hlisted (.refl _) hasks
  rw [name_of_clientRow hlisted.reads, hread] at hcloses
  exact not_closes hid hpos (by omega) ⟨_, hother, rfl⟩ (by simp) hcloses

/-- With a client on each of two servers, the id of the one closes the other. -/
theorem not_right_of_two (hkind : d.kind ≠ .standalone) (htwo : 1 < d.servers)
    (htext : text ∈ d.told) (hid : idIn text = none) : ¬ d.Right := by
  intro hright
  have hw : Reachable d.system (crowd text 1) := crowd_reachable htext 1
  have hclient : (⟨1, text⟩ : Client) ∈ (crowd text 1).clients 0 := crowd_mem text (by omega) le_rfl
  have hread : (⟨1, text⟩ : Client).readID = toString ((1 : Nat) : Int) := by
    rw [Client.readID, hid, Option.getD_none]
  obtain ⟨row, hlisted⟩ := exists_listed hw hclient (by rw [hread]; exact toString_ne_empty 1) 0
  have hasks : d.Asks (crowd text 1) 0 1 := ⟨by omega, fun _ => rfl, ⟨_, hclient, rfl⟩⟩
  have hpath : ∃ steps later, Path d.system (crowd text 1) steps later ∧
      later.Connected 1 1 ∧ d.Asks later 1 2 := by
    have hfirst : d.Next (crowd text 1) (.connect 1 text) ((crowd text 1).connect 1 text) :=
      .connect htwo htext
    have hsecond : d.Next ((crowd text 1).connect 1 text) (.connect 1 text)
        (((crowd text 1).connect 1 text).connect 1 text) := .connect htwo htext
    have hpath := Path.tail (S := d.system) (Path.tail (.refl _) hfirst) hsecond
    have hone : (((crowd text 1).connect 1 text).connect 1 text).Connected 1 1 :=
      World.connected_connect.mpr (Or.inl (World.connected_connect.mpr (Or.inr ⟨rfl, rfl⟩)))
    have htwo' : (((crowd text 1).connect 1 text).connect 1 text).Connected 1 2 :=
      World.connected_connect.mpr (Or.inr ⟨rfl, rfl⟩)
    cases hk : d.kind with
    | standalone => exact absurd hk hkind
    | cluster => exact ⟨_, _, hpath, hone, ⟨htwo, fun h => (nomatch hk.symm.trans h), htwo'⟩⟩
    | sentinel =>
      exact ⟨_, _, .tail hpath (.failover hk htwo), hone, ⟨htwo, fun _ => rfl, htwo'⟩⟩
  obtain ⟨steps, later, hpath, hone, hasks'⟩ := hpath
  have hcloses := hright.closes hw hasks hlisted hpath hasks'
  rw [name_of_clientRow hlisted.reads, hread] at hcloses
  exact not_closes atoi_one (by omega) (by omega) hone (by simp) hcloses

/-- The listing of one node lacks the clients of another. -/
theorem not_right_of_nodes (hkind : d.kind = .cluster) (htwo : 1 < d.servers) : ¬ d.Right := by
  intro hright
  obtain ⟨text, htext⟩ := d.told_nonempty
  have hw := reachable_connect (crowd_reachable htext 1) htwo htext
  have hasks : d.Asks ((crowd text 1).connect 1 text) 0 1 :=
    ⟨by omega, fun _ => rfl, World.connected_connect.mpr
      (Or.inl ⟨_, crowd_mem text (by omega) le_rfl, rfl⟩)⟩
  obtain ⟨row, hlisted⟩ := hright.complete hkind hw hasks 0 1 htwo _
    (World.mem_connect.mpr (Or.inr ⟨rfl, rfl⟩))
  cases hlisted.here

/-- A client whose line reads no id is not listed. -/
theorem not_right_of_hidden (hkind : d.kind = .cluster) (htext : text ∈ d.told)
    (hid : idIn text = some "") : ¬ d.Right := by
  intro hright
  have hclient : (⟨1, text⟩ : Client) ∈ (crowd text 1).clients 0 :=
    crowd_mem text (by omega) le_rfl
  have hasks : d.Asks (crowd text 1) 0 1 := ⟨d.servers_pos, fun _ => rfl, ⟨_, hclient, rfl⟩⟩
  obtain ⟨row, hlisted⟩ := hright.complete hkind (crowd_reachable htext 1) hasks 0 0 d.servers_pos _
    hclient
  have hreads := hlisted.reads
  rw [clientRow_line, if_pos (by rw [Client.readID, hid]; rfl)] at hreads
  cases hreads

/-- **Closing a row closes its client** exactly if no line is read as another client's and the
names are read by the one server that gave them. -/
theorem Deployment.closes_right_iff (d : Deployment) : d.Right ↔ d.OneServer := by
  refine ⟨fun h => ?_, OneServer.right⟩
  have hpos := d.servers_pos
  refine ⟨fun text htext hnames => not_right_of_namesOther htext hnames h, fun hkind => ?_,
    fun hkind => ⟨?_, fun text htext hid => not_right_of_hidden hkind htext hid h⟩⟩
  · by_contra hcond
    push Not at hcond
    obtain ⟨hservers, text, htext, hid⟩ := hcond
    exact not_right_of_two (by rw [hkind]; decide) (by omega) htext hid h
  · by_contra hservers
    exact not_right_of_nodes hkind (by omega) h

/-- A cluster of two nodes, whose clients have an ordinary line. -/
def twoNodes : Deployment where
  kind := .cluster
  servers := 2
  told := {"addr=10.0.0.7:51000 name= db=0 cmd=get user=default"}
  servers_pos := Nat.zero_lt_two
  standalone := nofun
  told_nonempty := ⟨_, rfl⟩
  oneLine := by
    rintro text rfl
    decide

/-- The first client of the one node is listed, and that of the other is closed. -/
theorem twoNodes_close_other : ¬ twoNodes.Right :=
  not_right_of_two (by decide) (by decide) rfl (by decide)

end

end MqStudio.Redisstream
