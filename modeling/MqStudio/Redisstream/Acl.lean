import MqStudio.Lib.JavaScript
import MqStudio.Lib.Lookup

/-!
# Redis users

`redisstream/acl.go` and the form of `AclUserDialog.tsx`: a user is read off its line of
`ACL LIST`, sorted into columns, edited as text and written back with `SETUSER`, which begins
with a reset.

* `parseAclUser`, `toForm`, `toDraft`, `buildAclRules`: the way of a line through the page.
* `User`, `setRule`: what the server keeps of a user, and what one argument of `SETUSER` does.
* `Server.save`: the save.
-/

namespace MqStudio.Redisstream

open Lib.Text Lib.Lookup
open Lib.JavaScript (isJsSpace jsTrim)

/-! ### Reading a line -/

structure AclUser where
  name : String
  enabled : Bool
  noPassword : Bool
  passwordCount : Nat
  keyPatterns : List String
  channelPatterns : List String
  commandRules : String
  selectors : List String
  rule : String

/-- The columns a field is sorted into. -/
inductive Column where
  | on
  | off
  | nopass
  | password
  | selector
  | key
  | channel
  | command
  /-- `sanitize-payload`, and anything a future release adds. -/
  | other
  deriving DecidableEq

def columnOf (field : String) : Column :=
  if field = "on" then .on
  else if field = "off" then .off
  else if field = "nopass" then .nopass
  else if hasPrefix field "#" then .password
  else if hasPrefix field "(" then .selector
  else if field = "allkeys" || hasPrefix field "~" || hasPrefix field "%" then .key
  else if field = "allchannels" || field = "resetchannels" || hasPrefix field "&" then .channel
  else if hasPrefix field "+" || hasPrefix field "-" then .command
  else .other

/-- A user that is being read, and its command rules so far. -/
structure Reading where
  user : AclUser
  commands : List String

def Reading.put (r : Reading) (field : String) : Reading :=
  match columnOf field with
  | .on => { r with user := { r.user with enabled := true } }
  | .off => { r with user := { r.user with enabled := false } }
  | .nopass => { r with user := { r.user with noPassword := true } }
  | .password => { r with user := { r.user with passwordCount := r.user.passwordCount + 1 } }
  | .key => { r with user := { r.user with keyPatterns := r.user.keyPatterns ++ [field] } }
  | .channel =>
    { r with user := { r.user with channelPatterns := r.user.channelPatterns ++ [field] } }
  | .command => { r with commands := r.commands ++ [field] }
  | .selector | .other => r

/-- A selector takes the rest of the line. -/
def Reading.fields (r : Reading) : List String → Reading
  | [] => r
  | field :: rest =>
    if columnOf field = .selector then
      { r with user := { r.user with
        selectors := r.user.selectors ++ [" ".intercalate (field :: rest)] } }
    else (r.put field).fields rest

def parseAclUser (line : String) : Option AclUser :=
  match Lib.Text.fields line with
  | "user" :: name :: rest =>
    let start : AclUser := ⟨name, false, false, 0, [], [], "", [], line⟩
    let read := Reading.fields ⟨start, []⟩ rest
    some { read.user with commandRules := " ".intercalate read.commands }
  | _ => none

/-- The stored password hashes of a rule line. -/
def passwordHashesOf (line : String) : List String :=
  ((Lib.Text.fields line).filter fun field => hasPrefix field "#").map fun field =>
    trimPrefix field "#"

/-! ### The form -/

inductive AuthChoice where
  | keep
  | set
  | any
  | none
  deriving DecidableEq

structure AclUserForm where
  name : String
  enabled : Bool
  auth : AuthChoice
  password : String
  keyPatterns : String
  channelPatterns : String
  commandRules : String

/-- The key of the message that keeps the form from being submitted. -/
def validate (form : AclUserForm) (existing : Bool) : Option String :=
  let name := jsTrim form.name
  if name = "" then some "board.acl.redis.form.nameRequired"
  else if name.toList.any isJsSpace then some "board.acl.redis.form.nameSpaces"
  else if form.auth = .set && form.password = "" then some "board.acl.redis.form.passwordRequired"
  else if form.auth = .keep && !existing then some "board.acl.redis.form.passwordRequired"
  else none

/-- `words` of the form. -/
def formWords (value : String) : List String := fieldsFunc isJsSpace value

/-- What the form sends, and `SaveAclUser` is given. -/
structure AclUserSpec where
  name : String
  enabled : Bool
  password : String
  clearPasswords : Bool
  noPassword : Bool
  keyPatterns : List String
  channelPatterns : List String
  commandRules : List String

def toDraft (form : AclUserForm) : AclUserSpec where
  name := jsTrim form.name
  enabled := form.enabled
  password := if form.auth = .set then form.password else ""
  clearPasswords := form.auth = .none
  noPassword := form.auth = .any
  keyPatterns := formWords form.keyPatterns
  channelPatterns := formWords form.channelPatterns
  commandRules := formWords form.commandRules

/-- The rules of a column, trimmed and without blanks. -/
def trimmed (rules : List String) : List String := (rules.map trimSpace).filter (· ≠ "")

def buildAclRules (spec : AclUserSpec) (keepHashes : List String) : List String :=
  let passwords :=
    if spec.noPassword then ["nopass"]
    else if spec.password ≠ "" then [">" ++ spec.password]
    else if !spec.clearPasswords then keepHashes.map ("#" ++ ·)
    else []
  "reset" :: (if spec.enabled then "on" else "off") :: passwords ++ trimmed spec.keyPatterns ++
    trimmed spec.channelPatterns ++ trimmed spec.commandRules

/-! ### The server -/

/-- A user as the server keeps it.  Patterns and command rules are the words of its line.
`channels` is `none` for all channels. -/
structure User where
  enabled : Bool
  nopass : Bool
  sanitizePayload : Bool
  passwords : List String
  keys : List String
  channels : Option (List String)
  commands : List String
  selectors : List String
  deriving DecidableEq

/-- A user after a reset. -/
def User.fresh : User := ⟨false, false, true, [], [], some [], ["-@all"], []⟩

def User.channelWords (u : User) : List String :=
  match u.channels with
  | none => ["&*"]
  | some patterns => "resetchannels" :: patterns

/-- The words of a line in front of the selectors. -/
def User.rules (u : User) : List String :=
  (if u.enabled then "on" else "off") :: (if u.nopass then ["nopass"] else []) ++
    (if u.sanitizePayload then "sanitize-payload" else "skip-sanitize-payload") ::
    u.passwords.map ("#" ++ ·) ++ u.keys ++ u.channelWords ++ u.commands

def aclLine (name : String) (u : User) : String :=
  " ".intercalate ("user" :: name :: u.rules ++ u.selectors)

/-- A stored password is a digest in lower case. -/
def isHash (hash : String) : Bool :=
  hash.toList.length = 64 &&
    hash.toList.all fun c => ('0' ≤ c && c ≤ '9') || ('a' ≤ c && c ≤ 'f')

/-- What a command rule is about, behind its sign. -/
def subject (rule : String) : List Char := rule.toList.drop 1

def addWord (words : List String) (word : String) : List String :=
  if word ∈ words then words else words ++ [word]

/-- A rule about all commands replaces the rules there are, another the one on the same subject. -/
def addCommand (rules : List String) (rule : String) : List String :=
  if subject rule = "@all".toList then [rule]
  else rules.filter (fun other => subject other ≠ subject rule) ++ [rule]

/-- One argument of `SETUSER`, which refuses what it does not know. -/
def setRule (digest : String → String) (u : User) (rule : String) : Option User :=
  if rule = "reset" then some .fresh
  else if rule = "on" then some { u with enabled := true }
  else if rule = "off" then some { u with enabled := false }
  else if rule = "nopass" then some { u with nopass := true, passwords := [] }
  else if rule = "sanitize-payload" then some { u with sanitizePayload := true }
  else if rule = "skip-sanitize-payload" then some { u with sanitizePayload := false }
  else if rule = "allkeys" || rule = "~*" then some { u with keys := ["~*"] }
  else if rule = "allchannels" || rule = "&*" then some { u with channels := none }
  else if rule = "resetchannels" then some { u with channels := some [] }
  else match rule.toList with
    | '#' :: _ =>
      let hash := trimPrefix rule "#"
      if isHash hash then some { u with nopass := false, passwords := addWord u.passwords hash }
      else none
    | '>' :: _ =>
      some { u with
        nopass := false
        passwords := addWord u.passwords (digest (trimPrefix rule ">")) }
    | '~' :: _ | '%' :: _ =>
      if u.keys = ["~*"] then none else some { u with keys := addWord u.keys rule }
    | '&' :: _ => u.channels.map fun patterns => { u with channels := some (addWord patterns rule) }
    | '+' :: _ | '-' :: _ => some { u with commands := addCommand u.commands rule }
    | '(' :: _ => some { u with selectors := u.selectors ++ [rule] }
    | _ => none

/-- Arguments are applied from left to right, and all of them or none. -/
def setRules (digest : String → String) (u : User) (rules : List String) : Option User :=
  rules.foldlM (setRule digest) u

/-- A character that neither side takes for white space. -/
def ClearChar (c : Char) : Prop := isSpace c = false ∧ isJsSpace c = false

instance (c : Char) : Decidable (ClearChar c) := inferInstanceAs (Decidable (_ ∧ _))

def Clear (word : String) : Prop := ∀ c ∈ word.toList, ClearChar c

instance (word : String) : Decidable (Clear word) := List.decidableBAll ClearChar word.toList

/-- What the server keeps of a user and prints in a line. -/
structure User.Printable (u : User) : Prop where
  hashes : ∀ hash ∈ u.passwords, isHash hash = true
  nodup_passwords : u.passwords.Nodup
  nopass : u.nopass = true → u.passwords = []
  keys : u.keys = ["~*"] ∨ u.keys.Nodup ∧ ∀ key ∈ u.keys, key ≠ "~*" ∧
    (key.toList.head? = some '~' ∨ key.toList.head? = some '%')
  channels : ∀ patterns ∈ u.channels, patterns.Nodup ∧ ∀ pattern ∈ patterns, pattern ≠ "&*" ∧
    pattern.toList.head? = some '&'
  commands : ∃ all rest, u.commands = all :: rest ∧ (all = "+@all" ∨ all = "-@all")
  signs : ∀ rule ∈ u.commands, rule.toList.head? = some '+' ∨ rule.toList.head? = some '-'
  nodup_commands : (u.commands.map subject).Nodup
  selectors : ∀ selector ∈ u.selectors, selector.toList.head? = some '('

/-- The users of a server, by name.  A name is one word of the rule language. -/
structure Server where
  users : List (String × User)
  nodup_names : (users.map (·.1)).Nodup
  plain : ∀ entry ∈ users, entry.1 ≠ "" ∧ Clear entry.1
  printable : ∀ entry ∈ users, entry.2.Printable

def Server.aclList (s : Server) : List String := s.users.map fun entry => aclLine entry.1 entry.2

inductive SaveError where
  | noUser
  | invalid (message : String)
  | nameRequired
  | nameSpaces
  | setUser (name : String)

/-- The users by name.  A line that is no user's is left out. -/
def listAclUsers (lines : List String) : List AclUser :=
  (lines.filterMap parseAclUser).insertionSort fun left right => ¬ right.name < left.name

def aclUser (lines : List String) (name : String) : Option AclUser :=
  (listAclUsers lines).find? fun user => user.name = name

/-- `SETUSER`, for a user that is there or a new one. -/
def setUser (digest : String → String) (users : List (String × User)) (name : String)
    (rules : List String) : Option (List (String × User)) :=
  match users.find? fun entry => entry.1 = name with
  | some entry => (setRules digest entry.2 rules).map fun u =>
    users.map fun other => if other.1 = name then (name, u) else other
  | none => (setRules digest .fresh rules).map fun u => users ++ [(name, u)]

def Server.saveAclUser (digest : String → String) (s : Server) (spec : AclUserSpec) :
    Except SaveError (List (String × User)) :=
  let name := trimSpace spec.name
  if name = "" then .error .nameRequired
  else if name.toList.any fun c => c = ' ' ∨ c = '\t' ∨ c = '\r' ∨ c = '\n' then
    .error .nameSpaces
  else
    let hashes :=
      if spec.password = "" && !spec.clearPasswords && !spec.noPassword then
        ((aclUser s.aclList name).map fun user => passwordHashesOf user.rule).getD []
      else []
    match setUser digest s.users name (buildAclRules spec hashes) with
    | some users => .ok users
    | none => .error (.setUser name)

end MqStudio.Redisstream
