import MqStudio.Lib.Text

/-!
# ActiveMQ object names

`activemq/objectname.go`: the names of the management beans of both products.  Classic writes the
values of its tree bare, Artemis quotes them.

* `Names`: the names of the broker, of a destination and of a queue under an address.
* `parse_toString`: a name that was built is read back, whatever its quoted values hold.
-/

namespace MqStudio.Activemq

open Lib.Text

inductive Product where
  | classic
  | artemis
  deriving DecidableEq

def classicDomain : String := "org.apache.activemq"
def artemisDomain : String := "org.apache.activemq.artemis"

inductive RoutingType where
  | anycast
  | multicast
  deriving DecidableEq

def RoutingType.text : RoutingType → String
  | .anycast => "anycast"
  | .multicast => "multicast"

inductive DestinationKind where
  | queue
  | topic
  deriving DecidableEq

def DestinationKind.routing : DestinationKind → RoutingType
  | .topic => .multicast
  | .queue => .anycast

/-! ### Quoting -/

/-- The escapes of `javax.management.ObjectName.quote`. -/
def escape : List Char → List Char
  | [] => []
  | c :: cs =>
    if c = '\\' ∨ c = '"' ∨ c = '*' ∨ c = '?' then '\\' :: c :: escape cs
    else if c = '\n' then '\\' :: 'n' :: escape cs
    else c :: escape cs

def quote (value : String) : String := String.ofList ('"' :: escape value.toList ++ ['"'])

def unescape : List Char → List Char
  | '\\' :: 'n' :: cs => '\n' :: unescape cs
  | '\\' :: c :: cs => c :: unescape cs
  | c :: cs => c :: unescape cs
  | [] => []

/-- A value between quotes is unescaped, any other is left as it is. -/
def unquote : List Char → List Char
  | '"' :: cs => if cs.getLast? = some '"' then unescape cs.dropLast else '"' :: cs
  | cs => cs

theorem unescape_escape (cs : List Char) : unescape (escape cs) = cs := by
  induction cs with
  | nil => rfl
  | cons c cs ih =>
    rw [escape]
    split
    · rename_i hc
      have hn : c ≠ 'n' := by rcases hc with rfl | rfl | rfl | rfl <;> decide
      rw [unescape, ih]
      exact hn
    · rename_i hc
      split
      · rename_i hn
        rw [unescape, ih, hn]
      · have hb : c ≠ '\\' := fun hb => hc (Or.inl hb)
        rw [unescape, ih]
        · exact fun _ hb' _ => hb hb'
        · exact fun _ _ hb' _ => hb hb'

/-! ### Object names -/

/-- A name's domain and keys.  The keys are in alphabetical order. -/
structure ObjectName where
  domain : String
  keys : List (String × String)

def newObjectName (domain : String) : ObjectName := ⟨domain, []⟩

def insertKey (key value : String) : List (String × String) → List (String × String)
  | [] => [(key, value)]
  | pair :: pairs =>
    if key < pair.1 then (key, value) :: pair :: pairs
    else if key = pair.1 then (key, value) :: pairs
    else pair :: insertKey key value pairs

theorem insertKey_nil (key value : String) : insertKey key value [] = [(key, value)] := rfl

theorem insertKey_before {key other : String} (h : key < other) (value text : String)
    (pairs : List (String × String)) :
    insertKey key value ((other, text) :: pairs) = (key, value) :: (other, text) :: pairs := by
  rw [insertKey, if_pos h]

theorem insertKey_after {key other : String} (h : ¬ key < other ∧ key ≠ other)
    (value text : String) (pairs : List (String × String)) :
    insertKey key value ((other, text) :: pairs) = (other, text) :: insertKey key value pairs := by
  rw [insertKey, if_neg h.1, if_neg h.2]

/-- `with`: a key whose value is written bare. -/
def ObjectName.withBare (name : ObjectName) (key value : String) : ObjectName :=
  { name with keys := insertKey key value name.keys }

def ObjectName.withQuoted (name : ObjectName) (key value : String) : ObjectName :=
  name.withBare key (quote value)

def ObjectName.toString (name : ObjectName) : String :=
  name.domain ++ ":" ++ ",".intercalate (name.keys.map fun pair => pair.1 ++ "=" ++ pair.2)

/-- Reads up to the closing quote, which an escape does not give. -/
def scanQuoted : List Char → Option (List Char × List Char)
  | [] => none
  | '\\' :: c :: cs => (scanQuoted cs).map fun p => ('\\' :: c :: p.1, p.2)
  | '\\' :: [] => none
  | '"' :: cs => some (['"'], cs)
  | c :: cs => (scanQuoted cs).map fun p => (c :: p.1, p.2)

/-- Reads one value, and what follows its comma. -/
def scanValue : List Char → List Char × List Char
  | '"' :: cs =>
    match scanQuoted cs with
    | some (value, ',' :: remainder) => ('"' :: value, remainder)
    | some (value, remainder) => ('"' :: value, remainder)
    | none => ('"' :: cs, [])
  | cs => (cut ',' cs).getD (cs, [])

theorem scanQuoted_length {cs value rest : List Char} (h : scanQuoted cs = some (value, rest)) :
    rest.length ≤ cs.length := by
  induction cs using scanQuoted.induct generalizing value with
  | case1 => cases h
  | case2 c cs ih =>
    rw [scanQuoted] at h
    obtain ⟨⟨v, r⟩, hp, he⟩ := Option.map_eq_some_iff.mp h
    obtain ⟨-, rfl⟩ := Prod.mk.inj he
    have hlen : r.length ≤ cs.length := ih hp
    simp only [List.length_cons]
    omega
  | case3 => cases h
  | case4 cs =>
    obtain ⟨-, rfl⟩ := Prod.mk.inj (Option.some.inj h)
    simp
  | case5 c cs hne hnil hq ih =>
    rw [scanQuoted] at h
    · obtain ⟨⟨v, r⟩, hp, he⟩ := Option.map_eq_some_iff.mp h
      obtain ⟨-, rfl⟩ := Prod.mk.inj he
      have hlen : r.length ≤ cs.length := ih hp
      simp only [List.length_cons]
      omega
    all_goals assumption

theorem cut_getD_length (sep : Char) (cs : List Char) :
    ((cut sep cs).getD (cs, [])).2.length ≤ cs.length := by
  cases hc : cut sep cs with
  | none => exact Nat.zero_le _
  | some p =>
    obtain ⟨before, after⟩ := p
    obtain ⟨rfl, -⟩ := cut_spec hc
    simp only [Option.getD_some, List.length_append, List.length_cons]
    omega

theorem scanValue_length (cs : List Char) : (scanValue cs).2.length ≤ cs.length := by
  unfold scanValue
  split
  · rename_i cs
    split
    · rename_i value remainder hs
      have := scanQuoted_length hs
      simp only [List.length_cons] at this ⊢
      omega
    · rename_i value remainder _ hs
      have := scanQuoted_length hs
      simp only [List.length_cons]
      omega
    · simp
  · exact cut_getD_length _ _

/-- The keys behind the domain, in the order they are read.  `none` is a key with no value. -/
def parseKeys (rest : List Char) : Option (List (String × String)) :=
  if rest = [] then some []
  else
    match _hc : cut '=' rest with
    | none => none
    | some (key, more) =>
      (parseKeys (scanValue more).2).map
        ((String.ofList key, String.ofList (unquote (scanValue more).1)) :: ·)
termination_by rest.length
decreasing_by
  have hlen := scanValue_length more
  obtain ⟨rfl, -⟩ := cut_spec _hc
  simp only [List.length_append, List.length_cons]
  omega

def parseObjectName (raw : String) : Option ObjectName := do
  let (domain, rest) ← cut ':' raw.toList
  let keys ← parseKeys rest
  return ⟨String.ofList domain, keys⟩

/-- `keys[key]` of the parsed map, where a later key takes the place of an earlier one. -/
def ObjectName.value (name : ObjectName) (key : String) : String :=
  ((name.keys.reverse.find? fun pair => pair.1 = key).map (·.2)).getD ""

/-! ### Reading back what was built -/

/-- A value that is read as it is written: bare, or quoted. -/
inductive Written : String → String → Prop
  | bare {value : String} (hcomma : ',' ∉ value.toList) (hquote : value.toList.head? ≠ some '"') :
    Written value value
  | quoted (value : String) : Written (quote value) value

theorem scanQuoted_escape (cs rest : List Char) :
    scanQuoted (escape cs ++ '"' :: rest) = some (escape cs ++ ['"'], rest) := by
  induction cs with
  | nil => rfl
  | cons c cs ih =>
    rw [escape]
    split
    · simp [scanQuoted, ih]
    · rename_i hc
      split
      · simp [scanQuoted, ih]
      · have hb : c ≠ '\\' := fun hb => hc (Or.inl hb)
        have hq : c ≠ '"' := fun hq => hc (Or.inr (Or.inl hq))
        rw [List.cons_append, scanQuoted, ih]
        · rfl
        · exact fun _ _ hb' _ => hb hb'
        · exact fun hb' _ => hb hb'
        · exact hq

variable {text value : String}

theorem unquote_written (h : Written text value) : String.ofList (unquote text.toList) = value := by
  cases h with
  | bare hcomma hquote =>
    cases hcs : text.toList with
    | nil => rw [← String.ofList_toList (s := text), hcs]; rfl
    | cons c cs =>
      have hc : c ≠ '"' := by
        rintro rfl
        exact hquote (by rw [hcs]; rfl)
      rw [unquote, ← hcs, String.ofList_toList]
      intro _ he
      exact hc (List.cons.inj he).1
  | quoted value =>
    rw [quote, String.toList_ofList, List.cons_append, unquote, if_pos (by simp),
      List.dropLast_concat, unescape_escape, String.ofList_toList]

/-- A written value is scanned up to the comma behind it. -/
theorem scanValue_comma (h : Written text value) (rest : List Char) :
    scanValue (text.toList ++ ',' :: rest) = (text.toList, rest) := by
  cases h with
  | bare hcomma hquote =>
    rw [scanValue, cut_append hcomma]
    · rfl
    · intro cs he
      cases hcs : text.toList with
      | nil => simp [hcs] at he
      | cons c more =>
        rw [hcs] at he hquote
        exact hquote (congrArg some (List.cons.inj he).1)
  | quoted value =>
    have hscan := scanQuoted_escape value.toList (',' :: rest)
    simp only [quote, String.toList_ofList, List.cons_append, List.append_assoc, List.nil_append,
      scanValue, hscan]

theorem scanValue_end (h : Written text value) : scanValue text.toList = (text.toList, []) := by
  cases h with
  | bare hcomma hquote =>
    rw [scanValue, cut_eq_none hcomma]
    · rfl
    · intro cs he
      exact hquote (by rw [he]; rfl)
  | quoted value =>
    have hscan := scanQuoted_escape value.toList []
    simp only [quote, String.toList_ofList, List.cons_append, scanValue, hscan]

theorem parseKeys_cons {key text value : String} {more rest : List Char} (hkey : '=' ∉ key.toList)
    (hscan : scanValue more = (text.toList, rest)) (htext : Written text value) :
    parseKeys (key.toList ++ '=' :: more) = (parseKeys rest).map ((key, value) :: ·) := by
  have hne : key.toList ++ '=' :: more ≠ [] := by simp
  rw [parseKeys, if_neg hne]
  split
  · rename_i hcut
    rw [cut_append hkey] at hcut
    cases hcut
  · rename_i k m hcut
    rw [cut_append hkey] at hcut
    obtain ⟨rfl, rfl⟩ := Prod.mk.inj (Option.some.inj hcut)
    rw [hscan, String.ofList_toList, unquote_written htext]

/-- A pair of a name, and what is read of it. -/
def Pair (written read : String × String) : Prop :=
  '=' ∉ written.1.toList ∧ read.1 = written.1 ∧ Written written.2 read.2

theorem parseKeys_joined {pairs keys : List (String × String)} (h : List.Forall₂ Pair pairs keys) :
    parseKeys ([','].intercalate (pairs.map fun pair => pair.1.toList ++ '=' :: pair.2.toList)) =
      some keys := by
  induction h with
  | nil => rw [List.map_nil, List.intercalate_nil, parseKeys, if_pos rfl]
  | @cons pair read pairs keys hpair hpairs ih =>
    obtain ⟨key, text⟩ := pair
    obtain ⟨readKey, value⟩ := read
    obtain ⟨hkey, rfl, htext⟩ : '=' ∉ key.toList ∧ readKey = key ∧ Written text value := hpair
    cases hpairs with
    | nil =>
      rw [List.map_singleton, List.intercalate_singleton,
        parseKeys_cons hkey (scanValue_end htext) htext, parseKeys, if_pos rfl]
      rfl
    | cons _ _ =>
      rw [List.map_cons, List.map_cons, List.intercalate_cons_cons, List.append_assoc,
        List.append_assoc, List.cons_append, List.singleton_append,
        parseKeys_cons hkey (scanValue_comma htext _) htext]
      rw [List.map_cons] at ih
      rw [ih]
      rfl

/-- **A name that was built is read back**, with its values unquoted. -/
theorem parse_toString {name : ObjectName} {keys : List (String × String)}
    (hdomain : ':' ∉ name.domain.toList) (h : List.Forall₂ Pair name.keys keys) :
    parseObjectName name.toString = some ⟨name.domain, keys⟩ := by
  have htext : name.toString.toList = name.domain.toList ++ ':' ::
      [','].intercalate (name.keys.map fun pair => pair.1.toList ++ '=' :: pair.2.toList) := by
    simp [ObjectName.toString, List.map_map, Function.comp_def]
  rw [parseObjectName, htext, cut_append hdomain]
  simp [parseKeys_joined h]

/-! ### The names of a broker -/

/-- The names of one broker's tree. -/
structure Names where
  product : Product
  broker : String

def Names.brokerMBean (n : Names) : String :=
  match n.product with
  | .artemis => ((newObjectName artemisDomain).withQuoted "broker" n.broker).toString
  | .classic =>
    (((newObjectName classicDomain).withBare "type" "Broker").withBare "brokerName"
      n.broker).toString

/-- A queue under an address. -/
def Names.artemisQueue (n : Names) (address queue : String) (routing : RoutingType) : String :=
  ((((((newObjectName artemisDomain).withQuoted "address" address).withQuoted "broker"
    n.broker).withBare "component" "addresses").withQuoted "queue" queue).withQuoted "routing-type"
    routing.text).withBare "subcomponent" "queues" |>.toString

def Names.artemisAddress (n : Names) (address : String) : String :=
  (((newObjectName artemisDomain).withQuoted "address" address).withQuoted "broker"
    n.broker).withBare "component" "addresses" |>.toString

def destinationType : DestinationKind → String
  | .queue => "Queue"
  | .topic => "Topic"

/-- One queue or topic.  On Artemis it is the queue that has its address's name. -/
def Names.destination (n : Names) (name : String) (kind : DestinationKind) : String :=
  match n.product with
  | .artemis => n.artemisQueue name name kind.routing
  | .classic =>
    ((((newObjectName classicDomain).withBare "type" "Broker").withBare "brokerName"
      n.broker).withBare "destinationType" (destinationType kind)).withBare "destinationName"
      name |>.toString

/-- A name that Classic can write bare. -/
def Bare (value : String) : Prop := ',' ∉ value.toList ∧ value.toList.head? ≠ some '"'

theorem pair_bare {key value : String} (hkey : '=' ∉ key.toList) (h : Bare value) :
    Pair (key, value) (key, value) :=
  ⟨hkey, rfl, .bare h.1 h.2⟩

theorem parse_classic_destination {n : Names} (hn : n.product = .classic) (hbroker : Bare n.broker)
    {name : String} (hname : Bare name) (kind : DestinationKind) :
    parseObjectName (n.destination name kind) = some ⟨classicDomain,
      [("brokerName", n.broker), ("destinationName", name), ("destinationType", destinationType kind),
        ("type", "Broker")]⟩ := by
  have hkeys : ((((newObjectName classicDomain).withBare "type" "Broker").withBare "brokerName"
      n.broker).withBare "destinationType" (destinationType kind)).withBare "destinationName" name =
      ⟨classicDomain, [("brokerName", n.broker), ("destinationName", name),
        ("destinationType", destinationType kind), ("type", "Broker")]⟩ := by
    have hbrokerName : "brokerName" < "type" := by decide
    have htypeBroker : ¬ "destinationType" < "brokerName" ∧ "destinationType" ≠ "brokerName" := by
      decide
    have htypeType : "destinationType" < "type" := by decide
    have hnameBroker : ¬ "destinationName" < "brokerName" ∧ "destinationName" ≠ "brokerName" := by
      decide
    have hnameType : "destinationName" < "destinationType" := by decide
    simp only [ObjectName.withBare, newObjectName, insertKey_nil]
    rw [insertKey_before hbrokerName, insertKey_after htypeBroker, insertKey_before htypeType,
      insertKey_after hnameBroker, insertKey_before hnameType]
  have htype : Bare (destinationType kind) := by cases kind <;> exact ⟨by decide, by decide⟩
  have hbrokerType : Bare "Broker" := ⟨by decide, by decide⟩
  rw [Names.destination, hn]
  simp only [hkeys]
  refine parse_toString (show ':' ∉ classicDomain.toList by decide) ?_
  refine .cons (pair_bare (by decide) hbroker) (.cons (pair_bare (by decide) hname) ?_)
  exact .cons (pair_bare (by decide) htype) (.cons (pair_bare (by decide) hbrokerType) .nil)

theorem parse_classic_broker {n : Names} (hn : n.product = .classic) (hbroker : Bare n.broker) :
    parseObjectName n.brokerMBean =
      some ⟨classicDomain, [("brokerName", n.broker), ("type", "Broker")]⟩ := by
  have hkeys : ((newObjectName classicDomain).withBare "type" "Broker").withBare "brokerName"
      n.broker = ⟨classicDomain, [("brokerName", n.broker), ("type", "Broker")]⟩ := by
    have hbrokerName : "brokerName" < "type" := by decide
    simp only [ObjectName.withBare, newObjectName, insertKey_nil]
    rw [insertKey_before hbrokerName]
  have hbrokerType : Bare "Broker" := ⟨by decide, by decide⟩
  rw [Names.brokerMBean, hn]
  simp only [hkeys]
  refine parse_toString (show ':' ∉ classicDomain.toList by decide) ?_
  exact .cons (pair_bare (by decide) hbroker) (.cons (pair_bare (by decide) hbrokerType) .nil)

end MqStudio.Activemq
