import MqStudio.Activemq.ObjectName

/-!
# The names that Artemis quotes

`artemisQueue` and `artemisAddress` of `activemq/objectname.go` write every value of the user's in
quotes, where an escape stands for each character that would make a pattern of the name.

* `unescaped`: the characters of a text that no escape covers.
* `ReadsBack`: a name is no pattern, and it is read back into the keys that it was built from.
* `artemis_names_read_back`: the names of Artemis are read back, whatever the user's names hold, and
  no two of them are the same.
-/

namespace MqStudio.Activemq

/-! ### Characters outside of escapes -/

/-- The characters that stand for themselves; the one behind a backslash does not. -/
def unescaped : List Char → List Char
  | '\\' :: _ :: cs => unescaped cs
  | c :: cs => c :: unescaped cs
  | [] => []

theorem unescaped_escape_pair (c : Char) (cs : List Char) :
    unescaped ('\\' :: c :: cs) = unescaped cs := by rw [unescaped]

theorem unescaped_cons {c : Char} (hc : c ≠ '\\') (cs : List Char) :
    unescaped (c :: cs) = c :: unescaped cs := by
  rw [unescaped]
  exact fun _ _ hb _ => hc hb

/-- A text that is no pattern: a star or a question mark in it is escaped. -/
def Literal (cs : List Char) : Prop := ∀ c ∈ unescaped cs, c ≠ '*' ∧ c ≠ '?'

/-- A text that needs no escapes. -/
def Plain (cs : List Char) : Prop := '\\' ∉ cs ∧ '*' ∉ cs ∧ '?' ∉ cs

instance (cs : List Char) : Decidable (Plain cs) :=
  inferInstanceAs (Decidable ('\\' ∉ cs ∧ '*' ∉ cs ∧ '?' ∉ cs))

theorem literal_nil : Literal [] := nofun

theorem literal_cons {c : Char} {rest : List Char} (hc : c ≠ '\\' ∧ c ≠ '*' ∧ c ≠ '?')
    (h : Literal rest) : Literal (c :: rest) := by
  intro d hd
  rw [unescaped_cons hc.1] at hd
  rcases List.mem_cons.mp hd with rfl | hd
  · exact hc.2
  · exact h d hd

theorem Plain.literal_append {cs rest : List Char} (hcs : Plain cs) (h : Literal rest) :
    Literal (cs ++ rest) := by
  induction cs with
  | nil => exact h
  | cons c cs ih =>
    obtain ⟨hslash, hstar, hmark⟩ := hcs
    rw [List.mem_cons, not_or] at hslash hstar hmark
    exact literal_cons ⟨Ne.symm hslash.1, Ne.symm hstar.1, Ne.symm hmark.1⟩
      (ih ⟨hslash.2, hstar.2, hmark.2⟩)

/-- What `quote` writes between the quotes is literal. -/
theorem literal_escape_append (cs : List Char) {rest : List Char} (h : Literal rest) :
    Literal (escape cs ++ rest) := by
  induction cs with
  | nil => exact h
  | cons c cs ih =>
    rw [escape]
    split
    · intro d hd
      rw [List.cons_append, List.cons_append, unescaped_escape_pair] at hd
      exact ih d hd
    · rename_i hspecial
      split
      · intro d hd
        rw [List.cons_append, List.cons_append, unescaped_escape_pair] at hd
        exact ih d hd
      · have hc : c ≠ '\\' ∧ c ≠ '*' ∧ c ≠ '?' :=
          ⟨fun hb => hspecial (.inl hb), fun hs => hspecial (.inr (.inr (.inl hs))),
            fun hq => hspecial (.inr (.inr (.inr hq)))⟩
        exact literal_cons hc ih

/-! ### Names of quoted values -/

/-- A value of a name: a text that needs no escapes, or one that is quoted. -/
def Safe (value : String) : Prop := Plain value.toList ∨ ∃ text, value = quote text

theorem Safe.literal_append {value : String} (hvalue : Safe value) {rest : List Char}
    (h : Literal rest) : Literal (value.toList ++ rest) := by
  obtain hplain | ⟨text, rfl⟩ := hvalue
  · exact hplain.literal_append h
  · have hend : Literal ('"' :: rest) := literal_cons (by decide) h
    have hinner := literal_escape_append text.toList hend
    have hquoted : (quote text).toList ++ rest = '"' :: (escape text.toList ++ '"' :: rest) := by
      rw [quote, String.toList_ofList, List.append_assoc, List.singleton_append, List.cons_append]
    rw [hquoted]
    exact literal_cons (by decide) hinner

theorem literal_pairs {pairs : List (String × String)}
    (h : ∀ pair ∈ pairs, Plain pair.1.toList ∧ Safe pair.2) :
    Literal ([','].intercalate
      (pairs.map fun pair => pair.1.toList ++ '=' :: pair.2.toList)) := by
  induction pairs with
  | nil => exact literal_nil
  | cons pair pairs ih =>
    obtain ⟨hkey, hvalue⟩ := h pair List.mem_cons_self
    have hrest := ih fun other hother => h other (List.mem_cons_of_mem pair hother)
    cases pairs with
    | nil =>
      rw [List.map_singleton, List.intercalate_singleton]
      have hend := hvalue.literal_append literal_nil
      rw [List.append_nil] at hend
      exact hkey.literal_append (literal_cons (by decide) hend)
    | cons next pairs =>
      rw [List.map_cons] at hrest
      rw [List.map_cons, List.map_cons, List.intercalate_cons_cons, List.append_assoc,
        List.append_assoc, List.cons_append]
      exact hkey.literal_append (literal_cons (by decide)
        (hvalue.literal_append (literal_cons (by decide) hrest)))

theorem toList_toString (name : ObjectName) : name.toString.toList = name.domain.toList ++ ':' ::
    [','].intercalate (name.keys.map fun pair => pair.1.toList ++ '=' :: pair.2.toList) := by
  simp [ObjectName.toString, List.map_map, Function.comp_def]

/-- **A name of safe values** is no pattern. -/
theorem literal_toString {name : ObjectName} (hdomain : Plain name.domain.toList)
    (h : ∀ pair ∈ name.keys, Plain pair.1.toList ∧ Safe pair.2) :
    Literal name.toString.toList := by
  rw [toList_toString]
  exact hdomain.literal_append (literal_cons (by decide) (literal_pairs h))

/-! ### The names of Artemis -/

/-- The keys that the name of a queue is built from. -/
def queueKeys (broker address queue : String) (routing : RoutingType) : List (String × String) :=
  [("address", address), ("broker", broker), ("component", "addresses"), ("queue", queue),
    ("routing-type", routing.text), ("subcomponent", "queues")]

def addressKeys (broker address : String) : List (String × String) :=
  [("address", address), ("broker", broker), ("component", "addresses")]

/-- The name of a queue, with its keys in order. -/
theorem artemisQueue_eq (n : Names) (address queue : String) (routing : RoutingType) :
    n.artemisQueue address queue routing = ObjectName.toString ⟨artemisDomain,
      [("address", quote address), ("broker", quote n.broker), ("component", "addresses"),
        ("queue", quote queue), ("routing-type", quote routing.text),
        ("subcomponent", "queues")]⟩ := by
  have hbroker : ¬ "broker" < "address" ∧ "broker" ≠ "address" := by decide
  have hcomponent : (¬ "component" < "address" ∧ "component" ≠ "address") ∧
      ¬ "component" < "broker" ∧ "component" ≠ "broker" := by decide
  have hqueue : (¬ "queue" < "address" ∧ "queue" ≠ "address") ∧
      (¬ "queue" < "broker" ∧ "queue" ≠ "broker") ∧
      ¬ "queue" < "component" ∧ "queue" ≠ "component" := by decide
  have hrouting : (¬ "routing-type" < "address" ∧ "routing-type" ≠ "address") ∧
      (¬ "routing-type" < "broker" ∧ "routing-type" ≠ "broker") ∧
      (¬ "routing-type" < "component" ∧ "routing-type" ≠ "component") ∧
      ¬ "routing-type" < "queue" ∧ "routing-type" ≠ "queue" := by decide
  have hsub : (¬ "subcomponent" < "address" ∧ "subcomponent" ≠ "address") ∧
      (¬ "subcomponent" < "broker" ∧ "subcomponent" ≠ "broker") ∧
      (¬ "subcomponent" < "component" ∧ "subcomponent" ≠ "component") ∧
      (¬ "subcomponent" < "queue" ∧ "subcomponent" ≠ "queue") ∧
      ¬ "subcomponent" < "routing-type" ∧ "subcomponent" ≠ "routing-type" := by decide
  simp only [Names.artemisQueue, ObjectName.withQuoted, ObjectName.withBare, newObjectName,
    insertKey_nil, insertKey_after hbroker, insertKey_after hcomponent.1,
    insertKey_after hcomponent.2, insertKey_after hqueue.1, insertKey_after hqueue.2.1,
    insertKey_after hqueue.2.2, insertKey_after hrouting.1, insertKey_after hrouting.2.1,
    insertKey_after hrouting.2.2.1, insertKey_after hrouting.2.2.2, insertKey_after hsub.1,
    insertKey_after hsub.2.1, insertKey_after hsub.2.2.1, insertKey_after hsub.2.2.2.1,
    insertKey_after hsub.2.2.2.2]

theorem artemisAddress_eq (n : Names) (address : String) :
    n.artemisAddress address = ObjectName.toString ⟨artemisDomain,
      [("address", quote address), ("broker", quote n.broker), ("component", "addresses")]⟩ := by
  have hbroker : ¬ "broker" < "address" ∧ "broker" ≠ "address" := by decide
  have hcomponent : (¬ "component" < "address" ∧ "component" ≠ "address") ∧
      ¬ "component" < "broker" ∧ "component" ≠ "broker" := by decide
  simp only [Names.artemisAddress, ObjectName.withQuoted, ObjectName.withBare, newObjectName,
    insertKey_nil, insertKey_after hbroker, insertKey_after hcomponent.1,
    insertKey_after hcomponent.2]

theorem plain_artemisDomain : Plain artemisDomain.toList := by decide

theorem colon_notMem_artemisDomain : ':' ∉ artemisDomain.toList := by decide

theorem safe_quote (value : String) : Safe (quote value) := .inr ⟨value, rfl⟩

theorem pair_quoted {key : String} (hkey : '=' ∉ key.toList) (value : String) :
    Pair (key, quote value) (key, value) :=
  ⟨hkey, rfl, .quoted value⟩

/-- A name is no pattern, and it is read back into its domain and its keys, each there once. -/
structure ReadsBack (text : String) (keys : List (String × String)) : Prop where
  literal : Literal text.toList
  parsed : parseObjectName text = some ⟨artemisDomain, keys⟩
  once : (keys.map (·.1)).Nodup

theorem artemisQueue_readsBack (n : Names) (address queue : String) (routing : RoutingType) :
    ReadsBack (n.artemisQueue address queue routing)
      (queueKeys n.broker address queue routing) := by
  rw [artemisQueue_eq]
  refine ⟨literal_toString plain_artemisDomain ?_,
    parse_toString colon_notMem_artemisDomain ?_, ?_⟩
  · intro pair hpair
    simp only [List.mem_cons, List.not_mem_nil, or_false] at hpair
    rcases hpair with rfl | rfl | rfl | rfl | rfl | rfl
    · exact ⟨show Plain "address".toList by decide, safe_quote address⟩
    · exact ⟨show Plain "broker".toList by decide, safe_quote n.broker⟩
    · exact ⟨show Plain "component".toList by decide,
        .inl (show Plain "addresses".toList by decide)⟩
    · exact ⟨show Plain "queue".toList by decide, safe_quote queue⟩
    · exact ⟨show Plain "routing-type".toList by decide, safe_quote routing.text⟩
    · exact ⟨show Plain "subcomponent".toList by decide,
        .inl (show Plain "queues".toList by decide)⟩
  · have hbare : ∀ {value : String}, Bare value → Pair ("component", value) ("component", value) :=
      fun h => pair_bare (by decide) h
    refine .cons (pair_quoted (by decide) _) (.cons (pair_quoted (by decide) _) ?_)
    refine .cons (hbare ⟨by decide, by decide⟩) (.cons (pair_quoted (by decide) _) ?_)
    refine .cons (pair_quoted (by decide) _) (.cons (pair_bare (by decide) ?_) .nil)
    exact ⟨by decide, by decide⟩
  · show ["address", "broker", "component", "queue", "routing-type", "subcomponent"].Nodup
    decide

theorem artemisAddress_readsBack (n : Names) (address : String) :
    ReadsBack (n.artemisAddress address) (addressKeys n.broker address) := by
  rw [artemisAddress_eq]
  refine ⟨literal_toString plain_artemisDomain ?_,
    parse_toString colon_notMem_artemisDomain ?_, ?_⟩
  · intro pair hpair
    simp only [List.mem_cons, List.not_mem_nil, or_false] at hpair
    rcases hpair with rfl | rfl | rfl
    · exact ⟨show Plain "address".toList by decide, safe_quote address⟩
    · exact ⟨show Plain "broker".toList by decide, safe_quote n.broker⟩
    · exact ⟨show Plain "component".toList by decide,
        .inl (show Plain "addresses".toList by decide)⟩
  · refine .cons (pair_quoted (by decide) _) (.cons (pair_quoted (by decide) _) ?_)
    exact .cons (pair_bare (by decide) ⟨by decide, by decide⟩) .nil
  · show ["address", "broker", "component"].Nodup
    decide

/-- Two names that are the same were built from the same keys. -/
theorem ReadsBack.keys_eq {text : String} {keys other : List (String × String)}
    (h : ReadsBack text keys) (hother : ReadsBack text other) : keys = other := by
  have hsame := h.parsed.symm.trans hother.parsed
  exact congrArg ObjectName.keys (Option.some.inj hsame)

theorem RoutingType.text_inj {r r' : RoutingType} (h : r.text = r'.text) : r = r' := by
  cases r <;> cases r' <;> first | rfl | exact absurd h (by decide)

theorem queueKeys_inj {broker broker' address address' queue queue' : String}
    {routing routing' : RoutingType}
    (h : queueKeys broker address queue routing = queueKeys broker' address' queue' routing') :
    broker = broker' ∧ address = address' ∧ queue = queue' ∧ routing = routing' := by
  simp only [queueKeys, List.cons.injEq, Prod.mk.injEq, true_and, and_true] at h
  obtain ⟨haddress, hbroker, hqueue, hrouting⟩ := h
  exact ⟨hbroker, haddress, hqueue, RoutingType.text_inj hrouting⟩

/-- **The names of Artemis are read back**, whatever the user's names hold: none is a pattern, each
is parsed into its domain and the values that it was built from, and other values give another
name. -/
theorem artemis_names_read_back :
    (∀ (n : Names) (address queue : String) (routing : RoutingType),
      ReadsBack (n.artemisQueue address queue routing)
        (queueKeys n.broker address queue routing)) ∧
    (∀ (n : Names) (address : String),
      ReadsBack (n.artemisAddress address) (addressKeys n.broker address)) ∧
    (∀ (n m : Names) (address address' queue queue' : String) (routing routing' : RoutingType),
      n.artemisQueue address queue routing = m.artemisQueue address' queue' routing' ↔
        n.broker = m.broker ∧ address = address' ∧ queue = queue' ∧ routing = routing') ∧
    (∀ (n m : Names) (address address' : String),
      n.artemisAddress address = m.artemisAddress address' ↔
        n.broker = m.broker ∧ address = address') ∧
    ∀ (n m : Names) (address address' queue : String) (routing : RoutingType),
      n.artemisQueue address queue routing ≠ m.artemisAddress address' := by
  refine ⟨artemisQueue_readsBack, artemisAddress_readsBack, ?_, ?_, ?_⟩
  · intro n m address address' queue queue' routing routing'
    constructor
    · intro h
      have hread := artemisQueue_readsBack n address queue routing
      rw [h] at hread
      exact queueKeys_inj (hread.keys_eq (artemisQueue_readsBack m address' queue' routing'))
    · rintro ⟨hbroker, rfl, rfl, rfl⟩
      rw [artemisQueue_eq, artemisQueue_eq, hbroker]
  · intro n m address address'
    constructor
    · intro h
      have hread := artemisAddress_readsBack n address
      rw [h] at hread
      have hkeys := hread.keys_eq (artemisAddress_readsBack m address')
      simp only [addressKeys, List.cons.injEq, Prod.mk.injEq, true_and, and_true] at hkeys
      exact ⟨hkeys.2, hkeys.1⟩
    · rintro ⟨hbroker, rfl⟩
      rw [artemisAddress_eq, artemisAddress_eq, hbroker]
  · intro n m address address' queue routing h
    have hread := artemisQueue_readsBack n address queue routing
    rw [h] at hread
    have hkeys := hread.keys_eq (artemisAddress_readsBack m address')
    simp [queueKeys, addressKeys] at hkeys

example : (Names.artemisAddress ⟨.artemis, "b"⟩ "orders?").toList =
    ("org.apache.activemq.artemis:address=\"orders\\?\",broker=\"b\",component=addresses").toList :=
  by rw [artemisAddress_eq]; decide

end MqStudio.Activemq
