import MqStudio.Lib.Json.Float
import MqStudio.Lib.Json.Data
import MqStudio.Lib.Text

/-!
# Arguments and policies of RabbitMQ

`rabbitmq/destination.go`, `rabbitmq/policy.go`: a queue's arguments and a policy's definition are
JSON, which the form carries as text.  `decodeArguments` reads the text into values of Go, whose
numbers are all `float64`, and turns the whole numbers of the top level into `int64`; it answers
nothing for a blank text, for one that is no object and for one that is no JSON.  `savePolicy`
refuses where there is nothing, `createDestination` declares the queue without arguments.

* `Stored.Right`: saving the policy that is shown sends the definition that is stored.
* `CreateRight`, `SaveRight`: what is sent for a text is the object it denotes.
* `arguments_right_iff`: this is so exactly if the numbers survive the `float64` they are read into
  and, for a queue, if the text is an object.
-/

namespace MqStudio.Rabbitmq.Arguments

open Std (ExtTreeMap)
open Lib.Float64 Lib.Json Lib.Json.Data Lib.Text

/-! ### Values of Go -/

/-- A number of a table that is sent. -/
inductive GoNumber where
  | int64 (i : Int64)
  | float64 (d : Double)

/-- What `encoding/json` writes for it. -/
def GoNumber.number : GoNumber → Number
  | .int64 i => intNumber i.toInt
  | .float64 d => formatFloat d

/-- `math.Trunc`. -/
def trunc (d : Double) : ℤ := if d.neg then -(⌊d.mag⌋₊ : ℤ) else ⌊d.mag⌋₊

/-- `int64(number)`; what it is out of range is the processor's affair. -/
def int64Of (outOfRange : Double → Int64) (d : Double) : Int64 :=
  if -2 ^ 63 ≤ trunc d ∧ trunc d < 2 ^ 63 then Int64.ofInt (trunc d) else outOfRange d

def zero : Double := ⟨false, 0, read_natCast (n := 0) (by norm_num)⟩

/-- The `float64` a number is read into. -/
def double (n : Number) : Double := n.toDouble.getD zero

def doubles (ms : Members Number) : Members Double := ms.map (Prod.map id (Data.map double))

/-- No number is out of range. -/
def InRange (t : Data Number) : Prop := ∀ n ∈ t.numbers, n.toDouble.isSome

instance : DecidablePred InRange := fun t => by
  unfold InRange
  infer_instance

/-- `json.Unmarshal` into a `map[string]interface{}` that is nil, none where it stays nil or the
text is refused. -/
def unmarshalMap (text : String) : Option (Members Double) :=
  match (parse text).map ofValue with
  | some t =>
    if InRange t then
      match canon (t.map double) with
      | .object ms => some ms
      | _ => none
    else none
  | none => none

/-- `json.Marshal`. -/
def marshalMap (ms : Members Number) : String := marshal (toValue (.object ms))

/-- A whole number becomes an integer. -/
def correctedNumber (outOfRange : Double → Int64) (d : Double) : GoNumber :=
  if d.value = trunc d then .int64 (int64Of outOfRange d) else .float64 d

/-- The correction of a value of the top level: what is inside a list or a table stays. -/
def corrected (outOfRange : Double → Int64) : Data Double → Data GoNumber
  | .number d => .number (correctedNumber outOfRange d)
  | t => t.map .float64

def decodeArguments (outOfRange : Double → Int64) (encoded : String) :
    Option (Members GoNumber) :=
  if trimSpace encoded = "" then none
  else (unmarshalMap encoded).map fun decoded => decoded.map (Prod.map id (corrected outOfRange))

def encodeArguments (arguments : Members Double) : String :=
  if arguments.isEmpty then "" else marshalMap (arguments.map (Prod.map id (Data.map formatFloat)))

/-- What the broker reads of a table that is sent. -/
def sent (arguments : Members GoNumber) : Members Number :=
  arguments.map (Prod.map id (Data.map GoNumber.number))

/-! ### Queues -/

def attrDurable : String := "durable"
def attrAutoDelete : String := "autoDelete"
def attrQueueType : String := "queueType"
def attrArguments : String := "arguments"

structure DestinationRef where
  ns : String
  name : String

structure DestinationSpec where
  ref : DestinationRef
  attributes : ExtTreeMap String String compare

/-- What the client library declares a queue with. -/
structure QueueSettings where
  durable : Bool
  autoDelete : Bool
  type : String
  arguments : Option (Members GoNumber)

structure Declaration where
  vhost : String
  queue : String
  settings : QueueSettings

def vhostOr (vhost ns : String) : String := if trimSpace ns ≠ "" then ns else vhost

/-- The declaration `CreateDestination` sends; nothing of the request is refused. -/
def createDestination (outOfRange : Double → Int64) (vhost : String) (spec : DestinationSpec) :
    Declaration where
  vhost := vhostOr vhost spec.ref.ns
  queue := spec.ref.name
  settings :=
    { durable := spec.attributes[attrDurable]?.getD "" ≠ "false"
      autoDelete := spec.attributes[attrAutoDelete]?.getD "" = "true"
      type := spec.attributes[attrQueueType]?.getD ""
      arguments := decodeArguments outOfRange (spec.attributes[attrArguments]?.getD "") }

/-! ### Policies -/

/-- A policy or an operator policy of the client library, its definition over numbers `ν`. -/
structure BrokerPolicy (ν : Type) where
  vhost : String
  name : String
  pattern : String
  applyTo : String
  priority : ℤ
  definition : Members ν

/-- A policy as the form has it. -/
structure Policy where
  ns : String
  name : String
  pattern : String
  applyTo : String
  priority : ℤ
  definition : String
  operator : Bool

def policyFrom (policy : BrokerPolicy Double) (operator : Bool) : Policy where
  ns := policy.vhost
  name := policy.name
  pattern := policy.pattern
  applyTo := policy.applyTo
  priority := policy.priority
  definition := encodeArguments policy.definition
  operator := operator

def operatorPolicyFrom (policy : BrokerPolicy Double) : Policy := policyFrom policy true

def decodeDefinition (outOfRange : Double → Int64) (encoded : String) :
    Except String (Members GoNumber) :=
  match decodeArguments outOfRange encoded with
  | some definition => .ok definition
  | none =>
    if encoded ≠ "" ∧ encoded ≠ "{}" then .error "the definition is not valid JSON" else .ok []

/-- A policy that could not be saved, and why. -/
structure SaveError where
  policy : String
  reason : String

/-- The request that puts a policy or, where `operator` is on, an operator policy. -/
structure PutPolicy where
  operator : Bool
  vhost : String
  name : String
  body : BrokerPolicy GoNumber

def savePolicy (outOfRange : Double → Int64) (policy : Policy) : Except SaveError PutPolicy :=
  match decodeDefinition outOfRange policy.definition with
  | .error reason => .error ⟨policy.name, reason⟩
  | .ok definition =>
    .ok ⟨policy.operator, policy.ns, policy.name,
      { vhost := policy.ns
        name := policy.name
        pattern := policy.pattern
        applyTo := policy.applyTo
        priority := policy.priority
        definition := definition }⟩

/-! ### What is promised -/

/-- The same number, however it is written. -/
def SameNumber (n m : Number) : Prop := m.value = n.value

/-- The same number, and a whole one written whole. -/
def KeptNumber (n m : Number) : Prop := m.value = n.value ∧ (n.Whole → m.IsWhole)

/-- A definition as the broker has it: the members of every object in order, no number beyond the
range of a `float64`. -/
structure Stored where
  members : Members Number
  canonical : canon (.object members) = .object members
  inRange : InRange (.object members)

/-- What the client library reads of it. -/
def Stored.listed (s : Stored) : Members Double := doubles s.members

/-- **Saving the policy that is shown sends the definition that is stored.** -/
def Stored.Right (outOfRange : Double → Int64) (s : Stored) : Prop :=
  ∀ (policy : BrokerPolicy Double) (operator : Bool), policy.definition = s.listed →
    ∃ put, savePolicy outOfRange (policyFrom policy operator) = .ok put ∧
      RelatedMembers KeptNumber s.members (sent put.body.definition)

/-- The object a text denotes: none for a blank one, and of members of one name the last. -/
def denotes (text : String) : Option (Members Number) :=
  if trimSpace text = "" then some []
  else match (parse text).map fun v => canon (ofValue v) with
    | some (.object ms) => some ms
    | _ => none

/-- The declaration carries the object that the text of the arguments denotes. -/
def CreateRight (outOfRange : Double → Int64) (vhost : String) (spec : DestinationSpec) : Prop :=
  ∃ ms, denotes (spec.attributes[attrArguments]?.getD "") = some ms ∧
    RelatedMembers SameNumber ms
      (sent ((createDestination outOfRange vhost spec).settings.arguments.getD []))

/-- The policy is refused, or carries the object that the text of its definition denotes. -/
def SaveRight (outOfRange : Double → Int64) (policy : Policy) : Prop :=
  ∀ put, savePolicy outOfRange policy = .ok put →
    ∃ ms, denotes policy.definition = some ms ∧
      RelatedMembers SameNumber ms (sent put.body.definition)

/-! ### The numbers that survive -/

/-- The digits of the number are those its `float64` is printed with. -/
def Survives (n : Number) : Prop := ∀ q, read n.mag = some q → (shortest q).value = n.mag

/-- A whole number is not so large that it is printed with an exponent. -/
def Moderate (n : Number) : Prop := n.Whole → ∀ q, read n.mag = some q → ¬UsesExponent q

/-- Where the `float64` of the number is whole, its `int64` is the number; else the digits
survive. -/
def SurvivesTop (outOfRange : Double → Int64) (n : Number) : Prop :=
  ∀ d, n.toDouble = some d →
    if d.value = trunc d then ((int64Of outOfRange d).toInt : ℚ) = n.value else Survives n

/-- Every number of the top level survives as such, and every other one is `kept`. -/
def AllKept (outOfRange : Double → Int64) (kept : Number → Prop) (ms : Members Number) : Prop :=
  ∀ m ∈ ms, match m.2 with
    | .number n => SurvivesTop outOfRange n
    | t => ∀ n ∈ t.numbers, kept n

/-- The numbers of a text that is not blank are in range. -/
def TextInRange (text : String) : Prop :=
  trimSpace text ≠ "" → ∀ v, parse text = some v → InRange (ofValue v)

/-! ### One number -/

section Numbers

variable {outOfRange : Double → Int64} {n : Number} {d : Double}

theorem toDouble_double (h : n.toDouble.isSome) : n.toDouble = some (double n) := by
  obtain ⟨d, hd⟩ := Option.isSome_iff_exists.mp h
  rw [double, hd, Option.getD_some]

theorem survives_iff (h : n.toDouble = some d) :
    Survives n ↔ (shortest d.mag).value = n.mag := by
  obtain ⟨-, hread⟩ := Number.toDouble_eq_some.mp h
  simp [Survives, hread]

/-- A number inside a list or a table is sent as it is exactly if its digits survive. -/
theorem sameNumber_formatFloat_iff (h : n.toDouble = some d) :
    SameNumber n (formatFloat d) ↔ Survives n := by
  obtain ⟨hneg, -⟩ := Number.toDouble_eq_some.mp h
  rw [SameNumber, survives_iff h, Number.value, Number.value, neg_formatFloat, mag_formatFloat,
    hneg]
  split
  · exact neg_inj
  · exact Iff.rfl

theorem keptNumber_formatFloat_iff (h : n.toDouble = some d) :
    KeptNumber n (formatFloat d) ↔ Survives n ∧ Moderate n := by
  obtain ⟨-, hread⟩ := Number.toDouble_eq_some.mp h
  have hsame : (formatFloat d).value = n.value ↔ Survives n := sameNumber_formatFloat_iff h
  rw [KeptNumber, hsame]
  refine and_congr_right fun hsurvives => imp_congr_right fun hwhole => ?_
  obtain ⟨m, hm⟩ := hwhole.exists_mag
  have hmag : (formatFloat d).mag = m := by
    rw [mag_formatFloat, (survives_iff h).mp hsurvives, hm]
  rw [isWhole_formatFloat_iff d ⟨m, hmag⟩]
  simp [hread]

/-- A whole number is read into a whole `float64`. -/
theorem value_eq_trunc (h : n.toDouble = some d) (hwhole : n.Whole) : d.value = trunc d := by
  obtain ⟨-, hread⟩ := Number.toDouble_eq_some.mp h
  obtain ⟨m, hm⟩ := hwhole.exists_mag
  obtain ⟨k, hk⟩ := exists_nearest_natCast m
  have hmag : d.mag = k := by rw [← (read_eq_some hread).1, hm, hk]
  rw [Double.value, trunc, hmag, Nat.floor_natCast]
  split <;> push_cast <;> rfl

theorem sameNumber_corrected_iff (h : n.toDouble = some d) :
    SameNumber n (correctedNumber outOfRange d).number ↔ SurvivesTop outOfRange n := by
  have htop : SurvivesTop outOfRange n ↔ if d.value = trunc d then
      ((int64Of outOfRange d).toInt : ℚ) = n.value else Survives n := by
    simp [SurvivesTop, h]
  rw [htop, correctedNumber]
  split
  · rw [SameNumber, GoNumber.number, value_intNumber]
  · exact sameNumber_formatFloat_iff h

/-- At the top level a whole number is sent whole, whatever it is. -/
theorem keptNumber_corrected_iff (h : n.toDouble = some d) :
    KeptNumber n (correctedNumber outOfRange d).number ↔ SurvivesTop outOfRange n := by
  have hwhole : n.Whole → (correctedNumber outOfRange d).number.IsWhole := by
    intro hn
    rw [correctedNumber, if_pos (value_eq_trunc h hn)]
    exact isWhole_intNumber _
  rw [← sameNumber_corrected_iff h, KeptNumber, and_iff_left hwhole]
  exact Iff.rfl

end Numbers

/-! ### A table -/

section Tables

variable {outOfRange : Double → Int64} {R : Number → Number → Prop} {kept : Number → Prop}
  {ms : Members Number}

theorem related_number_iff {n m : Number} : Related R (.number n) (.number m) ↔ R n m := by
  simp [Related]

/-- A value of the top level is sent right exactly if its numbers are. -/
theorem related_corrected_iff (t : Data Number) :
    Related R t ((corrected outOfRange (t.map double)).map GoNumber.number) ↔
      match t with
      | .number n => R n (correctedNumber outOfRange (double n)).number
      | t => ∀ n ∈ t.numbers, R n (formatFloat (double n)) := by
  have hnested : ∀ t : Data Number,
      Related R t (((t.map double).map GoNumber.float64).map GoNumber.number) ↔
        ∀ n ∈ t.numbers, R n (formatFloat (double n)) := by
    intro t
    rw [map_map, map_map, related_map_iff]
    exact Iff.rfl
  cases t with
  | number n => exact related_number_iff
  | null => exact hnested _
  | bool b => exact hnested _
  | string s => exact hnested _
  | array ts => exact hnested _
  | object ms => exact hnested _

theorem mem_numbers_members {m : String × Data Number} (hm : m ∈ ms) {n : Number}
    (hn : n ∈ m.2.numbers) : n ∈ (Data.object ms).numbers := by
  rw [numbers_object]
  exact List.mem_flatten.mpr ⟨_, List.mem_map.mpr ⟨m, hm, rfl⟩, hn⟩

/-- **A table is sent right** exactly if its numbers are. -/
theorem relatedMembers_sent_iff (hrange : InRange (.object ms))
    (htop : ∀ n, n.toDouble.isSome →
      (R n (correctedNumber outOfRange (double n)).number ↔ SurvivesTop outOfRange n))
    (hnested : ∀ n, n.toDouble.isSome → (R n (formatFloat (double n)) ↔ kept n)) :
    RelatedMembers R ms (sent ((doubles ms).map (Prod.map id (corrected outOfRange)))) ↔
      AllKept outOfRange kept ms := by
  have hsent : sent ((doubles ms).map (Prod.map id (corrected outOfRange))) =
      ms.map (Prod.map id fun t => (corrected outOfRange (t.map double)).map GoNumber.number) := by
    rw [sent, doubles, List.map_map, List.map_map]
    rfl
  rw [hsent, relatedMembers_map_iff]
  refine forall₂_congr fun m hm => ?_
  rw [related_corrected_iff]
  have hin : ∀ n ∈ m.2.numbers, n.toDouble.isSome := fun n hn =>
    hrange n (mem_numbers_members hm hn)
  cases hvalue : m.2 with
  | number n => exact htop n (hin n (by rw [hvalue]; simp))
  | null => simp
  | bool b => simp
  | string s => simp
  | array ts => exact forall₂_congr fun n hn => hnested n (hin n (by rw [hvalue]; exact hn))
  | object ns => exact forall₂_congr fun n hn => hnested n (hin n (by rw [hvalue]; exact hn))

theorem sameMembers_sent_iff (hrange : InRange (.object ms)) :
    RelatedMembers SameNumber ms (sent ((doubles ms).map (Prod.map id (corrected outOfRange)))) ↔
      AllKept outOfRange Survives ms :=
  relatedMembers_sent_iff hrange
    (fun _ h => sameNumber_corrected_iff (toDouble_double h))
    (fun _ h => sameNumber_formatFloat_iff (toDouble_double h))

theorem keptMembers_sent_iff (hrange : InRange (.object ms)) :
    RelatedMembers KeptNumber ms (sent ((doubles ms).map (Prod.map id (corrected outOfRange)))) ↔
      AllKept outOfRange (fun n => Survives n ∧ Moderate n) ms :=
  relatedMembers_sent_iff hrange
    (fun _ h => keptNumber_corrected_iff (toDouble_double h))
    (fun _ h => keptNumber_formatFloat_iff (toDouble_double h))

end Tables

/-! ### Texts -/

section Texts

variable {outOfRange : Double → Int64} {text : String} {ms : Members Number}

/-- What `json.Marshal` writes for a table is not blank. -/
theorem marshalMap_not_blank (ms : Members Number) : trimSpace (marshalMap ms) ≠ "" := by
  obtain ⟨cs, hcs⟩ : ∃ cs, (marshalMap ms).toList = '{' :: cs := by
    rw [marshalMap, marshal, String.toList_ofList, toValue, fold_object]
    dsimp only [toValueAlg]
    rw [layOut]
    split
    · exact ⟨_, rfl⟩
    · exact ⟨_, rfl⟩
  intro hblank
  have htrim : trim Lib.Text.isSpace ('{' :: cs) = [] := by
    have := congrArg String.toList hblank
    rwa [trimSpace, String.toList_ofList, hcs] at this
  rw [trim, List.dropWhile_cons_of_neg (by decide), List.rdropWhile_eq_nil_iff] at htrim
  exact absurd (htrim '{' List.mem_cons_self) (by decide)

/-- **A table reads back from what is shown of it.** -/
theorem unmarshalMap_marshalMap {ms : Members Double} (h : canon (.object ms) = .object ms) :
    unmarshalMap (marshalMap (ms.map (Prod.map id (Data.map formatFloat)))) = some ms := by
  have hback : ((Data.object ms).map formatFloat).map double = .object ms := by
    rw [map_map]
    refine (map_congr _ fun d _ => ?_).trans (map_id _)
    rw [Function.comp_apply, double, toDouble_formatFloat]
    rfl
  have hrange : InRange ((Data.object ms).map formatFloat) := by
    intro n hn
    rw [numbers_map] at hn
    obtain ⟨d, -, rfl⟩ := List.mem_map.mp hn
    rw [toDouble_formatFloat]
    rfl
  rw [unmarshalMap, marshalMap, ← map_object, parse_marshal, Option.map_some, ofValue_toValue]
  dsimp only
  rw [if_pos hrange, hback, h]

theorem decodeDefinition_encodeArguments {ms : Members Double}
    (h : canon (.object ms) = .object ms) :
    decodeDefinition outOfRange (encodeArguments ms) =
      .ok (ms.map (Prod.map id (corrected outOfRange))) := by
  cases ms with
  | nil => rfl
  | cons m ms =>
    rw [decodeDefinition, decodeArguments, encodeArguments, List.isEmpty_cons,
      if_neg Bool.false_ne_true, if_neg (marshalMap_not_blank _), unmarshalMap_marshalMap h]
    rfl

theorem Stored.canon_listed (s : Stored) : canon (.object s.listed) = .object s.listed := by
  have h : Data.object s.listed = (Data.object s.members).map double := (map_object _ _).symm
  rw [h, canon_map, s.canonical]

/-- **A stored definition is sent again** exactly if its numbers survive. -/
theorem Stored.right_iff (s : Stored) : s.Right outOfRange ↔
    AllKept outOfRange (fun n => Survives n ∧ Moderate n) s.members := by
  rw [← keptMembers_sent_iff s.inRange]
  have hsave : ∀ (policy : BrokerPolicy Double) (operator : Bool), policy.definition = s.listed →
      ∃ put, savePolicy outOfRange (policyFrom policy operator) = .ok put ∧
        put.body.definition = s.listed.map (Prod.map id (corrected outOfRange)) := by
    intro policy operator hlisted
    refine ⟨⟨operator, policy.vhost, policy.name, policy.vhost, policy.name, policy.pattern,
      policy.applyTo, policy.priority, s.listed.map (Prod.map id (corrected outOfRange))⟩, ?_, rfl⟩
    rw [savePolicy, policyFrom, hlisted, decodeDefinition_encodeArguments s.canon_listed]
  constructor
  · intro hright
    obtain ⟨put, hput, hkept⟩ := hright ⟨"", "", "", "", 0, s.listed⟩ false rfl
    obtain ⟨put', hput', hdefinition⟩ := hsave ⟨"", "", "", "", 0, s.listed⟩ false rfl
    obtain rfl := Except.ok.inj (hput.symm.trans hput')
    rwa [hdefinition] at hkept
  · intro hkept policy operator hlisted
    obtain ⟨put, hput, hdefinition⟩ := hsave policy operator hlisted
    refine ⟨put, hput, ?_⟩
    rw [hdefinition]
    exact hkept

theorem denotes_blank (h : trimSpace text = "") : denotes text = some [] := if_pos h

/-- The value a text that is not blank denotes an object by. -/
theorem exists_value_of_denotes (hblank : trimSpace text ≠ "") (h : denotes text = some ms) :
    ∃ v, parse text = some v ∧ canon (ofValue v) = .object ms := by
  rw [denotes, if_neg hblank] at h
  cases hparse : parse text with
  | none =>
    rw [hparse] at h
    cases h
  | some v =>
    refine ⟨v, rfl, ?_⟩
    rw [hparse, Option.map_some] at h
    cases hcanon : canon (ofValue v) with
    | object ms' =>
      rw [hcanon] at h
      rw [Option.some.inj h]
    | null | bool | number | string | array =>
      rw [hcanon] at h
      cases h

theorem decodeArguments_of_denotes (hblank : trimSpace text ≠ "") (h : denotes text = some ms)
    (hrange : TextInRange text) : InRange (.object ms) ∧ decodeArguments outOfRange text =
      some ((doubles ms).map (Prod.map id (corrected outOfRange))) := by
  obtain ⟨v, hparse, hcanon⟩ := exists_value_of_denotes hblank h
  have hin := hrange hblank v hparse
  constructor
  · intro n hn
    exact hin n (mem_numbers_of_canon _ n (by rw [hcanon]; exact hn))
  · rw [decodeArguments, if_neg hblank, unmarshalMap, hparse, Option.map_some]
    dsimp only
    rw [if_pos hin, canon_map, hcanon, map_object]
    rfl

/-- The decoder answers nothing for a blank text, for one that denotes no object and for one whose
numbers are out of range. -/
theorem decodeArguments_eq_none
    (h : trimSpace text ≠ "" → denotes text = none ∨ ¬TextInRange text) :
    decodeArguments outOfRange text = none := by
  by_cases hblank : trimSpace text = ""
  · exact if_pos hblank
  rw [decodeArguments, if_neg hblank, Option.map_eq_none_iff, unmarshalMap]
  cases hparse : parse text with
  | none => rfl
  | some v =>
    dsimp only [Option.map_some]
    split
    · rename_i hin
      have hrange : TextInRange text := by
        intro _ v' hparse'
        rw [hparse] at hparse'
        exact Option.some.inj hparse' ▸ hin
      have hdenotes := (h hblank).resolve_right (not_not.mpr hrange)
      rw [denotes, if_neg hblank, hparse, Option.map_some] at hdenotes
      rw [canon_map]
      cases hcanon : canon (ofValue v) with
      | object ms =>
        rw [hcanon] at hdenotes
        cases hdenotes
      | array ts => rw [map_array]
      | null | bool | number | string => rfl
    · rfl

theorem allKept_nil (kept : Number → Prop) : AllKept outOfRange kept [] := List.forall_mem_nil _

/-- **A queue is declared with the object of the text** exactly if there is one and its numbers
survive. -/
theorem createRight_iff (vhost : String) (spec : DestinationSpec)
    (htext : spec.attributes[attrArguments]?.getD "" = text) :
    CreateRight outOfRange vhost spec ↔ ∃ ms, denotes text = some ms ∧ TextInRange text ∧
      AllKept outOfRange Survives ms := by
  rw [CreateRight, createDestination, htext]
  dsimp only
  refine exists_congr fun ms => and_congr_right fun hdenotes => ?_
  by_cases hblank : trimSpace text = ""
  · obtain rfl := Option.some.inj ((denotes_blank hblank).symm.trans hdenotes)
    rw [decodeArguments, if_pos hblank]
    exact iff_of_true .nil ⟨fun h => absurd hblank h, allKept_nil _⟩
  by_cases hrange : TextInRange text
  · obtain ⟨hin, hdecode⟩ : InRange (.object ms) ∧ decodeArguments outOfRange text = some _ :=
      decodeArguments_of_denotes hblank hdenotes hrange
    rw [hdecode, Option.getD_some, sameMembers_sent_iff hin]
    exact (and_iff_right hrange).symm
  · rw [decodeArguments_eq_none fun _ => Or.inr hrange]
    refine iff_of_false (fun hsame => hrange fun _ v hparse => ?_) fun h => hrange h.1
    obtain rfl : ms = [] := List.forall₂_nil_right_iff.mp hsame
    obtain ⟨v', hparse', hcanon⟩ := exists_value_of_denotes hblank hdenotes
    obtain rfl := Option.some.inj (hparse'.symm.trans hparse)
    rw [eq_of_canon_empty hcanon]
    exact List.forall_mem_nil _

theorem saveRight_of_none {policy : Policy}
    (h : decodeArguments outOfRange policy.definition = none) : SaveRight outOfRange policy := by
  intro put hput
  rw [savePolicy, decodeDefinition, h] at hput
  dsimp only at hput
  split at hput
  · cases hput
  · rename_i definition hdefinition
    split at hdefinition
    · cases hdefinition
    · rename_i hempty
      obtain rfl := Except.ok.inj hdefinition
      obtain rfl := Except.ok.inj hput
      refine ⟨[], ?_, .nil⟩
      rw [← not_or, not_not] at hempty
      rcases hempty with h | h <;> rw [h] <;> rfl

/-- **A policy is refused or saved with the object of the text** exactly if the numbers of that
object survive, if there is one. -/
theorem saveRight_iff (policy : Policy) : SaveRight outOfRange policy ↔
    ∀ ms, denotes policy.definition = some ms → TextInRange policy.definition →
      AllKept outOfRange Survives ms := by
  by_cases hblank : trimSpace policy.definition = ""
  · refine iff_of_true (saveRight_of_none (if_pos hblank)) fun ms hdenotes _ => ?_
    obtain rfl := Option.some.inj ((denotes_blank hblank).symm.trans hdenotes)
    exact allKept_nil _
  by_cases hobject : ∃ ms, denotes policy.definition = some ms ∧ TextInRange policy.definition
  · obtain ⟨ms, hdenotes, hrange⟩ := hobject
    obtain ⟨hin, hdecode⟩ :
        InRange (.object ms) ∧ decodeArguments outOfRange policy.definition = some _ :=
      decodeArguments_of_denotes hblank hdenotes hrange
    have hsave : savePolicy outOfRange policy = .ok ⟨policy.operator, policy.ns, policy.name,
        policy.ns, policy.name, policy.pattern, policy.applyTo, policy.priority,
        (doubles ms).map (Prod.map id (corrected outOfRange))⟩ := by
      rw [savePolicy, decodeDefinition, hdecode]
    constructor
    · intro hright ms' hdenotes' _
      obtain rfl := Option.some.inj (hdenotes.symm.trans hdenotes')
      obtain ⟨ms', hdenotes', hsame⟩ := hright _ hsave
      obtain rfl := Option.some.inj (hdenotes.symm.trans hdenotes')
      exact (sameMembers_sent_iff hin).mp hsame
    · intro hkept put hput
      obtain rfl := Except.ok.inj (hsave.symm.trans hput)
      exact ⟨ms, hdenotes, (sameMembers_sent_iff hin).mpr (hkept ms hdenotes hrange)⟩
  · refine iff_of_true (saveRight_of_none (decodeArguments_eq_none fun _ => ?_)) ?_
    · cases hdenotes : denotes policy.definition with
      | none => exact Or.inl rfl
      | some ms => exact Or.inr fun hrange => hobject ⟨ms, hdenotes, hrange⟩
    · exact fun ms hdenotes hrange => absurd ⟨ms, hdenotes, hrange⟩ hobject

end Texts

/-- **Arguments and policies survive the form** exactly if their numbers survive: those of the top
level as an `int64` where their `float64` is whole, every other one as the digits its `float64` is
printed with; and a queue is declared right only if the text of its arguments denotes an object. -/
theorem arguments_right_iff (outOfRange : Double → Int64) :
    (∀ s : Stored, s.Right outOfRange ↔
      AllKept outOfRange (fun n => Survives n ∧ Moderate n) s.members) ∧
    (∀ (vhost : String) (spec : DestinationSpec), CreateRight outOfRange vhost spec ↔
      ∃ ms, denotes (spec.attributes[attrArguments]?.getD "") = some ms ∧
        TextInRange (spec.attributes[attrArguments]?.getD "") ∧
        AllKept outOfRange Survives ms) ∧
    ∀ policy : Policy, SaveRight outOfRange policy ↔
      ∀ ms, denotes policy.definition = some ms → TextInRange policy.definition →
        AllKept outOfRange Survives ms :=
  ⟨fun s => s.right_iff, fun vhost spec => createRight_iff vhost spec rfl,
    fun policy => saveRight_iff policy⟩

/-! ### Arguments that are lost -/

/-- What a conversion out of range is on the processors of most machines. -/
def smallest : Double → Int64 := fun _ => Int64.minValue

/-- A queue whose arguments are no JSON. -/
def limited : DestinationSpec where
  ref := ⟨"/", "orders"⟩
  attributes := (∅ : ExtTreeMap String String compare).insert attrArguments "x-max-length=5000"

/-- A policy that limits a queue to so many bytes. -/
def limitPolicy (n : Number) (h : n.toDouble.isSome) : Stored where
  members := [("max-length-bytes", .number n)]
  canonical := rfl
  inRange := by
    intro m hm
    obtain rfl : m = n := by simpa using hm
    exact h

theorem survivesTop_of_limitPolicy {outOfRange : Double → Int64} {n : Number}
    {h : n.toDouble.isSome} (hright : (limitPolicy n h).Right outOfRange) :
    SurvivesTop outOfRange n :=
  (Stored.right_iff _).mp hright _ List.mem_cons_self

/-- The first integer that no `float64` is. -/
def oddLimit : ℕ := 9007199254740993

theorem read_oddLimit : Lib.Float64.read oddLimit = some 9007199254740992 := by
  have hlog : Int.log 2 (oddLimit : ℚ) = 53 := by
    have h : Nat.log 2 oddLimit = 53 :=
      (Nat.log_eq_iff (m := 53) (Or.inl (by norm_num))).mpr
        ⟨by norm_num [oddLimit], by norm_num [oddLimit]⟩
    rw [Int.log_natCast, h]
    rfl
  have hexp : exponent oddLimit = 1 := by
    rw [exponent, hlog]
    rfl
  have hcast : (oddLimit : ℚ) = 9007199254740993 := by norm_num [oddLimit]
  have hfloor : ⌊(9007199254740993 / 2 : ℚ)⌋₊ = 4503599627370496 := by
    rw [Nat.floor_eq_iff (by norm_num)]
    norm_num
  have hround : roundEven (9007199254740993 / 2) = 4503599627370496 := by
    rw [roundEven, hfloor, if_pos]
    norm_num
  have hnearest : nearest oddLimit = 9007199254740992 := by
    rw [nearest, hexp, hcast, zpow_one, hround]
    norm_num
  have hle : (9007199254740992 : ℚ) ≤ 2 ^ 53 := by norm_num
  rw [Lib.Float64.read, hnearest, if_pos]
  exact lt_of_le_of_lt hle (pow_lt_pow_right₀ one_lt_two (by norm_num))

/-- A limit of that many bytes does not survive. -/
theorem not_survivesTop_oddLimit : ∃ d, (intNumber oddLimit).toDouble = some d ∧
    ¬SurvivesTop smallest (intNumber oddLimit) := by
  have hmag : (intNumber oddLimit).mag = oddLimit := by
    rw [Number.mag_eq_abs, value_intNumber, Int.cast_natCast, Nat.abs_cast]
  have hread : Lib.Float64.read (intNumber oddLimit).mag = some 9007199254740992 := by
    rw [hmag, read_oddLimit]
  have hneg : (intNumber oddLimit).neg = false := neg_intNumber_natCast oddLimit
  have hdouble : (intNumber oddLimit).toDouble =
      some ⟨false, 9007199254740992, read_read hread⟩ :=
    Number.toDouble_eq_some.mpr ⟨hneg, hread⟩
  refine ⟨_, hdouble, fun hsurvives => ?_⟩
  have htrunc : trunc ⟨false, 9007199254740992, read_read hread⟩ = 9007199254740992 := by
    have hfloor : ⌊(9007199254740992 : ℚ)⌋₊ = 9007199254740992 := Nat.floor_ofNat _
    rw [trunc, hfloor, if_neg Bool.false_ne_true]
    norm_num
  have hint : (int64Of smallest ⟨false, 9007199254740992, read_read hread⟩).toInt =
      9007199254740992 := by
    rw [int64Of, htrunc, if_pos (by norm_num)]
    exact Int64.toInt_ofInt_of_le (by norm_num) (by norm_num)
  have htop := hsurvives _ hdouble
  rw [htrunc, hint, value_intNumber, if_pos (by rw [Double.value]; norm_num)] at htop
  exact absurd htop (by norm_num [oddLimit])

/-- The queue is declared without any arguments, and the limit of a policy is another one when it
is saved as it was shown. -/
theorem arguments_lost : ¬CreateRight smallest "/" limited ∧
    ∃ h, ¬(limitPolicy (intNumber oddLimit) h).Right smallest := by
  constructor
  · rintro ⟨ms, hdenotes, -⟩
    have htext : limited.attributes[attrArguments]?.getD "" = "x-max-length=5000" := by
      simp [limited]
    have hnone : denotes "x-max-length=5000" = none := rfl
    rw [htext, hnone] at hdenotes
    cases hdenotes
  · obtain ⟨d, hdouble, hlost⟩ := not_survivesTop_oddLimit
    exact ⟨Option.isSome_iff_exists.mpr ⟨d, hdouble⟩, fun hright =>
      hlost (survivesTop_of_limitPolicy hright)⟩

end MqStudio.Rabbitmq.Arguments
