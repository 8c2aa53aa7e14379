import MqStudio.Lib.MapFold
import MqStudio.Lib.Text

/-!
# The rules of a Service Bus subscription

`azureservicebus/routing.go`: a rule is shown as a binding, its filter and its action in a table of
texts, and a rule is made from such a binding.

* `bindingOf`, `ruleOptions`: the two directions.
* `getElem?_correlationFields`, `correlationFilterOf_system`: the one table read field by field.
* `roundTrip_iff`: two rules come back as they were, and so apart, exactly if each is plain.
-/

namespace MqStudio.Azureservicebus.Rules

open Std (ExtTreeMap)
open Lib.Maps Lib.Text

/-! ### Rules -/

/-- A value of a property; one that is no text has a text that it is printed as. -/
inductive PropertyValue where
  | text (value : String)
  | other (kind printed : String)
deriving DecidableEq

/-- `fmt.Sprint`. -/
def PropertyValue.sprint : PropertyValue → String
  | .text value => value
  | .other _ printed => printed

abbrev Properties := ExtTreeMap String PropertyValue compare

inductive SystemField where
  | subject
  | correlationId
  | messageId
  | to
  | replyTo
  | sessionId
  | replyToSessionId
  | contentType
deriving DecidableEq

def SystemField.name : SystemField → String
  | .subject => "subject"
  | .correlationId => "correlationId"
  | .messageId => "messageId"
  | .to => "to"
  | .replyTo => "replyTo"
  | .sessionId => "sessionId"
  | .replyToSessionId => "replyToSessionId"
  | .contentType => "contentType"

/-- In the order in which they are put. -/
def SystemField.all : List SystemField :=
  [.subject, .correlationId, .messageId, .to, .replyTo, .sessionId, .replyToSessionId, .contentType]

/-- The system field of a name. -/
def systemField (name : String) : Option SystemField :=
  SystemField.all.find? (·.name = name)

structure CorrelationFilter where
  system : SystemField → Option String
  applicationProperties : Properties

def CorrelationFilter.empty : CorrelationFilter := ⟨fun _ => none, ∅⟩

inductive RuleFilter where
  | sql (expression : String) (parameters : Properties)
  | correlation (filter : CorrelationFilter)
  | matchAll
  | matchNone

structure SQLAction where
  expression : String
  parameters : Properties

structure RuleProperties where
  name : String
  filter : RuleFilter
  action : Option SQLAction

structure Binding where
  nameSpace : String
  source : String
  destination : String
  destinationKind : String
  routingKey : String
  arguments : ExtTreeMap String String compare
  propertiesKey : String

def ArgFilterType : String := "filterType"
def ArgExpression : String := "expression"
def ArgAction : String := "action"
def ArgCorrelationPrefix : String := "correlation."

def FilterSQL : String := "sql"
def FilterCorrelation : String := "correlation"
def FilterTrue : String := "true"
def FilterFalse : String := "false"

/-! ### A rule as a binding -/

/-- The fields that a filter sets, an application property in the place of a system field of its
name. -/
def correlationFields (filter : CorrelationFilter) : ExtTreeMap String String compare :=
  let fields := SystemField.all.foldl (fun fields field =>
    match filter.system field with
    | none => fields
    | some value => if value = "" then fields else fields.insert field.name value) ∅
  filter.applicationProperties.foldl (fun fields name value => fields.insert name value.sprint)
    fields

def renderCorrelation (fields : ExtTreeMap String String compare) : String :=
  if fields.isEmpty then "1=1"
  else " AND ".intercalate ((fields.keys.mergeSort).map fun name =>
    name ++ " = '" ++ (fields[name]?).getD "" ++ "'")

/-- The arguments of a filter, and its routing key. -/
def filterArguments : RuleFilter → ExtTreeMap String String compare × String
  | .sql expression _ =>
    (((∅ : ExtTreeMap String String compare).insert ArgFilterType FilterSQL).insert ArgExpression
      expression, expression)
  | .correlation filter =>
    let fields := correlationFields filter
    (fields.foldl
        (fun arguments name value => arguments.insert (ArgCorrelationPrefix ++ name) value)
        ((∅ : ExtTreeMap String String compare).insert ArgFilterType FilterCorrelation),
      renderCorrelation fields)
  | .matchAll => ((∅ : ExtTreeMap String String compare).insert ArgFilterType FilterTrue, "1=1")
  | .matchNone => ((∅ : ExtTreeMap String String compare).insert ArgFilterType FilterFalse, "1=0")

def bindingOf (topic subscription : String) (rule : RuleProperties) : Binding :=
  let (arguments, routingKey) := filterArguments rule.filter
  { nameSpace := ""
    source := topic
    destination := subscription
    destinationKind := "subscription"
    routingKey := routingKey
    arguments :=
      match rule.action with
      | some action => arguments.insert ArgAction action.expression
      | none => arguments
    propertiesKey := rule.name }

/-! ### A binding as a rule -/

structure CreateRuleOptions where
  name : String
  filter : RuleFilter
  action : Option SQLAction

/-- One argument of a correlation filter; whether anything is given goes along. -/
def setField (s : CorrelationFilter × Bool) (key value : String) : CorrelationFilter × Bool :=
  if !hasPrefix key ArgCorrelationPrefix then s
  else
    let field := trimPrefix key ArgCorrelationPrefix
    match systemField field with
    | some system =>
      if trimSpace value = "" then s
      else
        ({ s.1 with system := Function.update s.1.system system (some (trimSpace value)) }, true)
    | none =>
      if trimSpace value = "" then s
      else
        ({ s.1 with
            applicationProperties := s.1.applicationProperties.insert field (.text value) }, true)

def correlationFilterOf (arguments : ExtTreeMap String String compare) : CorrelationFilter × Bool :=
  arguments.foldl setField (.empty, false)

/-- An argument; one that is not there is blank. -/
def Binding.argument (binding : Binding) (name : String) : String :=
  (binding.arguments[name]?).getD ""

/-- The filter that a binding asks for. -/
def filterOf (binding : Binding) : Except String RuleFilter :=
  let kind := trimSpace (binding.argument ArgFilterType)
  if kind = FilterSQL then
    let expression := trimSpace (binding.argument ArgExpression)
    let expression := if expression = "" then trimSpace binding.routingKey else expression
    if expression = "" then .error "a SQL rule needs an expression, such as colour = 'red'"
    else .ok (.sql expression ∅)
  else if kind = FilterCorrelation then
    let (filter, given) := correlationFilterOf binding.arguments
    if given then .ok (.correlation filter)
    else .error "a correlation rule needs at least one field to match, such as the subject"
  else if kind = FilterFalse then .ok .matchNone
  else .ok .matchAll

def ruleOptions (name : String) (binding : Binding) : Except String CreateRuleOptions :=
  match filterOf binding with
  | .error err => .error err
  | .ok filter =>
    let action := trimSpace (binding.argument ArgAction)
    .ok ⟨name, filter, if action = "" then none else some ⟨action, ∅⟩⟩


/-! ### System fields -/

@[simp] theorem systemField_name (field : SystemField) : systemField field.name = some field := by
  cases field <;> decide

theorem name_of_systemField {name : String} {field : SystemField}
    (h : systemField name = some field) : field.name = name := by
  simpa using List.find?_some h

theorem nodup_names : (SystemField.all.map SystemField.name).Nodup := by decide

/-! ### The table of a filter -/

/-- A system field is put into the table. -/
def putField (filter : CorrelationFilter) (fields : ExtTreeMap String String compare)
    (field : SystemField) : ExtTreeMap String String compare :=
  match filter.system field with
  | none => fields
  | some value => if value = "" then fields else fields.insert field.name value

/-- What the table shows of a system field: nothing, where it is blank. -/
def CorrelationFilter.shown (filter : CorrelationFilter) (field : SystemField) : Option String :=
  (filter.system field).filter fun value => value ≠ ""

theorem getElem?_putField (filter : CorrelationFilter) (fields : ExtTreeMap String String compare)
    (field : SystemField) (name : String) :
    (putField filter fields field)[name]? =
      if field.name = name then (filter.shown field).or fields[name]? else fields[name]? := by
  rw [putField, CorrelationFilter.shown]
  rcases filter.system field with _ | value
  · simp
  · by_cases hvalue : value = ""
    · simp [hvalue, Option.filter_some]
    · simp [hvalue, Option.filter_some, getElem?_insert]

theorem getElem?_foldl_putField (filter : CorrelationFilter) (name : String)
    {l : List SystemField} (hl : (l.map SystemField.name).Nodup)
    (fields : ExtTreeMap String String compare) :
    (l.foldl (putField filter) fields)[name]? =
      ((l.find? (·.name = name)).bind filter.shown).or fields[name]? := by
  induction l generalizing fields with
  | nil => rfl
  | cons field l ih =>
    obtain ⟨hfresh, hl⟩ := List.nodup_cons.mp hl
    rw [List.foldl_cons, ih hl, getElem?_putField]
    by_cases hname : field.name = name
    · have hnone : l.find? (fun f => decide (f.name = name)) = none := by
        rw [List.find?_eq_none]
        rintro f hf hsame
        rw [decide_eq_true_iff] at hsame
        exact hfresh (List.mem_map.mpr ⟨f, hf, hsame.trans hname.symm⟩)
      rw [hnone, if_pos hname, List.find?_cons_of_pos (by simpa using hname)]
      rfl
    · rw [if_neg hname, List.find?_cons_of_neg (by simpa using hname)]

/-- **The table of a filter, name by name**: the property of the name where there is one, else the
system field of it. -/
theorem getElem?_correlationFields (filter : CorrelationFilter) (name : String) :
    (correlationFields filter)[name]? =
      match filter.applicationProperties[name]? with
      | some value => some value.sprint
      | none => (systemField name).bind filter.shown := by
  have hsystem : (SystemField.all.foldl (putField filter) ∅)[name]? =
      (systemField name).bind filter.shown := by
    rw [getElem?_foldl_putField filter name nodup_names, ExtTreeMap.getElem?_empty, Option.or_none]
    rfl
  have hstep : ∀ (fields : ExtTreeMap String String compare) (k : String) (v : PropertyValue)
      (a : String), (fields.insert k v.sprint)[a]? =
        if k = a then some v.sprint else fields[a]? :=
    fun fields k v a => getElem?_insert fields k a v.sprint
  have hfold := get_foldl (fun (fields : ExtTreeMap String String compare) k => fields[k]?)
    (fun fields k (v : PropertyValue) => fields.insert k v.sprint) (fun _ v _ => some v.sprint)
    hstep filter.applicationProperties (SystemField.all.foldl (putField filter) ∅) name
  refine hfold.trans ?_
  rcases filter.applicationProperties[name]? with _ | value
  · exact hsystem
  · rfl

/-! ### The arguments of a correlation filter -/

theorem getElem?_foldl_prefixed (fields arguments : ExtTreeMap String String compare)
    (name : String) :
    (fields.foldl (fun arguments name value =>
      arguments.insert (ArgCorrelationPrefix ++ name) value) arguments)[
        ArgCorrelationPrefix ++ name]? =
      (fields[name]?).or arguments[ArgCorrelationPrefix ++ name]? := by
  have hstep : ∀ (s : ExtTreeMap String String compare) (k v a : String),
      (s.insert (ArgCorrelationPrefix ++ k) v)[ArgCorrelationPrefix ++ a]? =
        if k = a then some v else s[ArgCorrelationPrefix ++ a]? := by
    intro s k v a
    rw [getElem?_insert]
    by_cases hk : k = a
    · rw [if_pos hk, if_pos (by rw [hk])]
    · rw [if_neg hk, if_neg fun h => hk (append_left_cancel h)]
  have hfold := get_foldl
    (fun (s : ExtTreeMap String String compare) k => s[ArgCorrelationPrefix ++ k]?)
    (fun s k v => s.insert (ArgCorrelationPrefix ++ k) v) (fun _ v _ => some v)
    hstep fields arguments name
  refine hfold.trans ?_
  rcases fields[name]? with _ | value <;> rfl

theorem getElem?_foldl_prefixed_of_ne (fields arguments : ExtTreeMap String String compare)
    {key : String} (h : hasPrefix key ArgCorrelationPrefix = false) :
    (fields.foldl (fun arguments name value =>
      arguments.insert (ArgCorrelationPrefix ++ name) value) arguments)[key]? =
        arguments[key]? := by
  rw [ExtTreeMap.foldl_eq_foldl_toList]
  induction fields.toList generalizing arguments with
  | nil => rfl
  | cons e l ih =>
    rw [List.foldl_cons, ih, getElem?_insert, if_neg]
    rintro rfl
    rw [hasPrefix_append] at h
    nomatch h


theorem hasPrefix_fixed :
    hasPrefix ArgFilterType ArgCorrelationPrefix = false ∧
      hasPrefix ArgExpression ArgCorrelationPrefix = false ∧
      hasPrefix ArgAction ArgCorrelationPrefix = false := by decide

/-! ### A correlation filter from arguments -/

theorem setField_of_not_hasPrefix (s : CorrelationFilter × Bool) {key : String} (value : String)
    (h : hasPrefix key ArgCorrelationPrefix = false) : setField s key value = s := by
  rw [setField, if_pos (by rw [h]; rfl)]

theorem setField_prefixed (s : CorrelationFilter × Bool) (name value : String) :
    setField s (ArgCorrelationPrefix ++ name) value =
      if trimSpace value = "" then s
      else match systemField name with
        | some system =>
          ({ s.1 with system := Function.update s.1.system system (some (trimSpace value)) }, true)
        | none =>
          ({ s.1 with
              applicationProperties :=
                s.1.applicationProperties.insert name (.text value) }, true) := by
  rw [setField, if_neg (by simp), trimPrefix_append]
  by_cases hblank : trimSpace value = ""
  · rw [if_pos hblank]
    rcases hname : systemField name with _ | system <;> simp [hblank, hname]
  · rw [if_neg hblank]
    rcases hname : systemField name with _ | system <;> simp [hblank, hname]

/-- An argument is of a name, or it is none of a correlation filter. -/
theorem prefixed_or (key : String) :
    hasPrefix key ArgCorrelationPrefix = false ∨ ∃ name, key = ArgCorrelationPrefix ++ name := by
  rcases hkey : hasPrefix key ArgCorrelationPrefix with _ | _
  · exact .inl rfl
  · exact .inr (hasPrefix_iff.mp hkey)

/-- What an argument sets a system field to. -/
def setting (value : String) (before : Option String) : Option String :=
  if trimSpace value = "" then before else some (trimSpace value)

theorem setField_system (s : CorrelationFilter × Bool) (key value : String) (field : SystemField) :
    (setField s key value).1.system field =
      if key = ArgCorrelationPrefix ++ field.name then setting value (s.1.system field)
      else s.1.system field := by
  rcases prefixed_or key with hkey | ⟨name, rfl⟩
  · rw [setField_of_not_hasPrefix s value hkey, if_neg]
    rintro rfl
    rw [hasPrefix_append] at hkey
    nomatch hkey
  · rw [setField_prefixed, setting]
    by_cases hblank : trimSpace value = ""
    · rw [if_pos hblank, if_pos hblank, ite_self]
    · rw [if_neg hblank, if_neg hblank]
      rcases hname : systemField name with _ | system
      · rw [if_neg]
        intro hsame
        rw [append_left_cancel hsame, systemField_name] at hname
        nomatch hname
      · by_cases hsame : field = system
        · subst hsame
          rw [if_pos (by rw [name_of_systemField hname])]
          exact Function.update_self ..
        · rw [if_neg]
          · exact Function.update_of_ne hsame ..
          · intro heq
            rw [append_left_cancel heq, systemField_name] at hname
            exact hsame (Option.some.inj hname)

theorem setField_property (s : CorrelationFilter × Bool) (key value name : String) :
    (setField s key value).1.applicationProperties[name]? =
      if key = ArgCorrelationPrefix ++ name then
        if systemField name = none ∧ trimSpace value ≠ "" then some (.text value)
        else s.1.applicationProperties[name]?
      else s.1.applicationProperties[name]? := by
  rcases prefixed_or key with hkey | ⟨other, rfl⟩
  · rw [setField_of_not_hasPrefix s value hkey, if_neg]
    rintro rfl
    rw [hasPrefix_append] at hkey
    nomatch hkey
  · rw [setField_prefixed]
    by_cases hsame : other = name
    · subst hsame
      rw [if_pos rfl]
      by_cases hblank : trimSpace value = ""
      · rw [if_pos hblank, if_neg fun h => h.2 hblank]
      · rw [if_neg hblank]
        rcases hname : systemField other with _ | system
        · rw [if_pos ⟨rfl, hblank⟩]
          exact (getElem?_insert ..).trans (if_pos rfl)
        · rw [if_neg fun h => nomatch h.1]
    · rw [if_neg fun h => hsame (append_left_cancel h)]
      by_cases hblank : trimSpace value = ""
      · rw [if_pos hblank]
      · rw [if_neg hblank]
        rcases systemField other with _ | system
        · exact (getElem?_insert ..).trans (if_neg hsame)
        · rfl

theorem setField_given (s : CorrelationFilter × Bool) (key value : String) :
    (setField s key value).2 = true ↔
      s.2 = true ∨ hasPrefix key ArgCorrelationPrefix = true ∧ trimSpace value ≠ "" := by
  rcases prefixed_or key with hkey | ⟨name, rfl⟩
  · rw [setField_of_not_hasPrefix s value hkey, hkey]
    simp
  · rw [setField_prefixed]
    by_cases hblank : trimSpace value = ""
    · simp [hblank]
    · rcases systemField name with _ | system <;> simp [hblank]

/-- **A system field of the filter made**: its argument without the spaces around it. -/
theorem correlationFilterOf_system (arguments : ExtTreeMap String String compare)
    (field : SystemField) :
    (correlationFilterOf arguments).1.system field =
      (arguments[ArgCorrelationPrefix ++ field.name]?).bind fun value => setting value none := by
  have hfold := get_foldl_at (fun s : CorrelationFilter × Bool => s.1.system field) setField setting
    (fun s key value => setField_system s key value field) arguments (.empty, false)
  refine hfold.trans ?_
  rcases arguments[ArgCorrelationPrefix ++ field.name]? with _ | value <;> rfl

theorem correlationFilterOf_property (arguments : ExtTreeMap String String compare)
    (name : String) :
    (correlationFilterOf arguments).1.applicationProperties[name]? =
      (arguments[ArgCorrelationPrefix ++ name]?).bind fun value =>
        if systemField name = none ∧ trimSpace value ≠ "" then some (.text value) else none := by
  have hfold := get_foldl_at
    (fun s : CorrelationFilter × Bool => s.1.applicationProperties[name]?) setField
    (fun value before => if systemField name = none ∧ trimSpace value ≠ "" then
      some (.text value) else before)
    (fun s key value => setField_property s key value name) arguments (.empty, false)
  refine hfold.trans ?_
  have hempty : (CorrelationFilter.empty, false).1.applicationProperties[name]? = none :=
    ExtTreeMap.getElem?_empty ..
  rw [hempty]
  rcases arguments[ArgCorrelationPrefix ++ name]? with _ | value <;> rfl

theorem correlationFilterOf_given (arguments : ExtTreeMap String String compare) :
    (correlationFilterOf arguments).2 = true ↔
      ∃ name value, arguments[ArgCorrelationPrefix ++ name]? = some value ∧
        trimSpace value ≠ "" := by
  have hlist : ∀ (l : List (String × String)) (s : CorrelationFilter × Bool),
      (l.foldl (fun s e => setField s e.1 e.2) s).2 = true ↔ s.2 = true ∨
        ∃ e ∈ l, hasPrefix e.1 ArgCorrelationPrefix = true ∧ trimSpace e.2 ≠ "" := by
    intro l
    induction l with
    | nil => simp
    | cons e l ih =>
      intro s
      rw [List.foldl_cons, ih, setField_given, or_assoc]
      simp only [List.mem_cons, exists_eq_or_imp]
  rw [correlationFilterOf, ExtTreeMap.foldl_eq_foldl_toList, hlist]
  constructor
  · rintro (hfalse | ⟨e, he, hpre, hvalue⟩)
    · nomatch hfalse
    · obtain ⟨name, hname⟩ := hasPrefix_iff.mp hpre
      refine ⟨name, e.2, ?_, hvalue⟩
      rw [← ExtTreeMap.mem_toList_iff_getElem?_eq_some, ← hname]
      exact he
  · rintro ⟨name, value, hvalue, hne⟩
    exact .inr ⟨(ArgCorrelationPrefix ++ name, value),
      ExtTreeMap.mem_toList_iff_getElem?_eq_some.mpr hvalue, hasPrefix_append .., hne⟩


/-! ### The arguments of a rule -/

section Arguments

variable (topic subscription : String) (rule : RuleProperties)

theorem bindingOf_arguments : (bindingOf topic subscription rule).arguments =
    match rule.action with
    | some action => (filterArguments rule.filter).1.insert ArgAction action.expression
    | none => (filterArguments rule.filter).1 := rfl

def RuleFilter.kind : RuleFilter → String
  | .sql _ _ => FilterSQL
  | .correlation _ => FilterCorrelation
  | .matchAll => FilterTrue
  | .matchNone => FilterFalse

theorem getElem?_filterType (filter : RuleFilter) :
    (filterArguments filter).1[ArgFilterType]? = some filter.kind := by
  cases filter with
  | sql expression parameters =>
    refine (getElem?_insert ..).trans ((if_neg (by decide)).trans ?_)
    exact (getElem?_insert ..).trans (if_pos rfl)
  | correlation filter =>
    refine (getElem?_foldl_prefixed_of_ne _ _ hasPrefix_fixed.1).trans ?_
    exact (getElem?_insert ..).trans (if_pos rfl)
  | matchAll => exact (getElem?_insert ..).trans (if_pos rfl)
  | matchNone => exact (getElem?_insert ..).trans (if_pos rfl)

theorem getElem?_action (filter : RuleFilter) :
    (filterArguments filter).1[ArgAction]? = none := by
  cases filter with
  | sql expression parameters =>
    refine (getElem?_insert ..).trans ((if_neg (by decide)).trans ?_)
    exact (getElem?_insert ..).trans ((if_neg (by decide)).trans ExtTreeMap.getElem?_empty)
  | correlation filter =>
    refine (getElem?_foldl_prefixed_of_ne _ _ hasPrefix_fixed.2.2).trans ?_
    exact (getElem?_insert ..).trans ((if_neg (by decide)).trans ExtTreeMap.getElem?_empty)
  | matchAll =>
    exact (getElem?_insert ..).trans ((if_neg (by decide)).trans ExtTreeMap.getElem?_empty)
  | matchNone =>
    exact (getElem?_insert ..).trans ((if_neg (by decide)).trans ExtTreeMap.getElem?_empty)

/-- An action is one argument more. -/
theorem getElem?_arguments {key : String} (h : key ≠ ArgAction) :
    (bindingOf topic subscription rule).arguments[key]? =
      (filterArguments rule.filter).1[key]? := by
  rw [bindingOf_arguments]
  rcases rule.action with _ | action
  · rfl
  · exact (getElem?_insert ..).trans (if_neg h.symm)

theorem argument_filterType :
    (bindingOf topic subscription rule).argument ArgFilterType = rule.filter.kind := by
  rw [Binding.argument, getElem?_arguments _ _ _ (by decide), getElem?_filterType]
  rfl

theorem argument_action : (bindingOf topic subscription rule).argument ArgAction =
    (rule.action.map SQLAction.expression).getD "" := by
  rw [Binding.argument, bindingOf_arguments]
  rcases rule.action with _ | action
  · rw [getElem?_action]
    rfl
  · refine congrArg (Option.getD · "") ?_
    exact (getElem?_insert ..).trans (if_pos rfl)

variable {rule}

theorem argument_expression {expression : String} {parameters : Properties}
    (h : rule.filter = .sql expression parameters) :
    (bindingOf topic subscription rule).argument ArgExpression = expression := by
  have hget : (filterArguments (.sql expression parameters)).1[ArgExpression]? = some expression :=
    (getElem?_insert ..).trans (if_pos rfl)
  rw [Binding.argument, getElem?_arguments _ _ _ (by decide), h, hget]
  rfl

theorem getElem?_prefixed {filter : CorrelationFilter} (h : rule.filter = .correlation filter)
    (name : String) :
    (bindingOf topic subscription rule).arguments[ArgCorrelationPrefix ++ name]? =
      (correlationFields filter)[name]? := by
  have hpre : ∀ key, hasPrefix key ArgCorrelationPrefix = false →
      key ≠ ArgCorrelationPrefix ++ name := by
    rintro key hkey rfl
    rw [hasPrefix_append] at hkey
    nomatch hkey
  rw [getElem?_arguments _ _ _ (hpre _ hasPrefix_fixed.2.2).symm, h]
  refine (getElem?_foldl_prefixed ..).trans ?_
  rw [getElem?_insert, if_neg (hpre _ hasPrefix_fixed.1), ExtTreeMap.getElem?_empty,
    Option.or_none]

end Arguments

/-! ### Plain rules -/

/-- A correlation filter that compares something, in trimmed texts, and properties only under names
of their own. -/
structure CorrelationFilter.Plain (filter : CorrelationFilter) : Prop where
  sets : (∃ field, filter.system field ≠ none) ∨ filter.applicationProperties ≠ ∅
  system : ∀ field value, filter.system field = some value →
    value ≠ "" ∧ trimSpace value = value
  property : ∀ (name : String) (value : PropertyValue),
    filter.applicationProperties[name]? = some value →
      systemField name = none ∧ ∃ shown, value = .text shown ∧ trimSpace shown ≠ ""

/-- A trimmed expression without parameters. -/
def PlainExpression (expression : String) (parameters : Properties) : Prop :=
  expression ≠ "" ∧ trimSpace expression = expression ∧ parameters = ∅

def RuleFilter.Plain : RuleFilter → Prop
  | .sql expression parameters => PlainExpression expression parameters
  | .correlation filter => filter.Plain
  | .matchAll => True
  | .matchNone => True

structure RuleProperties.Plain (rule : RuleProperties) : Prop where
  filter : rule.filter.Plain
  action : ∀ action, rule.action = some action →
    PlainExpression action.expression action.parameters

theorem CorrelationFilter.ext_of {filter filter' : CorrelationFilter}
    (hsystem : ∀ field, filter.system field = filter'.system field)
    (hproperty : ∀ name : String,
      filter.applicationProperties[name]? = filter'.applicationProperties[name]?) :
    filter = filter' := by
  obtain ⟨system, properties⟩ := filter
  obtain ⟨system', properties'⟩ := filter'
  have h₁ : system = system' := funext hsystem
  have h₂ : properties = properties' := ExtTreeMap.ext_getElem? fun name => hproperty name
  rw [h₁, h₂]

/-- What is made of arguments is plain. -/
theorem plain_correlationFilterOf {arguments : ExtTreeMap String String compare}
    (h : (correlationFilterOf arguments).2 = true) : (correlationFilterOf arguments).1.Plain where
  sets := by
    obtain ⟨name, value, hvalue, hne⟩ := (correlationFilterOf_given arguments).mp h
    rcases hname : systemField name with _ | field
    · right
      rw [ne_empty_iff]
      refine ⟨name, .text value, ?_⟩
      rw [correlationFilterOf_property, hvalue, Option.bind_some, if_pos ⟨hname, hne⟩]
    · left
      refine ⟨field, ?_⟩
      rw [correlationFilterOf_system, name_of_systemField hname, hvalue, Option.bind_some, setting,
        if_neg hne]
      exact Option.some_ne_none _
  system := by
    intro field value hvalue
    rw [correlationFilterOf_system] at hvalue
    obtain ⟨given, -, hset⟩ := Option.bind_eq_some_iff.mp hvalue
    rw [setting] at hset
    split at hset
    case isTrue => nomatch hset
    case isFalse hne =>
      obtain rfl := Option.some.inj hset
      exact ⟨hne, trimSpace_trimSpace given⟩
  property := by
    intro name value hvalue
    rw [correlationFilterOf_property] at hvalue
    obtain ⟨given, -, hset⟩ := Option.bind_eq_some_iff.mp hvalue
    split at hset
    case isTrue hne =>
      obtain rfl := Option.some.inj hset
      exact ⟨hne.1, given, rfl, hne.2⟩
    case isFalse => nomatch hset

/-- **The arguments of a plain filter make the filter.** -/
theorem correlationFilterOf_of_plain {filter : CorrelationFilter}
    {arguments : ExtTreeMap String String compare} (hplain : filter.Plain)
    (h : ∀ name : String,
      arguments[ArgCorrelationPrefix ++ name]? = (correlationFields filter)[name]?) :
    correlationFilterOf arguments = (filter, true) := by
  have hnone : ∀ field : SystemField, filter.applicationProperties[field.name]? = none := by
    intro field
    rcases hvalue : filter.applicationProperties[field.name]? with _ | value
    · rfl
    · have hname := (hplain.property _ _ hvalue).1
      rw [systemField_name] at hname
      nomatch hname
  have hfield : ∀ field : SystemField,
      (correlationFields filter)[field.name]? = filter.system field := by
    intro field
    rw [getElem?_correlationFields, hnone, systemField_name, Option.bind_some,
      CorrelationFilter.shown]
    rcases hvalue : filter.system field with _ | value
    · rfl
    · rw [Option.filter_some, if_pos (by simpa using (hplain.system _ _ hvalue).1)]
  have hgiven : (correlationFilterOf arguments).2 = true := by
    rw [correlationFilterOf_given]
    rcases hplain.sets with ⟨field, hset⟩ | hset
    · obtain ⟨value, hvalue⟩ := Option.ne_none_iff_exists'.mp hset
      refine ⟨field.name, value, (h _).trans ((hfield _).trans hvalue), ?_⟩
      rw [(hplain.system _ _ hvalue).2]
      exact (hplain.system _ _ hvalue).1
    · obtain ⟨name, value, hvalue⟩ := ne_empty_iff.mp hset
      obtain ⟨-, shown, rfl, hne⟩ := hplain.property _ _ hvalue
      refine ⟨name, shown, (h _).trans ?_, hne⟩
      rw [getElem?_correlationFields, hvalue]
      rfl
  refine Prod.ext (CorrelationFilter.ext_of (fun field => ?_) fun name => ?_) hgiven
  · rw [correlationFilterOf_system, h, hfield]
    rcases hvalue : filter.system field with _ | value
    · rfl
    · obtain ⟨hne, htrim⟩ := hplain.system _ _ hvalue
      rw [Option.bind_some, setting, if_neg (by rwa [htrim]), htrim]
  · rw [correlationFilterOf_property, h, getElem?_correlationFields]
    rcases hvalue : filter.applicationProperties[name]? with _ | value
    · rcases hname : systemField name with _ | field
      · rfl
      · simp only [Option.bind_some, reduceCtorEq, false_and, if_false, Option.bind_fun_none]
    · obtain ⟨hname, shown, rfl, hne⟩ := hplain.property _ _ hvalue
      exact if_pos (And.intro hname hne)


/-! ### Rules that come back -/

/-- What is made of the text of an action, or of an expression. -/
theorem trimmed_iff (action : Option SQLAction) :
    (if trimSpace ((action.map SQLAction.expression).getD "") = "" then none
      else some (⟨trimSpace ((action.map SQLAction.expression).getD ""), ∅⟩ : SQLAction)) = action ↔
      ∀ a, action = some a → PlainExpression a.expression a.parameters := by
  rcases action with _ | ⟨expression, parameters⟩
  · exact ⟨fun _ a h => (nomatch h), fun _ => rfl⟩
  · simp only [Option.map_some, Option.getD_some, Option.some.injEq, forall_eq',
      PlainExpression]
    by_cases hblank : trimSpace expression = ""
    · rw [if_pos hblank, hblank]
      constructor
      · exact fun h => nomatch h
      · rintro ⟨hne, hsame, -⟩
        exact absurd hsame.symm hne
    · rw [if_neg hblank, Option.some.injEq, SQLAction.mk.injEq]
      constructor
      · rintro ⟨htrim, hparameters⟩
        exact ⟨fun h => hblank (htrim.trans h), htrim, hparameters.symm⟩
      · rintro ⟨-, htrim, hparameters⟩
        exact ⟨htrim, hparameters.symm⟩

section RoundTrip

variable (topic subscription : String) (rule rule' : RuleProperties)

/-- The binding shown for a rule makes the filter of the rule. -/
theorem filterOf_bindingOf_iff :
    filterOf (bindingOf topic subscription rule) = .ok rule.filter ↔ rule.filter.Plain := by
  have hkind := argument_filterType topic subscription rule
  rcases hfilter : rule.filter with ⟨expression, parameters⟩ | filter | _ | _ <;>
    rw [hfilter] at hkind
  case sql =>
    have hkey : (bindingOf topic subscription rule).routingKey = expression := by
      rw [bindingOf, hfilter]
      rfl
    have htrim : trimSpace FilterSQL = FilterSQL := by decide
    rw [filterOf, hkind, RuleFilter.kind, if_pos htrim,
      argument_expression topic subscription hfilter, hkey]
    dsimp only
    rw [ite_self]
    by_cases hblank : trimSpace expression = ""
    · rw [if_pos hblank]
      refine ⟨fun h => (nomatch h), fun h => ?_⟩
      exact absurd (h.2.1.symm.trans hblank) h.1
    · rw [if_neg hblank, Except.ok.injEq, RuleFilter.sql.injEq]
      constructor
      · rintro ⟨hsame, hparameters⟩
        exact ⟨fun h => hblank (hsame.trans h), hsame, hparameters.symm⟩
      · rintro ⟨-, hsame, hparameters⟩
        exact ⟨hsame, hparameters.symm⟩
  case correlation =>
    have htrim : trimSpace FilterCorrelation ≠ FilterSQL ∧
        trimSpace FilterCorrelation = FilterCorrelation := by decide
    rw [filterOf, hkind, RuleFilter.kind, if_neg htrim.1, if_pos htrim.2]
    constructor
    · intro h
      dsimp only at h
      split at h
      case isTrue hgiven =>
        obtain rfl := RuleFilter.correlation.inj (Except.ok.inj h)
        exact plain_correlationFilterOf hgiven
      case isFalse => nomatch h
    · intro h
      have hmade := correlationFilterOf_of_plain h (getElem?_prefixed topic subscription hfilter)
      dsimp only
      rw [hmade, if_pos rfl]
  case matchAll =>
    have htrim : trimSpace FilterTrue ≠ FilterSQL ∧ trimSpace FilterTrue ≠ FilterCorrelation ∧
        trimSpace FilterTrue ≠ FilterFalse := by decide
    rw [filterOf, hkind, RuleFilter.kind, if_neg htrim.1, if_neg htrim.2.1, if_neg htrim.2.2]
    exact ⟨fun _ => trivial, fun _ => rfl⟩
  case matchNone =>
    have htrim : trimSpace FilterFalse ≠ FilterSQL ∧ trimSpace FilterFalse ≠ FilterCorrelation ∧
        trimSpace FilterFalse = FilterFalse := by decide
    rw [filterOf, hkind, RuleFilter.kind, if_neg htrim.1, if_neg htrim.2.1, if_pos htrim.2.2]
    exact ⟨fun _ => trivial, fun _ => rfl⟩

/-- Declaring the binding shown for a rule makes the rule. -/
def RoundTrips : Prop :=
  ruleOptions rule.name (bindingOf topic subscription rule) =
    .ok ⟨rule.name, rule.filter, rule.action⟩

theorem roundTrips_iff : RoundTrips topic subscription rule ↔ rule.Plain := by
  have hfilter := filterOf_bindingOf_iff topic subscription rule
  have haction := trimmed_iff rule.action
  rw [← argument_action topic subscription rule] at haction
  rw [RoundTrips, ruleOptions]
  constructor
  · intro h
    split at h
    case h_1 => nomatch h
    case h_2 filter hmade =>
      obtain ⟨-, rfl, hsame⟩ := CreateRuleOptions.mk.inj (Except.ok.inj h)
      exact ⟨hfilter.mp hmade, haction.mp hsame⟩
  · intro h
    rw [hfilter.mpr h.filter]
    exact congrArg (fun action => Except.ok (CreateRuleOptions.mk rule.name rule.filter action))
      (haction.mpr h.action)

/-- Rules of different filters are shown with different arguments. -/
def ShownApart : Prop :=
  rule.filter ≠ rule'.filter →
    (bindingOf topic subscription rule).arguments ≠ (bindingOf topic subscription rule').arguments

variable {rule rule'}

/-- The filter is in the arguments of a rule that comes back. -/
theorem shownApart_of_plain (h : rule.Plain) (h' : rule'.Plain) :
    ShownApart topic subscription rule rule' := by
  intro hne harguments
  apply hne
  have hargument : ∀ name, (bindingOf topic subscription rule).argument name =
      (bindingOf topic subscription rule').argument name := by
    intro name
    rw [Binding.argument, Binding.argument, harguments]
  have hkind := hargument ArgFilterType
  rw [argument_filterType, argument_filterType] at hkind
  have hplain := h.filter
  have hplain' := h'.filter
  rcases hfilter : rule.filter with ⟨expression, parameters⟩ | filter | _ | _ <;>
    rcases hfilter' : rule'.filter with ⟨expression', parameters'⟩ | filter' | _ | _ <;>
    rw [hfilter, hfilter'] at hkind <;> rw [hfilter] at hplain <;> rw [hfilter'] at hplain' <;>
    first | rfl | (simp only [RuleFilter.kind] at hkind; exact absurd hkind (by decide)) | skip
  case sql.sql =>
    have hexpression := hargument ArgExpression
    rw [argument_expression _ _ hfilter, argument_expression _ _ hfilter'] at hexpression
    rw [hexpression, hplain.2.2, hplain'.2.2]
  case correlation.correlation =>
    have hmade := correlationFilterOf_of_plain hplain (getElem?_prefixed topic subscription hfilter)
    have hmade' :=
      correlationFilterOf_of_plain hplain' (getElem?_prefixed topic subscription hfilter')
    rw [harguments, hmade'] at hmade
    rw [(Prod.mk.inj hmade).1]

end RoundTrip

/-- **Two rules come back as they were, and are shown apart, exactly if each is plain.** -/
theorem roundTrip_iff (topic subscription : String) (rule rule' : RuleProperties) :
    (RoundTrips topic subscription rule ∧ RoundTrips topic subscription rule' ∧
      ShownApart topic subscription rule rule') ↔ rule.Plain ∧ rule'.Plain := by
  rw [roundTrips_iff, roundTrips_iff]
  constructor
  · exact fun h => ⟨h.1, h.2.1⟩
  · exact fun h => ⟨h.1, h.2, shownApart_of_plain topic subscription h.1 h.2⟩

/-- A property under the name of a system field is taken for the system field. -/
theorem property_taken_for_subject : ∃ rule rule' : RuleProperties,
    rule.filter = .correlation ⟨fun _ => none, (∅ : Properties).insert "subject" (.text "order")⟩ ∧
      rule.action = none ∧
      ¬RoundTrips "orders" "billing" rule ∧ ¬ShownApart "orders" "billing" rule rule' := by
  let bySubject : CorrelationFilter :=
    ⟨fun field => if field = .subject then some "order" else none, ∅⟩
  let byProperty : CorrelationFilter :=
    ⟨fun _ => none, (∅ : Properties).insert "subject" (.text "order")⟩
  refine ⟨⟨"byOrder", .correlation byProperty, none⟩, ⟨"byOrder", .correlation bySubject, none⟩,
    rfl, rfl, ?_, ?_⟩
  · rw [roundTrips_iff]
    intro hplain
    have hname := (hplain.filter.property "subject" (.text "order")
      ((getElem?_insert ..).trans (if_pos rfl))).1
    revert hname
    decide
  · intro hapart
    refine hapart (fun h => ?_) ?_
    · have hsystem := congrArg (fun f : CorrelationFilter => f.system .subject)
        (RuleFilter.correlation.inj h)
      revert hsystem
      decide
    · have hfields : correlationFields byProperty = correlationFields bySubject := by
        apply ExtTreeMap.ext_getElem?
        intro name
        rw [getElem?_correlationFields, getElem?_correlationFields]
        have hproperty : byProperty.applicationProperties[name]? =
            if "subject" = name then some (.text "order") else none := getElem?_insert ..
        have hnone : bySubject.applicationProperties[name]? = none := ExtTreeMap.getElem?_empty
        rw [hproperty, hnone]
        by_cases hname : "subject" = name
        · rw [if_pos hname, ← hname]
          rfl
        · rw [if_neg hname]
          rcases hfield : systemField name with _ | field
          · rfl
          · have hother : field ≠ .subject := by
              rintro rfl
              exact hname (name_of_systemField hfield)
            simp [CorrelationFilter.shown, byProperty, bySubject, hother]
      simp only [bindingOf, filterArguments, hfields]

end MqStudio.Azureservicebus.Rules
