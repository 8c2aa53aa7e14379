import MqStudio.Lib.Errors
import MqStudio.Lib.Text
import MqStudio.Lib.Upsert

/-!
# Editing topics and consumer groups of RocketMQ

`topic_mutation.go` and `consumer_mutation.go`: a broker replaces the whole configuration of a topic
or a group by the one it is sent, and the form carries three of its fields.

* `updateTopic`, `updateConsumerGroup`: the edits, with what becomes of each broker's request.
* `TopicRight`, `GroupRight`: an edit that succeeds changes the fields of the form, and no others.
* `edits_right_iff`: it does exactly if every broker it addresses holds the object already, with the
  constants of the create path in its other fields.
-/

namespace MqStudio.Rocketmq.Edits

open Std (ExtTreeMap)
open Lib.Errors Lib.Replicas Lib.Upsert Lib.Text

/-! ### What a broker keeps -/

structure TopicConfig where
  topicName : String
  readQueueNums : ℤ
  writeQueueNums : ℤ
  perm : ℤ
  topicFilterType : String
  topicSysFlag : ℤ
  order : Bool
  attributes : ExtTreeMap String String compare

structure SubscriptionGroupConfig where
  groupName : String
  consumeEnable : Bool
  consumeFromMinEnable : Bool
  consumeBroadcastEnable : Bool
  retryQueueNums : ℤ
  retryMaxTimes : ℤ
  brokerId : ℤ
  whichBrokerWhenConsumeSlowly : ℤ
  notifyConsumerIdsChangedEnable : Bool

/-- What a topic's form does not carry. -/
structure TopicRest where
  topicName : String
  topicFilterType : String
  topicSysFlag : ℤ
  order : Bool
  attributes : ExtTreeMap String String compare

/-- What a group's form does not carry. -/
structure GroupRest where
  groupName : String
  consumeEnable : Bool
  consumeFromMinEnable : Bool
  retryQueueNums : ℤ
  brokerId : ℤ
  whichBrokerWhenConsumeSlowly : ℤ
  notifyConsumerIdsChangedEnable : Bool
  deriving DecidableEq

def TopicConfig.rest (c : TopicConfig) : TopicRest :=
  ⟨c.topicName, c.topicFilterType, c.topicSysFlag, c.order, c.attributes⟩

def SubscriptionGroupConfig.rest (c : SubscriptionGroupConfig) : GroupRest :=
  ⟨c.groupName, c.consumeEnable, c.consumeFromMinEnable, c.retryQueueNums, c.brokerId,
    c.whichBrokerWhenConsumeSlowly, c.notifyConsumerIdsChangedEnable⟩

/-- The objects of each broker, by its address and their names. -/
abbrev Brokers (α : Type) := Places String String α

/-- Why an edit failed; the text of a permission that is not known quotes it. -/
inductive EditError where
  | of (err : Error)
  | permission (action permission : String)

/-! ### The brokers of an edit -/

/-- The addresses of a broker by its ids; the master has the id 0. -/
abbrev BrokerData := ExtTreeMap String String compare

/-- What an edit meets outside: the cluster's brokers, or an error, and what becomes of the request
to each. -/
structure Meets where
  clusterInfo : Except Error (List (Option BrokerData))
  replies : String → Reply String

/-- The addresses of the masters, each once. -/
def mastersOf (table : List (Option BrokerData)) : List String :=
  ((table.filterMap fun broker => broker.bind (·["0"]?)).filter (· ≠ "")).dedup

def masterBrokerAddrs (meets : Meets) : Except Error (List String) :=
  match meets.clusterInfo with
  | .error err => .error (.wrap "获取集群信息失败" err)
  | .ok table =>
    if mastersOf table = [] then .error (.new "未找到可用 Master Broker")
    else .ok ((mastersOf table).mergeSort fun a b => decide (a ≤ b))

/-- `resolveMasterBrokerAddrs`: the address that is named, or every master. -/
def resolveMasterBrokerAddrs (meets : Meets) (preferredAddress : String) :
    Except Error (List String) :=
  let address := trimSpace preferredAddress
  if address ≠ "" then .ok [address] else masterBrokerAddrs meets

/-- The texts of the requests that failed. -/
def failureTexts (failures : List (String × String)) : String :=
  "; ".intercalate (failures.map fun f => f.1 ++ ": " ++ f.2)

/-- The configuration to each of the brokers. -/
def applyConfig {α : Type} (brokers : Brokers α) (meets : Meets) (name : String) (config : α)
    (failed : String) (targets : List String) : Brokers α × Option EditError :=
  let sent := putAll name config meets.replies targets brokers
  (sent.1, if sent.2 = [] then none else some (.of (.new (failed ++ ": " ++ failureTexts sent.2))))

/-! ### Topics -/

def permRW : String := "RW"
def permR : String := "R"
def permW : String := "W"
def permDeny : String := "DENY"

def permToInt (perm : String) : ℤ :=
  if perm = permRW then 6
  else if perm = permR then 4
  else if perm = permW then 2
  else if perm = permDeny then 0
  else 6

/-- The fields of the topic form. -/
structure TopicUpdate where
  topicName : String
  brokerAddress : String
  readQueue : ℤ
  writeQueue : ℤ
  permission : String

/-- Zero and less are the default number of queues. -/
def orFour (queues : ℤ) : ℤ := if queues ≤ 0 then 4 else queues

def TopicUpdate.config (u : TopicUpdate) : TopicConfig where
  topicName := trimSpace u.topicName
  readQueueNums := orFour u.readQueue
  writeQueueNums := orFour u.writeQueue
  perm := permToInt u.permission
  topicFilterType := "SINGLE_TAG"
  topicSysFlag := 0
  order := false
  attributes := ∅

def applyTopicConfig (action : String) (brokers : Brokers TopicConfig) (meets : Meets)
    (u : TopicUpdate) : Brokers TopicConfig × Option EditError :=
  if trimSpace u.topicName = "" then
    (brokers, some (.of (.new (action ++ " Topic 失败: Topic 名称不能为空"))))
  else if 1024 < orFour u.readQueue ∨ 1024 < orFour u.writeQueue then
    (brokers, some (.of (.new (action ++ " Topic 失败: 队列数不能超过 1024"))))
  else if u.permission ∉ [permRW, permR, permW, permDeny] then
    (brokers, some (.permission action u.permission))
  else
    match resolveMasterBrokerAddrs meets u.brokerAddress with
    | .error err => (brokers, some (.of (.wrap (action ++ " Topic 失败") err)))
    | .ok targets => applyConfig brokers meets (trimSpace u.topicName) u.config
        (action ++ " Topic 时部分 Broker 失败") targets

def updateTopic (brokers : Brokers TopicConfig) (meets : Meets) (u : TopicUpdate) :
    Brokers TopicConfig × Option EditError :=
  applyTopicConfig "更新" brokers meets u

/-! ### Consumer groups -/

def modeClustering : String := "CLUSTERING"
def modeBroadcasting : String := "BROADCASTING"

/-- The fields of the group form. -/
structure GroupUpdate where
  groupName : String
  brokerAddress : String
  consumeMode : String
  maxRetry : ℤ

def validateConsumerGroupInput (u : GroupUpdate) : Except Error GroupUpdate :=
  if trimSpace u.groupName = "" then .error (.new "消费者组名称不能为空")
  else if u.consumeMode ≠ modeClustering ∧ u.consumeMode ≠ modeBroadcasting then
    .error (.new ("不支持的消费模式: " ++ u.consumeMode))
  else if u.maxRetry < 0 ∨ 64 < u.maxRetry then .error (.new "最大重试次数必须在 0-64 之间")
  else .ok { u with groupName := trimSpace u.groupName, brokerAddress := trimSpace u.brokerAddress }

def newSubscriptionGroupConfig (groupName consumeMode : String) (maxRetry : ℤ) :
    SubscriptionGroupConfig where
  groupName := groupName
  consumeEnable := true
  consumeFromMinEnable := true
  consumeBroadcastEnable := decide (consumeMode = modeBroadcasting)
  retryQueueNums := 1
  retryMaxTimes := maxRetry
  brokerId := 0
  whichBrokerWhenConsumeSlowly := 1
  notifyConsumerIdsChangedEnable := true

def applySubscriptionGroupConfig (brokers : Brokers SubscriptionGroupConfig) (meets : Meets)
    (candidates : List String) (config : SubscriptionGroupConfig) (operation : String) :
    Brokers SubscriptionGroupConfig × Option EditError :=
  if candidates = [] then
    (brokers, some (.of (.new (operation ++ "消费者组失败: 未找到可用 Broker"))))
  else applyConfig brokers meets config.groupName config (operation ++ "消费者组时部分 Broker 失败")
    candidates

def updateConsumerGroup (brokers : Brokers SubscriptionGroupConfig) (meets : Meets)
    (u : GroupUpdate) : Brokers SubscriptionGroupConfig × Option EditError :=
  match validateConsumerGroupInput u with
  | .error err => (brokers, some (.of err))
  | .ok u =>
    match resolveMasterBrokerAddrs meets u.brokerAddress with
    | .error err => (brokers, some (.of (.wrap "更新消费者组失败" err)))
    | .ok candidates => applySubscriptionGroupConfig brokers meets candidates
        (newSubscriptionGroupConfig u.groupName u.consumeMode u.maxRetry) "更新"

/-! ### What an edit should leave alone -/

/-- The brokers an edit is for. -/
def addressed (meets : Meets) (brokerAddress : String) : List String :=
  match resolveMasterBrokerAddrs meets brokerAddress with
  | .error _ => []
  | .ok targets => targets

/-- An edit that reports success has changed the counts and the permission of the topic where it
was, and nothing else. -/
def TopicRight (brokers : Brokers TopicConfig) (meets : Meets) (u : TopicUpdate) : Prop :=
  (updateTopic brokers meets u).2 = none →
    OnlyAsked TopicConfig.rest (trimSpace u.topicName) (addressed meets u.brokerAddress) brokers
      (updateTopic brokers meets u).1

/-- An edit that reports success has changed the mode and the retries of the group where it was, and
nothing else. -/
def GroupRight (brokers : Brokers SubscriptionGroupConfig) (meets : Meets) (u : GroupUpdate) :
    Prop :=
  (updateConsumerGroup brokers meets u).2 = none →
    OnlyAsked SubscriptionGroupConfig.rest (trimSpace u.groupName)
      (addressed meets u.brokerAddress) brokers (updateConsumerGroup brokers meets u).1

/-- The brokers of an edit can be told, and all of them take it. -/
def Taken (meets : Meets) (brokerAddress : String) : Prop :=
  ∃ targets, resolveMasterBrokerAddrs meets brokerAddress = .ok targets ∧
    ∀ a ∈ targets, meets.replies a = .answered

/-- The form of a topic is accepted, and so is the request by every broker. -/
structure TopicUpdate.Accepted (u : TopicUpdate) (meets : Meets) : Prop where
  name : trimSpace u.topicName ≠ ""
  queues : orFour u.readQueue ≤ 1024 ∧ orFour u.writeQueue ≤ 1024
  permission : u.permission ∈ [permRW, permR, permW, permDeny]
  taken : Taken meets u.brokerAddress

/-- The form of a group is accepted, and so is the request by every broker. -/
structure GroupUpdate.Accepted (u : GroupUpdate) (meets : Meets) : Prop where
  name : trimSpace u.groupName ≠ ""
  mode : u.consumeMode = modeClustering ∨ u.consumeMode = modeBroadcasting
  retries : 0 ≤ u.maxRetry ∧ u.maxRetry ≤ 64
  taken : Taken meets u.brokerAddress

/-- Each broker of the edit has the topic, as it would be created but for the form. -/
def TopicUpdate.AsCreated (u : TopicUpdate) (brokers : Brokers TopicConfig) (meets : Meets) :
    Prop :=
  ∀ a ∈ addressed meets u.brokerAddress, ∃ old, brokers a (trimSpace u.topicName) = some old ∧
    old.rest = ⟨trimSpace u.topicName, "SINGLE_TAG", 0, false, ∅⟩

/-- Each broker of the edit has the group, as it would be created but for the form. -/
def GroupUpdate.AsCreated (u : GroupUpdate) (brokers : Brokers SubscriptionGroupConfig)
    (meets : Meets) : Prop :=
  ∀ a ∈ addressed meets u.brokerAddress, ∃ old, brokers a (trimSpace u.groupName) = some old ∧
    old.rest = ⟨trimSpace u.groupName, true, true, 1, 0, 1, true⟩

/-! ### When an edit is right -/

theorem resolve_trimSpace (meets : Meets) (address : String) :
    resolveMasterBrokerAddrs meets (trimSpace address) =
      resolveMasterBrokerAddrs meets address := by
  rw [resolveMasterBrokerAddrs, resolveMasterBrokerAddrs, trimSpace_trimSpace]

/-- There is always a broker to send an edit to. -/
theorem ne_nil_of_resolve {meets : Meets} {address : String} {targets : List String}
    (h : resolveMasterBrokerAddrs meets address = .ok targets) : targets ≠ [] := by
  rw [resolveMasterBrokerAddrs] at h
  split at h
  · cases h
    exact List.cons_ne_nil _ _
  · rw [masterBrokerAddrs] at h
    split at h
    · cases h
    split at h
    · cases h
    · rename_i hmasters
      cases h
      intro hnil
      exact hmasters (List.perm_nil.mp (hnil ▸ (List.mergeSort_perm _ _).symm))

theorem addressed_of_resolve {meets : Meets} {address : String} {targets : List String}
    (h : resolveMasterBrokerAddrs meets address = .ok targets) :
    addressed meets address = targets := by
  rw [addressed, h]

section Applied

variable {α ρ : Type} {brokers : Brokers α} {meets : Meets} {name failed : String} {config : α}
  {targets : List String}

theorem applyConfig_eq_none_iff : (applyConfig brokers meets name config failed targets).2 = none ↔
    ∀ a ∈ targets, meets.replies a = .answered := by
  have hnil : (putAll name config meets.replies targets brokers).2 = [] ↔
      ∀ a ∈ targets, meets.replies a = .answered := failures_eq_nil_iff
  rw [applyConfig, ← hnil]
  dsimp only
  split
  · rename_i hnone
    exact iff_of_true rfl hnone
  · rename_i hsome
    exact iff_of_false (Option.some_ne_none _) hsome

/-- An edit that every broker takes is right where they have the object as it is sent. -/
theorem onlyAsked_applyConfig_iff (rest : α → ρ) :
    ((applyConfig brokers meets name config failed targets).2 = none →
        OnlyAsked rest name targets brokers
          (applyConfig brokers meets name config failed targets).1) ↔
      ((∀ a ∈ targets, meets.replies a = .answered) →
        ∀ a ∈ targets, ∃ old, brokers a name = some old ∧ rest old = rest config) := by
  rw [applyConfig_eq_none_iff]
  exact forall_congr' fun hall => onlyAsked_putAll_iff rest hall

end Applied


section Edits

variable {meets : Meets} {targets : List String}

/-- A topic's edit sends its configuration, once the form is accepted. -/
theorem updateTopic_eq {brokers : Brokers TopicConfig} {u : TopicUpdate}
    (hname : trimSpace u.topicName ≠ "")
    (hqueues : orFour u.readQueue ≤ 1024 ∧ orFour u.writeQueue ≤ 1024)
    (hperm : u.permission ∈ [permRW, permR, permW, permDeny])
    (hresolve : resolveMasterBrokerAddrs meets u.brokerAddress = .ok targets) :
    updateTopic brokers meets u = applyConfig brokers meets (trimSpace u.topicName) u.config
      ("更新" ++ " Topic 时部分 Broker 失败") targets := by
  have hfew : ¬(1024 < orFour u.readQueue ∨ 1024 < orFour u.writeQueue) := by omega
  rw [updateTopic, applyTopicConfig, if_neg hname, if_neg hfew, if_neg (not_not.mpr hperm),
    hresolve]

/-- Where a topic's form is not accepted, nothing is reported as done. -/
theorem accepted_of_updateTopic {brokers : Brokers TopicConfig} {u : TopicUpdate}
    (h : (updateTopic brokers meets u).2 = none) : u.Accepted meets := by
  by_cases hname : trimSpace u.topicName = ""
  · rw [updateTopic, applyTopicConfig, if_pos hname] at h
    cases h
  by_cases hqueues : 1024 < orFour u.readQueue ∨ 1024 < orFour u.writeQueue
  · rw [updateTopic, applyTopicConfig, if_neg hname, if_pos hqueues] at h
    cases h
  by_cases hperm : u.permission ∈ [permRW, permR, permW, permDeny]
  · cases hresolve : resolveMasterBrokerAddrs meets u.brokerAddress with
    | error err =>
      rw [updateTopic, applyTopicConfig, if_neg hname, if_neg hqueues,
        if_neg (not_not.mpr hperm), hresolve] at h
      cases h
    | ok targets =>
      have hfew : orFour u.readQueue ≤ 1024 ∧ orFour u.writeQueue ≤ 1024 := by omega
      rw [updateTopic_eq hname hfew hperm hresolve, applyConfig_eq_none_iff] at h
      exact ⟨hname, hfew, hperm, targets, hresolve, h⟩
  · rw [updateTopic, applyTopicConfig, if_neg hname, if_neg hqueues, if_pos hperm] at h
    cases h

theorem topicRight_iff (brokers : Brokers TopicConfig) (meets : Meets) (u : TopicUpdate) :
    TopicRight brokers meets u ↔ (u.Accepted meets → u.AsCreated brokers meets) := by
  constructor
  · intro hright haccepted
    obtain ⟨hname, hqueues, hperm, targets, hresolve, hall⟩ := haccepted
    rw [TopicRight, updateTopic_eq hname hqueues hperm hresolve,
      addressed_of_resolve hresolve] at hright
    rw [TopicUpdate.AsCreated, addressed_of_resolve hresolve]
    exact (onlyAsked_applyConfig_iff TopicConfig.rest).mp hright hall
  · intro hcreated hnone
    have haccepted := accepted_of_updateTopic hnone
    have hheld := hcreated haccepted
    obtain ⟨hname, hqueues, hperm, targets, hresolve, hall⟩ := haccepted
    rw [TopicUpdate.AsCreated, addressed_of_resolve hresolve] at hheld
    have heq := @updateTopic_eq meets targets brokers u hname hqueues hperm hresolve
    rw [heq] at hnone ⊢
    rw [addressed_of_resolve hresolve]
    exact (onlyAsked_applyConfig_iff TopicConfig.rest).mpr (fun _ => hheld) hnone

/-- A group's form, as it is checked. -/
theorem validate_eq {u : GroupUpdate} (hname : trimSpace u.groupName ≠ "")
    (hmode : u.consumeMode = modeClustering ∨ u.consumeMode = modeBroadcasting)
    (hretries : 0 ≤ u.maxRetry ∧ u.maxRetry ≤ 64) : validateConsumerGroupInput u =
      .ok { u with
        groupName := trimSpace u.groupName, brokerAddress := trimSpace u.brokerAddress } := by
  have hknown : ¬(u.consumeMode ≠ modeClustering ∧ u.consumeMode ≠ modeBroadcasting) := fun h =>
    hmode.elim h.1 h.2
  have hrange : ¬(u.maxRetry < 0 ∨ 64 < u.maxRetry) := by omega
  rw [validateConsumerGroupInput, if_neg hname, if_neg hknown, if_neg hrange]

theorem valid_of_validate {u v : GroupUpdate} (h : validateConsumerGroupInput u = .ok v) :
    trimSpace u.groupName ≠ "" ∧ (u.consumeMode = modeClustering ∨
      u.consumeMode = modeBroadcasting) ∧ 0 ≤ u.maxRetry ∧ u.maxRetry ≤ 64 := by
  rw [validateConsumerGroupInput] at h
  split at h
  · cases h
  rename_i hname
  split at h
  · cases h
  rename_i hmode
  split at h
  · cases h
  rename_i hretries
  exact ⟨hname, or_iff_not_and_not.mpr hmode, by omega, by omega⟩

/-- A group's edit sends its configuration, once the form is accepted. -/
theorem updateConsumerGroup_eq {brokers : Brokers SubscriptionGroupConfig} {u : GroupUpdate}
    (hname : trimSpace u.groupName ≠ "")
    (hmode : u.consumeMode = modeClustering ∨ u.consumeMode = modeBroadcasting)
    (hretries : 0 ≤ u.maxRetry ∧ u.maxRetry ≤ 64)
    (hresolve : resolveMasterBrokerAddrs meets u.brokerAddress = .ok targets) :
    updateConsumerGroup brokers meets u = applyConfig brokers meets (trimSpace u.groupName)
      (newSubscriptionGroupConfig (trimSpace u.groupName) u.consumeMode u.maxRetry)
      ("更新" ++ "消费者组时部分 Broker 失败") targets := by
  rw [updateConsumerGroup, validate_eq hname hmode hretries]
  dsimp only
  rw [resolve_trimSpace, hresolve]
  dsimp only
  rw [applySubscriptionGroupConfig, if_neg (ne_nil_of_resolve hresolve)]
  rfl

/-- Where a group's form is not accepted, nothing is reported as done. -/
theorem accepted_of_updateConsumerGroup {brokers : Brokers SubscriptionGroupConfig}
    {u : GroupUpdate} (h : (updateConsumerGroup brokers meets u).2 = none) : u.Accepted meets := by
  cases hvalid : validateConsumerGroupInput u with
  | error err =>
    rw [updateConsumerGroup, hvalid] at h
    cases h
  | ok v =>
    obtain ⟨hname, hmode, hretries⟩ := valid_of_validate hvalid
    cases hresolve : resolveMasterBrokerAddrs meets u.brokerAddress with
    | error err =>
      rw [updateConsumerGroup, validate_eq hname hmode hretries] at h
      dsimp only at h
      rw [resolve_trimSpace, hresolve] at h
      cases h
    | ok targets =>
      rw [updateConsumerGroup_eq hname hmode hretries hresolve, applyConfig_eq_none_iff] at h
      exact ⟨hname, hmode, hretries, targets, hresolve, h⟩

theorem groupRight_iff (brokers : Brokers SubscriptionGroupConfig) (meets : Meets)
    (u : GroupUpdate) :
    GroupRight brokers meets u ↔ (u.Accepted meets → u.AsCreated brokers meets) := by
  constructor
  · intro hright haccepted
    obtain ⟨hname, hmode, hretries, targets, hresolve, hall⟩ := haccepted
    rw [GroupRight, updateConsumerGroup_eq hname hmode hretries hresolve,
      addressed_of_resolve hresolve] at hright
    rw [GroupUpdate.AsCreated, addressed_of_resolve hresolve]
    exact (onlyAsked_applyConfig_iff SubscriptionGroupConfig.rest).mp hright hall
  · intro hcreated hnone
    have haccepted := accepted_of_updateConsumerGroup hnone
    have hheld := hcreated haccepted
    obtain ⟨hname, hmode, hretries, targets, hresolve, hall⟩ := haccepted
    rw [GroupUpdate.AsCreated, addressed_of_resolve hresolve] at hheld
    have heq := @updateConsumerGroup_eq meets targets brokers u hname hmode hretries hresolve
    rw [heq] at hnone ⊢
    rw [addressed_of_resolve hresolve]
    exact (onlyAsked_applyConfig_iff SubscriptionGroupConfig.rest).mpr (fun _ => hheld) hnone

end Edits

/-- **An edit changes only what was asked** exactly if, on each broker it addresses, the object is
there with the constants of the create path: what the form does not carry is replaced by them. -/
theorem edits_right_iff (topics : Brokers TopicConfig) (groups : Brokers SubscriptionGroupConfig)
    (meets : Meets) (u : TopicUpdate) (g : GroupUpdate) :
    (TopicRight topics meets u ↔ (u.Accepted meets → u.AsCreated topics meets)) ∧
      (GroupRight groups meets g ↔ (g.Accepted meets → g.AsCreated groups meets)) :=
  ⟨topicRight_iff topics meets u, groupRight_iff groups meets g⟩

/-- A group on one broker, switched off by an operator. -/
def switchedOff : Brokers SubscriptionGroupConfig := fun address name =>
  if address = "10.0.0.1:10911" ∧ name = "billing" then
    some { newSubscriptionGroupConfig "billing" modeClustering 16 with consumeEnable := false }
  else none

/-- Changing its retries switches it on again. -/
theorem switched_on_again : ¬GroupRight switchedOff ⟨.ok [], fun _ => .answered⟩
    ⟨"billing", "10.0.0.1:10911", modeClustering, 3⟩ := by
  rw [groupRight_iff]
  intro hright
  have haddressed : resolveMasterBrokerAddrs ⟨.ok [], fun _ => .answered⟩ "10.0.0.1:10911" =
      .ok ["10.0.0.1:10911"] := by decide
  obtain ⟨old, hold, hrest⟩ := hright
    ⟨by decide, .inl rfl, by decide, _, haddressed, fun _ _ => rfl⟩ "10.0.0.1:10911" (by
      rw [addressed_of_resolve haddressed]
      exact List.mem_cons_self)
  rw [switchedOff, if_pos (by decide)] at hold
  obtain rfl := Option.some.inj hold
  revert hrest
  decide


end MqStudio.Rocketmq.Edits
