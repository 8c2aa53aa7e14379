import MqStudio.Lib.Text

/-!
# RocketMQ namespaces

`rocketmq/resource/namespace.go`: a namespace is put in front of the names a page
sends, behind the mark of a retry or dead-letter topic, and taken off the names it
is shown.

* `Named`: the forms of a broker-real name that belongs to a namespace.
* `wrap_unwrap_iff`, `unwrap_eq_iff`, `unwrap_wrap`: when a shown name stands for
  the one name it was made from.
* `shown_names_act`: these together, for a namespace without a percent sign.
-/

namespace MqStudio.Rocketmq

open Lib.Text

def separator : String := "%"
def retryPrefix : String := "%RETRY%"
def dlqPrefix : String := "%DLQ%"

def systemTopics : List String :=
  ["TBW102", "SCHEDULE_TOPIC_XXXX", "BenchmarkTest", "RMQ_SYS_TRANS_HALF_TOPIC",
    "RMQ_SYS_TRACE_TOPIC", "RMQ_SYS_TRANS_OP_HALF_TOPIC", "TRANS_CHECK_MAX_TIME_TOPIC",
    "SELF_TEST_TOPIC", "OFFSET_MOVED_EVENT", "CHECKPOINT_TOPIC",
    "RMQ_SYS_ROCKSDB_TRANS_HALF_TOPIC", "RMQ_SYS_ROCKSDB_TRANS_OP_HALF_TOPIC"]

def isSystemResource (name : String) : Bool :=
  systemTopics.contains name || hasPrefix name "rmq_sys_" || hasPrefix name "CID_RMQ_SYS_"

/-- A retry or dead-letter marker, and the name it decorates. -/
def splitRetryPrefix (name : String) : String × String :=
  if hasPrefix name retryPrefix then (retryPrefix, trimPrefix name retryPrefix)
  else if hasPrefix name dlqPrefix then (dlqPrefix, trimPrefix name dlqPrefix)
  else ("", name)

/-- `In`: a broker-real name belongs to the namespace. -/
def inNamespace (ns name : String) : Bool :=
  if ns = "" then true
  else if name = "" then false
  else if isSystemResource name then true
  else hasPrefix (splitRetryPrefix name).2 (ns ++ separator)

def wrap (ns name : String) : String :=
  if ns = "" ∨ name = "" ∨ isSystemResource name ∨ inNamespace ns name then name
  else (splitRetryPrefix name).1 ++ ns ++ separator ++ (splitRetryPrefix name).2

def unwrap (ns name : String) : String :=
  if ns = "" ∨ !inNamespace ns name then name
  else (splitRetryPrefix name).1 ++ trimPrefix (splitRetryPrefix name).2 (ns ++ separator)

/-- `Of`: the namespace a broker-real name carries, or none. -/
def namespaceOf (name : String) : String :=
  if name = "" ∨ isSystemResource name then ""
  else
    let bare := (splitRetryPrefix name).2.toList
    if '%' ∈ bare then String.ofList (bare.takeWhile (· ≠ '%')) else ""

/-! ### Marks -/

/-- What a namespaced name begins with. -/
abbrev scope (ns : String) : String := ns ++ separator

/-- The two marks. -/
def IsMark (mark : String) : Prop := mark = retryPrefix ∨ mark = dlqPrefix

variable {ns name mark own : String}

/-- A name that begins with a percent sign is no system name. -/
theorem isSystemResource_percent (t : String) : isSystemResource ("%" ++ t) = false := by
  have hnot : ∀ s ∈ "rmq_sys_" :: "CID_RMQ_SYS_" :: systemTopics, s.toList.head? ≠ some '%' := by
    decide
  have hhead : ("%" ++ t).toList.head? = some '%' := by simp
  rw [isSystemResource, Bool.or_eq_false_iff, Bool.or_eq_false_iff]
  refine ⟨⟨?_, ?_⟩, ?_⟩
  · rw [← Bool.not_eq_true, List.contains_iff_mem]
    intro hmem
    exact hnot _ (by simp [hmem]) hhead
  · simp [hasPrefix, List.isPrefixOf]
  · simp [hasPrefix, List.isPrefixOf]

theorem IsMark.percent (h : IsMark mark) (t : String) : ∃ u, mark ++ t = "%" ++ u := by
  rcases h with rfl | rfl
  · exact ⟨"RETRY%" ++ t, by rw [← String.append_assoc]; rfl⟩
  · exact ⟨"DLQ%" ++ t, by rw [← String.append_assoc]; rfl⟩

theorem IsMark.ne_empty (h : IsMark mark) : mark ≠ "" := by
  rcases h with rfl | rfl <;> decide

theorem IsMark.not_system (h : IsMark mark) (t : String) : isSystemResource (mark ++ t) = false := by
  obtain ⟨u, hu⟩ := h.percent t
  rw [hu, isSystemResource_percent]

theorem splitRetryPrefix_mark (h : IsMark mark) (t : String) :
    splitRetryPrefix (mark ++ t) = (mark, t) := by
  rcases h with rfl | rfl
  · rw [splitRetryPrefix, if_pos (hasPrefix_append _ _), trimPrefix_append]
  · have hnot : hasPrefix (dlqPrefix ++ t) retryPrefix = false := by
      simp [hasPrefix, List.isPrefixOf, retryPrefix, dlqPrefix]
    rw [splitRetryPrefix, if_neg (by simp [hnot]), if_pos (hasPrefix_append _ _), trimPrefix_append]

/-- A name has a mark, and what it decorates, or it has none. -/
theorem splitRetryPrefix_cases (name : String) :
    splitRetryPrefix name = ("", name) ∨
      ∃ mark bare, IsMark mark ∧ name = mark ++ bare ∧ splitRetryPrefix name = (mark, bare) := by
  by_cases hretry : hasPrefix name retryPrefix = true
  · obtain ⟨bare, rfl⟩ := hasPrefix_iff.mp hretry
    exact Or.inr ⟨retryPrefix, bare, Or.inl rfl, rfl, splitRetryPrefix_mark (Or.inl rfl) bare⟩
  · by_cases hdlq : hasPrefix name dlqPrefix = true
    · obtain ⟨bare, rfl⟩ := hasPrefix_iff.mp hdlq
      exact Or.inr ⟨dlqPrefix, bare, Or.inr rfl, rfl, splitRetryPrefix_mark (Or.inr rfl) bare⟩
    · exact Or.inl (by rw [splitRetryPrefix, if_neg hretry, if_neg hdlq])

theorem IsMark.of_ne_empty (h : (splitRetryPrefix name).1 ≠ "") :
    IsMark (splitRetryPrefix name).1 ∧
      name = (splitRetryPrefix name).1 ++ (splitRetryPrefix name).2 := by
  rcases splitRetryPrefix_cases name with hplain | ⟨mark, bare, hmark, hname, hsplit⟩
  · rw [hplain] at h
    exact absurd rfl h
  · rw [hsplit]
    exact ⟨hmark, hname⟩

/-! ### Names in a namespace -/

/-- A namespace that a broker can have: it has no percent sign, and is there at all. -/
structure IsNamespace (ns : String) : Prop where
  plain : '%' ∉ ns.toList
  nonempty : ns ≠ ""

/-- A namespaced name does not begin with a percent sign. -/
theorem IsNamespace.not_percent (h : IsNamespace ns) (t u : String) : scope ns ++ t ≠ "%" ++ u := by
  intro heq
  have hlists := congrArg (·.toList.head?) heq
  cases hl : ns.toList with
  | nil => exact h.nonempty (String.toList_eq_nil_iff.mp hl)
  | cons c rest =>
    have hc : c = '%' := by simpa [scope, hl] using hlists
    exact h.plain (by simp [hl, hc])

theorem IsNamespace.split_plain (h : IsNamespace ns) (t : String) :
    splitRetryPrefix (scope ns ++ t) = ("", scope ns ++ t) := by
  refine (splitRetryPrefix_cases _).resolve_right ?_
  rintro ⟨mark, bare, hmark, hname, -⟩
  obtain ⟨u, hu⟩ := hmark.percent bare
  exact h.not_percent t u (hname.trans hu)

/-- The forms of a broker-real name that belongs to a namespace. -/
inductive Named (ns : String) : String → Prop
  | shared {name : String} : isSystemResource name = true → hasPrefix name (scope ns) = false →
      splitRetryPrefix name = ("", name) → Named ns name
  | plain (own : String) : Named ns (scope ns ++ own)
  | marked {mark : String} (own : String) : IsMark mark → Named ns (mark ++ (scope ns ++ own))

theorem named_of_inNamespace (h : IsNamespace ns) (hin : inNamespace ns name = true) :
    Named ns name := by
  have hscoped : hasPrefix (splitRetryPrefix name).2 (scope ns) = true → Named ns name := by
    intro hp
    obtain ⟨own, hown⟩ := hasPrefix_iff.mp hp
    rcases splitRetryPrefix_cases name with hplain | ⟨mark, bare, hmark, rfl, hsplit⟩
    · rw [hplain] at hown
      obtain rfl : name = scope ns ++ own := hown
      exact .plain own
    · rw [hsplit] at hown
      obtain rfl : bare = scope ns ++ own := hown
      exact .marked own hmark
  by_cases hp : hasPrefix (splitRetryPrefix name).2 (scope ns) = true
  · exact hscoped hp
  · rw [inNamespace, if_neg h.nonempty] at hin
    split_ifs at hin with hname hsystem
    · have hplain : splitRetryPrefix name = ("", name) := by
        refine (splitRetryPrefix_cases name).resolve_right ?_
        rintro ⟨mark, bare, hmark, rfl, -⟩
        rw [hmark.not_system] at hsystem
        cases hsystem
      rw [hplain] at hp
      exact .shared hsystem (by simpa using hp) hplain
    · exact absurd hin hp

theorem IsNamespace.inNamespace_iff (h : IsNamespace ns) (hname : name ≠ "") :
    inNamespace ns name = true ↔
      isSystemResource name = true ∨ hasPrefix (splitRetryPrefix name).2 (scope ns) = true := by
  rw [inNamespace, if_neg h.nonempty, if_neg hname]
  by_cases hsystem : isSystemResource name = true
  · simp [hsystem]
  · simp [hsystem]

theorem IsNamespace.inNamespace_plain (h : IsNamespace ns) (own : String) :
    inNamespace ns (scope ns ++ own) = true := by
  have hne : scope ns ++ own ≠ "" := by simp [scope, separator]
  rw [h.inNamespace_iff hne, h.split_plain]
  exact Or.inr (hasPrefix_append _ _)

theorem IsNamespace.inNamespace_marked (h : IsNamespace ns) (hmark : IsMark mark) (own : String) :
    inNamespace ns (mark ++ (scope ns ++ own)) = true := by
  have hne : mark ++ (scope ns ++ own) ≠ "" := by simp [scope, separator]
  rw [h.inNamespace_iff hne, splitRetryPrefix_mark hmark]
  exact Or.inr (hasPrefix_append _ _)

theorem IsNamespace.unwrap_plain (h : IsNamespace ns) (own : String) :
    unwrap ns (scope ns ++ own) = own := by
  rw [unwrap, if_neg (by simp [h.nonempty, h.inNamespace_plain]), h.split_plain]
  simp

theorem IsNamespace.unwrap_marked (h : IsNamespace ns) (hmark : IsMark mark) (own : String) :
    unwrap ns (mark ++ (scope ns ++ own)) = mark ++ own := by
  rw [unwrap, if_neg (by simp [h.nonempty, h.inNamespace_marked hmark]),
    splitRetryPrefix_mark hmark]
  simp

theorem unwrap_shared (hns : hasPrefix name (scope ns) = false)
    (hplain : splitRetryPrefix name = ("", name)) : unwrap ns name = name := by
  have htrim : trimPrefix name (ns ++ separator) = name := by
    rw [trimPrefix, if_neg (by simpa using hns)]
  rw [unwrap]
  split
  · rfl
  · rw [hplain]
    simp [htrim]

/-- A name that is wrapped comes back with the namespace behind its mark. -/
theorem IsNamespace.wrap_eq (h : IsNamespace ns) (hname : name ≠ "")
    (hin : inNamespace ns name = false) :
    wrap ns name = (splitRetryPrefix name).1 ++ (scope ns ++ (splitRetryPrefix name).2) := by
  have hsystem : isSystemResource name = false := by
    by_contra hs
    rw [h.inNamespace_iff hname |>.mpr (Or.inl (by simpa using hs))] at hin
    cases hin
  rw [wrap, if_neg (by simp [h.nonempty, hname, hsystem, hin])]
  simp [scope, String.append_assoc]

/-- A name that is not wrapped comes back as it is. -/
theorem wrap_of_in (hin : inNamespace ns name = true) : wrap ns name = name := by
  rw [wrap, if_pos (by simp [hin])]

theorem ne_scope_append (ns own : String) : own ≠ scope ns ++ own := by
  intro he
  have hlength := congrArg String.length he
  simp [scope, separator] at hlength

theorem splitRetryPrefix_of_fst (h : (splitRetryPrefix name).1 = "") :
    splitRetryPrefix name = ("", name) := by
  refine (splitRetryPrefix_cases name).resolve_right ?_
  rintro ⟨mark, bare, hmark, -, hsplit⟩
  rw [hsplit] at h
  exact hmark.ne_empty h

/-! ### What a shown name stands for -/

/-- Behind its mark and the namespace, the name does not begin with the namespace again, and, where it
has no mark, what is left is a name, no system name, and has no mark of its own. -/
def Returns (ns name : String) : Prop :=
  ns = "" ∨ (hasPrefix (splitRetryPrefix name).2 (scope ns) = true →
    let own := trimPrefix (splitRetryPrefix name).2 (scope ns)
    hasPrefix own (scope ns) = false ∧
      ((splitRetryPrefix name).1 = "" →
        own ≠ "" ∧ isSystemResource own = false ∧ (splitRetryPrefix own).1 = ""))

theorem IsNamespace.returns_plain (h : IsNamespace ns) :
    wrap ns own = scope ns ++ own ↔ hasPrefix own (scope ns) = false ∧
      own ≠ "" ∧ isSystemResource own = false ∧ (splitRetryPrefix own).1 = "" := by
  by_cases hown : own = ""
  · subst hown
    have hwrap : wrap ns "" = "" := by simp [wrap]
    rw [hwrap]
    exact iff_of_false (ne_scope_append ns "") fun hr => hr.2.1 rfl
  by_cases hin : inNamespace ns own = true
  · rw [wrap_of_in hin]
    refine iff_of_false (ne_scope_append ns own) ?_
    rintro ⟨hscope, -, hsystem, hmark⟩
    rw [h.inNamespace_iff hown, splitRetryPrefix_of_fst hmark, hsystem, hscope] at hin
    simp at hin
  · rw [h.wrap_eq hown (by simpa using hin)]
    have hout : ¬ (isSystemResource own = true ∨
        hasPrefix (splitRetryPrefix own).2 (scope ns) = true) := by
      rwa [← h.inNamespace_iff hown]
    by_cases hmark : (splitRetryPrefix own).1 = ""
    · rw [splitRetryPrefix_of_fst hmark] at hout ⊢
      simp only [not_or, Bool.not_eq_true] at hout
      simp [hout, hown]
    · obtain ⟨u, hu⟩ := (IsMark.of_ne_empty hmark).1.percent (scope ns ++ (splitRetryPrefix own).2)
      refine iff_of_false (fun he => h.not_percent own u (he.symm.trans hu)) ?_
      rintro ⟨-, -, -, hnone⟩
      exact hmark hnone

theorem IsNamespace.returns_marked (h : IsNamespace ns) (hmark : IsMark mark) :
    wrap ns (mark ++ own) = mark ++ (scope ns ++ own) ↔ hasPrefix own (scope ns) = false := by
  have hname : mark ++ own ≠ "" := by
    intro he
    have := hmark.ne_empty
    simp_all
  have hin : inNamespace ns (mark ++ own) = true ↔ hasPrefix own (scope ns) = true := by
    rw [h.inNamespace_iff hname, hmark.not_system, splitRetryPrefix_mark hmark]
    simp
  by_cases hscope : hasPrefix own (scope ns) = true
  · rw [wrap_of_in (hin.mpr hscope)]
    refine iff_of_false (fun he => ne_scope_append ns own (append_left_cancel he)) ?_
    simp [hscope]
  · have hout : inNamespace ns (mark ++ own) = false := by
      rw [← Bool.not_eq_true, hin]
      exact hscope
    rw [h.wrap_eq hname hout, splitRetryPrefix_mark hmark]
    simpa using hscope

/-- **A shown name is wrapped into the name it was made from** exactly where that name returns. -/
theorem wrap_unwrap_iff (hns : '%' ∉ ns.toList) (hin : inNamespace ns name = true) :
    wrap ns (unwrap ns name) = name ↔ Returns ns name := by
  by_cases hempty : ns = ""
  · exact iff_of_true (by simp [wrap, unwrap, hempty]) (Or.inl hempty)
  have h : IsNamespace ns := ⟨hns, hempty⟩
  rcases named_of_inNamespace h hin with ⟨hsystem, hscope, hplain⟩ | own | ⟨own, hmark⟩
  · rw [unwrap_shared hscope hplain, wrap_of_in hin]
    refine iff_of_true rfl (Or.inr fun hp => ?_)
    rw [hplain, hscope] at hp
    cases hp
  · rw [h.unwrap_plain, h.returns_plain, Returns, or_iff_right hempty, h.split_plain]
    simp
  · rename_i mark
    rw [h.unwrap_marked hmark, h.returns_marked hmark, Returns, or_iff_right hempty,
      splitRetryPrefix_mark hmark]
    simp [hmark.ne_empty]

/-- One name is another, a system name, in the namespace; or the one has in front of the mark what the
other has behind it. -/
def Shares (ns a b : String) : Prop :=
  ns ≠ "" ∧ ((isSystemResource b = true ∧ hasPrefix b (scope ns) = false ∧ a = scope ns ++ b) ∨
    ∃ mark own, IsMark mark ∧ a = scope ns ++ (mark ++ own) ∧ b = mark ++ (scope ns ++ own))

/-- No name has one mark in front of another. -/
theorem IsMark.inj {mark' a b : String} (h : IsMark mark) (h' : IsMark mark')
    (heq : mark ++ a = mark' ++ b) : mark = mark' ∧ a = b := by
  have hsplit := splitRetryPrefix_mark h a
  rw [heq, splitRetryPrefix_mark h'] at hsplit
  exact ⟨(Prod.mk.inj hsplit).1.symm, (Prod.mk.inj hsplit).2.symm⟩

theorem IsMark.not_shared (h : IsMark mark) (hplain : splitRetryPrefix name = ("", name)) :
    name ≠ mark ++ own := by
  rintro rfl
  rw [splitRetryPrefix_mark h] at hplain
  exact h.ne_empty (Prod.mk.inj hplain).1

/-- **Two names are shown as one** exactly where they are one, or share it in one of two ways. -/
theorem unwrap_eq_iff {a b : String} (hns : '%' ∉ ns.toList) (ha : inNamespace ns a = true)
    (hb : inNamespace ns b = true) :
    unwrap ns a = unwrap ns b ↔ a = b ∨ Shares ns a b ∨ Shares ns b a := by
  by_cases hempty : ns = ""
  · simp [unwrap, Shares, hempty]
  have h : IsNamespace ns := ⟨hns, hempty⟩
  constructor
  · intro heq
    rcases named_of_inNamespace h ha with ⟨hsystem, hscope, hplain⟩ | own | ⟨own, hmark⟩ <;>
      rcases named_of_inNamespace h hb with ⟨hsystem', hscope', hplain'⟩ | own' | ⟨own', hmark'⟩
    · rw [unwrap_shared hscope hplain, unwrap_shared hscope' hplain'] at heq
      exact Or.inl heq
    · rw [unwrap_shared hscope hplain, h.unwrap_plain] at heq
      exact Or.inr (Or.inr ⟨hempty, Or.inl ⟨hsystem, hscope, heq ▸ rfl⟩⟩)
    · rw [unwrap_shared hscope hplain, h.unwrap_marked hmark'] at heq
      exact absurd heq (hmark'.not_shared hplain)
    · rw [h.unwrap_plain, unwrap_shared hscope' hplain'] at heq
      exact Or.inr (Or.inl ⟨hempty, Or.inl ⟨hsystem', hscope', heq ▸ rfl⟩⟩)
    · rw [h.unwrap_plain, h.unwrap_plain] at heq
      exact Or.inl (heq ▸ rfl)
    · rename_i mark'
      rw [h.unwrap_plain, h.unwrap_marked hmark'] at heq
      exact Or.inr (Or.inl ⟨hempty, Or.inr ⟨mark', own', hmark', heq ▸ rfl, rfl⟩⟩)
    · rw [h.unwrap_marked hmark, unwrap_shared hscope' hplain'] at heq
      exact absurd heq.symm (hmark.not_shared hplain')
    · rename_i mark
      rw [h.unwrap_marked hmark, h.unwrap_plain] at heq
      exact Or.inr (Or.inr ⟨hempty, Or.inr ⟨mark, own, hmark, heq ▸ rfl, rfl⟩⟩)
    · rw [h.unwrap_marked hmark, h.unwrap_marked hmark'] at heq
      obtain ⟨rfl, rfl⟩ := hmark.inj hmark' heq
      exact Or.inl rfl
  · have hshares : ∀ a b, inNamespace ns b = true → Shares ns a b → unwrap ns a = unwrap ns b := by
      rintro a b hb ⟨-, ⟨hsystem, hscope, rfl⟩ | ⟨mark, own, hmark, rfl, rfl⟩⟩
      · have hplain : splitRetryPrefix b = ("", b) := by
          refine (splitRetryPrefix_cases b).resolve_right ?_
          rintro ⟨mark, bare, hmark, rfl, -⟩
          rw [hmark.not_system] at hsystem
          cases hsystem
        rw [h.unwrap_plain, unwrap_shared hscope hplain]
      · rw [h.unwrap_plain, h.unwrap_marked hmark]
    rintro (rfl | hab | hba)
    · rfl
    · exact hshares a b hb hab
    · exact (hshares b a ha hba).symm

/-- What a bare name becomes, and what that is shown as. -/
theorem unwrap_wrap (hns : '%' ∉ ns.toList) (hin : inNamespace ns name = false) :
    unwrap ns (wrap ns name) = name := by
  have hempty : ns ≠ "" := by
    rintro rfl
    simp [inNamespace] at hin
  have h : IsNamespace ns := ⟨hns, hempty⟩
  by_cases hname : name = ""
  · subst hname
    have hwrap : wrap ns "" = "" := by simp [wrap]
    rw [hwrap, unwrap, if_pos (Or.inr (by simpa using hin))]
  rw [h.wrap_eq hname hin]
  rcases splitRetryPrefix_cases name with hplain | ⟨mark, bare, hmark, rfl, hsplit⟩
  · rw [hplain, String.empty_append, h.unwrap_plain]
  · rw [hsplit, h.unwrap_marked hmark]

/-- A namespaced name is a system name only where the namespace begins like one. -/
theorem isSystemResource_scope (ns t : String) :
    isSystemResource (scope ns ++ t) = true ↔
      hasPrefix ns "rmq_sys_" = true ∨ hasPrefix ns "CID_RMQ_SYS_" = true := by
  have hpercent : '%' ∈ (scope ns ++ t).toList := by simp [scope, separator]
  have htopics : (scope ns ++ t) ∉ systemTopics := by
    have hall : ∀ s ∈ systemTopics, '%' ∉ s.toList := by decide
    exact fun hmem => hall _ hmem hpercent
  have hpre : ∀ p : String, '%' ∉ p.toList →
      (hasPrefix (scope ns ++ t) p = true ↔ hasPrefix ns p = true) := by
    intro p hp
    have hlist : (scope ns ++ t).toList = ns.toList ++ '%' :: t.toList := by simp [scope, separator]
    simp only [hasPrefix, List.isPrefixOf_iff_prefix, hlist]
    refine ⟨fun hpre => ?_, fun hpre => hpre.trans (List.prefix_append _ _)⟩
    rcases List.prefix_or_prefix_of_prefix hpre (List.prefix_append ns.toList _) with hle | hle
    · exact hle
    · -- What of the prefix goes beyond the namespace would begin with a percent sign.
      obtain ⟨rest, hrest⟩ := hle
      rw [← hrest] at hpre hp ⊢
      cases rest with
      | nil => simp
      | cons c rest =>
        have hc := (List.prefix_append_right_inj _).mp hpre
        obtain rfl := (List.cons_prefix_cons.mp hc).1
        simp at hp
  rw [isSystemResource, Bool.or_eq_true, Bool.or_eq_true, List.contains_iff_mem,
    or_iff_right htopics, hpre "rmq_sys_" (by decide), hpre "CID_RMQ_SYS_" (by decide)]

/-- The namespace is what comes before the first percent sign. -/
theorem IsNamespace.takeWhile_scope (h : IsNamespace ns) (t : String) :
    (scope ns ++ t).toList.takeWhile (fun c => c ≠ '%') = ns.toList := by
  have hlist : (scope ns ++ t).toList = ns.toList ++ '%' :: t.toList := by simp [scope, separator]
  have hall : ∀ c ∈ ns.toList, decide (c ≠ '%') = true := by
    intro c hc
    refine decide_eq_true ?_
    rintro rfl
    exact h.plain hc
  rw [hlist, List.takeWhile_append_of_pos hall]
  simp

theorem IsNamespace.namespaceOf_plain (h : IsNamespace ns) (t : String) :
    namespaceOf (scope ns ++ t) =
      if isSystemResource (scope ns ++ t) = true then "" else ns := by
  have hne : scope ns ++ t ≠ "" := by simp [scope, separator]
  rw [namespaceOf]
  by_cases hsystem : isSystemResource (scope ns ++ t) = true
  · rw [if_pos (Or.inr hsystem), if_pos hsystem]
  · rw [if_neg (by simp [hne, hsystem]), if_neg hsystem, h.split_plain]
    simp only [h.takeWhile_scope]
    rw [if_pos (by simp [scope, separator]), String.ofList_toList]

theorem IsNamespace.namespaceOf_marked (h : IsNamespace ns) (hmark : IsMark mark) (t : String) :
    namespaceOf (mark ++ (scope ns ++ t)) = ns := by
  have hne : mark ++ (scope ns ++ t) ≠ "" := by simp [scope, separator]
  rw [namespaceOf, if_neg (by simp [hne, hmark.not_system]), splitRetryPrefix_mark hmark]
  simp only [h.takeWhile_scope]
  rw [if_pos (by simp [scope, separator]), String.ofList_toList]

/-- There is a name, and it has a mark, or the namespace does not begin like a system name. -/
def Scoped (ns name : String) : Prop :=
  name ≠ "" ∧ ((splitRetryPrefix name).1 = "" →
    hasPrefix ns "rmq_sys_" = false ∧ hasPrefix ns "CID_RMQ_SYS_" = false)

/-- **A wrapped name carries its namespace** exactly where it is scoped. -/
theorem namespaceOf_wrap_iff (hns : '%' ∉ ns.toList) (hin : inNamespace ns name = false) :
    namespaceOf (wrap ns name) = ns ↔ Scoped ns name := by
  have hempty : ns ≠ "" := by
    rintro rfl
    simp [inNamespace] at hin
  have h : IsNamespace ns := ⟨hns, hempty⟩
  by_cases hname : name = ""
  · subst hname
    have hwrap : namespaceOf (wrap ns "") = "" := by simp [wrap, namespaceOf]
    rw [hwrap]
    exact iff_of_false (Ne.symm hempty) fun hs => hs.1 rfl
  rw [h.wrap_eq hname hin, Scoped]
  rcases splitRetryPrefix_cases name with hplain | ⟨mark, bare, hmark, rfl, hsplit⟩
  · rw [hplain, String.empty_append, h.namespaceOf_plain]
    by_cases hsystem : isSystemResource (scope ns ++ name) = true
    · rw [if_pos hsystem]
      refine iff_of_false (Ne.symm hempty) fun hs => ?_
      obtain ⟨hlower, hgroup⟩ := hs.2 rfl
      rw [isSystemResource_scope, hlower, hgroup] at hsystem
      simp at hsystem
    · rw [if_neg hsystem]
      rw [isSystemResource_scope, not_or, Bool.not_eq_true, Bool.not_eq_true] at hsystem
      exact iff_of_true rfl ⟨hname, fun _ => hsystem⟩
  · rw [hsplit, h.namespaceOf_marked hmark]
    exact iff_of_true rfl ⟨hname, fun hnone => absurd hnone hmark.ne_empty⟩

/-- **A page acts on the name it was shown**: a shown name is wrapped into the name it was made from,
no two names are shown as one, and a bare name comes back and carries its namespace, each exactly
where the names are so. -/
theorem shown_names_act (hns : '%' ∉ ns.toList) :
    (∀ name, inNamespace ns name = true → (wrap ns (unwrap ns name) = name ↔ Returns ns name)) ∧
    (∀ a b, inNamespace ns a = true → inNamespace ns b = true → a ≠ b →
      (unwrap ns a ≠ unwrap ns b ↔ ¬ Shares ns a b ∧ ¬ Shares ns b a)) ∧
    ∀ name, inNamespace ns name = false → isSystemResource name = false →
      (unwrap ns (wrap ns name) = name ∧ namespaceOf (wrap ns name) = ns ↔ Scoped ns name) := by
  refine ⟨fun name hin => wrap_unwrap_iff hns hin, fun a b ha hb hne => ?_, fun name hin _ => ?_⟩
  · rw [ne_eq, unwrap_eq_iff hns ha hb, or_iff_right hne, not_or]
  · rw [and_iff_right (unwrap_wrap hns hin), namespaceOf_wrap_iff hns hin]

/-- A retry topic of a namespace comes back as itself. -/
theorem retry_topic_returns :
    '%' ∉ "ns".toList ∧ wrap "ns" (unwrap "ns" "%RETRY%ns%GID_a") = "%RETRY%ns%GID_a" := by
  have hns : '%' ∉ "ns".toList := by decide
  refine ⟨hns, ((shown_names_act hns).1 "%RETRY%ns%GID_a" (by decide)).mpr (Or.inr ?_)⟩
  intro _
  exact ⟨by decide, fun hnone => absurd hnone (by decide)⟩

/-- The characters of a topic or group name. -/
def isNameChar (c : Char) : Bool := c = '%' || c = '|' || c = '_' || c = '-' || c.isAlphanum

/-- A topic of the namespace is shown by the name of a system topic, and the page acts on that. -/
theorem system_name_hides_topic : ¬ ∀ ns : String, '%' ∉ ns.toList →
    (∀ name : String, name ≠ "" → name.toList.all isNameChar = true →
      inNamespace ns name = true → wrap ns (unwrap ns name) = name) ∧
    (∀ a b : String, a ≠ "" → a.toList.all isNameChar = true → b ≠ "" →
      b.toList.all isNameChar = true → inNamespace ns a = true → inNamespace ns b = true → a ≠ b →
      unwrap ns a ≠ unwrap ns b) ∧
    ∀ name : String, name ≠ "" → name.toList.all isNameChar = true →
      inNamespace ns name = false → isSystemResource name = false →
      unwrap ns (wrap ns name) = name ∧ namespaceOf (wrap ns name) = ns := by
  intro hall
  have hback := (hall "ns" (by decide)).1 "ns%TBW102" (by decide) (by decide)
    (by decide)
  exact absurd hback (by decide)

end MqStudio.Rocketmq
