import MqStudio.Model.Attributes
import MqStudio.Sqs.Queue

/-!
# What an edit of an SQS queue stores

The dialog sends every field, and the driver reads a zero and a blank as what is to be left alone.

* `Right`: the queue stores what the dialog holds, and nothing else of it has changed.
* `Kept`: no zero is asked for where another number is stored, no policy is asked to be taken away,
  and the policy that is shown leads to a queue of this account.
* `queue_edit_right_iff`: a saved edit is right exactly if it is kept.
-/

namespace MqStudio.Sqs.Queue

open Std (ExtTreeMap)
open Lib.JavaScript Lib.Maps Lib.Text
open Lib.Json hiding isSpace
open Model.Attributes (positive trimSpace_positive)

/-! ### Names -/

theorem mem_stem_or {name : String} {c : Char} (h : jsTrim name = name) (hc : c ∈ name.toList) :
    c ∈ stem name ∨ c ∈ fifoSuffix.toList := by
  unfold stem
  split
  · rename_i hfifo
    obtain ⟨before, hbefore⟩ : fifoSuffix.toList <:+ name.toList := by
      rw [isFifoName, h] at hfifo
      exact List.isSuffixOf_iff_suffix.mp hfifo
    have hlength : name.length - fifoSuffix.length = before.length := by
      rw [← String.length_toList, ← hbefore, List.length_append, String.length_toList]
      omega
    rw [hlength, ← hbefore, List.take_left]
    exact List.mem_append.mp (hbefore ▸ hc)
  · exact .inl hc

/-- Queue names have no white space and none of the characters that separate them. -/
theorem IsName.plain {name : String} (h : IsName name) {c : Char} (hc : c ∈ name.toList) :
    isNameChar c = true ∨ c = '.' := by
  have husable := h.usable
  simp only [nameProblem, h.trimmed] at husable
  split_ifs at husable with hempty hlong hstem hchars
  have hall : ∀ x ∈ stem name, isNameChar x = true := by simpa using hchars
  rcases mem_stem_or h.trimmed hc with hmem | hmem
  · exact .inl (hall c hmem)
  · have hsuffix : ∀ x ∈ fifoSuffix.toList, (isNameChar x || x == '.') = true :=
      List.all_eq_true.mp rfl
    simpa using hsuffix c hmem

theorem IsName.ne_empty {name : String} (h : IsName name) : name.toList ≠ [] := by
  intro hnil
  have husable := h.usable
  simp only [nameProblem, h.trimmed] at husable
  rw [if_pos (String.toList_eq_nil_iff.mp hnil)] at husable
  cases husable

theorem plain_bounds {c : Char} (h : isNameChar c = true ∨ c = '.') :
    45 ≤ c.toNat ∧ c.toNat ≤ 122 ∧ c ≠ '/' ∧ c ≠ ':' := by
  rcases h with h | rfl
  · simp only [isNameChar, Bool.or_eq_true, beq_iff_eq] at h
    rcases h with (h | rfl) | rfl
    · have hc := toNat_of_isAlphanum h
      refine ⟨by omega, by omega, ?_, ?_⟩
      · rintro rfl
        exact absurd h (by decide)
      · rintro rfl
        exact absurd h (by decide)
    · decide
    · decide
  · decide

theorem not_isSpace_of_plain {c : Char} (h : isNameChar c = true ∨ c = '.') :
    isSpace c = false := by
  have hc := plain_bounds h
  exact not_isSpace_of_prints (by omega)

theorem IsName.trimSpace_eq {name : String} (h : IsName name) : trimSpace name = name :=
  trimSpace_eq_self fun _ hc => not_isSpace_of_plain (h.plain hc)

theorem IsName.submittable {name : String} (h : IsName name) :
    submittableName name = some name := by
  rw [submittableName, h.usable, h.trimmed]

theorem IsName.isFifoName_eq {name : String} (h : IsName name) : isFifoName name = isFIFO name := by
  rw [isFifoName, h.trimmed, isFIFO]

/-- **A URL and an ARN end in the name.** -/
theorem IsName.queueNameOf_append {name : String} (h : IsName name) (start : String)
    {between : String} (hbetween : between = "/" ∨ between = ":") :
    queueNameOf (start ++ between ++ name) = name := by
  obtain ⟨sep, hsep, hlist⟩ : ∃ sep, (sep = '/' ∨ sep = ':') ∧ between.toList = [sep] := by
    rcases hbetween with rfl | rfl
    · exact ⟨'/', .inl rfl, rfl⟩
    · exact ⟨':', .inr rfl, rfl⟩
  have hspace : isSpace sep = false := by rcases hsep with rfl | rfl <;> decide
  obtain ⟨rest, hrest⟩ := trim_append_cons hspace start.toList
    fun c hc => not_isSpace_of_plain (h.plain hc)
  have hplain : ∀ c ∈ name.toList, c ≠ '/' ∧ c ≠ ':' := fun c hc => (plain_bounds (h.plain hc)).2.2
  have hkept : (rest ++ sep :: name.toList).rdropWhile (· == '/') = rest ++ sep :: name.toList := by
    rw [List.rdropWhile_eq_self_iff]
    intro hne
    have hlast : (rest ++ sep :: name.toList).getLast hne = name.toList.getLast h.ne_empty := by
      rw [List.getLast_append_of_ne_nil (by simp) (by simp), List.getLast_cons h.ne_empty]
    rw [hlast]
    simpa using (hplain _ (List.getLast_mem h.ne_empty)).1
  have hstop : (sep != '/' && sep != ':') = false := by rcases hsep with rfl | rfl <;> decide
  have htake := rtakeWhile_append_cons (p := fun c => c != '/' && c != ':') hstop rest
    (by simpa using hplain)
  rw [queueNameOf]
  simp only [trimSpace, String.toList_append, hlist, List.append_assoc,
    List.singleton_append, String.toList_ofList, hrest, hkept, htake, String.ofList_toList]

/-! ### Numbers -/

/-- The whole number, where it is finite. -/
def valueOf : Whole → Option Int
  | .finite n _ _ => some n
  | .infinity _ => none

theorem mem_of_signedValue {cs : List Char} {m : Int} (h : Lib.Strconv.signedValue cs = some m)
    {c : Char} (hc : c ∈ cs) : c = '-' ∨ c = '+' ∨ c.isDigit := by
  have hdigits {ds : List Char} (hsome : (Lib.Strconv.digitsValue ds).isSome) :
      ∀ d ∈ ds, d.isDigit := by
    unfold Lib.Strconv.digitsValue at hsome
    split_ifs at hsome with hall
    · simp only [isDigits, Bool.and_eq_true, List.all_eq_true] at hall
      exact hall.2
    · cases hsome
  unfold Lib.Strconv.signedValue at h
  split at h
  · rename_i ds
    obtain ⟨v, hv, -⟩ := Option.map_eq_some_iff.mp h
    exact (List.mem_cons.mp hc).imp_right fun hmem => .inr (hdigits (by simp [hv]) c hmem)
  · rename_i ds
    exact .inr ((List.mem_cons.mp hc).imp_right fun hmem => hdigits (by simp [h]) c hmem)
  · exact .inr (.inr (hdigits (by simp [h]) c hc))

/-- **What Go reads** of a natural number is a natural number that rounds to it. -/
theorem goInt_spec {w : Whole} {m : Int} {n : ℕ} (h : goInt w = some m)
    (hw : valueOf w = some (n : Int)) : ∃ k : ℕ, m = k ∧ round k = n := by
  cases w with
  | infinity negative => cases hw
  | finite v exact bounded =>
    obtain rfl : v = n := Option.some.inj hw
    obtain ⟨hread, -⟩ := Option.filter_eq_some_iff.mp h
    by_cases hplain : (Whole.finite n exact bounded).Plain
    · -- a plain number is printed in digits
      have hlt : (n : Int).natAbs < 10 ^ 21 := hplain
      have hround := round_shortest exact ((Nat.toDigits 10 (n : Int).natAbs).length - 1)
      refine ⟨(decimal (n : Int).natAbs).1 * 10 ^ (decimal (n : Int).natAbs).2, ?_, hround⟩
      rw [Whole.text, if_neg (by omega), List.nil_append, String.toList_ofList, digitsOf,
        if_pos hlt, Lib.Strconv.signedValue_toDigits] at hread
      exact (Option.some.inj hread).symm
    · -- another one has a letter
      exfalso
      rcases mem_text_of_not_plain hplain with hmem | hmem
      · rcases mem_of_signedValue hread hmem with hc | hc | hc <;> exact absurd hc (by decide)
      · rcases mem_of_signedValue hread hmem with hc | hc | hc <;> exact absurd hc (by decide)

theorem goInt_of_small {w : Whole} {k n : ℕ} (h : goInt w = some (k : Int))
    (hw : valueOf w = some (n : Int)) (hk : k ≤ 2 ^ 53) : k = n := by
  obtain ⟨k', hk', hround⟩ := goInt_spec h hw
  obtain rfl : k = k' := by exact_mod_cast hk'
  rw [← hround]
  simpa using (round_eq_self (e := 0) hk).symm

/-! ### What is sent -/

variable {q : QueueSpec} {given : Attributes}

theorem getElem?_setPositive (m : Attributes) (key a : String) (n : Int) :
    (setPositive m key n)[a]? = if 0 < n ∧ key = a then some (toString n) else m[a]? := by
  unfold setPositive
  split_ifs with h1 h2 h2
  · rw [getElem?_insert, if_pos h2.2]
  · rw [getElem?_insert, if_neg fun h => h2 ⟨h1, h⟩]
  · exact absurd h2.1 h1
  · rfl

theorem getElem?_ite (p : Prop) [Decidable p] (m m' : Attributes) (a : String) :
    (if p then m else m')[a]? = if p then m[a]? else m'[a]? := by
  split_ifs <;> rfl

attribute [simp] AttrURL AttrARN AttrFIFO AttrVisible AttrInFlight AttrDelayed AttrCreatedAt
  AttrModifiedAt AttrDeadLetterQueue AttrMaxReceiveCount AttrEncrypted AttrContentDedup
  AttrDedupScope AttrThroughputLimit Setting.key

theorem getElem?_spec_number (s : Setting) :
    q.spec.attributes[s.key]? = positive (q.numbers s) := by
  cases s <;> simp [QueueSpec.spec, positive, getElem?_ite, getElem?_setPositive, getElem?_insert]

theorem getElem?_spec_deadLetterQueue : q.spec.attributes[AttrDeadLetterQueue]? =
    if trimSpace q.deadLetterQueue ≠ "" then some (trimSpace q.deadLetterQueue) else none := by
  simp [QueueSpec.spec, getElem?_ite, getElem?_setPositive, getElem?_insert]

theorem getElem?_spec_maxReceiveCount : q.spec.attributes[AttrMaxReceiveCount]? =
    if trimSpace q.deadLetterQueue ≠ "" then positive q.maxReceiveCount else none := by
  simp [QueueSpec.spec, positive, getElem?_ite, getElem?_setPositive, getElem?_insert]

theorem getElem?_spec_deduplication : q.spec.attributes[AttrContentDedup]? =
    if q.fifo then some (boolAttr q.contentBasedDeduplication) else none := by
  simp only [QueueSpec.spec, getElem?_ite, getElem?_setPositive, getElem?_insert]
  simp

theorem getElem?_spec_scope (h : q.deduplicationScope = "") :
    q.spec.attributes[AttrDedupScope]? = none := by
  simp [QueueSpec.spec, h, getElem?_ite, getElem?_setPositive, getElem?_insert]

theorem getElem?_spec_throughput (h : q.fifoThroughputLimit = "") :
    q.spec.attributes[AttrThroughputLimit]? = none := by
  simp [QueueSpec.spec, h, getElem?_ite, getElem?_setPositive, getElem?_insert]

/-- What a specification says under one key, trimmed and not blank. -/
def saidOf (given : Attributes) (key : String) : Option String :=
  ((given[key]?).map trimSpace).filter (· ≠ "")

theorem settingsOf_step (name : String) (m : Attributes) (a key : String) :
    (match given[key]? with
      | some v => if trimSpace v ≠ "" then m.insert a (trimSpace v) else m
      | none => m)[name]? =
      if a = name then (saidOf given key).or m[name]? else m[name]? := by
  unfold saidOf
  cases given[key]? with
  | none => simp
  | some v =>
    by_cases hv : trimSpace v = ""
    · simp [hv, Option.filter_some]
    · simp [hv, getElem?_insert, Option.filter_some]

/-- Each setting is sent under its name, where the specification says something. -/
theorem getElem?_settingsOf {name key : String} (h : (name, key) ∈ settableAttributes) :
    (Session.settingsOf given)[name]? = saidOf given key := by
  have hnodup : (settableAttributes.map (·.1)).Nodup := by decide
  have hfold := @get_foldl_of_mem String String Attributes _ _ (fun m => m[name]?) _ name
    (fun key old => (saidOf given key).or old) (settingsOf_step name) _ hnodup key h ∅
  refine hfold.trans ?_
  simp

theorem getElem?_settingsOf_of_notMem {name : String}
    (h : ∀ e ∈ settableAttributes, e.1 ≠ name) : (Session.settingsOf given)[name]? = none := by
  have hfold := @get_foldl_of_not_mem String String Attributes _ _ (fun m => m[name]?) _ name
    (fun key old => (saidOf given key).or old) (settingsOf_step name) _ h ∅
  refine hfold.trans ?_
  simp

theorem sent_number (s : Setting) :
    (Session.settingsOf q.spec.attributes)[s.apiName]? = positive (q.numbers s) := by
  have hmem : (s.apiName, s.key) ∈ settableAttributes := by cases s <;> decide
  rw [getElem?_settingsOf hmem, saidOf, getElem?_spec_number, trimSpace_positive]

theorem sent_deduplication : (Session.settingsOf q.spec.attributes)["ContentBasedDeduplication"]? =
    if q.fifo then some (boolAttr q.contentBasedDeduplication) else none := by
  have hmem : ("ContentBasedDeduplication", AttrContentDedup) ∈ settableAttributes := by decide
  rw [getElem?_settingsOf hmem, saidOf, getElem?_spec_deduplication]
  have hbool (b : Bool) :
      ((some (boolAttr b)).map trimSpace).filter (· ≠ "") = some (boolAttr b) := by
    cases b <;> decide
  split_ifs
  · exact hbool _
  · rfl

/-- Only what the dialog draws is sent. -/
theorem sent_other {name : String} (hscope : q.deduplicationScope = "")
    (hlimit : q.fifoThroughputLimit = "") (hnumber : ∀ s : Setting, name ≠ s.apiName)
    (hdedup : name ≠ "ContentBasedDeduplication") :
    (Session.settingsOf q.spec.attributes)[name]? = none := by
  by_cases h1 : name = "DeduplicationScope"
  · subst h1
    have hmem : ("DeduplicationScope", AttrDedupScope) ∈ settableAttributes := by decide
    rw [getElem?_settingsOf hmem, saidOf, getElem?_spec_scope hscope]
    rfl
  · by_cases h2 : name = "FifoThroughputLimit"
    · subst h2
      have hmem : ("FifoThroughputLimit", AttrThroughputLimit) ∈ settableAttributes := by decide
      rw [getElem?_settingsOf hmem, saidOf, getElem?_spec_throughput hlimit]
      rfl
    · refine getElem?_settingsOf_of_notMem fun e he heq => ?_
      have hcases : ∀ e ∈ settableAttributes, (∃ s : Setting, e.1 = s.apiName) ∨
          e.1 = "ContentBasedDeduplication" ∨ e.1 = "DeduplicationScope" ∨
          e.1 = "FifoThroughputLimit" := by
        simp only [settableAttributes, List.forall_mem_cons]
        exact ⟨.inl ⟨.visibilityTimeout, rfl⟩, .inl ⟨.delay, rfl⟩, .inl ⟨.retention, rfl⟩,
          .inl ⟨.maxMessageBytes, rfl⟩, .inl ⟨.receiveWait, rfl⟩, by simp⟩
      rcases hcases e he with ⟨s, hs⟩ | h | h | h
      · exact hnumber s (heq.symm.trans hs)
      · exact hdedup (heq.symm.trans h)
      · exact h1 (heq.symm.trans h)
      · exact h2 (heq.symm.trans h)

/-! ### The policy that is sent -/

def policyText (arn maxReceives : String) : String :=
  marshal (encodeStruct RedrivePolicy.members ⟨arn, some (.string maxReceives)⟩)

/-- The limit that is sent. -/
def QueueSpec.maxReceives (q : QueueSpec) : String := (positive q.maxReceiveCount).getD "5"

theorem trimSpace_ne_empty {s : String} {c : Char} (hc : c ∈ s.toList) (h : isSpace c = false) :
    trimSpace s ≠ "" := by
  intro hblank
  have hnil : trim isSpace s.toList = [] := by
    simpa [trimSpace] using congrArg String.toList hblank
  have hdrop := List.rdropWhile_eq_nil_iff.mp hnil
  by_cases hall : ∀ x ∈ s.toList, isSpace x = true
  · exact absurd (hall c hc) (by simp [h])
  · have hne : s.toList.dropWhile isSpace ≠ [] := fun hd => hall (List.dropWhile_eq_nil_iff.mp hd)
    obtain ⟨d, ds, hcons⟩ := List.exists_cons_of_ne_nil hne
    have hhead := List.head?_dropWhile_not isSpace s.toList
    rw [hcons] at hhead hdrop
    simp [hdrop d List.mem_cons_self] at hhead

/-- **A policy that is sent reads back.** -/
theorem policyOf_policyText {arn : String} (h : arn ≠ "") (maxReceives : String) :
    policyOf (policyText arn maxReceives) = some (arn, maxReceives) := by
  have hnodup : (RedrivePolicy.members.map Member.name).Nodup := by decide
  have hblank : trimSpace (policyText arn maxReceives) ≠ "" := by
    refine trimSpace_ne_empty (c := '{') ?_ (by decide)
    rw [policyText, marshal, encodeStruct, layOut, String.toList_ofList]
    split
    · exact List.mem_cons_self
    · exact List.mem_cons_self
  rw [policyOf, if_neg hblank, policyText, parse_marshal]
  simp only [decodeStruct_encodeStruct hnodup]
  simp [RedrivePolicy.members, decodeAll, Member.reread, Member.of, decodeString, h, looseNumber]

/-! ### What the service is asked -/

section Service

variable {c : Session} {url : String} {sent : Attributes}

theorem Account.urlOf_injective {a : Account} {m n : String} (h : a.urlOf m = a.urlOf n) : m = n :=
  append_left_cancel h

theorem queueURL_ok {name : String} (h : c.conn.queueURL name = .ok url) :
    url = c.account.urlOf (trimSpace name) := by
  unfold Conn.queueURL at h
  dsimp only at h
  split_ifs at h with hblank
  cases hcached : c.conn.urls[trimSpace name]? with
  | some cached =>
    rw [hcached] at h
    obtain rfl : cached = url := Except.ok.inj h
    exact c.remembered _ _ hcached
  | none =>
    rw [hcached, c.answers, Account.getQueueUrl] at h
    cases hrefuse : c.account.refuse (.getQueueUrl (trimSpace name)) with
    | some err =>
      simp only [hrefuse] at h
      split at h <;> cases h
    | none =>
      simp only [hrefuse] at h
      split_ifs at h with hthere
      · exact (Except.ok.inj h).symm
      · simp only [Account.notThere] at h
        cases h

theorem getQueueAttributes_ok {attributes : Attributes}
    (h : c.account.getQueueAttributes url = .ok attributes) :
    c.account.queues[url]? = some attributes := by
  unfold Account.getQueueAttributes at h
  split at h
  · cases h
  · cases h
  · rename_i hthere
    rw [hthere, Except.ok.inj h]

theorem queueARN_ok {name arn : String} (h : c.queueARN name = .ok arn) :
    IsName (trimSpace name) ∧ arn = c.account.arnOf (trimSpace name) := by
  unfold Session.queueARN at h
  cases hurl : c.conn.queueURL name with
  | error err => rw [hurl] at h; cases h
  | ok url =>
    rw [hurl] at h
    cases hget : c.account.getQueueAttributes url with
    | error err => simp only [hget] at h; cases h
    | ok attributes =>
      simp only [hget] at h
      split_ifs at h with hblank
      obtain ⟨name', hname, hurl', hstored⟩ := c.account.stored _ _ (getQueueAttributes_ok hget)
      obtain rfl : trimSpace name = name' :=
        Account.urlOf_injective ((queueURL_ok hurl).symm.trans hurl')
      refine ⟨hname, ?_⟩
      rw [← Except.ok.inj h, attr, hstored.arn]
      rfl

theorem arnOf_ne_empty (name : String) : c.account.arnOf name ≠ "" := by
  intro h
  have hlist := congrArg String.toList h
  simp [Account.arnOf] at hlist

/-- What is sent: the settings, and the policy where a dead-letter queue is named. -/
theorem attributesOf_ok (h : c.attributesOf q.spec = .ok sent) :
    (trimSpace q.deadLetterQueue = "" ∧ sent = Session.settingsOf q.spec.attributes) ∨
      (trimSpace q.deadLetterQueue ≠ "" ∧ IsName (trimSpace q.deadLetterQueue) ∧
        sent = (Session.settingsOf q.spec.attributes).insert "RedrivePolicy"
          (policyText (c.account.arnOf (trimSpace q.deadLetterQueue)) q.maxReceives)) := by
  have htarget : trimSpace (attr q.spec.attributes AttrDeadLetterQueue) =
      trimSpace q.deadLetterQueue := by
    rw [attr, getElem?_spec_deadLetterQueue]
    split_ifs with hblank
    · exact trimSpace_trimSpace _
    · rw [not_not.mp hblank]
      rfl
  unfold Session.attributesOf at h
  simp only [htarget] at h
  by_cases hblank : trimSpace q.deadLetterQueue = ""
  · rw [if_pos hblank] at h
    exact .inl ⟨hblank, (Except.ok.inj h).symm⟩
  · rw [if_neg hblank] at h
    have hlimit : (if trimSpace (attr q.spec.attributes AttrMaxReceiveCount) = "" then "5"
        else trimSpace (attr q.spec.attributes AttrMaxReceiveCount)) = q.maxReceives := by
      have htrim := trimSpace_positive q.maxReceiveCount
      rw [attr, getElem?_spec_maxReceiveCount, if_pos hblank, QueueSpec.maxReceives]
      cases hlimit : positive q.maxReceiveCount with
      | none => rfl
      | some limit =>
        rw [hlimit, Option.map_some, Option.filter_some] at htrim
        split_ifs at htrim with hne
        rw [Option.getD_some, Option.some.inj htrim, if_neg, Option.getD_some]
        rw [← Option.some.inj htrim]
        simpa using hne
    cases harn : c.queueARN (trimSpace q.deadLetterQueue) with
    | error err => rw [harn] at h; cases h
    | ok arn =>
      rw [harn] at h
      simp only [hlimit] at h
      obtain ⟨hname, rfl⟩ := queueARN_ok harn
      rw [trimSpace_trimSpace] at hname h
      split at h
      · cases h
      · exact .inr ⟨hblank, hname, (Except.ok.inj h).symm⟩

theorem updateDestination_ok {spec : DestinationSpec}
    {after : ExtTreeMap String Attributes compare} (h : c.updateDestination spec = .ok after) :
    ∃ sent attributes, c.attributesOf spec = .ok sent ∧ accepts sent = true ∧
      c.account.queues[c.account.urlOf (trimSpace spec.name)]? = some attributes ∧
      after = c.account.queues.insert (c.account.urlOf (trimSpace spec.name))
        (attributes ∪ sent) := by
  unfold Session.updateDestination at h
  split at h
  · cases h
  · split at h
    · cases h
    · rename_i url hurl
      split at h
      · cases h
      · split at h
        · cases h
        · rename_i sent hsent
          split at h
          · cases h
          · obtain rfl := queueURL_ok hurl
            unfold Account.setQueueAttributes at h
            split at h
            · cases h
            · cases h
            · rename_i attributes hrefuse hthere
              split_ifs at h with haccepts
              · exact ⟨sent, attributes, hsent, haccepts, hthere, (Except.ok.inj h).symm⟩
              · cases h

end Service

/-! ### What the dialog is opened with -/

section Opened

variable {url name arn : String} {a : Attributes}

theorem getElem?_destinationOf_number (s : Setting) :
    (destinationOf url a).attributes[s.key]? = some (attr a s.apiName) := by
  cases s <;> cases hredrive : redriveOf (attr a "RedrivePolicy") <;>
    simp only [destinationOf, hredrive, List.foldl_cons, List.foldl_nil, getElem?_ite,
      getElem?_insert] <;>
    simp [Setting.apiName]

theorem getElem?_destinationOf_redrive :
    (destinationOf url a).attributes[AttrDeadLetterQueue]? =
        (redriveOf (attr a "RedrivePolicy")).map (·.1) ∧
      (destinationOf url a).attributes[AttrMaxReceiveCount]? =
        (redriveOf (attr a "RedrivePolicy")).map (·.2) := by
  cases hredrive : redriveOf (attr a "RedrivePolicy") <;>
    simp only [destinationOf, hredrive, List.foldl_cons, List.foldl_nil, getElem?_ite,
      getElem?_insert] <;>
    simp

theorem getElem?_destinationOf_deduplication :
    (destinationOf url a).attributes[AttrContentDedup]? =
      if attr a "ContentBasedDeduplication" ≠ "" then some (attr a "ContentBasedDeduplication")
      else none := by
  cases hredrive : redriveOf (attr a "RedrivePolicy") <;>
    simp only [destinationOf, hredrive, List.foldl_cons, List.foldl_nil, getElem?_ite,
      getElem?_insert] <;>
    simp

/-- What the dialog holds when it is opened. -/
def opened (url : String) (a : Attributes) : Draft := draftOf (queue (destinationOf url a))

theorem toString_natCast (n : ℕ) : toString (n : Int) = toString n := by
  apply String.toList_injective
  rw [Lib.Strconv.toList_toString_nat]
  exact (Nat.toList_repr (n := n)).symm

theorem toString_ne_empty (n : ℕ) : toString n ≠ "" := by
  intro h
  have hlist : Nat.toDigits 10 n = [] := by
    rw [← Nat.toList_repr]
    exact congrArg String.toList h
  exact Nat.toDigits_ne_nil hlist

theorem digitsNumber_toString {n : ℕ} (h : n ≤ 2 ^ 53) :
    digitsNumber (toString n) = some (.small n h) := by
  have hlist : (toString n).toList = Nat.toDigits 10 n := Nat.toList_repr
  have hround : round n = n := by simpa using round_eq_self (e := 0) h
  rw [digitsNumber, hlist, if_pos (List.all_eq_true.mpr (digits_toDigits n)),
    Nat.ofDigitChars_ten_toDigits, ofSigned, dif_pos (by rw [hround]; exact lt_overflow h)]
  simp [withSign, hround, Whole.small]

theorem Setting.Allows.le {s : Setting} {n : ℕ} (h : s.Allows n) : n ≤ 2 ^ 53 := by
  have hrange : s.range.2 ≤ 2 ^ 53 := by cases s <;> decide
  exact h.2.trans hrange

theorem opened_numbers_eq {s : Setting} {n : ℕ} (hn : a[s.apiName]? = some (toString n))
    (h : n ≤ 2 ^ 53) : (opened url a).numbers s = .small n h := by
  have hnumber : number (destinationOf url a) s.key = some (.small n h) := by
    rw [number, text, getElem?_destinationOf_number, attr, hn, Option.getD_some,
      Option.filter_some, if_pos (by simp), Option.bind_some, digitsNumber_toString h]
  show (number (destinationOf url a) s.key).getD s.fallback = _
  rw [hnumber, Option.getD_some]

/-- **The dialog opens with the stored numbers.** -/
theorem opened_number (url : String) (h : Stored name arn a) (s : Setting) : ∃ n : ℕ,
    a[s.apiName]? = some (toString n) ∧ s.Allows n ∧
      valueOf ((opened url a).numbers s) = some (n : Int) := by
  obtain ⟨n, hn, hallows⟩ := h.number s
  refine ⟨n, hn, hallows, ?_⟩
  rw [opened_numbers_eq hn hallows.le]
  rfl

/-- The policy of a queue: the ARN it names, and the limit. -/
def redrivePolicy (a : Attributes) : Option (String × String) :=
  (a["RedrivePolicy"]?).bind policyOf

/-- **The dialog opens with the name at the end of the stored ARN**, and its limit. -/
theorem opened_redrive (url : String) (h : Stored name arn a) :
    (a["RedrivePolicy"]? = none ∧ (opened url a).deadLetterQueue = "") ∨
      ∃ (account target : String) (limit : ℕ), IsName target ∧ 1 ≤ limit ∧ limit ≤ 1000 ∧
        redrivePolicy a = some (account ++ ":" ++ target, toString limit) ∧
        (opened url a).deadLetterQueue = target ∧
        valueOf (opened url a).maxReceiveCount = some (limit : Int) := by
  have htext : (opened url a).deadLetterQueue =
      (text (destinationOf url a) AttrDeadLetterQueue).getD "" := rfl
  cases hraw : a["RedrivePolicy"]? with
  | none =>
    refine .inl ⟨rfl, ?_⟩
    rw [htext, text, getElem?_destinationOf_redrive.1, attr, hraw]
    rfl
  | some raw =>
    obtain ⟨account, target, limit, htarget, hpos, hle, hpolicy⟩ := h.redrive raw hraw
    have hredrive : redriveOf (attr a "RedrivePolicy") = some (target, toString limit) := by
      rw [attr, hraw, Option.getD_some, redriveOf, hpolicy, Option.map_some]
      exact congrArg (fun t => some (t, toString limit))
        (htarget.queueNameOf_append account (.inr rfl))
    have hne : target ≠ "" := fun h => htarget.ne_empty (by rw [h]; rfl)
    have hsmall : limit ≤ 2 ^ 53 := by omega
    refine .inr ⟨account, target, limit, htarget, hpos, hle, ?_, ?_, ?_⟩
    · rw [redrivePolicy, hraw, Option.bind_some, hpolicy]
    · rw [htext, text, getElem?_destinationOf_redrive.1, hredrive, Option.map_some,
        Option.filter_some, if_pos (by simpa using hne)]
      rfl
    · show valueOf ((number (destinationOf url a) AttrMaxReceiveCount).getD _) = _
      rw [number, text, getElem?_destinationOf_redrive.2, hredrive, Option.map_some,
        Option.filter_some, if_pos (by simp), Option.bind_some,
        digitsNumber_toString hsmall]
      rfl

theorem opened_deduplication {b : Bool}
    (h : a["ContentBasedDeduplication"]? = some (boolAttr b)) :
    (opened url a).contentBasedDeduplication = b := by
  show (flag (destinationOf url a) AttrContentDedup).getD false = b
  rw [flag, text, getElem?_destinationOf_deduplication, attr, h]
  cases b <;> decide

/-! ### What can be done in the dialog -/

/-- What the dialog holds after some edits. -/
def held (url : String) (a : Attributes) (edits : List Edit) : Draft :=
  edits.foldl Draft.edit (opened url a)

theorem name_edits (edits : List Edit) (draft : Draft) :
    (edits.foldl Draft.edit draft).name = draft.name := by
  induction edits generalizing draft with
  | nil => rfl
  | cons edit rest ih =>
    rw [List.foldl_cons, ih]
    cases edit <;> rfl

theorem name_held (h : IsName name) (endpoint : String) (edits : List Edit) :
    (held (endpoint ++ "/" ++ name) a edits).name = name := by
  rw [held, name_edits]
  show queueNameOf (endpoint ++ "/" ++ name) = name
  exact h.queueNameOf_append endpoint (.inl rfl)

end Opened

/-! ### A saved edit -/

section Saved

variable {c : Session} {draft : Draft} {sent a : Attributes}
  {after : ExtTreeMap String Attributes compare}

/-- What a saved draft was sent as. -/
structure Sends (c : Session) (draft : Draft) (q : QueueSpec) (sent : Attributes) : Prop where
  number : ∀ s, goInt (draft.numbers s) = some (q.numbers s)
  maxReceiveCount : goInt draft.maxReceiveCount = some q.maxReceiveCount
  fifo : q.fifo = isFIFO draft.name
  deadLetterQueue : q.deadLetterQueue = jsTrim draft.deadLetterQueue
  deduplication : q.contentBasedDeduplication = draft.contentBasedDeduplication
  scope : q.deduplicationScope = ""
  throughput : q.fifoThroughputLimit = ""
  attributes : c.attributesOf q.spec = .ok sent
  accepted : accepts sent = true

theorem name_spec (q : QueueSpec) : q.spec.name = trimSpace q.name := by
  unfold QueueSpec.spec
  rfl

theorem save_ok (hname : IsName draft.name) (h : c.save draft = .ok after) :
    ∃ q sent stored, Sends c draft q sent ∧
      c.account.queues[c.account.urlOf draft.name]? = some stored ∧
      after = c.account.queues.insert (c.account.urlOf draft.name) (stored ∪ sent) := by
  unfold Session.save at h
  rw [submit, hname.submittable, Option.map_some] at h
  simp only [SQSQueueInput.spec] at h
  split at h
  · cases h
  · rename_i q hq
    split_ifs at hq with hall
    obtain ⟨maxReceiveCount, hmax, hspec⟩ := Option.map_eq_some_iff.mp hq
    have hname' : q.name = draft.name := by rw [← hspec]
    have hnumber (s : Setting) : goInt (draft.numbers s) = some (q.numbers s) := by
      obtain ⟨n, hn⟩ := Option.isSome_iff_exists.mp
        (List.all_eq_true.mp hall s (Setting.mem_all s))
      rw [← hspec]
      simp only [hn, Option.getD_some]
    obtain ⟨sent, stored, hsent, haccepted, hstored, hafter⟩ := updateDestination_ok h
    rw [name_spec, trimSpace_trimSpace, hname', hname.trimSpace_eq] at hstored hafter
    have hmax' : goInt draft.maxReceiveCount = some q.maxReceiveCount := by rw [hmax, ← hspec]
    have hfifo : q.fifo = isFIFO draft.name := by rw [← hspec, ← hname.isFifoName_eq]
    have htarget : q.deadLetterQueue = jsTrim draft.deadLetterQueue := by rw [← hspec]
    have hdedup : q.contentBasedDeduplication = draft.contentBasedDeduplication := by rw [← hspec]
    have hscope : q.deduplicationScope = "" := by rw [← hspec]
    have hthroughput : q.fifoThroughputLimit = "" := by rw [← hspec]
    exact ⟨q, sent, stored, ⟨hnumber, hmax', hfifo, htarget, hdedup, hscope, hthroughput, hsent,
      haccepted⟩, hstored, hafter⟩

variable {q : QueueSpec}

theorem Sends.of_ne (h : Sends c draft q sent) {name : String} (hne : name ≠ "RedrivePolicy") :
    sent[name]? = (Session.settingsOf q.spec.attributes)[name]? := by
  rcases attributesOf_ok h.attributes with ⟨-, rfl⟩ | ⟨-, -, rfl⟩
  · rfl
  · rw [getElem?_insert, if_neg hne.symm]

theorem Sends.sent_number (h : Sends c draft q sent) (s : Setting) :
    sent[s.apiName]? = positive (q.numbers s) := by
  rw [h.of_ne (by cases s <;> decide), Queue.sent_number]

theorem Sends.sent_deduplication (h : Sends c draft q sent) : sent["ContentBasedDeduplication"]? =
    if isFIFO draft.name then some (boolAttr draft.contentBasedDeduplication) else none := by
  rw [h.of_ne (by decide), Queue.sent_deduplication, h.fifo, h.deduplication]

/-- The attributes that the dialog draws for a queue. -/
def Drawn (name key : String) : Prop :=
  (∃ s : Setting, key = s.apiName) ∨ key = "RedrivePolicy" ∨
    (key = "ContentBasedDeduplication" ∧ isFIFO name = true)

theorem Sends.sent_other (h : Sends c draft q sent) {key : String} (hkey : ¬Drawn draft.name key) :
    sent[key]? = none := by
  simp only [Drawn, not_or, not_exists, not_and] at hkey
  rw [h.of_ne hkey.2.1]
  by_cases hdedup : key = "ContentBasedDeduplication"
  · subst hdedup
    rw [Queue.sent_deduplication, h.fifo, if_neg (hkey.2.2 rfl)]
  · exact Queue.sent_other h.scope h.throughput hkey.1 hdedup

/-- The queue that the dialog names. -/
def Draft.target (draft : Draft) : String := trimSpace (jsTrim draft.deadLetterQueue)

theorem Sends.sent_redrive (h : Sends c draft q sent) :
    (draft.target = "" ∧ sent["RedrivePolicy"]? = none) ∨
      (draft.target ≠ "" ∧ IsName draft.target ∧
        redrivePolicy sent = some (c.account.arnOf draft.target, q.maxReceives)) := by
  have hnone : (Session.settingsOf q.spec.attributes)["RedrivePolicy"]? = none :=
    Queue.sent_other h.scope h.throughput (by intro s; cases s <;> decide) (by decide)
  have htarget : trimSpace q.deadLetterQueue = draft.target := by
    rw [h.deadLetterQueue, Draft.target]
  rcases attributesOf_ok h.attributes with ⟨hblank, rfl⟩ | ⟨hblank, hname, rfl⟩
  · exact .inl ⟨htarget ▸ hblank, hnone⟩
  · rw [htarget] at hblank hname
    refine .inr ⟨hblank, hname, ?_⟩
    rw [redrivePolicy, getElem?_insert, if_pos rfl, Option.bind_some, htarget,
      policyOf_policyText (arnOf_ne_empty _)]

theorem parseInt_toString_eq {k : ℕ} {v : Int}
    (h : Lib.Strconv.parseInt 64 (toString (k : Int)).toList = some v) : v = k := by
  rw [Lib.Strconv.parseInt, Lib.Strconv.toList_toString_nat, Lib.Strconv.signedValue_toDigits] at h
  exact (Option.some.inj (Option.filter_eq_some_iff.mp h).1).symm

/-- A number that is sent and taken is allowed. -/
theorem Sends.allows (h : Sends c draft q sent) {s : Setting} {k : ℕ} (hk : q.numbers s = k)
    (hpos : 0 < k) : s.Allows k := by
  have hsent : sent[s.apiName]? = some (toString (k : Int)) := by
    rw [h.sent_number, positive, hk, if_pos (by exact_mod_cast hpos)]
  have haccepted := h.accepted
  rw [accepts, Bool.and_eq_true] at haccepted
  have hs := List.all_eq_true.mp haccepted.1 s (Setting.mem_all s)
  simp only [hsent] at hs
  split at hs
  · rename_i v hv
    obtain rfl := parseInt_toString_eq hv
    simpa using hs
  · cases hs

/-- A limit that is sent and taken is at most a thousand. -/
theorem Sends.limit_le (h : Sends c draft q sent) (hne : draft.target ≠ "") {k : ℕ}
    (hk : q.maxReceiveCount = k) (hpos : 0 < k) : k ≤ 1000 := by
  rcases h.sent_redrive with ⟨hblank, -⟩ | ⟨-, -, hpolicy⟩
  · exact absurd hblank hne
  · obtain ⟨raw, hraw, hread⟩ := Option.bind_eq_some_iff.mp hpolicy
    have haccepted := h.accepted
    have hlimit : q.maxReceives = toString (k : Int) := by
      rw [QueueSpec.maxReceives, positive, hk, if_pos (by exact_mod_cast hpos), Option.getD_some]
    rw [accepts, Bool.and_eq_true, hraw] at haccepted
    have hs := haccepted.2
    simp only [hread, Option.bind_some, hlimit] at hs
    split at hs
    · rename_i v hv
      obtain rfl := parseInt_toString_eq hv
      simp only [decide_eq_true_eq] at hs
      omega
    · cases hs

end Saved

/-! ### Right edits -/

/-- **The queue stores what the dialog holds.**  A name that is as it was shown means the queue that
was shown; a draft that is as it was opened changes nothing. -/
structure Right (url : String) (stored : Attributes) (draft : Draft) (after : Attributes) :
    Prop where
  number : ∀ (s : Setting) (n : ℕ), valueOf (draft.numbers s) = some (n : Int) → s.Allows n →
    after[s.apiName]? = some (toString n)
  redrive : draft.target ≠ "" → ∃ (arn : String) (limit : ℕ),
    redrivePolicy after = some (arn, toString limit) ∧ queueNameOf arn = draft.target ∧
      valueOf draft.maxReceiveCount = some (limit : Int)
  shown : draft.deadLetterQueue = (opened url stored).deadLetterQueue →
    (redrivePolicy after).map (·.1) = (redrivePolicy stored).map (·.1)
  cleared : draft.target = "" → after["RedrivePolicy"]? = none
  deduplication : isFIFO draft.name = true →
    after["ContentBasedDeduplication"]? = some (boolAttr draft.contentBasedDeduplication)
  others : ∀ key, ¬Drawn draft.name key → after[key]? = stored[key]?
  untouched : draft = opened url stored →
    (∀ key, key ≠ "RedrivePolicy" → after[key]? = stored[key]?) ∧
      redrivePolicy after = redrivePolicy stored

/-- What the dialog holds can be told from what is to be left alone: a zero that is allowed is
stored already, no policy is to be taken away, a policy has a limit, and the queue that is shown is
the one of this account. -/
structure Kept (c : Session) (url : String) (stored : Attributes) (draft : Draft) : Prop where
  zero : ∀ s : Setting, s.Allows 0 → valueOf (draft.numbers s) = some 0 →
    stored[s.apiName]? = some "0"
  cleared : draft.target = "" → stored["RedrivePolicy"]? = none
  limit : draft.target ≠ "" → ∃ n : ℕ, 0 < n ∧ valueOf draft.maxReceiveCount = some (n : Int)
  shown : draft.deadLetterQueue = (opened url stored).deadLetterQueue →
    ∀ arn limit, redrivePolicy stored = some (arn, limit) →
      arn = c.account.arnOf (queueNameOf arn)

section Iff

variable {c : Session} {draft : Draft} {q : QueueSpec} {sent stored : Attributes} {url : String}

theorem queueNameOf_arnOf {name : String} (h : IsName name) :
    queueNameOf (c.account.arnOf name) = name :=
  h.queueNameOf_append _ (.inr rfl)

/-- The number that is sent, where the dialog holds one that is allowed. -/
theorem Sends.numbers_eq (h : Sends c draft q sent) {s : Setting} {n : ℕ}
    (hn : valueOf (draft.numbers s) = some (n : Int)) : q.numbers s = n := by
  obtain ⟨k, hk, hround⟩ := goInt_spec (h.number s) hn
  rcases Nat.eq_zero_or_pos k with rfl | hpos
  · rw [hk, ← hround]
    rfl
  · have heq := goInt_of_small (hk ▸ h.number s) hn (h.allows hk hpos).le
    rw [hk, heq]

theorem Sends.limit_eq (h : Sends c draft q sent) (hne : draft.target ≠ "") {n : ℕ}
    (hn : valueOf draft.maxReceiveCount = some (n : Int)) : q.maxReceiveCount = n := by
  obtain ⟨k, hk, hround⟩ := goInt_spec h.maxReceiveCount hn
  rcases Nat.eq_zero_or_pos k with rfl | hpos
  · rw [hk, ← hround]
    rfl
  · have hle := h.limit_le hne hk hpos
    have heq := goInt_of_small (hk ▸ h.maxReceiveCount) hn (by omega)
    rw [hk, heq]

theorem positive_zero : positive ((0 : ℕ) : Int) = none := by decide

theorem positive_natCast {n : ℕ} (h : 0 < n) : positive n = some (toString n) := by
  rw [positive, if_pos (by exact_mod_cast h), toString_natCast]

/-- What is shown of the dead-letter queue leads to the stored policy. -/
theorem target_of_shown {name arn : String} (hs : Stored name arn stored)
    (hshown : draft.deadLetterQueue = (opened url stored).deadLetterQueue) :
    (stored["RedrivePolicy"]? = none ∧ draft.target = "") ∨
      ∃ (account : String) (limit : ℕ), IsName draft.target ∧
        redrivePolicy stored = some (account ++ ":" ++ draft.target, toString limit) := by
  have hplain (n : String) (hn : IsName n) : trimSpace (jsTrim n) = n := by
    rw [hn.trimmed, hn.trimSpace_eq]
  rcases opened_redrive url hs with
    ⟨hnone, hblank⟩ | ⟨account, target, limit, htarget, -, -, hpolicy, hname, -⟩
  · refine .inl ⟨hnone, ?_⟩
    rw [Draft.target, hshown, hblank]
    decide
  · have heq : draft.target = target := by rw [Draft.target, hshown, hname, hplain _ htarget]
    exact .inr ⟨account, limit, heq ▸ htarget, heq ▸ hpolicy⟩

theorem getElem?_after (key : String) : (stored ∪ sent)[key]? = (sent[key]?).or stored[key]? :=
  ExtTreeMap.getElem?_union

theorem Sends.redrive_after (h : Sends c draft q sent) (stored : Attributes)
    (hne : draft.target ≠ "") :
    IsName draft.target ∧
      redrivePolicy (stored ∪ sent) = some (c.account.arnOf draft.target, q.maxReceives) := by
  rcases h.sent_redrive with ⟨hblank, -⟩ | ⟨-, hname, hpolicy⟩
  · exact absurd hblank hne
  · refine ⟨hname, ?_⟩
    obtain ⟨raw, hraw, hread⟩ := Option.bind_eq_some_iff.mp hpolicy
    rw [redrivePolicy, getElem?_after, hraw, Option.some_or, Option.bind_some, hread]

theorem Sends.cleared_after (h : Sends c draft q sent) (hblank : draft.target = "") :
    (stored ∪ sent)["RedrivePolicy"]? = stored["RedrivePolicy"]? := by
  rcases h.sent_redrive with ⟨-, hnone⟩ | ⟨hne, -⟩
  · rw [getElem?_after, hnone, Option.none_or]
  · exact absurd hblank hne

theorem Sends.number_after (h : Sends c draft q sent) (s : Setting) :
    (stored ∪ sent)[s.apiName]? = (positive (q.numbers s)).or stored[s.apiName]? := by
  rw [getElem?_after, h.sent_number]

theorem redrivePolicy_of_none {a : Attributes} (h : a["RedrivePolicy"]? = none) :
    redrivePolicy a = none := by
  rw [redrivePolicy, h]
  rfl

theorem Sends.kept (h : Sends c draft q sent) {name arn : String} (hs : Stored name arn stored)
    (hright : Right url stored draft (stored ∪ sent)) : Kept c url stored draft where
  zero s hallows hn := by
    have hafter := hright.number s 0 hn hallows
    rwa [h.number_after, h.numbers_eq hn, positive_zero, Option.none_or] at hafter
  cleared hblank := by
    rw [← h.cleared_after hblank]
    exact hright.cleared hblank
  limit hne := by
    obtain ⟨arn', limit, hpolicy, -, hlimit⟩ := hright.redrive hne
    refine ⟨limit, Nat.pos_of_ne_zero ?_, hlimit⟩
    rintro rfl
    rw [(h.redrive_after stored hne).2, QueueSpec.maxReceives, h.limit_eq hne hlimit] at hpolicy
    have hfive : "5" = toString 0 := congrArg (·.2) (Option.some.inj hpolicy)
    exact absurd hfive (by decide)
  shown hshown arn' limit hpolicy := by
    rcases target_of_shown hs hshown with ⟨hnone, -⟩ | ⟨account, limit', hname, hstored⟩
    · rw [redrivePolicy_of_none hnone] at hpolicy
      cases hpolicy
    · have hne : draft.target ≠ "" := fun hblank => hname.ne_empty (by rw [hblank]; rfl)
      have hsame := hright.shown hshown
      rw [(h.redrive_after stored hne).2, hpolicy] at hsame
      have harn : c.account.arnOf draft.target = arn' := Option.some.inj hsame
      rw [← harn, queueNameOf_arnOf hname]

theorem Sends.right (h : Sends c draft q sent) {name arn : String} (hs : Stored name arn stored)
    (hname : draft.name = name) (hkept : Kept c url stored draft) :
    Right url stored draft (stored ∪ sent) := by
  have hnumber : ∀ (s : Setting) (n : ℕ), valueOf (draft.numbers s) = some (n : Int) →
      s.Allows n → (stored ∪ sent)[s.apiName]? = some (toString n) := by
    intro s n hn hallows
    rw [h.number_after, h.numbers_eq hn]
    rcases Nat.eq_zero_or_pos n with rfl | hpos
    · rw [positive_zero, Option.none_or]
      exact hkept.zero s hallows hn
    · rw [positive_natCast hpos, Option.some_or]
  have hlimit (hne : draft.target ≠ "") {n : ℕ}
      (hn : valueOf draft.maxReceiveCount = some (n : Int)) : q.maxReceives = toString n := by
    obtain ⟨n', hpos, hn'⟩ := hkept.limit hne
    obtain rfl : n = n' := by exact_mod_cast Option.some.inj (hn.symm.trans hn')
    rw [QueueSpec.maxReceives, h.limit_eq hne hn, positive_natCast hpos, Option.getD_some]
  have hdedup : isFIFO draft.name = true → (stored ∪ sent)["ContentBasedDeduplication"]? =
      some (boolAttr draft.contentBasedDeduplication) := by
    intro hfifo
    rw [getElem?_after, h.sent_deduplication, if_pos hfifo, Option.some_or]
  have hothers : ∀ key, ¬Drawn draft.name key → (stored ∪ sent)[key]? = stored[key]? := by
    intro key hkey
    rw [getElem?_after, h.sent_other hkey, Option.none_or]
  have hshown : draft.deadLetterQueue = (opened url stored).deadLetterQueue →
      (redrivePolicy (stored ∪ sent)).map (·.1) = (redrivePolicy stored).map (·.1) := by
    intro hshown
    rcases target_of_shown hs hshown with ⟨hnone, hblank⟩ | ⟨account, limit, htarget, hstored⟩
    · rw [redrivePolicy_of_none hnone,
        redrivePolicy_of_none ((h.cleared_after hblank).trans hnone)]
    · have hne : draft.target ≠ "" := fun hblank => htarget.ne_empty (by rw [hblank]; rfl)
      have harn := hkept.shown hshown _ _ hstored
      rw [htarget.queueNameOf_append account (.inr rfl)] at harn
      rw [(h.redrive_after stored hne).2, hstored, Option.map_some, Option.map_some, harn]
  refine ⟨hnumber, ?_, hshown, ?_, hdedup, hothers, ?_⟩
  · intro hne
    obtain ⟨n, -, hn⟩ := hkept.limit hne
    obtain ⟨htarget, hpolicy⟩ := h.redrive_after stored hne
    exact ⟨_, n, by rw [hpolicy, hlimit hne hn], queueNameOf_arnOf htarget, hn⟩
  · intro hblank
    rw [h.cleared_after hblank]
    exact hkept.cleared hblank
  · intro huntouched
    refine ⟨fun key hkey => ?_, ?_⟩
    · by_cases hdrawn : Drawn draft.name key
      · rcases hdrawn with ⟨s, rfl⟩ | rfl | ⟨rfl, hfifo⟩
        · obtain ⟨n, hn, hallows, hvalue⟩ := opened_number url hs s
          rw [hn, hnumber s n (by rw [huntouched]; exact hvalue) hallows]
        · exact absurd rfl hkey
        · obtain ⟨b, hb⟩ := hs.deduplication (hname ▸ hfifo)
          rw [hdedup hfifo, hb, huntouched, opened_deduplication hb]
      · exact hothers key hdrawn
    · have hsame := hshown (by rw [huntouched])
      rcases opened_redrive url hs with
        ⟨hnone, -⟩ | ⟨account, target, limit, htarget, -, -, hpolicy, htext, hvalue⟩
      · rw [redrivePolicy_of_none hnone, Option.map_none, Option.map_eq_none_iff] at hsame
        rw [hsame, redrivePolicy_of_none hnone]
      · have heq : draft.target = target := by
          rw [Draft.target, huntouched, htext, htarget.trimmed, htarget.trimSpace_eq]
        have hne : draft.target ≠ "" := fun hblank =>
          htarget.ne_empty (by rw [← heq, hblank]; rfl)
        have hafter := (h.redrive_after stored hne).2
        rw [hlimit hne (n := limit) (by rw [huntouched]; exact hvalue)] at hafter
        rw [hafter, hpolicy, Option.map_some, Option.map_some] at hsame
        have harn : c.account.arnOf draft.target = account ++ ":" ++ target := Option.some.inj hsame
        rw [hafter, hpolicy, harn]

end Iff

/-- **A saved edit is right exactly if it is kept.** -/
theorem queue_edit_right_iff {c : Session} {url : String} {stored : Attributes} {edits : List Edit}
    {after : ExtTreeMap String Attributes compare}
    (hstored : c.account.queues[url]? = some stored)
    (hsaved : c.save (held url stored edits) = .ok after) :
    Right url stored (held url stored edits) ((after[url]?).getD ∅) ↔
      Kept c url stored (held url stored edits) := by
  obtain ⟨name, hname, rfl, hs⟩ := c.account.stored url stored hstored
  have hheld := name_held (a := stored) hname c.account.endpoint edits
  obtain ⟨q, sent, stored', hsends, hstored', rfl⟩ := save_ok (by rwa [hheld]) hsaved
  rw [hheld] at hstored'
  obtain rfl : stored = stored' := Option.some.inj (hstored.symm.trans hstored')
  have hafter : ((c.account.queues.insert (c.account.urlOf
      (held (c.account.endpoint ++ "/" ++ name) stored edits).name)
      (stored ∪ sent))[c.account.endpoint ++ "/" ++ name]?).getD ∅ = stored ∪ sent := by
    rw [hheld, getElem?_insert, Account.urlOf, if_pos rfl, Option.getD_some]
  rw [hafter]
  exact ⟨fun hright => hsends.kept hs hright, fun hkept => hsends.right hs hheld hkept⟩

/-! ### A queue and two edits of it -/

theorem save_eq (c : Session) {draft : Draft} {q : QueueSpec} (hname : IsName draft.name)
    (heq : q = ⟨draft.name, isFIFO draft.name, q.numbers, jsTrim draft.deadLetterQueue,
      q.maxReceiveCount, draft.contentBasedDeduplication, "", ""⟩)
    (hnumber : ∀ s, goInt (draft.numbers s) = some (q.numbers s))
    (hlimit : goInt draft.maxReceiveCount = some q.maxReceiveCount) :
    c.save draft = c.updateQueue q := by
  have hall : (Setting.all.all fun s => (goInt (draft.numbers s)).isSome) = true :=
    List.all_eq_true.mpr fun s _ => by rw [hnumber s]; rfl
  have hnumbers : (fun s => (goInt (draft.numbers s)).getD 0) = q.numbers := by
    funext s
    rw [hnumber s, Option.getD_some]
  rw [Session.save, submit, hname.submittable, Option.map_some]
  simp only [SQSQueueInput.spec, hall, if_true, hlimit, Option.map_some, hnumbers,
    hname.isFifoName_eq]
  rw [← heq]

/-- A queue that delivers after a minute. -/
def ordersAttributes : Attributes := [
  ("QueueArn", "arn:1:orders"), ("VisibilityTimeout", "30"), ("DelaySeconds", "60"),
  ("MessageRetentionPeriod", "60"), ("MaximumMessageSize", "1024"),
  ("ReceiveMessageWaitTimeSeconds", "0")].foldl (fun m e => m.insert e.1 e.2) ∅

theorem isName_orders : IsName "orders" := ⟨by decide, by decide⟩

theorem stored_orders : Stored "orders" "arn:1:orders" ordersAttributes where
  arn := by decide
  number s := by
    cases s with
    | visibilityTimeout => exact ⟨30, by decide, by decide⟩
    | delay => exact ⟨60, by decide, by decide⟩
    | retention => exact ⟨60, by decide, by decide⟩
    | maxMessageBytes => exact ⟨1024, by decide, by decide⟩
    | receiveWait => exact ⟨0, by decide, by decide⟩
  redrive raw h := by
    rw [show ordersAttributes["RedrivePolicy"]? = none by decide] at h
    cases h
  deduplication h := absurd h (by decide)

def ordersAccount : Account where
  endpoint := "sqs/1"
  resource := "arn:1"
  refuse _ := none
  queues := (∅ : ExtTreeMap String Attributes compare).insert "sqs/1/orders" ordersAttributes
  stored url attributes h := by
    rw [getElem?_insert] at h
    split_ifs at h with hurl
    · obtain rfl := Option.some.inj h
      exact ⟨"orders", isName_orders, hurl.symm, stored_orders⟩
    · cases h

def ordersSession : Session where
  conn := {
    live := true
    region := "eu-west-1"
    urls := ∅
    getQueueUrl := ordersAccount.getQueueUrl
    receiveMessage _ := .ok []
    changeMessageVisibilityBatch _ := none }
  account := ordersAccount
  answers _ := rfl
  remembered name url h := by simp at h

/-- The queue with another delay. -/
def ordersSpec (delay : Int) : QueueSpec where
  name := "orders"
  fifo := false
  numbers
    | .visibilityTimeout => 30
    | .delay => delay
    | .retention => 60
    | .maxMessageBytes => 1024
    | .receiveWait => 0
  deadLetterQueue := ""
  maxReceiveCount := 5
  contentBasedDeduplication := false
  deduplicationScope := ""
  fifoThroughputLimit := ""

/-- What the dialog of the queue opens with, with another delay. -/
def ordersDraft (delay : Whole) : Draft where
  name := "orders"
  fifo := false
  numbers
    | .visibilityTimeout => .small 30 thirty_safe
    | .delay => delay
    | .retention => .small 60 (by decide)
    | .maxMessageBytes => .small 1024 (by decide)
    | .receiveWait => .small 0 zero_safe
  deadLetterQueue := ""
  maxReceiveCount := .small 5 five_safe
  contentBasedDeduplication := false

theorem opened_orders :
    opened "sqs/1/orders" ordersAttributes = ordersDraft (.small 60 (by decide)) := by
  have hnumbers : (opened "sqs/1/orders" ordersAttributes).numbers =
      (ordersDraft (.small 60 (by decide))).numbers := by
    funext s
    cases s with
    | visibilityTimeout => exact opened_numbers_eq (by decide) (by decide)
    | delay => exact opened_numbers_eq (by decide) (by decide)
    | retention => exact opened_numbers_eq (by decide) (by decide)
    | maxMessageBytes => exact opened_numbers_eq (by decide) (by decide)
    | receiveWait => exact opened_numbers_eq (by decide) (by decide)
  have hredrive : redriveOf (attr ordersAttributes "RedrivePolicy") = none := by decide
  have hname : (opened "sqs/1/orders" ordersAttributes).name = "orders" := by decide
  have hfifo : (opened "sqs/1/orders" ordersAttributes).fifo = false := by decide
  have htarget : (opened "sqs/1/orders" ordersAttributes).deadLetterQueue = "" := by decide
  have hdedup : (opened "sqs/1/orders" ordersAttributes).contentBasedDeduplication = false := by
    decide
  have hlimit :
      (opened "sqs/1/orders" ordersAttributes).maxReceiveCount = .small 5 (by decide) := by
    show (number (destinationOf "sqs/1/orders" ordersAttributes) AttrMaxReceiveCount).getD _ = _
    rw [number, text, getElem?_destinationOf_redrive.2, hredrive]
    rfl
  cases hopened : opened "sqs/1/orders" ordersAttributes
  simp only [hopened] at hnumbers hname hfifo htarget hdedup hlimit
  rw [hnumbers, hname, hfifo, htarget, hdedup, hlimit]
  rfl

theorem save_orders {delay : Whole} {n : Int} (h : goInt delay = some n) :
    ordersSession.save (ordersDraft delay) = ordersSession.updateQueue (ordersSpec n) := by
  have htrim : jsTrim "" = "" := by decide
  have hfifo : isFIFO "orders" = false := by decide
  have hlimit : goInt (.small 5 (by decide)) = some 5 := by decide
  refine save_eq ordersSession isName_orders ?_ (fun s => ?_) hlimit
  · simp only [ordersDraft, ordersSpec, htrim, hfifo]
  cases s with
  | visibilityTimeout => exact show goInt (.small 30 (by decide)) = some 30 by decide
  | delay => exact h
  | retention => exact show goInt (.small 60 (by decide)) = some 60 by decide
  | maxMessageBytes => exact show goInt (.small 1024 (by decide)) = some 1024 by decide
  | receiveWait => exact show goInt (.small 0 (by decide)) = some 0 by decide

/-- **A delay of zero is not stored.**  The dialog holds a zero, and the queue keeps its minute. -/
theorem zero_delay_ignored : ∃ after,
    ordersSession.save (held "sqs/1/orders" ordersAttributes [.number .delay "0"]) = .ok after ∧
      ¬Right "sqs/1/orders" ordersAttributes
        (held "sqs/1/orders" ordersAttributes [.number .delay "0"])
        ((after["sqs/1/orders"]?).getD ∅) := by
  have hfield : numberField "0" = .small 0 (by decide) := by
    rw [numberField, show "0" = (Whole.small 0 (by decide)).text by decide,
      parseInt_text (Whole.plain_small (by decide))]
    rfl
  have hheld : held "sqs/1/orders" ordersAttributes [.number .delay "0"] =
      ordersDraft (.small 0 (by decide)) := by
    rw [held, opened_orders, List.foldl_cons, List.foldl_nil, Draft.edit, hfield]
    simp only [ordersDraft, Draft.mk.injEq, true_and, and_true]
    funext s
    cases s <;> rfl
  rw [hheld, save_orders (n := 0) (by decide)]
  have hkept : ((ordersSession.updateQueue (ordersSpec 0)).toOption.bind fun after =>
      ((after["sqs/1/orders"]?).getD ∅)["DelaySeconds"]?) = some "60" := by decide
  cases hsaved : ordersSession.updateQueue (ordersSpec 0) with
  | error err =>
    rw [hsaved] at hkept
    cases hkept
  | ok after =>
    rw [hsaved] at hkept
    refine ⟨after, rfl, fun hright => ?_⟩
    have hzero := hright.number .delay 0 rfl (by decide)
    exact absurd (hkept.symm.trans hzero) (by decide)

/-- An edit that is kept. -/
theorem untouched_orders_right : ∃ after,
    ordersSession.save (held "sqs/1/orders" ordersAttributes []) = .ok after ∧
      Right "sqs/1/orders" ordersAttributes (held "sqs/1/orders" ordersAttributes [])
        ((after["sqs/1/orders"]?).getD ∅) := by
  have hheld : held "sqs/1/orders" ordersAttributes [] = ordersDraft (.small 60 (by decide)) :=
    opened_orders
  have hok : (ordersSession.updateQueue (ordersSpec 60)).isOk = true := by decide
  have hdelay : goInt (.small 60 (by decide)) = some 60 := by decide
  cases hsaved : ordersSession.updateQueue (ordersSpec 60) with
  | error err =>
    rw [hsaved] at hok
    cases hok
  | ok after =>
    have hdone : ordersSession.save (held "sqs/1/orders" ordersAttributes []) = .ok after := by
      rw [hheld, save_orders hdelay, hsaved]
    refine ⟨after, hdone, (queue_edit_right_iff (by decide) hdone).mpr ?_⟩
    rw [hheld]
    refine ⟨fun s hallows hzero => ?_, fun _ => by decide, fun hne => ?_, fun _ arn limit h => ?_⟩
    · cases s with
      | visibilityTimeout => exact absurd hzero (by decide)
      | delay => exact absurd hzero (by decide)
      | retention => exact absurd hzero (by decide)
      | maxMessageBytes => exact absurd hzero (by decide)
      | receiveWait => decide
    · exact absurd (by decide) hne
    · rw [redrivePolicy_of_none (by decide)] at h
      cases h

end MqStudio.Sqs.Queue
