import MqStudio.Lib.Ranking
import MqStudio.Lib.Record

/-!
# The drafts a producer form keeps

`producerDrafts.ts`: what was last sent to each topic of a connection is kept in the browser's
storage, at most ten connections of thirty topics each.

* `saveProducerDraft`, `clearProducerDraft`, `loadProducerScope`: the operations on what is stored.
* `SaveRight`: a save keeps the store bounded, reads back and evicts the oldest.
* `save_right_iff`: it does exactly if the draft gets a property of its own, and the connection is
  among the ten that were saved last.
-/

namespace MqStudio.Hooks.ProducerDrafts

open Lib Lib.Ranking

/-! ### What is stored -/

/-- The content last sent to a topic; the delay is none where it is no finite number. -/
structure ProducerDraft where
  tag : String
  key : String
  delay : Option ℚ
  body : String

structure ProducerScope where
  lastTopic : String
  drafts : Record ProducerDraft

/-- A draft with the time it was saved at. -/
structure StoredDraft where
  tag : String
  key : String
  delay : ℚ
  body : String
  savedAt : ℚ

structure StoredScope where
  lastTopic : String
  drafts : Record StoredDraft

/-- What is stored, as `readFile` returns it. -/
abbrev StoredFile := Record StoredScope

def maxBodyBytes : ℕ := 256 * 1024
def maxTopicsPerScope : ℕ := 30
def maxScopes : ℕ := 10
def maxDelayLevel : ℚ := 18

/-- `Math.trunc`. -/
def truncate (q : ℚ) : ℤ := q.num.tdiv q.den

def clampDelay : Option ℚ → ℚ
  | none => 0
  | some value => min (max (truncate value : ℚ) 0) maxDelayLevel

def bodyBytes (body : String) : ℕ := body.utf8ByteSize

def newestSavedAt (scope : StoredScope) : ℚ :=
  scope.drafts.ownEntries.foldl (fun newest e => max newest e.2.savedAt) 0

/-- Keeps the drafts of a scope that were saved last. -/
def trimDrafts (scope : StoredScope) : StoredScope :=
  if scope.drafts.ownEntries.length ≤ maxTopicsPerScope then scope
  else
    let kept := (descending (fun e => e.2.savedAt) scope.drafts.ownEntries).take maxTopicsPerScope
    { scope with drafts := .ofEntries kept }

/-- `trim`: drops what was saved longest ago. -/
def trim (file : StoredFile) : StoredFile :=
  let file := file.mapEntries fun _ scope => trimDrafts scope
  if file.ownEntries.length ≤ maxScopes then file
  else .ofEntries ((descending (fun e => newestSavedAt e.2) file.ownEntries).take maxScopes)

/-! ### The operations -/

/-- A stored draft as the form gets it. -/
def toDraft (draft : StoredDraft) : ProducerDraft :=
  ⟨draft.tag, draft.key, some draft.delay, draft.body⟩

def toScope (stored : StoredScope) : ProducerScope :=
  ⟨stored.lastTopic, stored.drafts.mapEntries fun _ draft => toDraft draft⟩

def blankScope : StoredScope := ⟨"", .empty⟩

/-- What a scope reads as; none where it throws.  A name that is not stored and that every object
inherits reads something that has no drafts. -/
def loadProducerScope (file : StoredFile) (scopeKey : String) : Option ProducerScope :=
  match file.get? scopeKey with
  | some scope => some (toScope scope)
  | none => if scopeKey ∈ inheritedNames then none else some (toScope blankScope)

def Accepted (draft : ProducerDraft) : Prop := bodyBytes draft.body ≤ maxBodyBytes

instance (draft : ProducerDraft) : Decidable (Accepted draft) :=
  inferInstanceAs (Decidable (_ ≤ _))

def storedDraft (now : ℚ) (draft : ProducerDraft) : StoredDraft :=
  ⟨draft.tag, draft.key, clampDelay draft.delay, draft.body, now⟩

/-- What becomes of the scope of a save; an oversized body is not kept. -/
def saveIn (now : ℚ) (topic : String) (draft : ProducerDraft) (scope : StoredScope) :
    StoredScope where
  lastTopic := topic
  drafts := if Accepted draft then scope.drafts.assign topic (storedDraft now draft)
    else scope.drafts

/-- The file with the save in it, before anything is dropped. -/
def record (file : StoredFile) (now : ℚ) (scopeKey topic : String) (draft : ProducerDraft) :
    StoredFile :=
  file.assign scopeKey (saveIn now topic draft ((file.get? scopeKey).getD blankScope))

/-- `saveProducerDraft`: what is stored after it, and what it returns; none where it throws.  An
inherited value has no drafts to save in or to trim; only the object all others inherit from, with a
body that is not kept, throws after the write. -/
def saveProducerDraft (file : StoredFile) (now : ℚ) (scopeKey topic : String)
    (draft : ProducerDraft) : StoredFile × Option ProducerScope :=
  if topic = "" then (file, loadProducerScope file scopeKey)
  else if file.get? scopeKey = none ∧ scopeKey ∈ inheritedNames then
    (if scopeKey = protoName ∧ ¬Accepted draft then trim file else file, none)
  else
    let trimmed := trim (record file now scopeKey topic draft)
    (trimmed, loadProducerScope trimmed scopeKey)

/-- `clearProducerDraft`: the topic that is open stays. -/
def clearProducerDraft (file : StoredFile) (scopeKey topic : String) :
    StoredFile × Option ProducerScope :=
  match file.get? scopeKey with
  | none => (file, loadProducerScope file scopeKey)
  | some scope =>
    let cleared := { scope with drafts := scope.drafts.remove topic }
    (file.assign scopeKey cleared, some (toScope cleared))

/-! ### What a save should do -/

/-- The store is bounded, the save reads back, and what was evicted is no newer than what was kept
beside it. -/
structure SaveRight (file : StoredFile) (now : ℚ) (scopeKey topic : String) (draft : ProducerDraft)
    (after : StoredFile) : Prop where
  scopes : after.ownEntries.length ≤ maxScopes
  drafts : ∀ e ∈ after.ownEntries, e.2.drafts.ownEntries.length ≤ maxTopicsPerScope
  loaded : ∃ scope, loadProducerScope after scopeKey = some scope ∧ scope.lastTopic = topic ∧
    (Accepted draft → scope.drafts.get? topic = some (toDraft (storedDraft now draft)))
  evictedScopes : ∀ k s, (record file now scopeKey topic draft).get? k = some s →
    after.get? k = none → ∀ k' s', (record file now scopeKey topic draft).get? k' = some s' →
      after.get? k' ≠ none → newestSavedAt s ≤ newestSavedAt s'
  evictedDrafts : ∀ k s s', (record file now scopeKey topic draft).get? k = some s →
    after.get? k = some s' → ∀ t d, s.drafts.get? t = some d → s'.drafts.get? t = none →
      ∀ t' d', s'.drafts.get? t' = some d' → d.savedAt ≤ d'.savedAt

/-- The time a scope is kept by after a save. -/
def standing (file : StoredFile) (now : ℚ) (scopeKey : String) (draft : ProducerDraft) : ℚ :=
  if Accepted draft then max 0 now else newestSavedAt ((file.get? scopeKey).getD blankScope)

/-- The other scopes that are kept before one: those saved later, and those saved at the same time
that come before it in the order of the file. -/
def ahead (file : StoredFile) (scopeKey : String) (time : ℚ) : ℕ :=
  let entries := (file.assign scopeKey blankScope).ownEntries
  ((entries.takeWhile fun e => e.1 ≠ scopeKey).countP fun e => time ≤ newestSavedAt e.2) +
    ((entries.dropWhile fun e => e.1 ≠ scopeKey).tail.countP fun e => time < newestSavedAt e.2)

/-- The scope and the draft are properties of their own, and the scope is among those saved last. -/
structure Kept (file : StoredFile) (now : ℚ) (scopeKey topic : String) (draft : ProducerDraft) :
    Prop where
  scope : file.get? scopeKey ≠ none ∨ scopeKey ∉ inheritedNames
  topic : Accepted draft → topic ≠ protoName
  recent : ahead file scopeKey (standing file now scopeKey draft) < maxScopes

/-! ### The newest of the first -/

section Keeping

variable {α : Type} {key : String × α → ℚ} {r : Record α} {n : ℕ} {name : String} {value : α}

theorem nodup_take (key : String × α → ℚ) (r : Record α) (n : ℕ) :
    (((descending key r.ownEntries).take n).map Prod.fst).Nodup :=
  ((perm_descending key r.ownEntries).map Prod.fst |>.nodup_iff.mpr r.nodup_ownEntries).sublist
    ((List.take_sublist _ _).map _)

theorem own_take (key : String × α → ℚ) (r : Record α) (n : ℕ) :
    ∀ e ∈ (descending key r.ownEntries).take n, e.1 ≠ protoName := fun _ he =>
  Record.ne_protoName_of_mem ((perm_descending key _).mem_iff.mp (List.mem_of_mem_take he))

/-- The first `n` properties of a record by a key, or all of them. -/
def keepNewest (key : String × α → ℚ) (n : ℕ) (r : Record α) : Record α :=
  if r.ownEntries.length ≤ n then r else .ofEntries ((descending key r.ownEntries).take n)

theorem get?_keepNewest (h : ¬r.ownEntries.length ≤ n) :
    (keepNewest key n r).get? name = some value ↔
      (name, value) ∈ (descending key r.ownEntries).take n := by
  rw [keepNewest, if_neg h, Record.get?_ofEntries (nodup_take key r n) (own_take key r n)]

/-- Nothing is kept that was not there. -/
theorem get?_of_keepNewest (h : (keepNewest key n r).get? name = some value) :
    r.get? name = some value := by
  by_cases hfew : r.ownEntries.length ≤ n
  · rwa [keepNewest, if_pos hfew] at h
  · rw [get?_keepNewest hfew] at h
    exact Record.mem_ownEntries.mp ((perm_descending key _).mem_iff.mp (List.mem_of_mem_take h))

theorem length_keepNewest (key : String × α → ℚ) (n : ℕ) (r : Record α) :
    (keepNewest key n r).ownEntries.length ≤ n := by
  rw [keepNewest]
  split
  · assumption
  · rw [(Record.perm_ownEntries_ofEntries (nodup_take key r n) (own_take key r n)).length_eq]
    exact List.length_take_le _ _

/-- What is dropped is no newer than what is kept. -/
theorem key_le_of_keepNewest (hold : r.get? name = some value)
    (hdropped : (keepNewest key n r).get? name = none) {name' : String} {value' : α}
    (hkept : (keepNewest key n r).get? name' = some value') :
    key (name, value) ≤ key (name', value') := by
  by_cases hfew : r.ownEntries.length ≤ n
  · rw [keepNewest, if_pos hfew, hold] at hdropped
    cases hdropped
  · have hnot : (name, value) ∉ (descending key r.ownEntries).take n := by
      intro hmem
      rw [(get?_keepNewest hfew).mpr hmem] at hdropped
      cases hdropped
    exact le_of_notMem_take ((get?_keepNewest hfew).mp hkept) (Record.mem_ownEntries.mpr hold) hnot

/-- Where something is dropped, something is kept. -/
theorem exists_keepNewest (hn : 0 < n) (hold : r.get? name = some value)
    (hdropped : (keepNewest key n r).get? name = none) :
    ∃ name' value', (keepNewest key n r).get? name' = some value' := by
  by_cases hfew : r.ownEntries.length ≤ n
  · rw [keepNewest, if_pos hfew, hold] at hdropped
    cases hdropped
  · have hlength : 0 < ((descending key r.ownEntries).take n).length := by
      rw [List.length_take, (perm_descending key _).length_eq]
      omega
    obtain ⟨e, he⟩ := List.exists_mem_of_length_pos hlength
    exact ⟨e.1, e.2, (get?_keepNewest hfew).mpr he⟩

/-- What is newer than everything else is kept. -/
theorem keepNewest_of_newest (hn : 0 < n) (hold : r.get? name = some value)
    (hnewest : ∀ name' value', r.get? name' = some value' → name' ≠ name →
      key (name', value') < key (name, value)) : (keepNewest key n r).get? name = some value := by
  cases hkept : (keepNewest key n r).get? name with
  | some value' =>
    have hsame := get?_of_keepNewest hkept
    rw [hold] at hsame
    exact hsame.symm
  | none =>
    obtain ⟨name', value', hother⟩ := exists_keepNewest hn hold hkept
    have hle := key_le_of_keepNewest hold hkept hother
    by_cases hne : name' = name
    · rw [hne, hkept] at hother
      cases hother
    · exact absurd hle (not_le.mpr (hnewest name' value' (get?_of_keepNewest hother) hne))

/-- A property is kept exactly if fewer than `n` others come before it. -/
theorem keepNewest_iff {before after : List (String × α)}
    (hsplit : r.ownEntries = before ++ (name, value) :: after) :
    (keepNewest key n r).get? name = some value ↔
      before.countP (fun e => key (name, value) ≤ key e) +
        after.countP (fun e => key (name, value) < key e) < n := by
  have hnodup : (before ++ (name, value) :: after).Nodup := hsplit ▸ r.nodup_ownEntries.of_map
  by_cases hfew : r.ownEntries.length ≤ n
  · have hin : (name, value) ∈ r.ownEntries := by
      rw [hsplit]
      simp
    have hmem : r.get? name = some value := Record.mem_ownEntries.mp hin
    rw [keepNewest, if_pos hfew]
    refine ⟨fun _ => ?_, fun _ => hmem⟩
    have hbefore := List.countP_le_length (p := fun e => decide (key (name, value) ≤ key e))
      (l := before)
    have hafter := List.countP_le_length (p := fun e => decide (key (name, value) < key e))
      (l := after)
    rw [hsplit, List.length_append, List.length_cons] at hfew
    omega
  · rw [get?_keepNewest hfew, hsplit]
    exact mem_take_descending_iff hnodup

end Keeping

theorem trimDrafts_drafts (scope : StoredScope) : (trimDrafts scope).drafts =
    keepNewest (fun e => e.2.savedAt) maxTopicsPerScope scope.drafts := by
  rw [trimDrafts, keepNewest]
  split <;> rfl

theorem trimDrafts_lastTopic (scope : StoredScope) :
    (trimDrafts scope).lastTopic = scope.lastTopic := by
  rw [trimDrafts]
  split <;> rfl

theorem trim_eq (file : StoredFile) : trim file = keepNewest (fun e => newestSavedAt e.2) maxScopes
    (file.mapEntries fun _ scope => trimDrafts scope) := rfl

/-! ### The time a scope is kept by -/

theorem foldl_max_le_iff {l : List (String × StoredDraft)} {c : ℚ} : ∀ {newest : ℚ},
    l.foldl (fun newest e => max newest e.2.savedAt) newest ≤ c ↔
      newest ≤ c ∧ ∀ e ∈ l, e.2.savedAt ≤ c := by
  induction l with
  | nil => simp
  | cons e l ih =>
    intro newest
    rw [List.foldl_cons, ih, max_le_iff, List.forall_mem_cons, and_assoc]

theorem newestSavedAt_le_iff {scope : StoredScope} {c : ℚ} : newestSavedAt scope ≤ c ↔
    0 ≤ c ∧ ∀ t d, scope.drafts.get? t = some d → d.savedAt ≤ c := by
  rw [newestSavedAt, foldl_max_le_iff]
  refine and_congr_right fun _ => ⟨fun h t d hd => ?_, fun h e he => ?_⟩
  · exact h (t, d) (Record.mem_ownEntries.mpr hd)
  · exact h e.1 e.2 (Record.mem_ownEntries.mp he)

/-- A connection that has no drafts is dropped first. -/
theorem blankScope_oldest (scope : StoredScope) : newestSavedAt blankScope ≤ newestSavedAt scope :=
  newestSavedAt_le_iff.mpr ⟨(newestSavedAt_le_iff.mp le_rfl).1, fun _ _ h => by cases h⟩

/-- Dropping the oldest drafts of a scope leaves its newest. -/
theorem newestSavedAt_trimDrafts (scope : StoredScope) :
    newestSavedAt (trimDrafts scope) = newestSavedAt scope := by
  have hall := newestSavedAt_le_iff.mp (le_refl (newestSavedAt scope))
  have hkept := newestSavedAt_le_iff.mp (le_refl (newestSavedAt (trimDrafts scope)))
  rw [trimDrafts_drafts] at hkept
  refine le_antisymm (newestSavedAt_le_iff.mpr ⟨hall.1, fun t d hd => ?_⟩)
    (newestSavedAt_le_iff.mpr ⟨hkept.1, fun t d hd => ?_⟩)
  · rw [trimDrafts_drafts] at hd
    exact hall.2 t d (get?_of_keepNewest hd)
  · cases hsame : (keepNewest (fun e => e.2.savedAt) maxTopicsPerScope scope.drafts).get? t with
    | some d' =>
      have hd' := get?_of_keepNewest hsame
      rw [hd] at hd'
      obtain rfl := Option.some.inj hd'
      exact hkept.2 t d hsame
    | none =>
      obtain ⟨t', d', hother⟩ := exists_keepNewest (by decide) hd hsame
      exact (key_le_of_keepNewest hd hsame hother).trans (hkept.2 t' d' hother)

/-! ### What is dropped -/

theorem get?_trim_of_some {file : StoredFile} {k : String} {s : StoredScope}
    (h : (trim file).get? k = some s) : ∃ old, file.get? k = some old ∧ s = trimDrafts old := by
  rw [trim_eq] at h
  have hmapped := get?_of_keepNewest h
  rw [Record.get?_mapEntries] at hmapped
  obtain ⟨old, hold, rfl⟩ := Option.map_eq_some_iff.mp hmapped
  exact ⟨old, hold, rfl⟩

theorem length_trim (file : StoredFile) : (trim file).ownEntries.length ≤ maxScopes :=
  length_keepNewest _ _ _

theorem length_drafts_trim (file : StoredFile) :
    ∀ e ∈ (trim file).ownEntries, e.2.drafts.ownEntries.length ≤ maxTopicsPerScope := by
  intro e he
  obtain ⟨old, -, heq⟩ := get?_trim_of_some (Record.mem_ownEntries.mp he)
  rw [heq, trimDrafts_drafts]
  exact length_keepNewest _ _ _

/-- A scope that is dropped is no newer than one that is kept. -/
theorem newestSavedAt_le_of_trim {file : StoredFile} {k k' : String} {s s' : StoredScope}
    (hs : file.get? k = some s) (hdropped : (trim file).get? k = none)
    (hs' : file.get? k' = some s') (hkept : (trim file).get? k' ≠ none) :
    newestSavedAt s ≤ newestSavedAt s' := by
  obtain ⟨kept, hsome⟩ := Option.ne_none_iff_exists'.mp hkept
  obtain ⟨old, hold, rfl⟩ := get?_trim_of_some hsome
  obtain rfl : s' = old := Option.some.inj (hs'.symm.trans hold)
  have hmapped : (file.mapEntries fun _ scope => trimDrafts scope).get? k =
      some (trimDrafts s) := by
    rw [Record.get?_mapEntries, hs]
    rfl
  have hle := key_le_of_keepNewest hmapped hdropped hsome
  rwa [newestSavedAt_trimDrafts, newestSavedAt_trimDrafts] at hle

/-- A draft that is dropped from a scope is no newer than one that is kept in it. -/
theorem savedAt_le_of_trim {file : StoredFile} {k : String} {s s' : StoredScope}
    (hs : file.get? k = some s) (hs' : (trim file).get? k = some s') {t t' : String}
    {d d' : StoredDraft} (hd : s.drafts.get? t = some d) (hdropped : s'.drafts.get? t = none)
    (hd' : s'.drafts.get? t' = some d') : d.savedAt ≤ d'.savedAt := by
  obtain ⟨old, hold, rfl⟩ := get?_trim_of_some hs'
  obtain rfl : s = old := Option.some.inj (hs.symm.trans hold)
  rw [trimDrafts_drafts] at hdropped hd'
  exact key_le_of_keepNewest hd hdropped hd'

/-! ### What is kept of a save -/

section Saving

variable {file : StoredFile} {now : ℚ} {scopeKey topic : String} {draft : ProducerDraft}

/-- The scope as a save leaves it, before its oldest drafts are dropped. -/
def savedScope (file : StoredFile) (now : ℚ) (scopeKey topic : String) (draft : ProducerDraft) :
    StoredScope :=
  saveIn now topic draft ((file.get? scopeKey).getD blankScope)

/-- The clock is later than everything that is stored. -/
def Later (file : StoredFile) (now : ℚ) : Prop :=
  ∀ k s, file.get? k = some s → ∀ t d, s.drafts.get? t = some d → d.savedAt < now

theorem Later.getD (h : Later file now) (scopeKey : String) : ∀ t d,
    ((file.get? scopeKey).getD blankScope).drafts.get? t = some d → d.savedAt < now := by
  intro t d hd
  cases hscope : file.get? scopeKey with
  | none =>
    rw [hscope] at hd
    cases hd
  | some scope =>
    rw [hscope] at hd
    exact h scopeKey scope hscope t d hd

theorem drafts_saveIn {scope : StoredScope} (haccepted : Accepted draft)
    (hown : topic ≠ protoName) (t : String) : (saveIn now topic draft scope).drafts.get? t =
      if topic = t then some (storedDraft now draft) else scope.drafts.get? t := by
  rw [saveIn]
  dsimp only
  rw [if_pos haccepted, Record.get?_assign hown]

/-- A draft that is kept makes its scope the newest; a body that is not kept leaves the time. -/
theorem newestSavedAt_savedScope (hlater : Later file now)
    (hown : Accepted draft → topic ≠ protoName) :
    newestSavedAt (savedScope file now scopeKey topic draft) =
      standing file now scopeKey draft := by
  rw [savedScope, standing]
  by_cases haccepted : Accepted draft
  · have hall := newestSavedAt_le_iff.mp (le_refl (newestSavedAt
      (saveIn now topic draft ((file.get? scopeKey).getD blankScope))))
    rw [if_pos haccepted]
    refine le_antisymm (newestSavedAt_le_iff.mpr ⟨le_max_left _ _, fun t d hd => ?_⟩)
      (max_le hall.1 ?_)
    · rw [drafts_saveIn haccepted (hown haccepted)] at hd
      by_cases ht : topic = t
      · rw [if_pos ht] at hd
        rw [← Option.some.inj hd]
        exact le_max_right _ _
      · rw [if_neg ht] at hd
        exact (hlater.getD scopeKey t d hd).le.trans (le_max_right _ _)
    · refine hall.2 topic (storedDraft now draft) ?_
      rw [drafts_saveIn haccepted (hown haccepted), if_pos rfl]
  · rw [if_neg haccepted]
    show newestSavedAt ⟨_, _⟩ = _
    rw [if_neg haccepted]
    rfl

/-- The draft of a save is among the newest of its scope. -/
theorem draft_trimDrafts (hlater : Later file now) (haccepted : Accepted draft)
    (hown : topic ≠ protoName) :
    (trimDrafts (savedScope file now scopeKey topic draft)).drafts.get? topic =
      some (storedDraft now draft) := by
  have hsaved : ∀ t, (savedScope file now scopeKey topic draft).drafts.get? t = _ :=
    drafts_saveIn haccepted hown
  rw [trimDrafts_drafts]
  refine keepNewest_of_newest (by decide) ((hsaved topic).trans (if_pos rfl)) ?_
  intro t d hd hne
  rw [hsaved, if_neg (Ne.symm hne)] at hd
  exact hlater.getD scopeKey t d hd

theorem get?_record (hkey : scopeKey ≠ protoName) :
    (record file now scopeKey topic draft).get? scopeKey =
      some (savedScope file now scopeKey topic draft) := by
  rw [record, Record.get?_assign hkey, if_pos rfl]
  rfl

/-- The order of the scopes a save leaves, with the scope of the save singled out. -/
theorem ownEntries_record (hkey : scopeKey ≠ protoName) : ∃ before after,
    (file.assign scopeKey blankScope).ownEntries = before ++ (scopeKey, blankScope) :: after ∧
      scopeKey ∉ before.map Prod.fst ∧ scopeKey ∉ after.map Prod.fst := by
  have hmem : (scopeKey, blankScope) ∈ (file.assign scopeKey blankScope).ownEntries := by
    rw [Record.mem_ownEntries, Record.get?_assign hkey, if_pos rfl]
  obtain ⟨before, after, hsplit⟩ := List.append_of_mem hmem
  have hnodup := (file.assign scopeKey blankScope).nodup_ownEntries
  rw [hsplit, List.map_append, List.map_cons] at hnodup
  obtain ⟨-, hafter, hapart⟩ := List.nodup_append.mp hnodup
  exact ⟨before, after, hsplit, fun h => hapart _ h _ List.mem_cons_self rfl,
    (List.nodup_cons.mp hafter).1⟩

theorem ahead_eq {time : ℚ} {before after : List (String × StoredScope)}
    (hsplit : (file.assign scopeKey blankScope).ownEntries =
      before ++ (scopeKey, blankScope) :: after) (hbefore : scopeKey ∉ before.map Prod.fst) :
    ahead file scopeKey time = (before.countP fun e => time ≤ newestSavedAt e.2) +
      after.countP fun e => time < newestSavedAt e.2 := by
  have hother : ∀ e ∈ before, decide (e.1 ≠ scopeKey) = true := fun e he =>
    decide_eq_true fun heq => hbefore (heq ▸ List.mem_map_of_mem he)
  rw [ahead, hsplit, List.takeWhile_append_of_pos hother, List.dropWhile_append_of_pos hother,
    List.takeWhile_cons_of_neg (by simp), List.dropWhile_cons_of_neg (by simp), List.append_nil,
    List.tail_cons]

/-- **The scope of a save is kept** exactly if fewer than ten are ahead of it. -/
theorem get?_trim_record (hkey : scopeKey ≠ protoName) :
    (trim (record file now scopeKey topic draft)).get? scopeKey =
        some (trimDrafts (savedScope file now scopeKey topic draft)) ↔
      ahead file scopeKey (newestSavedAt (savedScope file now scopeKey topic draft)) <
        maxScopes := by
  obtain ⟨before, after, hsplit, hbefore, hafter⟩ := @ownEntries_record file scopeKey hkey
  have hkeep : ∀ l : List (String × StoredScope), scopeKey ∉ l.map Prod.fst →
      (l.map fun e => (e.1, if e.1 = scopeKey then savedScope file now scopeKey topic draft
        else e.2)) = l := by
    intro l hl
    refine (List.map_congr_left fun e he => ?_).trans (List.map_id l)
    have hne : e.1 ≠ scopeKey := fun h => hl (h ▸ List.mem_map_of_mem he)
    rw [if_neg hne]
    rfl
  have hrecord : (record file now scopeKey topic draft).ownEntries =
      before ++ (scopeKey, savedScope file now scopeKey topic draft) :: after := by
    rw [record, Record.ownEntries_assign hkey _ blankScope, hsplit, List.map_append, List.map_cons,
      if_pos rfl]
    exact congrArg₂ _ (hkeep before hbefore) (congrArg _ (hkeep after hafter))
  have htrimmed : ((record file now scopeKey topic draft).mapEntries
      fun _ scope => trimDrafts scope).ownEntries =
        before.map (fun e => (e.1, trimDrafts e.2)) ++
          (scopeKey, trimDrafts (savedScope file now scopeKey topic draft)) ::
            after.map fun e => (e.1, trimDrafts e.2) := by
    rw [Record.ownEntries_mapEntries, hrecord, List.map_append, List.map_cons]
  rw [trim_eq, keepNewest_iff htrimmed, ahead_eq hsplit hbefore, List.countP_map, List.countP_map]
  simp only [Function.comp_def, newestSavedAt_trimDrafts]

end Saving

/-! ### When a save is right -/

section Saving

variable {file : StoredFile} {now : ℚ} {scopeKey topic : String} {draft : ProducerDraft}

theorem lastTopic_toScope (stored : StoredScope) : (toScope stored).lastTopic = stored.lastTopic :=
  rfl

theorem get?_toScope (stored : StoredScope) (t : String) :
    (toScope stored).drafts.get? t = (stored.drafts.get? t).map toDraft :=
  Record.get?_mapEntries _ _ _

/-- What is not stored has no topic that is open. -/
theorem lastTopic_of_get?_none {scope : ProducerScope} (h : file.get? scopeKey = none)
    (hload : loadProducerScope file scopeKey = some scope) :
    scopeKey ∉ inheritedNames ∧ scope.lastTopic = "" := by
  rw [loadProducerScope, h] at hload
  by_cases hin : scopeKey ∈ inheritedNames
  · simp [hin] at hload
  · simp only [hin, if_false, Option.some.injEq] at hload
    exact ⟨hin, by rw [← hload]; rfl⟩

/-- A name that is inherited and not stored has no scope to save in. -/
theorem scope_of_right (hright : SaveRight file now scopeKey topic draft
    (saveProducerDraft file now scopeKey topic draft).1) (htopic : topic ≠ "") :
    file.get? scopeKey ≠ none ∨ scopeKey ∉ inheritedNames := by
  by_contra hnot
  obtain ⟨hnone, hin⟩ := not_or.mp hnot
  have habsent := not_not.mp hnone
  rw [saveProducerDraft, if_neg htopic, if_pos ⟨habsent, not_not.mp hin⟩] at hright
  obtain ⟨scope, hload, -⟩ := hright.loaded
  have hstays : (if scopeKey = protoName ∧ ¬Accepted draft then trim file
      else file).get? scopeKey = none := by
    split
    · cases htrim : (trim file).get? scopeKey with
      | none => rfl
      | some s =>
        obtain ⟨old, hold, -⟩ := get?_trim_of_some htrim
        rw [habsent] at hold
        cases hold
    · exact habsent
  exact hin (lastTopic_of_get?_none hstays hload).1

theorem saveProducerDraft_of_scope (hscope : file.get? scopeKey ≠ none ∨ scopeKey ∉ inheritedNames)
    (htopic : topic ≠ "") : (saveProducerDraft file now scopeKey topic draft).1 =
      trim (record file now scopeKey topic draft) := by
  rw [saveProducerDraft, if_neg htopic, if_neg fun h => hscope.elim (· h.1) (· h.2)]

/-- Whatever is saved, the store is bounded and drops the oldest; what is at stake is whether the
save is there to be read. -/
theorem saveRight_trim_iff : SaveRight file now scopeKey topic draft
    (trim (record file now scopeKey topic draft)) ↔
      ∃ scope, loadProducerScope (trim (record file now scopeKey topic draft)) scopeKey =
        some scope ∧ scope.lastTopic = topic ∧
          (Accepted draft → scope.drafts.get? topic = some (toDraft (storedDraft now draft))) := by
  refine ⟨fun h => h.loaded, fun h => ?_⟩
  exact
    { scopes := length_trim _
      drafts := length_drafts_trim _
      loaded := h
      evictedScopes := fun _ _ hs hdropped _ _ hs' hkept =>
        newestSavedAt_le_of_trim hs hdropped hs' hkept
      evictedDrafts := fun _ _ _ hs hs' _ _ hd hdropped _ _ hd' =>
        savedAt_le_of_trim hs hs' hd hdropped hd' }

theorem ne_protoName_of_scope (hscope : file.get? scopeKey ≠ none ∨ scopeKey ∉ inheritedNames) :
    scopeKey ≠ protoName := by
  rintro rfl
  rcases hscope with hsome | hnot
  · exact hsome file.get?_protoName
  · exact hnot (by decide)

/-- What reads back was kept. -/
theorem kept_of_right (htopic : topic ≠ "") (hlater : Later file now)
    (hright : SaveRight file now scopeKey topic draft
      (saveProducerDraft file now scopeKey topic draft).1) :
    Kept file now scopeKey topic draft := by
  have hscope := scope_of_right hright htopic
  have hkey := ne_protoName_of_scope hscope
  rw [saveProducerDraft_of_scope hscope htopic] at hright
  obtain ⟨scope, hload, hlast, hdraft⟩ := hright.loaded
  have hown : Accepted draft → topic ≠ protoName := by
    intro haccepted heq
    have hget := hdraft haccepted
    rw [heq, Record.get?_protoName] at hget
    cases hget
  refine ⟨hscope, hown, ?_⟩
  rw [← newestSavedAt_savedScope hlater hown, ← get?_trim_record hkey]
  cases htrim : (trim (record file now scopeKey topic draft)).get? scopeKey with
  | none =>
    have hblank := (lastTopic_of_get?_none htrim hload).2
    exact absurd (hlast.symm.trans hblank) htopic
  | some s =>
    obtain ⟨old, hold, rfl⟩ := get?_trim_of_some htrim
    rw [get?_record hkey] at hold
    rw [Option.some.inj hold]

/-- What was kept reads back. -/
theorem right_of_kept (htopic : topic ≠ "") (hlater : Later file now)
    (hkept : Kept file now scopeKey topic draft) :
    SaveRight file now scopeKey topic draft
      (saveProducerDraft file now scopeKey topic draft).1 := by
  obtain ⟨hscope, hown, hrecent⟩ := hkept
  have hkey := ne_protoName_of_scope hscope
  rw [← newestSavedAt_savedScope hlater hown, ← get?_trim_record hkey] at hrecent
  rw [saveProducerDraft_of_scope hscope htopic, saveRight_trim_iff]
  refine ⟨toScope (trimDrafts (savedScope file now scopeKey topic draft)), ?_, ?_, ?_⟩
  · rw [loadProducerScope, hrecent]
  · rw [lastTopic_toScope, trimDrafts_lastTopic]
    rfl
  · intro haccepted
    rw [get?_toScope, draft_trimDrafts hlater haccepted (hown haccepted)]
    rfl

end Saving

/-- **A save is right** exactly if its scope and draft can be properties, and its scope is among the
ten saved last: an oversized body does not count as saved. -/
theorem save_right_iff (file : StoredFile) (now : ℚ) (scopeKey topic : String)
    (draft : ProducerDraft) (htopic : topic ≠ "")
    (hlater : ∀ k s, file.get? k = some s → ∀ t d, s.drafts.get? t = some d → d.savedAt < now) :
    SaveRight file now scopeKey topic draft (saveProducerDraft file now scopeKey topic draft).1 ↔
      Kept file now scopeKey topic draft :=
  ⟨kept_of_right htopic hlater, right_of_kept htopic hlater⟩

theorem ownEntries_empty_assign {scopeKey : String} (hkey : scopeKey ≠ protoName)
    (scope : StoredScope) :
    ((Record.empty : StoredFile).assign scopeKey scope).ownEntries = [(scopeKey, scope)] := by
  refine List.perm_singleton.mp ((Record.perm_ownEntries _).trans (List.Perm.of_eq ?_))
  rw [Record.assign, dif_neg hkey]
  rfl

/-- The first save reads back. -/
theorem first_save_right : SaveRight .empty 1 "kafka" "orders" ⟨"", "", some 0, "{}"⟩
    (saveProducerDraft .empty 1 "kafka" "orders" ⟨"", "", some 0, "{}"⟩).1 := by
  refine (save_right_iff .empty 1 "kafka" "orders" ⟨"", "", some 0, "{}"⟩ (by decide)
    (fun _ _ h => by cases h)).mpr ⟨.inr (by decide), fun _ => by decide, ?_⟩
  have hentries : ((Record.empty : StoredFile).assign "kafka" blankScope).ownEntries =
      [] ++ ("kafka", blankScope) :: [] := ownEntries_empty_assign (by decide) _
  rw [ahead_eq hentries List.not_mem_nil]
  decide

/-- A body of `n` bytes. -/
def bodyOf : ℕ → String
  | 0 => ""
  | n + 1 => (bodyOf n).push 'x'

theorem bodyBytes_bodyOf (n : ℕ) : bodyBytes (bodyOf n) = n := by
  induction n with
  | zero => rfl
  | succ n ih =>
    rw [bodyOf, bodyBytes, String.utf8ByteSize_push, ← bodyBytes, ih]
    rfl

/-- Ten connections with a draft each. -/
def tenScopes : StoredFile :=
  (["a", "b", "c", "d", "e", "f", "g", "h", "i", "j"].map fun scopeKey =>
    (scopeKey, ⟨"orders", Record.empty.assign "orders" ⟨"", "", 0, "{}", 1⟩⟩)).foldl
      (fun r (e : String × StoredScope) => r.assign e.1 e.2) .empty

theorem later_tenScopes : Later tenScopes 2 := by
  intro k s hs t d hd
  have hstored : ∀ e ∈ tenScopes.map.entries, ∀ x ∈ e.2.drafts.map.entries, x.2.savedAt < 2 := by
    decide
  exact hstored (k, s) (OrderedMap.mem_entries.mpr hs) (t, d) (OrderedMap.mem_entries.mpr hd)

/-- An eleventh connection sends a body that is not kept, and its topic is forgotten. -/
theorem oversized_forgotten : ¬SaveRight tenScopes 2 "k" "orders"
    ⟨"", "", some 0, bodyOf (256 * 1024 + 1)⟩ (saveProducerDraft tenScopes 2 "k" "orders"
      ⟨"", "", some 0, bodyOf (256 * 1024 + 1)⟩).1 := by
  intro hright
  have hrecent := (kept_of_right (by decide) later_tenScopes hright).recent
  have haccepted : ¬Accepted ⟨"", "", some 0, bodyOf (256 * 1024 + 1)⟩ := by
    rw [Accepted, bodyBytes_bodyOf]
    decide
  have hentries : (tenScopes.assign "k" blankScope).ownEntries =
      tenScopes.map.entries ++ ("k", blankScope) :: [] := by
    rw [Record.ownEntries_eq (by decide)]
    rfl
  have hall : ∀ e ∈ tenScopes.map.entries, decide (newestSavedAt
      ((tenScopes.get? "k").getD blankScope) ≤ newestSavedAt e.2) = true := fun e _ =>
    decide_eq_true (blankScope_oldest e.2)
  rw [standing, if_neg haccepted, ahead_eq hentries (by decide),
    List.countP_eq_length.mpr hall] at hrecent
  exact absurd (Nat.lt_of_le_of_lt (Nat.le_add_right _ _) hrecent) (by decide)

/-! ### Clearing a topic -/

/-- The draft of the topic is gone; the other topics and the open one stay. -/
theorem clearProducerDraft_scope {file : StoredFile} {scopeKey topic : String} {scope : StoredScope}
    (h : file.get? scopeKey = some scope) :
    ∃ cleared, (clearProducerDraft file scopeKey topic).1.get? scopeKey = some cleared ∧
      cleared.lastTopic = scope.lastTopic ∧ ∀ t, cleared.drafts.get? t =
        if t = topic then none else scope.drafts.get? t := by
  have hkey : scopeKey ≠ protoName := by
    rintro rfl
    rw [Record.get?_protoName] at h
    cases h
  refine ⟨{ scope with drafts := scope.drafts.remove topic }, ?_, rfl, fun t =>
    Record.get?_remove _ _ _⟩
  rw [clearProducerDraft, h]
  dsimp only
  rw [Record.get?_assign hkey, if_pos rfl]

end MqStudio.Hooks.ProducerDrafts
