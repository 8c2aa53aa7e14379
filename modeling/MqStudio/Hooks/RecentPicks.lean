import MqStudio.Hooks.ProducerDrafts
import MqStudio.Lib.Recency

/-!
# The topics and groups a picker remembers

`recentPicks.ts`: what was picked last on each connection is kept in the browser's storage, ten
topics and ten groups each, for at most ten connections.

* `readFile`, `stringify`: what is read from the text that is stored, and what is written.
* `recordRecentPick`, `loadRecentPicks`: the operations on what is stored.
* `held`: what a run should leave, the connections by their last pick; `mirrors_after` says that the
  stored file is that.
* `recent_picks_right`: a picker is offered the last ten distinct values that were picked since its
  connection was forgotten, and the connections that were picked on last are not forgotten.
-/

namespace MqStudio.Hooks.RecentPicks

open Lib Lib.Ranking Lib.Recency

/-! ### What is stored -/

inductive PickKind
  | topic
  | group
  deriving DecidableEq

def maxRecent : ℕ := 10
def maxScopes : ℕ := 10

structure StoredScope where
  topics : List String
  groups : List String
  updatedAt : ℚ

abbrev StoredFile := Record StoredScope

/-- What the stored text parses to.  Nothing looks at the others: null, a boolean, and a number that
is not finite. -/
inductive Parsed
  | text (s : String)
  | number (q : ℚ)
  | list (entries : List Parsed)
  | record (fields : List (String × Parsed))
  | other

/-- The rest of the loop of `sanitizeList`, with what it has so far. -/
def sanitizeFrom (out : List String) : List Parsed → List String
  | [] => out
  | .text entry :: rest =>
    if entry = "" ∨ entry ∈ out then sanitizeFrom out rest
    else if (out ++ [entry]).length = maxRecent then out ++ [entry]
    else sanitizeFrom (out ++ [entry]) rest
  | _ :: rest => sanitizeFrom out rest

def sanitizeList : Option Parsed → List String
  | some (.list entries) => sanitizeFrom [] entries
  | _ => []

def sanitizeTime : Option Parsed → ℚ
  | some (.number q) => q
  | _ => 0

def sanitizeScope : Parsed → Option StoredScope
  | .record fields => some {
      topics := sanitizeList (fields.lookup "topics")
      groups := sanitizeList (fields.lookup "groups")
      updatedAt := sanitizeTime (fields.lookup "updatedAt") }
  | _ => none

/-- One turn of the loop of `readFile`. -/
def readScope (file : StoredFile) (e : String × Parsed) : StoredFile :=
  match sanitizeScope e.2 with
  | some scope => file.assign e.1 scope
  | none => file

/-- None is stored where there is no text, or none that parses. -/
def readFile : Option Parsed → StoredFile
  | some (.record scopes) => scopes.foldl readScope .empty
  | _ => .empty

def stringifyScope (scope : StoredScope) : Parsed :=
  .record [("topics", .list (scope.topics.map .text)), ("groups", .list (scope.groups.map .text)),
    ("updatedAt", .number scope.updatedAt)]

def stringify (file : StoredFile) : Parsed :=
  .record (file.ownEntries.map fun e => (e.1, stringifyScope e.2))

/-- Drops the connections that were used longest ago. -/
def trim (file : StoredFile) : StoredFile :=
  if file.ownEntries.length ≤ maxScopes then file
  else .ofEntries ((descending (fun e => e.2.updatedAt) file.ownEntries).take maxScopes)

def listOf (scope : StoredScope) : PickKind → List String
  | .topic => scope.topics
  | .group => scope.groups

/-! ### The operations -/

/-- What a picker is offered, newest first; none where it is undefined, as the name is not stored
and every object inherits something under it. -/
def loadRecentPicks (stored : Option Parsed) (scopeKey : String) (kind : PickKind) :
    Option (List String) :=
  match (readFile stored).get? scopeKey with
  | some scope => some (listOf scope kind)
  | none => if scopeKey ∈ inheritedNames then none else some []

/-- One pick: the time it is made at, and whether there is room for the write. -/
structure Pick where
  scopeKey : String
  kind : PickKind
  value : String
  now : ℚ
  written : Bool

def blankScope : StoredScope := ⟨[], [], 0⟩

/-- The value in front of the others of its list. -/
def next (scope : StoredScope) (pick : Pick) : List String :=
  (pick.value :: (listOf scope pick.kind).filter (· ≠ pick.value)).take maxRecent

/-- What becomes of the scope of a pick. -/
def pickIn (scope : StoredScope) (pick : Pick) : StoredScope :=
  match pick.kind with
  | .topic => { scope with topics := next scope pick, updatedAt := pick.now }
  | .group => { scope with groups := next scope pick, updatedAt := pick.now }

/-- What is stored after it, and what it returns; none where it throws, as what is inherited has no
list, or where it is undefined. -/
def recordRecentPick (stored : Option Parsed) (pick : Pick) :
    Option Parsed × Option (List String) :=
  if pick.value = "" then (stored, loadRecentPicks stored pick.scopeKey pick.kind)
  else
    let file := readFile stored
    if file.get? pick.scopeKey = none ∧ pick.scopeKey ∈ inheritedNames then (stored, none)
    else
      let scope := (file.get? pick.scopeKey).getD blankScope
      let trimmed := trim (file.assign pick.scopeKey (pickIn scope pick))
      (if pick.written then some (stringify trimmed) else stored, some (next scope pick))

/-- What is stored after a run, the last pick of it first. -/
def after : List Pick → Option Parsed
  | [] => none
  | pick :: earlier => (recordRecentPick (after earlier) pick).1

/-! ### What a run should leave -/

/-- The picks that are recorded: an empty value is no pick, and a write can fail. -/
def recorded (log : List Pick) : List Pick := log.filter fun pick => pick.value ≠ "" ∧ pick.written

/-- The connections by their last pick, each with what was picked on it. -/
def held : List Pick → List (String × StoredScope)
  | [] => []
  | pick :: earlier =>
    (use pick.scopeKey (fun scope => pickIn (scope.getD blankScope) pick) (held earlier)).take
      maxScopes

/-- The picks on a connection since it was forgotten: it is, once ten others were picked on after
it. -/
def since (scopeKey : String) : List Pick → List Pick
  | [] => []
  | pick :: earlier =>
    if pick.scopeKey = scopeKey then pick :: since scopeKey earlier
    else if scopeKey ∈ (recents ((pick :: earlier).map Pick.scopeKey)).take maxScopes then
      since scopeKey earlier
    else []

/-- The values of one kind. -/
def values (kind : PickKind) (log : List Pick) : List String :=
  (log.filter fun pick => pick.kind = kind).map Pick.value

/-! ### What is accepted is well formed -/

/-- Distinct values, none empty, and no more than are kept. -/
structure Accepted (l : List String) : Prop where
  nodup : l.Nodup
  named : "" ∉ l
  few : l.length ≤ maxRecent

/-- The loop stops at the tenth value, so that there are never more. -/
theorem accepted_sanitizeFrom (entries : List Parsed) : ∀ {out : List String}, Accepted out →
    out.length < maxRecent → Accepted (sanitizeFrom out entries) := by
  induction entries with
  | nil => exact fun h _ => h
  | cons entry rest ih =>
    intro out h hroom
    cases entry with
    | text entry =>
      rw [sanitizeFrom]
      split
      · exact ih h hroom
      · next hnew =>
        rw [not_or] at hnew
        have hlength : (out ++ [entry]).length = out.length + 1 := List.length_append
        have hadded : Accepted (out ++ [entry]) :=
          { nodup := List.nodup_append.mpr ⟨h.nodup, List.nodup_singleton _, fun a ha b hb heq =>
              hnew.2 (List.mem_singleton.mp hb ▸ heq ▸ ha)⟩
            named := fun hmem => (List.mem_append.mp hmem).elim h.named fun hmem =>
              hnew.1 (List.mem_singleton.mp hmem).symm
            few := by omega }
        split
        · exact hadded
        · next hless => exact ih hadded (by omega)
    | number q => exact ih h hroom
    | list entries => exact ih h hroom
    | record fields => exact ih h hroom
    | other => exact ih h hroom

theorem accepted_sanitizeList (value : Option Parsed) : Accepted (sanitizeList value) := by
  have hnil : Accepted [] := ⟨List.nodup_nil, List.not_mem_nil, Nat.zero_le _⟩
  unfold sanitizeList
  split
  · exact accepted_sanitizeFrom _ hnil (by decide)
  · exact hnil

/-- What is accepted is read back as it was written. -/
theorem sanitizeFrom_text (l : List String) : ∀ {out : List String}, Accepted (out ++ l) →
    sanitizeFrom out (l.map .text) = out ++ l := by
  induction l with
  | nil => exact fun _ => (List.append_nil _).symm
  | cons entry l ih =>
    intro out h
    have hsplit : out ++ entry :: l = (out ++ [entry]) ++ l := List.append_cons _ _ _
    have hempty : entry ≠ "" := fun heq => h.named (by simp [heq])
    have hnew : entry ∉ out := fun hmem =>
      (List.nodup_append.mp h.nodup).2.2 entry hmem entry List.mem_cons_self rfl
    have hfew := h.few
    rw [hsplit, List.length_append] at hfew
    rw [List.map_cons, sanitizeFrom, if_neg (not_or.mpr ⟨hempty, hnew⟩)]
    split
    · next hlast =>
      have hnil : l = [] := List.length_eq_zero_iff.mp (by omega)
      rw [hnil]
    · rw [ih (hsplit ▸ h), hsplit]

theorem sanitizeScope_stringifyScope {scope : StoredScope}
    (h : ∀ kind, Accepted (listOf scope kind)) :
    sanitizeScope (stringifyScope scope) = some scope := by
  have htopics : sanitizeFrom [] (scope.topics.map .text) = scope.topics :=
    sanitizeFrom_text _ (h .topic)
  have hgroups : sanitizeFrom [] (scope.groups.map .text) = scope.groups :=
    sanitizeFrom_text _ (h .group)
  have hread : sanitizeScope (stringifyScope scope) = some ⟨sanitizeFrom [] (scope.topics.map .text),
    sanitizeFrom [] (scope.groups.map .text), scope.updatedAt⟩ := rfl
  rw [hread, htopics, hgroups]

theorem foldl_readScope {entries : List (String × StoredScope)}
    (h : ∀ e ∈ entries, ∀ kind, Accepted (listOf e.2 kind)) : ∀ file : StoredFile,
    (entries.map fun e => (e.1, stringifyScope e.2)).foldl readScope file =
      entries.foldl (fun r e => r.assign e.1 e.2) file := by
  induction entries with
  | nil => exact fun _ => rfl
  | cons e entries ih =>
    intro file
    rw [List.forall_mem_cons] at h
    rw [List.map_cons, List.foldl_cons, List.foldl_cons, ← ih h.2, readScope,
      sanitizeScope_stringifyScope h.1]

/-- **What is written is read back.** -/
theorem get?_readFile_stringify {file : StoredFile}
    (h : ∀ e ∈ file.ownEntries, ∀ kind, Accepted (listOf e.2 kind)) (scopeKey : String) :
    (readFile (some (stringify file))).get? scopeKey = file.get? scopeKey := by
  have hread : readFile (some (stringify file)) = .ofEntries file.ownEntries :=
    foldl_readScope h .empty
  have hiff : ∀ scope, (readFile (some (stringify file))).get? scopeKey = some scope ↔
      file.get? scopeKey = some scope := by
    intro scope
    rw [hread, Record.get?_ofEntries file.nodup_ownEntries fun _ => Record.ne_protoName_of_mem]
    exact Record.mem_ownEntries
  exact Option.ext hiff

/-! ### The file and what it should hold -/

/-- The entries are those of the file, and stand in the order of their times. -/
structure Mirrors (entries : List (String × StoredScope)) (file : StoredFile) : Prop where
  newest : entries.Pairwise fun a b => b.2.updatedAt < a.2.updatedAt
  same : ∀ e, e ∈ entries ↔ file.get? e.1 = some e.2

section Mirroring

variable {entries : List (String × StoredScope)} {file : StoredFile} {scopeKey : String}

theorem Mirrors.perm (h : Mirrors entries file) : entries.Perm file.ownEntries := by
  have hnodup : entries.Nodup := h.newest.imp fun hlt heq => by
    rw [heq] at hlt
    exact lt_irrefl _ hlt
  exact (List.perm_ext_iff_of_nodup hnodup file.nodup_ownEntries.of_map).mpr fun e =>
    (h.same e).trans Record.mem_ownEntries.symm

theorem Mirrors.lookup (h : Mirrors entries file) (scopeKey : String) :
    entries.lookup scopeKey = file.get? scopeKey := by
  cases hfound : entries.lookup scopeKey with
  | some scope => exact ((h.same (scopeKey, scope)).mp (mem_of_lookup hfound)).symm
  | none =>
    cases hget : file.get? scopeKey with
    | none => rfl
    | some scope =>
      have hmem : scopeKey ∈ entries.map Prod.fst :=
        List.mem_map_of_mem ((h.same (scopeKey, scope)).mpr hget)
      rw [← lookup_isSome_iff, hfound] at hmem
      cases hmem

/-- There are no two scopes of one time, so that their order by it is the only one. -/
theorem Mirrors.descending_eq (h : Mirrors entries file) :
    descending (fun e => e.2.updatedAt) file.ownEntries = entries := by
  have hperm := (perm_descending (fun e : String × StoredScope => e.2.updatedAt)
    file.ownEntries).trans h.perm.symm
  have hsorted : (descending (fun e => e.2.updatedAt) file.ownEntries).Pairwise
      fun a b : String × StoredScope => b.2.updatedAt ≤ a.2.updatedAt := ordered_descending _ _
  have hordered : entries.Pairwise fun a b => b.2.updatedAt ≤ a.2.updatedAt :=
    h.newest.imp le_of_lt
  refine List.Perm.eq_of_pairwise ?_ hsorted hordered hperm
  intro a b ha hb hab hba
  have htimes : (entries.map fun e => e.2.updatedAt).Nodup :=
    List.pairwise_map.mpr (h.newest.imp ne_of_gt)
  exact List.inj_on_of_nodup_map htimes (hperm.mem_iff.mp ha) hb (le_antisymm hba hab)

theorem Mirrors.trim (h : Mirrors entries file) :
    Mirrors (entries.take maxScopes) (trim file) where
  newest := h.newest.sublist (List.take_sublist _ _)
  same e := by
    have htrim : RecentPicks.trim file =
        ProducerDrafts.keepNewest (fun e => e.2.updatedAt) maxScopes file := rfl
    by_cases hfew : file.ownEntries.length ≤ maxScopes
    · have hall : entries.length ≤ maxScopes := h.perm.length_eq.trans_le hfew
      rw [htrim, ProducerDrafts.keepNewest, if_pos hfew, List.take_of_length_le hall, h.same]
    · rw [htrim, ProducerDrafts.get?_keepNewest hfew, h.descending_eq]

/-- A scope that is set at a later time stands in front. -/
theorem Mirrors.use (h : Mirrors entries file) (hkey : scopeKey ≠ protoName)
    (change : Option StoredScope → StoredScope)
    (hlater : ∀ e ∈ entries, e.2.updatedAt < (change (entries.lookup scopeKey)).updatedAt) :
    Mirrors (use scopeKey change entries)
      (file.assign scopeKey (change (file.get? scopeKey))) where
  newest := List.pairwise_cons.mpr
    ⟨fun e he => hlater e (List.mem_of_mem_filter he), h.newest.filter _⟩
  same e := by
    rw [mem_use, h.lookup, Record.get?_assign hkey, h.same]
    by_cases he : scopeKey = e.1
    · subst he
      simp [Prod.ext_iff, eq_comm]
    · have hne : e ≠ (scopeKey, change (file.get? scopeKey)) := fun heq => he (by rw [heq])
      simp [he, hne, Ne.symm he]

theorem Mirrors.written (h : Mirrors entries file)
    (haccepted : ∀ e ∈ entries, ∀ kind, Accepted (listOf e.2 kind)) :
    Mirrors entries (readFile (some (stringify file))) where
  newest := h.newest
  same e := by
    rw [h.same, get?_readFile_stringify fun e he => haccepted e (h.perm.mem_iff.mpr he)]

end Mirroring

/-! ### What is held -/

section Holding

variable {log earlier : List Pick} {pick : Pick} {scope : StoredScope} {e : String × StoredScope}

theorem listOf_pickIn (scope : StoredScope) (pick : Pick) (kind : PickKind) :
    listOf (pickIn scope pick) kind =
      if pick.kind = kind then next scope pick else listOf scope kind := by
  rw [pickIn]
  cases hpick : pick.kind <;> cases kind <;> rfl

theorem updatedAt_pickIn (scope : StoredScope) (pick : Pick) :
    (pickIn scope pick).updatedAt = pick.now := by
  rw [pickIn]
  cases pick.kind <;> rfl

theorem mem_held (h : e ∈ held (pick :: earlier)) :
    e = (pick.scopeKey, pickIn (((held earlier).lookup pick.scopeKey).getD blankScope) pick) ∨
      e ∈ held earlier :=
  (mem_use.mp (List.mem_of_mem_take h)).imp_right And.left

/-- Each connection has the time of one of the picks. -/
theorem time_held (h : e ∈ held log) : ∃ pick ∈ log, e.2.updatedAt = pick.now := by
  induction log with
  | nil => cases h
  | cons pick earlier ih =>
    rcases mem_held h with rfl | h
    · exact ⟨pick, List.mem_cons_self, updatedAt_pickIn _ _⟩
    · obtain ⟨pick', hmem, htime⟩ := ih h
      exact ⟨pick', List.mem_cons_of_mem _ hmem, htime⟩

theorem accepted_next (h : Accepted (listOf scope pick.kind)) (hnamed : pick.value ≠ "") :
    Accepted (next scope pick) where
  nodup := (nodup_touch h.nodup).sublist (List.take_sublist _ _)
  named hmem := (mem_touch.mp (List.mem_of_mem_take hmem)).elim (fun heq => hnamed heq.symm) h.named
  few := List.length_take_le _ _

theorem accepted_blankScope (kind : PickKind) : Accepted (listOf blankScope kind) := by
  cases kind <;> exact ⟨List.nodup_nil, List.not_mem_nil, Nat.zero_le _⟩

theorem accepted_held (hnamed : ∀ pick ∈ log, pick.value ≠ "") : ∀ e ∈ held log, ∀ kind,
    Accepted (listOf e.2 kind) := by
  induction log with
  | nil => exact fun e he => absurd he List.not_mem_nil
  | cons pick earlier ih =>
    intro e he kind
    rw [List.forall_mem_cons] at hnamed
    have hold := ih hnamed.2
    rcases mem_held he with rfl | he
    · have hprior : ∀ kind, Accepted
          (listOf (((held earlier).lookup pick.scopeKey).getD blankScope) kind) := by
        cases hfound : (held earlier).lookup pick.scopeKey with
        | none => exact accepted_blankScope
        | some scope => exact hold _ (mem_of_lookup hfound)
      rw [listOf_pickIn]
      split
      · exact accepted_next (hprior _) hnamed.1
      · exact hprior kind
    · exact hold e he kind

/-- The connections that are held are those that were picked on last. -/
theorem keys_held (log : List Pick) :
    (held log).map Prod.fst = (recents (log.map Pick.scopeKey)).take maxScopes := by
  induction log with
  | nil => rfl
  | cons pick earlier ih =>
    rw [held, List.map_take, keys_use, ih, List.map_cons, take_recents_cons]

theorem lookup_held_self (pick : Pick) (earlier : List Pick) :
    (held (pick :: earlier)).lookup pick.scopeKey =
      some (pickIn (((held earlier).lookup pick.scopeKey).getD blankScope) pick) := by
  have hkeys := keys_held (pick :: earlier)
  rw [held] at hkeys ⊢
  have hfront : pick.scopeKey ∈
      (recents ((pick :: earlier).map Pick.scopeKey)).take maxScopes := List.mem_cons_self
  rw [lookup_take, hkeys, if_pos hfront, lookup_use_self]

theorem lookup_held {scopeKey : String} (hother : pick.scopeKey ≠ scopeKey) :
    (held (pick :: earlier)).lookup scopeKey =
      if scopeKey ∈ (recents ((pick :: earlier).map Pick.scopeKey)).take maxScopes then
        (held earlier).lookup scopeKey
      else none := by
  have hkeys := keys_held (pick :: earlier)
  rw [held] at hkeys ⊢
  rw [lookup_take, hkeys, lookup_use (Ne.symm hother)]

theorem values_cons (kind : PickKind) (pick : Pick) (earlier : List Pick) :
    values kind (pick :: earlier) =
      if pick.kind = kind then pick.value :: values kind earlier else values kind earlier := by
  by_cases hkind : pick.kind = kind <;> simp [values, hkind]

/-- **What a connection holds** are the last distinct values since it was forgotten. -/
theorem listOf_held (log : List Pick) (scopeKey : String) : ∀ kind,
    listOf (((held log).lookup scopeKey).getD blankScope) kind =
      (recents (values kind (since scopeKey log))).take maxRecent := by
  induction log with
  | nil => intro kind; cases kind <;> rfl
  | cons pick earlier ih =>
    intro kind
    rw [since]
    by_cases hpicked : pick.scopeKey = scopeKey
    · subst hpicked
      rw [if_pos rfl, lookup_held_self, Option.getD_some, listOf_pickIn, values_cons]
      by_cases hkind : pick.kind = kind
      · subst hkind
        rw [if_pos rfl, if_pos rfl, take_recents_cons, ← ih]
        rfl
      · rw [if_neg hkind, if_neg hkind, ih]
    · rw [if_neg hpicked, lookup_held hpicked]
      split
      · exact ih kind
      · cases kind <;> rfl

/-- With no more connections than are kept, none is forgotten. -/
theorem since_eq_filter (scopeKey : String)
    (hfew : (recents (log.map Pick.scopeKey)).length ≤ maxScopes) :
    since scopeKey log = log.filter fun pick => pick.scopeKey = scopeKey := by
  induction log with
  | nil => rfl
  | cons pick earlier ih =>
    have hgrows : (recents (earlier.map Pick.scopeKey)).length ≤
        (recents ((pick :: earlier).map Pick.scopeKey)).length :=
      length_le_touch (nodup_recents _) _
    have ih := ih (hgrows.trans hfew)
    rw [since, List.take_of_length_le hfew]
    by_cases hpicked : pick.scopeKey = scopeKey
    · rw [if_pos hpicked, List.filter_cons_of_pos (by simpa using hpicked), ih]
    · rw [if_neg hpicked, List.filter_cons_of_neg (by simpa using hpicked), ih]
      refine ite_eq_left_iff.mpr fun hnone => (List.filter_eq_nil_iff.mpr ?_).symm
      intro pick' hmem heq
      exact hnone (mem_recents.mpr
        (List.mem_map.mpr ⟨pick', List.mem_cons_of_mem _ hmem, of_decide_eq_true heq⟩))

end Holding

/-! ### Whole runs -/

section Runs

variable {log : List Pick}

theorem ne_protoName_of_own {scopeKey : String} (h : scopeKey ∉ inheritedNames) :
    scopeKey ≠ protoName := by
  rintro rfl
  exact h (by decide)

/-- **One pick**: what is not recorded leaves what is stored. -/
theorem mirrors_step {stored : Option Parsed} {pick : Pick} {earlier : List Pick}
    (h : Mirrors (held (recorded earlier)) (readFile stored))
    (hown : pick.scopeKey ∉ inheritedNames) (hlater : ∀ pick' ∈ earlier, pick'.now < pick.now) :
    Mirrors (held (recorded (pick :: earlier))) (readFile (recordRecentPick stored pick).1) := by
  by_cases hvalue : pick.value = ""
  · have hkept : recorded (pick :: earlier) = recorded earlier :=
      List.filter_cons_of_neg (by simp [hvalue])
    rwa [hkept, recordRecentPick, if_pos hvalue]
  · rw [recordRecentPick, if_neg hvalue]
    dsimp only
    rw [if_neg fun hinherited => hown hinherited.2]
    by_cases hwritten : pick.written = true
    · have hadded : recorded (pick :: earlier) = pick :: recorded earlier :=
        List.filter_cons_of_pos (by simp [hvalue, hwritten])
      have hnamed : ∀ pick' ∈ pick :: recorded earlier, pick'.value ≠ "" := by
        rw [← hadded]
        intro pick' hmem
        exact (of_decide_eq_true (List.mem_filter.mp hmem).2).1
      rw [hadded, if_pos hwritten]
      refine Mirrors.written (Mirrors.trim (Mirrors.use h (ne_protoName_of_own hown)
        (fun scope => pickIn (scope.getD blankScope) pick) ?_)) (accepted_held hnamed)
      intro e he
      obtain ⟨pick', hmem, htime⟩ := time_held he
      rw [htime, updatedAt_pickIn]
      exact hlater pick' (List.mem_of_mem_filter hmem)
    · have hkept : recorded (pick :: earlier) = recorded earlier :=
        List.filter_cons_of_neg (by simp [hwritten])
      rwa [hkept, if_neg hwritten]

theorem mirrors_after (hclock : log.Pairwise fun later earlier => earlier.now < later.now)
    (hown : ∀ pick ∈ log, pick.scopeKey ∉ inheritedNames) :
    Mirrors (held (recorded log)) (readFile (after log)) := by
  induction log with
  | nil => exact ⟨.nil, fun e => ⟨fun he => absurd he List.not_mem_nil, fun hget => by cases hget⟩⟩
  | cons pick earlier ih =>
    obtain ⟨hlater, hclock⟩ := List.pairwise_cons.mp hclock
    rw [List.forall_mem_cons] at hown
    exact mirrors_step (ih hclock hown.2) hown.1 hlater

theorem loadRecentPicks_eq {entries : List (String × StoredScope)} {stored : Option Parsed}
    {scopeKey : String} (h : Mirrors entries (readFile stored)) (hkey : scopeKey ∉ inheritedNames)
    (kind : PickKind) : loadRecentPicks stored scopeKey kind =
      some (listOf ((entries.lookup scopeKey).getD blankScope) kind) := by
  rw [h.lookup, loadRecentPicks]
  cases (readFile stored).get? scopeKey with
  | some scope => rfl
  | none =>
    dsimp only
    rw [if_neg hkey]
    cases kind <;> rfl

/-- **A picker is offered** the last distinct values since its connection was forgotten, and the
connections that are stored are those that were picked on last. -/
theorem recent_picks_right (hclock : log.Pairwise fun later earlier => earlier.now < later.now)
    (hown : ∀ pick ∈ log, pick.scopeKey ∉ inheritedNames) :
    (∀ scopeKey ∉ inheritedNames, ∀ kind, loadRecentPicks (after log) scopeKey kind =
      some ((recents (values kind (since scopeKey (recorded log)))).take maxRecent)) ∧
    ∀ scopeKey, (readFile (after log)).get? scopeKey ≠ none ↔
      scopeKey ∈ (recents ((recorded log).map Pick.scopeKey)).take maxScopes := by
  have hmirrors := mirrors_after hclock hown
  refine ⟨fun scopeKey hkey kind => ?_, fun scopeKey => ?_⟩
  · rw [loadRecentPicks_eq hmirrors hkey, listOf_held]
  · rw [← keys_held, ← lookup_isSome_iff, hmirrors.lookup, Option.isSome_iff_ne_none]

/-- A value that is picked again moves to the front. -/
theorem picked_again :
    loadRecentPicks (after [⟨"1", .topic, "orders", 3, true⟩,
      ⟨"1", .topic, "events", 2, true⟩, ⟨"1", .topic, "orders", 1, true⟩]) "1" .topic =
        some ["orders", "events"] :=
  ((recent_picks_right (by decide) (by decide)).1 "1" (by decide) .topic).trans (by decide)

/-- What a pick returns is what a load returns after it, unless there was no room. -/
theorem returned_loaded {pick : Pick}
    (hclock : (pick :: log).Pairwise fun later earlier => earlier.now < later.now)
    (hown : ∀ pick' ∈ pick :: log, pick'.scopeKey ∉ inheritedNames) (hvalue : pick.value ≠ "")
    (hwritten : pick.written = true) : (recordRecentPick (after log) pick).2 =
      loadRecentPicks (after (pick :: log)) pick.scopeKey pick.kind := by
  have hkey := hown pick List.mem_cons_self
  have hbefore := mirrors_after (List.pairwise_cons.mp hclock).2
    (List.forall_mem_cons.mp hown).2
  have hadded : recorded (pick :: log) = pick :: recorded log :=
    List.filter_cons_of_pos (by simp [hvalue, hwritten])
  rw [loadRecentPicks_eq (mirrors_after hclock hown) hkey, hadded, lookup_held_self,
    Option.getD_some, listOf_pickIn, if_pos rfl, hbefore.lookup, recordRecentPick, if_neg hvalue]
  dsimp only
  rw [if_neg fun hinherited => hkey hinherited.2]

end Runs

end MqStudio.Hooks.RecentPicks
