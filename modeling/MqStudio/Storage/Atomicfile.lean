import MqStudio.Lib.Disk
import MqStudio.Lib.Transition

/-!
# Files that are written atomically

`storage/atomicfile`: a file is written beside the one that is there and renamed over it.  Any
number of writes are under way at once, in this process and in others, and `ClearCache` takes away
temporary files meanwhile; each system call is one step and may fail.

* `data_files_whole`: whatever happens, a power loss included, a data file is as it was at the start
  or holds all that some write was given.
* `writes_refine`: short of a power loss a run is one of a `Store`, in which a write replaces its
  file at once and returns nil, or leaves it alone and returns an error.
-/

namespace MqStudio.Storage

open Lib.Disk Lib.Transition

abbrev Bytes := List UInt8

/-! ### Names -/

def hasTmpSuffix (name : String) : Bool := ".tmp".toList.isSuffixOf name.toList

def containsTmp (name : String) : Bool := decide (".tmp-".toList <:+: name.toList)

/-- What `ClearCache` takes for temporary. -/
def isTemporary (name : String) : Bool := hasTmpSuffix name || containsTmp name

/-- `os.CreateTemp`: its random number stands for the last star of the pattern, or at the end. -/
def tempName (base : String) (rand : ℕ) : String :=
  let pattern := '.' :: base.toList ++ ".tmp-".toList
  let digits := (toString rand).toList
  if '*' ∈ pattern then
    String.ofList ((pattern.rdropWhile (· ≠ '*')).dropLast ++ digits ++
      pattern.rtakeWhile (· ≠ '*'))
  else String.ofList (pattern ++ digits)

theorem rtakeWhile_append_of_all {p : Char → Bool} {q suffix : List Char}
    (h : ∀ c ∈ suffix, p c = true) :
    (q ++ suffix).rtakeWhile p = q.rtakeWhile p ++ suffix := by
  rw [List.rtakeWhile, List.reverse_append, List.takeWhile_append_of_pos (by simpa using h),
    List.reverse_append, List.reverse_reverse]
  rfl

theorem isTemporary_tempName (base : String) (rand : ℕ) :
    isTemporary (tempName base rand) = true := by
  unfold isTemporary containsTmp
  rw [Bool.or_eq_true]
  right
  rw [decide_eq_true_iff]
  unfold tempName
  dsimp only
  split
  · simp only [String.toList_ofList]
    rw [rtakeWhile_append_of_all (by simp), ← List.append_assoc]
    exact (List.suffix_append _ _).isInfix
  · simp only [String.toList_ofList]
    exact List.infix_append _ _ _

/-- `layout.In`: the files of the directory. -/
def layoutFiles : List String :=
  ["settings.json", "connections.json", "tps-history.json", "secret.key"]

theorem not_isTemporary_layout : ∀ name ∈ layoutFiles, isTemporary name = false := by decide

/-! ### Calls -/

/-- A temporary file, and the write it is for. -/
structure Temp where
  name : String
  data : Bytes
  tmp : String
  file : ℕ
  temporary : isTemporary tmp = true

/-- Where a call is: in front of the system call that the state is named for. -/
inductive Call where
  | idle
  | making (name : String) (data : Bytes)
  | creating (name : String) (data : Bytes)
  | restricting (t : Temp)
  | writing (t : Temp) (rest : Bytes)
  | syncing (t : Temp)
  | closing (t : Temp)
  | moving (t : Temp)
  | removing (t : Temp) (err : String)
  /-- `ClearCache`, and the names its `ReadDir` has returned that it has still to look at. -/
  | clearing (entries : List String)
  | returned (err : Option String)

def Call.isIdle : Call → Bool
  | .idle => true
  | _ => false

/-- The directory, the calls, and the writes that were asked for. -/
structure World where
  disk : Directory UInt8
  calls : ℕ → Call
  asked : List (String × Bytes)

def World.setCall (w : World) (tid : ℕ) (call : Call) : World :=
  { w with calls := Function.update w.calls tid call }

inductive Label where
  | write (tid : ℕ) (name : String) (data : Bytes)
  | mkdirAll (tid : ℕ) (err : Option String)
  | createTemp (tid rand : ℕ) (err : Option String)
  | chmod (tid : ℕ) (err : Option String)
  /-- The next `n` bytes reach the file. -/
  | append (tid n : ℕ)
  | wrote (tid : ℕ) (err : Option String)
  | sync (tid : ℕ) (err : Option String)
  | close (tid : ℕ) (err : Option String)
  | rename (tid : ℕ) (err : Option String)
  | remove (tid : ℕ) (gone : Bool)
  | clearCache (tid : ℕ) (entries : List String)
  /-- The next name of the listing, whether it is older than an hour and whether it goes. -/
  | visit (tid : ℕ) (old gone : Bool)
  | powerLoss (after : Directory UInt8)

/-- A failure removes the temporary file and is returned. -/
def Temp.orRemove (t : Temp) (next : Call) : Option String → Call
  | none => next
  | some err => .removing t err

def World.createTemp (w : World) (tid : ℕ) (name : String) (data : Bytes) (rand : ℕ) :
    Option String → Option World
  | some err => some (w.setCall tid (.returned (some err)))
  | none =>
    let tmp := tempName name rand
    if (w.disk.entry tmp).isSome then none
    else some ({ w with disk := w.disk.create tmp }.setCall tid
      (.restricting ⟨name, data, tmp, w.disk.next, isTemporary_tempName name rand⟩))

def World.rename (w : World) (tid : ℕ) (t : Temp) : Option String → World
  | some err => w.setCall tid (.removing t err)
  | none =>
    match w.disk.rename t.tmp t.name with
    | none => w.setCall tid (.removing t "no such file or directory")
    | some disk => { w with disk := disk }.setCall tid (.returned none)

/-- Whether `ClearCache` takes a name away. -/
def isStale (name : String) (old : Bool) : Bool := hasTmpSuffix name || (containsTmp name && old)

def World.visit (w : World) (tid : ℕ) (old gone : Bool) : List String → World
  | [] => w.setCall tid (.returned none)
  | name :: rest =>
    { w with disk := if isStale name old && gone then w.disk.remove name else w.disk }.setCall tid
      (.clearing rest)

def World.step (w : World) : Label → Option World
  | .write tid name data =>
    if (w.calls tid).isIdle then
      some ({ w with asked := (name, data) :: w.asked }.setCall tid (.making name data))
    else none
  | .mkdirAll tid err =>
    match w.calls tid with
    | .making name data => some (w.setCall tid (match err with
        | some err => .returned (some err)
        | none => .creating name data))
    | _ => none
  | .createTemp tid rand err =>
    match w.calls tid with
    | .creating name data => w.createTemp tid name data rand err
    | _ => none
  | .chmod tid err =>
    match w.calls tid with
    | .restricting t => some (w.setCall tid (t.orRemove (.writing t t.data) err))
    | _ => none
  | .append tid n =>
    match w.calls tid with
    | .writing t rest => some ({ w with disk := w.disk.append t.file (rest.take n) }.setCall tid
        (.writing t (rest.drop n)))
    | _ => none
  | .wrote tid err =>
    match w.calls tid with
    | .writing t rest =>
      if err.isNone && !rest.isEmpty then none
      else some (w.setCall tid (t.orRemove (.syncing t) err))
    | _ => none
  | .sync tid err =>
    match w.calls tid with
    | .syncing t => some ({ w with disk := match err with
        | some _ => w.disk
        | none => w.disk.sync t.file }.setCall tid (t.orRemove (.closing t) err))
    | _ => none
  | .close tid err =>
    match w.calls tid with
    | .closing t => some (w.setCall tid (t.orRemove (.moving t) err))
    | _ => none
  | .rename tid err =>
    match w.calls tid with
    | .moving t => some (w.rename tid t err)
    | _ => none
  | .remove tid gone =>
    match w.calls tid with
    | .removing t err =>
      some ({ w with disk := if gone then w.disk.remove t.tmp else w.disk }.setCall tid
        (.returned (some err)))
    | _ => none
  | .clearCache tid entries =>
    if (w.calls tid).isIdle then some (w.setCall tid (.clearing entries)) else none
  | .visit tid old gone =>
    match w.calls tid with
    | .clearing entries => some (w.visit tid old gone entries)
    | _ => none
  | .powerLoss _ => none

/-- A directory whose files are on the disk, with `start` in them, before any call. -/
structure World.Started (start : String → Option Bytes) (w : World) : Prop where
  read : ∀ name, w.disk.read name = start name
  past : ∀ name, w.disk.past name = []
  synced : ∀ file, w.disk.synced file = true
  entry : ∀ name file, w.disk.entry name = some file → file < w.disk.next
  calls : ∀ tid, w.calls tid = .idle
  asked : w.asked = []

def files (start : String → Option Bytes) : System World Label where
  Init := World.Started start
  Step w label v := w.step label = some v ∨ ∃ after, label = .powerLoss after ∧
    Lost w.disk after ∧ v = { w with disk := after, calls := fun _ => .idle }

/-! ### Where a write stands -/

/-- The write a call is, from its start to its return. -/
def Call.asks : Call → Option (String × Bytes)
  | .making name data | .creating name data => some (name, data)
  | .restricting t | .writing t _ | .syncing t | .closing t | .moving t | .removing t _ =>
    some (t.name, t.data)
  | _ => none

/-- The temporary file a call has yet to put in place. -/
def Call.temp : Call → Option Temp
  | .restricting t | .writing t _ | .syncing t | .closing t | .moving t => some t
  | _ => none

/-- How far the temporary file is. -/
def Progress (d : Directory UInt8) : Call → Prop
  | .restricting t => d.content t.file = []
  | .writing t rest => d.content t.file ++ rest = t.data
  | .syncing t => d.content t.file = t.data
  | .closing t | .moving t => d.content t.file = t.data ∧ d.synced t.file = true
  | _ => True

theorem Progress.of_temp_eq_none {d : Directory UInt8} {call : Call} (h : call.temp = none) :
    Progress d call := by
  cases call with
  | restricting t | writing t rest | syncing t | closing t | moving t => cases h
  | _ => trivial

/-- No data file is the temporary one, which still has its name, unless it was taken away. -/
structure Temp.Owned (t : Temp) (d : Directory UInt8) : Prop where
  lt : t.file < d.next
  apart : ∀ name, isTemporary name = false → ¬ d.Refers name t.file
  entry : d.entry t.tmp = none ∨ d.entry t.tmp = some t.file

/-- What a data file may hold. -/
def Allowed (start : String → Option Bytes) (asked : List (String × Bytes)) (name : String)
    (o : Option Bytes) : Prop :=
  o = start name ∨ ∃ data, o = some data ∧ (name, data) ∈ asked

structure World.Inv (start : String → Option Bytes) (w : World) : Prop where
  holds : ∀ name, isTemporary name = false → Holds (Allowed start w.asked name) w.disk name
  asks : ∀ tid p, (w.calls tid).asks = some p → isTemporary p.1 = false ∧ p ∈ w.asked
  owned : ∀ tid t, (w.calls tid).temp = some t → t.Owned w.disk
  progress : ∀ tid, Progress w.disk (w.calls tid)
  distinct : ∀ i j s t, (w.calls i).temp = some s → (w.calls j).temp = some t → i ≠ j →
    s.file ≠ t.file

variable {start : String → Option Bytes} {w v : World} {tid : ℕ} {label : Label} {t : Temp}

/-- One file is written, or none; what the other writes have is as it was. -/
structure Keeps (w : World) (tid : ℕ) (d : Directory UInt8) : Prop where
  next : w.disk.next ≤ d.next
  entry : ∀ i, i ≠ tid → ∀ t, (w.calls i).temp = some t →
    d.entry t.tmp = none ∨ d.entry t.tmp = w.disk.entry t.tmp
  apart : ∀ i, i ≠ tid → ∀ t, (w.calls i).temp = some t → ∀ name, isTemporary name = false →
    d.Refers name t.file → w.disk.Refers name t.file
  content : ∀ i, i ≠ tid → ∀ t, (w.calls i).temp = some t →
    d.content t.file = w.disk.content t.file
  synced : ∀ i, i ≠ tid → ∀ t, (w.calls i).temp = some t → w.disk.synced t.file = true →
    d.synced t.file = true

theorem Keeps.rfl (w : World) (tid : ℕ) : Keeps w tid w.disk :=
  ⟨le_rfl, fun _ _ _ _ => Or.inr (Eq.refl _), fun _ _ _ _ _ _ h => h, fun _ _ _ _ => Eq.refl _,
    fun _ _ _ _ h => h⟩

theorem Progress.congr {d e : Directory UInt8} {call : Call} (h : Progress d call)
    (hcontent : ∀ t, call.temp = some t → e.content t.file = d.content t.file)
    (hsynced : ∀ t, call.temp = some t → d.synced t.file = true → e.synced t.file = true) :
    Progress e call := by
  cases call with
  | restricting t | writing t rest | syncing t =>
    have hc := hcontent t rfl
    simp only [Progress] at h ⊢
    rw [hc]
    exact h
  | closing t | moving t => exact ⟨(hcontent t rfl).trans h.1, hsynced t rfl h.2⟩
  | _ => trivial

/-- A call moves on, with the directory. -/
theorem World.Inv.move (h : w.Inv start) {d : Directory UInt8} {call : Call}
    (hkeeps : Keeps w tid d)
    (hholds : ∀ name, isTemporary name = false → Holds (Allowed start w.asked name) d name)
    (hasks : ∀ p, call.asks = some p → isTemporary p.1 = false ∧ p ∈ w.asked)
    (howned : ∀ t, call.temp = some t → t.Owned d) (hprogress : Progress d call)
    (hdistinct : ∀ s, call.temp = some s → ∀ i, i ≠ tid → ∀ t, (w.calls i).temp = some t →
      s.file ≠ t.file) :
    ({ w with disk := d }.setCall tid call).Inv start := by
  have hcall : ∀ i, i ≠ tid → ({ w with disk := d }.setCall tid call).calls i = w.calls i :=
    fun i hi => Function.update_of_ne hi ..
  have hself : ({ w with disk := d }.setCall tid call).calls tid = call :=
    Function.update_self ..
  refine ⟨hholds, fun i p hp => ?_, fun i t ht => ?_, fun i => ?_, fun i j s t hs ht hij => ?_⟩
  · by_cases hi : i = tid
    · subst hi
      rw [hself] at hp
      exact hasks p hp
    · rw [hcall i hi] at hp
      exact h.asks i p hp
  · by_cases hi : i = tid
    · subst hi
      rw [hself] at ht
      exact howned t ht
    · rw [hcall i hi] at ht
      have hold := h.owned i t ht
      refine ⟨lt_of_lt_of_le hold.lt hkeeps.next, fun name hn hr => ?_, ?_⟩
      · exact hold.apart name hn (hkeeps.apart i hi t ht name hn hr)
      · rcases hkeeps.entry i hi t ht with hnone | heq
        · exact Or.inl hnone
        · change d.entry t.tmp = none ∨ d.entry t.tmp = some t.file
          rw [heq]
          exact hold.entry
  · by_cases hi : i = tid
    · subst hi
      rw [hself]
      exact hprogress
    · rw [hcall i hi]
      exact (h.progress i).congr (hkeeps.content i hi) (hkeeps.synced i hi)
  · by_cases hi : i = tid
    · subst hi
      rw [hself] at hs
      have hj : j ≠ i := fun he => hij he.symm
      rw [hcall j hj] at ht
      exact hdistinct s hs j hj t ht
    · rw [hcall i hi] at hs
      by_cases hj : j = tid
      · subst hj
        rw [hself] at ht
        exact (hdistinct t ht i hi s hs).symm
      · rw [hcall j hj] at ht
        exact h.distinct i j s t hs ht hij

/-- A call moves on and the directory is as it was. -/
theorem World.Inv.stay (h : w.Inv start) {call : Call}
    (hasks : call.asks = none ∨ call.asks = (w.calls tid).asks)
    (htemp : call.temp = none ∨ call.temp = (w.calls tid).temp)
    (hprogress : Progress w.disk call) : (w.setCall tid call).Inv start := by
  refine h.move (d := w.disk) (Keeps.rfl w tid) h.holds (fun p hp => ?_) (fun t ht => ?_) hprogress
    fun s hs i hi t ht => ?_
  · rcases hasks with hn | he
    · rw [hn] at hp
      cases hp
    · exact h.asks tid p (he ▸ hp)
  · rcases htemp with hn | he
    · rw [hn] at ht
      cases ht
    · exact h.owned tid t (he ▸ ht)
  · rcases htemp with hn | he
    · rw [hn] at hs
      cases hs
    · exact h.distinct tid i s t (he ▸ hs) ht (Ne.symm hi)

/-! ### What each change of the directory keeps -/

theorem Temp.Owned.keep {d : Directory UInt8} (h : t.Owned w.disk) (hnext : w.disk.next ≤ d.next)
    (hentry : d.entry = w.disk.entry) (hpast : d.past = w.disk.past) : t.Owned d := by
  refine ⟨lt_of_lt_of_le h.lt hnext, fun name hn hr => h.apart name hn ?_, ?_⟩
  · rw [Directory.Refers, hentry, hpast] at hr
    exact hr
  · rw [hentry]
    exact h.entry

/-- The temporary file of a call is written. -/
theorem World.Inv.append (h : w.Inv start) {rest : Bytes} (hcall : w.calls tid = .writing t rest)
    (n : ℕ) : ({ w with disk := w.disk.append t.file (rest.take n) }.setCall tid
      (.writing t (rest.drop n))).Inv start := by
  have htemp : (w.calls tid).temp = some t := by rw [hcall]; rfl
  have howned := h.owned tid t htemp
  have hne : ∀ i, i ≠ tid → ∀ s, (w.calls i).temp = some s → s.file ≠ t.file :=
    fun i hi s hs => h.distinct i tid s t hs htemp hi
  have hprogress := h.progress tid
  rw [hcall] at hprogress
  refine h.move ⟨le_rfl, fun _ _ _ _ => Or.inr rfl, fun _ _ _ _ _ _ hr => hr,
      fun i hi s hs => content_append_of_ne (hne i hi s hs),
      fun i hi s hs hold => (synced_append_of_ne (hne i hi s hs)).trans hold⟩
    (fun name hn => (h.holds name hn).append (howned.apart name hn)) (fun p hp => ?_)
    (fun s hs => ?_) ?_ fun s hs i hi r hr => ?_
  · exact h.asks tid p (by rw [hcall]; exact hp)
  · obtain rfl := Option.some.inj hs
    exact howned.keep le_rfl rfl rfl
  · change (w.disk.append t.file (rest.take n)).content t.file ++ rest.drop n = t.data
    rw [content_append, List.append_assoc, List.take_append_drop]
    exact hprogress
  · obtain rfl := Option.some.inj hs
    exact (hne i hi r hr).symm

theorem World.Inv.sync (h : w.Inv start) (hcall : w.calls tid = .syncing t) :
    ({ w with disk := w.disk.sync t.file }.setCall tid (.closing t)).Inv start := by
  have htemp : (w.calls tid).temp = some t := by rw [hcall]; rfl
  have hprogress := h.progress tid
  rw [hcall] at hprogress
  refine h.move ⟨le_rfl, fun _ _ _ _ => Or.inr rfl, fun _ _ _ _ _ _ hr => hr,
      fun _ _ _ _ => rfl, fun _ _ _ _ hold => synced_sync hold⟩
    (fun name hn => (h.holds name hn).sync) (fun p hp => ?_) (fun s hs => ?_)
    ⟨hprogress, Function.update_self ..⟩ fun s hs i hi r hr => ?_
  · exact h.asks tid p (by rw [hcall]; exact hp)
  · obtain rfl := Option.some.inj hs
    exact (h.owned tid t htemp).keep le_rfl rfl rfl
  · obtain rfl := Option.some.inj hs
    exact h.distinct tid i t r htemp hr (Ne.symm hi)

/-- A name that no write in progress has is given to a new file. -/
theorem World.Inv.create (h : w.Inv start) {name : String} {data : Bytes}
    (hcall : w.calls tid = .creating name data) {tmp : String} (htmp : isTemporary tmp = true)
    (hfresh : ∀ i t, (w.calls i).temp = some t → t.tmp ≠ tmp) :
    ({ w with disk := w.disk.create tmp }.setCall tid
      (.restricting ⟨name, data, tmp, w.disk.next, htmp⟩)).Inv start := by
  have hlast : ∀ {name : String}, isTemporary name = false → name ≠ tmp := by
    rintro name hn rfl
    rw [htmp] at hn
    cases hn
  have hlt : ∀ i s, (w.calls i).temp = some s → s.file ≠ w.disk.next :=
    fun i s hs => (h.owned i s hs).lt.ne
  refine h.move ⟨Nat.le_succ _, fun i _ s hs => ?_, fun i _ s hs name hn hr => ?_,
      fun i _ s hs => content_create_of_ne (hlt i s hs),
      fun i _ s hs hold => (synced_create_of_ne (hlt i s hs)).trans hold⟩
    (fun name hn => (h.holds name hn).create (hlast hn)) (fun p hp => ?_) (fun s hs => ?_)
    content_create fun s hs i _ r hr => ?_
  · exact Or.inr (entry_create_of_ne (hfresh i s hs))
  · exact (refers_setEntry_of_ne (hlast hn)).mp hr
  · exact h.asks tid p (by rw [hcall]; exact hp)
  · obtain rfl := Option.some.inj hs
    refine ⟨Nat.lt_succ_self _, fun name hn hr => ?_, Or.inr entry_create⟩
    have hold : w.disk.Refers name w.disk.next := (refers_setEntry_of_ne (hlast hn)).mp hr
    exact lt_irrefl _ ((h.holds name hn).file _ hold).2
  · obtain rfl := Option.some.inj hs
    exact (hlt i r hr).symm

/-- The temporary file takes the place of the data file. -/
theorem World.Inv.rename (h : w.Inv start) (hcall : w.calls tid = .moving t) :
    ({ w with disk := (w.disk.setEntry t.name (some t.file)).setEntry t.tmp none }.setCall tid
      (.returned none)).Inv start := by
  have htemp : (w.calls tid).temp = some t := by rw [hcall]; rfl
  have howned := h.owned tid t htemp
  obtain ⟨hname, hasked⟩ := h.asks tid (t.name, t.data) (by rw [hcall]; rfl)
  have hprogress := h.progress tid
  rw [hcall] at hprogress
  obtain ⟨hcontent, hsynced⟩ := hprogress
  have hlast : ∀ {name other : String}, isTemporary name = false → isTemporary other = true →
      name ≠ other := by
    rintro name _ hn ho rfl
    rw [hn] at ho
    cases ho
  refine h.move ⟨le_rfl, fun i hi s hs => ?_, fun i hi s hs name hn hr => ?_, fun _ _ _ _ => rfl,
      fun _ _ _ _ hold => hold⟩ (fun name hn => ?_) nofun nofun trivial nofun
  · by_cases he : s.tmp = t.tmp
    · rw [he]
      exact Or.inl entry_setEntry
    · right
      have hne := (hlast hname s.temporary).symm
      rw [entry_setEntry_of_ne he, entry_setEntry_of_ne hne]
  · rw [refers_setEntry_of_ne (hlast hn t.temporary)] at hr
    by_cases he : name = t.name
    · subst he
      rcases refers_setEntry.mp hr with heq | hold
      · exact absurd (Option.some.inj heq) (h.distinct i tid s t hs htemp hi)
      · exact hold
    · exact (refers_setEntry_of_ne he).mp hr
  · refine Holds.setEntry_of_ne ?_ (hlast hn t.temporary)
    by_cases he : name = t.name
    · subst he
      refine (h.holds _ hn).setEntry hsynced howned.lt (Or.inr ⟨t.data, ?_, hasked⟩)
      rw [hcontent]
    · exact (h.holds name hn).setEntry_of_ne he

/-- A temporary name is taken away, or not. -/
theorem World.Inv.remove (h : w.Inv start) {name : String} (hname : isTemporary name = true)
    {gone : Bool} {call : Call} (hasks : call.asks = none) (htemp : call.temp = none) :
    ({ w with disk := if gone then w.disk.remove name else w.disk }.setCall tid call).Inv
      start := by
  have hlast : ∀ {other : String}, isTemporary other = false → other ≠ name := by
    rintro other ho rfl
    rw [ho] at hname
    cases hname
  cases gone with
  | false => exact h.stay (Or.inl hasks) (Or.inl htemp) (Progress.of_temp_eq_none htemp)
  | true =>
    have hnone : ∀ {β : Prop} {s : Temp}, call.temp = some s → β := by
      intro β s hs
      rw [htemp] at hs
      cases hs
    refine h.move ⟨le_rfl, fun i _ s _ => ?_, fun i _ s _ other hn hr => ?_, fun _ _ _ _ => rfl,
        fun _ _ _ _ hold => hold⟩ (fun other hn => (h.holds other hn).setEntry_of_ne (hlast hn))
      (fun p hp => ?_) (fun s hs => hnone hs) (Progress.of_temp_eq_none htemp)
      fun s hs => hnone hs
    · by_cases he : s.tmp = name
      · rw [he]
        exact Or.inl entry_setEntry
      · exact Or.inr (entry_setEntry_of_ne he)
    · exact (refers_setEntry_of_ne (hlast hn)).mp hr
    · rw [hasks] at hp
      cases hp

/-! ### Every step -/

/-- No write is asked for under a temporary name, and a random number brings up no name that a write
in progress has. -/
def Proper (w : World) : Label → Prop
  | .write _ name _ => isTemporary name = false
  | .createTemp tid rand _ => ∀ name data, w.calls tid = .creating name data →
    ∀ i t, (w.calls i).temp = some t → t.tmp ≠ tempName name rand
  | _ => True

theorem asks_of_isIdle {call : Call} (h : call.isIdle = true) : call = .idle := by
  cases call <;> first | rfl | cases h

theorem World.Inv.ask (h : w.Inv start) {name : String} {data : Bytes}
    (hn : isTemporary name = false) :
    ({ w with asked := (name, data) :: w.asked }.setCall tid (.making name data)).Inv start := by
  have hasked : { w with asked := (name, data) :: w.asked }.Inv start :=
    ⟨fun other ho => (h.holds other ho).mono fun o => Or.imp_right
        fun ⟨bytes, hb, hmem⟩ => ⟨bytes, hb, List.mem_cons_of_mem _ hmem⟩,
      fun i p hp => ⟨(h.asks i p hp).1, List.mem_cons_of_mem _ (h.asks i p hp).2⟩,
      h.owned, h.progress, h.distinct⟩
  refine hasked.move (d := w.disk) (Keeps.rfl _ tid) hasked.holds (fun p hp => ?_) nofun trivial
    nofun
  obtain rfl := Option.some.inj hp
  exact ⟨hn, List.mem_cons_self⟩

theorem World.Inv.orRemove (h : w.Inv start) (next : Call) (hasks : (w.calls tid).asks =
    some (t.name, t.data)) (hn : next.asks = some (t.name, t.data))
    (htemp : next.temp = (w.calls tid).temp) (hprogress : Progress w.disk next)
    (err : Option String) : (w.setCall tid (t.orRemove next err)).Inv start := by
  cases err with
  | none => exact h.stay (Or.inr (hn.trans hasks.symm)) (Or.inr htemp) hprogress
  | some err => exact h.stay (Or.inr hasks.symm) (Or.inl rfl) trivial

theorem isTemporary_of_isStale {name : String} {old : Bool} (h : isStale name old = true) :
    isTemporary name = true := by
  unfold isStale at h
  unfold isTemporary
  cases hs : hasTmpSuffix name with
  | true => rfl
  | false =>
    rw [hs, Bool.false_or, Bool.and_eq_true] at h
    rw [Bool.false_or]
    exact h.1

/-- **Every system call keeps the invariant.** -/
theorem World.Inv.step (h : w.Inv start) (hp : Proper w label) (hs : w.step label = some v) :
    v.Inv start := by
  cases label with
  | write tid name data =>
    simp only [World.step] at hs
    split at hs
    · obtain rfl := Option.some.inj hs
      exact h.ask hp
    · cases hs
  | mkdirAll tid err =>
    simp only [World.step] at hs
    split at hs
    · rename_i name data hcall
      obtain rfl := Option.some.inj hs
      cases err with
      | some err => exact h.stay (Or.inl rfl) (Or.inl rfl) trivial
      | none => exact h.stay (Or.inr (by rw [hcall]; rfl)) (Or.inl rfl) trivial
    · cases hs
  | createTemp tid rand err =>
    simp only [World.step] at hs
    split at hs
    · rename_i name data hcall
      cases err with
      | some err =>
        obtain rfl := Option.some.inj hs
        exact h.stay (Or.inl rfl) (Or.inl rfl) trivial
      | none =>
        unfold World.createTemp at hs
        dsimp only at hs
        split at hs
        · cases hs
        · obtain rfl := Option.some.inj hs
          exact h.create hcall (isTemporary_tempName name rand) (hp name data hcall)
    · cases hs
  | chmod tid err =>
    simp only [World.step] at hs
    split at hs
    · rename_i t hcall
      obtain rfl := Option.some.inj hs
      have hprogress := h.progress tid
      rw [hcall] at hprogress
      refine h.orRemove _ (by rw [hcall]; rfl) rfl (by rw [hcall]; rfl) ?_ err
      change w.disk.content t.file ++ t.data = t.data
      rw [show w.disk.content t.file = [] from hprogress, List.nil_append]
    · cases hs
  | append tid n =>
    simp only [World.step] at hs
    split at hs
    · rename_i t rest hcall
      obtain rfl := Option.some.inj hs
      exact h.append hcall n
    · cases hs
  | wrote tid err =>
    simp only [World.step] at hs
    split at hs
    · rename_i t rest hcall
      split at hs
      · cases hs
      · rename_i hrest
        obtain rfl := Option.some.inj hs
        have hprogress := h.progress tid
        rw [hcall] at hprogress
        cases err with
        | some err => exact h.stay (Or.inr (by rw [hcall]; rfl)) (Or.inl rfl) trivial
        | none =>
          obtain rfl : rest = [] := by simpa using hrest
          refine h.stay (Or.inr (by rw [hcall]; rfl)) (Or.inr (by rw [hcall]; rfl)) ?_
          change w.disk.content t.file = t.data
          rw [← show w.disk.content t.file ++ [] = t.data from hprogress, List.append_nil]
    · cases hs
  | sync tid err =>
    simp only [World.step] at hs
    split at hs
    · rename_i t hcall
      obtain rfl := Option.some.inj hs
      cases err with
      | some err => exact h.stay (Or.inr (by rw [hcall]; rfl)) (Or.inl rfl) trivial
      | none => exact h.sync hcall
    · cases hs
  | close tid err =>
    simp only [World.step] at hs
    split at hs
    · rename_i t hcall
      obtain rfl := Option.some.inj hs
      have hprogress := h.progress tid
      rw [hcall] at hprogress
      exact h.orRemove (.moving t) (by rw [hcall]; rfl) rfl (by rw [hcall]; rfl) hprogress err
    · cases hs
  | rename tid err =>
    simp only [World.step] at hs
    split at hs
    · rename_i t hcall
      obtain rfl := Option.some.inj hs
      cases err with
      | some err => exact h.stay (Or.inr (by rw [hcall]; rfl)) (Or.inl rfl) trivial
      | none =>
        unfold World.rename
        dsimp only
        cases hr : w.disk.rename t.tmp t.name with
        | none => exact h.stay (Or.inr (by rw [hcall]; rfl)) (Or.inl rfl) trivial
        | some disk =>
          obtain ⟨file, hfile, rfl⟩ := rename_some hr
          have howned := h.owned tid t (by rw [hcall]; rfl)
          rcases howned.entry with hnone | hsome
          · rw [hnone] at hfile
            cases hfile
          · obtain rfl := Option.some.inj (hsome.symm.trans hfile)
            exact h.rename hcall
    · cases hs
  | remove tid gone =>
    simp only [World.step] at hs
    split at hs
    · rename_i t err hcall
      obtain rfl := Option.some.inj hs
      exact h.remove t.temporary rfl rfl
    · cases hs
  | clearCache tid entries =>
    simp only [World.step] at hs
    split at hs
    · obtain rfl := Option.some.inj hs
      exact h.stay (Or.inl rfl) (Or.inl rfl) trivial
    · cases hs
  | visit tid old gone =>
    simp only [World.step] at hs
    split at hs
    · rename_i entries hcall
      obtain rfl := Option.some.inj hs
      cases entries with
      | nil =>
        change (w.setCall tid (.returned none)).Inv start
        exact h.stay (Or.inl rfl) (Or.inl rfl) trivial
      | cons name rest =>
        change ({ w with
          disk := if isStale name old && gone then w.disk.remove name else w.disk }.setCall tid
            (.clearing rest)).Inv start
        cases hstale : isStale name old with
        | true => exact h.remove (isTemporary_of_isStale hstale) rfl rfl
        | false =>
          change (w.setCall tid (.clearing rest)).Inv start
          exact h.stay (Or.inl rfl) (Or.inl rfl) trivial
    · cases hs
  | powerLoss after => cases hs

/-- A power loss ends every call and keeps the invariant. -/
theorem World.Inv.powerLoss (h : w.Inv start) {after : Directory UInt8} (hl : Lost w.disk after) :
    { w with disk := after, calls := fun _ => .idle }.Inv start :=
  ⟨fun name hn => (h.holds name hn).lost hl, nofun, nofun, fun _ => trivial, nofun⟩

theorem World.Started.inv (h : w.Started start) : w.Inv start := by
  have hidle : ∀ {β : Prop} {tid : ℕ} {p : String × Bytes}, (w.calls tid).asks = some p → β := by
    intro β tid p hp
    rw [h.calls] at hp
    cases hp
  have htemp : ∀ {β : Prop} {tid : ℕ} {t : Temp}, (w.calls tid).temp = some t → β := by
    intro β tid t ht
    rw [h.calls] at ht
    cases ht
  refine ⟨fun name _ => ⟨fun i hi => ⟨h.synced i, ?_⟩, fun e he => ?_⟩, fun _ _ hp => hidle hp,
    fun _ _ ht => htemp ht, fun tid => ?_, fun _ _ _ _ hs => htemp hs⟩
  · rw [Directory.Refers, h.past, List.mem_singleton] at hi
    exact h.entry name i hi.symm
  · rw [h.past, List.mem_singleton] at he
    subst he
    exact Or.inl (h.read name)
  · rw [h.calls]
    trivial

/-- The runs in which every step is `Proper`. -/
abbrev Run (start : String → Option Bytes) (w : World) : Prop :=
  Reachable ((files start).guard Proper) w

theorem Run.inv (h : Run start w) : w.Inv start := by
  refine Reachable.inv (P := World.Inv start) (fun w hw => World.Started.inv hw)
    (fun w label v hw hs => ?_) h
  obtain ⟨hs | ⟨after, rfl, hl, rfl⟩, hp⟩ := hs
  · exact hw.step hp hs
  · exact hw.powerLoss hl

/-- **A data file is whole**: in every state that is reached, calls and power losses behind it, it
is as it was at the start or holds all that some write was given for it. -/
theorem data_files_whole (h : Run start w) {name : String} (hn : isTemporary name = false) :
    w.disk.read name = start name ∨
      ∃ data, w.disk.read name = some data ∧ (name, data) ∈ w.asked :=
  (h.inv.holds name hn).read

theorem Run.system_call (h : Run start w) (label : Label) (hp : Proper w label)
    (hs : w.step label = some v) : Run start v := Reachable.step h ⟨Or.inl hs, hp⟩

/-- An empty directory. -/
def emptyWorld : World :=
  ⟨⟨fun _ => none, fun _ => [], fun _ => [], fun _ => true, 0⟩, fun _ => .idle, []⟩

theorem started_emptyWorld : emptyWorld.Started fun _ => none :=
  ⟨fun _ => rfl, fun _ => rfl, fun _ => rfl, nofun, fun _ => rfl, rfl⟩

/-- Settings are written there, up to the rename. -/
theorem settings_written : ∃ (w : World) (t : Temp), Run (fun _ => none) w ∧
    w.calls 0 = .moving t := by
  have h0 : Run (fun _ => none) emptyWorld := .init started_emptyWorld
  have h1 := h0.system_call (.write 0 "settings.json" [123, 125])
    (not_isTemporary_layout _ (by decide)) rfl
  have h2 := h1.system_call (.mkdirAll 0 none) trivial rfl
  have h3 := h2.system_call (.createTemp 0 7 none) (fun name data _ i t ht => by
    by_cases hi : i = 0
    · subst hi
      cases ht
    · have hidle : (emptyWorld.calls i).temp = some t := by
        simpa [World.setCall, hi] using ht
      cases hidle) rfl
  have h4 := h3.system_call (.chmod 0 none) trivial rfl
  have h5 := h4.system_call (.append 0 2) trivial rfl
  have h6 := h5.system_call (.wrote 0 none) trivial rfl
  have h7 := h6.system_call (.sync 0 none) trivial rfl
  have h8 := h7.system_call (.close 0 none) trivial rfl
  exact ⟨_, _, h8, rfl⟩

/-- The settings are not half there meanwhile. -/
theorem settings_whole : ∃ w, Run (fun _ => none) w ∧ (w.disk.read "settings.json" = none ∨
    ∃ data, w.disk.read "settings.json" = some data ∧ ("settings.json", data) ∈ w.asked) := by
  obtain ⟨w, t, h, -⟩ := settings_written
  exact ⟨w, h, data_files_whole h (not_isTemporary_layout _ (by decide))⟩

/-! ### What the writes are for -/

/-- A call as its caller sees it. -/
inductive Request where
  | idle
  | writing (name : String) (data : Bytes)
  | clearing
  | returned (err : Option String)

/-- A store of whole files, and the calls on it. -/
structure Store where
  contents : String → Option Bytes
  calls : ℕ → Request

def Store.setCall (s : Store) (tid : ℕ) (request : Request) : Store :=
  { s with calls := Function.update s.calls tid request }

/-- A write replaces its file at once and returns nil, or returns an error. -/
inductive Store.Step (s : Store) : Store → Prop
  | write (tid : ℕ) (name : String) (data : Bytes) : s.calls tid = .idle →
      Step s (s.setCall tid (.writing name data))
  | replace (tid : ℕ) (name : String) (data : Bytes) : s.calls tid = .writing name data →
      Step s ({ s with contents := Function.update s.contents name (some data) }.setCall tid
        (.returned none))
  | fail (tid : ℕ) (name : String) (data : Bytes) (err : String) :
      s.calls tid = .writing name data → Step s (s.setCall tid (.returned (some err)))
  | clear (tid : ℕ) : s.calls tid = .idle → Step s (s.setCall tid .clearing)
  | cleared (tid : ℕ) : s.calls tid = .clearing → Step s (s.setCall tid (.returned none))

def Call.request : Call → Request
  | .idle => .idle
  | .making name data | .creating name data => .writing name data
  | .restricting t | .writing t _ | .syncing t | .closing t | .moving t | .removing t _ =>
    .writing t.name t.data
  | .clearing _ => .clearing
  | .returned err => .returned err

/-- The data files of a directory, and its calls as their callers see them. -/
def World.store (w : World) : Store where
  contents name := if isTemporary name then none else w.disk.read name
  calls tid := (w.calls tid).request

theorem store_setCall {d : Directory UInt8} {call : Call}
    (hd : ∀ name, isTemporary name = false → d.read name = w.disk.read name) :
    ({ w with disk := d }.setCall tid call).store = w.store.setCall tid call.request := by
  have hcontents : ({ w with disk := d }.setCall tid call).store.contents = w.store.contents := by
    funext name
    cases hn : isTemporary name with
    | true => simp [World.store, hn]
    | false => simpa [World.store, hn, World.setCall] using hd name hn
  have hcalls : ({ w with disk := d }.setCall tid call).store.calls =
      Function.update w.store.calls tid call.request := by
    funext i
    by_cases hi : i = tid
    · subst hi
      simp [World.store, World.setCall]
    · simp [World.store, World.setCall, hi]
  exact congrArg₂ Store.mk hcontents hcalls

/-- A call goes on as its caller saw it. -/
theorem store_setCall_of_request {d : Directory UInt8} {call : Call}
    (hd : ∀ name, isTemporary name = false → d.read name = w.disk.read name)
    (hcall : call.request = (w.calls tid).request) :
    ({ w with disk := d }.setCall tid call).store = w.store := by
  rw [store_setCall hd, hcall]
  unfold Store.setCall
  change Store.mk w.store.contents (Function.update w.store.calls tid (w.store.calls tid)) = w.store
  rw [Function.update_eq_self]

theorem ne_of_isTemporary {name other : String} (hn : isTemporary name = false)
    (ho : isTemporary other = true) : name ≠ other := by
  rintro rfl
  rw [hn] at ho
  cases ho

/-- The store sees nothing of a temporary name that goes. -/
theorem read_remove_temporary {d : Directory UInt8} {tmp : String} (htmp : isTemporary tmp = true)
    (gone : Bool) (name : String) (hn : isTemporary name = false) :
    (if gone then d.remove tmp else d).read name = d.read name := by
  cases gone with
  | false => rfl
  | true => exact read_setEntry_of_ne (ne_of_isTemporary hn htmp)

/-- The rename of a whole temporary file replaces the data file. -/
theorem replaces (h : w.Inv start) (hcall : w.calls tid = .moving t) :
    w.store.Step ({ w with
      disk := (w.disk.setEntry t.name (some t.file)).setEntry t.tmp none }.setCall tid
        (.returned none)).store := by
  have hprogress := h.progress tid
  rw [hcall] at hprogress
  obtain ⟨hcontent, -⟩ := hprogress
  obtain ⟨hname, -⟩ := h.asks tid (t.name, t.data) (by rw [hcall]; rfl)
  have hstep := Store.Step.replace (s := w.store) tid t.name t.data
    (show (w.calls tid).request = _ by rw [hcall]; rfl)
  convert hstep using 1
  refine congrArg₂ Store.mk (funext fun name => ?_) (funext fun i => ?_)
  · change (if isTemporary name then none
      else ((w.disk.setEntry t.name (some t.file)).setEntry t.tmp none).read name) =
        Function.update w.store.contents t.name (some t.data) name
    cases hn : isTemporary name with
    | true =>
      have hne := (ne_of_isTemporary hname hn).symm
      rw [Function.update_of_ne hne]
      simp [World.store, hn]
    | false =>
      rw [if_neg Bool.false_ne_true, read_setEntry_of_ne (ne_of_isTemporary hn t.temporary)]
      by_cases he : name = t.name
      · subst he
        rw [Function.update_self, Directory.read, entry_setEntry]
        exact congrArg some hcontent
      · rw [Function.update_of_ne he, read_setEntry_of_ne he]
        simp [World.store, hn]
  · change ((Function.update w.calls tid (Call.returned none)) i).request =
      Function.update w.store.calls tid (.returned none) i
    by_cases hi : i = tid
    · subst hi
      rw [Function.update_self, Function.update_self]
      rfl
    · rw [Function.update_of_ne hi, Function.update_of_ne hi]
      rfl

/-- A failure of a system call, or its success, goes on as the caller saw it. -/
theorem store_orRemove {call : Call} (hw : (w.calls tid).request = .writing t.name t.data)
    (hcall : call.request = .writing t.name t.data) (err : Option String) :
    (w.setCall tid (t.orRemove call err)).store = w.store := by
  refine store_setCall_of_request (d := w.disk) (fun _ _ => rfl) ?_
  rw [hw]
  cases err with
  | none => exact hcall
  | some err => rfl

/-- A write that has not put its file in place returns an error. -/
theorem fails {d : Directory UInt8} {name : String} {data : Bytes}
    (hd : ∀ other, isTemporary other = false → d.read other = w.disk.read other)
    (hcall : (w.calls tid).request = .writing name data) (err : String) :
    w.store.Step ({ w with disk := d }.setCall tid (.returned (some err))).store := by
  rw [store_setCall hd]
  exact .fail tid name data err hcall

/-- A system call is a step of the store, or nothing there. -/
theorem refines_step (h : Run start w) (hp : Proper w label) (hs : w.step label = some v) :
    v.store = w.store ∨ w.store.Step v.store := by
  have hi := h.inv
  have hsame : ∀ name, isTemporary name = false → w.disk.read name = w.disk.read name :=
    fun _ _ => rfl
  cases label with
  | write tid name data =>
    simp only [World.step] at hs
    split at hs
    · rename_i hidle
      obtain rfl := Option.some.inj hs
      right
      have hstore : ({ w with asked := (name, data) :: w.asked }.setCall tid
          (.making name data)).store = w.store.setCall tid (.writing name data) :=
        store_setCall (w := { w with asked := (name, data) :: w.asked }) (d := w.disk) hsame
      rw [hstore]
      refine .write tid name data ?_
      change (w.calls tid).request = .idle
      rw [asks_of_isIdle hidle]
      rfl
    · cases hs
  | mkdirAll tid err =>
    simp only [World.step] at hs
    split at hs
    · rename_i name data hcall
      obtain rfl := Option.some.inj hs
      have hrequest : (w.calls tid).request = .writing name data := by rw [hcall]; rfl
      cases err with
      | some err => exact Or.inr (fails hsame hrequest err)
      | none => exact Or.inl (store_setCall_of_request hsame hrequest.symm)
    · cases hs
  | createTemp tid rand err =>
    simp only [World.step] at hs
    split at hs
    · rename_i name data hcall
      have hrequest : (w.calls tid).request = .writing name data := by rw [hcall]; rfl
      cases err with
      | some err =>
        obtain rfl := Option.some.inj hs
        exact Or.inr (fails hsame hrequest err)
      | none =>
        unfold World.createTemp at hs
        dsimp only at hs
        split at hs
        · cases hs
        · obtain rfl := Option.some.inj hs
          refine Or.inl (store_setCall_of_request (fun other ho => ?_) hrequest.symm)
          exact (hi.holds other ho).read_create
            (ne_of_isTemporary ho (isTemporary_tempName name rand))
    · cases hs
  | chmod tid err =>
    simp only [World.step] at hs
    split at hs
    · rename_i t hcall
      obtain rfl := Option.some.inj hs
      exact Or.inl (store_orRemove (by rw [hcall]; rfl) rfl err)
    · cases hs
  | append tid n =>
    simp only [World.step] at hs
    split at hs
    · rename_i t rest hcall
      obtain rfl := Option.some.inj hs
      have howned := hi.owned tid t (by rw [hcall]; rfl)
      exact Or.inl (store_setCall_of_request
        (fun name hn => read_append (howned.apart name hn)) (by rw [hcall]; rfl))
    · cases hs
  | wrote tid err =>
    simp only [World.step] at hs
    split at hs
    · rename_i t rest hcall
      split at hs
      · cases hs
      · obtain rfl := Option.some.inj hs
        exact Or.inl (store_orRemove (by rw [hcall]; rfl) rfl err)
    · cases hs
  | sync tid err =>
    simp only [World.step] at hs
    split at hs
    · rename_i t hcall
      obtain rfl := Option.some.inj hs
      left
      cases err with
      | some err => exact store_setCall_of_request hsame (by rw [hcall]; rfl)
      | none => exact store_setCall_of_request (fun _ _ => read_sync) (by rw [hcall]; rfl)
    · cases hs
  | close tid err =>
    simp only [World.step] at hs
    split at hs
    · rename_i t hcall
      obtain rfl := Option.some.inj hs
      exact Or.inl (store_orRemove (by rw [hcall]; rfl) rfl err)
    · cases hs
  | rename tid err =>
    simp only [World.step] at hs
    split at hs
    · rename_i t hcall
      obtain rfl := Option.some.inj hs
      cases err with
      | some err => exact Or.inl (store_setCall_of_request hsame (by rw [hcall]; rfl))
      | none =>
        unfold World.rename
        dsimp only
        cases hr : w.disk.rename t.tmp t.name with
        | none => exact Or.inl (store_setCall_of_request hsame (by rw [hcall]; rfl))
        | some disk =>
          obtain ⟨file, hfile, rfl⟩ := rename_some hr
          have howned := hi.owned tid t (by rw [hcall]; rfl)
          rcases howned.entry with hnone | hsome
          · rw [hnone] at hfile
            cases hfile
          · obtain rfl := Option.some.inj (hsome.symm.trans hfile)
            exact Or.inr (replaces hi hcall)
    · cases hs
  | remove tid gone =>
    simp only [World.step] at hs
    split at hs
    · rename_i t err hcall
      obtain rfl := Option.some.inj hs
      exact Or.inr (fails (read_remove_temporary t.temporary gone) (by rw [hcall]; rfl) err)
    · cases hs
  | clearCache tid entries =>
    simp only [World.step] at hs
    split at hs
    · rename_i hidle
      obtain rfl := Option.some.inj hs
      right
      have hstore : (w.setCall tid (.clearing entries)).store = w.store.setCall tid .clearing :=
        store_setCall (d := w.disk) hsame
      rw [hstore]
      refine .clear tid ?_
      change (w.calls tid).request = .idle
      rw [asks_of_isIdle hidle]
      rfl
    · cases hs
  | visit tid old gone =>
    simp only [World.step] at hs
    split at hs
    · rename_i entries hcall
      obtain rfl := Option.some.inj hs
      have hrequest : (w.calls tid).request = .clearing := by rw [hcall]; rfl
      cases entries with
      | nil =>
        right
        have hstore : (w.visit tid old gone []).store = w.store.setCall tid (.returned none) :=
          store_setCall (d := w.disk) hsame
        rw [hstore]
        exact .cleared tid hrequest
      | cons name rest =>
        left
        refine store_setCall_of_request (fun other ho => ?_) hrequest.symm
        cases hstale : isStale name old with
        | true => exact read_remove_temporary (isTemporary_of_isStale hstale) gone other ho
        | false => rfl
    · cases hs
  | powerLoss after => cases hs

/-- A `Proper` step that is no power loss. -/
def Powered (w : World) (label : Label) : Prop :=
  Proper w label ∧ ∀ after, label ≠ .powerLoss after

/-- **Short of a power loss the directory is a store of whole files**: a run between any two states
is a run of the store. -/
theorem writes_refine {labels : List Label} (h : Run start w)
    (hpath : Path ((files start).guard Powered) w labels v) :
    Relation.ReflTransGen Store.Step w.store v.store := by
  have hboth : Run start v ∧ Relation.ReflTransGen Store.Step w.store v.store := by
    induction hpath with
    | refl => exact ⟨h, .refl⟩
    | tail _ hst ih =>
      obtain ⟨hrun, hpast⟩ := ih
      obtain ⟨hs | ⟨after, hl, -⟩, hp, hpower⟩ := hst
      · refine ⟨hrun.system_call _ hp hs, ?_⟩
        rcases refines_step hrun hp hs with heq | hstep
        · rw [heq]
          exact hpast
        · exact hpast.tail hstep
      · exact absurd hl (hpower after)
  exact hboth.2

/-- The settings are put in place. -/
theorem settings_replaced : ∃ w v, Run (fun _ => none) w ∧ w.step (.rename 0 none) = some v ∧
    Relation.ReflTransGen Store.Step w.store v.store := by
  obtain ⟨w, t, h, hcall⟩ := settings_written
  have hs : w.step (.rename 0 none) = some (w.rename 0 t none) := by
    simp only [World.step, hcall]
  have hpath : Path ((files fun _ => none).guard Powered) w [.rename 0 none] (w.rename 0 t none) :=
    .tail (.refl w) ⟨Or.inl hs, trivial, nofun⟩
  exact ⟨w, _, h, hs, writes_refine h hpath⟩

end MqStudio.Storage
