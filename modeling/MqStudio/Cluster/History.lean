import MqStudio.Lib.Text
import MqStudio.Lib.Timeline
import MqStudio.Lib.Transition

/-!
# The throughput history of brokers

`service/cluster/history.go`: the collector's rates are kept in one sample a minute for the last
hour, by connection and broker, and written to a file when they change.

* `recordBrokerTPS`: one call of the collector, over a history shared by all connections.
* `mem_upsertTPSSample`, `mem_normalizeTPSSamples`: what is left of a history, and what is added.
* `history_stays_clean`: what holds after every call, whatever the clock does.
-/

namespace MqStudio.Cluster.History

open Std (ExtTreeMap)
open Lib.Maps Lib.Text Lib.Timeline Lib.Transition

/-! ### Histories -/

structure BrokerTPSSample where
  timestamp : Int
  tpsIn : Int
  tpsOut : Int
deriving DecidableEq

def tpsHistoryFileVersion : Int := 1
def tpsHistoryMinutes : ℕ := 60
def secondsPerMinute : Int := 60

/-- The stored histories by key; the file may hold a null in the place of one. -/
abbrev Histories := ExtTreeMap String (Option (List BrokerTPSSample)) compare

inductive NodeStatus where
  | online
  | warning
  | offline
  | unknown
deriving DecidableEq

structure Node where
  address : String
  status : NodeStatus
  rateIn : Int
  rateOut : Int
  tpsHistoryTimestamps : List Int
  tpsInHistory : List Int
  tpsOutHistory : List Int

def tpsHistoryKey (connID : Int) (address : String) : String := toString connID ++ "|" ++ address

/-- The last sample of the same minute gives way to a new one. -/
def replaceLast (sample : BrokerTPSSample) :
    List BrokerTPSSample → Option (List BrokerTPSSample × Bool)
  | [] => none
  | current :: later =>
    match replaceLast sample later with
    | some (later, changed) => some (current :: later, changed)
    | none =>
      if current.timestamp ≠ sample.timestamp then none
      else if current.tpsIn = sample.tpsIn ∧ current.tpsOut = sample.tpsOut then
        some (current :: later, false)
      else some (sample :: later, true)

def sortByTime (samples : List BrokerTPSSample) : List BrokerTPSSample :=
  samples.mergeSort fun a b => a.timestamp ≤ b.timestamp

/-- A history with a sample, and whether it is another history. -/
def upsertTPSSample (samples : List BrokerTPSSample) (sample : BrokerTPSSample) :
    List BrokerTPSSample × Bool :=
  match replaceLast sample samples with
  | some replaced => replaced
  | none => (sortByTime (samples ++ [sample]), true)

def copyTPSHistoryToBroker (samples : List BrokerTPSSample) (broker : Node) : Node :=
  { broker with
    tpsHistoryTimestamps := samples.map (·.timestamp)
    tpsInHistory := samples.map (·.tpsIn)
    tpsOutHistory := samples.map (·.tpsOut) }

def normalizeTPSSamples (samples : List BrokerTPSSample) (cutoff nowMinute : Int) :
    List BrokerTPSSample :=
  inOrder (within BrokerTPSSample.timestamp cutoff nowMinute samples)

/-- Where the hour that ends at a minute begins. -/
def cutoffOf (nowMinute : Int) : Int := nowMinute - (tpsHistoryMinutes - 1) * secondsPerMinute

/-- What pruning leaves of one history. -/
def pruned (nowMinute : Int) :
    Option (List BrokerTPSSample) → Option (Option (List BrokerTPSSample))
  | none => none
  | some samples =>
    let normalized := normalizeTPSSamples samples (cutoffOf nowMinute) nowMinute
    if normalized = [] then none else some (some normalized)

def pruneTPSHistory (history : Histories) (nowMinute : Int) : Histories × Bool :=
  (history.filterMap fun _ samples => pruned nowMinute samples,
    history.toList.any fun (_, samples) => decide (pruned nowMinute samples ≠ some samples))

/-! ### The service -/

/-- What reading the history file gives. -/
inductive HistoryFile where
  | missing
  | unreadable
  | malformed
  | store (version : Int) (brokers : Option Histories)

structure Service where
  history : Histories
  historyFilePath : String
  /-- What the service has written last. -/
  written : Option Histories

/-- One call of the collector: the connection, the clock in seconds, what the driver reported, and
whether the file can be written. -/
structure Call where
  connID : Int
  now : Int
  brokers : List (Option Node)
  writable : Bool

def minuteOf (seconds : Int) : Int := seconds - seconds % secondsPerMinute

def loadTPSHistory (path : String) (file : HistoryFile) (now : Int) : Histories :=
  if trimSpace path = "" then ∅
  else
    match file with
    | .store version (some brokers) =>
      if version > tpsHistoryFileVersion then ∅ else (pruneTPSHistory brokers (minuteOf now)).1
    | _ => ∅

def Service.new (path : String) (file : HistoryFile) (now : Int) : Service :=
  ⟨loadTPSHistory path file now, path, none⟩

/-- The sample of a broker, where it is online and says its rates. -/
def sampleOf (nowMinute : Int) (broker : Node) : Option BrokerTPSSample :=
  if broker.status = .online ∧ 0 ≤ broker.rateIn ∧ 0 ≤ broker.rateOut then
    some ⟨nowMinute, broker.rateIn, broker.rateOut⟩
  else none

/-- A call part way through its brokers. -/
structure Recording where
  history : Histories
  changed : Bool
  nodes : List (Option Node)

/-- One entry of the list; a broker without an address is passed over. -/
def recordOne (connID nowMinute : Int) (r : Recording) : Option Node → Recording
  | none => { r with nodes := r.nodes ++ [none] }
  | some broker =>
    if broker.address = "" then { r with nodes := r.nodes ++ [some broker] }
    else
      let key := tpsHistoryKey connID broker.address
      match (r.history[key]?).join, sampleOf nowMinute broker with
      | none, none => { r with nodes := r.nodes ++ [some (copyTPSHistoryToBroker [] broker)] }
      | some samples, none =>
        { r with nodes := r.nodes ++ [some (copyTPSHistoryToBroker samples broker)] }
      | samples, some sample =>
        let (samples, changed) := upsertTPSSample (samples.getD []) sample
        { history := r.history.insert key (some samples)
          changed := changed || r.changed
          nodes := r.nodes ++ [some (copyTPSHistoryToBroker samples broker)] }

def recorded (history : Histories) (call : Call) : Recording :=
  let pruned := pruneTPSHistory history (minuteOf call.now)
  call.brokers.foldl (recordOne call.connID (minuteOf call.now)) ⟨pruned.1, pruned.2, []⟩

def recordBrokerTPS (s : Service) (call : Call) : Service :=
  let r := recorded s.history call
  if !r.changed || trimSpace s.historyFilePath = "" || !call.writable then
    { s with history := r.history }
  else { s with history := r.history, written := some r.history }

/-! ### One sample -/

section Upsert

variable {sample : BrokerTPSSample} {samples : List BrokerTPSSample}

theorem replaceLast_eq_none (h : replaceLast sample samples = none) :
    ∀ x ∈ samples, x.timestamp ≠ sample.timestamp := by
  induction samples with
  | nil => nofun
  | cons current later ih =>
    rw [replaceLast] at h
    split at h
    case h_1 => nomatch h
    case h_2 hlater =>
      split at h
      case isTrue hne => exact List.forall_mem_cons.mpr ⟨hne, ih hlater⟩
      case isFalse => split at h <;> nomatch h

/-- A sample that is replaced keeps its place. -/
theorem replaceLast_eq_some {l : List BrokerTPSSample} {changed : Bool}
    (h : replaceLast sample samples = some (l, changed))
    (hsamples : Increasing BrokerTPSSample.timestamp samples) :
    l.map (·.timestamp) = samples.map (·.timestamp) ∧
      (∀ x, x ∈ l ↔ x = sample ∨ (x ∈ samples ∧ x.timestamp ≠ sample.timestamp)) ∧
      (changed = false → l = samples) := by
  induction samples generalizing l changed with
  | nil => nomatch h
  | cons current later ih =>
    obtain ⟨hbefore, hlater⟩ := List.pairwise_cons.mp hsamples
    rw [replaceLast] at h
    split at h
    case h_1 l' changed' hl' =>
      obtain ⟨rfl, rfl⟩ := Prod.mk.inj (Option.some.inj h)
      obtain ⟨htimes, hmem, hsame⟩ := ih hl' hlater
      have hcurrent : current.timestamp ≠ sample.timestamp := by
        have hin : sample.timestamp ∈ later.map (·.timestamp) := by
          rw [← htimes]
          exact List.mem_map_of_mem ((hmem sample).mpr (.inl rfl))
        obtain ⟨x, hx, hxt⟩ := List.mem_map.mp hin
        have := hbefore x hx
        omega
      refine ⟨by rw [List.map_cons, List.map_cons, htimes], fun x => ?_, fun hc => ?_⟩
      · rw [List.mem_cons, List.mem_cons, hmem]
        constructor
        · rintro (rfl | rfl | ⟨hx, hne⟩)
          exacts [.inr ⟨.inl rfl, hcurrent⟩, .inl rfl, .inr ⟨.inr hx, hne⟩]
        · rintro (rfl | ⟨rfl | hx, hne⟩)
          exacts [.inr (.inl rfl), .inl rfl, .inr (.inr ⟨hx, hne⟩)]
      · rw [hsame hc]
    case h_2 hnone =>
      have hother := replaceLast_eq_none hnone
      split at h
      case isTrue => nomatch h
      case isFalse htime =>
        have htime : current.timestamp = sample.timestamp := not_not.mp htime
        have hmem : ∀ x, x ∈ sample :: later ↔
            x = sample ∨ (x ∈ current :: later ∧ x.timestamp ≠ sample.timestamp) := by
          intro x
          rw [List.mem_cons, List.mem_cons]
          constructor
          · rintro (rfl | hx)
            exacts [.inl rfl, .inr ⟨.inr hx, hother x hx⟩]
          · rintro (rfl | ⟨rfl | hx, hne⟩)
            exacts [.inl rfl, absurd htime hne, .inr hx]
        split at h
        case isTrue hrates =>
          obtain ⟨rfl, rfl⟩ := Prod.mk.inj (Option.some.inj h)
          obtain rfl : current = sample := by
            cases current; cases sample; simp_all
          exact ⟨rfl, hmem, fun _ => rfl⟩
        case isFalse =>
          obtain ⟨rfl, rfl⟩ := Prod.mk.inj (Option.some.inj h)
          exact ⟨by rw [List.map_cons, List.map_cons, htime], hmem, nofun⟩

theorem increasing_iff_map : Increasing BrokerTPSSample.timestamp samples ↔
    (samples.map (·.timestamp)).Pairwise (· < ·) := by
  rw [List.pairwise_map, Increasing]

theorem increasing_sortByTime (h : (samples.map (·.timestamp)).Nodup) :
    Increasing BrokerTPSSample.timestamp (sortByTime samples) := by
  have hsorted : (sortByTime samples).Pairwise fun a b => a.timestamp ≤ b.timestamp := by
    refine (List.pairwise_mergeSort ?_ ?_ samples).imp fun h => of_decide_eq_true h
    · intro a b c hab hbc
      simp only [decide_eq_true_eq] at hab hbc ⊢
      exact Int.le_trans hab hbc
    · intro a b
      simp only [Bool.or_eq_true, decide_eq_true_eq]
      exact Int.le_total _ _
  have hnodup : ((sortByTime samples).map (·.timestamp)).Nodup :=
    ((List.mergeSort_perm _ _).map _).nodup_iff.mpr h
  exact hsorted.imp₂ (fun _ _ hle hne => Int.lt_iff_le_and_ne.mpr ⟨hle, hne⟩)
    (List.pairwise_map.mp hnodup)

theorem nodup_times (h : Increasing BrokerTPSSample.timestamp samples) :
    (samples.map (·.timestamp)).Nodup :=
  (increasing_iff_map.mp h).imp Int.ne_of_lt

theorem increasing_upsertTPSSample (h : Increasing BrokerTPSSample.timestamp samples) :
    Increasing BrokerTPSSample.timestamp (upsertTPSSample samples sample).1 := by
  rw [upsertTPSSample]
  split
  case h_1 replaced hreplaced =>
    obtain ⟨htimes, _, _⟩ := replaceLast_eq_some hreplaced h
    rwa [increasing_iff_map, htimes, ← increasing_iff_map]
  case h_2 hnone =>
    refine increasing_sortByTime ?_
    rw [List.map_append, List.map_singleton, List.nodup_append]
    refine ⟨nodup_times h, List.nodup_singleton _, fun t ht t' ht' => ?_⟩
    obtain ⟨x, hx, rfl⟩ := List.mem_map.mp ht
    obtain rfl := List.mem_singleton.mp ht'
    exact replaceLast_eq_none hnone x hx

/-- **What a sample adds**: itself, in the place of the one of its minute. -/
theorem mem_upsertTPSSample (h : Increasing BrokerTPSSample.timestamp samples)
    (x : BrokerTPSSample) : x ∈ (upsertTPSSample samples sample).1 ↔
      x = sample ∨ (x ∈ samples ∧ x.timestamp ≠ sample.timestamp) := by
  rw [upsertTPSSample]
  split
  case h_1 replaced hreplaced => exact (replaceLast_eq_some hreplaced h).2.1 x
  case h_2 hnone =>
    rw [sortByTime, List.mem_mergeSort, List.mem_append, List.mem_singleton, or_comm]
    exact or_congr_right ⟨fun hx => ⟨hx, replaceLast_eq_none hnone x hx⟩, (·.1)⟩

theorem upsertTPSSample_of_not_changed (h : Increasing BrokerTPSSample.timestamp samples)
    (hsame : (upsertTPSSample samples sample).2 = false) :
    (upsertTPSSample samples sample).1 = samples := by
  rw [upsertTPSSample] at hsame ⊢
  split at hsame
  case h_1 replaced hreplaced => exact (replaceLast_eq_some hreplaced h).2.2 hsame
  case h_2 => nomatch hsame

end Upsert

/-! ### Pruning -/

/-- The samples of a history, none where there is none. -/
def stored (history : Histories) (key : String) : List BrokerTPSSample :=
  ((history[key]?).join).getD []

/-- Every history is a timeline of whole minutes. -/
def Timelines (history : Histories) : Prop :=
  ∀ (key : String) h, history[key]? = some h → ∃ samples, h = some samples ∧
    Increasing BrokerTPSSample.timestamp samples ∧
    ∀ x ∈ samples, secondsPerMinute ∣ x.timestamp

/-- Every history lies in the hour that ends at a minute. -/
def InHour (nowMinute : Int) (history : Histories) : Prop :=
  ∀ (key : String), ∀ x ∈ stored history key,
    cutoffOf nowMinute ≤ x.timestamp ∧ x.timestamp ≤ nowMinute

/-- The samples of a file are those of whole minutes. -/
def WholeMinutes (history : Histories) : Prop :=
  ∀ (key : String), ∀ x ∈ stored history key, secondsPerMinute ∣ x.timestamp

theorem getElem?_pruneTPSHistory (history : Histories) (nowMinute : Int) (key : String) :
    (pruneTPSHistory history nowMinute).1[key]? =
      (history[key]?).bind fun samples => pruned nowMinute samples := by
  rw [pruneTPSHistory, ExtTreeMap.getElem?_filterMap']

theorem mem_of_mem_normalizeTPSSamples {samples : List BrokerTPSSample} {cutoff nowMinute : Int}
    {x : BrokerTPSSample} (h : x ∈ normalizeTPSSamples samples cutoff nowMinute) :
    x ∈ samples ∧ cutoff ≤ x.timestamp ∧ x.timestamp ≤ nowMinute := by
  obtain ⟨hx, _, hin⟩ := of_getElem?_within ((mem_inOrder keyed_within).mp h)
  exact ⟨hx, hin⟩

theorem normalizeTPSSamples_nil (cutoff nowMinute : Int) :
    normalizeTPSSamples [] cutoff nowMinute = [] :=
  List.eq_nil_iff_forall_not_mem.mpr fun _ hx => nomatch (mem_of_mem_normalizeTPSSamples hx).1

theorem stored_pruneTPSHistory (history : Histories) (nowMinute : Int) (key : String) :
    stored (pruneTPSHistory history nowMinute).1 key =
      normalizeTPSSamples (stored history key) (cutoffOf nowMinute) nowMinute := by
  rw [stored, getElem?_pruneTPSHistory, stored]
  rcases history[key]? with _ | _ | samples
  · exact (normalizeTPSSamples_nil _ _).symm
  · exact (normalizeTPSSamples_nil _ _).symm
  · rw [Option.bind_some, pruned]
    split
    case isTrue hnil => exact hnil.symm
    case isFalse => rfl

theorem inHour_pruneTPSHistory (history : Histories) (nowMinute : Int) :
    InHour nowMinute (pruneTPSHistory history nowMinute).1 := by
  intro key x hx
  rw [stored_pruneTPSHistory] at hx
  exact (mem_of_mem_normalizeTPSSamples hx).2

theorem timelines_pruneTPSHistory {history : Histories} (h : WholeMinutes history)
    (nowMinute : Int) : Timelines (pruneTPSHistory history nowMinute).1 := by
  intro key hist hhist
  have hwhole := h key
  rw [getElem?_pruneTPSHistory] at hhist
  rw [stored] at hwhole
  rcases hkey : history[key]? with _ | _ | samples
  · rw [hkey] at hhist
    nomatch hhist
  · rw [hkey] at hhist
    nomatch hhist
  · rw [hkey] at hhist hwhole
    rw [Option.bind_some, pruned] at hhist
    split at hhist
    case isTrue => nomatch hhist
    case isFalse =>
      obtain rfl := Option.some.inj hhist
      exact ⟨_, rfl, increasing_inOrder keyed_within,
        fun x hx => hwhole x (mem_of_mem_normalizeTPSSamples hx).1⟩

theorem Timelines.increasing {history : Histories} (h : Timelines history) (key : String) :
    Increasing BrokerTPSSample.timestamp (stored history key) := by
  rw [stored]
  rcases hkey : history[key]? with _ | hist
  · exact List.Pairwise.nil
  · obtain ⟨samples, rfl, hincreasing, _⟩ := h key hist hkey
    exact hincreasing

theorem Timelines.wholeMinutes {history : Histories} (h : Timelines history) :
    WholeMinutes history := by
  intro key x hx
  rw [stored] at hx
  rcases hkey : history[key]? with _ | hist
  · rw [hkey] at hx
    nomatch hx
  · obtain ⟨samples, rfl, _, hwhole⟩ := h key hist hkey
    rw [hkey] at hx
    exact hwhole x hx

theorem mem_stored_pruneTPSHistory {history : Histories} (h : Timelines history) (nowMinute : Int)
    (key : String) (x : BrokerTPSSample) :
    x ∈ stored (pruneTPSHistory history nowMinute).1 key ↔
      x ∈ stored history key ∧ cutoffOf nowMinute ≤ x.timestamp ∧ x.timestamp ≤ nowMinute := by
  rw [stored_pruneTPSHistory, normalizeTPSSamples]
  exact mem_inOrder_within (h.increasing key)


/-! ### One entry of a call -/

theorem stored_insert (history : Histories) (k key : String) (samples : List BrokerTPSSample) :
    stored (history.insert k (some samples)) key =
      if k = key then samples else stored history key := by
  rw [stored, getElem?_insert]
  split
  · rfl
  · rw [stored]

/-- What an entry reports for a key. -/
def reportOf (connID nowMinute : Int) (key : String) : Option Node → Option BrokerTPSSample
  | none => none
  | some broker =>
    if broker.address ≠ "" ∧ tpsHistoryKey connID broker.address = key then
      sampleOf nowMinute broker
    else none

section Entry

variable {connID nowMinute : Int} {r : Recording} {key : String} {brokers : List (Option Node)}

theorem timestamp_of_sampleOf {broker : Node} {sample : BrokerTPSSample}
    (h : sampleOf nowMinute broker = some sample) : sample.timestamp = nowMinute := by
  rw [sampleOf] at h
  split at h
  case isTrue => obtain rfl := Option.some.inj h; rfl
  case isFalse => nomatch h

theorem timestamp_of_reportOf {entry : Option Node} {sample : BrokerTPSSample}
    (h : reportOf connID nowMinute key entry = some sample) : sample.timestamp = nowMinute := by
  rcases entry with _ | broker
  · nomatch h
  · rw [reportOf] at h
    split at h
    case isTrue => exact timestamp_of_sampleOf h
    case isFalse => nomatch h

/-- The histories after an entry with an address, and what is attached to it. -/
theorem recordOne_some {broker : Node} (h : broker.address ≠ "") :
    (recordOne connID nowMinute r (some broker)).history =
        (match sampleOf nowMinute broker with
        | none => r.history
        | some sample => r.history.insert (tpsHistoryKey connID broker.address)
            (some (upsertTPSSample (stored r.history (tpsHistoryKey connID broker.address))
              sample).1)) ∧
      (recordOne connID nowMinute r (some broker)).nodes = r.nodes ++ [some (copyTPSHistoryToBroker
        (stored (recordOne connID nowMinute r (some broker)).history
          (tpsHistoryKey connID broker.address)) broker)] := by
  simp only [recordOne, if_neg h, stored]
  rcases hkey : (r.history[tpsHistoryKey connID broker.address]?).join with _ | samples
  · rcases sampleOf nowMinute broker with _ | sample
    · simp [hkey]
    · simp
  · rcases sampleOf nowMinute broker with _ | sample
    · simp [hkey]
    · simp

theorem stored_recordOne (entry : Option Node) :
    stored (recordOne connID nowMinute r entry).history key =
      match reportOf connID nowMinute key entry with
      | none => stored r.history key
      | some sample => (upsertTPSSample (stored r.history key) sample).1 := by
  rcases entry with _ | broker
  · rfl
  · by_cases haddress : broker.address = ""
    · rw [recordOne, if_pos haddress, reportOf, if_neg fun h => h.1 haddress]
    · rw [(recordOne_some haddress).1, reportOf]
      by_cases hkey : tpsHistoryKey connID broker.address = key
      · rw [if_pos ⟨haddress, hkey⟩]
        rcases sampleOf nowMinute broker with _ | sample
        · rfl
        · dsimp only
          rw [stored_insert, if_pos hkey, hkey]
      · rw [if_neg fun h => hkey h.2]
        rcases sampleOf nowMinute broker with _ | sample
        · rfl
        · dsimp only
          rw [stored_insert, if_neg hkey]

theorem timelines_recordOne (hminute : secondsPerMinute ∣ nowMinute) (h : Timelines r.history)
    (entry : Option Node) : Timelines (recordOne connID nowMinute r entry).history := by
  rcases entry with _ | broker
  · exact h
  · by_cases haddress : broker.address = ""
    · rw [recordOne, if_pos haddress]
      exact h
    · rw [(recordOne_some haddress).1]
      rcases hsample : sampleOf nowMinute broker with _ | sample
      · exact h
      · have htime := timestamp_of_sampleOf hsample
        intro key hist hhist
        dsimp only at hhist
        rw [getElem?_insert] at hhist
        split at hhist
        case isTrue =>
          obtain rfl := Option.some.inj hhist
          refine ⟨_, rfl, increasing_upsertTPSSample (h.increasing _), fun x hx => ?_⟩
          rcases (mem_upsertTPSSample (h.increasing _) x).mp hx with rfl | ⟨hx, _⟩
          · rwa [htime]
          · exact h.wholeMinutes _ x hx
        case isFalse => exact h key hist hhist

/-- What a list of entries reports for a key, in order. -/
def reportsOf (connID nowMinute : Int) (brokers : List (Option Node)) (key : String) :
    List BrokerTPSSample :=
  brokers.filterMap (reportOf connID nowMinute key)

theorem timelines_foldl (hminute : secondsPerMinute ∣ nowMinute) (h : Timelines r.history) :
    Timelines (brokers.foldl (recordOne connID nowMinute) r).history := by
  induction brokers generalizing r with
  | nil => exact h
  | cons entry brokers ih => exact ih (timelines_recordOne hminute h entry)

/-- **What a call leaves of a history**: the last report, and all else that was there. -/
theorem mem_stored_foldl (hminute : secondsPerMinute ∣ nowMinute) (h : Timelines r.history)
    (x : BrokerTPSSample) :
    x ∈ stored (brokers.foldl (recordOne connID nowMinute) r).history key ↔
      (reportsOf connID nowMinute brokers key).getLast? = some x ∨
        (x ∈ stored r.history key ∧
          (x.timestamp ≠ nowMinute ∨ reportsOf connID nowMinute brokers key = [])) := by
  induction brokers using List.reverseRecOn with
  | nil => simp [reportsOf]
  | append_singleton brokers entry ih =>
    rw [List.foldl_append, List.foldl_cons, List.foldl_nil, stored_recordOne, reportsOf,
      List.filterMap_append, ← reportsOf, List.filterMap_cons, List.filterMap_nil]
    rcases hreport : reportOf connID nowMinute key entry with _ | sample
    · simpa using ih
    · have htime := timestamp_of_reportOf hreport
      have hlast : (reportsOf connID nowMinute brokers key).getLast? = some x →
          x.timestamp = nowMinute := by
        intro hx
        obtain ⟨entry, _, hentry⟩ := List.mem_filterMap.mp (List.mem_of_getLast? hx)
        exact timestamp_of_reportOf hentry
      dsimp only
      rw [mem_upsertTPSSample ((timelines_foldl hminute h).increasing key), ih, htime]
      simp only [List.getLast?_append, List.getLast?_singleton, Option.some_or,
        Option.some.injEq, List.append_eq_nil_iff, List.cons_ne_nil, and_false, or_false]
      constructor
      · rintro (rfl | ⟨hx | ⟨hx, _⟩, hne⟩)
        exacts [.inl rfl, absurd (hlast hx) hne, .inr ⟨hx, hne⟩]
      · rintro (rfl | ⟨hx, hne⟩)
        exacts [.inl rfl, .inr ⟨.inr ⟨hx, .inl hne⟩, hne⟩]

/-! ### What is attached -/

/-- Each entry gives one node. -/
theorem nodes_recordOne (connID nowMinute : Int) (r : Recording) (entry : Option Node) :
    ∃ node, (recordOne connID nowMinute r entry).nodes = r.nodes ++ [node] := by
  rcases entry with _ | broker
  · exact ⟨none, rfl⟩
  · by_cases haddress : broker.address = ""
    · exact ⟨some broker, by rw [recordOne, if_pos haddress]⟩
    · exact ⟨_, (recordOne_some haddress).2⟩

theorem nodes_foldl (connID nowMinute : Int) (brokers : List (Option Node)) (r : Recording) :
    ∃ nodes : List (Option Node), nodes.length = brokers.length ∧
      (brokers.foldl (recordOne connID nowMinute) r).nodes = r.nodes ++ nodes := by
  induction brokers generalizing r with
  | nil => exact ⟨[], rfl, (List.append_nil _).symm⟩
  | cons entry brokers ih =>
    obtain ⟨node, hnode⟩ := nodes_recordOne connID nowMinute r entry
    obtain ⟨nodes, hlength, hnodes⟩ := ih (recordOne connID nowMinute r entry)
    refine ⟨node :: nodes, by rw [List.length_cons, List.length_cons, hlength], ?_⟩
    rw [List.foldl_cons, hnodes, hnode, List.append_assoc, List.singleton_append]

theorem tpsHistoryKey_injective {address other : String}
    (h : tpsHistoryKey connID address = tpsHistoryKey connID other) : address = other :=
  append_left_cancel h

/-- Entries for other brokers leave a history alone. -/
theorem stored_foldl_of_not_mem {address : String}
    (h : ∀ broker, some broker ∈ brokers → broker.address ≠ address) :
    stored (brokers.foldl (recordOne connID nowMinute) r).history (tpsHistoryKey connID address) =
      stored r.history (tpsHistoryKey connID address) := by
  induction brokers generalizing r with
  | nil => rfl
  | cons entry brokers ih =>
    have hreport : reportOf connID nowMinute (tpsHistoryKey connID address) entry = none := by
      rcases entry with _ | broker
      · rfl
      · rw [reportOf, if_neg]
        rintro ⟨_, hkey⟩
        exact h broker List.mem_cons_self (tpsHistoryKey_injective hkey)
    rw [List.foldl_cons, ih fun broker hb => h broker (List.mem_cons_of_mem _ hb), stored_recordOne,
      hreport]

/-- **What is attached to the last entry of a broker** is what is stored in the end. -/
theorem getElem?_nodes_foldl {pre post : List (Option Node)} {broker : Node}
    (haddress : broker.address ≠ "")
    (hlast : ∀ other, some other ∈ post → other.address ≠ broker.address) (hr : r.nodes = []) :
    ((pre ++ some broker :: post).foldl (recordOne connID nowMinute) r).nodes[pre.length]? =
      some (some (copyTPSHistoryToBroker
        (stored ((pre ++ some broker :: post).foldl (recordOne connID nowMinute) r).history
          (tpsHistoryKey connID broker.address)) broker)) := by
  rw [List.foldl_append, List.foldl_cons, stored_foldl_of_not_mem hlast]
  obtain ⟨before, hbefore, hpre⟩ := nodes_foldl connID nowMinute pre r
  obtain ⟨after, _, hpost⟩ := nodes_foldl connID nowMinute post
    (recordOne connID nowMinute (pre.foldl (recordOne connID nowMinute) r) (some broker))
  rw [hpost, (recordOne_some haddress).2, hpre, hr, List.nil_append, ← hbefore, List.append_assoc,
    List.getElem?_append_right (Nat.le_refl _), Nat.sub_self]
  rfl

end Entry


/-! ### Every call -/

/-- What the file holds is of whole minutes. -/
def HistoryFile.Whole : HistoryFile → Prop
  | .store _ (some brokers) => WholeMinutes brokers
  | _ => True

theorem secondsPerMinute_dvd_minuteOf (seconds : Int) : secondsPerMinute ∣ minuteOf seconds :=
  Int.dvd_self_sub_emod

theorem timelines_empty : Timelines ∅ := by
  intro key hist h
  rw [ExtTreeMap.getElem?_empty] at h
  nomatch h

theorem timelines_loadTPSHistory {path : String} {file : HistoryFile} (now : Int)
    (hfile : file.Whole) : Timelines (loadTPSHistory path file now) := by
  unfold loadTPSHistory
  split
  case isTrue => exact timelines_empty
  case isFalse =>
    rcases file with _ | _ | _ | ⟨version, _ | brokers⟩
    case store.some =>
      dsimp only
      split
      case isTrue => exact timelines_empty
      case isFalse => exact timelines_pruneTPSHistory hfile _
    all_goals exact timelines_empty

theorem timelines_recorded {history : Histories} (h : Timelines history) (call : Call) :
    Timelines (recorded history call).history :=
  timelines_foldl (secondsPerMinute_dvd_minuteOf _) (timelines_pruneTPSHistory h.wholeMinutes _)

theorem history_recordBrokerTPS (s : Service) (call : Call) :
    (recordBrokerTPS s call).history = (recorded s.history call).history := by
  rw [recordBrokerTPS]
  split <;> rfl

/-- **The histories of a run** are timelines. -/
theorem timelines_run {path : String} {file : HistoryFile} (start : Int) (hfile : file.Whole)
    (calls : List Call) :
    Timelines (run recordBrokerTPS (Service.new path file start) calls).history := by
  refine run_inv (P := fun s => Timelines s.history) recordBrokerTPS (fun s call h => ?_) calls _
    (timelines_loadTPSHistory start hfile)
  rw [history_recordBrokerTPS]
  exact timelines_recorded h call

/-- What a call makes of the histories, and what it attaches. -/
structure CleanHour (before : Histories) (call : Call) (after : Recording) : Prop where
  /-- Strictly increasing, within the hour that ends at the minute, and at most sixty. -/
  clean : ∀ (key : String) h, after.history[key]? = some h → ∃ samples, h = some samples ∧
    Increasing BrokerTPSSample.timestamp samples ∧ samples.length ≤ tpsHistoryMinutes ∧
    ∀ x ∈ samples, cutoffOf (minuteOf call.now) ≤ x.timestamp ∧ x.timestamp ≤ minuteOf call.now
  /-- The last report of a key is what is there for the minute. -/
  latest : ∀ (key : String) x, x.timestamp = minuteOf call.now →
    reportsOf call.connID (minuteOf call.now) call.brokers key ≠ [] →
    (x ∈ stored after.history key ↔
      (reportsOf call.connID (minuteOf call.now) call.brokers key).getLast? = some x)
  /-- All else in the hour is as it was. -/
  kept : ∀ (key : String) x, x.timestamp ≠ minuteOf call.now ∨
      reportsOf call.connID (minuteOf call.now) call.brokers key = [] →
    (x ∈ stored after.history key ↔ x ∈ stored before key ∧
      cutoffOf (minuteOf call.now) ≤ x.timestamp ∧ x.timestamp ≤ minuteOf call.now)
  /-- The last entry of a broker shows what is stored. -/
  attached : ∀ pre broker post, call.brokers = pre ++ some broker :: post → broker.address ≠ "" →
    (∀ other, some other ∈ post → other.address ≠ broker.address) →
    after.nodes[pre.length]? = some (some (copyTPSHistoryToBroker
      (stored after.history (tpsHistoryKey call.connID broker.address)) broker))

theorem timestamp_of_getLast?_reportsOf {connID nowMinute : Int} {brokers : List (Option Node)}
    {key : String} {x : BrokerTPSSample}
    (h : (reportsOf connID nowMinute brokers key).getLast? = some x) : x.timestamp = nowMinute := by
  obtain ⟨entry, _, hentry⟩ := List.mem_filterMap.mp (List.mem_of_getLast? h)
  exact timestamp_of_reportOf hentry

/-- Minutes of the hour that ends at a minute. -/
theorem cutoffOf_le (nowMinute : Int) : cutoffOf nowMinute ≤ nowMinute := by
  have hwidth : (0 : Int) ≤ (tpsHistoryMinutes - 1) * secondsPerMinute := by decide
  rw [cutoffOf]
  omega

theorem cleanHour_recorded {history : Histories} (h : Timelines history) (call : Call) :
    CleanHour history call (recorded history call) := by
  have hminute := secondsPerMinute_dvd_minuteOf call.now
  have hpruned := timelines_pruneTPSHistory h.wholeMinutes (minuteOf call.now)
  have hmem : ∀ (key : String) x, x ∈ stored (recorded history call).history key ↔ _ :=
    fun key x => mem_stored_foldl hminute hpruned x
  have hhour : InHour (minuteOf call.now) (recorded history call).history := by
    intro key x hx
    rcases (hmem key x).mp hx with hlast | ⟨hx, _⟩
    · rw [timestamp_of_getLast?_reportsOf hlast]
      exact ⟨cutoffOf_le _, Int.le_refl _⟩
    · exact inHour_pruneTPSHistory _ _ key x hx
  refine ⟨fun key hist hhist => ?_, fun key x hx hreports => ?_, fun key x hx => ?_, ?_⟩
  · obtain ⟨samples, rfl, hincreasing, hwhole⟩ := timelines_recorded h call key hist hhist
    have hstored : stored (recorded history call).history key = samples := by
      rw [stored, hhist]
      rfl
    have hin := hhour key
    rw [hstored] at hin
    exact ⟨samples, rfl, hincreasing, length_le (by decide) hminute hincreasing
      fun x hx => ⟨hwhole x hx, hin x hx⟩, hin⟩
  · rw [hmem]
    exact ⟨fun h => h.resolve_right fun h => h.2.elim (· hx) hreports, .inl⟩
  · rw [hmem, mem_stored_pruneTPSHistory h]
    constructor
    · rintro (hlast | ⟨hin, _⟩)
      · rcases hx with hx | hx
        · exact absurd (timestamp_of_getLast?_reportsOf hlast) hx
        · rw [hx] at hlast
          nomatch hlast
      · exact hin
    · exact fun hin => .inr ⟨hin, hx⟩
  · intro pre broker post hbrokers haddress hlast
    rw [recorded, hbrokers]
    exact getElem?_nodes_foldl haddress hlast rfl

/-- **Throughput history stays a clean hour**: after every call of every run, under any clock. -/
theorem history_stays_clean (path : String) (file : HistoryFile) (start : Int)
    (hfile : file.Whole) (calls : List Call) (call : Call) :
    let before := run recordBrokerTPS (Service.new path file start) calls
    (recordBrokerTPS before call).history = (recorded before.history call).history ∧
      CleanHour before.history call (recorded before.history call) :=
  ⟨history_recordBrokerTPS _ _, cleanHour_recorded (timelines_run start hfile calls) call⟩

/-- A file with a repeated and a later sample, a clock that steps back, and a broker reported
twice. -/
theorem clean_after_clock_steps_back :
    ∃ (file : HistoryFile) (calls : List Call) (call : Call), file.Whole ∧
      (calls.map (·.now)) = [7300] ∧ call.now = 7250 ∧ call.brokers.length = 2 ∧
      CleanHour (run recordBrokerTPS (Service.new "tps.json" file 7200) calls).history call
        (recorded (run recordBrokerTPS (Service.new "tps.json" file 7200) calls).history call) := by
  let broker : Int → Option Node := fun rate => some ⟨"a:10911", .online, rate, rate, [], [], []⟩
  let samples : List BrokerTPSSample := [⟨7200, 1, 1⟩, ⟨3600, 2, 2⟩, ⟨7200, 3, 3⟩]
  let file : HistoryFile := .store 1 (some (.ofList [("1|a:10911", some samples)]))
  have hfile : file.Whole := by
    intro key x hx
    rw [stored, ExtTreeMap.ofList_singleton, getElem?_insert] at hx
    split at hx
    case isTrue =>
      have hsamples : ∀ x ∈ samples, secondsPerMinute ∣ x.timestamp := by decide
      exact hsamples x hx
    case isFalse =>
      rw [ExtTreeMap.getElem?_empty] at hx
      nomatch hx
  exact ⟨file, [⟨1, 7300, [broker 5], true⟩], ⟨1, 7250, [broker 6, broker 7], true⟩, hfile, rfl,
    rfl, rfl, (history_stays_clean "tps.json" file 7200 hfile _ _).2⟩


/-! ### The file -/

theorem pruneTPSHistory_of_not_changed {history : Histories} {nowMinute : Int}
    (h : (pruneTPSHistory history nowMinute).2 = false) :
    (pruneTPSHistory history nowMinute).1 = history := by
  have hsame : ∀ (key : String) hist, history[key]? = some hist →
      pruned nowMinute hist = some hist := by
    intro key hist hhist
    have := List.any_eq_false.mp h _ (ExtTreeMap.mem_toList_iff_getElem?_eq_some.mpr hhist)
    simpa using this
  refine ExtTreeMap.ext_getElem? fun {key} => ?_
  rw [getElem?_pruneTPSHistory]
  rcases hkey : history[key]? with _ | hist
  · rfl
  · exact hsame key hist hkey

theorem recordOne_of_not_changed {connID nowMinute : Int} {r : Recording} {entry : Option Node}
    (hr : Timelines r.history) (h : (recordOne connID nowMinute r entry).changed = false) :
    r.changed = false ∧ (recordOne connID nowMinute r entry).history = r.history := by
  rcases entry with _ | broker
  · exact ⟨h, rfl⟩
  · by_cases haddress : broker.address = ""
    · rw [recordOne, if_pos haddress] at h ⊢
      exact ⟨h, rfl⟩
    · simp only [recordOne, if_neg haddress] at h ⊢
      rcases hkey : (r.history[tpsHistoryKey connID broker.address]?).join with _ | samples
      · rcases hsample : sampleOf nowMinute broker with _ | sample
        · simp only [hkey, hsample] at h ⊢
          exact ⟨h, trivial⟩
        · simp only [hkey, hsample, upsertTPSSample, replaceLast, Option.getD_none] at h
          nomatch h
      · have hstored : stored r.history (tpsHistoryKey connID broker.address) = samples := by
          rw [stored, hkey, Option.getD_some]
        rcases hsample : sampleOf nowMinute broker with _ | sample
        · simp only [hkey, hsample] at h ⊢
          exact ⟨h, trivial⟩
        · simp only [hkey, hsample, Option.getD_some, Bool.or_eq_false_iff] at h ⊢
          refine ⟨h.2, ?_⟩
          rw [upsertTPSSample_of_not_changed (hstored ▸ hr.increasing _) h.1]
          refine ExtTreeMap.ext_getElem? fun {key} => ?_
          rw [getElem?_insert]
          split
          case isTrue heq => rw [← heq, Option.join_eq_some_iff.mp hkey]
          case isFalse => rfl

theorem foldl_of_not_changed {connID nowMinute : Int} {brokers : List (Option Node)}
    {r : Recording} (hminute : secondsPerMinute ∣ nowMinute) (hr : Timelines r.history)
    (h : (brokers.foldl (recordOne connID nowMinute) r).changed = false) :
    r.changed = false ∧ (brokers.foldl (recordOne connID nowMinute) r).history = r.history := by
  induction brokers generalizing r with
  | nil => exact ⟨h, rfl⟩
  | cons entry brokers ih =>
    obtain ⟨hchanged, hrest⟩ := ih (timelines_recordOne hminute hr entry) h
    obtain ⟨hbefore, hsame⟩ := recordOne_of_not_changed hr hchanged
    exact ⟨hbefore, hrest.trans hsame⟩

/-- A call that sees no change has made none. -/
theorem recorded_of_not_changed {history : Histories} {call : Call} (h : Timelines history)
    (hsame : (recorded history call).changed = false) :
    (recorded history call).history = history := by
  obtain ⟨hpruned, hrest⟩ := foldl_of_not_changed (secondsPerMinute_dvd_minuteOf _)
    (timelines_pruneTPSHistory h.wholeMinutes _) hsame
  exact hrest.trans (pruneTPSHistory_of_not_changed hpruned)

/-- **The file stays current**: once it holds the histories, every call that can write keeps it
so. -/
theorem written_recordBrokerTPS {s : Service} {call : Call} (hs : Timelines s.history)
    (hpath : trimSpace s.historyFilePath ≠ "") (hwritable : call.writable = true)
    (h : s.written = some s.history) :
    (recordBrokerTPS s call).written = some (recordBrokerTPS s call).history := by
  rw [recordBrokerTPS]
  rcases hchanged : (recorded s.history call).changed
  · rw [recorded_of_not_changed hs hchanged]
    exact h
  · rw [if_neg (by simp [hpath, hwritable])]


end MqStudio.Cluster.History
