import MqStudio.Lib.Tail

/-!
# Following logs that are trimmed from the front

The entries of a `RetainedLog` have increasing offsets.  New ones come at the end,
and what is below `first` is no longer held.  A reader that keeps the offset to
read next, for each of several logs, either gets an entry or is told that it was
trimmed.

* `RetainedLog.Grows`: what may happen to a log between two calls.
* `Follows`: one log, from the offset where the reader began to follow it.
* `Following`: several logs, with what was handed on and what was reported lost
  as lists of places.
* `Following.grow`, `Following.poll`: the logs go on, and the reader does.
* `Following.accounted`: an entry behind the reader was handed on once or
  reported once, and not both.
-/

namespace Lib.Tail

universe u v

variable {α : Type u} {offset : α → ℤ}

/-- A log with the offsets it still holds.  Its entries are all that it ever held. -/
structure RetainedLog (offset : α → ℤ) where
  entries : List α
  first : ℤ
  next : ℤ
  sorted : entries.Pairwise fun a b => offset a < offset b
  below : ∀ a ∈ entries, offset a < next
  nonneg : 0 ≤ first
  first_le : first ≤ next

namespace RetainedLog

def empty : RetainedLog offset := ⟨[], 0, 0, .nil, by simp, le_rfl, le_rfl⟩

variable {l l' : RetainedLog offset}

/-- Adds an entry at the end. -/
def append (l : RetainedLog offset) (a : α) (h : l.next ≤ offset a) : RetainedLog offset where
  entries := l.entries ++ [a]
  first := l.first
  next := offset a + 1
  sorted := by
    refine List.pairwise_append.mpr ⟨l.sorted, List.pairwise_singleton _ _, fun b hb c hc => ?_⟩
    rw [List.mem_singleton.mp hc]
    exact (l.below b hb).trans_le h
  below b hb := by
    rcases List.mem_append.mp hb with hb | hb
    · exact (l.below b hb).trans_le (h.trans (by omega))
    · rw [List.mem_singleton.mp hb]
      omega
  nonneg := l.nonneg
  first_le := l.first_le.trans (h.trans (by omega))

/-- Drops what is below `n`, or passes over offsets that hold no entry. -/
def moveTo (l : RetainedLog offset) (first next : ℤ)
    (h : l.first ≤ first ∧ first ≤ next ∧ l.next ≤ next) : RetainedLog offset where
  entries := l.entries
  first := first
  next := next
  sorted := l.sorted
  below b hb := (l.below b hb).trans_le h.2.2
  nonneg := l.nonneg.trans h.1
  first_le := h.2.1

/-- What may happen to a log: entries are added at the end, and its bounds go up. -/
structure Grows (l l' : RetainedLog offset) : Prop where
  entries : ∃ new, l'.entries = l.entries ++ new ∧ ∀ a ∈ new, l.next ≤ offset a
  first : l.first ≤ l'.first
  next : l.next ≤ l'.next

theorem Grows.refl (l : RetainedLog offset) : l.Grows l := ⟨⟨[], by simp⟩, le_rfl, le_rfl⟩

theorem grows_append (l : RetainedLog offset) (a : α) (h : l.next ≤ offset a) :
    l.Grows (l.append a h) :=
  ⟨⟨[a], rfl, by simpa using h⟩, le_rfl, h.trans (by simp [append])⟩

theorem grows_moveTo (l : RetainedLog offset) (first next : ℤ)
    (h : l.first ≤ first ∧ first ≤ next ∧ l.next ≤ next) : l.Grows (l.moveTo first next h) :=
  ⟨⟨[], by simp [moveTo]⟩, h.1, h.2.2⟩

/-- Where one of several logs grows, all of them do. -/
theorem grows_update {ι : Type v} [DecidableEq ι] {logs : ι → RetainedLog offset} {q : ι}
    (h : (logs q).Grows l) (other : ι) : (logs other).Grows (Function.update logs q l other) := by
  by_cases ho : other = q
  · subst ho
    simpa using h
  · simpa [ho] using Grows.refl (logs other)

end RetainedLog

/-! ### One log -/

/-- The offset after an entry: where a reader goes on that has been handed it. -/
def after (offset : α → ℤ) (a : α) : ℤ := offset a + 1

/-- The offsets from one position up to another. -/
def gap (lo hi : ℤ) : List ℤ := (List.range (hi - lo).toNat).map fun i : ℕ => lo + (i : ℤ)

theorem length_gap {lo hi : ℤ} (h : lo ≤ hi) : ((gap lo hi).length : ℤ) = hi - lo := by
  simp only [gap, List.length_map, List.length_range]
  omega

theorem gap_self (lo : ℤ) : gap lo lo = [] := by simp [gap]

theorem mem_gap {lo hi k : ℤ} : k ∈ gap lo hi ↔ lo ≤ k ∧ k < hi := by
  simp only [gap, List.mem_map, List.mem_range]
  constructor
  · rintro ⟨i, hi, rfl⟩
    omega
  · rintro ⟨hlo, hhi⟩
    exact ⟨(k - lo).toNat, by omega, by omega⟩

theorem sorted_gap (lo hi : ℤ) : (gap lo hi).Pairwise (· < ·) := by
  refine List.pairwise_map.mpr (List.Pairwise.imp (fun h => ?_) List.pairwise_lt_range)
  omega

variable {log log' : RetainedLog offset} {lost : List ℤ} {got taken : List α} {lo hi n : ℤ}

/-- A reader that follows a log from `lo` has reached `hi`: what it passed it was handed, or it was
told the offset was lost. -/
structure Follows (log : RetainedLog offset) (lost : List ℤ) (lo hi : ℤ) (got : List α) : Prop where
  covers : Covers (after offset) log.entries (lost.map (· + 1)) lo hi got
  le : hi ≤ log.next

theorem Follows.start (h : hi ≤ log.next) : Follows log [] hi hi [] :=
  ⟨Covers.refl hi, h⟩

theorem Follows.grow (h : Follows log lost lo hi got) (hg : log.Grows log') :
    Follows log' lost lo hi got := by
  obtain ⟨⟨new, hnew, hbound⟩, -, hnext⟩ := hg
  refine ⟨hnew ▸ h.covers.grow fun a ha _ => ?_, h.le.trans hnext⟩
  have := h.le.trans (hbound a ha)
  simp only [after]
  omega

/-- The reader moves over a stretch, and is told the offsets. -/
theorem Follows.skip (h : Follows log lost lo hi got) (hle : hi ≤ n) (hn : n ≤ log.next) :
    Follows log (lost ++ gap hi n) lo n got := by
  have hskip : Covers (after offset) log.entries ((gap hi n).map (· + 1)) hi n [] := by
    refine Covers.skip hle ?_ ?_ ?_
    · exact List.pairwise_map.mpr ((sorted_gap hi n).imp fun h => by omega)
    · intro k hk
      obtain ⟨j, hj, rfl⟩ := List.mem_map.mp hk
      have := mem_gap.mp hj
      omega
    · intro a _ hlo hhi
      refine List.mem_map.mpr ⟨offset a, mem_gap.mpr ?_, rfl⟩
      simp only [after] at hlo hhi
      omega
  refine ⟨?_, hn⟩
  have := h.covers.trans hskip
  rwa [← List.map_append, List.append_nil] at this

/-- The reader is handed some entries, and none is left out between the first and the last. -/
theorem Follows.take (h : Follows log lost lo hi got)
    (hs : taken.Pairwise fun a b => offset a < offset b)
    (hmem : ∀ a ∈ taken, a ∈ log.entries ∧ hi ≤ offset a)
    (hall : ∀ a ∈ log.entries, hi ≤ offset a → offset a < reached (after offset) hi taken →
      a ∈ taken) :
    Follows log lost lo (reached (after offset) hi taken) (got ++ taken) := by
  have htake : Covers (after offset) log.entries [] hi (reached (after offset) hi taken) taken := by
    refine Covers.take (hs.imp fun h => by simpa [after] using h) (fun a ha => ?_) ?_
    · obtain ⟨hlog, hle⟩ := hmem a ha
      exact ⟨hlog, Int.lt_add_one_iff.mpr hle⟩
    · intro a ha hlo hhi
      exact hall a ha (Int.lt_add_one_iff.mp hlo) (Int.add_one_le_iff.mp hhi)
  refine ⟨by simpa using h.covers.trans htake, ?_⟩
  by_cases hn : taken = []
  · rw [hn, reached_nil]
    exact h.le
  · obtain ⟨a, ha, hr⟩ := reached_mem (after offset) hi hn
    rw [hr]
    have := log.below a (hmem a ha).1
    simp only [after]
    omega

/-- The reader is handed the entries that come first. -/
theorem Follows.read (h : Follows log lost lo hi got)
    (ht : taken <+: log.entries.filter fun a => hi ≤ offset a) :
    Follows log lost lo (reached (after offset) hi taken) (got ++ taken) := by
  have hread : Covers (after offset) log.entries [] hi (reached (after offset) hi taken) taken := by
    refine Covers.read (log.sorted.imp fun h => by simpa [after] using h) ?_
    simpa only [after, Int.lt_add_one_iff] using ht
  refine h.take (hread.sorted.imp fun h => by simpa [after] using h) (fun a ha => ?_) ?_
  · exact ⟨hread.genuine a ha, Int.lt_add_one_iff.mp (hread.within a ha).1⟩
  · intro a ha hlo hhi
    exact (hread.complete a ha (Int.lt_add_one_iff.mpr hlo) (Int.add_one_le_iff.mpr hhi)).resolve_right
      (by simp)

/-- What the reader has passed it was handed once, or was told of once, and not both. -/
theorem Follows.once (h : Follows log lost lo hi got) {a : α} (ha : a ∈ log.entries)
    (hlo : lo ≤ offset a) (hhi : offset a < hi) :
    ((got.map offset).count (offset a) = 1 ∧ offset a ∉ lost) ∨
      (offset a ∉ got.map offset ∧ lost.count (offset a) = 1) := by
  have hgot : (got.map offset).Nodup := List.pairwise_map.mpr <|
    h.covers.sorted.imp fun hlt => by
      simp only [after] at hlt
      omega
  have hlost : lost.Nodup := (List.pairwise_map.mp h.covers.lost_sorted).imp fun hlt => by omega
  have hnodup : (log.entries.map offset).Nodup := List.pairwise_map.mpr (log.sorted.imp ne_of_lt)
  have hdisjoint : a ∈ got → offset a ∉ lost := fun hg hl =>
    h.covers.disjoint a hg (List.mem_map_of_mem hl)
  rcases h.covers.complete a ha (by simp only [after]; omega) (by simp only [after]; omega) with
    hg | hl
  · exact Or.inl ⟨List.count_eq_one_of_mem hgot (List.mem_map_of_mem hg), hdisjoint hg⟩
  · have hl' : offset a ∈ lost := by simpa [after] using hl
    refine Or.inr ⟨fun hm => ?_, List.count_eq_one_of_mem hlost hl'⟩
    obtain ⟨b, hb, heq⟩ := List.mem_map.mp hm
    obtain rfl := List.inj_on_of_nodup_map hnodup (h.covers.genuine b hb) ha heq
    exact hdisjoint hb hl'

/-- Where a reader goes on that moves past each of some offsets, in any order. -/
def furthest (lo : ℤ) (offsets : List ℤ) : ℤ := offsets.foldl (fun hi k => max hi (k + 1)) lo

theorem furthest_perm {offsets more : List ℤ} (h : offsets.Perm more) (lo : ℤ) :
    furthest lo offsets = furthest lo more := by
  refine h.foldl_eq' (fun x _ y _ z => ?_) lo
  omega

/-- Past the entries in order it goes on after the last. -/
theorem furthest_eq_reached {got : List α} (hs : got.Pairwise fun a b => offset a < offset b)
    (hlo : ∀ a ∈ got, lo ≤ offset a) : furthest lo (got.map offset) = reached (after offset) lo got := by
  induction got using List.reverseRecOn with
  | nil => rfl
  | append_singleton got a ih =>
    obtain ⟨hgot, -, hlast⟩ := List.pairwise_append.mp hs
    have hrest := ih hgot fun b hb => hlo b (List.mem_append_left _ hb)
    rw [reached_concat, List.map_append, furthest, List.foldl_append]
    show max (furthest lo (got.map offset)) (offset a + 1) = after offset a
    have hle : reached (after offset) lo got ≤ offset a + 1 := by
      by_cases hn : got = []
      · have := hlo a (by simp)
        rw [hn, reached_nil]
        omega
      · obtain ⟨b, hb, hr⟩ := reached_mem (after offset) lo hn
        have := hlast b hb a (by simp)
        simp only [hr, after]
        omega
    rw [hrest]
    exact max_eq_right hle

/-! ### Several logs -/

variable {ι : Type v} [DecidableEq ι]

/-- The offsets of one log in a list of places. -/
def ofLog (q : ι) (places : List (ι × ℤ)) : List ℤ := (places.filter (·.1 = q)).map (·.2)

@[simp] theorem ofLog_nil (q : ι) : ofLog q [] = [] := rfl

theorem ofLog_cons (q : ι) (e : ι × ℤ) (places : List (ι × ℤ)) :
    ofLog q (e :: places) = if e.1 = q then e.2 :: ofLog q places else ofLog q places := by
  by_cases h : e.1 = q <;> simp [ofLog, h]

@[simp] theorem ofLog_append (q : ι) (places more : List (ι × ℤ)) :
    ofLog q (places ++ more) = ofLog q places ++ ofLog q more := by
  simp [ofLog]

theorem count_ofLog (q : ι) (k : ℤ) (places : List (ι × ℤ)) :
    (ofLog q places).count k = places.count (q, k) := by
  induction places with
  | nil => rfl
  | cons e places ih =>
    obtain ⟨i, j⟩ := e
    by_cases hi : i = q <;> simp [ofLog_cons, List.count_cons, hi, ih]

theorem mem_ofLog {q : ι} {k : ℤ} {places : List (ι × ℤ)} : k ∈ ofLog q places ↔ (q, k) ∈ places := by
  rw [← List.count_pos_iff, count_ofLog, List.count_pos_iff]

theorem ofLog_perm {q : ι} {places more : List (ι × ℤ)} (h : places.Perm more) :
    (ofLog q places).Perm (ofLog q more) :=
  (h.filter _).map _

section

variable {β : Type u} {bs : List β} {name : β → ι} {f : β → List ℤ}

/-- Nothing is listed for a log that is not named. -/
theorem ofLog_flatMap_of_notMem {q : ι} (h : ∀ b ∈ bs, name b ≠ q) :
    ofLog q (bs.flatMap fun b => (f b).map (name b, ·)) = [] := by
  induction bs with
  | nil => rfl
  | cons b bs ih =>
    have hb := h b (by simp)
    rw [List.flatMap_cons, ofLog_append, ih fun c hc => h c (by simp [hc])]
    simp [ofLog, List.filter_map, Function.comp_def, hb]

/-- What is listed log by log is found there. -/
theorem ofLog_flatMap_of_mem (hnodup : (bs.map name).Nodup) {b : β} (hb : b ∈ bs) :
    ofLog (name b) (bs.flatMap fun b => (f b).map (name b, ·)) = f b := by
  induction bs with
  | nil => cases hb
  | cons c bs ih =>
    rw [List.map_cons, List.nodup_cons] at hnodup
    obtain ⟨hc, hrest⟩ := hnodup
    rw [List.flatMap_cons, ofLog_append]
    rcases List.mem_cons.mp hb with rfl | hb
    · rw [ofLog_flatMap_of_notMem fun d hd he => hc (List.mem_map.mpr ⟨d, hd, he⟩)]
      simp [ofLog, List.filter_map, Function.comp_def]
    · have hne : name c ≠ name b := fun he => hc (List.mem_map.mpr ⟨b, hb, he.symm⟩)
      rw [ih hrest hb]
      simp [ofLog, List.filter_map, Function.comp_def, hne]

end

section

variable {log log' : ι → RetainedLog offset} {position position' : ι → Option ℤ} {lo : ι → ℤ}
  {returned lost places aged : List (ι × ℤ)}

/-- A reader follows each of the logs it has a position for, since `lo`. -/
structure Following (log : ι → RetainedLog offset) (position : ι → Option ℤ) (lo : ι → ℤ)
    (returned lost : List (ι × ℤ)) : Prop where
  known : ∀ q pos, position q = some pos →
    ∃ got, Follows (log q) (ofLog q lost) (lo q) pos got ∧
      (ofLog q returned).Perm (got.map offset)
  unknown : ∀ q, position q = none → ofLog q returned = [] ∧ ofLog q lost = []

/-- What one call does: for a log it had a position for it reports what was trimmed and hands on the
entries that come then; another log it follows from the end on. -/
structure Polls (log : ι → RetainedLog offset) (position position' : ι → Option ℤ)
    (places aged : List (ι × ℤ)) : Prop where
  known : ∀ q pos, position q = some pos → ∃ n taken, pos ≤ n ∧ n ≤ (log q).next ∧
    ofLog q aged = gap pos n ∧ taken <+: ((log q).entries.filter fun a => n ≤ offset a) ∧
    (ofLog q places).Perm (taken.map offset) ∧ position' q = some (reached (after offset) n taken)
  unknown : ∀ q, position q = none → ofLog q places = [] ∧ ofLog q aged = [] ∧
    ∀ pos, position' q = some pos → pos ≤ (log q).next

theorem following_none (log : ι → RetainedLog offset) (lo : ι → ℤ) :
    Following log (fun _ => none) lo [] [] :=
  ⟨nofun, fun _ _ => ⟨rfl, rfl⟩⟩

theorem Following.grow (h : Following log position lo returned lost)
    (hg : ∀ q, (log q).Grows (log' q)) : Following log' position lo returned lost := by
  refine ⟨fun q pos hq => ?_, h.unknown⟩
  obtain ⟨got, hf, hp⟩ := h.known q pos hq
  exact ⟨got, hf.grow (hg q), hp⟩

/-- Where each log has been followed from, after a call. -/
def since (position position' : ι → Option ℤ) (lo : ι → ℤ) (q : ι) : ℤ :=
  match position q with
  | some _ => lo q
  | none => (position' q).getD (lo q)

omit [DecidableEq ι] in
theorem since_of_known {q : ι} (h : position q ≠ none) : since position position' lo q = lo q := by
  rw [since]
  cases hq : position q with
  | none => exact absurd hq h
  | some pos => rfl

omit [DecidableEq ι] in
theorem since_of_new {q : ι} {pos : ℤ} (h : position q = none) (h' : position' q = some pos) :
    since position position' lo q = pos := by
  rw [since, h, h']
  rfl

/-- A log that is followed stays followed. -/
theorem Polls.known_of_known (h : Polls log position position' places aged) {q : ι}
    (hq : position q ≠ none) : position' q ≠ none := by
  obtain ⟨pos, hpos⟩ := Option.ne_none_iff_exists'.mp hq
  obtain ⟨n, taken, -, -, -, -, -, hpos'⟩ := h.known q pos hpos
  simp [hpos']

/-- A log that comes to be followed is followed from no later than its end. -/
theorem Polls.le_next (h : Polls log position position' places aged) {q : ι} {pos : ℤ}
    (hq : position q = none) (hpos : position' q = some pos) : pos ≤ (log q).next :=
  (h.unknown q hq).2.2 pos hpos

/-- **A call keeps account.** -/
theorem Following.poll (h : Following log position lo returned lost)
    (hp : Polls log position position' places aged) :
    Following log position' (since position position' lo) (returned ++ places) (lost ++ aged) := by
  constructor
  · intro q pos' hpos'
    cases hq : position q with
    | some pos =>
      obtain ⟨got, hf, hret⟩ := h.known q pos hq
      obtain ⟨n, taken, hle, hn, haged, htaken, hplaces, hpos⟩ := hp.known q pos hq
      obtain rfl := Option.some.inj (hpos.symm.trans hpos')
      refine ⟨got ++ taken, ?_, ?_⟩
      · rw [since_of_known (by simp [hq])]
        simpa [haged] using (hf.skip hle hn).read htaken
      · simpa using hret.append hplaces
    | none =>
      obtain ⟨hret, hlost⟩ := h.unknown q hq
      obtain ⟨hplaces, haged, hend⟩ := hp.unknown q hq
      refine ⟨[], ?_, by simp [hret, hplaces]⟩
      rw [since_of_new hq hpos']
      simpa [hlost, haged] using Follows.start (hend pos' hpos')
  · intro q hq'
    cases hq : position q with
    | some pos =>
      obtain ⟨n, taken, -, -, -, -, -, hpos⟩ := hp.known q pos hq
      rw [hq'] at hpos
      cases hpos
    | none =>
      obtain ⟨hret, hlost⟩ := h.unknown q hq
      obtain ⟨hplaces, haged, -⟩ := hp.unknown q hq
      exact ⟨by simp [hret, hplaces], by simp [hlost, haged]⟩

/-- What is handed on stays in order, log by log, where each call keeps it. -/
theorem Following.poll_ordered (h : Following log position lo returned lost)
    (hp : Polls log position position' places aged) {q : ι}
    (hreturned : (ofLog q returned).Pairwise (· < ·)) (hplaces : (ofLog q places).Pairwise (· < ·)) :
    (ofLog q (returned ++ places)).Pairwise (· < ·) := by
  rw [ofLog_append]
  refine List.pairwise_append.mpr ⟨hreturned, hplaces, fun j hj k hk => ?_⟩
  cases hq : position q with
  | none =>
    rw [(h.unknown q hq).1] at hj
    cases hj
  | some pos =>
    obtain ⟨got, hf, hret⟩ := h.known q pos hq
    obtain ⟨n, taken, hle, -, -, htaken, hperm, -⟩ := hp.known q pos hq
    obtain ⟨a, ha, rfl⟩ := List.mem_map.mp (hret.subset hj)
    obtain ⟨b, hb, rfl⟩ := List.mem_map.mp (hperm.subset hk)
    have hbefore := (hf.covers.within a ha).2
    have hafter : n ≤ offset b := by
      simpa using (List.mem_filter.mp (htaken.subset hb)).2
    simp only [after] at hbefore
    omega

/-- **An entry behind the reader** was handed on once, or reported once, and not both. -/
theorem Following.accounted (h : Following log position lo returned lost) {q : ι} {pos : ℤ}
    (hq : position q = some pos) {a : α} (ha : a ∈ (log q).entries) (hlo : lo q ≤ offset a)
    (hhi : offset a < pos) :
    (returned.count (q, offset a) = 1 ∧ (q, offset a) ∉ lost) ∨
      ((q, offset a) ∉ returned ∧ lost.count (q, offset a) = 1) := by
  obtain ⟨got, hf, hret⟩ := h.known q pos hq
  rw [← count_ofLog, ← count_ofLog, ← mem_ofLog, ← mem_ofLog, hret.count_eq, hret.mem_iff]
  exact hf.once ha hlo hhi

end

end Lib.Tail
