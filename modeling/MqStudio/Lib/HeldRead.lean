import Mathlib

/-!
# Reading with a hold

Messages are received in batches, each of them held by a handle, until enough are listed, a call
fails, or a reply is empty; every key is listed once.  What is held is given back in slices.

* `receiveHeld_took`: the handles kept are those of the replies, and the list has each key once.
* `slices_flatten`: the slices are the whole list.
* `endsByItself_iff`: every call but the last brings a new key, exactly if no reply that the reader
  comes to is made of known keys only.
-/

namespace Lib.HeldRead

universe u v

/-- What a message is known by, what it is held by, and how many one call may ask for. -/
structure Reader (μ : Type u) (κ η : Type v) where
  key : μ → κ
  handle : μ → η
  batch : ℕ

structure Reading (μ : Type u) (κ η : Type v) where
  collected : List μ
  handles : List η
  seen : List κ

structure Call (ε μ : Type u) where
  asked : ℕ
  reply : Except ε (List μ)

/-- A reading that ended, with the calls it made. -/
structure Ended (ε μ : Type u) (κ η : Type v) where
  calls : List (Call ε μ)
  reading : Reading μ κ η
  failure : Option ε

variable {ε μ : Type u} {κ η : Type v} [DecidableEq κ]

def Reading.empty : Reading μ κ η := ⟨[], [], []⟩

/-- The messages of a reply. -/
def messages : Except ε (List μ) → List μ
  | .ok ms => ms
  | .error _ => []

def received (calls : List (Call ε μ)) : List μ := calls.flatMap fun call => messages call.reply

variable (reader : Reader μ κ η)

def take (r : Reading μ κ η) (m : μ) : Reading μ κ η :=
  let handles := r.handles ++ [reader.handle m]
  if reader.key m ∈ r.seen then { r with handles := handles }
  else { collected := r.collected ++ [m], handles := handles, seen := reader.key m :: r.seen }

/-- The calls, as far as the fuel goes. -/
def receiveHeld (replies : ℕ → Except ε (List μ)) (wanted : ℕ) :
    ℕ → List (Call ε μ) → Reading μ κ η → Option (Ended ε μ κ η)
  | 0, _, _ => none
  | fuel + 1, calls, r =>
    if r.collected.length < wanted then
      let reply := replies calls.length
      let calls := calls ++ [⟨min (wanted - r.collected.length) reader.batch, reply⟩]
      match reply with
      | .error err => some ⟨calls, r, some err⟩
      | .ok [] => some ⟨calls, r, none⟩
      | .ok (m :: ms) => receiveHeld replies wanted fuel calls ((m :: ms).foldl (take reader) r)
    else some ⟨calls, r, none⟩

/-- The slices of at most `size` that a list is cut into, from an index on. -/
def slices (size : ℕ) [NeZero size] (l : List η) (start : ℕ) : List (List η) :=
  if start < l.length then
    (l.take (min (start + size) l.length)).drop start :: slices size l (start + size)
  else []
termination_by l.length - start
decreasing_by have := NeZero.pos size; omega

/-! ### Slices -/

section Slices

variable {size : ℕ} [NeZero size] {l : List η}

omit [NeZero size] in
theorem slice_eq (start : ℕ) :
    (l.take (min (start + size) l.length)).drop start = (l.drop start).take size := by
  rcases Nat.le_total (start + size) l.length with h | h
  · rw [min_eq_left h, List.drop_take, Nat.add_sub_cancel_left]
  · have hlength : (l.drop start).length ≤ size := by
      rw [List.length_drop]
      omega
    rw [min_eq_right h, List.take_length, List.take_of_length_le hlength]

/-- **The slices are the whole list.** -/
theorem slices_flatten (start : ℕ) : (slices size l start).flatten = l.drop start := by
  fun_induction slices size l start with
  | case1 start hstart ih =>
    rw [List.flatten_cons, ih, slice_eq, ← List.drop_drop, List.take_append_drop]
  | case2 start hstart =>
    rw [List.flatten_nil, List.drop_eq_nil_of_le (by omega)]

theorem length_slice_le {start : ℕ} {part : List η} (h : part ∈ slices size l start) :
    part.length ≤ size := by
  fun_induction slices size l start with
  | case1 start hstart ih =>
    rcases List.mem_cons.mp h with rfl | h
    · rw [List.length_drop, List.length_take]
      omega
    · exact ih h
  | case2 start hstart => exact absurd h List.not_mem_nil

end Slices

/-! ### What is listed and what is held -/

/-- A reading has taken in the messages of a list. -/
structure Took (r : Reading μ κ η) (ms : List μ) : Prop where
  handles : r.handles = ms.map reader.handle
  keys : (r.collected.map reader.key).reverse = r.seen
  nodup : r.seen.Nodup
  seen : ∀ k, k ∈ r.seen ↔ k ∈ ms.map reader.key
  listed : r.collected.Sublist ms

variable {reader} {r : Reading μ κ η} {ms : List μ}

omit [DecidableEq κ] in
theorem took_empty : Took reader .empty ([] : List μ) :=
  ⟨rfl, rfl, List.nodup_nil, fun _ => Iff.rfl, List.Sublist.refl _⟩

theorem Took.take (h : Took reader r ms) (m : μ) :
    Took reader (take reader r m) (ms ++ [m]) := by
  have hhandles : r.handles ++ [reader.handle m] = (ms ++ [m]).map reader.handle := by
    rw [h.handles, List.map_append, List.map_singleton]
  rw [HeldRead.take]
  split
  case isTrue hseen =>
    refine ⟨hhandles, h.keys, h.nodup, fun k => ?_, h.listed.trans (List.sublist_append_left _ _)⟩
    rw [List.map_append, List.mem_append, List.map_singleton, List.mem_singleton, h.seen k,
      or_iff_left_of_imp]
    rintro rfl
    exact (h.seen _).mp hseen
  case isFalse hseen =>
    refine ⟨hhandles, ?_, h.nodup.cons hseen, fun k => ?_, h.listed.append (List.Sublist.refl _)⟩
    · simp [h.keys]
    · rw [List.map_append, List.mem_append, List.map_singleton, List.mem_singleton, List.mem_cons,
        h.seen k, or_comm]

theorem Took.foldl (h : Took reader r ms) (more : List μ) :
    Took reader (more.foldl (HeldRead.take reader) r) (ms ++ more) := by
  induction more generalizing r ms with
  | nil => rwa [List.append_nil]
  | cons m more ih => simpa using ih (h.take m)

omit [DecidableEq κ] in
theorem Took.nodup_keys (h : Took reader r ms) : (r.collected.map reader.key).Nodup := by
  rw [← List.nodup_reverse, h.keys]
  exact h.nodup

/-- The list is as long as there are keys. -/
theorem Took.length_collected (h : Took reader r ms) :
    r.collected.length = (ms.map reader.key).toFinset.card := by
  have hkeys : r.seen.toFinset = (ms.map reader.key).toFinset := by
    ext k
    rw [List.mem_toFinset, List.mem_toFinset, h.seen]
  rw [← hkeys, List.toFinset_card_of_nodup h.nodup, ← h.keys, List.length_reverse, List.length_map]

theorem received_append (calls : List (Call ε μ)) (call : Call ε μ) :
    received (calls ++ [call]) = received calls ++ messages call.reply := by
  rw [received, List.flatMap_append, List.flatMap_singleton, received]

variable {replies : ℕ → Except ε (List μ)} {wanted fuel : ℕ} {calls : List (Call ε μ)}
  {ended : Ended ε μ κ η}

/-- **The handles kept are those of the replies**, and each key is listed once. -/
theorem receiveHeld_took (h : receiveHeld reader replies wanted fuel calls r = some ended)
    (htook : Took reader r (received calls)) :
    Took reader ended.reading (received ended.calls) := by
  induction fuel generalizing calls r with
  | zero => nomatch h
  | succ fuel ih =>
    rw [receiveHeld] at h
    split at h
    case isFalse => obtain rfl := Option.some.inj h; exact htook
    case isTrue hless =>
      dsimp only at h
      split at h
      case h_1 err herr =>
        obtain rfl := Option.some.inj h
        rw [received_append, herr]
        simpa [messages] using htook
      case h_2 hempty =>
        obtain rfl := Option.some.inj h
        rw [received_append, hempty]
        simpa [messages] using htook
      case h_3 m ms hok =>
        refine ih h ?_
        rw [received_append, hok]
        exact htook.foldl (m :: ms)

theorem length_foldl_take (more : List μ) (r : Reading μ κ η) :
    (more.foldl (take reader) r).collected.length ≤ r.collected.length + more.length := by
  induction more generalizing r with
  | nil => exact Nat.le_refl _
  | cons m more ih =>
    have hone : (take reader r m).collected.length ≤ r.collected.length + 1 := by
      rw [take]
      split <;> simp
    have := ih (take reader r m)
    rw [List.foldl_cons, List.length_cons]
    omega

/-- No reply was larger than asked for. -/
def Within (calls : List (Call ε μ)) : Prop :=
  ∀ call ∈ calls, (messages call.reply).length ≤ call.asked

theorem calls_isPrefix (h : receiveHeld reader replies wanted fuel calls r = some ended) :
    calls <+: ended.calls := by
  induction fuel generalizing calls r with
  | zero => nomatch h
  | succ fuel ih =>
    rw [receiveHeld] at h
    split at h
    case isFalse => obtain rfl := Option.some.inj h; exact List.prefix_refl _
    case isTrue hless =>
      dsimp only at h
      split at h
      case h_1 => obtain rfl := Option.some.inj h; exact List.prefix_append _ _
      case h_2 => obtain rfl := Option.some.inj h; exact List.prefix_append _ _
      case h_3 => exact (List.prefix_append _ _).trans (ih h)

/-- No more is listed than was wanted. -/
theorem length_collected_le (h : receiveHeld reader replies wanted fuel calls r = some ended)
    (hwithin : Within ended.calls) (hr : r.collected.length ≤ wanted) :
    ended.reading.collected.length ≤ wanted := by
  induction fuel generalizing calls r with
  | zero => nomatch h
  | succ fuel ih =>
    rw [receiveHeld] at h
    split at h
    case isFalse => obtain rfl := Option.some.inj h; exact hr
    case isTrue hless =>
      dsimp only at h
      split at h
      case h_1 => obtain rfl := Option.some.inj h; exact hr
      case h_2 => obtain rfl := Option.some.inj h; exact hr
      case h_3 m ms hok =>
        refine ih h ?_
        have hcall := hwithin _ ((calls_isPrefix h).subset
          (List.mem_append_right _ List.mem_cons_self))
        rw [hok] at hcall
        have hlength : ((m :: ms).foldl (take reader) r).collected.length ≤ _ :=
          length_foldl_take (m :: ms) r
        simp only [messages] at hcall
        omega

/-! ### When a reading ends -/

/-- The messages of the first replies. -/
def before (replies : ℕ → Except ε (List μ)) (n : ℕ) : List μ :=
  (List.range n).flatMap fun i => messages (replies i)

/-- The keys of the first replies. -/
def keysBefore (reader : Reader μ κ η) (replies : ℕ → Except ε (List μ)) (n : ℕ) : Finset κ :=
  ((before replies n).map reader.key).toFinset

/-- A reply that is no reason to stop. -/
def Filled (replies : ℕ → Except ε (List μ)) (n : ℕ) : Prop := ∃ m ms, replies n = .ok (m :: ms)

/-- A reply has a key that no earlier one had. -/
def Brings (reader : Reader μ κ η) (replies : ℕ → Except ε (List μ)) (n : ℕ) : Prop :=
  ∃ m ∈ messages (replies n), reader.key m ∉ keysBefore reader replies n

/-- A reply of known keys only, after replies that left something wanted. -/
def Stale (reader : Reader μ κ η) (replies : ℕ → Except ε (List μ)) (wanted n : ℕ) : Prop :=
  (∀ i < n, Filled replies i) ∧ (keysBefore reader replies n).card < wanted ∧
    Filled replies n ∧ ¬Brings reader replies n

/-- The reading ends, and every call but its last brings a key that is new. -/
def EndsByItself (reader : Reader μ κ η) (replies : ℕ → Except ε (List μ)) (wanted : ℕ) : Prop :=
  ∃ fuel ended, receiveHeld reader replies wanted fuel [] .empty = some ended ∧
    ∀ n, n + 1 < ended.calls.length → Brings reader replies n

omit [DecidableEq κ] in
theorem before_succ (n : ℕ) :
    before replies (n + 1) = before replies n ++ messages (replies n) := by
  rw [before, List.range_succ, List.flatMap_append, List.flatMap_singleton, before]

theorem keysBefore_succ (n : ℕ) : keysBefore reader replies (n + 1) =
    keysBefore reader replies n ∪ ((messages (replies n)).map reader.key).toFinset := by
  rw [keysBefore, before_succ, List.map_append, List.toFinset_append, keysBefore]

theorem card_keysBefore_mono {n k : ℕ} (h : n ≤ k) :
    (keysBefore reader replies n).card ≤ (keysBefore reader replies k).card := by
  induction h with
  | refl => exact Nat.le_refl _
  | step _ ih =>
    rw [Nat.succ_eq_add_one, keysBefore_succ]
    exact ih.trans (Finset.card_le_card Finset.subset_union_left)

theorem keysBefore_succ_of_not_brings {n : ℕ} (h : ¬Brings reader replies n) :
    keysBefore reader replies (n + 1) = keysBefore reader replies n := by
  rw [keysBefore_succ, Finset.union_eq_left]
  intro k hk
  obtain ⟨m, hm, rfl⟩ := List.mem_map.mp (List.mem_toFinset.mp hk)
  exact not_not.mp fun hnew => h ⟨m, hm, hnew⟩

theorem Brings.card_lt {n : ℕ} (h : Brings reader replies n) :
    (keysBefore reader replies n).card < (keysBefore reader replies (n + 1)).card := by
  obtain ⟨m, hm, hnew⟩ := h
  refine Finset.card_lt_card (Finset.ssubset_iff_subset_ne.mpr ⟨?_, fun heq => hnew ?_⟩)
  · rw [keysBefore_succ]
    exact Finset.subset_union_left
  · rw [heq, keysBefore_succ]
    exact Finset.mem_union_right _ (List.mem_toFinset.mpr (List.mem_map_of_mem hm))

/-- As many keys as calls, where every one of them brought a key. -/
theorem le_card_keysBefore {n : ℕ} (h : ∀ i < n, Brings reader replies i) :
    n ≤ (keysBefore reader replies n).card := by
  induction n with
  | zero => exact Nat.zero_le _
  | succ n ih =>
    have := ih fun i hi => h i (Nat.lt_succ_of_lt hi)
    have := (h n (Nat.lt_succ_self n)).card_lt
    omega

/-- The reading after the first replies. -/
structure Reads (reader : Reader μ κ η) (replies : ℕ → Except ε (List μ))
    (calls : List (Call ε μ)) (r : Reading μ κ η) : Prop where
  received : received calls = before replies calls.length
  took : Took reader r (HeldRead.received calls)

theorem Reads.length_collected (h : Reads reader replies calls r) :
    r.collected.length = (keysBefore reader replies calls.length).card := by
  rw [h.took.length_collected, h.received, keysBefore]

/-- One more call, whose reply was filled. -/
theorem Reads.next (h : Reads reader replies calls r) {m : μ} {ms : List μ}
    (hok : replies calls.length = .ok (m :: ms)) (asked : ℕ) :
    Reads reader replies (calls ++ [⟨asked, .ok (m :: ms)⟩])
      ((m :: ms).foldl (HeldRead.take reader) r) where
  received := by
    rw [received_append, h.received, List.length_append, List.length_singleton, before_succ, hok]
  took := by
    rw [received_append]
    exact h.took.foldl (m :: ms)

/-- A call is made after filled replies that leave something wanted. -/
theorem calls_of_filled (h : receiveHeld reader replies wanted fuel calls r = some ended)
    (hreads : Reads reader replies calls r) {n : ℕ} (hn : calls.length ≤ n)
    (hfilled : ∀ i < n, Filled replies i) (hless : (keysBefore reader replies n).card < wanted) :
    n < ended.calls.length := by
  induction fuel generalizing calls r with
  | zero => nomatch h
  | succ fuel ih =>
    have hcard : (keysBefore reader replies calls.length).card ≤ _ := card_keysBefore_mono hn
    have hpre := (calls_isPrefix h).length_le
    rw [receiveHeld, if_pos (by rw [hreads.length_collected]; omega)] at h
    dsimp only at h
    rcases Nat.eq_or_lt_of_le hn with rfl | hlt
    · -- the call itself is the next one
      split at h
      case h_1 => obtain rfl := Option.some.inj h; simp
      case h_2 => obtain rfl := Option.some.inj h; simp
      case h_3 => simpa using (calls_isPrefix h).length_le
    · obtain ⟨m, ms, hok⟩ := hfilled _ hlt
      rw [hok] at h
      exact ih h (hreads.next hok _) (by simpa using hlt)

/-- Without stale replies a reading ends, and every call but the last brings a key. -/
theorem exists_receiveHeld (hstale : ∀ n, ¬Stale reader replies wanted n)
    (hreads : Reads reader replies calls r) (hfilled : ∀ i < calls.length, Filled replies i)
    (hbrings : ∀ i < calls.length, Brings reader replies i) :
    ∃ fuel ended, receiveHeld reader replies wanted fuel calls r = some ended ∧
      ∀ n, n + 1 < ended.calls.length → Brings reader replies n := by
  induction hleft : wanted - r.collected.length using Nat.strong_induction_on
    generalizing calls r with
  | _ left ih =>
    by_cases hless : r.collected.length < wanted
    case neg => exact ⟨1, ⟨calls, r, none⟩, by rw [receiveHeld, if_neg hless],
      fun n hn => hbrings n (Nat.lt_of_succ_lt hn)⟩
    case pos =>
      cases hreply : replies calls.length with
      | error err =>
        refine ⟨1, ⟨calls ++ [_], r, some err⟩, by rw [receiveHeld, if_pos hless, hreply], ?_⟩
        intro n hn
        exact hbrings n (by simpa using hn)
      | ok ms =>
        cases ms with
        | nil =>
          refine ⟨1, ⟨calls ++ [_], r, none⟩, by rw [receiveHeld, if_pos hless, hreply], ?_⟩
          intro n hn
          exact hbrings n (by simpa using hn)
        | cons m ms =>
          have hfill : Filled replies calls.length := ⟨m, ms, hreply⟩
          have hnew : Brings reader replies calls.length := by
            refine not_not.mp fun hold => hstale calls.length ⟨hfilled, ?_, hfill, hold⟩
            rwa [← hreads.length_collected]
          have hnext := hreads.next hreply (min (wanted - r.collected.length) reader.batch)
          have hgrows := hnew.card_lt
          rw [← hreads.length_collected] at hgrows
          have hlength := hnext.length_collected
          rw [List.length_append, List.length_singleton] at hlength
          have hupto : ∀ {P : ℕ → Prop}, (∀ i < calls.length, P i) → P calls.length →
              ∀ i < (calls ++ [(⟨min (wanted - r.collected.length) reader.batch,
                .ok (m :: ms)⟩ : Call ε μ)]).length, P i := by
            intro P hall hlast i hi
            rw [List.length_append, List.length_singleton] at hi
            rcases Nat.lt_succ_iff_lt_or_eq.mp hi with hi | rfl
            exacts [hall i hi, hlast]
          obtain ⟨fuel, ended, hrun, hends⟩ := ih _ (by omega) hnext (hupto hfilled hfill)
            (hupto hbrings hnew) rfl
          exact ⟨fuel + 1, ended, by rw [receiveHeld, if_pos hless, hreply]; exact hrun, hends⟩

omit [DecidableEq κ] in
theorem reads_empty : Reads reader replies [] .empty := ⟨rfl, took_empty⟩

/-- **Every call but the last brings a new key**, exactly if no reply that the reader comes to is
made of known keys only. -/
theorem endsByItself_iff :
    EndsByItself reader replies wanted ↔ ∀ n, ¬Stale reader replies wanted n := by
  constructor
  · rintro ⟨fuel, ended, hrun, hends⟩ n ⟨hfilled, hless, hfill, hold⟩
    -- a stale reply leaves as much wanted as before, so there is another call
    refine hold (hends n (calls_of_filled hrun reads_empty (Nat.zero_le _) ?_ ?_))
    · intro i hi
      rcases Nat.lt_succ_iff_lt_or_eq.mp hi with hi | rfl
      exacts [hfilled i hi, hfill]
    · rwa [keysBefore_succ_of_not_brings hold]
  · intro hstale
    exact exists_receiveHeld hstale reads_empty (fun i hi => absurd hi (Nat.not_lt_zero i))
      fun i hi => absurd hi (Nat.not_lt_zero i)

/-- **A bound on the calls**: one more than there are keys. -/
theorem calls_le_card {held : Finset κ}
    (hheld : ∀ n, ∀ m ∈ messages (replies n), reader.key m ∈ held)
    (hends : ∀ n, n + 1 < ended.calls.length → Brings reader replies n) :
    ended.calls.length ≤ held.card + 1 := by
  have hcard := le_card_keysBefore fun i (hi : i < ended.calls.length - 1) => hends i (by omega)
  have hsubset : keysBefore reader replies (ended.calls.length - 1) ⊆ held := by
    intro k hk
    obtain ⟨m, hm, rfl⟩ := List.mem_map.mp (List.mem_toFinset.mp hk)
    obtain ⟨i, _, hi⟩ := List.mem_flatMap.mp hm
    exact hheld i m hi
  have := Finset.card_le_card hsubset
  omega

/-! ### A reading without an end -/

theorem foldl_take_of_seen {more : List μ} (h : ∀ m ∈ more, reader.key m ∈ r.seen) :
    (more.foldl (take reader) r).collected = r.collected ∧
      (more.foldl (take reader) r).seen = r.seen := by
  induction more generalizing r with
  | nil => exact ⟨rfl, rfl⟩
  | cons m more ih =>
    obtain ⟨hm, hmore⟩ := List.forall_mem_cons.mp h
    have hone : take reader r m = { r with handles := r.handles ++ [reader.handle m] } := by
      rw [take, if_pos hm]
    rw [List.foldl_cons, hone]
    exact ih hmore

/-- Replies of known keys, for ever: the reading never ends. -/
theorem receiveHeld_of_seen
    (hseen : ∀ n, Filled replies n ∧ ∀ m ∈ messages (replies n), reader.key m ∈ r.seen)
    (hless : r.collected.length < wanted) (fuel : ℕ) :
    receiveHeld reader replies wanted fuel calls r = none := by
  induction fuel generalizing calls r with
  | zero => rfl
  | succ fuel ih =>
    obtain ⟨⟨m, ms, hok⟩, hknown⟩ := hseen calls.length
    simp only [hok, messages] at hknown
    obtain ⟨hcollected, hkept⟩ := foldl_take_of_seen hknown
    simp only [receiveHeld, if_pos hless, hok]
    refine ih (fun n => ?_) ?_
    · rw [hkept]
      exact hseen n
    · rwa [hcollected]


end Lib.HeldRead
