import MqStudio.Kafka.RecordRead

/-!
# How far a Kafka read goes

`readRecords` of `kafka/record_read.go` with no matcher, over every order in which a
client may hand over what the partitions hold, with records appended meanwhile.

* `scanOf`: the read after some records, in closed form (`messages_scanOf`,
  `wantsMore_scanOf`).
* `Reading`: what one read is asked and what the topic holds; `Reading.Schedule`: what the
  polls may hand over.
* `reading_right_iff`: the read stays in its ranges, answers with as much as it should and
  waits for nothing exactly if `Reading.Closed` holds of the topic.
-/

namespace MqStudio.Kafka

open Std (ExtTreeMap)
open Lib.Maps Lib.Parts
open Model

/-! ### The read after some records -/

section

variable {topic : String} {limit : Int} {remaining : Positions}

/-- The read after some records, in the order they came. -/
def scanOf (topic : String) (limit : Int) (remaining : Positions) (seen : List Record) : Scan :=
  seen.foldl (Scan.record topic limit remaining none) ⟨[], 0, ∅⟩

theorem scanOf_append (seen more : List Record) :
    scanOf topic limit remaining (seen ++ more) =
      more.foldl (Scan.record topic limit remaining none) (scanOf topic limit remaining seen) :=
  List.foldl_append ..

theorem scanOf_concat (seen : List Record) (record : Record) :
    scanOf topic limit remaining (seen ++ [record]) =
      (scanOf topic limit remaining seen).record topic limit remaining none record :=
  scanOf_append seen [record]

/-- A read keeps the first records, up to its limit. -/
theorem messages_scanOf (seen : List Record) :
    (scanOf topic limit remaining seen).messages =
      (seen.take limit.toNat).map (messageFrom topic) := by
  induction seen using List.reverseRecOn with
  | nil => simp [scanOf]
  | append_singleton seen record ih =>
    rw [scanOf_concat, Scan.record_messages, ih, List.length_map, List.length_take]
    by_cases hlim : limit ≤ ((min limit.toNat seen.length : Nat) : Int)
    · have hle : limit.toNat ≤ seen.length := by omega
      rw [if_pos hlim, List.take_append_of_le_length hle]
    · have hlt : seen.length < limit.toNat := by omega
      rw [if_neg hlim, List.take_of_length_le hlt.le, List.take_of_length_le (by simp; omega),
        List.map_append]
      rfl

theorem done_record (s : Scan) (record : Record) (partition : Int32) :
    (s.record topic limit remaining none record).done[partition]? =
      if record.partition = partition ∧
          (remaining[record.partition]?).getD 0 ≤ record.offset + 1 then some true
      else s.done[partition]? := by
  have hdone : (s.record topic limit remaining none record).done =
      if (remaining[record.partition]?).getD 0 ≤ record.offset + 1 then
        s.done.insert record.partition true else s.done := by
    rw [Scan.record]
    simp only [Option.map_none, Option.getD_none, Bool.false_eq_true, if_false]
    split <;> rfl
  rw [hdone]
  by_cases hend : (remaining[record.partition]?).getD 0 ≤ record.offset + 1
  · rw [if_pos hend, getElem?_insert]
    simp [hend]
  · simp [hend]

/-- A record that comes to the end of its partition. -/
def Ends (remaining : Positions) (record : Record) : Prop :=
  (remaining[record.partition]?).getD 0 ≤ record.offset + 1

/-- A partition is done once a record that comes to its end was seen. -/
theorem mem_done_scanOf (seen : List Record) (partition : Int32) :
    partition ∈ (scanOf topic limit remaining seen).done ↔
      ∃ record ∈ seen, record.partition = partition ∧ Ends remaining record := by
  rw [ExtTreeMap.mem_iff_isSome_getElem?]
  induction seen using List.reverseRecOn with
  | nil => simp [scanOf]
  | append_singleton seen record ih =>
    rw [scanOf_concat, done_record]
    by_cases hend : record.partition = partition ∧
        (remaining[record.partition]?).getD 0 ≤ record.offset + 1
    · rw [if_pos hend]
      exact ⟨fun _ => ⟨record, by simp, hend⟩, fun _ => rfl⟩
    · rw [if_neg hend, ih]
      constructor
      · rintro ⟨r, hr, h⟩
        exact ⟨r, List.mem_append_left _ hr, h⟩
      · rintro ⟨r, hr, h⟩
        rcases List.mem_append.mp hr with hr | hr
        · exact ⟨r, hr, h⟩
        · rw [List.mem_singleton.mp hr] at h
          exact absurd h hend

/-- A map whose keys are among another's is smaller exactly if it misses one. -/
theorem size_lt_iff {done : ExtTreeMap Int32 Bool compare} {remaining : Positions}
    (h : ∀ partition ∈ done, partition ∈ remaining) :
    done.size < remaining.size ↔ ∃ partition ∈ remaining, partition ∉ done := by
  have hnodup : done.keys.Nodup := ExtTreeMap.nodup_keys
  have hnodup' : remaining.keys.Nodup := ExtTreeMap.nodup_keys
  have hsub : done.keys ⊆ remaining.keys := fun partition hp =>
    ExtTreeMap.mem_keys.mpr (h partition (ExtTreeMap.mem_keys.mp hp))
  rw [← ExtTreeMap.length_keys, ← ExtTreeMap.length_keys]
  constructor
  · intro hlt
    by_contra hall
    push Not at hall
    have hback : remaining.keys ⊆ done.keys := fun partition hp =>
      ExtTreeMap.mem_keys.mpr (hall partition (ExtTreeMap.mem_keys.mp hp))
    have hle := (hnodup'.subperm hback).length_le
    omega
  · rintro ⟨partition, hp, hn⟩
    have hcons : (partition :: done.keys).Nodup :=
      List.nodup_cons.mpr ⟨fun hm => hn (ExtTreeMap.mem_keys.mp hm), hnodup⟩
    have hsub' : partition :: done.keys ⊆ remaining.keys :=
      List.cons_subset.mpr ⟨ExtTreeMap.mem_keys.mpr hp, hsub⟩
    have hle := (hcons.subperm hsub').length_le
    simpa [Nat.succ_le_iff] using hle

/-- A read goes on while there is room and a partition without a record that came to its end. -/
theorem wantsMore_scanOf {seen : List Record} (h : ∀ record ∈ seen, record.partition ∈ remaining) :
    (scanOf topic limit remaining seen).wantsMore limit remaining = true ↔
      (seen.length : Int) < limit ∧ ∃ partition ∈ remaining, ∀ record ∈ seen,
        record.partition = partition → ¬ Ends remaining record := by
  have hdone : ∀ partition ∈ (scanOf topic limit remaining seen).done, partition ∈ remaining := by
    intro partition hp
    obtain ⟨record, hr, rfl, -⟩ := (mem_done_scanOf seen partition).mp hp
    exact h record hr
  rw [Scan.wantsMore, Bool.and_eq_true, decide_eq_true_eq, decide_eq_true_eq, size_lt_iff hdone,
    messages_scanOf, List.length_map, List.length_take]
  refine and_congr (by omega) ?_
  refine exists_congr fun partition => and_congr_right fun _ => ?_
  rw [mem_done_scanOf]
  push Not
  rfl

/-- The loop over polls that hand something over: it asks for more than there is, or stops after
some of them. -/
theorem loop_cases {batches : List (List Record)} (h : ∀ batch ∈ batches, batch ≠ [])
    (seen : List Record) :
    (Scan.loop topic limit remaining none (batches.map .records)
        (scanOf topic limit remaining seen) = none ∧
      ∀ k, (scanOf topic limit remaining (seen ++ (batches.take k).flatten)).wantsMore limit
        remaining = true) ∨
    ∃ k, (scanOf topic limit remaining (seen ++ (batches.take k).flatten)).wantsMore limit
        remaining = false ∧
      Scan.loop topic limit remaining none (batches.map .records)
          (scanOf topic limit remaining seen) =
        some (.ok (scanOf topic limit remaining (seen ++ (batches.take k).flatten)).messages) := by
  induction batches generalizing seen with
  | nil =>
    cases hw : (scanOf topic limit remaining seen).wantsMore limit remaining with
    | true => exact Or.inl ⟨by simp [Scan.loop, hw], fun k => by simpa using hw⟩
    | false => exact Or.inr ⟨0, by simpa using hw, by simp [Scan.loop, hw]⟩
  | cons batch batches ih =>
    cases hw : (scanOf topic limit remaining seen).wantsMore limit remaining with
    | false => exact Or.inr ⟨0, by simpa using hw, by simp [Scan.loop, hw]⟩
    | true =>
      have hne : batch.isEmpty = false := by simpa using h batch List.mem_cons_self
      have hloop : Scan.loop topic limit remaining none ((batch :: batches).map .records)
            (scanOf topic limit remaining seen) =
          Scan.loop topic limit remaining none (batches.map .records)
            (scanOf topic limit remaining (seen ++ batch)) := by
        rw [List.map_cons, Scan.loop, hw, scanOf_append]
        simp [hne]
      rw [hloop]
      rcases ih (fun b hb => h b (List.mem_cons_of_mem _ hb)) (seen ++ batch) with
        ⟨hnone, hall⟩ | ⟨k, hk, hsome⟩
      · refine Or.inl ⟨hnone, fun k => ?_⟩
        cases k with
        | zero => simpa using hw
        | succ k => simpa [List.append_assoc] using hall k
      · exact Or.inr ⟨k + 1, by simpa [List.append_assoc] using hk,
          by simpa [List.append_assoc] using hsome⟩

end

/-! ### One read -/

/-- The records of a log from a place on that are below an end. -/
def MixedLog.within {partition : Int32} (log : MixedLog partition) (start ending : Int) :
    List Record :=
  (log.deliverable start).filter fun record => record.offset < ending

/-- What one read is asked, what the partitions hold when it begins, and what they hold in the end.
New entries come at the end of a log, at or past the end that was listed. -/
structure Reading where
  topic : String
  limit : Int
  positions : Positions
  ends : ListedOffsets
  before : Logs
  after : Logs
  grows : ∀ partition, ∃ new, (after partition).entries = (before partition).entries ++ new ∧
    ∀ e ∈ new, offsetAt ends partition ≤ e.record.offset

namespace Reading

variable (r : Reading)

/-- The places the client is given: those below a listed end. -/
def asked : Positions :=
  r.positions.filterMap fun partition start =>
    if offsetAt r.ends partition < 0 ∨ offsetAt r.ends partition ≤ start then none else some start

/-- What the polls may hand over: something each time, no more than the limit, and altogether what
the partitions hold from the places on, in order. -/
def Schedule (batches : List (List Record)) : Prop :=
  (∀ batch ∈ batches, batch ≠ [] ∧ (batch.length : Int) ≤ r.limit) ∧
    Delivered r.after r.asked batches.flatten

/-- Something that was there from the beginning is still to come, so that a poll does not block. -/
def Pending (records : List Record) : Prop :=
  ∃ partition start, r.asked[partition]? = some start ∧
    (ofPartition partition records).length < ((r.before partition).deliverable start).length

def result (batches : List (List Record)) : Option (Except String (List MessageItem)) :=
  readRecords r.topic r.positions r.ends r.limit none (batches.map .records)

/-- The record is of a partition that was asked, in its range. -/
def InRange (record : Record) : Prop :=
  ∃ start, r.asked[record.partition]? = some start ∧ start ≤ record.offset ∧
    record.offset < offsetAt r.ends record.partition

/-- The deliverable records of one range. -/
def ranged (partition : Int32) : List Record :=
  (r.before partition).within ((r.asked[partition]?).getD 0) (offsetAt r.ends partition)

/-- How many deliverable records the ranges hold. -/
def total : Nat := (r.asked.keys.map fun partition => (r.ranged partition).length).sum

/-- The answer is as it should be: in the ranges, each record once and in order within its
partition, and as many as the limit and the ranges allow. -/
def Answers (messages : List MessageItem) : Prop :=
  ∃ records, messages = records.map (messageFrom r.topic) ∧
    (∀ record ∈ records, r.InRange record) ∧
    (∀ partition, (ofPartition partition records).Pairwise fun a b => a.offset < b.offset) ∧
    records.length = min r.limit.toNat r.total

/-- However the records are handed over, the read polls only while something is still to come, and
answers as it should. -/
def Right : Prop :=
  ∀ batches, r.Schedule batches →
    (r.result batches = none → r.Pending batches.flatten) ∧
      ∀ messages, r.result batches = some (.ok messages) → r.Answers messages

/-- Nothing past a range can come in front of the limit, and the limit or the last offsets end the
read. -/
structure Closed : Prop where
  past : ∀ partition start, r.asked[partition]? = some start →
    (∀ record ∈ (r.after partition).deliverable start,
      record.offset < offsetAt r.ends partition) ∨
    r.limit ≤ (r.ranged partition).length
  last : r.limit ≤ r.total ∨ ∀ partition start, r.asked[partition]? = some start →
    ∃ record ∈ (r.before partition).deliverable start,
      record.offset = offsetAt r.ends partition - 1

/-! ### What was asked -/

theorem getElem?_asked (partition : Int32) :
    r.asked[partition]? = r.positions[partition]?.bind fun start =>
      if offsetAt r.ends partition < 0 ∨ offsetAt r.ends partition ≤ start then none
      else some start := by
  rw [asked, ExtTreeMap.getElem?_filterMap']

theorem getElem?_remaining (partition : Int32) :
    (readable r.positions r.ends)[partition]? =
      r.asked[partition]?.map fun _ => offsetAt r.ends partition := by
  rw [getElem?_readable, getElem?_asked]
  cases r.positions[partition]? with
  | none => rfl
  | some start =>
    simp only [Option.bind_some]
    split <;> rfl

theorem mem_asked {partition : Int32} {start : Int} (h : r.asked[partition]? = some start) :
    partition ∈ r.asked := by
  rw [ExtTreeMap.mem_iff_isSome_getElem?, h]
  rfl

theorem mem_remaining {partition : Int32} :
    partition ∈ readable r.positions r.ends ↔ partition ∈ r.asked := by
  rw [ExtTreeMap.mem_iff_isSome_getElem?, ExtTreeMap.mem_iff_isSome_getElem?,
    getElem?_remaining, Option.isSome_map]

/-- A record of a partition that was asked ends it where it comes to the listed end. -/
theorem ends_iff {record : Record} (h : record.partition ∈ r.asked) :
    Ends (readable r.positions r.ends) record ↔
      offsetAt r.ends record.partition ≤ record.offset + 1 := by
  obtain ⟨start, hstart⟩ := Option.isSome_iff_exists.mp (ExtTreeMap.mem_iff_isSome_getElem?.mp h)
  rw [Ends, getElem?_remaining, hstart]
  rfl

variable {r} {batches : List (List Record)} {records : List Record} {partition : Int32}
  {start : Int}

/-- What was handed over of a partition begins what it holds from its place on. -/
theorem prefix_of_delivered (h : Delivered r.after r.asked records)
    (hp : r.asked[partition]? = some start) :
    ofPartition partition records <+: (r.after partition).deliverable start := by
  have hown := h partition
  rw [hp] at hown
  exact hown

theorem mem_asked_of_delivered (h : Delivered r.after r.asked records) {record : Record}
    (hr : record ∈ records) : record.partition ∈ r.asked := by
  by_contra hn
  have hown := h record.partition
  have hnone : r.asked[record.partition]? = none := by
    rw [ExtTreeMap.mem_iff_isSome_getElem?] at hn
    simpa using hn
  rw [hnone] at hown
  have hmem : record ∈ ofPartition record.partition records := mem_part.mpr ⟨hr, rfl⟩
  rw [hown] at hmem
  cases hmem

/-- What was handed over so far was handed over as well. -/
theorem delivered_of_isPrefix {first : List Record} (h : Delivered r.after r.asked records)
    (hp : first <+: records) : Delivered r.after r.asked first := by
  intro partition
  have hown := h partition
  have hpart := part_prefix (f := Record.partition) hp partition
  cases hs : r.asked[partition]? with
  | some start =>
    rw [hs] at hown
    exact hpart.trans hown
  | none =>
    rw [hs] at hown
    exact List.prefix_nil.mp (hown ▸ hpart)

/-- What a log holds at the end begins with what it held before. -/
theorem deliverable_after (r : Reading) (partition : Int32) (start : Int) :
    ∃ new, (r.after partition).deliverable start = (r.before partition).deliverable start ++ new ∧
      ∀ record ∈ new, offsetAt r.ends partition ≤ record.offset := by
  obtain ⟨new, hnew, hge⟩ := r.grows partition
  refine ⟨(new.filter fun e => e.kind = .data && decide (start ≤ e.record.offset)).map (·.record),
    ?_, ?_⟩
  · rw [MixedLog.deliverable, hnew, List.filter_append, List.map_append]
    rfl
  · intro record hr
    obtain ⟨e, he, rfl⟩ := List.mem_map.mp hr
    exact hge e (List.mem_filter.mp he).1

/-- The ranges hold at the end what they held before. -/
theorem within_after (r : Reading) (partition : Int32) (start : Int) :
    (r.after partition).within start (offsetAt r.ends partition) =
      (r.before partition).within start (offsetAt r.ends partition) := by
  obtain ⟨new, hnew, hge⟩ := deliverable_after r partition start
  have hnil : (new.filter fun record => record.offset < offsetAt r.ends partition) = [] := by
    refine List.filter_eq_nil_iff.mpr fun record hr => ?_
    have := hge record hr
    simpa using this
  rw [MixedLog.within, hnew, List.filter_append, hnil, List.append_nil]
  rfl

theorem ranged_eq (h : r.asked[partition]? = some start) :
    r.ranged partition = (r.after partition).within start (offsetAt r.ends partition) := by
  rw [ranged, h, within_after]
  rfl

/-! ### How a read comes out -/

theorem result_eq (hne : r.asked ≠ ∅) :
    r.result batches = Scan.loop r.topic r.limit (readable r.positions r.ends) none
      (batches.map .records) (scanOf r.topic r.limit (readable r.positions r.ends) []) := by
  have hempty : (readable r.positions r.ends).isEmpty = false := by
    rw [ExtTreeMap.isEmpty_eq_false_iff]
    obtain ⟨partition, start, hp⟩ := ne_empty_iff.mp hne
    refine ne_empty_iff.mpr ⟨partition, offsetAt r.ends partition, ?_⟩
    rw [getElem?_remaining, hp]
    rfl
  rw [result, readRecords, hempty]
  rfl

/-- Nothing is asked of a read without places: it answers at once. -/
theorem result_of_empty (h : r.asked = ∅) : r.result batches = some (.ok []) := by
  have hempty : (readable r.positions r.ends).isEmpty = true := by
    rw [ExtTreeMap.isEmpty_iff]
    by_contra hne
    obtain ⟨partition, ending, hp⟩ := ne_empty_iff.mp hne
    rw [getElem?_remaining, h] at hp
    simp at hp
  rw [result, readRecords, hempty]
  rfl

/-- The read goes on after these records. -/
def GoesOn (r : Reading) (records : List Record) : Prop :=
  (records.length : Int) < r.limit ∧ ∃ partition ∈ r.asked, ∀ record ∈ records,
    record.partition = partition → ¬ offsetAt r.ends partition ≤ record.offset + 1

theorem wantsMore_iff (h : Delivered r.after r.asked records) :
    (scanOf r.topic r.limit (readable r.positions r.ends) records).wantsMore r.limit
      (readable r.positions r.ends) = true ↔ r.GoesOn records := by
  have hmem : ∀ record ∈ records, record.partition ∈ r.asked := fun record hr =>
    mem_asked_of_delivered h hr
  rw [wantsMore_scanOf fun record hr => r.mem_remaining.mpr (hmem record hr)]
  refine and_congr_right fun _ => exists_congr fun partition => ?_
  rw [r.mem_remaining]
  refine and_congr_right fun _ => forall_congr' fun record => forall_congr' fun hr =>
    forall_congr' fun hp => ?_
  rw [r.ends_iff (hmem record hr), hp]

theorem take_flatten_isPrefix (batches : List (List Record)) (k : Nat) :
    (batches.take k).flatten <+: batches.flatten :=
  ⟨(batches.drop k).flatten, by rw [← List.flatten_append, List.take_append_drop]⟩

/-- The read asks for more than it is given, or answers with the first of what came when it
stopped. -/
theorem result_cases (hne : r.asked ≠ ∅) (h : r.Schedule batches) :
    (r.result batches = none ∧ r.GoesOn batches.flatten) ∨
    ∃ k, ¬ r.GoesOn (batches.take k).flatten ∧ r.result batches =
      some (.ok (((batches.take k).flatten.take r.limit.toNat).map (messageFrom r.topic))) := by
  have hcases := @loop_cases r.topic r.limit (readable r.positions r.ends) batches
    (fun batch hb => (h.1 batch hb).1) []
  simp only [List.nil_append, messages_scanOf] at hcases
  rw [← result_eq hne] at hcases
  rcases hcases with ⟨hnone, hall⟩ | ⟨k, hk, hsome⟩
  · refine Or.inl ⟨hnone, (wantsMore_iff h.2).mp ?_⟩
    simpa using hall batches.length
  · refine Or.inr ⟨k, fun hgo => ?_, hsome⟩
    have hdel := delivered_of_isPrefix h.2 (take_flatten_isPrefix batches k)
    rw [(wantsMore_iff hdel).mpr hgo] at hk
    cases hk

/-! ### A closed topic is read right -/

/-- What was handed over is as much as the parts of the partitions that were asked. -/
theorem sum_parts (h : Delivered r.after r.asked records) :
    (r.asked.keys.map fun partition => (ofPartition partition records).length).sum =
      records.length :=
  sum_length_part ExtTreeMap.nodup_keys fun _ hr =>
    ExtTreeMap.mem_keys.mpr (mem_asked_of_delivered h hr)

theorem exists_start (h : partition ∈ r.asked.keys) : ∃ start, r.asked[partition]? = some start :=
  getElem?_of_mem_keys h

theorem pending_of_goesOn (hc : r.Closed) (h : Delivered r.after r.asked records)
    (hgo : r.GoesOn records) : r.Pending records := by
  by_contra hn
  have hall : ∀ partition start, r.asked[partition]? = some start →
      (r.before partition).deliverable start <+: ofPartition partition records := by
    intro partition start hp
    obtain ⟨new, hnew, -⟩ := deliverable_after r partition start
    have hlen : ((r.before partition).deliverable start).length ≤
        (ofPartition partition records).length := by
      by_contra hlt
      exact hn ⟨partition, start, hp, by omega⟩
    exact List.prefix_of_prefix_length_le ⟨new, hnew.symm⟩ (prefix_of_delivered h hp) hlen
  rcases hc.last with htotal | hlast
  · have hle : r.total ≤ records.length := by
      rw [← sum_parts h]
      refine List.sum_le_sum fun partition hp => ?_
      obtain ⟨start, hs⟩ := exists_start hp
      have hsub : (r.ranged partition).length ≤
          ((r.before partition).deliverable start).length := by
        rw [ranged, hs]
        exact List.length_filter_le ..
      exact hsub.trans (hall partition start hs).length_le
    have := hgo.1
    omega
  · obtain ⟨partition, hp, hnone⟩ := hgo.2
    obtain ⟨start, hs⟩ := Option.isSome_iff_exists.mp (ExtTreeMap.mem_iff_isSome_getElem?.mp hp)
    obtain ⟨record, hr, hoff⟩ := hlast partition start hs
    obtain ⟨hmem, hpart⟩ := mem_part.mp ((hall partition start hs).subset hr)
    exact hnone record hmem hpart (by omega)

/-- In a closed topic nothing past a range is among the first records up to the limit. -/
theorem inRange_of_closed (hc : r.Closed) (h : Delivered r.after r.asked records)
    (hlen : records.length ≤ r.limit.toNat) {record : Record} (hr : record ∈ records) :
    r.InRange record := by
  obtain ⟨start, hs⟩ := Option.isSome_iff_exists.mp
    (ExtTreeMap.mem_iff_isSome_getElem?.mp (mem_asked_of_delivered h hr))
  have hpre := prefix_of_delivered h hs
  have hpart : record ∈ ofPartition record.partition records := mem_part.mpr ⟨hr, rfl⟩
  have hlog := hpre.subset hpart
  refine ⟨start, hs, (mem_deliverable hlog).2, ?_⟩
  rcases hc.past record.partition start hs with hall | hmany
  · exact hall record hlog
  · by_contra hge
    have hlt := length_filter_lt (sorted_deliverable _ start) hpre hpart (not_lt.mp hge)
    have hle : (ofPartition record.partition records).length ≤ records.length :=
      List.length_filter_le ..
    have hranged := congrArg List.length (ranged_eq hs)
    rw [MixedLog.within] at hranged
    omega

theorem answers_of_closed (hc : r.Closed) (h : Delivered r.after r.asked records)
    (hstop : ¬ r.GoesOn records) :
    r.Answers ((records.take r.limit.toNat).map (messageFrom r.topic)) := by
  have hdel : Delivered r.after r.asked (records.take r.limit.toNat) :=
    delivered_of_isPrefix h (List.take_prefix _ _)
  have hlen : (records.take r.limit.toNat).length ≤ r.limit.toNat := List.length_take_le ..
  have hin := fun record hr => @inRange_of_closed r _ hc hdel hlen record hr
  have hbelow : ∀ partition, ∀ record ∈ ofPartition partition (records.take r.limit.toNat),
      record.offset < offsetAt r.ends partition := by
    intro partition record hr
    obtain ⟨hmem, rfl⟩ := mem_part.mp hr
    obtain ⟨-, -, -, hlt⟩ := hin record hmem
    exact hlt
  have hranged : ∀ partition start, r.asked[partition]? = some start →
      (ofPartition partition (records.take r.limit.toNat)).length ≤
        (r.ranged partition).length := by
    intro partition start hs
    rw [ranged_eq hs]
    exact length_le_filter (prefix_of_delivered hdel hs) (hbelow partition)
  have htotal : (records.take r.limit.toNat).length ≤ r.total := by
    rw [← sum_parts hdel]
    refine List.sum_le_sum fun partition hp => ?_
    obtain ⟨start, hs⟩ := exists_start hp
    exact hranged partition start hs
  refine ⟨records.take r.limit.toNat, rfl, hin, fun partition => ?_, ?_⟩
  · cases hs : r.asked[partition]? with
    | some start =>
      exact (sorted_deliverable _ start).sublist (prefix_of_delivered hdel hs).sublist
    | none =>
      have hnil := hdel partition
      rw [hs] at hnil
      rw [hnil]
      exact .nil
  · by_cases hfull : r.limit.toNat ≤ records.length
    · rw [List.length_take, Nat.min_eq_left hfull] at htotal ⊢
      omega
    · have htake : records.take r.limit.toNat = records := List.take_of_length_le (by omega)
      rw [htake] at hranged hdel hbelow htotal ⊢
      -- Every partition was read to the end of its range.
      have heq : r.total = records.length := by
        rw [← sum_parts hdel, total]
        congr 1
        refine List.map_congr_left fun partition hp => ?_
        obtain ⟨start, hs⟩ := exists_start hp
        have hended : ∃ record ∈ records, record.partition = partition ∧
            offsetAt r.ends partition ≤ record.offset + 1 := by
          by_contra hn
          push Not at hn
          refine hstop ⟨by omega, partition, ExtTreeMap.mem_keys.mp hp, fun record hr hpart => ?_⟩
          have := hn record hr hpart
          omega
        obtain ⟨record, hr, hpart, hlast⟩ := hended
        rw [ranged_eq hs, MixedLog.within]
        exact (length_eq_filter (sorted_deliverable _ start) (prefix_of_delivered hdel hs)
          (hbelow partition) (mem_part.mpr ⟨hr, hpart⟩) hlast).symm
      omega

theorem right_of_closed (hc : r.Closed) : r.Right := by
  intro batches h
  by_cases hne : r.asked = ∅
  · rw [result_of_empty hne]
    refine ⟨nofun, fun messages hm => ?_⟩
    obtain rfl := Except.ok.inj (Option.some.inj hm)
    refine ⟨[], rfl, nofun, fun _ => .nil, ?_⟩
    have hkeys : r.asked.keys = [] := keys_eq_nil_iff.mpr hne
    simp [total, hkeys]
  · rcases result_cases hne h with ⟨hnone, hgo⟩ | ⟨k, hstop, hsome⟩
    · rw [hnone]
      exact ⟨fun _ => pending_of_goesOn hc h.2 hgo, nofun⟩
    · rw [hsome]
      refine ⟨nofun, fun messages hm => ?_⟩
      obtain rfl := Except.ok.inj (Option.some.inj hm)
      exact answers_of_closed hc (delivered_of_isPrefix h.2 (take_flatten_isPrefix batches k)) hstop

/-! ### Only a closed topic is read right -/

/-- All that the partitions hold in the end, one partition after another. -/
def laid (r : Reading) (partitions : List Int32) : List Record :=
  partitions.flatMap fun partition =>
    (r.after partition).deliverable ((r.asked[partition]?).getD 0)

theorem ofPartition_laid (r : Reading) {partitions : List Int32} (hnodup : partitions.Nodup)
    (partition : Int32) :
    ofPartition partition (r.laid partitions) = if partition ∈ partitions then
      (r.after partition).deliverable ((r.asked[partition]?).getD 0) else [] :=
  part_flatMap hnodup (fun _ _ hr => (mem_deliverable hr).1) partition

/-- The partitions that were asked, in some order. -/
structure Order (r : Reading) (partitions : List Int32) : Prop where
  nodup : partitions.Nodup
  mem : ∀ partition, partition ∈ partitions ↔ partition ∈ r.asked

theorem order_keys (r : Reading) : r.Order r.asked.keys :=
  ⟨ExtTreeMap.nodup_keys, fun _ => ExtTreeMap.mem_keys⟩

/-- Any partition may come first. -/
theorem order_cons (h : partition ∈ r.asked) :
    r.Order (partition :: r.asked.keys.filter (· ≠ partition)) where
  nodup := List.nodup_cons.mpr ⟨by simp, ExtTreeMap.nodup_keys.filter _⟩
  mem other := by
    by_cases he : other = partition
    · subst he
      simp [h]
    · simp [he, ExtTreeMap.mem_keys]

section

variable {partitions : List Int32}

theorem delivered_laid (ho : r.Order partitions) :
    Delivered r.after r.asked (r.laid partitions) := by
  intro partition
  rw [ofPartition_laid r ho.nodup]
  cases hs : r.asked[partition]? with
  | some start =>
    simp only [Option.getD_some]
    split
    · exact List.prefix_refl _
    · exact List.nil_prefix
  | none =>
    have hn : partition ∉ partitions := by
      rw [ho.mem, ExtTreeMap.mem_iff_isSome_getElem?, hs]
      simp
    rw [if_neg hn]

/-- Then nothing is still to come. -/
theorem not_pending_laid (ho : r.Order partitions) : ¬ r.Pending (r.laid partitions) := by
  rintro ⟨partition, start, hs, hlt⟩
  have hmem := (ho.mem partition).mpr (r.mem_asked hs)
  obtain ⟨new, hnew, -⟩ := deliverable_after r partition start
  rw [ofPartition_laid r ho.nodup, if_pos hmem, hs, Option.getD_some, hnew,
    List.length_append] at hlt
  omega

end

/-- Records handed over one by one. -/
theorem schedule_singles {first : List Record} (hlim : 0 < r.limit)
    (hfirst : first ≠ [] ∧ (first.length : Int) ≤ r.limit)
    (h : Delivered r.after r.asked (first ++ records)) :
    r.Schedule (first :: records.map fun record => [record]) := by
  refine ⟨fun batch hb => ?_, ?_⟩
  · rcases List.mem_cons.mp hb with rfl | hb
    · exact hfirst
    · obtain ⟨record, -, rfl⟩ := List.mem_map.mp hb
      exact ⟨nofun, by simp; omega⟩
  · simpa [← List.flatMap_def] using h

/-- A read that was handed everything answers. -/
theorem answered_of_right (h : r.Right) (hne : r.asked ≠ ∅) {partitions : List Int32}
    (ho : r.Order partitions) (hb : r.Schedule batches)
    (hall : batches.flatten = r.laid partitions) :
    ∃ k, ¬ r.GoesOn (batches.take k).flatten ∧
      r.Answers (((batches.take k).flatten.take r.limit.toNat).map (messageFrom r.topic)) := by
  obtain ⟨hwait, hanswer⟩ := h batches hb
  rcases result_cases hne hb with ⟨hnone, -⟩ | ⟨k, hstop, hsome⟩
  · exact absurd (hall ▸ hwait hnone) (not_pending_laid ho)
  · exact ⟨k, hstop, hanswer _ hsome⟩

/-- A record in the answer is in its range. -/
theorem inRange_of_answers {taken : List Record}
    (h : r.Answers (taken.map (messageFrom r.topic))) {record : Record} (hr : record ∈ taken) :
    record.offset < offsetAt r.ends record.partition := by
  obtain ⟨kept, heq, hin, -, -⟩ := h
  have hmem : messageFrom r.topic record ∈ kept.map (messageFrom r.topic) :=
    heq ▸ List.mem_map_of_mem hr
  obtain ⟨other, hother, hsame⟩ := List.mem_map.mp hmem
  have hplace : (other.partition, other.offset) = (record.partition, record.offset) := by
    rw [← place_messageFrom r.topic, ← place_messageFrom r.topic, hsame]
  obtain ⟨hpart, hoff⟩ := Prod.mk.inj hplace
  obtain ⟨-, -, -, hlt⟩ := hin other hother
  rwa [hpart, hoff] at hlt

theorem past_of_right (h : r.Right) (hs : r.asked[partition]? = some start) :
    (∀ record ∈ (r.after partition).deliverable start,
      record.offset < offsetAt r.ends partition) ∨
    r.limit ≤ (r.ranged partition).length := by
  by_contra hcond
  push Not at hcond
  obtain ⟨⟨late, hlate, hge⟩, hmany⟩ := hcond
  have hmem := r.mem_asked hs
  set held := (r.after partition).deliverable start
  -- The first records of the partition, one more than its range holds.
  obtain ⟨first, hfirst⟩ : ∃ first, first = held.take ((r.ranged partition).length + 1) := ⟨_, rfl⟩
  have hranged : (held.filter fun record => record.offset < offsetAt r.ends partition).length =
      (r.ranged partition).length := by
    rw [ranged_eq hs]
    rfl
  have hlong : (r.ranged partition).length < held.length := by
    rw [← hranged]
    exact List.length_filter_lt_length_iff_exists.mpr ⟨late, hlate, by simpa using hge⟩
  have hlen : first.length = (r.ranged partition).length + 1 := by
    rw [hfirst, List.length_take]
    omega
  obtain ⟨record, hr, hout⟩ : ∃ record ∈ first, offsetAt r.ends partition ≤ record.offset := by
    by_contra hall
    push Not at hall
    have hle := length_le_filter (hfirst ▸ List.take_prefix _ held) hall
    omega
  have hrest : first ++ (held.drop ((r.ranged partition).length + 1) ++
      r.laid (r.asked.keys.filter (· ≠ partition))) =
      r.laid (partition :: r.asked.keys.filter (· ≠ partition)) := by
    rw [← List.append_assoc, hfirst, List.take_append_drop, laid, laid, List.flatMap_cons, hs]
    rfl
  have hdel := delivered_laid (order_cons hmem)
  rw [← hrest] at hdel
  obtain ⟨k, hstop, hanswer⟩ := answered_of_right h (ne_empty_iff.mpr ⟨_, _, hs⟩)
    (order_cons hmem)
    (schedule_singles (by omega) ⟨by intro he; simp [he] at hlen, by omega⟩ hdel)
    (by rw [List.flatten_cons, ← List.flatMap_def, List.flatMap_singleton', hrest])
  cases k with
  | zero => exact hstop ⟨by simp; omega, partition, hmem, nofun⟩
  | succ k =>
    rw [List.take_succ_cons, List.flatten_cons, List.take_append, List.take_of_length_le
      (by omega)] at hanswer
    have hlt := inRange_of_answers hanswer (List.mem_append_left _ hr)
    rw [(mem_deliverable (List.mem_of_mem_take (hfirst ▸ hr))).1] at hlt
    omega

theorem last_of_right (h : r.Right) : r.limit ≤ r.total ∨ ∀ partition start,
    r.asked[partition]? = some start → ∃ record ∈ (r.before partition).deliverable start,
      record.offset = offsetAt r.ends partition - 1 := by
  by_contra hcond
  push Not at hcond
  obtain ⟨hfew, partition, start, hs, hnone⟩ := hcond
  have hmem := r.mem_asked hs
  have hranged : ∀ partition ∈ r.asked.keys, (r.ranged partition).length ≤ r.total :=
    fun partition hp => List.single_le_sum (by simp) _ (List.mem_map_of_mem hp)
  -- With room to spare nothing past a range is there at all.
  have hbelow : ∀ partition start, r.asked[partition]? = some start →
      ∀ record ∈ (r.after partition).deliverable start,
        record.offset < offsetAt r.ends partition := by
    intro partition start hs
    refine (past_of_right h hs).resolve_right fun hle => ?_
    have := hranged partition (ExtTreeMap.mem_keys.mpr (r.mem_asked hs))
    omega
  have hlength : (r.laid r.asked.keys).length = r.total := by
    rw [← sum_parts (delivered_laid r.order_keys), total]
    congr 1
    refine List.map_congr_left fun other hp => ?_
    obtain ⟨place, hplace⟩ := exists_start hp
    rw [ofPartition_laid r r.order_keys.nodup, if_pos hp, hplace, Option.getD_some,
      ranged_eq hplace, MixedLog.within, List.filter_eq_self.mpr]
    intro record hr
    simpa using hbelow other place hplace record hr
  have hlate : ∀ record ∈ r.laid r.asked.keys, record.partition = partition →
      ¬ offsetAt r.ends partition ≤ record.offset + 1 := by
    intro record hr hpart hle
    have hown : record ∈ (r.after partition).deliverable start := by
      have hin : record ∈ ofPartition partition (r.laid r.asked.keys) := mem_part.mpr ⟨hr, hpart⟩
      rwa [ofPartition_laid r r.order_keys.nodup, if_pos (ExtTreeMap.mem_keys.mpr hmem), hs,
        Option.getD_some] at hin
    have hlt := hbelow partition start hs record hown
    obtain ⟨new, hnew, hge⟩ := deliverable_after r partition start
    rw [hnew] at hown
    rcases List.mem_append.mp hown with hold | hfresh
    · exact hnone record hold (by omega)
    · have := hge record hfresh
      omega
  have hgoes : ∀ seen, seen <+: r.laid r.asked.keys → r.GoesOn seen := by
    intro seen hseen
    have := hseen.length_le
    exact ⟨by omega, partition, hmem, fun record hr => hlate record (hseen.subset hr)⟩
  have hflat : ((r.laid r.asked.keys).map fun record => [record]).flatten =
      r.laid r.asked.keys := by
    rw [← List.flatMap_def, List.flatMap_singleton']
  obtain ⟨k, hstop, -⟩ := answered_of_right h (ne_empty_iff.mpr ⟨_, _, hs⟩) r.order_keys
    ⟨fun batch hb => by
      obtain ⟨record, -, rfl⟩ := List.mem_map.mp hb
      exact ⟨nofun, by simp; omega⟩, by rw [hflat]; exact delivered_laid r.order_keys⟩ hflat
  have hpre := take_flatten_isPrefix ((r.laid r.asked.keys).map fun record => [record]) k
  rw [hflat] at hpre
  exact hstop (hgoes _ hpre)

/-- **A read stays in its ranges, answers with all it should and waits for nothing** exactly if
nothing past a range can come in front of the limit, and the limit or the last offsets end it. -/
theorem reading_right_iff (r : Reading) : r.Right ↔ r.Closed :=
  ⟨fun h => ⟨fun _ _ hs => past_of_right h hs, last_of_right h⟩, right_of_closed⟩

end Reading

/-! ### A transaction marker at the end -/

theorem nil_sorted : ([] : List Entry).Pairwise fun a b => a.record.offset < b.record.offset := .nil

theorem nil_own (partition : Int32) : ∀ e ∈ ([] : List Entry), e.record.partition = partition :=
  fun _ he => absurd he List.not_mem_nil

/-- A record at offset 0 and the marker of its transaction at offset 1. -/
def transacted : Logs := fun partition =>
  if hp : partition = 0 then
    { entries := [⟨plainRecord 0, .data⟩, ⟨plainRecord 1, .control⟩]
      sorted := by simp [plainRecord]
      own := by
        subst hp
        simp [plainRecord] }
  else ⟨[], nil_sorted, nil_own partition⟩

/-- The latest records of a partition that ends with a marker. -/
def transactedReading : Reading where
  topic := "orders"
  limit := 50
  positions := (∅ : Positions).insert 0 0
  ends := (∅ : ListedOffsets).insert 0 ⟨2, none⟩
  before := transacted
  after := transacted
  grows _ := ⟨[], by simp, nofun⟩

/-- The one record there is arrives and the read asks for more, until its deadline. -/
theorem marker_keeps_waiting : ¬ transactedReading.Right := by
  have hasked : ∀ partition : Int32, transactedReading.asked[partition]? =
      if partition = 0 then some 0 else none := by
    intro partition
    rw [Reading.getElem?_asked]
    by_cases hp : partition = 0
    · subst hp
      decide
    · have hne : (0 : Int32) ≠ partition := Ne.symm hp
      simp [transactedReading, hne, hp]
  have hheld : ∀ partition : Int32, (transacted partition).deliverable 0 =
      if partition = 0 then [plainRecord 0] else [] := by
    intro partition
    by_cases hp : partition = 0
    · subst hp
      rfl
    · simp [transacted, hp, MixedLog.deliverable]
  have hown : ∀ partition : Int32, ofPartition partition [plainRecord 0] =
      if partition = 0 then [plainRecord 0] else [] := by
    intro partition
    by_cases hp : partition = 0
    · subst hp
      rfl
    · have hne : (0 : Int32) ≠ partition := Ne.symm hp
      simp [ofPartition, part, plainRecord, hp, hne]
  intro h
  have hschedule : transactedReading.Schedule [[plainRecord 0]] := by
    refine ⟨by simp [transactedReading], fun partition => ?_⟩
    rw [hasked, List.flatten_singleton, hown]
    by_cases hp : partition = 0
    · subst hp
      exact List.prefix_refl _
    · simp [hp]
  have hnone : transactedReading.result [[plainRecord 0]] = none :=
    Option.isNone_iff_eq_none.mp (by decide +kernel)
  obtain ⟨partition, start, hs, hlt⟩ := (h _ hschedule).1 hnone
  rw [hasked] at hs
  by_cases hp : partition = 0
  · rw [if_pos hp] at hs
    obtain rfl := Option.some.inj hs
    rw [List.flatten_singleton, hown] at hlt
    change _ < ((transacted partition).deliverable 0).length at hlt
    rw [hheld] at hlt
    omega
  · rw [if_neg hp] at hs
    cases hs

end MqStudio.Kafka
