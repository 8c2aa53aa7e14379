import MqStudio.Rocketmq.MessageTail

/-!
# Runs of the RocketMQ tail

A topic whose queues only grow at the end and are trimmed from the front, with
one caller that polls it and passes the cursor it was handed last.  In every poll
any broker may be missing from the route, and any request may fail.

* `polls_of_routed`: what a poll does whose route names every queue of the cursor.
* `World.Complete`: every message a cursor has moved past was handed on once or
  counted as dropped.
* `complete_of_routed`: that holds while every poll that returns was routed so.
-/

namespace MqStudio.Rocketmq

open Std (ExtTreeMap)
open Lib.Maps Lib.Tail Lib.Text Lib.Transition
open Model

/-- The log of a queue, with every message it ever stored. -/
abbrev QueueLog := RetainedLog MessageExt.queueOffset

/-- A queue: its broker, and its number there. -/
@[ext]
structure Queue where
  node : String
  queueID : Int
deriving DecidableEq

def TailQueue.name (queue : TailQueue) : Queue := ⟨queue.node, queue.queueID⟩

/-- The place of a cursor in a queue. -/
def position (cursor : TailCursor) (queue : Queue) : Option Int :=
  (TailCursor.known cursor)[queueKey queue.node queue.queueID]?

/-! ### One poll -/

/-- The answer to a pull from an offset: the messages from there on, or from the lowest offset the
queue held, without a gap, and the offset just after the last of them. -/
structure Answered (log : QueueLog) (offset limit : Int) (returned : PullResult) : Prop where
  minimum : returned.minOffset ≤ log.first
  messages : returned.messages <+:
    log.entries.filter fun message => max offset returned.minOffset ≤ message.queueOffset
  next : returned.nextBeginOffset =
    reached (after MessageExt.queueOffset) (max offset returned.minOffset) returned.messages
  bounded : (returned.messages.length : Int) ≤ limit

section

variable {log : Queue → QueueLog} {cursor : TailCursor} {known ends : Offsets}
  {queues : List TailQueue} {queue other : TailQueue} {q : Queue}

theorem name_inj_of_key (h : queue.key = other.key) : queue.name = other.name := by
  obtain ⟨hnode, hid⟩ := queueKey_inj h
  rw [TailQueue.name, TailQueue.name, hnode, hid]

/-- A queue that is not behind is not pulled. -/
theorem settledAt_of_behind (h : isBehind known ends queue = true) :
    settledAt known ends queue = none := by
  rw [isBehind] at h
  rw [settledAt]
  cases hk : known[queue.key]? with
  | none => simp [hk] at h
  | some offset =>
    simp only [hk, decide_eq_true_eq] at h
    exact if_neg (not_le.mpr h)

theorem settledAt_eq_some {place : QueuePosition} (h : settledAt known ends queue = some place) :
    place = ⟨queue.node, queue.queueID, place.offset⟩ := by
  rw [settledAt] at h
  split at h
  · obtain ⟨ending, -, rfl⟩ := Option.map_eq_some_iff.mp h
    rfl
  · split at h
    · exact (Option.some.inj h) ▸ rfl
    · cases h

/-- The offset of a queue in the next cursor. -/
def nextOffset (known ends : Offsets) (answer : TailQueue → Option PullResult)
    (queue : TailQueue) : Option Int :=
  if isBehind known ends queue then some (pullFrom known queue (answer queue)).next
  else (settledAt known ends queue).map (·.offset)

/-- The positions of the next cursor. -/
def nextPositions (known ends : Offsets) (answer : TailQueue → Option PullResult)
    (queues : List TailQueue) : List QueuePosition :=
  queues.filterMap (settledAt known ends) ++
    ((queues.filter (isBehind known ends)).map fun queue => pullFrom known queue (answer queue)).map
      fun result => ⟨result.queue.node, result.queue.queueID, result.next⟩

theorem pullFrom_queue (known : Offsets) (queue : TailQueue) (answer : Option PullResult) :
    (pullFrom known queue answer).queue = queue := by
  cases answer <;> rfl

theorem mem_nextPositions {answer : TailQueue → Option PullResult} {place : QueuePosition} :
    place ∈ nextPositions known ends answer queues ↔
      ∃ queue ∈ queues, nextOffset known ends answer queue = some place.offset ∧
        place = ⟨queue.node, queue.queueID, place.offset⟩ := by
  simp only [nextPositions, List.mem_append, List.mem_filterMap, List.map_map, List.mem_map,
    List.mem_filter, Function.comp_apply, pullFrom_queue]
  constructor
  · rintro (⟨queue, hq, hs⟩ | ⟨queue, ⟨hq, hb⟩, rfl⟩)
    · have hb : ¬ isBehind known ends queue = true := by
        intro hb
        rw [settledAt_of_behind hb] at hs
        cases hs
      exact ⟨queue, hq, by rw [nextOffset, if_neg hb, hs]; rfl, settledAt_eq_some hs⟩
    · exact ⟨queue, hq, by rw [nextOffset, if_pos hb], rfl⟩
  · rintro ⟨queue, hq, hnext, hplace⟩
    by_cases hb : isBehind known ends queue = true
    · rw [nextOffset, if_pos hb] at hnext
      exact .inr ⟨queue, ⟨hq, hb⟩, by rw [Option.some.inj hnext, ← hplace]⟩
    · rw [nextOffset, if_neg hb] at hnext
      obtain ⟨found, hs, hoff⟩ := Option.map_eq_some_iff.mp hnext
      refine .inl ⟨queue, hq, ?_⟩
      rw [hs, settledAt_eq_some hs, hoff, ← hplace]

/-- The queues that the route names, each once. -/
def NamesOnce (queues : List TailQueue) : Prop := (queues.map TailQueue.name).Nodup

/-- **The next cursor**, queue by queue. -/
theorem position_next {answer : TailQueue → Option PullResult} {positions : List QueuePosition}
    (hperm : positions.Perm (nextPositions known ends answer queues)) (honce : NamesOnce queues)
    {offset : Int} :
    position ⟨positions⟩ q = some offset ↔
      ∃ queue ∈ queues, queue.name = q ∧ nextOffset known ends answer queue = some offset := by
  have hone : ∀ a ∈ positions, ∀ b ∈ positions,
      queueKey a.node a.queueID = queueKey b.node b.queueID → a.offset = b.offset := by
    intro a ha b hb hkey
    obtain ⟨x, hx, hxn, hxp⟩ := mem_nextPositions.mp (hperm.subset ha)
    obtain ⟨y, hy, hyn, hyp⟩ := mem_nextPositions.mp (hperm.subset hb)
    rw [hxp, hyp] at hkey
    obtain rfl := List.inj_on_of_nodup_map honce hx hy (name_inj_of_key hkey)
    exact Option.some.inj (hxn.symm.trans hyn)
  rw [position, TailCursor.known, getElem?_foldl_insert hone]
  constructor
  · rintro ⟨place, hp, hkey, rfl⟩
    obtain ⟨queue, hq, hnext, hplace⟩ := mem_nextPositions.mp (hperm.subset hp)
    obtain ⟨hnode, hid⟩ := queueKey_inj hkey
    rw [hplace] at hnode hid
    exact ⟨queue, hq, Queue.ext hnode hid, hnext⟩
  · rintro ⟨queue, hq, rfl, hnext⟩
    refine ⟨⟨queue.node, queue.queueID, offset⟩, hperm.symm.subset ?_, rfl, rfl⟩
    exact mem_nextPositions.mpr ⟨queue, hq, hnext, rfl⟩

/-- The messages that were pulled, each with its queue. -/
def pulled (known ends : Offsets) (answer : TailQueue → Option PullResult)
    (queues : List TailQueue) : List (Queue × MessageExt) :=
  (queues.filter (isBehind known ends)).flatMap fun queue =>
    (pullFrom known queue (answer queue)).messages.map (queue.name, ·)

/-- Where a message is stored. -/
def place (stored : Queue × MessageExt) : Queue × Int := (stored.1, stored.2.queueOffset)

/-- The offsets of a queue that a poll reports as dropped. -/
def agedAt (known : Offsets) (answer : TailQueue → Option PullResult) (queue : TailQueue) :
    List Int :=
  let offset := (known[queue.key]?).getD 0
  match answer queue with
  | none => []
  | some returned => gap offset (max offset returned.minOffset)

/-- The places a poll reports as dropped. -/
def agedOut (known ends : Offsets) (answer : TailQueue → Option PullResult)
    (queues : List TailQueue) : List (Queue × Int) :=
  (queues.filter (isBehind known ends)).flatMap fun queue =>
    (agedAt known answer queue).map (queue.name, ·)

theorem length_agedAt (known : Offsets) (answer : TailQueue → Option PullResult)
    (queue : TailQueue) :
    ((agedAt known answer queue).length : Int) = (pullFrom known queue (answer queue)).dropped := by
  simp only [agedAt, pullFrom]
  cases answer queue with
  | none => rfl
  | some returned =>
    simp only
    rw [length_gap (le_max_left _ _)]
    split <;> omega

/-- A poll that returns, by its parts. -/
theorem tailMessages_ok {ns name : String} {answers : Answers} {batch : TailBatch}
    (h : tailMessages ns name cursor answers = .ok batch) :
    ∃ queues ends, tailQueues answers.route = .ok queues ∧
      tailQueueEnds queues answers.ending = .ok ends ∧
      batch.cursor.positions.Perm
        (nextPositions (TailCursor.known cursor) ends answers.pull queues) ∧
      batch.messages.Perm
        ((pulled (TailCursor.known cursor) ends answers.pull queues).map fun stored =>
          convertMessageExt ns stored.2) ∧
      batch.dropped = (agedOut (TailCursor.known cursor) ends answers.pull queues).length := by
  simp only [tailMessages, bind, Except.bind, throw, throwThe, MonadExceptOf.throw, pure,
    Except.pure] at h
  split at h
  · cases h
  cases hq : tailQueues answers.route with
  | error err => simp [hq] at h
  | ok queues =>
    cases he : tailQueueEnds queues answers.ending with
    | error err => simp [hq, he] at h
    | ok ends =>
      simp only [hq, he] at h
      refine ⟨queues, ends, rfl, he, ?_⟩
      split at h
      · rename_i hbehind
        obtain rfl := Except.ok.inj h
        refine ⟨?_, ?_, ?_⟩
        · rw [nextPositions, hbehind]
          simpa [sortPositions] using List.perm_insertionSort _ _
        · simp [pulled, hbehind]
        · simp [agedOut, hbehind]
      · split at h
        · cases h
        · obtain rfl := Except.ok.inj h
          refine ⟨List.perm_insertionSort _ _, (List.perm_insertionSort _ _).trans ?_, ?_⟩
          · rw [pulled, List.flatMap_map, List.map_flatMap, List.map_flatMap]
            simp [Function.comp_def]
          · rw [agedOut, List.length_flatMap, Nat.cast_list_sum]
            simp only [List.map_map]
            refine congrArg List.sum (List.map_congr_left fun queue _ => ?_)
            simp only [Function.comp_apply, List.length_map, length_agedAt]

/-- A queue's end in the map is what one of the queues answered. -/
theorem ends_eq_some {answer : TailQueue → Option Int} (h : tailQueueEnds queues answer = .ok ends)
    {key : String} {offset : Int} (hk : ends[key]? = some offset) :
    ∃ queue ∈ queues, queue.key = key ∧ answer queue = some offset := by
  rw [tailQueueEnds] at h
  split at h
  · cases h
  · rename_i hall
    obtain rfl := Except.ok.inj h
    clear h hall
    induction queues using List.reverseRecOn with
    | nil => simp at hk
    | append_singleton queues last ih =>
      rw [List.foldl_append, List.foldl_cons, List.foldl_nil] at hk
      cases ha : answer last with
      | none =>
        simp only [ha] at hk
        obtain ⟨queue, hq, hrest⟩ := ih hk
        exact ⟨queue, List.mem_append_left _ hq, hrest⟩
      | some ending =>
        simp only [ha] at hk
        rw [getElem?_insert] at hk
        split at hk
        · rename_i hkey
          exact ⟨last, by simp, hkey, ha.trans hk⟩
        · obtain ⟨queue, hq, hrest⟩ := ih hk
          exact ⟨queue, List.mem_append_left _ hq, hrest⟩

/-- The answers of a poll, each right when it was given: the logs may have gone on since. -/
structure Right (log : Queue → QueueLog) (cursor : TailCursor) (limit : Int) (answers : Answers) :
    Prop where
  ending : ∀ queue offset, answers.ending queue = some offset → offset ≤ (log queue.name).next
  pull : ∀ queues ends, tailQueues answers.route = .ok queues →
    tailQueueEnds queues answers.ending = .ok ends → ∀ queue ∈ queues, ∀ offset returned,
      (TailCursor.known cursor)[queue.key]? = some offset → answers.pull queue = some returned →
      Answered (log queue.name) offset (perQueue (limitOf limit)
        (queues.filter (isBehind (TailCursor.known cursor) ends)).length) returned

/-- The route names every queue of the cursor, and none twice. -/
def Routed (cursor : TailCursor) (route : Except String (Option TopicRouteData)) : Prop :=
  ∀ queues, tailQueues route = .ok queues →
    NamesOnce queues ∧ ∀ q, position cursor q ≠ none → ∃ queue ∈ queues, queue.name = q

/-- **A poll whose route names every queue of its cursor.** -/
theorem polls_of_routed {answers : Answers} {next : TailCursor} {limit : Int}
    (hqueues : tailQueues answers.route = .ok queues)
    (hends : tailQueueEnds queues answers.ending = .ok ends)
    (hcursor : next.positions.Perm
      (nextPositions (TailCursor.known cursor) ends answers.pull queues))
    (hright : Right log cursor limit answers) (hrouted : Routed cursor answers.route)
    (hplace : ∀ q offset, position cursor q = some offset → offset ≤ (log q).next) :
    Polls log (position cursor) (position next)
      ((pulled (TailCursor.known cursor) ends answers.pull queues).map place)
      (agedOut (TailCursor.known cursor) ends answers.pull queues) := by
  obtain ⟨honce, hnamed⟩ := hrouted queues hqueues
  have hplaces : (pulled (TailCursor.known cursor) ends answers.pull queues).map place =
      (queues.filter (isBehind (TailCursor.known cursor) ends)).flatMap fun queue =>
        ((pullFrom (TailCursor.known cursor) queue (answers.pull queue)).messages.map
          MessageExt.queueOffset).map (queue.name, ·) := by
    rw [pulled, List.map_flatMap]
    simp [Function.comp_def, place]
  have hbehind : ((queues.filter (isBehind (TailCursor.known cursor) ends)).map
      TailQueue.name).Nodup := List.Nodup.sublist (List.filter_sublist.map _) honce
  rw [hplaces]
  constructor
  · intro q pos hpos
    obtain ⟨queue, hq, rfl⟩ := hnamed q (by simp [hpos])
    have hknown : (TailCursor.known cursor)[queue.key]? = some pos := hpos
    have hnext : ∀ offset, nextOffset (TailCursor.known cursor) ends answers.pull queue =
        some offset → position next queue.name = some offset := fun offset hn =>
      (position_next hcursor honce).mpr ⟨queue, hq, rfl, hn⟩
    by_cases hb : isBehind (TailCursor.known cursor) ends queue = true
    · have hmem : queue ∈ queues.filter (isBehind (TailCursor.known cursor) ends) :=
        List.mem_filter.mpr ⟨hq, hb⟩
      rw [ofLog_flatMap_of_mem hbehind hmem, agedOut, ofLog_flatMap_of_mem hbehind hmem, agedAt]
      have hn := hnext _ (if_pos hb)
      cases hpull : answers.pull queue with
      | none =>
        simp only [pullFrom, hpull, hknown, Option.getD_some] at hn ⊢
        exact ⟨pos, [], le_rfl, hplace _ _ hpos, (gap_self pos).symm, List.nil_prefix, by simp, hn⟩
      | some returned =>
        simp only [pullFrom, hpull, hknown, Option.getD_some] at hn ⊢
        have hans := hright.pull queues ends hqueues hends queue hq pos returned hknown hpull
        have hle : pos ≤ returned.nextBeginOffset := by
          rw [hans.next]
          refine (le_max_left _ _).trans (lo_le_reached fun message hm => ?_)
          have := (List.mem_filter.mp (hans.messages.subset hm)).2
          simp only [after]
          have := of_decide_eq_true this
          omega
        refine ⟨max pos returned.minOffset, returned.messages, le_max_left _ _,
          max_le (hplace _ _ hpos) (hans.minimum.trans (log queue.name).first_le), rfl,
          hans.messages, .refl _, ?_⟩
        rw [hn, if_neg (not_lt.mpr hle), hans.next]
    · -- A queue that has not moved, or whose end could not be read, keeps its place.
      have hnone : ∀ other ∈ queues.filter (isBehind (TailCursor.known cursor) ends),
          other.name ≠ queue.name := by
        intro other ho he
        obtain ⟨hoq, hob⟩ := List.mem_filter.mp ho
        obtain rfl := List.inj_on_of_nodup_map honce hoq hq he
        exact hb hob
      rw [ofLog_flatMap_of_notMem hnone, agedOut, ofLog_flatMap_of_notMem hnone]
      refine ⟨pos, [], le_rfl, hplace _ _ hpos, (gap_self pos).symm, List.nil_prefix, .refl _, ?_⟩
      refine hnext pos ?_
      have hle : ¬ pos < (ends[queue.key]?).getD 0 := by
        simpa [isBehind, hknown] using hb
      rw [nextOffset, if_neg hb, settledAt, hknown]
      simp only [if_pos (not_lt.mp hle), Option.map_some]
  · intro q hnone
    have hunseen : ∀ queue ∈ queues, queue.name = q →
        (TailCursor.known cursor)[queue.key]? = none := by
      rintro queue hq rfl
      exact hnone
    have hnot : ∀ other ∈ queues.filter (isBehind (TailCursor.known cursor) ends),
        other.name ≠ q := by
      intro other ho he
      obtain ⟨hoq, hob⟩ := List.mem_filter.mp ho
      simp [isBehind, hunseen other hoq he] at hob
    rw [ofLog_flatMap_of_notMem hnot, agedOut, ofLog_flatMap_of_notMem hnot]
    refine ⟨rfl, rfl, fun pos hpos => ?_⟩
    obtain ⟨queue, hq, hname, hn⟩ := (position_next hcursor honce).mp hpos
    have hseen := hunseen queue hq hname
    rw [nextOffset, if_neg (by simp [isBehind, hseen]), settledAt, hseen] at hn
    cases hend : ends[queue.key]? with
    | none => simp [hend] at hn
    | some offset =>
      simp only [hend, Option.map_some, Option.some.injEq] at hn
      obtain ⟨other, -, hkey, hans⟩ := ends_eq_some hends hend
      rw [← hn, ← hname, ← name_inj_of_key hkey]
      exact hright.ending other offset hans

end

/-! ### The topic and its caller -/

/-- A topic of a namespace, and the caller that tails it with what it was handed. -/
structure World where
  ns : String
  name : String
  log : Queue → QueueLog
  cursor : TailCursor
  batches : List TailBatch

/-- A topic before the first poll. -/
def World.new (ns name : String) (log : Queue → QueueLog) : World :=
  ⟨ns, name, log, ⟨[]⟩, []⟩

inductive Label where
  | store (queue : Queue) (message : MessageExt)
  /-- The queue is trimmed, or its end passes over offsets that hold no message. -/
  | move (queue : Queue) (first next : Int)
  | poll (limit : Int) (answers : Answers)
  | fail (limit : Int) (answers : Answers)

/-- The poll returns, and the caller keeps the cursor. -/
def World.handOn (w : World) (batch : TailBatch) : World :=
  { w with cursor := batch.cursor, batches := w.batches ++ [batch] }

def World.step (w : World) : Label → Option World
  | .store queue message =>
    if h : (w.log queue).next ≤ message.queueOffset then
      some { w with log := Function.update w.log queue ((w.log queue).append message h) }
    else none
  | .move queue first next =>
    if h : (w.log queue).first ≤ first ∧ first ≤ next ∧ (w.log queue).next ≤ next then
      some { w with log := Function.update w.log queue ((w.log queue).moveTo first next h) }
    else none
  | .poll _ answers =>
    match tailMessages w.ns w.name w.cursor answers with
    | .ok batch => some (w.handOn batch)
    | .error _ => none
  | .fail _ answers =>
    match tailMessages w.ns w.name w.cursor answers with
    | .ok _ => none
    | .error _ => some w

/-- What the brokers answer is right. -/
def World.Allows (w : World) : Label → Prop
  | .poll limit answers | .fail limit answers => Right w.log w.cursor limit answers
  | _ => True

def tailing : System World Label where
  Init w := ∃ ns name log, w = World.new ns name log
  Step w label v := w.step label = some v ∧ w.Allows label

def World.returned (w : World) : List MessageItem := w.batches.flatMap (·.messages)

/-- All that was reported as dropped. -/
def World.dropped (w : World) : Int := (w.batches.map (·.dropped)).sum

/-- **Nothing is lost silently**: what was handed on are stored messages, and a message from a place
that a returned cursor held on, which the cursor has moved past, is among them once, or it is one of
those counted as dropped. -/
def World.Complete (w : World) : Prop :=
  ∃ (taken : List (Queue × MessageExt)) (lost : List (Queue × Int)),
    w.returned.Perm (taken.map fun stored => convertMessageExt w.ns stored.2) ∧
    (∀ stored ∈ taken, stored.2 ∈ (w.log stored.1).entries) ∧ (lost.length : Int) = w.dropped ∧
    ∀ batch ∈ w.batches, ∀ queue start offset, position batch.cursor queue = some start →
      position w.cursor queue = some offset → ∀ message ∈ (w.log queue).entries,
        start ≤ message.queueOffset → message.queueOffset < offset →
        ((taken.map place).count (queue, message.queueOffset) = 1 ∧
            (queue, message.queueOffset) ∉ lost) ∨
          ((queue, message.queueOffset) ∉ taken.map place ∧
            lost.count (queue, message.queueOffset) = 1)

/-- A poll that returns was given a route that names every queue of the cursor it was passed, and
none twice. -/
def AllRouted (w : World) : Label → Prop
  | .poll _ answers => Routed w.cursor answers.route
  | _ => True

/-! ### Every run -/

/-- What holds while every poll is routed so. -/
def World.Sound (w : World) : Prop :=
  ∃ (taken : List (Queue × MessageExt)) (lo : Queue → Int) (lost : List (Queue × Int)),
    w.returned.Perm (taken.map fun stored => convertMessageExt w.ns stored.2) ∧
    (∀ stored ∈ taken, stored.2 ∈ (w.log stored.1).entries) ∧ (lost.length : Int) = w.dropped ∧
    Following w.log (position w.cursor) lo (taken.map place) lost ∧
    ∀ batch ∈ w.batches, ∀ queue start, position batch.cursor queue = some start →
      position w.cursor queue ≠ none ∧ lo queue ≤ start

variable {w v : World}

theorem World.Sound.complete (h : w.Sound) : w.Complete := by
  obtain ⟨taken, lo, lost, hret, hstored, hlen, hf, hheld⟩ := h
  refine ⟨taken, lost, hret, hstored, hlen, ?_⟩
  intro batch hb queue start offset hstart hoffset message hm hge hlt
  exact hf.accounted hoffset hm ((hheld batch hb queue start hstart).2.trans hge) hlt

theorem sound_new (ns name : String) (log : Queue → QueueLog) : (World.new ns name log).Sound :=
  ⟨[], fun _ => 0, [], .refl _, by simp, rfl, following_none log _, by simp [World.new]⟩

/-- The logs go on. -/
theorem World.Sound.grow (h : w.Sound) {log : Queue → QueueLog}
    (hg : ∀ queue, (w.log queue).Grows (log queue)) : { w with log := log }.Sound := by
  obtain ⟨taken, lo, lost, hret, hstored, hlen, hf, hheld⟩ := h
  refine ⟨taken, lo, lost, hret, fun stored hs => ?_, hlen, hf.grow hg, hheld⟩
  obtain ⟨new, hnew, -⟩ := (hg stored.1).entries
  show stored.2 ∈ (log stored.1).entries
  rw [hnew]
  exact List.mem_append_left _ (hstored stored hs)

/-- What is pulled was stored. -/
theorem stored_of_pulled {limit : Int} {answers : Answers} {queues : List TailQueue}
    {ends : Offsets} (hright : Right w.log w.cursor limit answers)
    (hqueues : tailQueues answers.route = .ok queues)
    (hends : tailQueueEnds queues answers.ending = .ok ends) {stored : Queue × MessageExt}
    (hs : stored ∈ pulled (TailCursor.known w.cursor) ends answers.pull queues) :
    stored.2 ∈ (w.log stored.1).entries := by
  obtain ⟨queue, hq, hm⟩ := List.mem_flatMap.mp hs
  obtain ⟨hq, hb⟩ := List.mem_filter.mp hq
  cases hpull : answers.pull queue with
  | none => simp [pullFrom, hpull] at hm
  | some returned =>
    cases hk : (TailCursor.known w.cursor)[queue.key]? with
    | none => simp [isBehind, hk] at hb
    | some offset =>
      have hans := hright.pull queues ends hqueues hends queue hq offset returned hk hpull
      simp only [pullFrom, hpull] at hm
      obtain ⟨message, hmessage, rfl⟩ := List.mem_map.mp hm
      exact (List.mem_filter.mp (hans.messages.subset hmessage)).1

/-- **A poll returns.** -/
theorem World.Sound.handOn (h : w.Sound) {limit : Int} {answers : Answers} {batch : TailBatch}
    (hbatch : tailMessages w.ns w.name w.cursor answers = .ok batch)
    (hright : Right w.log w.cursor limit answers) (hrouted : Routed w.cursor answers.route) :
    (w.handOn batch).Sound := by
  obtain ⟨taken, lo, lost, hret, hstored, hlen, hf, hheld⟩ := h
  obtain ⟨queues, ends, hqueues, hends, hcursor, hmessages, hdropped⟩ := tailMessages_ok hbatch
  have hpolls := polls_of_routed hqueues hends hcursor hright hrouted fun queue offset hq => by
    obtain ⟨got, hfollows, -⟩ := hf.known queue offset hq
    exact hfollows.le
  refine ⟨taken ++ pulled (TailCursor.known w.cursor) ends answers.pull queues,
    since (position w.cursor) (position batch.cursor) lo,
    lost ++ agedOut (TailCursor.known w.cursor) ends answers.pull queues, ?_, ?_, ?_, ?_, ?_⟩
  · rw [List.map_append]
    simpa [World.returned, World.handOn] using hret.append hmessages
  · intro stored hs
    rcases List.mem_append.mp hs with hs | hs
    · exact hstored stored hs
    · exact stored_of_pulled hright hqueues hends hs
  · rw [List.length_append, Nat.cast_add, hlen, ← hdropped]
    simp [World.dropped, World.handOn]
  · rw [List.map_append]
    exact hf.poll hpolls
  · intro held hheld' queue start hstart
    rcases List.mem_append.mp hheld' with hb | hb
    · obtain ⟨hne, hle⟩ := hheld held hb queue start hstart
      exact ⟨hpolls.known_of_known hne, by rwa [since_of_known hne]⟩
    · obtain rfl := List.mem_singleton.mp hb
      refine ⟨show position held.cursor queue ≠ none by simp [hstart], ?_⟩
      obtain ⟨got, hfollows, -⟩ := (hf.poll hpolls).known queue start hstart
      exact hfollows.covers.le

theorem sound_step {label : Label} (h : w.Sound) (hs : w.step label = some v)
    (hallows : w.Allows label) (hrouted : AllRouted w label) : v.Sound := by
  cases label with
  | store queue message =>
    simp only [World.step] at hs
    split at hs
    · rename_i hm
      exact Option.some.inj hs ▸ h.grow (RetainedLog.grows_update (RetainedLog.grows_append _ message hm))
    · cases hs
  | move queue first next =>
    simp only [World.step] at hs
    split at hs
    · rename_i hm
      exact Option.some.inj hs ▸ h.grow (RetainedLog.grows_update (RetainedLog.grows_moveTo _ first next hm))
    · cases hs
  | poll limit answers =>
    simp only [World.step] at hs
    split at hs
    · rename_i batch hbatch
      exact Option.some.inj hs ▸ h.handOn hbatch hallows hrouted
    · cases hs
  | fail limit answers =>
    simp only [World.step] at hs
    split at hs
    · cases hs
    · exact Option.some.inj hs ▸ h

/-- **The tail loses nothing silently**, while every poll that returns was given a route that names
the queues of its cursor. -/
theorem complete_of_routed (h : Reachable (tailing.guard AllRouted) w) : w.Complete := by
  have hsound : w.Sound := by
    refine h.inv (P := World.Sound) ?_ ?_
    · rintro _ ⟨ns, name, log, rfl⟩
      exact sound_new ns name log
    · rintro u label v hu ⟨⟨hstep, hallows⟩, hrouted⟩
      exact sound_step hu hstep hallows hrouted
  exact hsound.complete

/-! ### A broker that is missing from the route -/

def sampleMessage : MessageExt := ⟨"orders", 0, 0, 0, "m", "m", "", ∅⟩

/-- A route to queue 0 of each of some brokers. -/
def routeTo (brokers : List String) : TopicRouteData :=
  ⟨brokers.map fun broker => some ⟨broker, (∅ : ExtTreeMap String String compare).insert "0" "h"⟩,
    brokers.map fun broker => some ⟨broker, 1⟩⟩

/-- Every queue is empty, but for that of one broker. -/
def endsAt (broker : String) (ending : Int) (queue : TailQueue) : Option Int :=
  some (if queue.name = ⟨broker, 0⟩ then ending else 0)

/-- A poll in which nothing is pulled. -/
def askEnds (brokers : List String) (ending : Int) : Answers :=
  ⟨.ok (some (routeTo brokers)), endsAt "b" ending, fun _ => none⟩

theorem right_askEnds (brokers : List String) {ending : Int}
    (h : ending ≤ (w.log ⟨"b", 0⟩).next) : w.Allows (.poll 0 (askEnds brokers ending)) := by
  refine ⟨fun queue offset hq => ?_, fun _ _ _ _ _ _ _ _ _ h => nomatch h⟩
  have hnonneg := (w.log queue.name).nonneg.trans (w.log queue.name).first_le
  obtain rfl := Option.some.inj hq
  split
  · rename_i hname
    exact hname ▸ h
  · exact hnonneg

theorem tailQueues_routeTo {queues : List TailQueue}
    (h : tailQueues (.ok (some (routeTo ["a", "b"]))) = .ok queues) :
    queues = [⟨"a", "h", 0⟩, ⟨"b", "h", 0⟩] := by
  have hqueues : (routeTo ["a", "b"]).queues = [⟨"a", "h", 0⟩, ⟨"b", "h", 0⟩] := by decide
  rw [tailQueues, hqueues] at h
  exact (Except.ok.inj h).symm

/-- A queue has a place in a cursor because the cursor lists it. -/
theorem mem_of_position {cursor : TailCursor} {q : Queue} (h : position cursor q ≠ none) :
    ∃ place ∈ cursor.positions, q = ⟨place.node, place.queueID⟩ := by
  obtain ⟨positions⟩ := cursor
  rw [position, TailCursor.known] at h
  induction positions using List.reverseRecOn with
  | nil => simp at h
  | append_singleton positions last ih =>
    rw [List.foldl_append, List.foldl_cons, List.foldl_nil, getElem?_insert] at h
    split at h
    · rename_i hkey
      obtain ⟨hnode, hid⟩ := queueKey_inj hkey
      exact ⟨last, by simp, Queue.ext hnode.symm hid.symm⟩
    · obtain ⟨place, hp, hq⟩ := ih h
      exact ⟨place, List.mem_append_left _ hp, hq⟩

theorem routed_askEnds {cursor : TailCursor}
    (h : ∀ place ∈ cursor.positions, place.queueID = 0 ∧ (place.node = "a" ∨ place.node = "b")) :
    Routed cursor (.ok (some (routeTo ["a", "b"]))) := by
  intro queues hqueues
  obtain rfl := tailQueues_routeTo hqueues
  refine ⟨by simp [NamesOnce, TailQueue.name], fun q hq => ?_⟩
  obtain ⟨place, hp, rfl⟩ := mem_of_position hq
  obtain ⟨hid, hnode | hnode⟩ := h place hp
  · exact ⟨⟨"a", "h", 0⟩, by simp, by simp [TailQueue.name, hnode, hid]⟩
  · exact ⟨⟨"b", "h", 0⟩, by simp, by simp [TailQueue.name, hnode, hid]⟩

theorem one_le_perQueue (limit : Int) (behind : Nat) : 1 ≤ perQueue limit behind := by
  rw [perQueue]
  split <;> omega

/-- A poll that pulls the one message of a queue. -/
def askMessage : Answers where
  route := .ok (some (routeTo ["a", "b"]))
  ending := endsAt "b" 1
  pull queue := if queue.name = ⟨"b", 0⟩ then some ⟨[sampleMessage], 1, 0⟩ else none

/-- A message that comes between two polls is handed on. -/
theorem next_message_is_pulled : ∃ w, Reachable (tailing.guard AllRouted) w ∧
    w.returned.map (·.messageID) = ["m"] ∧ w.Complete := by
  have hrun : ((World.new "" "orders" fun _ => .empty).step (.poll 0 (askEnds ["a", "b"] 0))).bind
      (fun w => (w.step (.store ⟨"b", 0⟩ sampleMessage)).bind fun x =>
        (x.step (.poll 0 askMessage)).map fun y => decide
          (x.cursor = ⟨[⟨"a", 0, 0⟩, ⟨"b", 0, 0⟩]⟩ ∧ (x.log ⟨"b", 0⟩).next = 1 ∧
            position x.cursor ⟨"b", 0⟩ = some 0 ∧ y.returned.map (·.messageID) = ["m"])) =
      some true := by decide
  obtain ⟨w, hw, hrun⟩ := Option.bind_eq_some_iff.mp hrun
  obtain ⟨x, hx, hrun⟩ := Option.bind_eq_some_iff.mp hrun
  obtain ⟨y, hy, hout⟩ := Option.map_eq_some_iff.mp hrun
  obtain ⟨hcursor, hnext, hplace, hreturned⟩ := of_decide_eq_true hout
  have hreachw : Reachable (tailing.guard AllRouted) w :=
    .step (.init ⟨_, _, _, rfl⟩) ⟨⟨hw, right_askEnds _ le_rfl⟩, routed_askEnds (by simp [World.new])⟩
  have hreachx : Reachable (tailing.guard AllRouted) x := .step hreachw ⟨⟨hx, trivial⟩, trivial⟩
  have hstored : (x.log ⟨"b", 0⟩).entries = [sampleMessage] := by
    have hlog : w.log = fun _ => .empty := by
      simp only [World.step] at hw
      split at hw
      · exact Option.some.inj hw ▸ rfl
      · cases hw
    simp only [World.step] at hx
    split at hx
    · obtain rfl := Option.some.inj hx
      simp [RetainedLog.append, hlog, RetainedLog.empty]
    · cases hx
  have hright : x.Allows (.poll 0 askMessage) := by
    refine ⟨(right_askEnds [] (le_of_eq hnext.symm)).ending, ?_⟩
    intro queues ends _ _ queue _ offset returned hk hp
    simp only [askMessage, Option.ite_none_right_eq_some, Option.some.injEq] at hp
    obtain ⟨hname, rfl⟩ := hp
    obtain rfl : 0 = offset := by
      have hpos : position x.cursor queue.name = some offset := hk
      rw [hname, hplace] at hpos
      exact Option.some.inj hpos
    rw [hname]
    refine ⟨(x.log ⟨"b", 0⟩).nonneg, ?_, rfl, one_le_perQueue _ _⟩
    rw [hstored]
    exact List.prefix_rfl
  have hreachy : Reachable (tailing.guard AllRouted) y := by
    refine .step hreachx ⟨⟨hy, hright⟩, routed_askEnds ?_⟩
    rw [hcursor]
    simp
  exact ⟨y, hreachy, hreturned, complete_of_routed hreachy⟩

/-- A broker is missing from the route in one poll: the next starts at the end of its queue, and the
message that came in between is neither handed on nor counted. -/
theorem missing_broker_loses_message : ¬ ∀ w, Reachable tailing w → w.Complete := by
  intro hall
  have hrun : ((World.new "" "orders" fun _ => .empty).step (.poll 0 (askEnds ["a", "b"] 0))).bind
      (fun w => (w.step (.store ⟨"b", 0⟩ sampleMessage)).bind fun x =>
        (x.step (.poll 0 (askEnds ["a"] 0))).bind fun y =>
          (y.step (.poll 0 (askEnds ["a", "b"] 1))).map fun z =>
            decide ((y.log ⟨"b", 0⟩).next = 1 ∧
              (z.batches.any fun batch => position batch.cursor ⟨"b", 0⟩ = some 0) = true ∧
              position z.cursor ⟨"b", 0⟩ = some 1 ∧ z.dropped = 0 ∧ z.returned.length = 0 ∧
              (z.log ⟨"b", 0⟩).entries.map (·.queueOffset) = [0])) = some true := by decide
  obtain ⟨w, hw, hrun⟩ := Option.bind_eq_some_iff.mp hrun
  obtain ⟨x, hx, hrun⟩ := Option.bind_eq_some_iff.mp hrun
  obtain ⟨y, hy, hrun⟩ := Option.bind_eq_some_iff.mp hrun
  obtain ⟨z, hz, hout⟩ := Option.map_eq_some_iff.mp hrun
  obtain ⟨hnext, hheld, hplace, hdropped, hreturned, hlog⟩ := of_decide_eq_true hout
  have hnonneg : ∀ u : World, 0 ≤ (u.log ⟨"b", 0⟩).next := fun u =>
    (u.log ⟨"b", 0⟩).nonneg.trans (u.log ⟨"b", 0⟩).first_le
  have hreachw : Reachable tailing w :=
    .step (.init ⟨_, _, _, rfl⟩) ⟨hw, right_askEnds _ (hnonneg _)⟩
  have hreachx : Reachable tailing x := .step hreachw ⟨hx, trivial⟩
  have hreachy : Reachable tailing y := .step hreachx ⟨hy, right_askEnds _ (hnonneg _)⟩
  have hreach : Reachable tailing z := .step hreachy ⟨hz, right_askEnds _ (by omega)⟩
  obtain ⟨taken, lost, hret, -, hlen, haccounted⟩ := hall z hreach
  obtain ⟨batch, hb, hstart⟩ := List.any_eq_true.mp hheld
  obtain ⟨message, hm, hoffset⟩ := List.mem_map.mp (hlog.symm ▸ List.mem_singleton_self (0 : Int))
  have htaken : taken = [] := by
    rw [hret.length_eq, List.length_map] at hreturned
    exact List.length_eq_zero_iff.mp hreturned
  have hlost : lost = [] := by
    rw [hdropped, Nat.cast_eq_zero] at hlen
    exact List.length_eq_zero_iff.mp hlen
  have := haccounted batch hb ⟨"b", 0⟩ 0 1 (of_decide_eq_true hstart) hplace message hm
    (by rw [hoffset]) (by rw [hoffset]; decide)
  rw [htaken, hlost] at this
  simp at this

end MqStudio.Rocketmq
