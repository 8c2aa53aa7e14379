import MqStudio.Googlepubsub.Message
import MqStudio.Sqs.Message

/-!
# What a browse took

The browses of SQS and Pub/Sub receive what a consumer would.

* `browse_gives_back`: every handle that was received is handed back once, whatever fails.
* `browse_ends_iff`: a browse stops once nothing new comes, exactly if no reply is made of messages
  that are listed already.
-/

namespace MqStudio.HeldBrowse

open Lib.HeldRead Model

variable {ε μ ρ : Type}

/-! ### Everything is handed back -/

/-- A browse handed back what it had received, and listed it once. -/
structure GivesBack (reader : Reader μ String String) (handles : ρ → List String)
    (Fits : ρ → Prop) (wanted : ℕ) (out : Browse ε μ ρ) : Prop where
  everyHandle : out.released.flatMap (handles ·.1) = (received out.calls).map reader.handle
  fits : ∀ request ∈ out.released, Fits request.1
  page : Page reader wanted out

theorem givesBack_refused {reader : Reader μ String String} {handles : ρ → List String}
    {Fits : ρ → Prop} {wanted : ℕ} {err : ε} :
    GivesBack reader handles Fits wanted (Browse.refused err : Browse ε μ ρ) :=
  ⟨rfl, nofun, ⟨nofun, nofun⟩⟩

theorem mem_of_mem_send {answers : ℕ → Option String} {requests : List ρ}
    {request : ρ × Option String} (h : request ∈ send answers requests) : request.1 ∈ requests := by
  rw [← requests_send answers requests]
  exact List.mem_map_of_mem h

theorem givesBack_browse {reader : Reader μ String String} {handles : ρ → List String}
    {Fits : ρ → Prop} {item : ℕ → μ → MessageItem} {answers : ℕ → Option String}
    {release : List String → List ρ} {wanted fuel : ℕ} {replies : ℕ → Except ε (List μ)}
    {ended : Ended ε μ String String}
    (h : receiveHeld reader replies wanted fuel [] .empty = some ended)
    (hitem : ∀ n m, (item n m).messageID = reader.key m)
    (hrelease : ∀ held, (release held).flatMap handles = held)
    (hfits : ∀ held, ∀ request ∈ release held, Fits request) (hwithin : Within ended.calls) :
    GivesBack reader handles Fits wanted (browse item answers release ended) where
  everyHandle := released_browse h hrelease
  fits _ hrequest := hfits _ _ (mem_of_mem_send hrequest)
  page := page_browse hitem h hwithin

theorem sqs_gives_back {c : Sqs.Conn} {params : Sqs.MessageQueryParams} {fuel : ℕ}
    {out : Browse Sqs.BrowseError Sqs.Message Sqs.ChangeMessageVisibilityBatchInput}
    (h : c.queryMessages params fuel = some out) (hwithin : Within out.calls) :
    GivesBack Sqs.reader (·.handles) (·.Fits) (Sqs.wantedOf params) out := by
  rw [Sqs.Conn.queryMessages] at h
  split at h
  case isTrue =>
    obtain rfl := Option.some.inj h
    exact givesBack_refused
  case isFalse =>
    split at h
    case h_1 =>
      obtain rfl := Option.some.inj h
      exact givesBack_refused
    case h_2 url _ =>
      obtain ⟨ended, hended, rfl⟩ := Option.map_eq_some_iff.mp h
      exact givesBack_browse hended (fun _ _ => rfl) (Sqs.flatMap_releases url)
        (fun _ _ => Sqs.fits_of_mem_releases) hwithin

theorem googlepubsub_gives_back {c : Googlepubsub.Conn} {params : Googlepubsub.MessageQueryParams}
    {fuel : ℕ} {out : Browse Googlepubsub.BrowseError Googlepubsub.ReceivedMessage
      Googlepubsub.ModifyAckDeadlineRequest}
    (h : c.queryMessages params fuel = some out) (hwithin : Within out.calls) :
    GivesBack Googlepubsub.reader (·.ackIds) (·.ackIds.length ≤ Googlepubsub.ackBatch)
      (Googlepubsub.wantedOf params) out := by
  rw [Googlepubsub.Conn.queryMessages] at h
  split at h
  case isTrue =>
    obtain rfl := Option.some.inj h
    exact givesBack_refused
  case isFalse =>
    split at h
    case h_1 =>
      obtain rfl := Option.some.inj h
      exact givesBack_refused
    case h_2 name _ =>
      obtain ⟨ended, hended, rfl⟩ := Option.map_eq_some_iff.mp h
      exact givesBack_browse hended (fun _ _ => rfl) (Googlepubsub.flatMap_releases _)
        (fun _ _ => Googlepubsub.length_le_of_mem_releases) hwithin

/-- The requests of a browse, without the answers to them. -/
def Browse.requests (out : Browse ε μ ρ) : List ρ := out.released.map (·.1)

theorem requests_browse (item : ℕ → μ → MessageItem) (answers : ℕ → Option String)
    (release : List String → List ρ) (ended : Ended ε μ String String) :
    (browse item answers release ended).requests = release ended.reading.handles :=
  requests_send _ _

theorem sqs_requests (c : Sqs.Conn) (params : Sqs.MessageQueryParams) (fuel : ℕ)
    (answers : ℕ → Option String) :
    ({ c with changeMessageVisibilityBatch := answers }.queryMessages params fuel).map
        Browse.requests = (c.queryMessages params fuel).map Browse.requests := by
  rw [Sqs.Conn.queryMessages, Sqs.Conn.queryMessages]
  have hurl : { c with changeMessageVisibilityBatch := answers }.queueURL params.topic =
      c.queueURL params.topic := rfl
  have hheld : ∀ wanted, { c with changeMessageVisibilityBatch := answers }.receiveHeld wanted
      fuel = c.receiveHeld wanted fuel := fun _ => rfl
  simp only [hurl, hheld]
  split
  case isTrue => rfl
  case isFalse =>
    split
    case h_1 => rfl
    case h_2 =>
      rw [Option.map_map, Option.map_map]
      exact congrArg (Option.map · _) (funext fun ended => by
        simp only [Function.comp, requests_browse])

theorem googlepubsub_requests (c : Googlepubsub.Conn) (params : Googlepubsub.MessageQueryParams)
    (fuel : ℕ) (answers : ℕ → Option String) :
    ({ c with modifyAckDeadline := answers }.queryMessages params fuel).map Browse.requests =
      (c.queryMessages params fuel).map Browse.requests := by
  rw [Googlepubsub.Conn.queryMessages, Googlepubsub.Conn.queryMessages]
  have hheld : ∀ path wanted, { c with modifyAckDeadline := answers }.pullHeld path wanted fuel =
      c.pullHeld path wanted fuel := fun _ _ => rfl
  have hpath : ∀ name, { c with modifyAckDeadline := answers }.subscriptionPath name =
      c.subscriptionPath name := fun _ => rfl
  simp only [hpath, hheld]
  split
  case isTrue => rfl
  case isFalse =>
    split
    case h_1 => rfl
    case h_2 =>
      rw [Option.map_map, Option.map_map]
      exact congrArg (Option.map · _) (funext fun ended => by
        simp only [Function.comp, requests_browse])

/-- **A browse gives back everything it took**, on every path: each handle is released once, in
requests that fit, all of them made whatever the answers are, and the page has each id once. -/
theorem browse_gives_back :
    (∀ (c : Sqs.Conn) (params : Sqs.MessageQueryParams) (fuel : ℕ)
        (out : Browse Sqs.BrowseError Sqs.Message Sqs.ChangeMessageVisibilityBatchInput),
      c.queryMessages params fuel = some out → Within out.calls →
      GivesBack Sqs.reader (·.handles) (·.Fits) (Sqs.wantedOf params) out ∧
        ∀ answers, ({ c with changeMessageVisibilityBatch := answers }.queryMessages params
          fuel).map Browse.requests = some out.requests) ∧
    (∀ (c : Googlepubsub.Conn) (params : Googlepubsub.MessageQueryParams) (fuel : ℕ)
        (out : Browse Googlepubsub.BrowseError Googlepubsub.ReceivedMessage
          Googlepubsub.ModifyAckDeadlineRequest),
      c.queryMessages params fuel = some out → Within out.calls →
      GivesBack Googlepubsub.reader (·.ackIds) (·.ackIds.length ≤ Googlepubsub.ackBatch)
          (Googlepubsub.wantedOf params) out ∧
        ∀ answers, ({ c with modifyAckDeadline := answers }.queryMessages params fuel).map
          Browse.requests = some out.requests) := by
  constructor
  · intro c params fuel out h hwithin
    refine ⟨sqs_gives_back h hwithin, fun answers => ?_⟩
    rw [sqs_requests, h, Option.map_some]
  · intro c params fuel out h hwithin
    refine ⟨googlepubsub_gives_back h hwithin, fun answers => ?_⟩
    rw [googlepubsub_requests, h, Option.map_some]

/-- A duplicate in the first reply, and a failure at the second receive. -/
theorem gives_back_after_failure :
    ∃ (sqs : Sqs.Conn) (pubsub : Googlepubsub.Conn) (failed : _) (listed : _),
      sqs.queryMessages ⟨"orders", 0⟩ 3 = some failed ∧ failed.calls.length = 2 ∧
      pubsub.queryMessages ⟨"billing", 2⟩ 3 = some listed ∧ listed.calls.length = 2 ∧
      GivesBack Sqs.reader (·.handles) (·.Fits) 10 failed ∧
      GivesBack Googlepubsub.reader (·.ackIds) (·.ackIds.length ≤ 100) 2 listed := by
  let sqs : Sqs.Conn := ⟨true, "eu-west-1", .ofList [("orders", "https://orders")],
    fun _ => .ok none, fun n => if n = 0 then .ok [⟨some "a", some "1", none, none, ∅, ∅⟩,
      ⟨some "a", some "2", none, none, ∅, ∅⟩] else .error ⟨"throttled", false⟩, fun _ => none⟩
  let pubsub : Googlepubsub.Conn := ⟨true, "shop", fun n =>
    .ok [⟨if n = 0 then "1" else "2", some ⟨"", ∅, if n = 0 then "a" else "b", none, ""⟩, 0⟩],
    fun _ => some "expired"⟩
  have hsqs : ((sqs.queryMessages ⟨"orders", 0⟩ 3).map fun out =>
      out.calls.map fun call => ((messages call.reply).length, call.asked)) =
        some [(2, 10), (0, 9)] := by decide
  have hpubsub : ((pubsub.queryMessages ⟨"billing", 2⟩ 3).map fun out =>
      out.calls.map fun call => ((messages call.reply).length, call.asked)) =
        some [(1, 2), (1, 1)] := by decide
  obtain ⟨failed, hfailed, hf⟩ := Option.map_eq_some_iff.mp hsqs
  obtain ⟨listed, hlisted, hl⟩ := Option.map_eq_some_iff.mp hpubsub
  have hwithin : ∀ {ε μ : Type} {calls : List (Call ε μ)} {sizes : List (ℕ × ℕ)},
      (calls.map fun call => ((messages call.reply).length, call.asked)) = sizes →
      (∀ size ∈ sizes, size.1 ≤ size.2) → Within calls := by
    rintro ε μ calls sizes rfl hsizes call hcall
    exact hsizes _ (List.mem_map_of_mem hcall)
  refine ⟨sqs, pubsub, failed, listed, hfailed, ?_, hlisted, ?_,
    (browse_gives_back.1 sqs ⟨"orders", 0⟩ 3 failed hfailed (hwithin hf (by decide))).1,
    (browse_gives_back.2 pubsub ⟨"billing", 2⟩ 3 listed hlisted (hwithin hl (by decide))).1⟩
  · simpa using congrArg List.length hf
  · simpa using congrArg List.length hl

/-! ### When a browse ends -/

/-- A browse ends, with as many calls as there are messages and one, each of them but the last for
something that is not listed yet. -/
def Stops (run : ℕ → Option (Ended ε μ String String)) (reader : Reader μ String String)
    (replies : ℕ → Except ε (List μ)) (held : Finset String) : Prop :=
  ∃ fuel ended, run fuel = some ended ∧ ended.calls.length ≤ held.card + 1 ∧
    ∀ n, n + 1 < ended.calls.length → Brings reader replies n

/-- The service holds messages of these ids only. -/
def Holds (reader : Reader μ String String) (replies : ℕ → Except ε (List μ))
    (held : Finset String) : Prop :=
  ∀ n, ∀ m ∈ messages (replies n), reader.key m ∈ held

theorem stops_iff {reader : Reader μ String String} {replies : ℕ → Except ε (List μ)} {wanted : ℕ}
    {held : Finset String} (hheld : Holds reader replies held) :
    Stops (fun fuel => receiveHeld reader replies wanted fuel [] .empty) reader replies held ↔
      ∀ n, ¬Stale reader replies wanted n := by
  rw [← endsByItself_iff]
  constructor
  · rintro ⟨fuel, ended, hrun, _, hends⟩
    exact ⟨fuel, ended, hrun, hends⟩
  · rintro ⟨fuel, ended, hrun, hends⟩
    exact ⟨fuel, ended, hrun, calls_le_card hheld hends, hends⟩

/-- **A browse stops once nothing new comes**, exactly if no reply that it comes to is made of
messages that are listed already. -/
theorem browse_ends_iff (wanted : ℕ) (held : Finset String) :
    (∀ c : Sqs.Conn, Holds Sqs.reader c.replies held →
      (Stops (c.receiveHeld wanted) Sqs.reader c.replies held ↔
        ∀ n, ¬Stale Sqs.reader c.replies wanted n)) ∧
    (∀ (c : Googlepubsub.Conn) (path : String),
      Holds Googlepubsub.reader (c.replies path) held →
      (Stops (c.pullHeld path wanted) Googlepubsub.reader (c.replies path) held ↔
        ∀ n, ¬Stale Googlepubsub.reader (c.replies path) wanted n)) :=
  ⟨fun _ hheld => stops_iff hheld, fun _ _ hheld => stops_iff hheld⟩

/-- One message, and then nothing. -/
theorem one_message_ends :
    ∃ (sqs : Sqs.Conn) (pubsub : Googlepubsub.Conn),
      Stops (sqs.receiveHeld 10) Sqs.reader sqs.replies {"a"} ∧
      Stops (pubsub.pullHeld "" 10) Googlepubsub.reader (pubsub.replies "") {"a"} := by
  refine ⟨⟨true, "", ∅, fun _ => .ok none, fun n =>
      .ok (if n = 0 then [⟨some "a", some "1", none, none, ∅, ∅⟩] else []), fun _ => none⟩,
    ⟨true, "", fun n => .ok (if n = 0 then [⟨"1", some ⟨"", ∅, "a", none, ""⟩, 0⟩] else []),
      fun _ => none⟩, ?_, ?_⟩
  · refine ((browse_ends_iff 10 {"a"}).1 _ ?_).mpr ?_
    · rintro (_ | n) m hm
      · obtain rfl := List.mem_singleton.mp hm
        exact Finset.mem_singleton_self _
      · nomatch hm
    · rintro (_ | n) ⟨_, _, ⟨_, _, hfilled⟩, hold⟩
      · exact hold ⟨_, List.mem_singleton_self _, List.not_mem_nil⟩
      · nomatch hfilled
  · refine ((browse_ends_iff 10 {"a"}).2 _ "" ?_).mpr ?_
    · rintro (_ | n) m hm
      · obtain rfl := List.mem_singleton.mp hm
        exact Finset.mem_singleton_self _
      · nomatch hm
    · rintro (_ | n) ⟨_, _, ⟨_, _, hfilled⟩, hold⟩
      · exact hold ⟨_, List.mem_singleton_self _, List.not_mem_nil⟩
      · nomatch hfilled

/-- The one message of a queue, or of a subscription, that is offered again and again: no number of
receives ends the browse. -/
theorem redelivered_for_ever :
    ∃ (sqs : Sqs.Conn) (pubsub : Googlepubsub.Conn),
      Holds Sqs.reader sqs.replies {"a"} ∧
      (∀ fuel, sqs.queryMessages ⟨"orders", 10⟩ fuel = none) ∧
      Holds Googlepubsub.reader (pubsub.replies "projects/shop/subscriptions/billing") {"a"} ∧
      ∀ fuel, pubsub.queryMessages ⟨"billing", 10⟩ fuel = none := by
  let sqs : Sqs.Conn := ⟨true, "eu-west-1", .ofList [("orders", "https://orders")],
    fun _ => .ok none, fun _ => .ok [⟨some "a", some "1", none, none, ∅, ∅⟩], fun _ => none⟩
  let pubsub : Googlepubsub.Conn := ⟨true, "shop",
    fun _ => .ok [⟨"1", some ⟨"", ∅, "a", none, ""⟩, 0⟩], fun _ => none⟩
  have hurl : sqs.queueURL "orders" = .ok "https://orders" := by
    have hname : Lib.Text.trimSpace "orders" = "orders" := by decide
    have hcached : sqs.urls["orders"]? = some "https://orders" := by decide
    simp [Sqs.Conn.queueURL, hname, hcached]
  have hname : Googlepubsub.requiredName "billing" = some "billing" := by decide
  refine ⟨sqs, pubsub, fun _ m hm => ?_, fun fuel => ?_, fun _ m hm => ?_, fun fuel => ?_⟩
  · obtain rfl := List.mem_singleton.mp hm
    exact Finset.mem_singleton_self _
  · have hnever : sqs.receiveHeld 10 fuel = none := by
      cases fuel with
      | zero => rfl
      | succ fuel =>
        refine receiveHeld_of_seen (fun n => ⟨⟨_, _, rfl⟩, fun m hm => ?_⟩) (by decide) fuel
        obtain rfl := List.mem_singleton.mp hm
        exact List.mem_singleton_self _
    simp only [Sqs.Conn.queryMessages, hurl]
    exact congrArg (Option.map _) hnever
  · obtain rfl := List.mem_singleton.mp hm
    exact Finset.mem_singleton_self _
  · have hnever : ∀ path, pubsub.pullHeld path 10 fuel = none := by
      intro path
      cases fuel with
      | zero => rfl
      | succ fuel =>
        refine receiveHeld_of_seen (fun n => ⟨⟨_, _, rfl⟩, fun m hm => ?_⟩) (by decide) fuel
        obtain rfl := List.mem_singleton.mp hm
        exact List.mem_singleton_self _
    simp only [Googlepubsub.Conn.queryMessages, hname]
    exact congrArg (Option.map _) (hnever _)


end MqStudio.HeldBrowse
