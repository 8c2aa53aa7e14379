import MqStudio.Lib.HeldRead
import MqStudio.Model.Tail

/-!
# Browsing what a consumer would receive

What the families without a browse of their own share: the messages are received with a hold, every
one of them is handed back whatever happened, and the page is sorted by time.

* `browse`: one browse, with the calls that it makes.
* `browse_spec`: what is handed back and what is listed.
-/

namespace MqStudio.HeldBrowse

open Lib.HeldRead Model

/-- A browse that ended: its calls, what was handed back with the answers to it, and what the caller
gets. -/
structure Browse (ε μ ρ : Type) where
  calls : List (Call ε μ)
  released : List (ρ × Option String)
  result : Except ε (List MessageItem)

variable {ε μ ρ : Type}

/-- How many messages are read where `maxResults` are asked for. -/
def wantedOf (batch maxBrowse : ℕ) (maxResults : Int) : ℕ :=
  if maxResults ≤ 0 then min batch maxBrowse else min maxResults.toNat maxBrowse

/-- The newest first; those of one time as they were. -/
def newestFirst (items : List MessageItem) : List MessageItem :=
  items.mergeSort fun a b => b.storeTimestamp ≤ a.storeTimestamp

/-- The requests one after another, whatever the answers are. -/
def send (answers : ℕ → Option String) (requests : List ρ) : List (ρ × Option String) :=
  requests.zipIdx.map fun (request, n) => (request, answers n)

/-- A browse that is refused before it receives anything. -/
def Browse.refused (err : ε) : Browse ε μ ρ := ⟨[], [], .error err⟩

/-- What is left to do once the receiving is over. -/
def browse (item : ℕ → μ → MessageItem) (answers : ℕ → Option String)
    (release : List String → List ρ) (ended : Ended ε μ String String) : Browse ε μ ρ where
  calls := ended.calls
  released := send answers (release ended.reading.handles)
  result :=
    match ended.failure with
    | some err => .error err
    | none => .ok (newestFirst (ended.reading.collected.mapIdx fun i m => item (i + 1) m))

theorem requests_send (answers : ℕ → Option String) (requests : List ρ) :
    (send answers requests).map (·.1) = requests := by
  rw [send, List.map_map]
  exact List.zipIdx_map_fst ..

/-- A browse lists what was received, with every id once. -/
structure Page (reader : Reader μ String String) (wanted : ℕ) (out : Browse ε μ ρ) : Prop where
  listsOnce : ∀ items, out.result = .ok items → (items.map (·.messageID)).Nodup
  atMost : ∀ items, out.result = .ok items → items.length ≤ wanted

variable {reader : Reader μ String String} {item : ℕ → μ → MessageItem}
  {answers : ℕ → Option String} {release : List String → List ρ} {wanted fuel : ℕ}
  {replies : ℕ → Except ε (List μ)} {ended : Ended ε μ String String}

theorem messageIDs_newestFirst (hitem : ∀ n m, (item n m).messageID = reader.key m) (l : List μ) :
    ((newestFirst (l.mapIdx fun i m => item (i + 1) m)).map (·.messageID)).Perm
      (l.map reader.key) := by
  refine ((List.mergeSort_perm _ _).map _).trans (List.Perm.of_eq ?_)
  refine List.ext_getElem (by simp) fun i hi hl => ?_
  rw [List.getElem_map, List.getElem_mapIdx, hitem, List.getElem_map]

/-- **The page**: every id once, and no more than was wanted. -/
theorem page_browse (hitem : ∀ n m, (item n m).messageID = reader.key m)
    (h : receiveHeld reader replies wanted fuel [] .empty = some ended)
    (hwithin : Within ended.calls) : Page reader wanted (browse item answers release ended) where
  listsOnce items hitems := by
    have htook := receiveHeld_took h took_empty
    rw [browse] at hitems
    dsimp only at hitems
    split at hitems
    case h_1 => nomatch hitems
    case h_2 =>
      obtain rfl := Except.ok.inj hitems
      exact (messageIDs_newestFirst hitem _).nodup_iff.mpr htook.nodup_keys
  atMost items hitems := by
    have hlength := length_collected_le h hwithin (Nat.zero_le _)
    rw [browse] at hitems
    dsimp only at hitems
    split at hitems
    case h_1 => nomatch hitems
    case h_2 =>
      obtain rfl := Except.ok.inj hitems
      rwa [newestFirst, List.length_mergeSort, List.length_mapIdx]

/-- **What is handed back**: everything that was received, in the order it came. -/
theorem released_browse (h : receiveHeld reader replies wanted fuel [] .empty = some ended)
    {handles : ρ → List String}
    (hrelease : ∀ held, (release held).flatMap handles = held) :
    (browse item answers release ended).released.flatMap (handles ·.1) =
      (received ended.calls).map reader.handle := by
  have htook := receiveHeld_took h took_empty
  rw [browse, ← htook.handles, ← List.flatMap_map, requests_send]
  exact hrelease _

end MqStudio.HeldBrowse
