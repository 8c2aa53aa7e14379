import Mathlib

/-!
# The latest of several requests

Requests are numbered as they are sent, and an answer counts while no later number was given.

* `Requests`: the last number that was given, and the requests in flight.
* `Requests.Only`: the request that counts, if one does, has a property.
* `only_bump`, `only_start`, `only_land`: what the operations do to it.
-/

namespace Lib.Latest

universe u

variable {α : Type u} {P : α → Prop}

/-- The last number, and the requests in flight with theirs. -/
structure Requests (α : Type u) where
  last : ℕ
  flying : List (ℕ × α)
  bounded : ∀ r ∈ flying, r.1 ≤ last

namespace Requests

/-- Nothing was sent yet. -/
def idle : Requests α := ⟨0, [], fun _ hr => nomatch hr⟩

/-- Takes a number for nothing, so that no request in flight counts. -/
def bump (l : Requests α) : Requests α :=
  ⟨l.last + 1, l.flying, fun r hr => Nat.le_succ_of_le (l.bounded r hr)⟩

/-- Sends a request under the next number. -/
def start (l : Requests α) (a : α) : Requests α where
  last := l.last + 1
  flying := (l.last + 1, a) :: l.flying
  bounded r hr := by
    rcases List.mem_cons.mp hr with rfl | hr
    · exact le_rfl
    · exact Nat.le_succ_of_le (l.bounded r hr)

/-- A request is answered. -/
def land (l : Requests α) (i : ℕ) : Requests α :=
  ⟨l.last, l.flying.eraseIdx i, fun r hr => l.bounded r (List.mem_of_mem_eraseIdx hr)⟩

/-- The request that counts, if one does, has the property. -/
def Only (P : α → Prop) (l : Requests α) : Prop := ∀ r ∈ l.flying, r.1 = l.last → P r.2

theorem only_bump (l : Requests α) : l.bump.Only P := by
  intro r hr hlast
  have hle := l.bounded r hr
  have heq : r.1 = l.last + 1 := hlast
  omega

theorem only_start (l : Requests α) {a : α} (ha : P a) : (l.start a).Only P := by
  intro r hr hlast
  rcases List.mem_cons.mp hr with rfl | hr
  · exact ha
  · have hle := l.bounded r hr
    have heq : r.1 = l.last + 1 := hlast
    omega

theorem only_land {l : Requests α} (h : l.Only P) (i : ℕ) : (l.land i).Only P :=
  fun r hr hlast => h r (List.mem_of_mem_eraseIdx hr) hlast

end Requests

end Lib.Latest
