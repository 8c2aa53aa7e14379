import Mathlib

/-!
# A flag that one thread holds at a time

Threads `ι → θ`, some of whose states hold a shared flag.  `Guarded` says that
the flag is up while it is held and that at most one thread holds it.  One
thread moving keeps `Guarded` where it goes on as it was (`keep`), takes a flag
that is down (`acquire`) or gives up the flag it holds (`release`).
-/

namespace Lib.Lock

universe u v

variable {ι : Type u} {θ : Type v} {holds : θ → Prop}

/-- The flag is up while it is held, and held by one thread at most. -/
structure Guarded (holds : θ → Prop) (flag : Bool) (threads : ι → θ) : Prop where
  up : ∀ i, holds (threads i) → flag = true
  unique : ∀ i j, holds (threads i) → holds (threads j) → i = j

theorem Guarded.none {flag : Bool} {threads : ι → θ} (h : ∀ i, ¬ holds (threads i)) :
    Guarded holds flag threads :=
  ⟨fun i hi => absurd hi (h i), fun i _ hi => absurd hi (h i)⟩

variable {flag : Bool} {threads : ι → θ} {i : ι} {th : θ}

/-- Where the flag is down, nobody holds it. -/
theorem Guarded.not_holds (h : Guarded holds false threads) (i : ι) : ¬ holds (threads i) :=
  fun hi => by simpa using h.up i hi

/-- What a thread holds no other thread does. -/
theorem Guarded.not_holds_of_ne (h : Guarded holds flag threads) {j : ι} (hi : holds (threads i))
    (hj : j ≠ i) : ¬ holds (threads j) :=
  fun hh => hj (h.unique j i hh hi)

variable [DecidableEq ι]

/-- A thread that holds the flag after its move held it before. -/
theorem Guarded.keep (h : Guarded holds flag threads) (hk : holds th → holds (threads i)) :
    Guarded holds flag (Function.update threads i th) := by
  have hback : ∀ j, holds (Function.update threads i th j) → holds (threads j) := by
    intro j hj
    by_cases hij : j = i
    · subst hij
      exact hk (by simpa using hj)
    · simpa [Function.update_of_ne hij] using hj
  exact ⟨fun j hj => h.up j (hback j hj), fun j k hj hk => h.unique j k (hback j hj) (hback k hk)⟩

theorem Guarded.acquire (h : Guarded holds false threads) :
    Guarded holds true (Function.update threads i th) := by
  have hown : ∀ j, holds (Function.update threads i th j) → j = i := by
    intro j hj
    by_contra hij
    rw [Function.update_of_ne hij] at hj
    exact h.not_holds j hj
  exact ⟨fun _ _ => rfl, fun j k hj hk => (hown j hj).trans (hown k hk).symm⟩

theorem Guarded.release (h : Guarded holds flag threads) (hi : holds (threads i))
    (hth : ¬ holds th) (flag' : Bool) : Guarded holds flag' (Function.update threads i th) := by
  refine Guarded.none fun j => ?_
  by_cases hij : j = i
  · subst hij
    simpa using hth
  · rw [Function.update_of_ne hij]
    exact h.not_holds_of_ne hi hij

end Lib.Lock
