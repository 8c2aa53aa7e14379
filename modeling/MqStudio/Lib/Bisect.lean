import Mathlib

/-!
# Bisection

The last of a range of numbers that has a property, where the property holds up to some number and
not beyond: the range is halved until it holds one number.

* `lastTrue_spec`: the number that is found has the property, and no later one of the range has.
-/

namespace Lib.Bisect

/-- The last number from `lo` to `hi` with the property, which `lo` has. -/
def lastTrue (p : ℕ → Bool) (lo hi : ℕ) : ℕ :=
  if lo < hi then
    let mid := (lo + hi + 1) / 2
    if p mid then lastTrue p mid hi else lastTrue p lo (mid - 1)
  else lo
termination_by hi - lo

variable {p : ℕ → Bool}

/-- The number that is found has the property, and no later one of the range has. -/
theorem lastTrue_spec (hp : ∀ m n, m ≤ n → p n = true → p m = true) {lo hi : ℕ} (hle : lo ≤ hi)
    (hlo : p lo = true) :
    lo ≤ lastTrue p lo hi ∧ lastTrue p lo hi ≤ hi ∧ p (lastTrue p lo hi) = true ∧
      ∀ n, lastTrue p lo hi < n → n ≤ hi → p n = false := by
  fun_induction lastTrue p lo hi with
  | case1 lo hi hlt mid hmid ih =>
    obtain ⟨hlow, hhigh, htrue, hlast⟩ := ih (by omega) hmid
    exact ⟨by omega, hhigh, htrue, hlast⟩
  | case2 lo hi hlt mid hmid ih =>
    obtain ⟨hlow, hhigh, htrue, hlast⟩ := ih (by omega) hlo
    refine ⟨hlow, by omega, htrue, fun n hn hhi => ?_⟩
    by_cases hbelow : n ≤ mid - 1
    · exact hlast n hn hbelow
    · -- What is false in the middle is false beyond it.
      exact Bool.eq_false_iff.mpr fun h => hmid (hp mid n (by omega) h)
  | case3 lo hi hge =>
    exact ⟨le_rfl, hle, hlo, fun n hn hhi => absurd (hn.trans_le hhi) hge⟩

end Lib.Bisect
