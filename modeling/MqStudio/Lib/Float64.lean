import Mathlib

/-!
# Binary64 numbers

What reading a decimal into a `float64` and printing it does to its magnitude.  Of the magnitudes a
`float64` can hold `nearest q` is the one nearest to `q`, with the even significand where two are
equally near; `read` refuses what would be infinite.  A number is printed with the fewest digits
that read back as it.

* `read_read`: reading what was read changes nothing.
* `read_shortest`: what a number is printed as reads back as that number.
* `exp_shortest_nonneg`: a whole decimal is printed without a fraction.
-/

namespace Lib.Float64

/-! ### Reading -/

/-- The nearest integer, the even one where two are equally near. -/
def roundEven (q : ℚ) : ℕ :=
  if q - ⌊q⌋₊ < 1 / 2 ∨ q - ⌊q⌋₊ = 1 / 2 ∧ ⌊q⌋₊ % 2 = 0 then ⌊q⌋₊ else ⌊q⌋₊ + 1

/-- The exponent of the last of the 53 binary digits, or of the last one there is. -/
def exponent (q : ℚ) : ℤ := max (Int.log 2 q - 52) (-1074)

/-- The magnitude nearest to `q`. -/
def nearest (q : ℚ) : ℚ := roundEven (q / 2 ^ exponent q) * 2 ^ exponent q

/-- The magnitude that `q` is read as, none where it is out of range. -/
def read (q : ℚ) : Option ℚ := if nearest q < 2 ^ 1024 then some (nearest q) else none

theorem roundEven_natCast (n : ℕ) : roundEven n = n := by simp [roundEven]

theorem roundEven_le {q : ℚ} {n : ℕ} (hn : n ≠ 0) (h : q < n) : roundEven q ≤ n := by
  have hfloor : ⌊q⌋₊ < n := (Nat.floor_lt' hn).mpr h
  unfold roundEven
  split <;> omega

theorem two_zpow_ne_zero (e : ℤ) : (2 : ℚ) ^ e ≠ 0 := zpow_ne_zero e two_ne_zero

theorem nearest_of_multiple {q : ℚ} {n : ℕ} (h : q = n * 2 ^ exponent q) : nearest q = q := by
  have hquotient : q / 2 ^ exponent q = n := (div_eq_iff (two_zpow_ne_zero _)).mpr h
  rw [nearest, hquotient, roundEven_natCast]
  exact h.symm

theorem exponent_mul_zpow_le {m : ℕ} {e : ℤ} (h0 : 0 < m) (hm : m < 2 ^ 53) (he : -1074 ≤ e) :
    exponent (m * 2 ^ e) ≤ e := by
  have hpos : (0 : ℚ) < m * 2 ^ e := by positivity
  have hlt : (m * 2 ^ e : ℚ) < ((2 : ℕ) : ℚ) ^ (53 + e) := by
    rw [Nat.cast_two, zpow_add₀ two_ne_zero]
    have hm' : (m : ℚ) < 2 ^ (53 : ℤ) := by exact_mod_cast hm
    gcongr
  have hlog := (Int.lt_zpow_iff_log_lt one_lt_two hpos).mp hlt
  unfold exponent
  omega

/-- **What 53 binary digits hold is held exactly.** -/
theorem nearest_mul_zpow {m : ℕ} {e : ℤ} (hm : m ≤ 2 ^ 53) (he : -1074 ≤ e) :
    nearest (m * 2 ^ e) = m * 2 ^ e := by
  rcases Nat.eq_zero_or_pos m with rfl | h0
  · exact nearest_of_multiple (n := 0) (by simp)
  rcases Nat.lt_or_eq_of_le hm with hlt | rfl
  · obtain ⟨k, hk⟩ := Int.eq_ofNat_of_zero_le
      (sub_nonneg.mpr (exponent_mul_zpow_le h0 hlt he))
    refine nearest_of_multiple (n := m * 2 ^ k) ?_
    calc (m * 2 ^ e : ℚ) = m * 2 ^ ((k : ℤ) + exponent (m * 2 ^ e)) := by
          rw [← hk, sub_add_cancel]
      _ = (m * 2 ^ k : ℕ) * 2 ^ exponent (m * 2 ^ e) := by
          rw [zpow_add₀ two_ne_zero, zpow_natCast]
          push_cast
          ring
  · have hpow : ((2 ^ 53 : ℕ) * 2 ^ e : ℚ) = ((2 : ℕ) : ℚ) ^ (53 + e) := by
      rw [Nat.cast_two, zpow_add₀ two_ne_zero]
      norm_num
    have hexp : exponent ((2 ^ 53 : ℕ) * 2 ^ e) = e + 1 := by
      rw [hpow, exponent, Int.log_zpow one_lt_two]
      omega
    refine nearest_of_multiple (n := 2 ^ 52) ?_
    rw [hexp, zpow_add₀ two_ne_zero]
    push_cast
    ring

theorem exists_nearest (q : ℚ) : ∃ m : ℕ, m ≤ 2 ^ 53 ∧ nearest q = m * 2 ^ exponent q := by
  refine ⟨_, roundEven_le (by norm_num) ?_, rfl⟩
  have hlog : q < ((2 : ℕ) : ℚ) ^ (Int.log 2 q + 1) := Int.lt_zpow_succ_log_self one_lt_two q
  have hle : ((2 : ℕ) : ℚ) ^ (Int.log 2 q + 1) ≤ 2 ^ (53 : ℤ) * 2 ^ exponent q := by
    rw [Nat.cast_two, ← zpow_add₀ two_ne_zero]
    refine zpow_le_zpow_right₀ one_le_two ?_
    unfold exponent
    omega
  have hcast : (2 : ℚ) ^ (53 : ℤ) = ((2 ^ 53 : ℕ) : ℚ) := by norm_num
  rw [hcast] at hle
  rw [div_lt_iff₀ (by positivity)]
  exact lt_of_lt_of_le hlog hle

theorem nearest_nearest (q : ℚ) : nearest (nearest q) = nearest q := by
  obtain ⟨m, hm, h⟩ := exists_nearest q
  rw [h]
  exact nearest_mul_zpow hm (le_max_right _ _)

theorem nearest_nonneg (q : ℚ) : 0 ≤ nearest q := by
  unfold nearest
  positivity

theorem read_eq_some {q r : ℚ} (h : read q = some r) : nearest q = r ∧ r < 2 ^ 1024 := by
  unfold read at h
  split at h
  · rename_i hlt
    obtain rfl := Option.some.inj h
    exact ⟨rfl, hlt⟩
  · cases h

/-- **Reading what was read changes nothing.** -/
theorem read_read {q r : ℚ} (h : read q = some r) : read r = some r := by
  obtain ⟨rfl, hlt⟩ := read_eq_some h
  rw [read, nearest_nearest, if_pos hlt]

theorem nearest_natCast {n : ℕ} (h : n ≤ 2 ^ 53) : nearest n = n := by
  have := nearest_mul_zpow h (e := 0) (by norm_num)
  rwa [zpow_zero, mul_one] at this

theorem nearest_zero : nearest 0 = 0 := by simpa using nearest_natCast (Nat.zero_le (2 ^ 53))

/-- An integer is read as an integer. -/
theorem exists_nearest_natCast (n : ℕ) : ∃ m : ℕ, nearest n = m := by
  by_cases h : n ≤ 2 ^ 53
  · exact ⟨n, nearest_natCast h⟩
  · have hpow : ((2 : ℕ) : ℚ) ^ (53 : ℤ) ≤ n := by
      rw [not_le] at h
      exact_mod_cast h.le
    have hlog := (Int.zpow_le_iff_le_log one_lt_two (by positivity)).mp hpow
    obtain ⟨k, hk⟩ := Int.eq_ofNat_of_zero_le (a := exponent n) (by unfold exponent; omega)
    refine ⟨roundEven (n / 2 ^ exponent n) * 2 ^ k, ?_⟩
    rw [nearest, hk, zpow_natCast]
    push_cast
    rfl

/-- An integer of 53 binary digits is read as itself. -/
theorem read_natCast {n : ℕ} (h : n ≤ 2 ^ 53) : read n = some (n : ℚ) := by
  have hnearest := nearest_natCast h
  have hle : (n : ℚ) ≤ 2 ^ 53 := by exact_mod_cast h
  have hlt : (n : ℚ) < 2 ^ 1024 :=
    lt_of_le_of_lt hle (pow_lt_pow_right₀ one_lt_two (by norm_num))
  rw [read, hnearest, if_pos hlt]

/-- Rounding does not pass an integer of 53 binary digits. -/
theorem nearest_le_natCast {q : ℚ} {n : ℕ} (hq : 0 < q) (h : q ≤ n) (hn : n < 2 ^ 53) :
    nearest q ≤ n := by
  have hlt : q < ((2 : ℕ) : ℚ) ^ (53 : ℤ) := by
    have hcast : (n : ℚ) < (2 : ℕ) ^ (53 : ℤ) := by exact_mod_cast hn
    exact lt_of_le_of_lt h hcast
  have hlog : Int.log 2 q < 53 := (Int.lt_zpow_iff_log_lt one_lt_two hq).mp hlt
  obtain ⟨k, hk⟩ : ∃ k : ℕ, exponent q = -(k : ℤ) :=
    ⟨(-exponent q).toNat, by unfold exponent; omega⟩
  have hquotient : q / 2 ^ exponent q ≤ ((n * 2 ^ k : ℕ) : ℚ) := by
    rw [hk, zpow_neg, zpow_natCast, div_inv_eq_mul]
    push_cast
    gcongr
  have hround : roundEven (q / 2 ^ exponent q) ≤ n * 2 ^ k := by
    rcases hquotient.lt_or_eq with hlt | heq
    · refine roundEven_le (fun hzero => ?_) hlt
      rw [hzero] at hlt
      have hpos : (0 : ℚ) ≤ q / 2 ^ exponent q := by positivity
      exact absurd hlt (by push_cast; exact not_lt.mpr hpos)
    · rw [heq, roundEven_natCast]
  have hcast : (roundEven (q / 2 ^ exponent q) : ℚ) ≤ n * 2 ^ k := by exact_mod_cast hround
  calc nearest q = roundEven (q / 2 ^ exponent q) * 2 ^ exponent q := rfl
    _ ≤ n * 2 ^ k * 2 ^ exponent q := by gcongr
    _ = n := by
      rw [hk, zpow_neg, zpow_natCast, mul_assoc, mul_inv_cancel₀ (by positivity), mul_one]
/-! ### Printing -/

/-- Digits and a power of ten. -/
structure Decimal where
  digits : ℕ
  exp : ℤ
deriving DecidableEq, Repr

namespace Decimal

def value (x : Decimal) : ℚ := x.digits * 10 ^ x.exp

/-- Without zeros at the end. -/
def trim (x : Decimal) : Decimal := ⟨x.digits.divMaxPow 10, x.exp + padicValNat 10 x.digits⟩

theorem value_trim (x : Decimal) : x.trim.value = x.value := by
  have h : ((x.digits.divMaxPow 10 : ℕ) * 10 ^ padicValNat 10 x.digits : ℚ) = x.digits := by
    exact_mod_cast Nat.divMaxPow_mul_pow_padicValNat 10 x.digits
  rw [value, value, trim, zpow_add₀ (by norm_num), zpow_natCast, ← h]
  ring

theorem not_dvd_trim {x : Decimal} (h : x.trim.digits ≠ 0) : ¬10 ∣ x.trim.digits := by
  refine Nat.not_dvd_divMaxPow (by norm_num) ?_
  rintro h0
  exact h (by rw [trim, h0, Nat.divMaxPow_zero_left])

/-- A whole decimal whose digits end in no zero has no fraction. -/
theorem exp_nonneg {x : Decimal} {n : ℕ} (h10 : ¬10 ∣ x.digits) (h : x.value = n) : 0 ≤ x.exp := by
  by_contra hneg
  obtain ⟨j, hj⟩ : ∃ j : ℕ, x.exp = -((j + 1 : ℕ) : ℤ) :=
    ⟨(-x.exp - 1).toNat, by push_cast; omega⟩
  rw [value, hj, zpow_neg, zpow_natCast, ← div_eq_mul_inv, div_eq_iff (by positivity)] at h
  have hdigits : x.digits = n * 10 ^ (j + 1) := by exact_mod_cast h
  exact h10 ⟨n * 10 ^ j, by rw [hdigits]; ring⟩

end Decimal

/-- The decimals of `n` digits on both sides of `q`, the nearer one first. -/
def candidates (q : ℚ) (n : ℕ) : List Decimal :=
  let exp := Int.log 10 q - n + 1
  let down := ⌊q / 10 ^ exp⌋₊
  if roundEven (q / 10 ^ exp) = down then [⟨down, exp⟩, ⟨down + 1, exp⟩]
  else [⟨down + 1, exp⟩, ⟨down, exp⟩]

/-- All digits of a magnitude. -/
def allDigits (q : ℚ) : Decimal :=
  let digits := roundEven (q / 2 ^ exponent q)
  if 0 ≤ exponent q then ⟨digits * 2 ^ (exponent q).toNat, 0⟩
  else ⟨digits * 5 ^ (-exponent q).toNat, exponent q⟩

/-- The decimal a magnitude is printed as: the fewest digits that read back as it, and of those the
nearest ones.  Seventeen digits are enough. -/
def shortest (q : ℚ) : Decimal :=
  ((((List.range' 1 17).flatMap (candidates q)).find?
    fun x => read x.value = some q).getD (allDigits q)).trim

theorem value_allDigits {q : ℚ} (h : nearest q = q) : (allDigits q).value = q := by
  have hvalue : (allDigits q).value = nearest q := by
    unfold allDigits
    dsimp only
    split
    · rename_i hpos
      obtain ⟨k, hk⟩ := Int.eq_ofNat_of_zero_le hpos
      rw [Decimal.value, nearest, hk]
      simp
    · rename_i hneg
      obtain ⟨k, hk⟩ : ∃ k : ℕ, exponent q = -(k : ℤ) := ⟨(-exponent q).toNat, by omega⟩
      rw [Decimal.value, nearest, hk]
      simp only [neg_neg, Int.toNat_natCast, zpow_neg, zpow_natCast]
      push_cast
      rw [show (10 : ℚ) = 2 * 5 by norm_num, mul_pow]
      field_simp
  rw [hvalue, h]

/-- **What a magnitude is printed as reads back as it.** -/
theorem read_shortest {q : ℚ} (h : read q = some q) : read (shortest q).value = some q := by
  rw [shortest, Decimal.value_trim]
  cases hfind : ((List.range' 1 17).flatMap (candidates q)).find?
      fun x => read x.value = some q with
  | none =>
    rw [Option.getD_none, value_allDigits (read_eq_some h).1]
    exact h
  | some x =>
    have hread := List.find?_some hfind
    exact of_decide_eq_true hread

theorem digits_shortest_ne_zero {q : ℚ} (h : read q = some q) (hq : q ≠ 0) :
    (shortest q).digits ≠ 0 := by
  intro h0
  have hread := read_shortest h
  rw [Decimal.value, h0, Nat.cast_zero, zero_mul, ← Nat.cast_zero, read_natCast (by norm_num),
    Nat.cast_zero] at hread
  exact hq (Option.some.inj hread).symm

theorem shortest_zero : shortest 0 = ⟨0, 0⟩ := by
  have hfirst : candidates 0 1 = [⟨0, 0⟩, ⟨1, 0⟩] := by
    simp [candidates, roundEven]
  have hread : read (Decimal.value ⟨0, 0⟩) = some 0 := by
    have := read_natCast (n := 0) (by norm_num)
    simpa [Decimal.value] using this
  rw [shortest, List.range'_succ, List.flatMap_cons, hfirst, List.cons_append,
    List.find?_cons_of_pos (by simpa using hread), Option.getD_some]
  simp [Decimal.trim]

/-- **A whole decimal is printed without a fraction.** -/
theorem exp_shortest_nonneg {q : ℚ} {n : ℕ} (h : read q = some q) (hq : q ≠ 0)
    (hn : (shortest q).value = n) : 0 ≤ (shortest q).exp :=
  Decimal.exp_nonneg (Decimal.not_dvd_trim (digits_shortest_ne_zero h hq)) hn

end Lib.Float64
