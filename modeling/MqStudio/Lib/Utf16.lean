import Mathlib

/-!
# UTF-16 texts and their UTF-8 encoding

A text is a list of code units, any list of them: half a surrogate pair on its own is encoded as
the replacement character.  `weight` is what a unit adds to the encoding of the units in front of
it, so that the size of a prefix is a sum, and grows with the prefix.

* `length_encode`: the size of an encoding is the weight of its units.
* `weight_append`: the weight of a text and of what follows it.
* `size_mono`: a longer prefix is not smaller.
-/

namespace Lib.Utf16

/-- The first half of a surrogate pair. -/
def isHigh (u : UInt16) : Bool := 0xD800 ≤ u && u ≤ 0xDBFF

/-- The second half. -/
def isLow (u : UInt16) : Bool := 0xDC00 ≤ u && u ≤ 0xDFFF

/-- The character of a unit on its own. -/
def single (u : UInt16) : Char :=
  if isHigh u || isLow u then '\uFFFD' else Char.ofNat u.toNat

/-- The character of a pair. -/
def paired (high low : UInt16) : Char :=
  Char.ofNat (0x10000 + (high.toNat - 0xD800) * 0x400 + (low.toNat - 0xDC00))

/-- The characters of a text. -/
def characters : List UInt16 → List Char
  | [] => []
  | [u] => [single u]
  | u :: v :: rest =>
    if isHigh u && isLow v then paired u v :: characters rest
    else single u :: characters (v :: rest)

/-- The UTF-8 encoding of a text. -/
def encode (us : List UInt16) : List UInt8 := (characters us).flatMap String.utf8EncodeChar

/-- The size of the encoding. -/
def size (us : List UInt16) : ℕ := (encode us).length

theorem isHigh_iff {u : UInt16} : isHigh u = true ↔ 0xD800 ≤ u.toNat ∧ u.toNat ≤ 0xDBFF := by
  simp [isHigh, UInt16.le_iff_toNat_le]

theorem isLow_iff {u : UInt16} : isLow u = true ↔ 0xDC00 ≤ u.toNat ∧ u.toNat ≤ 0xDFFF := by
  simp [isLow, UInt16.le_iff_toNat_le]

theorem not_isLow_of_isHigh {u : UInt16} (h : isHigh u = true) : isLow u = false := by
  have hhigh := isHigh_iff.mp h
  rw [Bool.eq_false_iff, ne_eq, isLow_iff]
  omega

theorem not_isHigh_of_isLow {u : UInt16} (h : isLow u = true) : isHigh u = false := by
  cases hhigh : isHigh u with
  | false => rfl
  | true => rw [not_isLow_of_isHigh hhigh] at h; cases h

theorem utf8Size_single_of_isHigh {u : UInt16} (h : isHigh u = true) : (single u).utf8Size = 3 := by
  rw [single, h]
  rfl

/-- A pair takes four bytes. -/
theorem utf8Size_paired {u v : UInt16} (hu : isHigh u = true) (hv : isLow v = true) :
    (paired u v).utf8Size = 4 := by
  obtain ⟨hu₁, hu₂⟩ := isHigh_iff.mp hu
  obtain ⟨hv₁, hv₂⟩ := isLow_iff.mp hv
  have hvalid : (0x10000 + (u.toNat - 0xD800) * 0x400 + (v.toNat - 0xDC00)).isValidChar := by
    right
    omega
  have hval : (paired u v).toNat = 0x10000 + (u.toNat - 0xD800) * 0x400 + (v.toNat - 0xDC00) := by
    rw [paired, Char.toNat_ofNat, if_pos hvalid]
  have hlarge : ∀ n : UInt32, n.toNat < 0x10000 → ¬ (paired u v).val ≤ n := by
    intro n hn hle
    have : (paired u v).toNat ≤ n.toNat := UInt32.le_iff_toNat_le.mp hle
    omega
  rw [Char.utf8Size, if_neg (hlarge _ (by decide)), if_neg (hlarge _ (by decide)),
    if_neg (hlarge _ (by decide))]

/-! ### Weights -/

/-- What a text adds to the encoding of what is in front of it, which ends with the first half of a
pair or does not. -/
def weight : Bool → List UInt16 → ℕ
  | _, [] => 0
  | half, u :: us => (if half && isLow u then 1 else (single u).utf8Size) + weight (isHigh u) us

/-- Whether a text ends with the first half of a pair. -/
def endsHigh (half : Bool) (us : List UInt16) : Bool := (us.getLast?.map isHigh).getD half

theorem weight_append (half : Bool) (us vs : List UInt16) :
    weight half (us ++ vs) = weight half us + weight (endsHigh half us) vs := by
  induction us generalizing half with
  | nil => simp [weight, endsHigh]
  | cons u us ih =>
    have hends : endsHigh half (u :: us) = endsHigh (isHigh u) us := by
      cases us with
      | nil => rfl
      | cons v us => simp [endsHigh, List.getLast?_cons]
    rw [List.cons_append, weight, weight, ih, hends, Nat.add_assoc]

theorem size_eq_sum (us : List UInt16) : size us = ((characters us).map Char.utf8Size).sum := by
  rw [size, encode, List.length_flatMap]
  simp only [String.length_utf8EncodeChar]

/-- Without the first half of a pair in front of it the first unit stands for itself. -/
theorem weight_of_unpaired {half : Bool} {u : UInt16} (h : (half && isLow u) = false)
    (us : List UInt16) : weight half (u :: us) = weight false (u :: us) := by
  rw [weight, weight, h, Bool.false_and]

/-- The size of an encoding is the weight of its units. -/
theorem size_eq_weight (us : List UInt16) : size us = weight false us := by
  rw [size_eq_sum]
  fun_induction characters us with
  | case1 => rfl
  | case2 u => simp [weight]
  | case3 u v rest hpair ih =>
    rw [Bool.and_eq_true] at hpair
    rw [List.map_cons, List.sum_cons, ih, utf8Size_paired hpair.1 hpair.2, weight, weight, hpair.1,
      hpair.2, not_isHigh_of_isLow hpair.2, Bool.false_and, Bool.true_and, if_neg (by decide),
      if_pos rfl, utf8Size_single_of_isHigh hpair.1, ← Nat.add_assoc]
  | case4 u v rest hpair ih =>
    have hhead : weight false (u :: v :: rest) =
        (single u).utf8Size + weight (isHigh u) (v :: rest) := rfl
    rw [List.map_cons, List.sum_cons, ih, hhead, weight_of_unpaired (Bool.eq_false_iff.mpr hpair)]

theorem size_append_high (us : List UInt16) {high : UInt16} (h : isHigh high = true) :
    size (us ++ [high]) = size us + 3 := by
  rw [size_eq_weight, size_eq_weight, weight_append, weight, weight, not_isLow_of_isHigh h,
    Bool.and_false, if_neg (by decide), utf8Size_single_of_isHigh h]

theorem size_append_pair (us : List UInt16) {high low : UInt16} (h : isHigh high = true)
    (hlow : isLow low = true) : size (us ++ [high, low]) = size us + 4 := by
  rw [size_eq_weight, size_eq_weight, weight_append, weight, weight, weight, h, hlow,
    not_isLow_of_isHigh h, Bool.and_false, if_neg (by decide), Bool.true_and, if_pos rfl,
    utf8Size_single_of_isHigh h]

/-- **A longer prefix is not smaller.** -/
theorem size_mono {us vs : List UInt16} (h : us <+: vs) : size us ≤ size vs := by
  obtain ⟨rest, rfl⟩ := h
  rw [size_eq_weight, size_eq_weight, weight_append]
  exact Nat.le_add_right _ _

theorem size_take_mono (us : List UInt16) {m n : ℕ} (h : m ≤ n) :
    size (us.take m) ≤ size (us.take n) :=
  size_mono (List.take_prefix_take_left h)

@[simp] theorem size_nil : size [] = 0 := rfl

/-- A unit below `0x80` takes one byte. -/
theorem size_replicate {u : UInt16} (h : u.toNat < 0x80) (n : ℕ) :
    size (List.replicate n u) = n := by
  have hhigh : isHigh u = false := by
    rw [Bool.eq_false_iff, ne_eq, isHigh_iff]
    omega
  have hlow : isLow u = false := by
    rw [Bool.eq_false_iff, ne_eq, isLow_iff]
    omega
  have hone : (single u).utf8Size = 1 := by
    have hvalid : u.toNat.isValidChar := .inl (by omega)
    have hval : (Char.ofNat u.toNat).toNat = u.toNat := by rw [Char.toNat_ofNat, if_pos hvalid]
    have hsmall : (Char.ofNat u.toNat).val ≤ 0x7f := UInt32.le_iff_toNat_le.mpr (by
      have : (Char.ofNat u.toNat).val.toNat = u.toNat := hval
      have : (0x7f : UInt32).toNat = 0x7f := rfl
      omega)
    rw [single, hhigh, hlow, Bool.or_false, if_neg (by decide)]
    exact if_pos hsmall
  rw [size_eq_weight]
  induction n with
  | zero => rfl
  | succ n ih =>
    rw [List.replicate_succ, weight, hhigh, ih, Bool.false_and, if_neg (by decide), hone,
      Nat.add_comm]

end Lib.Utf16
