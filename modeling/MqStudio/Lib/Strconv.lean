import MqStudio.Lib.Json.Decode

/-!
# Integers and separators in text

What Go's `strconv.ParseInt` accepts in base ten, and a cut at the last separator.

* `parseInt_toString`: an integer in the range reads back from its decimal text.
* `cutLast_append`: a cut at the last separator finds what follows it.
-/

namespace Lib.Strconv

open Lib.Json Lib.Text

/-! ### Integers -/

/-- The value of a text of digits. -/
def digitsValue (cs : List Char) : Option Int :=
  if isDigits cs then some (Nat.ofDigitChars 10 cs 0 : Int) else none

/-- The value of digits after an optional sign. -/
def signedValue : List Char → Option Int
  | '-' :: cs => (digitsValue cs).map (-·)
  | '+' :: cs => digitsValue cs
  | cs => digitsValue cs

/-- The signed integers of a width. -/
def Fits (bits : Nat) (v : Int) : Prop := -2 ^ (bits - 1) ≤ v ∧ v < 2 ^ (bits - 1)

instance (bits : Nat) (v : Int) : Decidable (Fits bits v) :=
  inferInstanceAs (Decidable (-2 ^ (bits - 1) ≤ v ∧ v < 2 ^ (bits - 1)))

/-- `strconv.ParseInt(s, 10, bits)`. -/
def parseInt (bits : Nat) (cs : List Char) : Option Int := (signedValue cs).filter (Fits bits)

theorem digitsValue_toDigits (n : Nat) : digitsValue (Nat.toDigits 10 n) = some (n : Int) := by
  rw [digitsValue, if_pos (isDigits_toDigits n), Nat.ofDigitChars_ten_toDigits]

theorem signedValue_toDigits (n : Nat) : signedValue (Nat.toDigits 10 n) = some (n : Int) := by
  have hd := isDigits_toDigits n
  have hv := digitsValue_toDigits n
  unfold signedValue
  split
  · rename_i cs heq
    rw [heq] at hd
    exact absurd hd (by simp [isDigits])
  · rename_i cs heq
    rw [heq] at hd
    exact absurd hd (by simp [isDigits])
  · exact hv

theorem toList_toString_nat (n : Nat) : (toString (n : Int)).toList = Nat.toDigits 10 n := by
  have hrepr : toString (n : Int) = n.repr := by
    rw [Int.toString_eq_repr, Int.repr_eq_if]
    split
    · rfl
    · rename_i hneg
      exact absurd (Int.natCast_nonneg n) hneg
  rw [hrepr, Nat.toList_repr]

/-- **A natural number in the range reads back** from its decimal text. -/
theorem parseInt_toString {bits : Nat} {v : Int} (h0 : 0 ≤ v) (h : Fits bits v) :
    parseInt bits (toString v).toList = some v := by
  obtain ⟨n, rfl⟩ := Int.eq_ofNat_of_zero_le h0
  rw [parseInt, toList_toString_nat, signedValue_toDigits, Option.filter_some,
    if_pos (by simpa using h)]

/-- **Any number in the range reads back**, its sign included. -/
theorem parseInt_repr {bits : Nat} {v : Int} (h : Fits bits v) :
    parseInt bits v.repr.toList = some v := by
  by_cases h0 : 0 ≤ v
  · rw [← Int.toString_eq_repr]
    exact parseInt_toString h0 h
  · obtain ⟨n, rfl⟩ := Int.exists_eq_neg_ofNat (not_le.mp h0).le
    have hpos : n ≠ 0 := by
      rintro rfl
      exact h0 (by simp)
    have hneg : (-(n : Int)).repr = "-" ++ n.repr := by
      obtain ⟨m, rfl⟩ := Nat.exists_eq_succ_of_ne_zero hpos
      rfl
    rw [parseInt, hneg, String.toList_append, Nat.toList_repr]
    show ((digitsValue (Nat.toDigits 10 n)).map (-·)).filter (Fits bits) = some (-(n : Int))
    rw [digitsValue_toDigits, Option.map_some, Option.filter_some, if_pos (by simpa using h)]

theorem notMem_toString {c : Char} (hc : c.isDigit = false) {v : Int} (h0 : 0 ≤ v) :
    c ∉ (toString v).toList := by
  obtain ⟨n, rfl⟩ := Int.eq_ofNat_of_zero_le h0
  rw [toList_toString_nat]
  intro hmem
  have hd := Nat.isDigit_of_mem_toDigits (by decide) (by decide) hmem
  rw [hc] at hd
  cases hd

/-! ### Cutting at the last separator -/

/-- What is in front of the last occurrence of a character, and what is after it. -/
def cutLast (sep : Char) (cs : List Char) : Option (List Char × List Char) :=
  (cut sep cs.reverse).map fun p => (p.2.reverse, p.1.reverse)

theorem cutLast_append {sep : Char} {after : List Char} (h : sep ∉ after) (before : List Char) :
    cutLast sep (before ++ sep :: after) = some (before, after) := by
  have hrev : (before ++ sep :: after).reverse = after.reverse ++ sep :: before.reverse := by simp
  rw [cutLast, hrev, cut_append (by simpa using h)]
  simp

end Lib.Strconv
