import MqStudio.Lib.Float64
import MqStudio.Lib.Strconv
import MqStudio.Lib.Words

/-!
# Timespans of Service Bus

`azureservicebus/duration.go`: every timespan of an entity is a text of ISO-8601, which is read as
whole seconds and written as seconds.

* `isoSeconds`, `isoDuration`: the two directions.
* `isoExact`: how long a text says a timespan is, fractions and all.
* `fits_isoSeconds`: the seconds that are read are a number of 64 bits.
* `isoExact_isoDuration`: what is written says as many seconds as it was given.
-/

namespace MqStudio.Azureservicebus

open Lib.Text

/-! ### Reading -/

/-- How the numbers of a text are read and added up. -/
structure Arithmetic where
  read : ℚ → Option ℚ
  round : ℚ → ℚ

/-- Numbers of 64 bits, rounded after each operation. -/
def Arithmetic.float64 : Arithmetic := ⟨Lib.Float64.read, Lib.Float64.nearest⟩

def Arithmetic.exact : Arithmetic := ⟨some, id⟩

/-- A number of digits with at most one point among them. -/
def decimal (digits : List Char) : Option ℚ :=
  match cut '.' digits with
  | none => some (Nat.ofDigitChars 10 digits 0)
  | some (whole, fraction) =>
    if '.' ∈ fraction ∨ whole ++ fraction = [] then none
    else some (Nat.ofDigitChars 10 (whole ++ fraction) 0 / 10 ^ fraction.length)

/-- Goes through a section; what is left of its digits has no unit. -/
def consume (m : Arithmetic) (units : List (Char × ℚ)) :
    List Char → ℚ → List Char → Option ℚ
  | digits, total, [] => if digits = [] then some total else none
  | digits, total, character :: rest =>
    if character.isDigit || character = '.' then
      consume m units (digits ++ [character]) total rest
    else
      match units.lookup character with
      | none => none
      | some scale =>
        if digits = [] then none
        else
          match (decimal digits).bind m.read with
          | none => none
          | some amount => consume m units [] (m.round (total + m.round (amount * scale))) rest

def dateUnits : List (Char × ℚ) := [('D', 86400), ('W', 604800)]
def timeUnits : List (Char × ℚ) := [('H', 3600), ('M', 60), ('S', 1)]

/-- The sign of a text and the sum of its numbers. -/
def isoTotal (m : Arithmetic) (value : String) : Option (Bool × ℚ) :=
  let text := (trimSpace (toUpper value)).toList
  let negative := ['-'].isPrefixOf text
  let text := if negative then text.drop 1 else text
  match text with
  | 'P' :: text =>
    let (date, timePart) := (cut 'T' text).getD (text, [])
    match consume m dateUnits [] 0 date with
    | none => none
    | some total => (consume m timeUnits [] total timePart).map fun total => (negative, total)
  | _ => none

/-- `int64(total)`; what it gives where 64 bits do not hold the number is up to the machine. -/
def int64 (beyond : ℚ → ℤ) (total : ℚ) : ℤ :=
  if total < 2 ^ 63 then ⌊total⌋ else Int.bmod (beyond total) (2 ^ 64)

/-- Reads a timespan as whole seconds. -/
def isoSeconds (beyond : ℚ → ℤ) (value : String) : Option ℤ :=
  (isoTotal .float64 value).map fun (negative, total) =>
    let seconds := int64 beyond total
    if negative then Int.bmod (-seconds) (2 ^ 64) else seconds

/-- How long a text says a timespan is. -/
def isoExact (value : String) : Option ℚ :=
  (isoTotal .exact value).map fun (negative, total) => if negative then -total else total

/-- Writes whole seconds. -/
def isoDuration (seconds : ℤ) : String := "PT" ++ toString seconds ++ "S"

/-! ### What is read fits -/

theorem consume_nonneg {units : List (Char × ℚ)} {rest digits : List Char} {total r : ℚ}
    (h0 : 0 ≤ total) (h : consume .float64 units digits total rest = some r) : 0 ≤ r := by
  induction rest generalizing digits total with
  | nil =>
    rw [consume] at h
    split at h
    · exact Option.some.inj h ▸ h0
    · cases h
  | cons c rest ih =>
    rw [consume] at h
    split at h
    · exact ih h0 h
    · split at h
      · cases h
      · split at h
        · cases h
        · split at h
          · cases h
          · exact ih (Lib.Float64.nearest_nonneg _) h

theorem isoTotal_nonneg {value : String} {negative : Bool} {total : ℚ}
    (h : isoTotal .float64 value = some (negative, total)) : 0 ≤ total := by
  unfold isoTotal at h
  dsimp only at h
  split at h
  · split at h
    · cases h
    · rename_i date hdate
      obtain ⟨t, htime, heq⟩ := Option.map_eq_some_iff.mp h
      rw [← (Prod.mk.inj heq).2]
      exact consume_nonneg (consume_nonneg le_rfl hdate) htime
  · cases h

theorem fits_bmod (n : ℤ) : Lib.Strconv.Fits 64 (Int.bmod n (2 ^ 64)) := by
  have hlow := Int.le_bmod (x := n) (m := 2 ^ 64) (by norm_num)
  have hhigh := Int.bmod_lt (x := n) (m := 2 ^ 64) (by norm_num)
  constructor <;> norm_num at * <;> omega

theorem fits_int64 (beyond : ℚ → ℤ) {total : ℚ} (h0 : 0 ≤ total) :
    Lib.Strconv.Fits 64 (int64 beyond total) := by
  unfold int64
  split_ifs with hlt
  · have hfloor : ⌊total⌋ < 2 ^ 63 := by
      rw [Int.floor_lt]
      exact_mod_cast hlt
    have hnonneg := Int.floor_nonneg.mpr h0
    constructor <;> norm_num at * <;> omega
  · exact fits_bmod _

/-- **The seconds that are read are a number of 64 bits.** -/
theorem fits_isoSeconds {beyond : ℚ → ℤ} {value : String} {n : ℤ}
    (h : isoSeconds beyond value = some n) : Lib.Strconv.Fits 64 n := by
  obtain ⟨⟨negative, total⟩, htotal, rfl⟩ := Option.map_eq_some_iff.mp h
  dsimp only
  split_ifs
  · exact fits_bmod _
  · exact fits_int64 beyond (isoTotal_nonneg htotal)

/-! ### What is written says as many seconds -/

theorem decimal_digits {digits : List Char} (h : ∀ c ∈ digits, c.isDigit) :
    decimal digits = some (Nat.ofDigitChars 10 digits 0 : ℚ) := by
  have hcut : cut '.' digits = none := cut_eq_none fun hmem => absurd (h '.' hmem) (by decide)
  rw [decimal, hcut]

theorem consume_digits (m : Arithmetic) (units : List (Char × ℚ)) {more : List Char}
    (h : ∀ c ∈ more, c.isDigit) (digits : List Char) (total : ℚ) (rest : List Char) :
    consume m units digits total (more ++ rest) = consume m units (digits ++ more) total rest := by
  induction more generalizing digits with
  | nil => rw [List.nil_append, List.append_nil]
  | cons c more ih =>
    have hc : (c.isDigit || c = '.') = true := by rw [h c List.mem_cons_self, Bool.true_or]
    rw [List.cons_append, consume, if_pos hc, ih fun c hc => h c (List.mem_cons_of_mem _ hc),
      List.append_assoc, List.singleton_append]

theorem upperRune_digit {c : Char} (h : c.isDigit) : upperRune c = c := by
  have hc := toNat_of_isAlphanum (c := c) (by rw [Char.isAlphanum, h, Bool.or_true])
  have hlower : ¬c.isLower := by
    simp only [Char.isDigit, Bool.and_eq_true, decide_eq_true_eq] at h
    simp only [Char.isLower, Bool.and_eq_true, decide_eq_true_eq, not_and]
    exact fun hle => absurd (UInt32.le_trans hle h.2) (by decide)
  rw [upperRune, if_neg (by omega), if_neg (by omega), Char.toUpper_eq_of_not_isLower hlower]

/-- **What is written says as many seconds as it was given.** -/
theorem isoExact_isoDuration {n : ℤ} (h : 0 ≤ n) : isoExact (isoDuration n) = some (n : ℚ) := by
  obtain ⟨k, rfl⟩ := Int.eq_ofNat_of_zero_le h
  have hdigits : ∀ c ∈ Nat.toDigits 10 k, c.isDigit := fun _ hc =>
    Nat.isDigit_of_mem_toDigits (by decide) (by decide) hc
  have hlist : (isoDuration k).toList = 'P' :: 'T' :: (Nat.toDigits 10 k ++ ['S']) := by
    rw [isoDuration, String.toList_append, String.toList_append, Lib.Strconv.toList_toString_nat]
    rfl
  have hupper : toUpper (isoDuration k) = isoDuration k := by
    refine String.toList_inj.mp ?_
    rw [toUpper, String.toList_ofList, hlist, List.map_cons, List.map_cons, List.map_append,
      List.map_congr_left fun c hc => upperRune_digit (hdigits c hc), List.map_id']
    rfl
  have htrim : trimSpace (isoDuration k) = isoDuration k := by
    refine trimSpace_eq_self fun c hc => ?_
    rw [hlist] at hc
    simp only [List.mem_cons, List.mem_append, List.not_mem_nil, or_false] at hc
    rcases hc with rfl | rfl | hc | rfl
    · decide
    · decide
    · exact not_isSpace_of_isDigit (hdigits c hc)
    · decide
  have htime : consume .exact timeUnits [] 0 (Nat.toDigits 10 k ++ ['S']) = some (k : ℚ) := by
    have hne : Nat.toDigits 10 k ≠ [] := Nat.toDigits_ne_nil
    rw [consume_digits .exact timeUnits hdigits, List.nil_append, consume,
      if_neg (by decide : ¬('S'.isDigit || 'S' = '.') = true)]
    simp only [timeUnits, List.lookup, show ('S' == 'H') = false by decide,
      show ('S' == 'M') = false by decide, show ('S' == 'S') = true by decide, if_neg hne,
      decimal_digits hdigits, Nat.ofDigitChars_ten_toDigits, Option.bind_some, Arithmetic.exact,
      consume, id_eq, if_true, mul_one, zero_add]
  have hcut : cut 'T' ('T' :: (Nat.toDigits 10 k ++ ['S'])) =
      some ([], Nat.toDigits 10 k ++ ['S']) := rfl
  have hsign : ['-'].isPrefixOf ('P' :: 'T' :: (Nat.toDigits 10 k ++ ['S'])) = false := rfl
  rw [isoExact, isoTotal, hupper, htrim, hlist]
  simp only [hsign, Bool.false_eq_true, if_false, hcut, Option.getD_some, consume, if_true, htime,
    Option.map_some]
  rfl

end MqStudio.Azureservicebus
