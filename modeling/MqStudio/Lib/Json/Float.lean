import MqStudio.Lib.Float64
import MqStudio.Lib.Json.Decode

/-!
# JSON numbers as `float64`

Go reads every number of an untyped JSON value into a `float64` and writes a `float64` with the
fewest digits that read back, as a plain decimal between `1e-6` and `1e21` and with an exponent
outside.  A `Double` carries the proof that its magnitude is one a `float64` holds.

* `mag_formatFloat`: what is written is the shortest decimal.
* `toDouble_formatFloat`: what is written reads back.
* `isWhole_formatFloat_iff`: a whole number is written whole exactly if it gets no exponent.
-/

namespace Lib.Json

open Lib.Float64

/-! ### The value of a literal -/

/-- The exponent that is written behind its letter. -/
def exponentValue : List Char → ℤ
  | [] => 0
  | c :: cs =>
      if c = '-' then -(Nat.ofDigitChars 10 cs 0 : ℤ)
      else if c = '+' then Nat.ofDigitChars 10 cs 0
      else Nat.ofDigitChars 10 (c :: cs) 0

/-- The digits behind the point, and what follows them. -/
def fractionOf (cs : List Char) : List Char × List Char :=
  if cs.head? = some '.' then (cs.tail.takeWhile Char.isDigit, cs.tail.dropWhile Char.isDigit)
  else ([], cs)

def unsignedValue (cs : List Char) : ℚ :=
  let fraction := fractionOf (cs.dropWhile Char.isDigit)
  Nat.ofDigitChars 10 (cs.takeWhile Char.isDigit ++ fraction.1) 0 *
    10 ^ (exponentValue fraction.2.tail - fraction.1.length)

namespace Number

variable (n : Number)

def neg : Bool := n.lit.head? == some '-'

def mag : ℚ := unsignedValue (if n.neg then n.lit.tail else n.lit)

def value : ℚ := if n.neg then -n.mag else n.mag

/-- The number is an integer, however it is written. -/
def Whole : Prop := ∃ i : ℤ, n.value = i

/-- The number is written as an integer, without a fraction and an exponent. -/
def IsWhole : Prop := (integer n.lit).isSome

end Number

/-- A finite `float64`. -/
@[ext] structure Double where
  neg : Bool
  mag : ℚ
  read_mag : read mag = some mag

def Double.value (d : Double) : ℚ := if d.neg then -d.mag else d.mag

/-- `strconv.ParseFloat(lit, 64)`, none where it is out of range. -/
def Number.toDouble (n : Number) : Option Double :=
  match h : read n.mag with
  | none => none
  | some q => some ⟨n.neg, q, read_read h⟩

theorem Number.toDouble_eq_some {n : Number} {d : Double} :
    n.toDouble = some d ↔ n.neg = d.neg ∧ read n.mag = some d.mag := by
  unfold Number.toDouble
  split
  · rename_i h
    simp [h]
  · rename_i q h
    simp [h, Double.ext_iff]

/-! ### Writing -/

def exponentText : Option ℤ → List Char
  | none => []
  | some e => 'e' :: (if e < 0 then '-' else '+') :: Nat.toDigits 10 e.natAbs

/-- A literal of its whole digits, the digits of its fraction and its exponent. -/
def assemble (whole part : List Char) (exp : Option ℤ) : List Char :=
  whole ++ ((if part.isEmpty then [] else '.' :: part) ++ exponentText exp)

/-- The format `'f'`: the point stands behind the first `point` digits. -/
def plainText (digits : List Char) (point : ℤ) : List Char :=
  if point ≤ 0 then assemble ['0'] (List.replicate (-point).toNat '0' ++ digits) none
  else if point < digits.length then
    assemble (digits.take point.toNat) (digits.drop point.toNat) none
  else assemble (digits ++ List.replicate (point.toNat - digits.length) '0') [] none

/-- The format `'e'`, without the zero that fills up an exponent of one digit. -/
def exponentialText (digits : List Char) (point : ℤ) : List Char :=
  assemble (digits.take 1) (digits.drop 1) (some (point - 1))

/-- Very small and very large magnitudes get an exponent. -/
def UsesExponent (q : ℚ) : Prop := q ≠ 0 ∧ (q < 10 ^ (-6 : ℤ) ∨ 10 ^ 21 ≤ q)

instance : DecidablePred UsesExponent := fun q => by
  unfold UsesExponent
  infer_instance

def magnitudeText (q : ℚ) : List Char :=
  let digits := Nat.toDigits 10 (shortest q).digits
  let point := (shortest q).exp + digits.length
  if UsesExponent q then exponentialText digits point else plainText digits point

/-! ### Literals put together -/

/-- No digit comes first. -/
def Stops (r : List Char) : Prop := ∀ c, r.head? = some c → c.isDigit = false

theorem takeWhile_digits {ds r : List Char} (h : ∀ c ∈ ds, c.isDigit) (hr : Stops r) :
    (ds ++ r).takeWhile Char.isDigit = ds ∧ (ds ++ r).dropWhile Char.isDigit = r := by
  have h0 : r.takeWhile Char.isDigit = [] ∧ r.dropWhile Char.isDigit = r := by
    cases r with
    | nil => simp
    | cons c r => have := hr c rfl; simp [this]
  rw [List.takeWhile_append_of_pos h, List.dropWhile_append_of_pos h, h0.1, h0.2]
  simp

theorem stops_exponentText (exp : Option ℤ) : Stops (exponentText exp) := by
  intro c hc
  cases exp with
  | none => cases hc
  | some e =>
    obtain rfl := Option.some.inj hc
    decide

theorem head?_exponentText (exp : Option ℤ) : (exponentText exp).head? ≠ some '.' := by
  cases exp with
  | none => simp [exponentText]
  | some e => exact fun h => absurd (Option.some.inj h) (by decide)

theorem exponentValue_exponentText (exp : Option ℤ) :
    exponentValue (exponentText exp).tail = exp.getD 0 := by
  cases exp with
  | none => rfl
  | some e =>
    simp only [exponentText, List.tail_cons, exponentValue, Nat.ofDigitChars_ten_toDigits,
      Option.getD_some]
    by_cases he : e < 0
    · rw [if_pos he, if_pos rfl]
      omega
    · rw [if_neg he, if_neg (by decide), if_pos rfl]
      omega

theorem isExponent_exponentText (exp : Option ℤ) : isExponent (exponentText exp) := by
  cases exp with
  | none => rfl
  | some e =>
    have hd := isDigits_toDigits e.natAbs
    by_cases he : e < 0 <;> simp [exponentText, isExponent, he, hd]

/-- Digits that a literal can begin with: no zero comes before another one. -/
structure Leading (w : List Char) : Prop where
  digits : ∀ c ∈ w, c.isDigit
  nonempty : w ≠ []
  zero : w.head? = some '0' → w = ['0']

section Assemble

variable {w part : List Char} {exp : Option ℤ}

theorem stops_fraction (part : List Char) (exp : Option ℤ) :
    Stops ((if part.isEmpty then [] else '.' :: part) ++ exponentText exp) := by
  cases part with
  | nil => exact stops_exponentText exp
  | cons c part =>
    intro d hd
    obtain rfl := Option.some.inj hd
    decide

theorem fractionOf_assemble (hpart : ∀ c ∈ part, c.isDigit) :
    fractionOf ((if part.isEmpty then [] else '.' :: part) ++ exponentText exp) =
      (part, exponentText exp) := by
  cases part with
  | nil => exact if_neg (head?_exponentText exp)
  | cons c part =>
    obtain ⟨htake, hdrop⟩ := takeWhile_digits hpart (stops_exponentText exp)
    simp only [List.isEmpty_cons, Bool.false_eq_true, if_false, List.cons_append, fractionOf,
      List.head?_cons, if_true, List.tail_cons]
    rw [← List.cons_append, htake, hdrop]

/-- **The value of a literal** is that of its digits, moved by its fraction and its exponent. -/
theorem unsignedValue_assemble (hw : ∀ c ∈ w, c.isDigit) (hpart : ∀ c ∈ part, c.isDigit) :
    unsignedValue (assemble w part exp) =
      Nat.ofDigitChars 10 (w ++ part) 0 * 10 ^ (exp.getD 0 - part.length) := by
  obtain ⟨htake, hdrop⟩ := takeWhile_digits hw (stops_fraction part exp)
  rw [unsignedValue, assemble, htake, hdrop, fractionOf_assemble hpart]
  dsimp only
  rw [exponentValue_exponentText]

theorem isFraction_assemble (hpart : ∀ c ∈ part, c.isDigit) (exp : Option ℤ) :
    isFraction ((if part.isEmpty then [] else '.' :: part) ++ exponentText exp) := by
  cases part with
  | nil =>
    have h := isExponent_exponentText exp
    have hpoint := head?_exponentText exp
    cases htext : exponentText exp with
    | nil => rfl
    | cons c cs =>
      rw [htext] at h hpoint
      have hc : (c == '.') = false := by simpa using hpoint
      simpa [isFraction, hc] using h
  | cons c part =>
    obtain ⟨htake, hdrop⟩ := takeWhile_digits hpart (stops_exponentText exp)
    simp only [List.isEmpty_cons, Bool.false_eq_true, if_false, List.cons_append, isFraction]
    rw [← List.cons_append, htake, hdrop, isExponent_exponentText]
    rfl

theorem isUnsigned_assemble (hw : Leading w) (hpart : ∀ c ∈ part, c.isDigit) :
    isUnsigned (assemble w part exp) := by
  have hfraction := isFraction_assemble hpart exp
  obtain ⟨hdigits, hne, hzero⟩ := hw
  cases w with
  | nil => exact absurd rfl hne
  | cons c cs =>
    rw [List.forall_mem_cons] at hdigits
    by_cases hc : c = '0'
    · subst hc
      obtain rfl := (List.cons.inj (hzero rfl)).2
      exact hfraction
    · obtain ⟨-, hdrop⟩ := takeWhile_digits hdigits.2 (stops_fraction part exp)
      rw [assemble, List.cons_append, isUnsigned, if_neg (by simpa using hc), hdrop, hdigits.1,
        hfraction]
      rfl

end Assemble

/-! ### What a magnitude is written as -/

theorem forall_isDigit_toDigits (m : ℕ) : ∀ c ∈ Nat.toDigits 10 m, c.isDigit := by
  have h := isDigits_toDigits m
  simp only [isDigits, Bool.and_eq_true, List.all_eq_true] at h
  exact h.2

theorem forall_isDigit_zero : ∀ c ∈ ['0'], c.isDigit := List.forall_mem_singleton.mpr rfl

theorem isDigit_of_mem_zeros {n : ℕ} {c : Char} (h : c ∈ List.replicate n '0') : c.isDigit := by
  obtain rfl := (List.mem_replicate.mp h).2
  decide

theorem forall_isDigit_append {ds es : List Char} (hd : ∀ c ∈ ds, c.isDigit)
    (he : ∀ c ∈ es, c.isDigit) : ∀ c ∈ ds ++ es, c.isDigit := by
  intro c hc
  rcases List.mem_append.mp hc with hc | hc
  · exact hd c hc
  · exact he c hc

/-- Digits whose first one is no zero. -/
theorem Leading.of_head {w : List Char} (hdigits : ∀ c ∈ w, c.isDigit) (hne : w ≠ [])
    (h : w.head? ≠ some '0') : Leading w := ⟨hdigits, hne, fun h0 => absurd h0 h⟩

section Magnitude

variable {m : ℕ} {k : ℤ}

theorem length_toDigits_pos : 0 < (Nat.toDigits 10 m).length :=
  List.length_pos_iff.mpr Nat.toDigits_ne_nil

theorem leading_take (h : 0 < m) {p : ℕ} (hp : 0 < p) : Leading ((Nat.toDigits 10 m).take p) := by
  have hlength : 0 < (Nat.toDigits 10 m).length := length_toDigits_pos
  refine .of_head (fun c hc => forall_isDigit_toDigits m c (List.mem_of_mem_take hc)) ?_ ?_
  · rw [← List.length_pos_iff, List.length_take]
    omega
  · rw [List.head?_take, if_neg (by omega)]
    exact head?_toDigits h

theorem leading_append_zeros (h : 0 < m) (z : ℕ) :
    Leading (Nat.toDigits 10 m ++ List.replicate z '0') := by
  refine .of_head (forall_isDigit_append (forall_isDigit_toDigits m)
    fun c => isDigit_of_mem_zeros) ?_ ?_
  · exact List.append_ne_nil_of_left_ne_nil Nat.toDigits_ne_nil _
  · rw [List.head?_append_of_ne_nil _ Nat.toDigits_ne_nil]
    exact head?_toDigits h

/-- **The plain format** of a decimal is a literal of its value. -/
theorem plainText_spec (h : 0 < m) :
    isUnsigned (plainText (Nat.toDigits 10 m) (k + (Nat.toDigits 10 m).length)) ∧
      unsignedValue (plainText (Nat.toDigits 10 m) (k + (Nat.toDigits 10 m).length)) =
        m * 10 ^ k := by
  have hlength : 0 < (Nat.toDigits 10 m).length := length_toDigits_pos
  have hdigits := forall_isDigit_toDigits m
  unfold plainText
  split_ifs with hsmall hinside
  · have hpart := forall_isDigit_append (fun c => isDigit_of_mem_zeros (c := c)
      (n := (-(k + (Nat.toDigits 10 m).length)).toNat)) hdigits
    refine ⟨isUnsigned_assemble ⟨forall_isDigit_zero, List.cons_ne_nil _ _, fun _ => rfl⟩ hpart, ?_⟩
    rw [unsignedValue_assemble forall_isDigit_zero hpart, Nat.ofDigitChars_append,
      Nat.ofDigitChars_append, Nat.ofDigitChars_replicate_zero, List.length_append,
      List.length_replicate]
    have hexp : (none : Option ℤ).getD 0 - (((-(k + (Nat.toDigits 10 m).length)).toNat +
        (Nat.toDigits 10 m).length : ℕ) : ℤ) = k := by
      rw [Option.getD_none]
      omega
    have hzero : Nat.ofDigitChars 10 ['0'] 0 = 0 := rfl
    rw [hexp, hzero, Nat.mul_zero, Nat.ofDigitChars_ten_toDigits]
  · have hpart : ∀ c ∈ (Nat.toDigits 10 m).drop (k + (Nat.toDigits 10 m).length).toNat,
        c.isDigit := fun c hc => hdigits c (List.mem_of_mem_drop hc)
    have hlead := leading_take h (p := (k + (Nat.toDigits 10 m).length).toNat) (by omega)
    refine ⟨isUnsigned_assemble hlead hpart, ?_⟩
    rw [unsignedValue_assemble hlead.digits hpart, List.take_append_drop,
      Nat.ofDigitChars_ten_toDigits, List.length_drop]
    have hexp : (none : Option ℤ).getD 0 - (((Nat.toDigits 10 m).length -
        (k + (Nat.toDigits 10 m).length).toNat : ℕ) : ℤ) = k := by
      rw [Option.getD_none]
      omega
    rw [hexp]
  · have hlead := leading_append_zeros h
      ((k + (Nat.toDigits 10 m).length).toNat - (Nat.toDigits 10 m).length)
    refine ⟨isUnsigned_assemble hlead (List.forall_mem_nil _), ?_⟩
    rw [unsignedValue_assemble hlead.digits (List.forall_mem_nil _), List.append_nil,
      Nat.ofDigitChars_append, Nat.ofDigitChars_replicate_zero, Nat.ofDigitChars_ten_toDigits]
    obtain ⟨j, rfl⟩ := Int.eq_ofNat_of_zero_le (show 0 ≤ k by omega)
    have hj : ((j : ℤ) + (Nat.toDigits 10 m).length).toNat - (Nat.toDigits 10 m).length = j := by
      omega
    rw [hj, Option.getD_none, List.length_nil, zpow_natCast]
    push_cast
    ring

/-- **The format with an exponent** of a decimal is a literal of its value. -/
theorem exponentialText_spec (h : 0 < m) :
    isUnsigned (exponentialText (Nat.toDigits 10 m) (k + (Nat.toDigits 10 m).length)) ∧
      unsignedValue (exponentialText (Nat.toDigits 10 m) (k + (Nat.toDigits 10 m).length)) =
        m * 10 ^ k := by
  have hlength : 0 < (Nat.toDigits 10 m).length := length_toDigits_pos
  have hpart : ∀ c ∈ (Nat.toDigits 10 m).drop 1, c.isDigit := fun c hc =>
    forall_isDigit_toDigits m c (List.mem_of_mem_drop hc)
  have hlead := leading_take h one_pos
  refine ⟨isUnsigned_assemble hlead hpart, ?_⟩
  rw [exponentialText, unsignedValue_assemble hlead.digits hpart, List.take_append_drop,
    Nat.ofDigitChars_ten_toDigits, List.length_drop, Option.getD_some]
  have hexp : k + ((Nat.toDigits 10 m).length : ℤ) - 1 - (((Nat.toDigits 10 m).length - 1 : ℕ) : ℤ)
      = k := by omega
  rw [hexp]

/-- A decimal without a fraction is written as its digits. -/
theorem isDigits_plainText (hk : 0 ≤ k) :
    isDigits (plainText (Nat.toDigits 10 m) (k + (Nat.toDigits 10 m).length)) := by
  have hlength : 0 < (Nat.toDigits 10 m).length := length_toDigits_pos
  have hall := forall_isDigit_append (forall_isDigit_toDigits m) (fun c => isDigit_of_mem_zeros
    (c := c) (n := (k + (Nat.toDigits 10 m).length).toNat - (Nat.toDigits 10 m).length))
  rw [plainText, if_neg (by omega), if_neg (by omega)]
  simp only [isDigits, Bool.and_eq_true, List.all_eq_true, assemble, exponentText,
    List.isEmpty_nil, if_true, List.append_nil]
  refine ⟨?_, hall⟩
  rw [Bool.not_eq_true', List.isEmpty_eq_false_iff]
  exact List.append_ne_nil_of_left_ne_nil Nat.toDigits_ne_nil _

theorem not_isDigits_exponentialText {ds : List Char} {point : ℤ} :
    ¬isDigits (exponentialText ds point) := by
  intro h
  simp only [isDigits, Bool.and_eq_true, List.all_eq_true] at h
  have he := h.2 'e' (by simp [exponentialText, assemble, exponentText])
  exact absurd he (by decide)

end Magnitude

section Format

variable {q : ℚ}

/-- **What a magnitude is written as** is a literal of the shortest decimal. -/
theorem magnitudeText_spec (h : read q = some q) : isUnsigned (magnitudeText q) ∧
    unsignedValue (magnitudeText q) = (shortest q).value := by
  by_cases hq : q = 0
  · subst hq
    have htext : magnitudeText 0 = ['0'] := by
      rw [magnitudeText, shortest_zero, if_neg fun h0 => h0.1 rfl]
      decide
    rw [htext, shortest_zero]
    refine ⟨by decide, ?_⟩
    have hvalue : unsignedValue (assemble ['0'] [] none) = _ :=
      unsignedValue_assemble forall_isDigit_zero (List.forall_mem_nil _)
    have hzero : Nat.ofDigitChars 10 (['0'] ++ []) 0 = 0 := rfl
    refine hvalue.trans ?_
    rw [hzero, Decimal.value]
    simp
  · have hpos : 0 < (shortest q).digits :=
      Nat.pos_of_ne_zero (digits_shortest_ne_zero h hq)
    unfold magnitudeText
    dsimp only
    split
    · exact exponentialText_spec hpos
    · exact plainText_spec hpos

theorem isNumber_of_isUnsigned {cs : List Char} (h : isUnsigned cs) :
    isNumber cs ∧ cs.head? ≠ some '-' := by
  cases cs with
  | nil => cases h
  | cons c cs =>
    have hc : c ≠ '-' := by
      rintro rfl
      cases h
    refine ⟨?_, by simpa using hc⟩
    rw [isNumber, if_neg (by simpa using hc)]
    exact h

/-- A `float64` as `encoding/json` writes it. -/
def formatFloat (d : Double) : Number where
  lit := if d.neg then '-' :: magnitudeText d.mag else magnitudeText d.mag
  isNumber := by
    obtain ⟨h, -⟩ := magnitudeText_spec d.read_mag
    split
    · exact h
    · exact (isNumber_of_isUnsigned h).1

end Format

variable (d : Double)

theorem neg_formatFloat : (formatFloat d).neg = d.neg := by
  have hhead := (isNumber_of_isUnsigned (magnitudeText_spec d.read_mag).1).2
  by_cases h : d.neg
  · simp [Number.neg, formatFloat, h]
  · simpa [Number.neg, formatFloat, h] using hhead

theorem unsigned_formatFloat :
    (if (formatFloat d).neg then (formatFloat d).lit.tail else (formatFloat d).lit) =
      magnitudeText d.mag := by
  rw [neg_formatFloat]
  cases h : d.neg <;> simp [formatFloat, h]

/-- **What is written is the shortest decimal.** -/
theorem mag_formatFloat : (formatFloat d).mag = (shortest d.mag).value := by
  rw [Number.mag, unsigned_formatFloat, (magnitudeText_spec d.read_mag).2]

/-- **What is written reads back.** -/
theorem toDouble_formatFloat : (formatFloat d).toDouble = some d := by
  rw [Number.toDouble_eq_some, neg_formatFloat, mag_formatFloat]
  exact ⟨rfl, read_shortest d.read_mag⟩

theorem isWhole_iff (n : Number) :
    n.IsWhole ↔ isDigits (if n.neg then n.lit.tail else n.lit) := by
  obtain ⟨lit, hlit⟩ := n
  unfold Number.IsWhole Number.neg
  cases lit with
  | nil => cases hlit
  | cons c cs =>
    by_cases hc : c = '-'
    · subst hc
      simp only [integer, if_true, List.head?_cons, beq_self_eq_true, List.tail_cons]
      split <;> simp_all
    · simp only [integer, if_neg hc, List.head?_cons, Option.some_beq_some, beq_iff_eq]
      split <;> simp_all

/-- **A whole number is written whole** exactly if it gets no exponent. -/
theorem isWhole_formatFloat_iff (h : ∃ n : ℕ, (formatFloat d).mag = n) :
    (formatFloat d).IsWhole ↔ ¬UsesExponent d.mag := by
  rw [isWhole_iff, unsigned_formatFloat]
  obtain ⟨n, hn⟩ := h
  rw [mag_formatFloat] at hn
  unfold magnitudeText
  dsimp only
  split
  · rename_i huses
    exact iff_of_false not_isDigits_exponentialText (not_not.mpr huses)
  · rename_i hplain
    have hexp : 0 ≤ (shortest d.mag).exp := by
      by_cases hq : d.mag = 0
      · rw [hq, shortest_zero]
      · exact exp_shortest_nonneg d.read_mag hq hn
    exact iff_of_true (isDigits_plainText hexp) hplain

/-! ### Integers and signs -/

namespace Number

variable (n : Number)

theorem mag_nonneg : 0 ≤ n.mag := by
  unfold mag unsignedValue
  positivity

theorem mag_eq_abs : n.mag = |n.value| := by
  unfold value
  split
  · rw [abs_neg, abs_of_nonneg n.mag_nonneg]
  · rw [abs_of_nonneg n.mag_nonneg]

variable {n}

theorem Whole.exists_mag (h : n.Whole) : ∃ m : ℕ, n.mag = m := by
  obtain ⟨i, hi⟩ := h
  exact ⟨i.natAbs, by rw [mag_eq_abs, hi, Nat.cast_natAbs, Int.cast_abs]⟩

end Number

/-- The number an integer is written as. -/
def intNumber (i : ℤ) : Number := ⟨intLit i, isNumber_intLit i⟩

theorem isWhole_intNumber (i : ℤ) : (intNumber i).IsWhole := by
  rw [Number.IsWhole, intNumber, integer_intLit]
  rfl

theorem unsignedValue_toDigits (m : ℕ) : unsignedValue (Nat.toDigits 10 m) = m := by
  have h : unsignedValue (assemble (Nat.toDigits 10 m) [] none) = _ :=
    unsignedValue_assemble (forall_isDigit_toDigits m) (List.forall_mem_nil _)
  simpa [assemble, exponentText] using h

theorem neg_intNumber_natCast (m : ℕ) : (intNumber m).neg = false := by
  have hhead := (isNumber_of_isUnsigned (isUnsigned_toDigits m)).2
  simpa [Number.neg, intNumber, intLit] using hhead

theorem value_intNumber (i : ℤ) : (intNumber i).value = i := by
  cases i with
  | ofNat m =>
    have hneg : (intNumber (Int.ofNat m)).neg = false := neg_intNumber_natCast m
    rw [Number.value, Number.mag, hneg]
    exact unsignedValue_toDigits m
  | negSucc m =>
    have hneg : (intNumber (Int.negSucc m)).neg = true := rfl
    rw [Number.value, Number.mag, hneg, if_pos rfl, if_pos rfl]
    have hvalue := unsignedValue_toDigits (m + 1)
    rw [Int.cast_negSucc, ← hvalue]
    rfl

end Lib.Json
