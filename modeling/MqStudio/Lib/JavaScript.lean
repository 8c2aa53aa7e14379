import MqStudio.Lib.Json.Decode
import MqStudio.Lib.Words

/-!
# Text and whole numbers in JavaScript

What `trim`, `parseInt` and `String` do.  A number is an IEEE 754 double; the
whole ones are kept apart here, as the integers of at most 53 significant bits
below `2 ^ 1024`, with the two infinities beside them.  The negative zero prints
as zero and is not kept apart.

* `round_round`: rounding to a double twice is rounding once.
* `parseInt_text`: a number below `10 ^ 21` reads back from what it prints.
* `text_parseInt_iff`: no other number prints what it read.
-/

namespace Lib.JavaScript

open Lib.Text Lib.Json

/-! ### White space -/

/-- The white space of the frontend's `\s` and `trim`. -/
def isJsSpace (c : Char) : Bool :=
  c == ' ' || (9 ≤ c.toNat && c.toNat ≤ 13) || c.toNat == 0xA0 || c.toNat == 0x1680 ||
    (0x2000 ≤ c.toNat && c.toNat ≤ 0x200A) || c.toNat == 0x2028 || c.toNat == 0x2029 ||
    c.toNat == 0x202F || c.toNat == 0x205F || c.toNat == 0x3000 || c.toNat == 0xFEFF

def jsTrim (s : String) : String := String.ofList (trim isJsSpace s.toList)

/-- The length of a string, in the units of its encoding. -/
def jsLength (s : String) : ℕ := (s.toList.map fun c => if c.toNat < 0x10000 then 1 else 2).sum

@[simp] theorem jsTrim_jsTrim (s : String) : jsTrim (jsTrim s) = jsTrim s := by
  simp [jsTrim]

@[simp] theorem jsTrim_empty : jsTrim "" = "" := rfl

/-! ### Rounding to a double -/

/-- The bits of a natural number beyond the 53 a double keeps. -/
def excess (n : Nat) : Nat := Nat.log2 n + 1 - 53

/-- The nearest multiple of `2 ^ e`, over `2 ^ e`; a tie goes to the even one. -/
def nearest (n e : Nat) : Nat :=
  if 2 ^ e < 2 * (n % 2 ^ e) ∨ (2 * (n % 2 ^ e) = 2 ^ e ∧ n / 2 ^ e % 2 = 1) then n / 2 ^ e + 1
  else n / 2 ^ e

/-- The double nearest to a natural number, where it is finite. -/
def round (n : Nat) : Nat := nearest n (excess n) * 2 ^ excess n

theorem nearest_mul (q e : Nat) : nearest (q * 2 ^ e) e = q := by
  have hpos : 0 < 2 ^ e := Nat.two_pow_pos e
  have hmod : q * 2 ^ e % 2 ^ e = 0 := Nat.mul_mod_left ..
  have hdiv : q * 2 ^ e / 2 ^ e = q := Nat.mul_div_cancel _ hpos
  rw [nearest, hmod, hdiv, if_neg]
  rintro (h | ⟨h, -⟩) <;> omega

theorem nearest_bounds (n e : Nat) : n / 2 ^ e ≤ nearest n e ∧ nearest n e ≤ n / 2 ^ e + 1 := by
  unfold nearest
  split <;> omega

/-- A multiple of `2 ^ e` by at most `2 ^ 53` is a double. -/
theorem round_eq_self {q e : Nat} (hq : q ≤ 2 ^ 53) : round (q * 2 ^ e) = q * 2 ^ e := by
  rcases Nat.eq_zero_or_pos q with rfl | hpos
  · simp [round, nearest]
  by_cases hle : excess (q * 2 ^ e) ≤ e
  · obtain ⟨k, hk⟩ := Nat.exists_eq_add_of_le hle
    have hsplit : q * 2 ^ e = q * 2 ^ k * 2 ^ excess (q * 2 ^ e) := by
      rw [Nat.mul_assoc, ← Nat.pow_add, Nat.add_comm k, ← hk]
    rw [round]
    generalize excess (q * 2 ^ e) = x at hsplit
    rw [hsplit, nearest_mul]
  · -- Only `q = 2 ^ 53` has a bit too many; it is even.
    have hne : q * 2 ^ e ≠ 0 := by positivity
    have hlog : 2 ^ Nat.log2 (q * 2 ^ e) ≤ q * 2 ^ e := Nat.log2_self_le hne
    have hlow : 53 + e ≤ Nat.log2 (q * 2 ^ e) := by
      unfold excess at hle
      omega
    have hge : 2 ^ 53 * 2 ^ e ≤ q * 2 ^ e := by
      rw [← Nat.pow_add]
      exact (Nat.pow_le_pow_right (by decide) hlow).trans hlog
    have hq' : q = 2 ^ 53 :=
      le_antisymm hq (Nat.le_of_mul_le_mul_right hge (Nat.two_pow_pos e))
    have hval : q * 2 ^ e = 2 ^ (53 + e) := by rw [hq', Nat.pow_add]
    have hexcess : excess (q * 2 ^ e) = e + 1 := by
      rw [excess, hval, Nat.log2_two_pow]
      omega
    have hsplit : q * 2 ^ e = 2 ^ 52 * 2 ^ (e + 1) := by
      rw [hval, ← Nat.pow_add]
      congr 1
      omega
    rw [round, hexcess, hsplit, nearest_mul]

theorem nearest_excess_le (n : Nat) : nearest n (excess n) ≤ 2 ^ 53 := by
  have hlt : n < 2 ^ (Nat.log2 n + 1) := Nat.lt_log2_self
  have hdiv : n / 2 ^ excess n < 2 ^ 53 := by
    rw [Nat.div_lt_iff_lt_mul (Nat.two_pow_pos _), ← Nat.pow_add]
    refine hlt.trans_le (Nat.pow_le_pow_right (by decide) ?_)
    unfold excess
    omega
  exact (nearest_bounds n _).2.trans hdiv

/-- **Rounding to a double twice is rounding once.** -/
@[simp] theorem round_round (n : Nat) : round (round n) = round n :=
  round_eq_self (nearest_excess_le n)

/-! ### Whole numbers -/

/-- The bits of the largest finite number. -/
def maxBits : Nat := 1024

/-- The first power of two beyond the finite numbers. -/
@[irreducible] def overflow : Nat := 2 ^ maxBits

theorem lt_overflow {n : Nat} (h : n ≤ 2 ^ 53) : n < overflow := by
  unfold overflow
  exact lt_of_le_of_lt h (Nat.pow_lt_pow_right (by decide) (show 53 < maxBits by decide))

/-- A whole number as JavaScript holds it. -/
inductive Whole where
  | finite (n : Int) (exact : round n.natAbs = n.natAbs) (bounded : n.natAbs < overflow)
  | infinity (negative : Bool)

namespace Whole

/-- The numbers that are printed without an exponent. -/
def Plain : Whole → Prop
  | finite n _ _ => n.natAbs < 10 ^ 21
  | infinity _ => False

instance : DecidablePred Plain
  | finite n _ _ => inferInstanceAs (Decidable (n.natAbs < 10 ^ 21))
  | infinity _ => inferInstanceAs (Decidable False)

def isNegative : Whole → Bool
  | finite n _ _ => n < 0
  | infinity negative => negative

/-- A small natural number, such as a default. -/
def small (n : Nat) (h : n ≤ 2 ^ 53) : Whole :=
  finite n (by simpa using round_eq_self (e := 0) h) (lt_overflow h)

theorem plain_small {n : Nat} (h : n ≤ 2 ^ 53) : (small n h).Plain :=
  lt_of_le_of_lt h (by decide)

end Whole

def withSign (negative : Bool) (n : Nat) : Int := if negative then -n else n

@[simp] theorem natAbs_withSign (negative : Bool) (n : Nat) :
    (withSign negative n).natAbs = n := by
  cases negative <;> simp [withSign]

theorem withSign_natAbs (n : Int) : withSign (n < 0) n.natAbs = n := by
  unfold withSign
  split <;> rename_i h <;> simp only [decide_eq_true_eq] at h <;> omega

/-- The number a sign and a natural number are read as. -/
def ofSigned (negative : Bool) (n : Nat) : Whole :=
  if h : round n < overflow then
    .finite (withSign negative (round n)) (by simp) (by simpa using h)
  else .infinity negative

/-! ### Printing -/

/-- The one of the two multiples of `10 ^ z` around a double that reads back as it, over
`10 ^ z`; the nearer one of two, the even one of two equally near. -/
def pick (n z : Nat) : Option Nat :=
  let low := n / 10 ^ z
  let rest := n % 10 ^ z
  let nearLow := 2 * rest < 10 ^ z || (2 * rest == 10 ^ z && low % 2 == 0)
  (if nearLow then [low, low + 1] else [low + 1, low]).find? fun s => round (s * 10 ^ z) == n

/-- The fewest digits that read back as a double, and the zeros after them. -/
def shortest (n : Nat) : Nat → Nat × Nat
  | 0 => (n, 0)
  | z + 1 =>
    match pick n (z + 1) with
    | some s => (s, z + 1)
    | none => shortest n z

def decimal (n : Nat) : Nat × Nat := shortest n ((Nat.toDigits 10 n).length - 1)

/-- The exponent form of the digits `s` with `z` zeros after them. -/
def exponentForm (s z : Nat) : List Char :=
  let digits := Nat.toDigits 10 s
  let exponent := 'e' :: '+' :: Nat.toDigits 10 (digits.length + z - 1)
  match digits.rdropWhile (· == '0') with
  | [] => exponent
  | [d] => d :: exponent
  | d :: ds => d :: '.' :: (ds ++ exponent)

/-- `String` of a natural number that is a double. -/
def digitsOf (n : Nat) : List Char :=
  if n < 10 ^ 21 then Nat.toDigits 10 ((decimal n).1 * 10 ^ (decimal n).2)
  else exponentForm (decimal n).1 (decimal n).2

def Whole.text : Whole → String
  | .finite n _ _ => String.ofList ((if n < 0 then ['-'] else []) ++ digitsOf n.natAbs)
  | .infinity negative => if negative then "-Infinity" else "Infinity"

theorem round_shortest {n : Nat} (h : round n = n) (z : Nat) :
    round ((shortest n z).1 * 10 ^ (shortest n z).2) = n := by
  induction z with
  | zero => simpa [shortest] using h
  | succ z ih =>
    unfold shortest
    split
    · rename_i s hs
      have hread := List.find?_some hs
      simpa using hread
    · exact ih

/-! ### Reading -/

/-- A sign, and what is left after it. -/
def readSign : List Char → Bool × List Char
  | '-' :: cs => (true, cs)
  | '+' :: cs => (false, cs)
  | cs => (false, cs)

/-- `Number.parseInt(text, 10)`, none for `NaN`. -/
def parseInt (text : String) : Option Whole :=
  let read := readSign (text.toList.dropWhile isJsSpace)
  let digits := read.2.takeWhile Char.isDigit
  if digits = [] then none else some (ofSigned read.1 (Nat.ofDigitChars 10 digits 0))

/-! ### Reading what was printed -/

theorem isJsSpace_of_isDigit {c : Char} (h : c.isDigit) : isJsSpace c = false := by
  simp only [Char.isDigit, Bool.and_eq_true, decide_eq_true_eq] at h
  have h1 : 48 ≤ c.toNat := h.1
  have h2 : c.toNat ≤ 57 := h.2
  have hspace : c ≠ ' ' := by
    rintro rfl
    exact absurd h1 (by decide)
  simp only [isJsSpace, Bool.or_eq_false_iff, beq_eq_false_iff_ne, Bool.and_eq_false_iff,
    decide_eq_false_iff_not]
  refine ⟨⟨⟨⟨⟨⟨⟨⟨⟨⟨hspace, ?_⟩, ?_⟩, ?_⟩, ?_⟩, ?_⟩, ?_⟩, ?_⟩, ?_⟩, ?_⟩, ?_⟩ <;> omega

/-- A character that is neither white space nor a sign. -/
def Lead (c : Char) : Prop := isJsSpace c = false ∧ c ≠ '-' ∧ c ≠ '+'

theorem lead_of_isDigit {c : Char} (h : c.isDigit) : Lead c := by
  refine ⟨isJsSpace_of_isDigit h, ?_, ?_⟩ <;> rintro rfl <;> exact absurd h (by decide)

theorem readSign_of_lead {c : Char} (h : Lead c) (cs : List Char) :
    readSign ((c :: cs).dropWhile isJsSpace) = (false, c :: cs) := by
  rw [List.dropWhile_cons_of_neg (by simp [h.1])]
  unfold readSign
  split
  · rename_i heq
    exact absurd (List.cons.inj heq).1 h.2.1
  · rename_i heq
    exact absurd (List.cons.inj heq).1 h.2.2
  · rfl

/-- The sign of a printed number reads back. -/
theorem readSign_text {n : Int} {c : Char} (hc : Lead c) (cs : List Char) :
    readSign (((if n < 0 then ['-'] else []) ++ c :: cs).dropWhile isJsSpace) =
      (decide (n < 0), c :: cs) := by
  by_cases hn : n < 0
  · simp [hn, readSign, show isJsSpace '-' = false by decide]
  · simp only [hn, if_false, List.nil_append, decide_false]
    exact readSign_of_lead hc cs

theorem digits_toDigits (n : Nat) : ∀ c ∈ Nat.toDigits 10 n, c.isDigit := fun _ hc =>
  Nat.isDigit_of_mem_toDigits (by decide) (by decide) hc

theorem takeWhile_toDigits (n : Nat) :
    (Nat.toDigits 10 n).takeWhile Char.isDigit = Nat.toDigits 10 n :=
  List.takeWhile_eq_self_iff.mpr (digits_toDigits n)

/-- **A number below `10 ^ 21` reads back** from what it prints. -/
theorem parseInt_text {x : Whole} (h : x.Plain) : parseInt x.text = some x := by
  cases x with
  | infinity negative => exact absurd h (by simp [Whole.Plain])
  | finite n exact bounded =>
    have hplain : n.natAbs < 10 ^ 21 := h
    have hround : round ((decimal n.natAbs).1 * 10 ^ (decimal n.natAbs).2) = n.natAbs :=
      round_shortest exact _
    have hdigits : digitsOf n.natAbs =
        Nat.toDigits 10 ((decimal n.natAbs).1 * 10 ^ (decimal n.natAbs).2) := if_pos hplain
    generalize (decimal n.natAbs).1 * 10 ^ (decimal n.natAbs).2 = m at hround hdigits
    have htake := takeWhile_toDigits m
    have hvalue : Nat.ofDigitChars 10 (Nat.toDigits 10 m) 0 = m :=
      Nat.ofDigitChars_ten_toDigits
    have hall := digits_toDigits m
    cases hc : Nat.toDigits 10 m with
    | nil => exact absurd hc Nat.toDigits_ne_nil
    | cons c cs =>
      rw [hc] at htake hvalue hall hdigits
      have hlead : Lead c := lead_of_isDigit (hall c List.mem_cons_self)
      simp only [parseInt, Whole.text, String.toList_ofList, hdigits, readSign_text hlead, htake,
        hvalue, List.cons_ne_nil, if_false]
      simp only [ofSigned, hround, bounded, dif_pos, withSign_natAbs]

/-! ### Numbers with an exponent -/

/-- A plain number is printed in digits, after a sign. -/
theorem Whole.Plain.mem_text {x : Whole} (h : x.Plain) {c : Char} (hc : c ∈ x.text.toList) :
    c = '-' ∨ c.isDigit := by
  cases x with
  | infinity negative => exact absurd h (by simp [Whole.Plain])
  | finite n exact bounded =>
    have hplain : n.natAbs < 10 ^ 21 := h
    simp only [Whole.text, String.toList_ofList, digitsOf, if_pos hplain, List.mem_append] at hc
    rcases hc with hc | hc
    · refine Or.inl ?_
      by_cases hn : n < 0 <;> simp_all
    · exact Or.inr (digits_toDigits _ c hc)

/-- Only the first digit stands before the point or the exponent. -/
theorem exponentForm_spec (s z : Nat) : ∃ c cs, exponentForm s z = c :: cs ∧ Lead c ∧
    ((c :: cs).takeWhile Char.isDigit).length ≤ 1 ∧ 'e' ∈ c :: cs := by
  have he : Char.isDigit 'e' = false := by decide
  have hp : Char.isDigit '.' = false := by decide
  have hlead : ∀ {d : Char} {ds : List Char},
      (Nat.toDigits 10 s).rdropWhile (· == '0') = d :: ds → Lead d := by
    intro d ds h
    have hmem : d ∈ Nat.toDigits 10 s :=
      (List.rdropWhile_prefix _ _).subset (h ▸ List.mem_cons_self)
    exact lead_of_isDigit (digits_toDigits s d hmem)
  unfold exponentForm
  dsimp only
  split
  · exact ⟨_, _, rfl, ⟨by decide, by decide, by decide⟩, by simp [he], by simp⟩
  · rename_i d h
    refine ⟨_, _, rfl, hlead h, ?_, by simp⟩
    cases hd : d.isDigit <;> simp [he, hd]
  · rename_i d ds _ h
    refine ⟨_, _, rfl, hlead h, ?_, by simp⟩
    cases hd : d.isDigit <;> simp [hp, hd]

theorem ofDigitChars_le {ds : List Char} (h : ds.length ≤ 1) (hd : ∀ c ∈ ds, c.isDigit) :
    Nat.ofDigitChars 10 ds 0 ≤ 9 := by
  match ds, h with
  | [], _ => simp
  | [c], _ =>
    have hc := hd c List.mem_cons_self
    simp only [Char.isDigit, Bool.and_eq_true, decide_eq_true_eq] at hc
    have hle : c.toNat ≤ 57 := hc.2
    rw [Nat.ofDigitChars_cons, Nat.ofDigitChars_nil]
    show 10 * 0 + (c.toNat - 48) ≤ 9
    omega

theorem plain_ofSigned {n : Nat} (h : n ≤ 9) (negative : Bool) : (ofSigned negative n).Plain := by
  have hround : round n = n := by
    have := round_eq_self (q := n) (e := 0) (by omega)
    simpa using this
  have hlt : round n < overflow := by
    rw [hround]
    exact lt_overflow (by omega)
  rw [ofSigned, dif_pos hlt]
  change (withSign negative (round n)).natAbs < 10 ^ 21
  rw [natAbs_withSign, hround]
  omega

/-- What a number with an exponent is read as; an infinity is read as none. -/
theorem plain_parseInt_text {x y : Whole} (h : ¬ x.Plain) (hy : parseInt x.text = some y) :
    y.Plain := by
  cases x with
  | infinity negative =>
    have hnone : parseInt (Whole.infinity negative).text = none := by
      cases negative <;> decide
    rw [hnone] at hy
    cases hy
  | finite n exact bounded =>
    have hplain : ¬ n.natAbs < 10 ^ 21 := h
    obtain ⟨c, cs, hform, hlead, htake, -⟩ :=
      exponentForm_spec (decimal n.natAbs).1 (decimal n.natAbs).2
    simp only [parseInt, Whole.text, String.toList_ofList, digitsOf, if_neg hplain, hform,
      readSign_text hlead] at hy
    split at hy
    · cases hy
    · obtain rfl := Option.some.inj hy
      exact plain_ofSigned (ofDigitChars_le htake fun c hc => List.mem_takeWhile_imp hc) _

theorem mem_text_of_not_plain {x : Whole} (h : ¬ x.Plain) :
    'e' ∈ x.text.toList ∨ 'I' ∈ x.text.toList := by
  cases x with
  | infinity negative => cases negative <;> exact Or.inr (by decide)
  | finite n exact bounded =>
    have hplain : ¬ n.natAbs < 10 ^ 21 := h
    refine Or.inl ?_
    obtain ⟨c, cs, hform, -, -, hmem⟩ :=
      exponentForm_spec (decimal n.natAbs).1 (decimal n.natAbs).2
    simp only [Whole.text, String.toList_ofList, digitsOf, if_neg hplain, hform, List.mem_append]
    exact Or.inr hmem

/-- A plain number prints nothing another kind of number prints. -/
theorem Whole.Plain.text_ne {x y : Whole} (hy : y.Plain) (hx : ¬ x.Plain) : y.text ≠ x.text := by
  intro heq
  rcases mem_text_of_not_plain hx with h | h
  · rw [← heq] at h
    rcases hy.mem_text h with h | h <;> exact absurd h (by decide)
  · rw [← heq] at h
    rcases hy.mem_text h with h | h <;> exact absurd h (by decide)

/-- **Exactly the plain numbers print what they read**, whatever stands for `NaN`. -/
theorem text_parseInt_iff {x fallback : Whole} (hf : fallback.Plain) :
    ((parseInt x.text).getD fallback).text = x.text ↔ x.Plain := by
  constructor
  · intro heq
    by_contra hx
    cases hy : parseInt x.text with
    | none =>
      rw [hy] at heq
      exact hf.text_ne hx heq
    | some y =>
      rw [hy] at heq
      exact (plain_parseInt_text hx hy).text_ne hx heq
  · intro hx
    rw [parseInt_text hx]
    rfl

end Lib.JavaScript
