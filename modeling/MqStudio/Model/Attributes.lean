import MqStudio.Lib.Strconv
import MqStudio.Lib.Words

/-!
# Attributes as texts

The attributes that drivers and pages hand each other are texts: a number in decimal, a flag as
`true` or `false`.  What is read of them, on both sides.

* `number_toString`: a number reads back on the page.
* `said_positive`, `atoi_toString`: a positive number that is put into a specification reads back in
  the driver.
-/

namespace MqStudio.Model.Attributes

open Lib.Strconv Lib.Text

/-! ### On the page -/

/-- A text that says something. -/
def text (value : Option String) : Option String := value.filter (· ≠ "")

/-- `Number` of a text.  The drivers write no other numbers than those of 64 bits; beyond 53 of them
a number of the page is rounded, which no setting comes near. -/
def number (value : Option String) : Option ℤ := (text value).bind fun s => parseInt 64 s.toList

def flag (value : Option String) : Bool := text value == some "true"

/-- A number of the page as the bridge takes it. -/
def goInt (n : ℤ) : Option ℤ := if Fits 64 n then some n else none

/-! ### In the driver -/

def formatBool (b : Bool) : String := if b then "true" else "false"

/-- What is put into a specification for a number: nothing unless it is positive. -/
def positive (n : ℤ) : Option String := if 0 < n then some (toString n) else none

/-- What a specification says under a key, trimmed. -/
def said (value : Option String) : String := trimSpace (value.getD "")

/-- A flag, none where nothing is said. -/
def saidFlag (value : Option String) : Option Bool :=
  if said value = "" then none else some (said value == "true")

/-- `strconv.Atoi`. -/
def atoi (s : String) : Option ℤ := parseInt 64 s.toList

/-! ### What reads back -/

theorem fits_of_fits {n : ℤ} (h : Fits 32 n) : Fits 64 n := by
  obtain ⟨hlow, hhigh⟩ := h
  constructor <;> norm_num at * <;> omega

theorem getD_text (value : Option String) : (text value).getD "" = value.getD "" := by
  cases value with
  | none => rfl
  | some v =>
    rw [text, Option.filter_some]
    by_cases hv : v = "" <;> simp [hv]

theorem toString_ne_empty (n : ℤ) : toString n ≠ "" := by
  intro h
  by_cases hfits : Fits (n.natAbs + 64) n
  · have hback := parseInt_repr hfits
    rw [← Int.toString_eq_repr, h] at hback
    cases hback
  · refine hfits ?_
    have hlt : n.natAbs < 2 ^ (n.natAbs + 64 - 1) :=
      lt_of_lt_of_le n.natAbs.lt_two_pow_self (Nat.pow_le_pow_right (by decide) (by omega))
    have hcast : (n.natAbs : ℤ) < 2 ^ (n.natAbs + 64 - 1) := by exact_mod_cast hlt
    constructor <;> omega

theorem text_toString (n : ℤ) : text (some (toString n)) = some (toString n) := by
  rw [text, Option.filter_some, if_pos (by simpa using toString_ne_empty n)]

/-- **A number reads back on the page.** -/
theorem number_toString {n : ℤ} (h : Fits 64 n) : number (some (toString n)) = some n := by
  rw [number, text_toString, Option.bind_some, Int.toString_eq_repr, parseInt_repr h]

theorem goInt_eq_some {n m : ℤ} (h : goInt n = some m) : n = m ∧ Fits 64 n := by
  unfold goInt at h
  split_ifs at h with hfits
  exact ⟨Option.some.inj h, hfits⟩

theorem flag_formatBool (b : Bool) : flag (some (formatBool b)) = b := by cases b <;> decide

theorem trimSpace_toString {n : ℤ} (h : 0 ≤ n) : trimSpace (toString n) = toString n := by
  obtain ⟨k, rfl⟩ := Int.eq_ofNat_of_zero_le h
  refine trimSpace_eq_self fun c hc => not_isSpace_of_isDigit ?_
  exact Nat.isDigit_of_mem_toDigits (by decide) (by decide) (toList_toString_nat k ▸ hc)

/-- What is put into a specification is not touched by trimming. -/
theorem trimSpace_positive (n : ℤ) :
    ((positive n).map trimSpace).filter (· ≠ "") = positive n := by
  unfold positive
  split_ifs with hn
  · rw [Option.map_some, trimSpace_toString hn.le, Option.filter_some,
      if_pos (by simpa using toString_ne_empty n)]
  · rfl

/-- **A positive number reads back in the driver**, and nothing else is said. -/
theorem said_positive (n : ℤ) : said (positive n) = if 0 < n then toString n else "" := by
  unfold said positive
  split_ifs with hn
  · rw [Option.getD_some, trimSpace_toString hn.le]
  · rfl

theorem said_toString {n : ℤ} (h : 0 ≤ n) : said (some (toString n)) = toString n := by
  rw [said, Option.getD_some, trimSpace_toString h]

theorem saidFlag_formatBool (b : Bool) : saidFlag (some (formatBool b)) = some b := by
  cases b <;> decide

theorem atoi_toString {n : ℤ} (h : Fits 64 n) : atoi (toString n) = some n := by
  rw [atoi, Int.toString_eq_repr, parseInt_repr h]

end MqStudio.Model.Attributes
