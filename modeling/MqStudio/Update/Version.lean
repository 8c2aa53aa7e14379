import MqStudio.Lib.Json.Decode
import MqStudio.Lib.Words

/-!
# Stable versions

`parseStableVersion` and `CompareStable` of `internal/update/update.go`.  The
pattern is read from left to right: its groups are decided by their first
character, so no choice of the match is ever taken back.

* `parseStableVersion_format`: **a normalized version parses to its own parts.**
* `compareStable_normalized`: normalizing does not change a comparison.
-/

namespace MqStudio.Update

open Lib

/-! ### The pattern -/

/-- `0|[1-9]\d*` -/
def versionNumber : List Char → Option (List Char × List Char)
  | [] => none
  | c :: cs =>
      if c = '0' then some (['0'], cs)
      else if c.isDigit then some (c :: cs.takeWhile Char.isDigit, cs.dropWhile Char.isDigit)
      else none

/-- `\.` -/
def versionDot : List Char → Option (List Char)
  | '.' :: cs => some cs
  | _ => none

def isBuildChar (c : Char) : Bool := c.isDigit || c.isUpper || c.isLower || c == '-'

/-- `(?:\+[0-9A-Za-z-]+(?:\.[0-9A-Za-z-]+)*)?$` -/
def isBuild : List Char → Bool
  | [] => true
  | '+' :: cs => (cs.splitOn '.').all fun identifier =>
      !identifier.isEmpty && identifier.all isBuildChar
  | _ => false

/-- `v?` -/
def dropV : List Char → List Char
  | 'v' :: cs => cs
  | cs => cs

/-- The three groups of a match. -/
def stableSemVer (cs : List Char) : Option (List Char × List Char × List Char) := do
  let (major, cs) ← versionNumber (dropV cs)
  let cs ← versionDot cs
  let (minor, cs) ← versionNumber cs
  let cs ← versionDot cs
  let (patch, cs) ← versionNumber cs
  if isBuild cs then some (major, minor, patch) else none

/-- `strconv.ParseUint(text, 10, 64)` of a text of digits. -/
def parseUint (digits : List Char) : Option UInt64 :=
  let n := Nat.ofDigitChars 10 digits 0
  if n < 2 ^ 64 then some (UInt64.ofNat n) else none

/-! ### Versions -/

abbrev VersionParts := UInt64 × UInt64 × UInt64

/-- `%d.%d.%d` -/
def formatVersion (parts : VersionParts) : String :=
  String.ofList (Nat.toDigits 10 parts.1.toNat ++ '.' :: (Nat.toDigits 10 parts.2.1.toNat ++
    '.' :: Nat.toDigits 10 parts.2.2.toNat))

/-- A parsed version, with its normal form. -/
structure StableVersion where
  parts : VersionParts
  normalized : String
  formatted : normalized = formatVersion parts

def parseStableVersion (value : String) : Option StableVersion := do
  let (major, minor, patch) ← stableSemVer (Text.trimSpace value).toList
  let major ← parseUint major
  let minor ← parseUint minor
  let patch ← parseUint patch
  some ⟨(major, minor, patch), formatVersion (major, minor, patch), rfl⟩

/-- The first parts that differ decide. -/
def compareParts (left right : VersionParts) : Int :=
  if left.1 < right.1 then -1
  else if left.1 > right.1 then 1
  else if left.2.1 < right.2.1 then -1
  else if left.2.1 > right.2.1 then 1
  else if left.2.2 < right.2.2 then -1
  else if left.2.2 > right.2.2 then 1
  else 0

/-- Order two stable versions; nothing where one of them does not parse. -/
def compareStable (left right : String) : Option Int := do
  let leftVersion ← parseStableVersion left
  let rightVersion ← parseStableVersion right
  some (compareParts leftVersion.parts rightVersion.parts)

/-- A build with no release to compare against. -/
def isDevelopmentBuild (version : String) : Bool := (parseStableVersion version).isNone

/-- The running version is older. -/
def Newer (running version : String) : Prop := ∃ c, compareStable running version = some c ∧ c < 0

instance (running version : String) : Decidable (Newer running version) :=
  match h : compareStable running version with
  | some c =>
      if hc : c < 0 then isTrue ⟨c, h, hc⟩
      else isFalse fun ⟨d, hd, hlt⟩ => hc (Option.some.inj (h.symm.trans hd) ▸ hlt)
  | none => isFalse fun ⟨d, hd, _⟩ => by rw [h] at hd; cases hd

/-! ### Normal forms parse -/

theorem versionNumber_toDigits (n : Nat) {r : List Char} (hr : ∀ c, r.head? = some c → ¬ c.isDigit) :
    versionNumber (Nat.toDigits 10 n ++ r) = some (Nat.toDigits 10 n, r) := by
  have hdrop : r.dropWhile Char.isDigit = r := by
    cases r with
    | nil => rfl
    | cons c r => exact List.dropWhile_cons_of_neg (hr c rfl)
  have htake : r.takeWhile Char.isDigit = [] := by
    cases r with
    | nil => rfl
    | cons c r => exact List.takeWhile_cons_of_neg (hr c rfl)
  rcases Nat.eq_zero_or_pos n with rfl | hn
  · rfl
  have hd := Json.isDigits_toDigits n
  have hh := Json.head?_toDigits hn
  cases hc : Nat.toDigits 10 n with
  | nil => exact absurd hc Nat.toDigits_ne_nil
  | cons c cs =>
    rw [hc] at hd hh
    simp only [Json.isDigits, List.all_cons, Bool.and_eq_true] at hd
    have h0 : c ≠ '0' := by
      rintro rfl
      exact hh rfl
    have hall : ∀ a ∈ cs, Char.isDigit a = true := List.all_eq_true.mp hd.2.2
    rw [List.cons_append, versionNumber, if_neg h0, if_pos hd.2.1,
      List.takeWhile_append_of_pos hall, List.dropWhile_append_of_pos hall, hdrop, htake,
      List.append_nil]

theorem parseUint_toDigits (p : UInt64) : parseUint (Nat.toDigits 10 p.toNat) = some p := by
  have h : Nat.ofDigitChars 10 (Nat.toDigits 10 p.toNat) 0 = p.toNat := Nat.ofDigitChars_ten_toDigits
  rw [parseUint, h, if_pos p.toNat_lt]
  simp

/-- Digits and dots are no white space. -/
theorem trimSpace_formatVersion (parts : VersionParts) :
    Text.trimSpace (formatVersion parts) = formatVersion parts := by
  have hall : ∀ c ∈ (formatVersion parts).toList, Text.isSpace c = false := by
    intro c hc
    simp only [formatVersion, String.toList_ofList, List.mem_append, List.mem_cons] at hc
    have hdigit : ∀ n : Nat, c ∈ Nat.toDigits 10 n → Text.isSpace c = false := fun n h =>
      Text.not_isSpace_of_isDigit (Nat.isDigit_of_mem_toDigits (by decide) (by decide) h)
    rcases hc with h | rfl | h | rfl | h
    · exact hdigit _ h
    · decide
    · exact hdigit _ h
    · decide
    · exact hdigit _ h
  exact Text.trimSpace_eq_self hall

/-- **A normalized version parses to its own parts.** -/
theorem parseStableVersion_format (parts : VersionParts) :
    parseStableVersion (formatVersion parts) = some ⟨parts, formatVersion parts, rfl⟩ := by
  obtain ⟨major, minor, patch⟩ := parts
  have hdot : ∀ (r : List Char) c, ('.' :: r).head? = some c → ¬ c.isDigit := by
    rintro r c h
    obtain rfl := Option.some.inj h
    decide
  have hv : dropV (Nat.toDigits 10 major.toNat ++ '.' :: (Nat.toDigits 10 minor.toNat ++
      '.' :: Nat.toDigits 10 patch.toNat)) = Nat.toDigits 10 major.toNat ++
      '.' :: (Nat.toDigits 10 minor.toNat ++ '.' :: Nat.toDigits 10 patch.toNat) := by
    have hd := Json.isDigits_toDigits major.toNat
    cases hc : Nat.toDigits 10 major.toNat with
    | nil => exact absurd hc Nat.toDigits_ne_nil
    | cons c cs =>
      rw [hc] at hd
      simp only [Json.isDigits, List.all_cons, Bool.and_eq_true] at hd
      have hne : c ≠ 'v' := by
        rintro rfl
        exact absurd hd.2.1 (by decide)
      simp only [List.cons_append]
      unfold dropV
      split
      · rename_i h
        exact absurd (List.cons.inj h).1 hne
      · rfl
  have hpatch : versionNumber (Nat.toDigits 10 patch.toNat) =
      some (Nat.toDigits 10 patch.toNat, []) := by
    simpa using versionNumber_toDigits patch.toNat (r := []) (by simp)
  have hmatch : stableSemVer (formatVersion (major, minor, patch)).toList =
      some (Nat.toDigits 10 major.toNat, Nat.toDigits 10 minor.toNat,
        Nat.toDigits 10 patch.toNat) := by
    simp only [stableSemVer, formatVersion, String.toList_ofList, hv, Option.bind_eq_bind,
      versionNumber_toDigits _ (hdot _), Option.bind_some, versionDot, hpatch, isBuild, if_true]
  simp only [parseStableVersion, trimSpace_formatVersion, hmatch, Option.bind_eq_bind,
    Option.bind_some, parseUint_toDigits]

theorem parseStableVersion_normalized (v : StableVersion) :
    parseStableVersion v.normalized = some v := by
  obtain ⟨parts, _, rfl⟩ := v
  exact parseStableVersion_format parts

/-- **Normalizing the left side does not change a comparison.** -/
theorem compareStable_normalized {left : String} {l : StableVersion}
    (hl : parseStableVersion left = some l) (right : String) :
    compareStable l.normalized right = compareStable left right := by
  simp only [compareStable, parseStableVersion_normalized, hl]

end MqStudio.Update
