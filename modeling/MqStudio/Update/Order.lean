import MqStudio.Update.Version

/-!
# The grammar and the order of stable versions

What `parseStableVersion` accepts, and the order that `CompareStable` puts it in.

* `Stable`: the texts of stable versions, with their three numbers.
* `exists_parseStableVersion_iff`: exactly these are accepted.
* `compareParts_eq`: versions are compared by their numbers, the first that differ deciding.
* `stable_version_order`: the order is a total preorder that normalizing does not change.
-/

namespace MqStudio.Update

open Lib

/-! ### The grammar -/

/-- Digits without leading zeros. -/
structure Decimal (digits : List Char) : Prop where
  nonempty : digits ≠ []
  digit : ∀ c ∈ digits, c.isDigit = true
  unpadded : digits.head? = some '0' → digits = ['0']

/-- A decimal number without leading zeros that fits 64 bits. -/
structure Numeral (digits : List Char) (n : ℕ) : Prop extends Decimal digits where
  value : Nat.ofDigitChars 10 digits 0 = n
  fits : n < 2 ^ 64

/-- Nothing, or parts of letters, digits and hyphens behind a plus sign. -/
inductive BuildSuffix : List Char → Prop
  | absent : BuildSuffix []
  | parts {ws : List (List Char)} (hne : ws ≠ [])
    (h : ∀ w ∈ ws, w ≠ [] ∧ ∀ c ∈ w, isBuildChar c = true) :
    BuildSuffix ('+' :: ['.'].intercalate ws)

/-- The texts of stable versions: `v` or not, three numbers and a build suffix. -/
inductive Stable : List Char → ℕ × ℕ × ℕ → Prop
  | mk {v major minor patch build : List Char} {a b c : ℕ} (hv : v = [] ∨ v = ['v'])
    (hmajor : Numeral major a) (hminor : Numeral minor b) (hpatch : Numeral patch c)
    (hbuild : BuildSuffix build) :
    Stable (v ++ (major ++ '.' :: (minor ++ '.' :: (patch ++ build)))) (a, b, c)

/-- The three numbers of a version. -/
def numbersOf (parts : VersionParts) : ℕ × ℕ × ℕ :=
  (parts.1.toNat, parts.2.1.toNat, parts.2.2.toNat)

/-! ### Reading a number -/

/-- What `versionNumber` reads, and what it leaves. -/
theorem versionNumber_spec {cs digits rest : List Char}
    (h : versionNumber cs = some (digits, rest)) : cs = digits ++ rest ∧ Decimal digits := by
  cases cs with
  | nil => cases h
  | cons c cs =>
    rw [versionNumber] at h
    split at h
    · rename_i hzero
      obtain ⟨rfl, rfl⟩ := Prod.mk.inj (Option.some.inj h)
      rw [hzero]
      exact ⟨rfl, List.cons_ne_nil _ _, List.forall_mem_singleton.mpr rfl, fun _ => rfl⟩
    · rename_i hzero
      split at h
      · rename_i hdigit
        obtain ⟨rfl, rfl⟩ := Prod.mk.inj (Option.some.inj h)
        rw [List.cons_append, List.takeWhile_append_dropWhile]
        refine ⟨rfl, List.cons_ne_nil _ _, ?_, fun hhead => absurd (Option.some.inj hhead) hzero⟩
        exact List.forall_mem_cons.mpr ⟨hdigit, fun d hd => List.mem_takeWhile_imp hd⟩
      · cases h

/-- A number is read up to what is not a digit. -/
theorem versionNumber_append {digits : List Char} (h : Decimal digits) {rest : List Char}
    (hrest : ∀ c, rest.head? = some c → ¬ c.isDigit) :
    versionNumber (digits ++ rest) = some (digits, rest) := by
  obtain ⟨c, cs, rfl⟩ := List.exists_cons_of_ne_nil h.nonempty
  rw [List.cons_append, versionNumber]
  by_cases hzero : c = '0'
  · subst hzero
    obtain rfl := (List.cons.inj (h.unpadded rfl)).2
    rw [if_pos rfl, List.nil_append]
  · have hdrop : rest.dropWhile Char.isDigit = rest := by
      cases rest with
      | nil => rfl
      | cons d ds => exact List.dropWhile_cons_of_neg (hrest d rfl)
    have htake : rest.takeWhile Char.isDigit = [] := by
      cases rest with
      | nil => rfl
      | cons d ds => exact List.takeWhile_cons_of_neg (hrest d rfl)
    have hall : ∀ d ∈ cs, d.isDigit = true := fun d hd => h.digit d (List.mem_cons_of_mem _ hd)
    rw [if_neg hzero, if_pos (h.digit c List.mem_cons_self), List.takeWhile_append_of_pos hall,
      List.dropWhile_append_of_pos hall, hdrop, htake, List.append_nil]

theorem parseUint_eq_some_iff {digits : List Char} {n : UInt64} :
    parseUint digits = some n ↔ Nat.ofDigitChars 10 digits 0 = n.toNat := by
  rw [parseUint]
  by_cases hfits : Nat.ofDigitChars 10 digits 0 < 2 ^ 64
  · rw [if_pos hfits, Option.some.injEq, ← UInt64.toNat_inj, UInt64.toNat_ofNat_of_lt' hfits]
  · rw [if_neg hfits]
    refine ⟨fun h => (by cases h), fun h => absurd ?_ hfits⟩
    rw [h]
    exact n.toNat_lt

/-! ### The build suffix -/

theorem isBuild_iff (cs : List Char) : isBuild cs = true ↔ BuildSuffix cs := by
  constructor
  · intro h
    unfold isBuild at h
    split at h
    · exact .absent
    · rename_i cs
      have hparts : BuildSuffix ('+' :: ['.'].intercalate (cs.splitOn '.')) := by
        refine .parts (List.splitOn_ne_nil _ _) fun w hw => ?_
        have hword := List.all_eq_true.mp h w hw
        rw [Bool.and_eq_true, Bool.not_eq_true', List.isEmpty_eq_false_iff] at hword
        exact ⟨hword.1, List.all_eq_true.mp hword.2⟩
      rwa [List.intercalate_splitOn] at hparts
    · cases h
  · rintro (_ | ⟨hne, h⟩)
    · rfl
    · rename_i ws
      have hdot : ∀ w ∈ ws, '.' ∉ w := fun w hw hmem =>
        absurd ((h w hw).2 '.' hmem) (by decide)
      rw [isBuild, List.splitOn_intercalate '.' hdot hne]
      refine List.all_eq_true.mpr fun w hw => ?_
      rw [Bool.and_eq_true, Bool.not_eq_true', List.isEmpty_eq_false_iff]
      exact ⟨(h w hw).1, List.all_eq_true.mpr (h w hw).2⟩

/-- A build suffix does not begin with a digit. -/
theorem BuildSuffix.head {cs : List Char} (h : BuildSuffix cs) :
    ∀ c, cs.head? = some c → ¬ c.isDigit := by
  intro c hc
  cases h with
  | absent => cases hc
  | parts =>
    obtain rfl := Option.some.inj hc
    decide

/-! ### Reading a version -/

theorem versionDot_eq_some_iff {cs rest : List Char} :
    versionDot cs = some rest ↔ cs = '.' :: rest := by
  unfold versionDot
  split
  · simp [eq_comm]
  · rename_i hdot
    exact ⟨fun h => (by cases h), fun h => absurd h (hdot rest)⟩

/-- An optional `v` is dropped. -/
theorem exists_dropV (cs : List Char) : ∃ v, (v = [] ∨ v = ['v']) ∧ cs = v ++ dropV cs := by
  unfold dropV
  split
  · exact ⟨['v'], .inr rfl, rfl⟩
  · exact ⟨[], .inl rfl, rfl⟩

theorem dropV_append {v cs : List Char} (hv : v = [] ∨ v = ['v']) (hcs : cs.head? ≠ some 'v') :
    dropV (v ++ cs) = cs := by
  rcases hv with rfl | rfl
  · rw [List.nil_append]
    unfold dropV
    split
    · exact absurd rfl hcs
    · rfl
  · rfl

/-- The groups of a match are three decimal numbers. -/
theorem stableSemVer_spec {cs major minor patch : List Char}
    (h : stableSemVer cs = some (major, minor, patch)) :
    Decimal major ∧ Decimal minor ∧ Decimal patch ∧ ∃ v build, (v = [] ∨ v = ['v']) ∧
      BuildSuffix build ∧
      cs = v ++ (major ++ '.' :: (minor ++ '.' :: (patch ++ build))) := by
  obtain ⟨v, hv, hcs⟩ := exists_dropV cs
  simp only [stableSemVer, Option.bind_eq_bind, Option.bind_eq_some_iff, Prod.exists,
    versionDot_eq_some_iff] at h
  obtain ⟨major', r, hreadMajor, _, rfl, minor', r', hreadMinor, _, rfl, patch', build, hreadPatch,
    hif⟩ := h
  split at hif
  · rename_i hbuild
    obtain ⟨rfl, htail⟩ := Prod.mk.inj (Option.some.inj hif)
    obtain ⟨rfl, rfl⟩ := Prod.mk.inj htail
    obtain ⟨hdrop, hmajor⟩ := versionNumber_spec hreadMajor
    obtain ⟨rfl, hminor⟩ := versionNumber_spec hreadMinor
    obtain ⟨rfl, hpatch⟩ := versionNumber_spec hreadPatch
    exact ⟨hmajor, hminor, hpatch, v, build, hv, (isBuild_iff build).mp hbuild, hdrop ▸ hcs⟩
  · cases hif

theorem stableSemVer_append {v major minor patch build : List Char} (hv : v = [] ∨ v = ['v'])
    (hmajor : Decimal major) (hminor : Decimal minor) (hpatch : Decimal patch)
    (hbuild : BuildSuffix build) :
    stableSemVer (v ++ (major ++ '.' :: (minor ++ '.' :: (patch ++ build)))) =
      some (major, minor, patch) := by
  have hdot : ∀ (cs : List Char) c, ('.' :: cs).head? = some c → ¬ c.isDigit := by
    intro cs c hc
    obtain rfl := Option.some.inj hc
    decide
  have hfirst : (major ++ '.' :: (minor ++ '.' :: (patch ++ build))).head? ≠ some 'v' := by
    obtain ⟨c, cs, rfl⟩ := List.exists_cons_of_ne_nil hmajor.nonempty
    intro hhead
    obtain rfl : c = 'v' := Option.some.inj hhead
    exact absurd (hmajor.digit 'v' List.mem_cons_self) (by decide)
  simp only [stableSemVer, dropV_append hv hfirst, Option.bind_eq_bind,
    versionNumber_append hmajor (hdot _), versionNumber_append hminor (hdot _),
    versionNumber_append hpatch hbuild.head, Option.bind_some, versionDot,
    (isBuild_iff build).mpr hbuild, if_true]

/-- **The strings that are accepted are the texts of stable versions.** -/
theorem exists_parseStableVersion_iff (value : String) (numbers : ℕ × ℕ × ℕ) :
    (∃ version, parseStableVersion value = some version ∧ numbersOf version.parts = numbers) ↔
      Stable (Text.trimSpace value).toList numbers := by
  constructor
  · rintro ⟨version, hparse, rfl⟩
    simp only [parseStableVersion, Option.bind_eq_bind, Option.bind_eq_some_iff, Prod.exists,
      parseUint_eq_some_iff] at hparse
    obtain ⟨major, minor, patch, hmatch, a, ha, b, hb, c, hc, hversion⟩ := hparse
    obtain ⟨hmajor, hminor, hpatch, v, build, hv, hbuild, htext⟩ := stableSemVer_spec hmatch
    rw [← Option.some.inj hversion, htext]
    exact .mk hv ⟨hmajor, ha, a.toNat_lt⟩ ⟨hminor, hb, b.toNat_lt⟩ ⟨hpatch, hc, c.toNat_lt⟩ hbuild
  · intro h
    generalize htext : (Text.trimSpace value).toList = text at h
    cases h with
    | @mk v major minor patch build a b c hv hmajor hminor hpatch hbuild =>
      have hmatch := stableSemVer_append hv hmajor.toDecimal hminor.toDecimal hpatch.toDecimal
        hbuild
      have huint : ∀ {digits : List Char} {n : ℕ}, Numeral digits n →
          parseUint digits = some (UInt64.ofNat n) := fun hnum =>
        parseUint_eq_some_iff.mpr (by rw [hnum.value, UInt64.toNat_ofNat_of_lt' hnum.fits])
      refine ⟨⟨(UInt64.ofNat a, UInt64.ofNat b, UInt64.ofNat c), _, rfl⟩, ?_, ?_⟩
      · simp only [parseStableVersion, htext, hmatch, huint hmajor, huint hminor, huint hpatch,
          Option.bind_eq_bind, Option.bind_some]
      · rw [numbersOf, UInt64.toNat_ofNat_of_lt' hmajor.fits,
          UInt64.toNat_ofNat_of_lt' hminor.fits, UInt64.toNat_ofNat_of_lt' hpatch.fits]

/-! ### The order -/

/-- The numbers in the order of what decides. -/
def ordered (numbers : ℕ × ℕ × ℕ) : ℕ ×ₗ ℕ ×ₗ ℕ := toLex (numbers.1, toLex numbers.2)

theorem ordered_lt_iff (p q : ℕ × ℕ × ℕ) :
    ordered p < ordered q ↔
      p.1 < q.1 ∨ p.1 = q.1 ∧ (p.2.1 < q.2.1 ∨ p.2.1 = q.2.1 ∧ p.2.2 < q.2.2) := by
  rw [ordered, ordered, Prod.Lex.toLex_lt_toLex, Prod.Lex.toLex_lt_toLex]

/-- The sign of a comparison. -/
def signOf {α : Type} [LinearOrder α] (a b : α) : Int :=
  if a < b then -1 else if b < a then 1 else 0

/-- **Versions are compared by their numbers**, the first that differ deciding. -/
theorem compareParts_eq (left right : VersionParts) :
    compareParts left right = signOf (ordered (numbersOf left)) (ordered (numbersOf right)) := by
  simp only [compareParts, signOf, ordered_lt_iff, numbersOf, UInt64.lt_iff_toNat_lt, gt_iff_lt]
  split_ifs <;> first | rfl | omega

theorem signOf_nonpos_iff {α : Type} [LinearOrder α] (a b : α) : signOf a b ≤ 0 ↔ a ≤ b := by
  rw [signOf]
  split_ifs with hlt hgt
  · exact iff_of_true (by decide) hlt.le
  · exact iff_of_false (by decide) (not_le.mpr hgt)
  · exact iff_of_true le_rfl (not_lt.mp hgt)

/-- A string that is accepted. -/
abbrev StableString := { value : String // (parseStableVersion value).isSome }

namespace StableString

variable (l r : StableString)

def version (s : StableString) : StableVersion := (parseStableVersion s.1).get s.2

def numbers (s : StableString) : ℕ × ℕ × ℕ := numbersOf s.version.parts

theorem parse_eq (s : StableString) : parseStableVersion s.1 = some s.version :=
  (Option.some_get s.2).symm

theorem compareStable_eq :
    compareStable l.1 r.1 = some (signOf (ordered l.numbers) (ordered r.numbers)) := by
  simp only [compareStable, l.parse_eq, r.parse_eq, Option.bind_eq_bind, Option.bind_some,
    compareParts_eq, numbers]

/-- One version is another or older. -/
def AtMost : Prop := ∃ c ≤ 0, compareStable l.1 r.1 = some c

theorem atMost_iff : AtMost l r ↔ ordered l.numbers ≤ ordered r.numbers := by
  rw [AtMost, ← signOf_nonpos_iff, compareStable_eq]
  constructor
  · rintro ⟨c, hc, heq⟩
    rwa [Option.some.inj heq]
  · exact fun h => ⟨_, h, rfl⟩

theorem compareStable_normalized_right :
    compareStable l.1 r.version.normalized = compareStable l.1 r.1 := by
  simp only [compareStable, parseStableVersion_normalized, r.parse_eq]

end StableString

/-- What is accepted, and the order it is in: the numbers decide, whatever prefix and suffix they
come with. -/
structure StableOrder : Prop where
  accepted : ∀ value numbers,
    (∃ version, parseStableVersion value = some version ∧ numbersOf version.parts = numbers) ↔
      Stable (Text.trimSpace value).toList numbers
  lexicographic : ∀ l r : StableString,
    compareStable l.1 r.1 = some (signOf (ordered l.numbers) (ordered r.numbers))
  refl : ∀ s : StableString, s.AtMost s
  trans : ∀ a b c : StableString, a.AtMost b → b.AtMost c → a.AtMost c
  total : ∀ a b : StableString, a.AtMost b ∨ b.AtMost a
  antisymm : ∀ a b : StableString, a.AtMost b → b.AtMost a → a.numbers = b.numbers
  normalized : ∀ l r : StableString,
    compareStable l.version.normalized r.1 = compareStable l.1 r.1 ∧
      compareStable l.1 r.version.normalized = compareStable l.1 r.1

theorem ordered_injective : Function.Injective ordered := by
  rintro ⟨a, b, c⟩ ⟨a', b', c'⟩ h
  obtain ⟨rfl, htail⟩ := Prod.mk.inj (toLex.injective h)
  obtain ⟨rfl, rfl⟩ := Prod.mk.inj (toLex.injective htail)
  rfl

/-- **Stable versions are in a total preorder**, that of their numbers, which normalizing either
side does not change. -/
theorem stable_version_order : StableOrder where
  accepted := exists_parseStableVersion_iff
  lexicographic := StableString.compareStable_eq
  refl s := (s.atMost_iff s).mpr le_rfl
  trans a b c hab hbc :=
    (a.atMost_iff c).mpr (((a.atMost_iff b).mp hab).trans ((b.atMost_iff c).mp hbc))
  total a b := by
    rw [a.atMost_iff, b.atMost_iff]
    exact le_total _ _
  antisymm a b hab hba :=
    ordered_injective (le_antisymm ((a.atMost_iff b).mp hab) ((b.atMost_iff a).mp hba))
  normalized l r :=
    ⟨compareStable_normalized l.parse_eq r.1, l.compareStable_normalized_right r⟩

end MqStudio.Update
