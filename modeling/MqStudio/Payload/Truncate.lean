import MqStudio.Lib.Bisect
import MqStudio.Lib.Utf16

/-!
# Cutting a large body for display

`truncatePayload` of `lib/time.ts`: a body beyond the limit is cut where a bisection over its code
units finds the longest prefix that still fits.  A prefix that ends within a surrogate pair is
smaller by a byte than the one with the whole pair, so that the cut can fall there.

* `Right`: the longest prefix of whole characters that fits.
* `Splits`: a pair begins where three bytes are left of the limit, and not four.
* `truncate_right_iff`: the cut is right exactly if no pair does.
-/

namespace MqStudio.Payload

open Lib.Bisect Lib.Utf16

/-! ### The limit -/

/-- A number as JavaScript has it. -/
inductive JsNumber where
  | nan
  | infinity (negative : Bool)
  | finite (value : ℚ)

/-- `n <= x` -/
def JsNumber.admits : JsNumber → ℕ → Bool
  | .nan, _ => false
  | .infinity negative, _ => !negative
  | .finite q, n => (n : ℚ) ≤ q

/-- `x || y` -/
def JsNumber.or : JsNumber → JsNumber → JsNumber
  | .nan, y => y
  | .finite q, y => if q = 0 then y else .finite q
  | x, _ => x

/-- `Math.max(floor, x)` -/
def JsNumber.atLeast (floor : ℚ) : JsNumber → JsNumber
  | .nan => .nan
  | .infinity negative => if negative then .finite floor else .infinity false
  | .finite q => .finite (max floor q)

/-- `Math.max(1024, maxBytes || 512 * 1024)` -/
def effectiveLimit (maxBytes : JsNumber) : JsNumber :=
  (maxBytes.or (.finite (512 * 1024))).atLeast 1024

theorem JsNumber.admits_mono (x : JsNumber) {m n : ℕ} (hle : m ≤ n) (h : x.admits n = true) :
    x.admits m = true := by
  cases x with
  | nan => exact h
  | infinity negative => exact h
  | finite q =>
    simp only [JsNumber.admits, decide_eq_true_eq] at h ⊢
    exact (Nat.cast_le.mpr hle).trans h

/-- Small texts fit. -/
theorem admits_effectiveLimit (maxBytes : JsNumber) {n : ℕ} (h : n ≤ 1024) :
    (effectiveLimit maxBytes).admits n = true := by
  have hn : (n : ℚ) ≤ 1024 := by exact_mod_cast h
  have hfinite : ∀ q : ℚ, (JsNumber.atLeast 1024 (.finite q)).admits n = true := fun q =>
    decide_eq_true (hn.trans (le_max_left _ _))
  cases maxBytes with
  | nan => exact hfinite _
  | infinity negative =>
    cases negative with
    | false => rfl
    | true => exact decide_eq_true hn
  | finite q =>
    rw [effectiveLimit, JsNumber.or]
    split
    · exact hfinite _
    · exact hfinite q

/-! ### The cut -/

structure Truncated where
  text : List UInt16
  truncated : Bool
  originalBytes : ℕ

def truncatePayload (body : List UInt16) (maxBytes : JsNumber) : Truncated :=
  let max := effectiveLimit maxBytes
  let originalBytes := size body
  if max.admits originalBytes then ⟨body, false, originalBytes⟩
  else
    let lo := lastTrue (fun mid => max.admits (size (body.take mid))) 0 body.length
    ⟨body.take lo, true, originalBytes⟩

/-! ### What a cut should be -/

/-- A prefix ends within a surrogate pair. -/
def EndsInside (body text : List UInt16) : Prop :=
  ∃ before high low after, isHigh high = true ∧ isLow low = true ∧
    body = before ++ high :: low :: after ∧ text = before ++ [high]

/-- A prefix of whole characters that fits. -/
structure Fitting (max : JsNumber) (body text : List UInt16) : Prop where
  isPrefixOf : text <+: body
  whole : ¬ EndsInside body text
  fits : max.admits (size text) = true

/-- The longest prefix of whole characters that fits, and what is said of it. -/
structure Right (max : JsNumber) (body : List UInt16) (r : Truncated) : Prop where
  fitting : Fitting max body r.text
  longest : ∀ text, Fitting max body text → text <+: r.text
  truncated : r.truncated = false ↔ r.text = body
  originalBytes : r.originalBytes = size body

/-- A pair begins where three bytes are left of the limit, and not four. -/
def Splits (max : JsNumber) (body : List UInt16) : Prop :=
  ∃ before high low after, isHigh high = true ∧ isLow low = true ∧
    body = before ++ high :: low :: after ∧
    max.admits (size before + 3) = true ∧ max.admits (size before + 4) = false

/-! ### What the bisection finds -/

variable {body : List UInt16} {maxBytes : JsNumber}

/-- The index that the bisection ends with. -/
def cutAt (body : List UInt16) (max : JsNumber) : ℕ :=
  lastTrue (fun mid => max.admits (size (body.take mid))) 0 body.length

/-- The prefix at the cut fits, and no longer one does. -/
theorem cutAt_spec (body : List UInt16) (maxBytes : JsNumber) :
    cutAt body (effectiveLimit maxBytes) ≤ body.length ∧
      (effectiveLimit maxBytes).admits
        (size (body.take (cutAt body (effectiveLimit maxBytes)))) = true ∧
      ∀ n, cutAt body (effectiveLimit maxBytes) < n → n ≤ body.length →
        (effectiveLimit maxBytes).admits (size (body.take n)) = false := by
  have hmono : ∀ m n, m ≤ n → (effectiveLimit maxBytes).admits (size (body.take n)) = true →
      (effectiveLimit maxBytes).admits (size (body.take m)) = true := fun m n hle h =>
    (effectiveLimit maxBytes).admits_mono (size_take_mono body hle) h
  have hzero : (effectiveLimit maxBytes).admits (size (body.take 0)) = true :=
    admits_effectiveLimit maxBytes (Nat.zero_le _)
  obtain ⟨-, hle, hfits, hlast⟩ := lastTrue_spec hmono (Nat.zero_le body.length) hzero
  exact ⟨hle, hfits, hlast⟩

/-- A body that fits is cut behind its end. -/
theorem cutAt_of_fits (h : (effectiveLimit maxBytes).admits (size body) = true) :
    cutAt body (effectiveLimit maxBytes) = body.length := by
  obtain ⟨hle, -, hlast⟩ := cutAt_spec body maxBytes
  by_contra hne
  have hfalse := hlast body.length (lt_of_le_of_ne hle hne) le_rfl
  rw [List.take_length, h] at hfalse
  cases hfalse

theorem text_truncatePayload (body : List UInt16) (maxBytes : JsNumber) :
    (truncatePayload body maxBytes).text = body.take (cutAt body (effectiveLimit maxBytes)) := by
  rw [truncatePayload]
  dsimp only
  split
  · rename_i hfits
    rw [cutAt_of_fits hfits, List.take_length]
  · rfl

theorem truncated_truncatePayload (body : List UInt16) (maxBytes : JsNumber) :
    (truncatePayload body maxBytes).truncated = false ↔
      (truncatePayload body maxBytes).text = body := by
  rw [text_truncatePayload, truncatePayload]
  dsimp only
  split
  · rename_i hfits
    simp [cutAt_of_fits hfits]
  · rename_i hover
    refine ⟨fun h => (by cases h), fun h => absurd ?_ hover⟩
    have hfits := (cutAt_spec body maxBytes).2.1
    rwa [h] at hfits

theorem originalBytes_truncatePayload (body : List UInt16) (maxBytes : JsNumber) :
    (truncatePayload body maxBytes).originalBytes = size body := by
  rw [truncatePayload]
  dsimp only
  split <;> rfl

/-- Every prefix that fits is one of the cut. -/
theorem prefix_text {text : List UInt16} (hstart : text <+: body)
    (hfits : (effectiveLimit maxBytes).admits (size text) = true) :
    text <+: (truncatePayload body maxBytes).text := by
  have htake : text = body.take text.length := List.prefix_iff_eq_take.mp hstart
  rw [text_truncatePayload, htake]
  refine List.take_prefix_take_left (Nat.le_of_not_lt fun hlt => ?_)
  have hfalse := (cutAt_spec body maxBytes).2.2 text.length hlt hstart.length_le
  rw [← htake, hfits] at hfalse
  cases hfalse

/-! ### Where the cut falls -/

/-- The cut falls within a pair exactly if one begins where only its first half fits. -/
theorem endsInside_iff (body : List UInt16) (maxBytes : JsNumber) :
    EndsInside body (truncatePayload body maxBytes).text ↔
      Splits (effectiveLimit maxBytes) body := by
  constructor
  · rintro ⟨before, high, low, after, hhigh, hlow, hbody, htext⟩
    refine ⟨before, high, low, after, hhigh, hlow, hbody, ?_, ?_⟩
    · have hfits := (cutAt_spec body maxBytes).2.1
      rwa [← text_truncatePayload, htext, size_append_high before hhigh] at hfits
    · rw [← size_append_pair before hhigh hlow, Bool.eq_false_iff]
      intro hfits
      have hpair : before ++ [high, low] <+: body := ⟨after, by rw [hbody]; simp⟩
      have hlen := (prefix_text hpair hfits).length_le
      rw [htext] at hlen
      simp at hlen
  · rintro ⟨before, high, low, after, hhigh, hlow, hbody, hfits, hover⟩
    refine ⟨before, high, low, after, hhigh, hlow, hbody, ?_⟩
    rw [← size_append_high before hhigh] at hfits
    rw [← size_append_pair before hhigh hlow] at hover
    have hhalf : before ++ [high] <+: (truncatePayload body maxBytes).text :=
      prefix_text ⟨low :: after, by rw [hbody]; simp⟩ hfits
    have htext : (truncatePayload body maxBytes).text <+: body := by
      rw [text_truncatePayload]
      exact List.take_prefix _ _
    obtain ⟨rest, hrest⟩ := hhalf
    rw [← hrest, hbody, List.append_assoc, List.prefix_append_right_inj, List.singleton_append,
      List.cons_prefix_cons] at htext
    cases rest with
    | nil => rw [← hrest, List.append_nil]
    | cons u rest =>
      -- The whole pair would fit.
      obtain ⟨rfl, -⟩ := List.cons_prefix_cons.mp htext.2
      have hpair : before ++ [high, u] <+: (truncatePayload body maxBytes).text :=
        ⟨rest, by rw [← hrest]; simp⟩
      have hfull := (cutAt_spec body maxBytes).2.1
      rw [← text_truncatePayload] at hfull
      rw [(effectiveLimit maxBytes).admits_mono (size_mono hpair) hfull] at hover
      cases hover

/-- **The cut is right exactly if no surrogate pair begins where three bytes are left of the limit,
and not four.** -/
theorem truncate_right_iff (body : List UInt16) (maxBytes : JsNumber) :
    Right (effectiveLimit maxBytes) body (truncatePayload body maxBytes) ↔
      ¬ Splits (effectiveLimit maxBytes) body := by
  rw [← endsInside_iff]
  constructor
  · exact fun hright => hright.fitting.whole
  · intro hwhole
    refine ⟨⟨?_, hwhole, ?_⟩, fun text h => prefix_text h.isPrefixOf h.fits,
      truncated_truncatePayload body maxBytes, originalBytes_truncatePayload body maxBytes⟩
    · rw [text_truncatePayload]
      exact List.take_prefix _ _
    · rw [text_truncatePayload]
      exact (cutAt_spec body maxBytes).2.1

/-- A body that ends with a pair, one byte beyond the smallest limit. -/
def emojiBody : List UInt16 := List.replicate 1021 0x61 ++ [0xD83D, 0xDE00]

theorem cut_inside_pair :
    ¬ Right (effectiveLimit (.finite 1024)) emojiBody
      (truncatePayload emojiBody (.finite 1024)) := by
  intro hright
  have hsize : size (List.replicate 1021 0x61) = 1021 := size_replicate (by decide) 1021
  have hlimit : effectiveLimit (.finite 1024) = .finite 1024 := by
    have hne : (1024 : ℚ) ≠ 0 := by norm_num
    rw [effectiveLimit, JsNumber.or, if_neg hne, JsNumber.atLeast, max_self]
  refine hright.fitting.whole ((endsInside_iff _ _).mpr
    ⟨List.replicate 1021 0x61, 0xD83D, 0xDE00, [], by decide, by decide, rfl, ?_, ?_⟩)
  · rw [hsize]
    exact admits_effectiveLimit _ le_rfl
  · rw [hsize, hlimit, JsNumber.admits]
    exact decide_eq_false (by norm_num)

end MqStudio.Payload
