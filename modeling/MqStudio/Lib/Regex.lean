import Mathlib

/-!
# Regular expressions that backtrack

Expressions without groups that are read back, as JavaScript and Perl match them: an alternative is
tried after the ones in front of it, and a repetition takes as many turns as it can.  `ends` lists
where a match may end, in the order in which the matcher tries them; the match is the first.

* `mem_ends_reaches`: a match takes what is ahead of it.
* `lt_of_consumes`: an expression that must take something does.
* `ends_ne_nil`: one that may always end has a match everywhere.
* `search_spec`: the first match behind a position, and what is passed over in front of it.
-/

namespace Lib.Regex

universe u

variable {α : Type u}

/-! ### Positions -/

/-- A position in a text: what is behind it, the nearest first, and what is ahead. -/
@[ext] structure Cursor (α : Type u) where
  behind : List α
  ahead : List α

/-- The way from one position to a later one. -/
structure Reaches (c : Cursor α) (taken : List α) (d : Cursor α) : Prop where
  ahead : c.ahead = taken ++ d.ahead
  behind : d.behind = taken.reverse ++ c.behind

theorem Reaches.refl (c : Cursor α) : Reaches c [] c := ⟨rfl, rfl⟩

theorem Reaches.trans {c d e : Cursor α} {xs ys : List α} (h : Reaches c xs d)
    (h' : Reaches d ys e) : Reaches c (xs ++ ys) e where
  ahead := by rw [h.ahead, h'.ahead, List.append_assoc]
  behind := by rw [h'.behind, h.behind, List.reverse_append, List.append_assoc]

theorem Reaches.length {c d : Cursor α} {xs : List α} (h : Reaches c xs d) :
    c.ahead.length = xs.length + d.ahead.length := by
  rw [h.ahead, List.length_append]

/-- What lies between two positions. -/
def Cursor.upTo (c d : Cursor α) : List α := c.ahead.take (c.ahead.length - d.ahead.length)

theorem Reaches.upTo {c d : Cursor α} {xs : List α} (h : Reaches c xs d) : c.upTo d = xs := by
  rw [Cursor.upTo, h.length, Nat.add_sub_cancel, h.ahead, List.take_left]

/-! ### Expressions -/

/-- An expression over the units of a text. -/
inductive Expr (α : Type u) where
  | empty
  | one (p : α → Bool)
  | seq (r s : Expr α)
  | alt (r s : Expr α)
  | star (r : Expr α)
  | boundary (word : α → Bool)

namespace Expr

/-- `r?` -/
def opt (r : Expr α) : Expr α := .alt r .empty

/-- `r+` -/
def plus (r : Expr α) : Expr α := .seq r (.star r)

/-- A text, unit by unit. -/
def word [DecidableEq α] : List α → Expr α
  | [] => .empty
  | a :: as => .seq (.one fun b => b = a) (word as)

end Expr

/-- The ends of at most `n` turns, the longer ones first; a turn that takes nothing is none. -/
def turns (step : Cursor α → List (Cursor α)) : ℕ → Cursor α → List (Cursor α)
  | 0, c => [c]
  | n + 1, c =>
    ((step c).filter fun d => d.ahead.length < c.ahead.length).flatMap (turns step n) ++ [c]

/-- The places where a match may end, in the order in which they are tried.  No repetition takes
more turns than there are units ahead. -/
def ends : Expr α → Cursor α → List (Cursor α)
  | .empty, c => [c]
  | .one p, c =>
    match c.ahead with
    | [] => []
    | a :: as => if p a then [⟨a :: c.behind, as⟩] else []
  | .seq r s, c => (ends r c).flatMap (ends s)
  | .alt r s, c => ends r c ++ ends s c
  | .star r, c => turns (ends r) c.ahead.length c
  | .boundary word, c => if c.behind.head?.any word = c.ahead.head?.any word then [] else [c]

/-- Where the match at a position ends. -/
def matchAt (r : Expr α) (c : Cursor α) : Option (Cursor α) := (ends r c).head?

/-! ### What a match takes -/

theorem mem_turns_reaches {step : Cursor α → List (Cursor α)}
    (h : ∀ c, ∀ d ∈ step c, ∃ xs, Reaches c xs d) {n : ℕ} :
    ∀ c, ∀ d ∈ turns step n c, ∃ xs, Reaches c xs d := by
  induction n with
  | zero =>
    intro c d hd
    rw [turns, List.mem_singleton] at hd
    exact ⟨[], hd ▸ .refl c⟩
  | succ n ih =>
    intro c d hd
    rw [turns, List.mem_append, List.mem_flatMap, List.mem_singleton] at hd
    rcases hd with ⟨e, he, hd⟩ | rfl
    · obtain ⟨xs, hxs⟩ := h c e (List.mem_of_mem_filter he)
      obtain ⟨ys, hys⟩ := ih e d hd
      exact ⟨xs ++ ys, hxs.trans hys⟩
    · exact ⟨[], .refl d⟩

/-- A match takes what is ahead of it. -/
theorem mem_ends_reaches (r : Expr α) : ∀ c, ∀ d ∈ ends r c, ∃ xs, Reaches c xs d := by
  induction r with
  | empty =>
    intro c d hd
    rw [ends, List.mem_singleton] at hd
    exact ⟨[], hd ▸ .refl c⟩
  | one p =>
    intro c d hd
    rw [ends] at hd
    split at hd
    · exact absurd hd List.not_mem_nil
    · rename_i a as hahead
      split at hd
      · rw [List.mem_singleton.mp hd]
        exact ⟨[a], hahead, rfl⟩
      · exact absurd hd List.not_mem_nil
  | seq r s ihr ihs =>
    intro c d hd
    obtain ⟨e, he, hd⟩ := List.mem_flatMap.mp hd
    obtain ⟨xs, hxs⟩ := ihr c e he
    obtain ⟨ys, hys⟩ := ihs e d hd
    exact ⟨xs ++ ys, hxs.trans hys⟩
  | alt r s ihr ihs =>
    intro c d hd
    rcases List.mem_append.mp hd with hd | hd
    · exact ihr c d hd
    · exact ihs c d hd
  | star r ih => exact fun c d hd => mem_turns_reaches ih c d hd
  | boundary word =>
    intro c d hd
    rw [ends] at hd
    split at hd
    · exact absurd hd List.not_mem_nil
    · exact ⟨[], List.mem_singleton.mp hd ▸ .refl c⟩

/-- Every match takes something. -/
def consumes : Expr α → Bool
  | .empty => false
  | .one _ => true
  | .seq r s => consumes r || consumes s
  | .alt r s => consumes r && consumes s
  | .star _ => false
  | .boundary _ => false

/-- An expression that must take something does. -/
theorem lt_of_consumes {r : Expr α} (h : consumes r = true) {c d : Cursor α} (hd : d ∈ ends r c) :
    d.ahead.length < c.ahead.length := by
  induction r generalizing c d with
  | empty => cases h
  | one p =>
    rw [ends] at hd
    split at hd
    · exact absurd hd List.not_mem_nil
    · rename_i a as hahead
      split at hd
      · rw [List.mem_singleton.mp hd, hahead]
        exact Nat.lt_succ_self _
      · exact absurd hd List.not_mem_nil
  | seq r s ihr ihs =>
    obtain ⟨e, he, hd⟩ := List.mem_flatMap.mp hd
    obtain ⟨xs, hxs⟩ := mem_ends_reaches r c e he
    obtain ⟨ys, hys⟩ := mem_ends_reaches s e d hd
    have hlen := hxs.length
    have hlen' := hys.length
    rw [consumes, Bool.or_eq_true] at h
    rcases h with h | h
    · have := ihr h he
      omega
    · have := ihs h hd
      omega
  | alt r s ihr ihs =>
    rw [consumes, Bool.and_eq_true] at h
    rcases List.mem_append.mp hd with hd | hd
    · exact ihr h.1 hd
    · exact ihs h.2 hd
  | star r _ => cases h
  | boundary word => cases h

/-- There is a match at every position. -/
def always : Expr α → Bool
  | .empty => true
  | .one _ => false
  | .seq r s => always r && always s
  | .alt r s => always r || always s
  | .star _ => true
  | .boundary _ => false

theorem turns_ne_nil (step : Cursor α → List (Cursor α)) (n : ℕ) (c : Cursor α) :
    turns step n c ≠ [] := by
  cases n with
  | zero => exact List.cons_ne_nil _ _
  | succ n => exact List.append_ne_nil_of_right_ne_nil _ (List.cons_ne_nil _ _)

theorem ends_seq_ne_nil {r s : Expr α} {c : Cursor α} (hr : ends r c ≠ [])
    (hs : ∀ d, ends s d ≠ []) : ends (.seq r s) c ≠ [] := by
  obtain ⟨d, hd⟩ := List.exists_mem_of_ne_nil _ hr
  obtain ⟨e, he⟩ := List.exists_mem_of_ne_nil _ (hs d)
  exact List.ne_nil_of_mem (List.mem_flatMap.mpr ⟨d, hd, he⟩)

/-- One that may always end has a match everywhere. -/
theorem ends_ne_nil {r : Expr α} (h : always r = true) (c : Cursor α) : ends r c ≠ [] := by
  induction r generalizing c with
  | empty => exact List.cons_ne_nil _ _
  | one p => cases h
  | seq r s ihr ihs =>
    rw [always, Bool.and_eq_true] at h
    exact ends_seq_ne_nil (ihr h.1 c) (ihs h.2)
  | alt r s ihr ihs =>
    rw [always, Bool.or_eq_true] at h
    rcases h with h | h
    · exact List.append_ne_nil_of_left_ne_nil (ihr h c) _
    · exact List.append_ne_nil_of_right_ne_nil _ (ihs h c)
  | star r _ => exact turns_ne_nil _ _ c
  | boundary word => cases h

/-! ### Searching -/

/-- The first match at a position or behind it: where it starts and where it ends. -/
def searchFrom (r : Expr α) (behind : List α) : List α → Option (Cursor α × Cursor α)
  | [] => (matchAt r ⟨behind, []⟩).map fun d => (⟨behind, []⟩, d)
  | a :: as =>
    match matchAt r ⟨behind, a :: as⟩ with
    | some d => some (⟨behind, a :: as⟩, d)
    | none => searchFrom r (a :: behind) as

def search (r : Expr α) (c : Cursor α) : Option (Cursor α × Cursor α) :=
  searchFrom r c.behind c.ahead

variable {r : Expr α} {p : α → Prop}

theorem searchFrom_spec (hp : ∀ b a as, p a → ends r ⟨b, a :: as⟩ ≠ []) {behind ahead : List α}
    {s d : Cursor α} (h : searchFrom r behind ahead = some (s, d)) :
    d ∈ ends r s ∧ ∃ skipped, Reaches ⟨behind, ahead⟩ skipped s ∧ ∀ a ∈ skipped, ¬ p a := by
  induction ahead generalizing behind with
  | nil =>
    obtain ⟨e, he, heq⟩ := Option.map_eq_some_iff.mp h
    obtain ⟨rfl, rfl⟩ := Prod.mk.inj heq
    exact ⟨List.mem_of_head? he, [], .refl _, List.forall_mem_nil _⟩
  | cons a as ih =>
    rw [searchFrom] at h
    split at h
    · rename_i e he
      obtain ⟨rfl, rfl⟩ := Prod.mk.inj (Option.some.inj h)
      exact ⟨List.mem_of_head? he, [], .refl _, List.forall_mem_nil _⟩
    · rename_i hnone
      obtain ⟨hd, skipped, hreaches, hskipped⟩ := ih h
      have ha : ¬ p a := fun hpa => hp behind a as hpa (List.head?_eq_none_iff.mp hnone)
      have hone : Reaches ⟨behind, a :: as⟩ [a] ⟨a :: behind, as⟩ := ⟨rfl, rfl⟩
      exact ⟨hd, a :: skipped, hone.trans hreaches, List.forall_mem_cons.mpr ⟨ha, hskipped⟩⟩

theorem searchFrom_none (hp : ∀ b a as, p a → ends r ⟨b, a :: as⟩ ≠ []) {behind ahead : List α}
    (h : searchFrom r behind ahead = none) : ∀ a ∈ ahead, ¬ p a := by
  induction ahead generalizing behind with
  | nil => exact List.forall_mem_nil _
  | cons a as ih =>
    rw [searchFrom] at h
    split at h
    · cases h
    · rename_i hnone
      have ha : ¬ p a := fun hpa => hp behind a as hpa (List.head?_eq_none_iff.mp hnone)
      exact List.forall_mem_cons.mpr ⟨ha, ih h⟩

/-- The first match behind a position.  What is passed over in front of it holds no unit at which
there is a match. -/
theorem search_spec (hp : ∀ b a as, p a → ends r ⟨b, a :: as⟩ ≠ []) {c s d : Cursor α}
    (h : search r c = some (s, d)) :
    d ∈ ends r s ∧ ∃ skipped, Reaches c skipped s ∧ ∀ a ∈ skipped, ¬ p a :=
  searchFrom_spec hp h

theorem search_none (hp : ∀ b a as, p a → ends r ⟨b, a :: as⟩ ≠ []) {c : Cursor α}
    (h : search r c = none) : ∀ a ∈ c.ahead, ¬ p a :=
  searchFrom_none hp h

/-- The position behind a match of an expression that takes something. -/
theorem search_progress (hr : consumes r = true) {c s d : Cursor α}
    (h : search r c = some (s, d)) : d.ahead.length < c.ahead.length := by
  obtain ⟨hd, skipped, hreaches, -⟩ := search_spec (p := fun _ => False) (fun _ _ _ => False.elim) h
  have hlen := hreaches.length
  have hlt := lt_of_consumes hr hd
  omega

end Lib.Regex
