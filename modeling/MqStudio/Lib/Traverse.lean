import Mathlib

/-!
# Going over a list

`List.mapM` in `Except` succeeds where the function does on every element, and
then relates the elements to the results one by one.

* `bind_eq_ok`: one step after another.
* `mapM_eq_ok`: the relation, both ways.
* `foldl_gathers`: a fold whose steps each add something gathers what any of them adds.
-/

namespace Lib.Traverse

universe u v w

variable {ε : Type u} {α : Type v} {β : Type w} {f : α → Except ε β}

/-- A step that succeeds hands its result on. -/
theorem bind_eq_ok {γ : Type v} {x : Except ε α} {g : α → Except ε γ} {b : γ} :
    x >>= g = .ok b ↔ ∃ a, x = .ok a ∧ g a = .ok b := by
  cases x with
  | error err => exact ⟨(nomatch ·), fun ⟨_, h, _⟩ => nomatch h⟩
  | ok a => exact ⟨fun h => ⟨a, rfl, h⟩, fun ⟨_, h, h'⟩ => Except.ok.inj h ▸ h'⟩

/-- **A traversal succeeds** where every element does. -/
theorem mapM_eq_ok {as : List α} {bs : List β} :
    as.mapM f = .ok bs ↔ List.Forall₂ (fun a b => f a = .ok b) as bs := by
  induction as generalizing bs with
  | nil =>
    rw [List.mapM_nil, List.forall₂_nil_left_iff]
    exact ⟨fun h => (Except.ok.inj h).symm, fun h => by rw [h]; rfl⟩
  | cons a as ih =>
    rw [List.mapM_cons, List.forall₂_cons_left_iff]
    cases ha : f a with
    | error err =>
      refine ⟨(nomatch ·), ?_⟩
      rintro ⟨b, bs, hb, -, -⟩
      cases hb
    | ok b =>
      cases has : as.mapM f with
      | error err =>
        refine ⟨(nomatch ·), ?_⟩
        rintro ⟨c, cs, -, hcs, -⟩
        cases has.symm.trans (ih.mpr hcs)
      | ok cs =>
        constructor
        · intro h
          exact ⟨b, cs, rfl, ih.mp has, (Except.ok.inj h).symm⟩
        · rintro ⟨c, ds, hc, hds, rfl⟩
          obtain rfl := Except.ok.inj hc
          obtain rfl := Except.ok.inj (has.symm.trans (ih.mpr hds))
          rfl

/-- A result of a traversal is the result of an element. -/
theorem exists_of_mem_mapM {as : List α} {bs : List β} (h : as.mapM f = .ok bs) {b : β}
    (hb : b ∈ bs) : ∃ a ∈ as, f a = .ok b := by
  have h' := mapM_eq_ok.mp h
  clear h
  induction h' with
  | nil => cases hb
  | @cons a c as bs hac _ ih =>
    rcases List.mem_cons.mp hb with rfl | hb
    · exact ⟨a, List.mem_cons_self, hac⟩
    · obtain ⟨d, hd, hfd⟩ := ih hb
      exact ⟨d, List.mem_cons_of_mem _ hd, hfd⟩

/-- Every element has its result in the traversal. -/
theorem mem_of_mapM {as : List α} {bs : List β} (h : as.mapM f = .ok bs) {a : α} (ha : a ∈ as)
    {b : β} (hb : f a = .ok b) : b ∈ bs := by
  have h' := mapM_eq_ok.mp h
  clear h
  induction h' with
  | nil => cases ha
  | @cons c d as bs hcd _ ih =>
    rcases List.mem_cons.mp ha with rfl | ha
    · rw [Except.ok.inj (hb.symm.trans hcd)]
      exact List.mem_cons_self
    · exact List.mem_cons_of_mem _ (ih ha)

/-- A traversal succeeds where every element does. -/
theorem exists_mapM {as : List α} (h : ∀ a ∈ as, ∃ b, f a = .ok b) : ∃ bs, as.mapM f = .ok bs := by
  induction as with
  | nil => exact ⟨[], rfl⟩
  | cons a as ih =>
    obtain ⟨b, hb⟩ := h a List.mem_cons_self
    obtain ⟨bs, hbs⟩ := ih fun a ha => h a (List.mem_cons_of_mem _ ha)
    exact ⟨b :: bs, mapM_eq_ok.mpr (.cons hb (mapM_eq_ok.mp hbs))⟩

variable (f) in
/-- A traversal with a known result for each element. -/
theorem mapM_map_eq_ok {γ : Type w} (g : γ → α) (out : γ → β) (cs : List γ)
    (h : ∀ c ∈ cs, f (g c) = .ok (out c)) : (cs.map g).mapM f = .ok (cs.map out) := by
  rw [mapM_eq_ok, List.forall₂_map_left_iff, List.forall₂_map_right_iff, List.forall₂_same]
  exact h

/-! ### Folds -/

/-- A fold whose step for `a` adds what meets `add a`, and loses nothing. -/
theorem foldl_gathers {σ : Type u} {g : σ → α → σ} (has : σ → β → Prop) (add : α → β → Prop)
    (h : ∀ s a b, has (g s a) b ↔ has s b ∨ add a b) (l : List α) (s : σ) (b : β) :
    has (l.foldl g s) b ↔ has s b ∨ ∃ a ∈ l, add a b := by
  induction l generalizing s with
  | nil => simp
  | cons a l ih =>
    rw [List.foldl_cons, ih, h]
    simp [or_assoc]

end Lib.Traverse
