import Mathlib

/-!
# Resources in one pair of hands

Resources that are handed out once, kept in a store under a key or held by a
party, and released.  `Move` lists the ways a resource changes hands; `Sound`
says that each is in one place, and that is kept by every move.

* `Sound.move`: no move copies or loses a resource.
* `Sound.stored_or_released`: while nobody holds anything, what was handed out
  is stored or was released, exactly once and not both.
-/

namespace Lib

universe u v w

variable {κ : Type u} {ι : Type v} {ρ : Type w}

/-- Who has which resource, and how often each was released. -/
structure Custody (κ : Type u) (ι : Type v) (ρ : Type w) where
  stored : κ → Option ρ
  held : ι → List ρ
  released : ρ → Nat
  known : ρ → Prop

namespace Custody

/-- Where a resource is. -/
inductive Place (κ : Type u) (ι : Type v) where
  | unknown
  | stored (k : κ)
  | held (i : ι)
  | gone

/-- Every resource is where `place` says, and nowhere else. -/
structure At (c : Custody κ ι ρ) (place : ρ → Place κ ι) : Prop where
  stored_iff : ∀ k r, c.stored k = some r ↔ place r = .stored k
  held_iff : ∀ i r, r ∈ c.held i ↔ place r = .held i
  nodup : ∀ i, (c.held i).Nodup
  gone : ∀ r, place r = .gone → c.released r = 1
  kept : ∀ r, place r ≠ .gone → c.released r = 0
  known_iff : ∀ r, c.known r ↔ place r ≠ .unknown

/-- Every resource is in one place. -/
def Sound (c : Custody κ ι ρ) : Prop := ∃ place, c.At place

/-- Nothing was handed out. -/
def empty : Custody κ ι ρ := ⟨fun _ => none, fun _ => [], fun _ => 0, fun _ => False⟩

theorem sound_empty : (empty : Custody κ ι ρ).Sound :=
  ⟨fun _ => .unknown, by simp [empty], by simp [empty], fun _ => .nil, by simp, fun _ _ => rfl,
    by simp [empty]⟩

variable {c d : Custody κ ι ρ} {place : ρ → Place κ ι}

/-- What is stored is stored under one key. -/
theorem Sound.stored_inj (h : c.Sound) {k j : κ} {r : ρ} (hk : c.stored k = some r)
    (hj : c.stored j = some r) : k = j := by
  obtain ⟨place, h⟩ := h
  exact Place.stored.inj (((h.stored_iff k r).mp hk).symm.trans ((h.stored_iff j r).mp hj))

/-- No resource is released twice, or while it is stored. -/
theorem Sound.released_le (h : c.Sound) (r : ρ) :
    c.released r ≤ 1 ∧ ∀ k, c.stored k = some r → c.released r = 0 := by
  obtain ⟨place, h⟩ := h
  constructor
  · by_cases hp : place r = .gone
    · exact (h.gone r hp).le
    · exact (h.kept r hp).le.trans (Nat.zero_le 1)
  · intro k hk
    refine h.kept r fun hp => ?_
    cases ((h.stored_iff k r).mp hk).symm.trans hp

/-- **With empty hands all round**, what was handed out is stored or was released once, not both. -/
theorem Sound.stored_or_released (h : c.Sound) (hempty : ∀ i, c.held i = []) {r : ρ}
    (hr : c.known r) :
    (∃ k, c.stored k = some r ∧ c.released r = 0) ∨
      (∀ k, c.stored k ≠ some r) ∧ c.released r = 1 := by
  obtain ⟨place, h⟩ := h
  cases hp : place r with
  | unknown => exact absurd hp ((h.known_iff r).mp hr)
  | stored k => exact Or.inl ⟨k, (h.stored_iff k r).mpr hp, h.kept r (by simp [hp])⟩
  | held i => simpa [hempty i] using (h.held_iff i r).mpr hp
  | gone =>
    refine Or.inr ⟨fun k hk => ?_, h.gone r hp⟩
    cases ((h.stored_iff k r).mp hk).symm.trans hp

variable [DecidableEq κ] [DecidableEq ι] [DecidableEq ρ]

/-- How resources change hands. -/
inductive Move (c : Custody κ ι ρ) : Custody κ ι ρ → Prop
  /-- A party with empty hands is given a new one. -/
  | acquire (i : ι) (r : ρ) : c.held i = [] → ¬ c.known r →
      Move c { c with held := Function.update c.held i [r], known := fun x => x = r ∨ c.known x }
  /-- It stores the first it holds, and is left with the one stored before. -/
  | store (i : ι) (k : κ) (r : ρ) (rest : List ρ) : c.held i = r :: rest →
      Move c { c with stored := Function.update c.stored k (some r)
                      held := Function.update c.held i (rest ++ (c.stored k).toList) }
  /-- It takes what is stored. -/
  | take (i : ι) (k : κ) :
      Move c { c with stored := Function.update c.stored k none
                      held := Function.update c.held i (c.held i ++ (c.stored k).toList) }
  | takeAll (i : ι) (rs : List ρ) : rs.Nodup → (∀ r, r ∈ rs ↔ ∃ k, c.stored k = some r) →
      Move c { c with stored := fun _ => none, held := Function.update c.held i (c.held i ++ rs) }
  /-- It releases the first it holds. -/
  | release (i : ι) (r : ρ) (rest : List ρ) : c.held i = r :: rest →
      Move c { c with held := Function.update c.held i rest
                      released := Function.update c.released r (c.released r + 1) }

omit [DecidableEq κ] in
theorem At.acquire (h : c.At place) {i : ι} {r : ρ} (hi : c.held i = []) (hr : ¬ c.known r) :
    At { c with held := Function.update c.held i [r], known := fun x => x = r ∨ c.known x }
      (Function.update place r (.held i)) := by
  have hplace : place r = .unknown := by
    by_contra hne
    exact hr ((h.known_iff r).mpr hne)
  have hnone : ∀ x, place x ≠ .held i := fun x hx => by
    simpa [hi] using (h.held_iff i x).mpr hx
  refine ⟨fun k x => ?_, fun j x => ?_, fun j => ?_, fun x hx => ?_, fun x hx => ?_, fun x => ?_⟩
  · by_cases hx : x = r
    · subst hx
      simp [h.stored_iff, hplace]
    · simp [h.stored_iff, hx]
  · by_cases hj : j = i
    · subst hj
      by_cases hx : x = r
      · simp [hx]
      · simp [hx, hnone x]
    · by_cases hx : x = r
      · subst hx
        simp [hj, h.held_iff, hplace, Ne.symm hj]
      · simp [hj, hx, h.held_iff]
  · by_cases hj : j = i
    · subst hj
      simp
    · simpa [hj] using h.nodup j
  · by_cases hxr : x = r
    · simp [hxr] at hx
    · exact h.gone x (by simpa [hxr] using hx)
  · by_cases hxr : x = r
    · exact h.kept x (by simp [hxr, hplace])
    · exact h.kept x (by simpa [hxr] using hx)
  · by_cases hx : x = r
    · simp [hx]
    · simp [hx, h.known_iff]

omit [DecidableEq κ] in
/-- What a party takes out of the store, from one key or all of them, it holds. -/
theorem At.took (h : c.At place) (i : ι) {stored : κ → Option ρ} {rs : List ρ} (hrs : rs.Nodup)
    (hstored : ∀ k r, stored k = some r ↔ c.stored k = some r ∧ r ∉ rs)
    (hmem : ∀ r ∈ rs, ∃ k, c.stored k = some r) :
    At { c with stored := stored, held := Function.update c.held i (c.held i ++ rs) }
      (fun r => if r ∈ rs then .held i else place r) := by
  have hplace : ∀ r ∈ rs, ∃ k, place r = .stored k := fun r hr =>
    (hmem r hr).imp fun k hk => (h.stored_iff k r).mp hk
  refine ⟨fun k x => ?_, fun j x => ?_, fun j => ?_, fun x hx => ?_, fun x hx => ?_, fun x => ?_⟩
  · rw [hstored, h.stored_iff]
    by_cases hx : x ∈ rs <;> simp [hx]
  · by_cases hj : j = i
    · subst hj
      by_cases hx : x ∈ rs <;> simp [hx, h.held_iff]
    · by_cases hx : x ∈ rs
      · obtain ⟨k, hk⟩ := hplace x hx
        simp [hj, hx, h.held_iff, hk, Ne.symm hj]
      · simp [hj, hx, h.held_iff]
  · by_cases hj : j = i
    · subst hj
      simp only [Function.update_self]
      rw [List.nodup_append]
      refine ⟨h.nodup j, hrs, ?_⟩
      rintro a ha _ hb rfl
      obtain ⟨k, hk⟩ := hplace a hb
      cases ((h.held_iff j a).mp ha).symm.trans hk
    · simpa [hj] using h.nodup j
  · by_cases hxr : x ∈ rs
    · simp [hxr] at hx
    · exact h.gone x (by simpa [hxr] using hx)
  · by_cases hxr : x ∈ rs
    · obtain ⟨k, hk⟩ := hplace x hxr
      exact h.kept x (by simp [hk])
    · exact h.kept x (by simpa [hxr] using hx)
  · by_cases hx : x ∈ rs
    · obtain ⟨k, hk⟩ := hplace x hx
      simp [hx, h.known_iff, hk]
    · simp [hx, h.known_iff]

theorem At.take (h : c.At place) (i : ι) (k : κ) :
    Sound { c with stored := Function.update c.stored k none
                   held := Function.update c.held i (c.held i ++ (c.stored k).toList) } := by
  refine ⟨_, h.took i (by cases c.stored k <;> simp) (fun j r => ?_) fun r hr => ⟨k, ?_⟩⟩
  · by_cases hj : j = k
    · subst hj
      simp
    · rw [Function.update_of_ne hj]
      refine ⟨fun hr => ⟨hr, fun hk => hj ?_⟩, fun hr => hr.1⟩
      have hk := (h.stored_iff k r).mp (Option.mem_toList.mp hk)
      exact Place.stored.inj (((h.stored_iff j r).mp hr).symm.trans hk)
  · exact Option.mem_toList.mp hr

omit [DecidableEq κ] in
theorem At.takeAll (h : c.At place) (i : ι) {rs : List ρ} (hrs : rs.Nodup)
    (hmem : ∀ r, r ∈ rs ↔ ∃ k, c.stored k = some r) :
    Sound { c with stored := fun _ : κ => none
                   held := Function.update c.held i (c.held i ++ rs) } := by
  refine ⟨_, h.took i hrs (fun k r => ?_) fun r hr => (hmem r).mp hr⟩
  rw [hmem]
  exact ⟨nofun, fun hr => absurd ⟨k, hr.1⟩ hr.2⟩

/-- The one it holds is stored, where nothing is stored. -/
theorem At.put (h : c.At place) {i : ι} {k : κ} {r : ρ} (rest : List ρ)
    (hi : c.held i = r :: rest) (hk : c.stored k = none) :
    At { c with stored := Function.update c.stored k (some r)
                held := Function.update c.held i rest }
      (Function.update place r (.stored k)) := by
  have hplace : place r = .held i := (h.held_iff i r).mp (by simp [hi])
  have hnodup := hi ▸ h.nodup i
  have hnone : ∀ x, place x ≠ .stored k := fun x hx => by
    simpa [hk] using (h.stored_iff k x).mpr hx
  refine ⟨fun j x => ?_, fun j x => ?_, fun j => ?_, fun x hx => ?_, fun x hx => ?_, fun x => ?_⟩
  · by_cases hj : j = k
    · subst hj
      by_cases hx : x = r
      · simp [hx]
      · simp [hx, Ne.symm hx, hnone x]
    · by_cases hx : x = r
      · subst hx
        simp [hj, h.stored_iff, hplace, Ne.symm hj]
      · simp [hj, hx, h.stored_iff]
  · by_cases hj : j = i
    · subst hj
      by_cases hx : x = r
      · subst hx
        simpa using (List.nodup_cons.mp hnodup).1
      · simp [hx, ← h.held_iff, hi]
    · by_cases hx : x = r
      · subst hx
        simp [hj, h.held_iff, hplace, Ne.symm hj]
      · simp [hj, hx, h.held_iff]
  · by_cases hj : j = i
    · subst hj
      simpa using (List.nodup_cons.mp hnodup).2
    · simpa [hj] using h.nodup j
  · by_cases hxr : x = r
    · simp [hxr] at hx
    · exact h.gone x (by simpa [hxr] using hx)
  · by_cases hxr : x = r
    · exact h.kept x (by simp [hxr, hplace])
    · exact h.kept x (by simpa [hxr] using hx)
  · by_cases hx : x = r
    · subst hx
      simp [h.known_iff, hplace]
    · simp [hx, h.known_iff]

omit [DecidableEq κ] in
theorem At.release (h : c.At place) {i : ι} {r : ρ} {rest : List ρ} (hi : c.held i = r :: rest) :
    At { c with held := Function.update c.held i rest
                released := Function.update c.released r (c.released r + 1) }
      (Function.update place r .gone) := by
  have hplace : place r = .held i := (h.held_iff i r).mp (by simp [hi])
  have hnodup := hi ▸ h.nodup i
  refine ⟨fun j x => ?_, fun j x => ?_, fun j => ?_, fun x hx => ?_, fun x hx => ?_, fun x => ?_⟩
  · by_cases hx : x = r
    · subst hx
      simp [h.stored_iff, hplace]
    · simp [hx, h.stored_iff]
  · by_cases hj : j = i
    · subst hj
      by_cases hx : x = r
      · subst hx
        simpa using (List.nodup_cons.mp hnodup).1
      · simp [hx, ← h.held_iff, hi]
    · by_cases hx : x = r
      · subst hx
        simp [hj, h.held_iff, hplace, Ne.symm hj]
      · simp [hj, hx, h.held_iff]
  · by_cases hj : j = i
    · subst hj
      simpa using (List.nodup_cons.mp hnodup).2
    · simpa [hj] using h.nodup j
  · by_cases hxr : x = r
    · subst hxr
      simp [h.kept x (by simp [hplace])]
    · simpa [hxr] using h.gone x (by simpa [hxr] using hx)
  · by_cases hxr : x = r
    · simp [hxr] at hx
    · simpa [hxr] using h.kept x (by simpa [hxr] using hx)
  · by_cases hx : x = r
    · subst hx
      simp [h.known_iff, hplace]
    · simp [hx, h.known_iff]

/-- **No move copies or loses a resource.** -/
theorem Sound.move (h : c.Sound) (hm : Move c d) : d.Sound := by
  obtain ⟨place, h⟩ := h
  cases hm with
  | acquire i r hi hr => exact ⟨_, h.acquire hi hr⟩
  | store i k r rest hi =>
    -- It takes what is stored, and puts what it held in its place.
    obtain ⟨place', h'⟩ := h.take i k
    have hput := h'.put (i := i) (k := k) (r := r) (rest ++ (c.stored k).toList)
      (by simp [hi]) (by simp)
    simp only [Function.update_idem] at hput
    exact ⟨_, hput⟩
  | take i k => exact h.take i k
  | takeAll i rs hrs hmem => exact h.takeAll i hrs hmem
  | release i r rest hi => exact ⟨_, h.release hi⟩

end Custody

end Lib
