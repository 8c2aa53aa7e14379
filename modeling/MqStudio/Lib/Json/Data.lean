import MqStudio.Lib.Json.RoundTrip

/-!
# JSON values over a type of numbers

What Go's `interface{}` holds of a JSON value: the numbers are of a type `ν`, and an object is a
map, here the list of its members in the order of their names with no name twice.  A function on a
`Data` is given by what it does at each kind of node (`Alg`, `fold`).

* `canon_map`: ordering the members and changing the numbers go past each other.
* `related_map_iff`: a value and its image under `f` are related exactly if each number is.
* `ofValue_toValue`: a value is what its syntax denotes.
-/

namespace Lib.Json

universe u v w

variable {ν : Type u} {μ : Type v} {α : Type w}

/-- A JSON value whose numbers are of type `ν`. -/
inductive Data (ν : Type u) where
  | null
  | bool (b : Bool)
  | number (n : ν)
  | string (s : String)
  | array (ts : List (Data ν))
  | object (ms : List (String × Data ν))

/-- The members of an object. -/
abbrev Members (ν : Type u) := List (String × Data ν)

namespace Data

/-- What is done at each kind of node. -/
structure Alg (ν : Type u) (α : Type w) where
  null : α
  bool : Bool → α
  number : ν → α
  string : String → α
  array : List α → α
  object : List (String × α) → α

mutual

def fold (a : Alg ν α) : Data ν → α
  | .null => a.null
  | .bool b => a.bool b
  | .number n => a.number n
  | .string s => a.string s
  | .array ts => a.array (foldList a ts)
  | .object ms => a.object (foldMembers a ms)

def foldList (a : Alg ν α) : List (Data ν) → List α
  | [] => []
  | t :: ts => fold a t :: foldList a ts

def foldMembers (a : Alg ν α) : Members ν → List (String × α)
  | [] => []
  | m :: ms => foldMember a m :: foldMembers a ms

def foldMember (a : Alg ν α) : String × Data ν → String × α
  | (k, t) => (k, fold a t)

end

theorem fold_array (a : Alg ν α) (ts : List (Data ν)) :
    fold a (.array ts) = a.array (ts.map (fold a)) := by
  have h : foldList a ts = ts.map (fold a) := by
    induction ts with
    | nil => rfl
    | cons t ts ih => rw [foldList, ih, List.map_cons]
  rw [fold, h]

theorem fold_object (a : Alg ν α) (ms : Members ν) :
    fold a (.object ms) = a.object (ms.map (Prod.map id (fold a))) := by
  have h : foldMembers a ms = ms.map (Prod.map id (fold a)) := by
    induction ms with
    | nil => rfl
    | cons m ms ih =>
      obtain ⟨k, t⟩ := m
      rw [foldMembers, foldMember, ih]
      rfl
  rw [fold, h]

/-- **Induction on a value**: one case for each kind of node. -/
@[elab_as_elim, induction_eliminator] theorem induct {P : Data ν → Prop} (null : P .null)
    (bool : ∀ b, P (.bool b)) (number : ∀ n, P (.number n)) (string : ∀ s, P (.string s))
    (array : ∀ ts, (∀ t ∈ ts, P t) → P (.array ts))
    (object : ∀ ms, (∀ m ∈ ms, P m.2) → P (.object ms)) (t : Data ν) : P t :=
  @Data.rec ν P (fun ts => ∀ t ∈ ts, P t) (fun ms => ∀ m ∈ ms, P m.2) (fun m => P m.2) null bool
    number string array object nofun (fun _ _ h hs => List.forall_mem_cons.mpr ⟨h, hs⟩) nofun
    (fun _ _ h hs => List.forall_mem_cons.mpr ⟨h, hs⟩) (fun _ _ h => h) t

/-! ### Changing the numbers -/

def mapAlg (f : ν → μ) : Alg ν (Data μ) where
  null := .null
  bool := .bool
  number n := .number (f n)
  string := .string
  array := .array
  object := .object

/-- The same value with other numbers. -/
def map (f : ν → μ) : Data ν → Data μ := fold (mapAlg f)

def numbersAlg : Alg ν (List ν) where
  null := []
  bool _ := []
  number n := [n]
  string _ := []
  array := List.flatten
  object ms := (ms.map Prod.snd).flatten

/-- The numbers of a value, at every depth. -/
def numbers : Data ν → List ν := fold numbersAlg

variable (f : ν → μ)

@[simp] theorem map_null : map f .null = .null := rfl
@[simp] theorem map_bool (b : Bool) : map f (.bool b) = .bool b := rfl
@[simp] theorem map_number (n : ν) : map f (.number n) = .number (f n) := rfl
@[simp] theorem map_string (s : String) : map f (.string s) = .string s := rfl

@[simp] theorem map_array (ts : List (Data ν)) : map f (.array ts) = .array (ts.map (map f)) :=
  fold_array _ ts

@[simp] theorem map_object (ms : Members ν) :
    map f (.object ms) = .object (ms.map (Prod.map id (map f))) := fold_object _ ms

@[simp] theorem numbers_null : numbers (.null : Data ν) = [] := rfl
@[simp] theorem numbers_bool (b : Bool) : numbers (.bool b : Data ν) = [] := rfl
@[simp] theorem numbers_number (n : ν) : numbers (.number n) = [n] := rfl
@[simp] theorem numbers_string (s : String) : numbers (.string s : Data ν) = [] := rfl

@[simp] theorem numbers_array (ts : List (Data ν)) :
    numbers (.array ts) = (ts.map numbers).flatten := fold_array _ ts

@[simp] theorem numbers_object (ms : Members ν) :
    numbers (.object ms) = (ms.map fun m => numbers m.2).flatten := by
  unfold numbers
  rw [fold_object]
  simp only [numbersAlg, List.map_map]
  rfl

variable {f}

theorem map_congr {g : ν → μ} (t : Data ν) (h : ∀ n ∈ numbers t, f n = g n) :
    map f t = map g t := by
  induction t with
  | null => rfl
  | bool b => rfl
  | number n => rw [map_number, map_number, h n (by simp)]
  | string s => rfl
  | array ts ih =>
    rw [map_array, map_array, array.injEq]
    refine List.map_congr_left fun t ht => ih t ht fun n hn => h n ?_
    rw [numbers_array]
    exact List.mem_flatten.mpr ⟨_, List.mem_map.mpr ⟨t, ht, rfl⟩, hn⟩
  | object ms ih =>
    rw [map_object, map_object, object.injEq]
    refine List.map_congr_left fun m hm => Prod.ext rfl ?_
    refine ih m hm fun n hn => h n ?_
    rw [numbers_object]
    exact List.mem_flatten.mpr ⟨_, List.mem_map.mpr ⟨m, hm, rfl⟩, hn⟩

theorem map_id (t : Data ν) : map id t = t := by
  induction t with
  | null => rfl
  | bool b => rfl
  | number n => rfl
  | string s => rfl
  | array ts ih => rw [map_array, List.map_congr_left ih, List.map_id']
  | object ms ih =>
    have h : ∀ m ∈ ms, Prod.map id (map id) m = m := fun m hm => Prod.ext rfl (ih m hm)
    rw [map_object, List.map_congr_left h, List.map_id']

theorem map_map {ξ : Type w} (g : μ → ξ) (t : Data ν) : map g (map f t) = map (g ∘ f) t := by
  induction t with
  | null => rfl
  | bool b => rfl
  | number n => rfl
  | string s => rfl
  | array ts ih =>
    rw [map_array, map_array, map_array, List.map_map]
    exact congrArg array (List.map_congr_left ih)
  | object ms ih =>
    rw [map_object, map_object, map_object, List.map_map]
    exact congrArg object (List.map_congr_left fun m hm => Prod.ext rfl (ih m hm))

theorem numbers_map (t : Data ν) : numbers (map f t) = (numbers t).map f := by
  induction t with
  | null => rfl
  | bool b => rfl
  | number n => rfl
  | string s => rfl
  | array ts ih =>
    rw [map_array, numbers_array, numbers_array, List.map_map, List.map_flatten, List.map_map]
    exact congrArg List.flatten (List.map_congr_left ih)
  | object ms ih =>
    rw [map_object, numbers_object, numbers_object, List.map_map, List.map_flatten, List.map_map]
    exact congrArg List.flatten (List.map_congr_left ih)

/-! ### Related values -/

/-- The values have the same shape, and their numbers are related one by one. -/
def Related (R : ν → μ → Prop) (t : Data ν) (u : Data μ) : Prop :=
  map (fun _ => ()) t = map (fun _ => ()) u ∧ List.Forall₂ R (numbers t) (numbers u)

/-- **A value and its image are related** exactly if each of its numbers is related to its own. -/
theorem related_map_iff {R : ν → μ → Prop} (t : Data ν) :
    Related R t (map f t) ↔ ∀ n ∈ numbers t, R n (f n) := by
  rw [Related, map_map, numbers_map, List.forall₂_map_right_iff, List.forall₂_same]
  exact and_iff_right rfl

/-- Members of the same names with related values. -/
def RelatedMembers (R : ν → μ → Prop) : Members ν → Members μ → Prop :=
  List.Forall₂ fun m n => m.1 = n.1 ∧ Related R m.2 n.2

theorem relatedMembers_map_iff {R : ν → μ → Prop} {g : Data ν → Data μ} {ms : Members ν} :
    RelatedMembers R ms (ms.map (Prod.map id g)) ↔ ∀ m ∈ ms, Related R m.2 (g m.2) := by
  rw [RelatedMembers, List.forall₂_map_right_iff, List.forall₂_same]
  simp

/-! ### The order of the members -/

/-- Put a member among members in order, unless there is one of its name. -/
def insertMember (m : String × α) : List (String × α) → List (String × α)
  | [] => [m]
  | n :: ns =>
      if m.1 < n.1 then m :: n :: ns
      else if m.1 = n.1 then n :: ns
      else n :: insertMember m ns

/-- The members in the order of their names; of one name the last one counts. -/
def sortMembers (ms : List (String × α)) : List (String × α) := ms.foldr insertMember []

def canonAlg : Alg ν (Data ν) where
  null := .null
  bool := .bool
  number := .number
  string := .string
  array := .array
  object ms := .object (sortMembers ms)

/-- The value with the members of every object in order. -/
def canon : Data ν → Data ν := fold canonAlg

@[simp] theorem canon_array (ts : List (Data ν)) : canon (.array ts) = .array (ts.map canon) :=
  fold_array _ ts

@[simp] theorem canon_object (ms : Members ν) :
    canon (.object ms) = .object (sortMembers (ms.map (Prod.map id canon))) := fold_object _ ms

theorem map_sortMembers {β : Type v} (g : α → β) (ms : List (String × α)) :
    (sortMembers ms).map (Prod.map id g) = sortMembers (ms.map (Prod.map id g)) := by
  have h : ∀ (m : String × α) (ns : List (String × α)),
      (insertMember m ns).map (Prod.map id g) =
        insertMember (Prod.map id g m) (ns.map (Prod.map id g)) := by
    intro m ns
    induction ns with
    | nil => rfl
    | cons n ns ih =>
      simp only [insertMember, List.map_cons, Prod.map_fst, id_eq]
      split_ifs
      · rfl
      · rfl
      · rw [List.map_cons, ih]
  induction ms with
  | nil => rfl
  | cons m ms ih =>
    simp only [sortMembers, List.foldr_cons, List.map_cons] at ih ⊢
    rw [h, ih]

/-- **Ordering the members and changing the numbers** go past each other. -/
theorem canon_map (t : Data ν) : canon (map f t) = map f (canon t) := by
  induction t with
  | null => rfl
  | bool b => rfl
  | number n => rfl
  | string s => rfl
  | array ts ih =>
    rw [map_array, canon_array, canon_array, map_array, List.map_map, List.map_map]
    exact congrArg array (List.map_congr_left ih)
  | object ms ih =>
    rw [map_object, canon_object, canon_object, map_object, map_sortMembers, List.map_map,
      List.map_map]
    exact congrArg (fun ms => object (sortMembers ms))
      (List.map_congr_left fun m hm => Prod.ext rfl (ih m hm))

theorem insertMember_ne_nil (m : String × α) (ns : List (String × α)) : insertMember m ns ≠ [] := by
  cases ns with
  | nil => exact List.cons_ne_nil _ _
  | cons n ns =>
    rw [insertMember]
    split_ifs <;> exact List.cons_ne_nil _ _

theorem sortMembers_eq_nil {ms : List (String × α)} (h : sortMembers ms = []) : ms = [] := by
  cases ms with
  | nil => rfl
  | cons m ms => exact absurd h (insertMember_ne_nil m _)

theorem mem_of_mem_insertMember {m n : String × α} {ns : List (String × α)}
    (h : n ∈ insertMember m ns) : n = m ∨ n ∈ ns := by
  induction ns with
  | nil => exact Or.inl (List.mem_singleton.mp h)
  | cons k ns ih =>
    rw [insertMember] at h
    split_ifs at h
    · exact List.mem_cons.mp h
    · exact Or.inr h
    · rcases List.mem_cons.mp h with rfl | h
      · exact Or.inr List.mem_cons_self
      · exact (ih h).imp id (List.mem_cons_of_mem k)

theorem mem_of_mem_sortMembers {n : String × α} {ms : List (String × α)}
    (h : n ∈ sortMembers ms) : n ∈ ms := by
  induction ms with
  | nil => exact h
  | cons m ms ih =>
    rcases mem_of_mem_insertMember h with rfl | h
    · exact List.mem_cons_self
    · exact List.mem_cons_of_mem m (ih h)

/-- Only an empty object is an empty one in order. -/
theorem eq_of_canon_empty {t : Data ν} (h : canon t = .object []) : t = .object [] := by
  cases t with
  | object ms =>
    rw [canon_object, object.injEq] at h
    rw [List.map_eq_nil_iff.mp (sortMembers_eq_nil h)]
  | array ts =>
    rw [canon_array] at h
    cases h
  | null | bool | number | string => cases h

/-- Ordering the members brings no number in. -/
theorem mem_numbers_of_canon (t : Data ν) : ∀ n ∈ numbers (canon t), n ∈ numbers t := by
  induction t with
  | null => exact fun _ h => h
  | bool b => exact fun _ h => h
  | number n => exact fun _ h => h
  | string s => exact fun _ h => h
  | array ts ih =>
    intro n hn
    rw [canon_array, numbers_array, List.map_map] at hn
    obtain ⟨l, hl, hnl⟩ := List.mem_flatten.mp hn
    obtain ⟨t, ht, rfl⟩ := List.mem_map.mp hl
    rw [numbers_array]
    exact List.mem_flatten.mpr ⟨_, List.mem_map.mpr ⟨t, ht, rfl⟩, ih t ht n hnl⟩
  | object ms ih =>
    intro n hn
    rw [canon_object, numbers_object] at hn
    obtain ⟨l, hl, hnl⟩ := List.mem_flatten.mp hn
    obtain ⟨k, hk, rfl⟩ := List.mem_map.mp hl
    obtain ⟨m, hm, rfl⟩ := List.mem_map.mp (mem_of_mem_sortMembers hk)
    rw [numbers_object]
    exact List.mem_flatten.mpr ⟨_, List.mem_map.mpr ⟨m, hm, rfl⟩, ih m hm n hnl⟩

/-! ### Syntax -/

def toValueAlg : Alg Number Value where
  null := .null
  bool := .bool
  number := .number
  string := .string
  array := .array
  object := .object

def toValue : Data Number → Value := fold toValueAlg

mutual

/-- What a value denotes before its members are ordered. -/
def ofValue : Value → Data Number
  | .null => .null
  | .bool b => .bool b
  | .number n => .number n
  | .string s => .string s
  | .array vs => .array (ofValues vs)
  | .object ms => .object (ofMembers ms)

def ofValues : List Value → List (Data Number)
  | [] => []
  | v :: vs => ofValue v :: ofValues vs

def ofMembers : List (String × Value) → Members Number
  | [] => []
  | m :: ms => ofMember m :: ofMembers ms

def ofMember : String × Value → String × Data Number
  | (k, v) => (k, ofValue v)

end

/-- **The syntax of a value denotes it.** -/
theorem ofValue_toValue (t : Data Number) : ofValue (toValue t) = t := by
  induction t with
  | null => rfl
  | bool b => rfl
  | number n => rfl
  | string s => rfl
  | array ts ih =>
    have h : ∀ us : List (Data Number), (∀ u ∈ us, ofValue (toValue u) = u) →
        ofValues (us.map toValue) = us := by
      intro us hus
      induction us with
      | nil => rfl
      | cons u us ihs =>
        rw [List.forall_mem_cons] at hus
        rw [List.map_cons, ofValues, hus.1, ihs hus.2]
    rw [toValue, fold_array]
    exact congrArg array (h ts ih)
  | object ms ih =>
    have h : ∀ ns : Members Number, (∀ n ∈ ns, ofValue (toValue n.2) = n.2) →
        ofMembers (ns.map (Prod.map id toValue)) = ns := by
      intro ns hns
      induction ns with
      | nil => rfl
      | cons n ns ihs =>
        rw [List.forall_mem_cons] at hns
        rw [List.map_cons, ofMembers, ihs hns.2]
        exact congrArg (· :: ns) (Prod.ext rfl hns.1)
    rw [toValue, fold_object]
    exact congrArg object (h ms ih)

end Data

end Lib.Json
