import MqStudio.Lib.OrderedMap
import MqStudio.Lib.Text

/-!
# Records of JavaScript

An object that is used as a map from names to values, by its own properties.  `__proto__` is not one
of them: setting it sets what the object inherits from, and not a property.

* `Record.assign`, `Record.get?`, `Record.ofEntries`: setting and reading properties.
* `Record.mapEntries`, `Record.remove`: values changed in place, and properties deleted.
* `Record.ownEntries`: the properties in order, the array indices in front by their number.
* `inheritedNames`: the names that read something though they were never set.
-/

namespace Lib

universe u v

/-- The names that every object inherits. -/
def inheritedNames : List String :=
  ["constructor", "__defineGetter__", "__defineSetter__", "hasOwnProperty", "__lookupGetter__",
    "__lookupSetter__", "isPrototypeOf", "propertyIsEnumerable", "toString", "valueOf", "__proto__",
    "toLocaleString"]

def protoName : String := "__proto__"

/-- The own properties of an object. -/
structure Record (α : Type u) where
  map : OrderedMap String α
  own : map.get? protoName = none

/-- The array index a name is, as it is printed. -/
def arrayIndex (name : String) : Option ℕ :=
  let n := Nat.ofDigitChars 10 name.toList 0
  if Nat.repr n = name ∧ n < 2 ^ 32 - 1 then some n else none

namespace Record

variable {α : Type u} {β : Type v}

def empty : Record α := ⟨.empty, rfl⟩

def get? (r : Record α) (name : String) : Option α := r.map.get? name

/-- `r[name] = value`. -/
def assign (r : Record α) (name : String) (value : α) : Record α :=
  if h : name = protoName then r
  else ⟨r.map.set name value, by rw [OrderedMap.get?_set, if_neg h, r.own]⟩

/-- `Object.fromEntries`. -/
def ofEntries (entries : List (String × α)) : Record α :=
  entries.foldl (fun r e => r.assign e.1 e.2) empty

def byIndex (a b : String × α) : Bool := (arrayIndex a.1).getD 0 ≤ (arrayIndex b.1).getD 0

/-- `Object.entries`: the array indices by their number, and the other names as they were set. -/
def ownEntries (r : Record α) : List (String × α) :=
  (r.map.entries.filter fun e => (arrayIndex e.1).isSome).mergeSort byIndex ++
    r.map.entries.filter fun e => !(arrayIndex e.1).isSome

theorem get?_protoName (r : Record α) : r.get? protoName = none := r.own

theorem get?_empty (name : String) : (empty : Record α).get? name = none := rfl

theorem get?_assign {r : Record α} {name : String} (h : name ≠ protoName) (value : α)
    (other : String) :
    (r.assign name value).get? other = if name = other then some value else r.get? other := by
  rw [assign, dif_neg h]
  exact OrderedMap.get?_set _ _ _ _

/-- The order does not change which properties there are. -/
theorem perm_ownEntries (r : Record α) : r.ownEntries.Perm r.map.entries := by
  rw [ownEntries]
  refine ((List.mergeSort_perm _ _).append_right _).trans ?_
  exact List.filter_append_perm _ _

/-- Names that are no array index stay as they were set. -/
theorem ownEntries_eq {r : Record α} (h : ∀ e ∈ r.map.entries, arrayIndex e.1 = none) :
    r.ownEntries = r.map.entries := by
  have hindex : (r.map.entries.filter fun e => (arrayIndex e.1).isSome) = [] :=
    List.filter_eq_nil_iff.mpr fun e he => by simp [h e he]
  have hnames : (r.map.entries.filter fun e => !(arrayIndex e.1).isSome) = r.map.entries :=
    List.filter_eq_self.mpr fun e he => by simp [h e he]
  rw [ownEntries, hindex, hnames, List.mergeSort_nil, List.nil_append]

theorem nodup_ownEntries (r : Record α) : (r.ownEntries.map Prod.fst).Nodup :=
  (r.perm_ownEntries.map Prod.fst).nodup_iff.mpr r.map.nodup

theorem mem_ownEntries {r : Record α} {e : String × α} :
    e ∈ r.ownEntries ↔ r.get? e.1 = some e.2 := by
  rw [r.perm_ownEntries.mem_iff]
  exact OrderedMap.mem_entries

theorem ne_protoName_of_mem {r : Record α} {e : String × α} (h : e ∈ r.ownEntries) :
    e.1 ≠ protoName := by
  intro he
  have hget := mem_ownEntries.mp h
  rw [he, get?_protoName] at hget
  cases hget

theorem get?_foldl_assign {entries : List (String × α)} (hnodup : (entries.map Prod.fst).Nodup)
    (hown : ∀ e ∈ entries, e.1 ≠ protoName) {r : Record α} {name : String} {value : α} :
    (entries.foldl (fun r e => r.assign e.1 e.2) r).get? name = some value ↔
      (name, value) ∈ entries ∨ name ∉ entries.map Prod.fst ∧ r.get? name = some value := by
  induction entries generalizing r with
  | nil => simp
  | cons e rest ih =>
    obtain ⟨hnew, hrest⟩ := List.nodup_cons.mp hnodup
    rw [List.foldl_cons, ih hrest fun x hx => hown x (List.mem_cons_of_mem _ hx),
      get?_assign (hown e List.mem_cons_self), List.mem_cons, List.map_cons, List.mem_cons, not_or]
    by_cases he : e.1 = name
    · subst he
      have hnone : ¬(e.1, value) ∈ rest := fun h => hnew (List.mem_map.mpr ⟨_, h, rfl⟩)
      rw [if_pos rfl]
      constructor
      · rintro (h | ⟨-, h⟩)
        · exact absurd h hnone
        · exact .inl (.inl (by rw [← Option.some.inj h]))
      · rintro ((h | h) | ⟨h, -⟩)
        · exact .inr ⟨hnew, by rw [← h]⟩
        · exact absurd h hnone
        · exact absurd rfl h.1
    · have hne : ¬(name, value) = e := fun h => he (by rw [← h])
      rw [if_neg he]
      have hne' : ¬name = e.1 := fun h => he h.symm
      simp only [hne, hne', false_or, not_false_eq_true, true_and]

/-- Entries for different names are what is read. -/
theorem get?_ofEntries {entries : List (String × α)} (hnodup : (entries.map Prod.fst).Nodup)
    (hown : ∀ e ∈ entries, e.1 ≠ protoName) {name : String} {value : α} :
    (ofEntries entries).get? name = some value ↔ (name, value) ∈ entries := by
  rw [ofEntries, get?_foldl_assign hnodup hown]
  simp [get?_empty]

/-- As many properties as entries. -/
theorem perm_ownEntries_ofEntries {entries : List (String × α)}
    (hnodup : (entries.map Prod.fst).Nodup) (hown : ∀ e ∈ entries, e.1 ≠ protoName) :
    (ofEntries entries).ownEntries.Perm entries := by
  refine (List.perm_ext_iff_of_nodup (nodup_ownEntries _).of_map hnodup.of_map).mpr fun e => ?_
  rw [mem_ownEntries, get?_ofEntries hnodup hown]

/-! ### Values changed in place -/

/-- Each value changed, the names and their order kept. -/
def mapEntries (f : String → α → β) (r : Record α) : Record β where
  map := ⟨r.map.entries.map fun e => (e.1, f e.1 e.2), by
    rw [List.map_map]
    exact r.map.nodup⟩
  own := by
    by_contra hsome
    obtain ⟨value, hvalue⟩ := Option.ne_none_iff_exists'.mp hsome
    obtain ⟨e, he, heq⟩ := List.mem_map.mp (OrderedMap.mem_entries.mpr hvalue)
    have hget := OrderedMap.mem_entries.mp (show (e.1, e.2) ∈ r.map.entries from he)
    rw [(Prod.mk.inj heq).1, r.own] at hget
    cases hget

theorem get?_mapEntries (f : String → α → β) (r : Record α) (name : String) :
    (r.mapEntries f).get? name = (r.get? name).map (f name) := by
  have hiff : ∀ value, (r.mapEntries f).get? name = some value ↔
      (r.get? name).map (f name) = some value := by
    intro value
    rw [get?, ← OrderedMap.mem_entries, Option.map_eq_some_iff]
    show (name, value) ∈ r.map.entries.map _ ↔ _
    rw [List.mem_map]
    constructor
    · rintro ⟨e, he, heq⟩
      obtain ⟨rfl, rfl⟩ := Prod.mk.inj heq
      exact ⟨e.2, OrderedMap.mem_entries.mp he, rfl⟩
    · rintro ⟨old, hold, rfl⟩
      exact ⟨(name, old), OrderedMap.mem_entries.mpr hold, rfl⟩
  exact Option.ext hiff

theorem ownEntries_mapEntries (f : String → α → β) (r : Record α) :
    (r.mapEntries f).ownEntries = r.ownEntries.map fun e => (e.1, f e.1 e.2) := by
  rw [ownEntries, ownEntries, List.map_append]
  show (((r.map.entries.map fun e => (e.1, f e.1 e.2)).filter _).mergeSort _ ++
    (r.map.entries.map fun e => (e.1, f e.1 e.2)).filter _) = _
  rw [List.filter_map, List.filter_map]
  congr 1
  have hsame : ∀ a b : String × α, byIndex a b = byIndex (a.1, f a.1 a.2) (b.1, f b.1 b.2) :=
    fun _ _ => rfl
  exact (List.map_mergeSort fun a _ b _ => hsame a b).symm

theorem setEntries_eq_map {name : String} {entries : List (String × α)}
    (hnodup : (entries.map Prod.fst).Nodup) (value other : α) :
    OrderedMap.setEntries name value entries = (OrderedMap.setEntries name other entries).map
      fun e => (e.1, if e.1 = name then value else e.2) := by
  induction entries with
  | nil => simp [OrderedMap.setEntries]
  | cons e rest ih =>
    obtain ⟨hnew, hrest⟩ := List.nodup_cons.mp hnodup
    by_cases he : e.1 = name
    · have hkept : (rest.map fun x => (x.1, if x.1 = name then value else x.2)) = rest := by
        refine (List.map_congr_left fun x hx => ?_).trans (List.map_id rest)
        have hne : x.1 ≠ name := fun h => hnew (he ▸ h ▸ List.mem_map_of_mem hx)
        rw [if_neg hne]
        rfl
      rw [OrderedMap.setEntries, OrderedMap.setEntries, if_pos he, if_pos he, List.map_cons, hkept,
        if_pos rfl]
    · rw [OrderedMap.setEntries, OrderedMap.setEntries, if_neg he, if_neg he, List.map_cons,
        ih hrest, if_neg he]

/-- Which value is set does not change the order. -/
theorem ownEntries_assign {r : Record α} {name : String} (h : name ≠ protoName)
    (value other : α) : (r.assign name value).ownEntries =
      (r.assign name other).ownEntries.map fun e => (e.1, if e.1 = name then value else e.2) := by
  have hmap : r.assign name value =
      (r.assign name other).mapEntries fun n a => if n = name then value else a := by
    have hentries : (r.assign name value).map.entries = ((r.assign name other).mapEntries
        fun n a => if n = name then value else a).map.entries := by
      rw [assign, dif_neg h, assign, dif_neg h]
      exact setEntries_eq_map r.map.nodup value other
    generalize r.assign name value = a at hentries ⊢
    generalize (r.assign name other).mapEntries _ = b at hentries ⊢
    obtain ⟨⟨entries, _⟩, _⟩ := a
    obtain ⟨⟨entries', _⟩, _⟩ := b
    obtain rfl : entries = entries' := hentries
    rfl
  rw [hmap, ownEntries_mapEntries]

/-! ### Removing -/

theorem mem_filter_entries {r : Record α} {name other : String} {value : α} :
    (other, value) ∈ r.map.entries.filter (fun e => e.1 ≠ name) ↔
      r.get? other = some value ∧ other ≠ name := by
  rw [List.mem_filter, OrderedMap.mem_entries]
  simp [get?]

/-- `delete r[name]`. -/
def remove (r : Record α) (name : String) : Record α where
  map := ⟨r.map.entries.filter fun e => e.1 ≠ name,
    r.map.nodup.sublist (List.filter_sublist.map Prod.fst)⟩
  own := by
    by_contra hsome
    obtain ⟨value, hvalue⟩ := Option.ne_none_iff_exists'.mp hsome
    have hget := (mem_filter_entries.mp (OrderedMap.mem_entries.mpr hvalue)).1
    rw [get?_protoName] at hget
    cases hget

theorem get?_remove (r : Record α) (name other : String) :
    (r.remove name).get? other = if other = name then none else r.get? other := by
  have hiff : ∀ value, (r.remove name).get? other = some value ↔
      (if other = name then none else r.get? other) = some value := by
    intro value
    rw [get?, ← OrderedMap.mem_entries]
    show (other, value) ∈ r.map.entries.filter _ ↔ _
    rw [mem_filter_entries]
    by_cases h : other = name
    · simp [h]
    · simp [h]
  exact Option.ext hiff

end Record

end Lib
