import MqStudio.Lib.Json.Decode

/-!
# Objects whose members are not read yet

Go's `map[string]json.RawMessage`: an object taken apart by name, the last of two members of one
name kept, and written again with the names in order.

* `ofRaw_readRaw_encodeStruct`: a structure that is taken apart and written again has its members in
  the order of their names.
-/

namespace Lib.Json

universe u

variable {α : Type u}

/-- A map that is not nil. -/
abbrev RawMap := Std.ExtTreeMap String Value compare

def rawMembers (ms : List (String × Value)) : RawMap :=
  ms.foldl (fun m e => m.insert e.1 e.2) ∅

/-- `json.Unmarshal` onto a nil map; none where the value is of another kind. -/
def readRaw : Value → Option (Option RawMap)
  | .null => some none
  | .object ms => some (some (rawMembers ms))
  | _ => none

/-- `json.Marshal` of the map. -/
def ofRaw : Option RawMap → Value
  | none => .null
  | some m => .object m.toList

/-- Two lists of entries in the order of their keys are equal if they hold the same. -/
theorem eq_of_sorted {l l' : List (String × Value)}
    (hs : l.Pairwise fun a b => compare a.1 b.1 = .lt)
    (hs' : l'.Pairwise fun a b => compare a.1 b.1 = .lt) (h : ∀ e, e ∈ l ↔ e ∈ l') : l = l' := by
  have hnodup : ∀ {l : List (String × Value)}, (l.Pairwise fun a b => compare a.1 b.1 = .lt) →
      l.Nodup := by
    intro l hl
    refine hl.imp fun {a b} hlt heq => ?_
    subst heq
    exact absurd ((Std.compare_eq_iff_eq (a := a.1)).mpr rfl) (by rw [hlt]; decide)
  have hperm : l.Perm l' := (List.perm_ext_iff_of_nodup (hnodup hs) (hnodup hs')).mpr h
  refine hperm.eq_of_pairwise (fun a b _ _ hab hba => ?_) hs hs'
  have hgt : compare a.1 b.1 = .gt := Std.OrientedCmp.gt_of_lt hba
  rw [hab] at hgt
  cases hgt

theorem toList_rawMembers {ms sorted : List (String × Value)} (hn : (ms.map Prod.fst).Nodup)
    (hp : sorted.Perm ms) (hs : sorted.Pairwise fun a b => compare a.1 b.1 = .lt) :
    (rawMembers ms).toList = sorted := by
  refine eq_of_sorted Std.ExtTreeMap.ordered_keys_toList hs fun e => ?_
  have hkey : ∀ a ∈ ms, ∀ b ∈ ms, a.1 = b.1 → a.2 = b.2 := fun a ha b hb hab =>
    congrArg Prod.snd (List.inj_on_of_nodup_map hn ha hb hab)
  rw [Std.ExtTreeMap.mem_toList_iff_getElem?_eq_some, rawMembers, Maps.getElem?_foldl_insert hkey,
    hp.mem_iff]
  constructor
  · rintro ⟨a, ha, hk, hv⟩
    exact Prod.ext hk hv ▸ ha
  · exact fun he => ⟨e, he, rfl, rfl⟩

/-- What a member is written as. -/
def Member.written (a : α) (f : Member α) : Option (String × Value) :=
  (f.enc a).map fun v => (f.name, v)

theorem name_of_written {a : α} {f : Member α} {e : String × Value} (h : f.written a = some e) :
    e.1 = f.name := by
  obtain ⟨v, -, rfl⟩ := Option.map_eq_some_iff.mp h
  rfl

/-- **A structure taken apart and written again** has its members in the order of their names. -/
theorem ofRaw_readRaw_encodeStruct {fs sorted : List (Member α)} (hn : (fs.map Member.name).Nodup)
    (hp : sorted.Perm fs) (hs : sorted.Pairwise fun f g => compare f.name g.name = .lt) (a : α) :
    (readRaw (encodeStruct fs a)).map ofRaw = some (encodeStruct sorted a) := by
  have hnames : ((fs.filterMap (Member.written a)).map Prod.fst).Nodup := by
    refine hn.sublist ?_
    clear hn hp hs
    induction fs with
    | nil => exact .slnil
    | cons f fs ih =>
      cases hw : f.written a with
      | none =>
        rw [List.filterMap_cons_none hw]
        exact ih.cons _
      | some e =>
        rw [List.filterMap_cons_some hw, List.map_cons, List.map_cons, name_of_written hw]
        exact ih.cons_cons _
  have hsorted : (sorted.filterMap (Member.written a)).Pairwise fun a b =>
      compare a.1 b.1 = .lt := by
    refine List.Pairwise.filterMap _ (fun f g hlt e he e' he' => ?_) hs
    rw [name_of_written he, name_of_written he']
    exact hlt
  have hlist := toList_rawMembers hnames (hp.filterMap _) hsorted
  show some (Value.object (rawMembers (fs.filterMap (Member.written a))).toList) = _
  rw [hlist]
  rfl

end Lib.Json
