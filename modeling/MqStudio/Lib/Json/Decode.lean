import MqStudio.Lib.Json.RoundTrip
import MqStudio.Lib.Maps
import MqStudio.Lib.Text

/-!
# Reading JSON values into typed data

What Go's `Unmarshal` does once the text is parsed.  A value is read *onto* the
data that is already there: `null` leaves a scalar alone and clears a map or a
pointer, the members of an object are read one after another, and a part of the
wrong type is reported while the rest is still read.  A `Decoder` therefore
returns the new data together with a flag that is off where some part had the
wrong type.

A structure is described once, by its list of `Member`s: `encodeStruct` writes
the members in that order and `decodeStruct` looks each member up by its exact
name, then by its name up to case.

* `decodeStruct_encodeStruct`: reading a written structure reads the fields one
  after another, each from what it wrote.
* `decodeInt_encodeInt`, `decodeMap_encodeMap`: integers and maps read back.
-/

namespace Lib.Json

universe u v

variable {α : Type u} {β : Type v}

/-- How a type is read onto the data that is there; the flag is off on a type error. -/
abbrev Decoder (α : Type u) := α → Value → α × Bool

/-- Read all of a list of members, one after another. -/
def decodeAll (step : α → β → α × Bool) : α → List β → α × Bool
  | a, [] => (a, true)
  | a, b :: bs =>
      ((decodeAll step (step a b).1 bs).1, (step a b).2 && (decodeAll step (step a b).1 bs).2)

/-! ### Scalars -/

def decodeBool : Decoder Bool
  | old, .null => (old, true)
  | _, .bool b => (b, true)
  | old, _ => (old, false)

def decodeString : Decoder String
  | old, .null => (old, true)
  | _, .string s => (s, true)
  | old, _ => (old, false)

/-- The integer a literal without fraction and exponent names. -/
def integer : List Char → Option Int
  | [] => none
  | c :: cs =>
      if c = '-' then
        if isDigits cs then some (-(Nat.ofDigitChars 10 cs 0 : Int)) else none
      else if isDigits (c :: cs) then some (Nat.ofDigitChars 10 (c :: cs) 0 : Int)
      else none

/-- `strconv.ParseInt(lit, 10, 64)`. -/
def parseInt (lit : List Char) : Option Int :=
  (integer lit).filter fun i => -2 ^ 63 ≤ i && i < 2 ^ 63

def decodeInt : Decoder Int
  | old, .null => (old, true)
  | old, .number n =>
      match parseInt n.lit with
      | some i => (i, true)
      | none => (old, false)
  | old, _ => (old, false)

def decodeInt64 : Decoder Int64 := fun old v =>
  ((Int64.ofInt (decodeInt old.toInt v).1), (decodeInt old.toInt v).2)

/-- The decimal literal of an integer. -/
def intLit : Int → List Char
  | .ofNat n => Nat.toDigits 10 n
  | .negSucc n => '-' :: Nat.toDigits 10 (n + 1)

theorem isDigits_toDigits (n : Nat) : isDigits (Nat.toDigits 10 n) := by
  simp only [isDigits, Bool.and_eq_true, Bool.not_eq_true', List.isEmpty_eq_false_iff,
    List.all_eq_true]
  exact ⟨Nat.toDigits_ne_nil, fun c hc => Nat.isDigit_of_mem_toDigits (by decide) (by decide) hc⟩

/-- The first digit of a positive number is no zero. -/
theorem head?_toDigits {n : Nat} (h : 0 < n) : (Nat.toDigits 10 n).head? ≠ some '0' := by
  induction n using Nat.strong_induction_on with
  | _ n ih =>
    by_cases hn : n < 10
    · rw [Nat.toDigits_of_lt_base hn]
      interval_cases n <;> decide
    · rw [Nat.toDigits_of_base_le (by decide) (by omega),
        List.head?_append_of_ne_nil _ Nat.toDigits_ne_nil]
      exact ih (n / 10) (by omega) (by omega)

theorem isUnsigned_toDigits (n : Nat) : isUnsigned (Nat.toDigits 10 n) := by
  rcases Nat.eq_zero_or_pos n with rfl | hn
  · decide
  have hd := isDigits_toDigits n
  have hh := head?_toDigits hn
  cases hc : Nat.toDigits 10 n with
  | nil => exact absurd hc Nat.toDigits_ne_nil
  | cons c cs =>
    rw [hc] at hd hh
    simp only [isDigits, List.all_cons, Bool.and_eq_true, List.all_eq_true] at hd
    have h0 : (c == '0') = false := by simpa using hh
    have hdrop : cs.dropWhile Char.isDigit = [] := List.dropWhile_eq_nil_iff.mpr hd.2.2
    simp [isUnsigned, h0, hd.2.1, hdrop, isFraction]

theorem isNumber_intLit (i : Int) : isNumber (intLit i) := by
  cases i with
  | ofNat n =>
    have h := isUnsigned_toDigits n
    have hd := isDigits_toDigits n
    simp only [intLit]
    cases hc : Nat.toDigits 10 n with
    | nil => exact absurd hc Nat.toDigits_ne_nil
    | cons c cs =>
      rw [hc] at h hd
      have hm : (c == '-') = false := by
        simp only [isDigits, List.all_cons, Bool.and_eq_true] at hd
        rw [beq_eq_false_iff_ne]
        rintro rfl
        exact absurd hd.2.1 (by decide)
      rw [isNumber, hm]
      exact h
  | negSucc n => exact isUnsigned_toDigits (n + 1)

/-- The number an integer is written as. -/
def ofInt (i : Int) : Value := .number ⟨intLit i, isNumber_intLit i⟩

theorem integer_intLit (i : Int) : integer (intLit i) = some i := by
  cases i with
  | ofNat n =>
    have hd := isDigits_toDigits n
    have ho : Nat.ofDigitChars 10 (Nat.toDigits 10 n) 0 = n := Nat.ofDigitChars_ten_toDigits
    simp only [intLit]
    cases hc : Nat.toDigits 10 n with
    | nil => exact absurd hc Nat.toDigits_ne_nil
    | cons c cs =>
      rw [hc] at hd ho
      have hm : c ≠ '-' := by
        simp only [isDigits, List.all_cons, Bool.and_eq_true] at hd
        rintro rfl
        exact absurd hd.2.1 (by decide)
      rw [integer, if_neg hm, if_pos hd, ho]
      rfl
  | negSucc n =>
    rw [intLit, integer, if_pos rfl, if_pos (isDigits_toDigits _), Nat.ofDigitChars_ten_toDigits]
    rfl

/-- **An integer reads back**, where it fits 64 bits. -/
theorem decodeInt_ofInt (old : Int) {i : Int} (h : -2 ^ 63 ≤ i ∧ i < 2 ^ 63) :
    decodeInt old (ofInt i) = (i, true) := by
  have hp : parseInt (intLit i) = some i := by
    rw [parseInt, integer_intLit]
    simpa [Option.filter] using h
  simp only [decodeInt, ofInt, hp]

@[simp] theorem decodeInt64_ofInt (old i : Int64) :
    decodeInt64 old (ofInt i.toInt) = (i, true) := by
  rw [decodeInt64, decodeInt_ofInt _ ⟨i.le_toInt, i.toInt_lt⟩]
  simp

/-! ### Maps, pointers, slices -/

/-- A Go `map[string]string` that is not nil. -/
abbrev StringMap := Std.ExtTreeMap String String compare

/-- Read one entry of a map: the element starts out empty. -/
def decodeEntry (m : StringMap) (e : String × Value) : StringMap × Bool :=
  (m.insert e.1 (decodeString "" e.2).1, (decodeString "" e.2).2)

/-- A map that may be nil. -/
def decodeMap : Decoder (Option StringMap)
  | _, .null => (none, true)
  | old, .object ms =>
      (some (decodeAll decodeEntry (old.getD ∅) ms).1, (decodeAll decodeEntry (old.getD ∅) ms).2)
  | old, _ => (old, false)

/-- The entries in the order of their keys. -/
def ofMap (m : StringMap) : Value := .object (m.toList.map fun e => (e.1, .string e.2))

def encodeMap : Option StringMap → Value
  | none => .null
  | some m => ofMap m

theorem decodeAll_ok (step : α → β → α × Bool) (f : α → β → α) (bs : List β)
    (h : ∀ a, ∀ b ∈ bs, step a b = (f a b, true)) (a : α) :
    decodeAll step a bs = (bs.foldl f a, true) := by
  induction bs generalizing a with
  | nil => rfl
  | cons b bs ih =>
    rw [decodeAll, h a b (by simp), ih fun a c hc => h a c (by simp [hc])]
    rfl

/-- **A map reads back**, onto none or an empty one. -/
theorem decodeMap_encodeMap {old : Option StringMap} (h : old = none ∨ old = some ∅)
    (m : Option StringMap) : decodeMap old (encodeMap m) = (m, true) := by
  cases m with
  | none => cases old <;> rfl
  | some m =>
    have h0 : old.getD ∅ = ∅ := by rcases h with rfl | rfl <;> rfl
    have hall := decodeAll_ok decodeEntry (fun m e => m.insert e.1 (decodeString "" e.2).1)
      (m.toList.map fun e => (e.1, Value.string e.2))
      (by
        intro a b hb
        obtain ⟨e, -, rfl⟩ := List.mem_map.mp hb
        rfl) ∅
    have hf := Maps.foldl_insert_toList m
    simp only [encodeMap, ofMap, decodeMap, h0, hall, List.foldl_map, decodeString]
    rw [hf]

/-- A pointer: `null` clears it, anything else is read onto what it points at. -/
def decodePointer (zero : α) (dec : Decoder α) : Decoder (Option α)
  | _, .null => (none, true)
  | old, v => (some (dec (old.getD zero) v).1, (dec (old.getD zero) v).2)

/-- The elements of a slice, read onto the elements that are there. -/
def decodeElements (zero : α) (dec : Decoder α) : List α → List Value → List α × Bool
  | _, [] => ([], true)
  | olds, v :: vs =>
      ((dec (olds.headD zero) v).1 :: (decodeElements zero dec olds.tail vs).1,
        (dec (olds.headD zero) v).2 && (decodeElements zero dec olds.tail vs).2)

/-- A slice that may be nil. -/
def decodeSlice (zero : α) (dec : Decoder α) : Decoder (Option (List α))
  | _, .null => (none, true)
  | old, .array vs =>
      (some (decodeElements zero dec (old.getD []) vs).1,
        (decodeElements zero dec (old.getD []) vs).2)
  | old, _ => (old, false)

/-- An object is read onto what a nil pointer would point at. -/
theorem decodePointer_object {zero : α} {dec : Decoder α} {ms : List (String × Value)} :
    decodePointer zero dec none (.object ms) =
      (some (dec zero (.object ms)).1, (dec zero (.object ms)).2) := rfl

theorem decodeElements_map {zero : α} {dec : Decoder α} {enc : β → Value} {out : β → α}
    {bs : List β} (h : ∀ b ∈ bs, dec zero (enc b) = (out b, true)) :
    decodeElements zero dec [] (bs.map enc) = (bs.map out, true) := by
  induction bs with
  | nil => rfl
  | cons b bs ih =>
    rw [List.map_cons, decodeElements, List.headD_nil, List.tail_nil, h b (by simp),
      ih fun c hc => h c (by simp [hc])]
    rfl

/-- **A slice reads back** where its elements do. -/
theorem decodeSlice_map {zero : α} {dec : Decoder α} {enc : β → Value} {out : β → α}
    {bs : List β} (h : ∀ b ∈ bs, dec zero (enc b) = (out b, true)) :
    decodeSlice zero dec none (.array (bs.map enc)) = (some (bs.map out), true) := by
  rw [decodeSlice, Option.getD_none, decodeElements_map h]

/-! ### Structures -/

/-- A field of a structure: its member name, what is written for it (nothing
where it is omitted) and how it is read. -/
structure Member (α : Type u) where
  name : String
  enc : α → Option Value
  dec : Decoder α

/-- The field a member name selects: the exact name first, then the name up to case. -/
def findMember (fs : List (Member α)) (key : String) : Option (Member α) :=
  (fs.find? fun f => f.name == key).or (fs.find? fun f => Text.equalFold f.name key)

/-- Read one member of an object; a member no field is named for is skipped. -/
def decodeMember (fs : List (Member α)) (a : α) (m : String × Value) : α × Bool :=
  match findMember fs m.1 with
  | some f => f.dec a m.2
  | none => (a, true)

def decodeStruct (fs : List (Member α)) : Decoder α
  | old, .null => (old, true)
  | old, .object ms => decodeAll (decodeMember fs) old ms
  | old, _ => (old, false)

def encodeStruct (fs : List (Member α)) (a : α) : Value :=
  .object (fs.filterMap fun f => (f.enc a).map fun v => (f.name, v))

theorem findMember_eq {fs : List (Member α)} (hn : (fs.map Member.name).Nodup) {f : Member α}
    (hf : f ∈ fs) : findMember fs f.name = some f := by
  have h : fs.find? (fun g => g.name == f.name) = some f := by
    induction fs with
    | nil => simp at hf
    | cons g fs ih =>
      rw [List.map_cons, List.nodup_cons] at hn
      rcases List.mem_cons.mp hf with rfl | hf
      · simp
      · have hne : g.name ≠ f.name := fun he => hn.1 (he ▸ List.mem_map_of_mem hf)
        rw [List.find?_cons_of_neg (by simpa using hne)]
        exact ih hn.2 hf
  rw [findMember, h]
  rfl

/-- Read back what a field wrote; what it omitted is left alone. -/
def Member.reread (a : α) (b : α) (f : Member α) : α × Bool :=
  match f.enc a with
  | some v => f.dec b v
  | none => (b, true)

/-- Reading a structure of which some members were written, in any order. -/
theorem decodeStruct_members {fs gs : List (Member α)} (hn : (fs.map Member.name).Nodup)
    (hg : ∀ g ∈ gs, g ∈ fs) (a b : α) :
    decodeStruct fs b (encodeStruct gs a) = decodeAll (Member.reread a) b gs := by
  have h : ∀ gs : List (Member α), (∀ g ∈ gs, g ∈ fs) → ∀ b,
      decodeAll (decodeMember fs) b (gs.filterMap fun f => (f.enc a).map fun v => (f.name, v)) =
        decodeAll (Member.reread a) b gs := by
    intro gs
    induction gs with
    | nil => intro _ b; rfl
    | cons g gs ih =>
      intro hg b
      have ih' := ih fun f hf => hg f (by simp [hf])
      cases he : g.enc a with
      | none =>
        rw [List.filterMap_cons_none (by simp [he]), decodeAll, Member.reread, he]
        simp [ih']
      | some v =>
        rw [List.filterMap_cons_some (by simp [he]; rfl), decodeAll, decodeAll, decodeMember,
          findMember_eq hn (hg g (by simp)), Member.reread, he]
        simp only [ih']
  exact h gs hg b

/-- **Reading a written structure** reads its fields one after another. -/
theorem decodeStruct_encodeStruct {fs : List (Member α)} (hn : (fs.map Member.name).Nodup)
    (a b : α) : decodeStruct fs b (encodeStruct fs a) = decodeAll (Member.reread a) b fs :=
  decodeStruct_members hn (fun _ hf => hf) a b

/-- A field that is always written. -/
def Member.of (name : String) (enc : β → Value) (dec : Decoder β) (get : α → β)
    (set : α → β → α) : Member α where
  name := name
  enc a := some (enc (get a))
  dec a v := (set a (dec (get a) v).1, (dec (get a) v).2)

/-- A field that is written where it is not empty. -/
def Member.omitEmpty (empty : β → Bool) (f : Member α) (get : α → β) : Member α where
  name := f.name
  enc a := if empty (get a) then none else f.enc a
  dec := f.dec

/-- The fields of an embedded structure. -/
def Member.within (get : β → α) (set : β → α → β) (f : Member α) : Member β where
  name := f.name
  enc b := f.enc (get b)
  dec b v := (set b (f.dec (get b) v).1, (f.dec (get b) v).2)

end Lib.Json
