import MqStudio.Lib.Json.Syntax

/-!
# The parser reads back what the printer writes

`parse_layOut`: a value reads back from its text in every layout, so from what `marshal` and
`marshalIndent` write (`parse_marshal`, `parse_marshalIndent`).

A string literal is read back piece by piece (`stringBody_quoteRest`), a number
literal is followed by a character no literal continues with (`Closed`), and the
fuel `parse` starts with is the length of the text, which is at least the number
of nodes of the value (`size_le_length`).
-/

namespace Lib.Json

/-! ### String literals -/

theorem hexVal_hexDigit : ∀ n < 16, hexVal (hexDigit n) = some n := by decide

theorem hex4_escapeUnit {u : Nat} (h : u < 65536) (r : List Char) :
    hex4 (hexDigit (u / 4096) :: hexDigit (u / 256 % 16) :: hexDigit (u / 16 % 16) ::
      hexDigit (u % 16) :: r) = some (u, r) := by
  rw [hex4, hexVal_hexDigit _ (by omega), hexVal_hexDigit _ (by omega),
    hexVal_hexDigit _ (by omega), hexVal_hexDigit _ (by omega)]
  simp only [Option.bind_eq_bind, Option.bind_some, Option.some.injEq, Prod.mk.injEq, and_true]
  omega

theorem piece_escapeUnit {c : Char} (h : c.toNat < 65536) (r : List Char) :
    piece (escapeUnit c ++ r) = some (.codeUnit c.toNat, r) := by
  simp only [escapeUnit, List.cons_append, List.nil_append, piece, if_pos]
  rw [escaped, if_neg (by decide), if_neg (by decide), if_neg (by decide), if_neg (by decide),
    if_neg (by decide), if_neg (by decide), if_pos rfl, hex4_escapeUnit h]
  rfl

/-- What the printer writes for a character is one piece of a literal: the
character, or its code unit where that is no half of a pair. -/
theorem piece_escapeChar (c : Char) (r : List Char) :
    piece (escapeChar c ++ r) = some (.char c, r) ∨
      (piece (escapeChar c ++ r) = some (.codeUnit c.toNat, r) ∧ isSurrogate c.toNat = false) := by
  unfold escapeChar
  split
  · rename_i h
    rcases h with rfl | rfl <;> exact Or.inl rfl
  split
  · rename_i h; subst h; exact Or.inl rfl
  split
  · rename_i h; subst h; exact Or.inl rfl
  split
  · rename_i h; subst h; exact Or.inl rfl
  split
  · rename_i h; subst h; exact Or.inl rfl
  split
  · rename_i h; subst h; exact Or.inl rfl
  split
  · rename_i h
    have hu : c.toNat < 0x20 ∨ c.toNat = 0x3C ∨ c.toNat = 0x3E ∨ c.toNat = 0x26 ∨
        c.toNat = 0x2028 ∨ c.toNat = 0x2029 := by
      rcases h with h | rfl | rfl | rfl | h | h
      · exact Or.inl h
      · exact Or.inr (Or.inl rfl)
      · exact Or.inr (Or.inr (Or.inl rfl))
      · exact Or.inr (Or.inr (Or.inr (Or.inl rfl)))
      · omega
      · omega
    refine Or.inr ⟨piece_escapeUnit (by omega) r, ?_⟩
    simp only [isSurrogate, Bool.and_eq_false_iff, decide_eq_false_iff_not]
    omega
  · rename_i hq _ _ _ _ _ hc
    push Not at hq hc
    refine Or.inl ?_
    rw [List.singleton_append, piece, if_neg hq.2, if_neg (by omega)]

theorem head?_escapeChar_ne (c : Char) (r : List Char) :
    (escapeChar c ++ r).head? ≠ some '"' := by
  unfold escapeChar escapeUnit
  repeat' split
  all_goals simp_all

/-- **A string literal reads back as the string.** -/
theorem stringBody_quoteRest (s r : List Char) (n : Nat) (hn : s.length < n) :
    stringBody n (quoteRest s ++ r) = some (s, r) := by
  induction s generalizing n with
  | nil =>
    obtain ⟨m, rfl⟩ : ∃ m, n = m + 1 := ⟨n - 1, by simp at hn; omega⟩
    simp [quoteRest, stringBody]
  | cons c s ih =>
    obtain ⟨m, rfl⟩ : ∃ m, n = m + 1 := ⟨n - 1, by simp at hn; omega⟩
    have hm := ih m (by simp at hn; omega)
    have hsplit : quoteRest (c :: s) ++ r = escapeChar c ++ (quoteRest s ++ r) := by
      simp [quoteRest]
    rw [hsplit, stringBody, if_neg (head?_escapeChar_ne c _)]
    rcases piece_escapeChar c (quoteRest s ++ r) with h | ⟨h, hs⟩
    · rw [h]; simp only [hm, Option.map_some]
    · rw [h]
      simp only [hs, Bool.false_eq_true, if_false, hm, Option.map_some, Char.ofNat_toNat]

theorem length_le_length_quoteRest (s : List Char) : s.length < (quoteRest s).length := by
  have h : ∀ c, 1 ≤ (escapeChar c).length := by
    intro c
    unfold escapeChar escapeUnit
    repeat' split
    all_goals simp
  have hl : s.length ≤ (s.flatMap escapeChar).length := by
    induction s with
    | nil => simp
    | cons c s ih =>
      have := h c
      simp only [List.flatMap_cons, List.length_append, List.length_cons]
      omega
  simp only [quoteRest, List.length_append, List.length_singleton]
  omega

/-! ### White space and what closes a value -/

/-- No character of a number literal comes first. -/
def Closed (r : List Char) : Prop := ∀ c, r.head? = some c → isNumberChar c = false

theorem closed_nil : Closed [] := by intro c h; simp at h

theorem closed_cons {c : Char} {r : List Char} (h : isNumberChar c = false) : Closed (c :: r) := by
  intro d hd
  simp only [List.head?_cons, Option.some.injEq] at hd
  exact hd ▸ h

theorem skipSpace_cons {c : Char} (h : isSpace c = false) (r : List Char) :
    skipSpace (c :: r) = c :: r := by
  rw [skipSpace, List.dropWhile_cons_of_neg (by simp [h])]

theorem skipSpace_spaces {g : List Char} (h : ∀ c ∈ g, isSpace c) (r : List Char) :
    skipSpace (g ++ r) = skipSpace r := List.dropWhile_append_of_pos h

theorem skipSpace_skipSpace (cs : List Char) : skipSpace (skipSpace cs) = skipSpace cs :=
  List.dropWhile_idempotent _ _

/-- White space before a value does not matter. -/
theorem value_skipSpace (n : Nat) (cs : List Char) : value n (skipSpace cs) = value n cs := by
  cases n with
  | zero => simp [value]
  | succ n => rw [value, value, skipSpace_skipSpace]

theorem value_spaces {g : List Char} (h : ∀ c ∈ g, isSpace c) (n : Nat) (cs : List Char) :
    value n (g ++ cs) = value n cs := by
  rw [← value_skipSpace, skipSpace_spaces h, value_skipSpace]

theorem closed_spaces {g r : List Char} (h : ∀ c ∈ g, isSpace c) (hr : Closed r) :
    Closed (g ++ r) := by
  cases g with
  | nil => exact hr
  | cons c g =>
    have hc := h c List.mem_cons_self
    simp only [isSpace, Bool.or_eq_true, beq_iff_eq] at hc
    rcases hc with ((rfl | rfl) | rfl) | rfl <;> exact closed_cons (by decide)

/-! ### Scalars -/

theorem isDigits_all {cs : List Char} (h : isDigits cs) : ∀ c ∈ cs, isNumberChar c := by
  intro c hc
  simp only [isDigits, Bool.and_eq_true, List.all_eq_true] at h
  simp [isNumberChar, h.2 c hc]

theorem isExponent_all {cs : List Char} (h : isExponent cs) : ∀ c ∈ cs, isNumberChar c := by
  cases cs with
  | nil => simp
  | cons e cs =>
    simp only [isExponent, Bool.and_eq_true, Bool.or_eq_true, beq_iff_eq] at h
    intro c hc
    rcases List.mem_cons.mp hc with rfl | hc
    · rcases h.1 with rfl | rfl <;> decide
    · cases cs with
      | nil => simp at hc
      | cons s ds =>
        have h2 : (if s = '+' ∨ s = '-' then isDigits ds else isDigits (s :: ds)) = true := h.2
        by_cases hs : s = '+' ∨ s = '-'
        · rw [if_pos hs] at h2
          rcases List.mem_cons.mp hc with rfl | hc
          · rcases hs with rfl | rfl <;> decide
          · exact isDigits_all h2 c hc
        · rw [if_neg hs] at h2
          exact isDigits_all h2 c hc

/-- A run of digits and a rest of number characters are number characters. -/
theorem all_of_dropWhile {cs : List Char}
    (h : ∀ c ∈ cs.dropWhile Char.isDigit, isNumberChar c) : ∀ c ∈ cs, isNumberChar c := by
  intro c hc
  rw [← List.takeWhile_append_dropWhile (p := Char.isDigit) (l := cs)] at hc
  rcases List.mem_append.mp hc with hc | hc
  · simp [isNumberChar, List.mem_takeWhile_imp hc]
  · exact h c hc

theorem isFraction_all {cs : List Char} (h : isFraction cs) : ∀ c ∈ cs, isNumberChar c := by
  cases cs with
  | nil => simp
  | cons e cs =>
    rw [isFraction] at h
    split at h
    · rename_i he
      simp only [Bool.and_eq_true] at h
      intro c hc
      rcases List.mem_cons.mp hc with rfl | hc
      · simp only [beq_iff_eq] at he; subst he; decide
      · exact all_of_dropWhile (isExponent_all h.2) c hc
    · exact isExponent_all h

theorem isUnsigned_all {cs : List Char} (h : isUnsigned cs) : ∀ c ∈ cs, isNumberChar c := by
  cases cs with
  | nil => simp
  | cons e cs =>
    rw [isUnsigned] at h
    intro c hc
    split at h
    · rename_i he
      rcases List.mem_cons.mp hc with rfl | hc
      · simp only [beq_iff_eq] at he; subst he; decide
      · exact isFraction_all h c hc
    · simp only [Bool.and_eq_true] at h
      rcases List.mem_cons.mp hc with rfl | hc
      · simp [isNumberChar, h.1]
      · exact all_of_dropWhile (isFraction_all h.2) c hc

theorem isNumber_all {cs : List Char} (h : isNumber cs) : ∀ c ∈ cs, isNumberChar c := by
  cases cs with
  | nil => simp
  | cons e cs =>
    rw [isNumber] at h
    split at h
    · rename_i he
      intro c hc
      rcases List.mem_cons.mp hc with rfl | hc
      · simp only [beq_iff_eq] at he; subst he; decide
      · exact isUnsigned_all h c hc
    · exact isUnsigned_all h

theorem takeWhile_append_closed {l r : List Char} (h : ∀ c ∈ l, isNumberChar c) (hr : Closed r) :
    (l ++ r).takeWhile isNumberChar = l ∧ (l ++ r).dropWhile isNumberChar = r := by
  have h0 : r.takeWhile isNumberChar = [] ∧ r.dropWhile isNumberChar = r := by
    cases r with
    | nil => simp
    | cons c r => have := hr c rfl; simp [this]
  rw [List.takeWhile_append_of_pos h, List.dropWhile_append_of_pos h, h0.1, h0.2]
  simp

theorem scalar_number (n : Number) {r : List Char} (hr : Closed r) :
    scalar (n.lit ++ r) = some (.number n, r) := by
  obtain ⟨lit, hlit⟩ := n
  have hall := isNumber_all hlit
  obtain ⟨h1, h2⟩ := takeWhile_append_closed hall hr
  cases lit with
  | nil => simp [isNumber] at hlit
  | cons c lit =>
    have hc := hall c (by simp)
    have hk : ∀ w : List Char, w.head?.any (fun d => !isNumberChar d) → ¬ w <+: c :: lit ++ r := by
      rintro w hw ⟨t, ht⟩
      cases w with
      | nil => simp at hw
      | cons d w =>
        simp only [List.cons_append, List.cons.injEq] at ht
        obtain ⟨rfl, -⟩ := ht
        simp [hc] at hw
    rw [scalar, if_neg (hk _ (by decide)), if_neg (hk _ (by decide)), if_neg (hk _ (by decide))]
    simp only [h1, h2, dif_pos hlit]

theorem isNumberChar_facts {c : Char} (h : isNumberChar c) :
    isSpace c = false ∧ c ≠ '"' ∧ c ≠ '[' ∧ c ≠ '{' := by
  refine ⟨?_, ?_, ?_, ?_⟩
  · by_contra hs
    simp only [isSpace, Bool.not_eq_false, Bool.or_eq_true, beq_iff_eq] at hs
    rcases hs with ((rfl | rfl) | rfl) | rfl <;> exact absurd h (by decide)
  all_goals rintro rfl; exact absurd h (by decide)

/-! ### Values -/

mutual

/-- The fuel a value needs. -/
def size : Value → Nat
  | .array vs => 1 + sizeElements vs
  | .object ms => 1 + sizeMembers ms
  | _ => 1

def sizeElements : List Value → Nat
  | [] => 0
  | v :: vs => 1 + size v + sizeElements vs

def sizeMembers : List (String × Value) → Nat
  | [] => 0
  | m :: ms => 1 + sizeMember m + sizeMembers ms

def sizeMember : String × Value → Nat
  | (_, v) => size v

end

section Layout

variable {L : Layout}

/-- The head of what a value is written as: never white space, never a closing bracket. -/
theorem head_layOut (d : Nat) (v : Value) :
    ∃ c cs, layOut L d v = c :: cs ∧ isSpace c = false ∧ c ≠ ']' ∧ c ≠ '}' := by
  cases v with
  | null => exact ⟨_, _, by rw [layOut]; rfl, by decide, by decide, by decide⟩
  | bool b => cases b <;> exact ⟨_, _, by rw [layOut]; rfl, by decide, by decide, by decide⟩
  | number n =>
    obtain ⟨lit, hlit⟩ := n
    cases lit with
    | nil => simp [isNumber] at hlit
    | cons c lit =>
      have hc := isNumber_all hlit c (by simp)
      refine ⟨c, lit, by rw [layOut], (isNumberChar_facts hc).1, ?_, ?_⟩ <;>
      · rintro rfl
        exact absurd hc (by decide)
  | string s => exact ⟨_, _, by rw [layOut], by decide, by decide, by decide⟩
  | array vs =>
    rw [layOut]
    split <;> exact ⟨_, _, rfl, by decide, by decide, by decide⟩
  | object ms =>
    rw [layOut]
    split <;> exact ⟨_, _, rfl, by decide, by decide, by decide⟩

/-- One member, once its value is known to read back. -/
theorem members_member (k : String) (v : Value) (n d : Nat) (r : List Char)
    (hv : value n (layOut L d v ++ r) = some (v, r)) :
    members (n + 1) (L.gap d ++ (layOutMember L d (k, v) ++ r)) =
      if (skipSpace r).head? = some '}' then some ([(k, v)], (skipSpace r).tail)
      else if (skipSpace r).head? = some ',' then
        (members n (skipSpace r).tail).map fun (ms, r) => ((k, v) :: ms, r)
      else none := by
  have hs : skipSpace (L.gap d ++ (layOutMember L d (k, v) ++ r)) =
      '"' :: (quoteRest k.toList ++ (':' :: (L.colon ++ (layOut L d v ++ r)))) := by
    rw [skipSpace_spaces (L.isSpace_gap _), layOutMember, List.cons_append,
      skipSpace_cons (by decide)]
    simp only [List.append_assoc, List.cons_append]
  have hk : stringBody (L.gap d ++ (layOutMember L d (k, v) ++ r)).length
      (quoteRest k.toList ++ (':' :: (L.colon ++ (layOut L d v ++ r)))) =
        some (k.toList, ':' :: (L.colon ++ (layOut L d v ++ r))) := by
    apply stringBody_quoteRest
    have := length_le_length_quoteRest k.toList
    simp only [layOutMember, List.length_append, List.length_cons]
    omega
  have hv' : value n (L.colon ++ (layOut L d v ++ r)) = some (v, r) :=
    (value_spaces L.isSpace_colon _ _).trans hv
  rw [members, hs, List.tail_cons, hk]
  simp only [List.head?_cons, if_true, skipSpace_cons (show isSpace ':' = false by decide),
    List.tail_cons, hv', String.ofList_toList]

mutual

/-- **A value reads back from its text.** -/
theorem value_layOut : ∀ (v : Value) (n d : Nat) (r : List Char), size v ≤ n → Closed r →
    value n (layOut L d v ++ r) = some (v, r)
  | .null, n, d, r, hn, hr => by
      obtain ⟨m, rfl⟩ : ∃ m, n = m + 1 := ⟨n - 1, by simp [size] at hn; omega⟩
      simp [layOut, value, skipSpace_cons, scalar, isSpace]
  | .bool b, n, d, r, hn, hr => by
      obtain ⟨m, rfl⟩ : ∃ m, n = m + 1 := ⟨n - 1, by simp [size] at hn; omega⟩
      cases b <;> simp [layOut, value, skipSpace_cons, scalar, isSpace]
  | .number k, n, d, r, hn, hr => by
      obtain ⟨m, rfl⟩ : ∃ m, n = m + 1 := ⟨n - 1, by simp [size] at hn; omega⟩
      have hs := scalar_number k hr
      obtain ⟨lit, hlit⟩ := k
      cases lit with
      | nil => simp [isNumber] at hlit
      | cons c lit =>
        obtain ⟨h1, h2, h3, h4⟩ := isNumberChar_facts (isNumber_all hlit c (by simp))
        rw [layOut, value, List.cons_append, skipSpace_cons h1]
        simpa [h2, h3, h4] using hs
  | .string s, n, d, r, hn, hr => by
      obtain ⟨m, rfl⟩ : ∃ m, n = m + 1 := ⟨n - 1, by simp [size] at hn; omega⟩
      have hl := length_le_length_quoteRest s.toList
      rw [layOut, value, List.cons_append, skipSpace_cons (by decide)]
      simp only [if_true]
      rw [stringBody_quoteRest _ _ _ (by rw [List.length_append]; omega)]
      simp
  | .array [], n, d, r, hn, hr => by
      obtain ⟨m, rfl⟩ : ∃ m, n = m + 1 := ⟨n - 1, by simp [size] at hn; omega⟩
      simp [layOut, value, skipSpace_cons, isSpace]
  | .array (v :: vs), n, d, r, hn, hr => by
      obtain ⟨m, rfl⟩ : ∃ m, n = m + 1 := ⟨n - 1, by simp [size] at hn; omega⟩
      have he := elements_layOut v vs m (d + 1) d r (by simp only [size] at hn; omega)
      obtain ⟨c, cs, hc, hs, hb, -⟩ := head_layOut (L := L) (d + 1) v
      have hh : skipSpace (layOutElements L (d + 1) (v :: vs) ++ (L.gap d ++ ']' :: r)) =
          c :: (cs ++ ((if vs.isEmpty then [] else [',']) ++ layOutElements L (d + 1) vs) ++
            (L.gap d ++ ']' :: r)) := by
        rw [layOutElements, hc, List.append_assoc, skipSpace_spaces (L.isSpace_gap _)]
        exact skipSpace_cons hs _
      simp only [layOut, List.isEmpty_cons, Bool.false_eq_true, if_false, List.cons_append,
        List.append_assoc, List.nil_append]
      rw [value, skipSpace_cons (by decide)]
      simp only [hh, List.head?_cons, Option.some.injEq, if_neg hb, he, Option.map_some]
      simp
  | .object [], n, d, r, hn, hr => by
      obtain ⟨m, rfl⟩ : ∃ m, n = m + 1 := ⟨n - 1, by simp [size] at hn; omega⟩
      simp [layOut, value, skipSpace_cons, isSpace]
  | .object (kv :: ms), n, d, r, hn, hr => by
      obtain ⟨m, rfl⟩ : ∃ m, n = m + 1 := ⟨n - 1, by simp [size] at hn; omega⟩
      have he := members_layOut kv ms m (d + 1) d r (by simp only [size] at hn; omega)
      have hh : (skipSpace (layOutMembers L (d + 1) (kv :: ms) ++ (L.gap d ++ '}' :: r))).head? =
          some '"' := by
        rw [layOutMembers, layOutMember, List.append_assoc, skipSpace_spaces (L.isSpace_gap _),
          List.cons_append, List.cons_append, skipSpace_cons (by decide)]
        rfl
      simp only [layOut, List.isEmpty_cons, Bool.false_eq_true, if_false, List.cons_append,
        List.append_assoc, List.nil_append]
      rw [value, skipSpace_cons (by decide)]
      simp only [hh, he, Option.map_some]
      simp
termination_by v => size v
decreasing_by all_goals simp only [size]; omega

theorem elements_layOut : ∀ (v : Value) (vs : List Value) (n d e : Nat) (r : List Char),
    sizeElements (v :: vs) ≤ n →
    elements n (layOutElements L d (v :: vs) ++ (L.gap e ++ ']' :: r)) = some (v :: vs, r)
  | v, [], n, d, e, r, hn => by
      obtain ⟨m, rfl⟩ : ∃ m, n = m + 1 := ⟨n - 1, by simp [sizeElements] at hn; omega⟩
      have hv := value_layOut v m d (L.gap e ++ ']' :: r)
        (by simp [sizeElements] at hn; omega)
        (closed_spaces (L.isSpace_gap _) (closed_cons (by decide)))
      simp only [layOutElements, List.isEmpty_nil, if_true, List.append_assoc, List.nil_append]
      rw [elements, value_spaces (L.isSpace_gap _), hv]
      simp only [skipSpace_spaces (L.isSpace_gap _),
        skipSpace_cons (show isSpace ']' = false by decide), List.head?_cons, if_true,
        List.tail_cons]
  | v, w :: vs, n, d, e, r, hn => by
      obtain ⟨m, rfl⟩ : ∃ m, n = m + 1 := ⟨n - 1, by simp [sizeElements] at hn; omega⟩
      have hv := value_layOut v m d
        (',' :: (layOutElements L d (w :: vs) ++ (L.gap e ++ ']' :: r)))
        (by simp [sizeElements] at hn; omega) (closed_cons (by decide))
      have hvs := elements_layOut w vs m d e r (by simp only [sizeElements] at hn ⊢; omega)
      rw [layOutElements]
      simp only [List.isEmpty_cons, Bool.false_eq_true, if_false, List.append_assoc,
        List.cons_append, List.nil_append]
      rw [elements, value_spaces (L.isSpace_gap _), hv]
      simp only [skipSpace_cons (show isSpace ',' = false by decide), List.head?_cons,
        Option.some.injEq, List.tail_cons, hvs, Option.map_some]
      simp
termination_by v vs => sizeElements (v :: vs)
decreasing_by all_goals simp only [sizeElements]; omega

theorem members_layOut : ∀ (kv : String × Value) (ms : List (String × Value)) (n d e : Nat)
    (r : List Char), sizeMembers (kv :: ms) ≤ n →
    members n (layOutMembers L d (kv :: ms) ++ (L.gap e ++ '}' :: r)) = some (kv :: ms, r)
  | (k, v), [], n, d, e, r, hn => by
      obtain ⟨m, rfl⟩ : ∃ m, n = m + 1 := ⟨n - 1, by simp [sizeMembers] at hn; omega⟩
      have hv := value_layOut v m d (L.gap e ++ '}' :: r)
        (by simp [sizeMembers, sizeMember] at hn; omega)
        (closed_spaces (L.isSpace_gap _) (closed_cons (by decide)))
      simp only [layOutMembers, List.isEmpty_nil, if_true, List.append_assoc, List.nil_append]
      rw [members_member k v m d _ hv]
      simp only [skipSpace_spaces (L.isSpace_gap _),
        skipSpace_cons (show isSpace '}' = false by decide), List.head?_cons, if_true,
        List.tail_cons]
  | (k, v), kv :: ms, n, d, e, r, hn => by
      obtain ⟨m, rfl⟩ : ∃ m, n = m + 1 := ⟨n - 1, by simp [sizeMembers] at hn; omega⟩
      have hv := value_layOut v m d
        (',' :: (layOutMembers L d (kv :: ms) ++ (L.gap e ++ '}' :: r)))
        (by simp [sizeMembers, sizeMember] at hn; omega) (closed_cons (by decide))
      have hms := members_layOut kv ms m d e r (by simp only [sizeMembers] at hn ⊢; omega)
      rw [layOutMembers]
      simp only [List.isEmpty_cons, Bool.false_eq_true, if_false, List.append_assoc,
        List.cons_append, List.nil_append]
      rw [members_member k v m d _ hv]
      simp only [skipSpace_cons (show isSpace ',' = false by decide), List.head?_cons,
        Option.some.injEq, List.tail_cons, hms, Option.map_some]
      simp
termination_by kv ms => sizeMembers (kv :: ms)
decreasing_by all_goals simp only [sizeMembers, sizeMember]; omega

end

/-! ### The whole text -/

mutual

theorem size_le_length : ∀ (v : Value) (d : Nat), size v ≤ (layOut L d v).length
  | .null, d | .bool true, d | .bool false, d => by simp [size, layOut]
  | .number n, d => by
      obtain ⟨lit, hlit⟩ := n
      cases lit with
      | nil => simp [isNumber] at hlit
      | cons c lit => simp [size, layOut]
  | .string s, d => by simp [size, layOut]
  | .array vs, d => by
      have := sizeElements_le_length vs (d + 1)
      rw [size, layOut]
      split
      · rename_i h
        rw [List.isEmpty_iff] at h
        simp [h, sizeElements]
      · simp only [List.length_cons, List.length_append, List.length_nil]
        omega
  | .object ms, d => by
      have := sizeMembers_le_length ms (d + 1)
      rw [size, layOut]
      split
      · rename_i h
        rw [List.isEmpty_iff] at h
        simp [h, sizeMembers]
      · simp only [List.length_cons, List.length_append, List.length_nil]
        omega

/-- Every element but the last one is followed by a comma. -/
theorem sizeElements_le_length : ∀ (vs : List Value) (d : Nat),
    sizeElements vs ≤ (layOutElements L d vs).length + 1
  | [], d => by simp [sizeElements]
  | [v], d => by
      have h := size_le_length v d
      simp only [sizeElements, layOutElements, List.length_append]
      omega
  | v :: w :: vs, d => by
      have h1 := size_le_length v d
      have h2 := sizeElements_le_length (w :: vs) d
      rw [sizeElements, layOutElements]
      simp only [List.isEmpty_cons, Bool.false_eq_true, if_false, List.length_append,
        List.length_singleton]
      omega

theorem sizeMembers_le_length : ∀ (ms : List (String × Value)) (d : Nat),
    sizeMembers ms ≤ (layOutMembers L d ms).length + 1
  | [], d => by simp [sizeMembers]
  | [(k, v)], d => by
      have h := size_le_length v d
      simp only [sizeMembers, sizeMember, layOutMembers, layOutMember, List.length_append,
        List.length_cons]
      omega
  | (k, v) :: m :: ms, d => by
      have h1 := size_le_length v d
      have h2 := sizeMembers_le_length (m :: ms) d
      rw [sizeMembers, sizeMember, layOutMembers, layOutMember]
      simp only [List.isEmpty_cons, Bool.false_eq_true, if_false, List.length_append,
        List.length_cons]
      omega

end

/-- **The parser reads back what a printer writes**, in every layout. -/
theorem parse_layOut (v : Value) : parse (String.ofList (layOut L 0 v)) = some v := by
  have hl := size_le_length (L := L) v 0
  have h := value_layOut (L := L) v ((layOut L 0 v).length + 1) 0 [] (by omega) closed_nil
  rw [List.append_nil] at h
  rw [parse, String.toList_ofList, h]
  simp [skipSpace]

end Layout

/-- **The parser reads back what `Marshal` writes.** -/
theorem parse_marshal (v : Value) : parse (marshal v) = some v := by
  rw [marshal]
  exact parse_layOut v

/-- A line for every element. -/
def indented : Layout where
  gap := newline
  colon := [' ']
  isSpace_gap d c hc := by
    rcases List.mem_cons.mp hc with rfl | hc
    · decide
    · obtain rfl := (List.mem_replicate.mp hc).2
      decide
  isSpace_colon c hc := by
    obtain rfl := List.mem_singleton.mp hc
    decide

mutual

theorem render_eq : ∀ (v : Value) (d : Nat), render d v = layOut indented d v
  | .null, d | .bool true, d | .bool false, d | .number _, d | .string _, d => by
      simp only [render, layOut]
  | .array vs, d => by
      rw [render, layOut, renderElements_eq vs, indented]
  | .object ms, d => by
      rw [render, layOut, renderMembers_eq ms, indented]

theorem renderElements_eq : ∀ (vs : List Value) (d : Nat),
    renderElements d vs = layOutElements indented d vs
  | [], d => by rw [renderElements, layOutElements]
  | v :: vs, d => by
      rw [renderElements, layOutElements, render_eq v, renderElements_eq vs, indented]

theorem renderMembers_eq : ∀ (ms : List (String × Value)) (d : Nat),
    renderMembers d ms = layOutMembers indented d ms
  | [], d => by rw [renderMembers, layOutMembers]
  | (k, v) :: ms, d => by
      rw [renderMembers, layOutMembers, renderMember, layOutMember, render_eq v,
        renderMembers_eq ms, indented]
      rfl

end

/-- **The parser reads back what `MarshalIndent` writes.** -/
theorem parse_marshalIndent (v : Value) : parse (marshalIndent v) = some v := by
  rw [marshalIndent, render_eq]
  exact parse_layOut v

end Lib.Json
