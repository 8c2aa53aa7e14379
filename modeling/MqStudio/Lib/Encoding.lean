import Mathlib

/-!
# Bytes as text, numbers as bytes

Standard base64, with padding, and the variable-length numbers of a wire format:
seven bits to a byte, the lowest first.  Both are read back as they were written.

* `decodeString_encodeToString`: base64.
* `readVarint_varint`: a number in front of other bytes.
* `intercalate_inj`: words between separators.
-/

namespace Lib.Encoding

/-! ### Base64 -/

/-- The character for six bits. -/
def symbol (n : ℕ) : Char :=
  if n < 26 then Char.ofNat (65 + n)
  else if n < 52 then Char.ofNat (71 + n)
  else if n < 62 then Char.ofNat (n - 4)
  else if n = 62 then '+' else '/'

/-- The six bits a character stands for. -/
def sextet (c : Char) : Option ℕ :=
  if 65 ≤ c.toNat ∧ c.toNat ≤ 90 then some (c.toNat - 65)
  else if 97 ≤ c.toNat ∧ c.toNat ≤ 122 then some (c.toNat - 71)
  else if 48 ≤ c.toNat ∧ c.toNat ≤ 57 then some (c.toNat + 4)
  else if c = '+' then some 62
  else if c = '/' then some 63 else none

/-- Three bytes are four characters.  What is short of three is padded. -/
def encode : List UInt8 → List Char
  | [] => []
  | [a] => [symbol (a.toNat / 4), symbol (a.toNat % 4 * 16), '=', '=']
  | [a, b] =>
    [symbol (a.toNat / 4), symbol (a.toNat % 4 * 16 + b.toNat / 16), symbol (b.toNat % 16 * 4), '=']
  | a :: b :: c :: rest =>
    symbol (a.toNat / 4) :: symbol (a.toNat % 4 * 16 + b.toNat / 16) ::
      symbol (b.toNat % 16 * 4 + c.toNat / 64) :: symbol (c.toNat % 64) :: encode rest

/-- Four characters are three bytes, and padding ends the text. -/
def decode : List Char → Option (List UInt8)
  | [] => some []
  | a :: b :: c :: d :: rest => do
    let x ← sextet a
    let y ← sextet b
    let first := UInt8.ofNat (x * 4 + y / 16)
    if c = '=' then
      if d = '=' ∧ rest = [] then some [first] else none
    else
      let z ← sextet c
      let second := UInt8.ofNat (y % 16 * 16 + z / 4)
      if d = '=' then
        if rest = [] then some [first, second] else none
      else
        let t ← sextet d
        let more ← decode rest
        some (first :: second :: UInt8.ofNat (z % 4 * 64 + t) :: more)
  | _ => none

def isNewline (c : Char) : Bool := c = '\n' || c = '\r'

def encodeToString (bytes : List UInt8) : String := String.ofList (encode bytes)

/-- Line breaks are passed over. -/
def decodeString (s : String) : Option (List UInt8) := decode (s.toList.filter fun c => !isNewline c)

theorem sextet_symbol {n : ℕ} (h : n < 64) : sextet (symbol n) = some n := by
  have hall : ∀ n < 64, sextet (symbol n) = some n := by decide
  exact hall n h

theorem symbol_ne_pad {n : ℕ} (h : n < 64) : symbol n ≠ '=' := by
  intro he
  have := sextet_symbol h
  rw [he] at this
  exact absurd this (by simp [sextet])

theorem not_isNewline_symbol {n : ℕ} (h : n < 64) : isNewline (symbol n) = false := by
  have hall : ∀ n < 64, isNewline (symbol n) = false := by decide
  exact hall n h

theorem ofNat_eq_of_toNat {n : ℕ} {a : UInt8} (h : n = a.toNat) : UInt8.ofNat n = a := by
  rw [h, UInt8.ofNat_toNat]

theorem decode_encode (bytes : List UInt8) : decode (encode bytes) = some bytes := by
  induction bytes using encode.induct with
  | case1 => rfl
  | case2 a =>
    have ha := a.toNat_lt
    have hx : a.toNat / 4 < 64 := by omega
    have hy : a.toNat % 4 * 16 < 64 := by omega
    have hfirst : UInt8.ofNat (a.toNat / 4 * 4 + a.toNat % 4 * 16 / 16) = a :=
      ofNat_eq_of_toNat (by omega)
    simp only [encode, decode, sextet_symbol hx, sextet_symbol hy, hfirst, Option.bind_eq_bind,
      Option.bind_some, and_self, if_true]
  | case3 a b =>
    have ha := a.toNat_lt
    have hb := b.toNat_lt
    have hx : a.toNat / 4 < 64 := by omega
    have hy : a.toNat % 4 * 16 + b.toNat / 16 < 64 := by omega
    have hz : b.toNat % 16 * 4 < 64 := by omega
    have hfirst : UInt8.ofNat (a.toNat / 4 * 4 + (a.toNat % 4 * 16 + b.toNat / 16) / 16) = a :=
      ofNat_eq_of_toNat (by omega)
    have hsecond : UInt8.ofNat
        ((a.toNat % 4 * 16 + b.toNat / 16) % 16 * 16 + b.toNat % 16 * 4 / 4) = b :=
      ofNat_eq_of_toNat (by omega)
    simp only [encode, decode, sextet_symbol hx, sextet_symbol hy, sextet_symbol hz,
      symbol_ne_pad hz, hfirst, hsecond, Option.bind_eq_bind, Option.bind_some, if_true, if_false]
  | case4 a b c rest ih =>
    have ha := a.toNat_lt
    have hb := b.toNat_lt
    have hc := c.toNat_lt
    have hx : a.toNat / 4 < 64 := by omega
    have hy : a.toNat % 4 * 16 + b.toNat / 16 < 64 := by omega
    have hz : b.toNat % 16 * 4 + c.toNat / 64 < 64 := by omega
    have ht : c.toNat % 64 < 64 := by omega
    have hfirst : UInt8.ofNat (a.toNat / 4 * 4 + (a.toNat % 4 * 16 + b.toNat / 16) / 16) = a :=
      ofNat_eq_of_toNat (by omega)
    have hsecond : UInt8.ofNat ((a.toNat % 4 * 16 + b.toNat / 16) % 16 * 16 +
        (b.toNat % 16 * 4 + c.toNat / 64) / 4) = b :=
      ofNat_eq_of_toNat (by omega)
    have hthird : UInt8.ofNat
        ((b.toNat % 16 * 4 + c.toNat / 64) % 4 * 64 + c.toNat % 64) = c :=
      ofNat_eq_of_toNat (by omega)
    simp only [encode, decode, sextet_symbol hx, sextet_symbol hy, sextet_symbol hz,
      sextet_symbol ht, symbol_ne_pad hz, symbol_ne_pad ht, hfirst, hsecond, hthird, ih,
      Option.bind_eq_bind, Option.bind_some, if_false]

theorem filter_encode (bytes : List UInt8) :
    (encode bytes).filter (fun c => !isNewline c) = encode bytes := by
  refine List.filter_eq_self.mpr ?_
  have hpad : isNewline '=' = false := by decide
  induction bytes using encode.induct with
  | case1 => simp [encode]
  | case2 a =>
    have ha := a.toNat_lt
    simp only [encode, List.forall_mem_cons]
    refine ⟨?_, ?_, by simp [hpad], by simp [hpad], by simp⟩ <;>
      rw [not_isNewline_symbol (by omega)] <;> rfl
  | case3 a b =>
    have ha := a.toNat_lt
    have hb := b.toNat_lt
    simp only [encode, List.forall_mem_cons]
    refine ⟨?_, ?_, ?_, by simp [hpad], by simp⟩ <;>
      rw [not_isNewline_symbol (by omega)] <;> rfl
  | case4 a b c rest ih =>
    have ha := a.toNat_lt
    have hb := b.toNat_lt
    have hc := c.toNat_lt
    simp only [encode, List.forall_mem_cons]
    refine ⟨?_, ?_, ?_, ?_, ih⟩ <;> rw [not_isNewline_symbol (by omega)] <;> rfl

theorem length_encode (bytes : List UInt8) :
    (encode bytes).length = 4 * ((bytes.length + 2) / 3) := by
  induction bytes using encode.induct with
  | case1 | case2 | case3 => simp [encode]
  | case4 a b c rest ih =>
    simp only [encode, List.length_cons, ih]
    omega

/-- Four characters make three bytes at most. -/
theorem length_of_decode {text : List Char} {bytes : List UInt8} (h : decode text = some bytes) :
    bytes.length ≤ 3 * (text.length / 4) := by
  induction text using decode.induct generalizing bytes with
  | case1 =>
    obtain rfl := Option.some.inj h
    rfl
  | case2 a b c d rest ih =>
    simp only [decode, Option.bind_eq_bind, Option.bind_eq_some_iff] at h
    obtain ⟨x, -, y, -, h⟩ := h
    split at h
    · split at h
      · obtain rfl := Option.some.inj h
        simp only [List.length_cons, List.length_nil]
        omega
      · cases h
    · obtain ⟨z, -, h⟩ := Option.bind_eq_some_iff.mp h
      split at h
      · split at h
        · obtain rfl := Option.some.inj h
          simp only [List.length_cons, List.length_nil]
          omega
        · cases h
      · obtain ⟨t, -, h⟩ := Option.bind_eq_some_iff.mp h
        obtain ⟨more, hmore, h⟩ := Option.bind_eq_some_iff.mp h
        obtain rfl := Option.some.inj h
        have hlen := ih hmore
        simp only [List.length_cons]
        omega
  | case3 text hnil hcons =>
    rw [decode] at h
    · cases h
    · exact hnil
    · exact hcons

/-- **What was encoded is decoded.** -/
theorem decodeString_encodeToString (bytes : List UInt8) :
    decodeString (encodeToString bytes) = some bytes := by
  rw [decodeString, encodeToString, String.toList_ofList, filter_encode, decode_encode]

theorem encodeToString_ne_empty {bytes : List UInt8} (h : bytes ≠ []) :
    encodeToString bytes ≠ "" := by
  intro he
  have hread := decodeString_encodeToString bytes
  rw [he, decodeString, String.toList_empty] at hread
  exact h (Option.some.inj hread).symm

/-! ### Numbers of variable length -/

/-- Seven bits to a byte, the lowest first.  All bytes but the last have the high bit set. -/
def varint (n : ℕ) : List UInt8 :=
  if n < 128 then [UInt8.ofNat n] else UInt8.ofNat (n % 128 + 128) :: varint (n / 128)

/-- The number at the front, and what comes after it. -/
def readVarint : List UInt8 → Option (ℕ × List UInt8)
  | [] => none
  | b :: rest =>
    if b.toNat < 128 then some (b.toNat, rest)
    else (readVarint rest).map fun read => (b.toNat - 128 + 128 * read.1, read.2)

/-- **A number is read back**, and the bytes after it are left. -/
theorem readVarint_varint (n : ℕ) (rest : List UInt8) :
    readVarint (varint n ++ rest) = some (n, rest) := by
  induction n using varint.induct with
  | case1 n hlt =>
    have hn : n % 256 = n := by omega
    rw [varint, if_pos hlt]
    simp [readVarint, hn, hlt]
  | case2 n hlt ih =>
    have hbyte : (n % 128 + 128) % 256 = n % 128 + 128 := by omega
    have hnot : ¬ n % 128 + 128 < 128 := by omega
    have hvalue : n % 128 + 128 * (n / 128) = n := by omega
    rw [varint, if_neg hlt, List.cons_append, readVarint, ih]
    simp [hbyte, hvalue]

/-- A numbered field: its tag, and the number it holds. -/
def field (tag : UInt8) (n : ℕ) : List UInt8 := tag :: varint n

def readField (tag : UInt8) : List UInt8 → Option (ℕ × List UInt8)
  | [] => none
  | b :: rest => if b = tag then readVarint rest else none

theorem readField_field (tag : UInt8) (n : ℕ) (rest : List UInt8) :
    readField tag (field tag n ++ rest) = some (n, rest) := by
  rw [field, List.cons_append, readField, if_pos rfl, readVarint_varint]

/-! ### Numbers as text -/

/-- A decimal number has no character but its digits and a sign. -/
theorem mem_repr {a : ℤ} {c : Char} (h : c ∈ a.repr.toList) : c.isDigit ∨ c = '-' := by
  have hdigits : ∀ n : ℕ, c ∈ n.repr.toList → c.isDigit = true := by
    intro n hc
    rw [Nat.toList_repr] at hc
    exact Nat.isDigit_of_mem_toDigits (by decide) (by decide) hc
  rw [Int.repr_eq_if] at h
  split at h
  · exact Or.inl (hdigits _ h)
  · rw [String.toList_append] at h
    rcases List.mem_append.mp h with h | h
    · exact Or.inr (by simpa using h)
    · exact Or.inl (hdigits _ h)

theorem notMem_repr {a : ℤ} {c : Char} (hdigit : c.isDigit = false) (hsign : c ≠ '-') :
    c ∉ a.repr.toList := by
  intro h
  rcases mem_repr h with hd | hs
  · rw [hdigit] at hd
    cases hd
  · exact hsign hs

/-- **Words can be told apart** again where none of them has the separator. -/
theorem intercalate_inj {c : Char} {ws vs : List (List Char)} (hws : ∀ w ∈ ws, c ∉ w)
    (hvs : ∀ w ∈ vs, c ∉ w) (hws' : ws ≠ []) (hvs' : vs ≠ [])
    (h : [c].intercalate ws = [c].intercalate vs) : ws = vs := by
  rw [← List.splitOn_intercalate c hws hws', h, List.splitOn_intercalate c hvs hvs']

end Lib.Encoding
