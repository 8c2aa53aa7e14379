import Mathlib

/-!
# JSON texts

The value a JSON text names, the parser that reads one and the printer that
writes one, as Go's `encoding/json` has them: `parse` is the syntax half of
`Unmarshal`, `marshalIndent` is `MarshalIndent` with an empty prefix and two
spaces of indent, `marshal` is `Marshal`.

A number is kept as its literal, since what it means is decided by the type it
is decoded into; a `Number` carries the proof that the literal is one.  A `\u`
escape that names half of a surrogate pair decodes to the replacement
character, and the printer escapes the characters `MarshalIndent` escapes.

The parser recurses on a fuel that `parse` sets to the length of the text.
-/

namespace Lib.Json

/-! ### Number literals -/

/-- A nonempty run of digits. -/
def isDigits (cs : List Char) : Bool := !cs.isEmpty && cs.all Char.isDigit

/-- An optional exponent, up to the end. -/
def isExponent : List Char → Bool
  | [] => true
  | c :: cs => (c == 'e' || c == 'E') &&
      match cs with
      | [] => false
      | s :: ds => if s == '+' || s == '-' then isDigits ds else isDigits (s :: ds)

/-- An optional fraction and exponent, up to the end. -/
def isFraction : List Char → Bool
  | [] => true
  | c :: cs =>
      if c == '.' then
        !(cs.takeWhile Char.isDigit).isEmpty && isExponent (cs.dropWhile Char.isDigit)
      else isExponent (c :: cs)

/-- An unsigned number: no leading zero, then a fraction and an exponent. -/
def isUnsigned : List Char → Bool
  | [] => false
  | c :: cs =>
      if c == '0' then isFraction cs
      else c.isDigit && isFraction (cs.dropWhile Char.isDigit)

/-- A number literal of the JSON grammar. -/
def isNumber : List Char → Bool
  | [] => false
  | c :: cs => if c == '-' then isUnsigned cs else isUnsigned (c :: cs)

/-- A number literal. -/
structure Number where
  lit : List Char
  isNumber : isNumber lit = true
deriving DecidableEq

/-- A JSON value. -/
inductive Value where
  | null
  | bool (b : Bool)
  | number (n : Number)
  | string (s : String)
  | array (vs : List Value)
  | object (ms : List (String × Value))

/-! ### String literals -/

/-- The value of a hexadecimal digit. -/
def hexVal (c : Char) : Option Nat :=
  if '0' ≤ c ∧ c ≤ '9' then some (c.toNat - 48)
  else if 'a' ≤ c ∧ c ≤ 'f' then some (c.toNat - 87)
  else if 'A' ≤ c ∧ c ≤ 'F' then some (c.toNat - 55)
  else none

/-- Four hexadecimal digits. -/
def hex4 : List Char → Option (Nat × List Char)
  | a :: b :: c :: d :: cs => do
    let a ← hexVal a
    let b ← hexVal b
    let c ← hexVal c
    let d ← hexVal d
    some (((a * 16 + b) * 16 + c) * 16 + d, cs)
  | _ => none

/-- A character of a string literal, or the code unit of a `\u` escape. -/
inductive Piece where
  | char (c : Char)
  | codeUnit (u : Nat)

/-- What follows a backslash. -/
def escaped : List Char → Option (Piece × List Char)
  | [] => none
  | c :: cs =>
      if c = '"' ∨ c = '\\' ∨ c = '/' then some (.char c, cs)
      else if c = 'b' then some (.char '\x08', cs)
      else if c = 'f' then some (.char '\x0C', cs)
      else if c = 'n' then some (.char '\n', cs)
      else if c = 'r' then some (.char '\r', cs)
      else if c = 't' then some (.char '\t', cs)
      else if c = 'u' then (hex4 cs).map fun (u, cs) => (.codeUnit u, cs)
      else none

/-- The next piece of a string literal; a bare control character is refused. -/
def piece : List Char → Option (Piece × List Char)
  | [] => none
  | c :: cs =>
      if c = '\\' then escaped cs
      else if c.toNat < 0x20 then none
      else some (.char c, cs)

def isSurrogate (u : Nat) : Bool := 0xD800 ≤ u && u ≤ 0xDFFF

/-- The character a surrogate pair names. -/
def surrogatePair (u w : Nat) : Option Char :=
  if 0xD800 ≤ u ∧ u < 0xDC00 ∧ 0xDC00 ≤ w ∧ w < 0xE000 then
    some (Char.ofNat ((u - 0xD800) * 0x400 + (w - 0xDC00) + 0x10000))
  else none

/-- The rest of a string literal, after its opening quote. -/
def stringBody : Nat → List Char → Option (List Char × List Char)
  | 0, _ => none
  | n + 1, cs =>
    if cs.head? = some '"' then some ([], cs.tail)
    else match piece cs with
      | none => none
      | some (.char c, r) => (stringBody n r).map fun (s, r) => (c :: s, r)
      | some (.codeUnit u, r) =>
          if isSurrogate u then
            match piece r with
            | some (.codeUnit w, r') =>
                match surrogatePair u w with
                | some c => (stringBody n r').map fun (s, r) => (c :: s, r)
                | none => (stringBody n r).map fun (s, r) => ('\uFFFD' :: s, r)
            | _ => (stringBody n r).map fun (s, r) => ('\uFFFD' :: s, r)
          else (stringBody n r).map fun (s, r) => (Char.ofNat u :: s, r)

/-! ### The parser -/

def isSpace (c : Char) : Bool := c == ' ' || c == '\t' || c == '\n' || c == '\r'

def skipSpace (cs : List Char) : List Char := cs.dropWhile isSpace

def isNumberChar (c : Char) : Bool :=
  c.isDigit || c == '+' || c == '-' || c == '.' || c == 'e' || c == 'E'

/-- A keyword or a number. -/
def scalar (cs : List Char) : Option (Value × List Char) :=
  if "null".toList <+: cs then some (.null, cs.drop 4)
  else if "true".toList <+: cs then some (.bool true, cs.drop 4)
  else if "false".toList <+: cs then some (.bool false, cs.drop 5)
  else if h : isNumber (cs.takeWhile isNumberChar) then
    some (.number ⟨_, h⟩, cs.dropWhile isNumberChar)
  else none

mutual

/-- A value, after white space. -/
def value : Nat → List Char → Option (Value × List Char)
  | 0, _ => none
  | n + 1, cs =>
    match skipSpace cs with
    | [] => none
    | c :: cs =>
      if c = '"' then
        (stringBody (cs.length + 1) cs).map fun (s, r) => (.string (String.ofList s), r)
      else if c = '[' then
        if (skipSpace cs).head? = some ']' then some (.array [], (skipSpace cs).tail)
        else (elements n cs).map fun (vs, r) => (.array vs, r)
      else if c = '{' then
        if (skipSpace cs).head? = some '}' then some (.object [], (skipSpace cs).tail)
        else (members n cs).map fun (ms, r) => (.object ms, r)
      else scalar (c :: cs)

/-- The elements of an array, with the closing bracket. -/
def elements : Nat → List Char → Option (List Value × List Char)
  | 0, _ => none
  | n + 1, cs =>
    match value n cs with
    | none => none
    | some (v, r) =>
      if (skipSpace r).head? = some ']' then some ([v], (skipSpace r).tail)
      else if (skipSpace r).head? = some ',' then
        (elements n (skipSpace r).tail).map fun (vs, r) => (v :: vs, r)
      else none

/-- The members of an object, with the closing brace. -/
def members : Nat → List Char → Option (List (String × Value) × List Char)
  | 0, _ => none
  | n + 1, cs =>
    if (skipSpace cs).head? = some '"' then
      match stringBody cs.length (skipSpace cs).tail with
      | none => none
      | some (k, r) =>
        if (skipSpace r).head? = some ':' then
          match value n (skipSpace r).tail with
          | none => none
          | some (v, r) =>
            if (skipSpace r).head? = some '}' then
              some ([(String.ofList k, v)], (skipSpace r).tail)
            else if (skipSpace r).head? = some ',' then
              (members n (skipSpace r).tail).map fun (ms, r) => ((String.ofList k, v) :: ms, r)
            else none
        else none
    else none

end

/-- The value a text names, `none` where the text is not JSON. -/
def parse (text : String) : Option Value :=
  match value (text.toList.length + 1) text.toList with
  | none => none
  | some (v, r) => if skipSpace r = [] then some v else none

/-! ### The printer -/

/-- A hexadecimal digit. -/
def hexDigit (n : Nat) : Char := if n < 10 then Char.ofNat (48 + n) else Char.ofNat (87 + n)

/-- The `\u` escape of a character of the first plane. -/
def escapeUnit (c : Char) : List Char :=
  ['\\', 'u', hexDigit (c.toNat / 4096), hexDigit (c.toNat / 256 % 16),
    hexDigit (c.toNat / 16 % 16), hexDigit (c.toNat % 16)]

/-- One character of a string, as the printer writes it. -/
def escapeChar (c : Char) : List Char :=
  if c = '"' ∨ c = '\\' then ['\\', c]
  else if c = '\x08' then ['\\', 'b']
  else if c = '\x0C' then ['\\', 'f']
  else if c = '\n' then ['\\', 'n']
  else if c = '\r' then ['\\', 'r']
  else if c = '\t' then ['\\', 't']
  else if c.toNat < 0x20 ∨ c = '<' ∨ c = '>' ∨ c = '&' ∨ c.toNat = 0x2028 ∨ c.toNat = 0x2029 then
    escapeUnit c
  else [c]

/-- A string literal, up to and with its closing quote. -/
def quoteRest (s : List Char) : List Char := s.flatMap escapeChar ++ ['"']

/-- A line break and the indent of a level. -/
def newline (d : Nat) : List Char := '\n' :: List.replicate (2 * d) ' '

mutual

/-- A value whose first line is already indented to level `d`. -/
def render (d : Nat) : Value → List Char
  | .null => "null".toList
  | .bool true => "true".toList
  | .bool false => "false".toList
  | .number n => n.lit
  | .string s => '"' :: quoteRest s.toList
  | .array vs =>
      if vs.isEmpty then ['[', ']'] else '[' :: (renderElements (d + 1) vs ++ newline d ++ [']'])
  | .object ms =>
      if ms.isEmpty then ['{', '}'] else '{' :: (renderMembers (d + 1) ms ++ newline d ++ ['}'])

/-- The elements of an array, each on a line of its own. -/
def renderElements (d : Nat) : List Value → List Char
  | [] => []
  | v :: vs =>
      newline d ++ (render d v ++ ((if vs.isEmpty then [] else [',']) ++ renderElements d vs))

/-- The members of an object, each on a line of its own. -/
def renderMembers (d : Nat) : List (String × Value) → List Char
  | [] => []
  | m :: ms =>
      newline d ++ (renderMember d m ++ ((if ms.isEmpty then [] else [',']) ++ renderMembers d ms))

/-- A key and its value. -/
def renderMember (d : Nat) : String × Value → List Char
  | (k, v) => '"' :: (quoteRest k.toList ++ (':' :: ' ' :: render d v))

end

/-- `MarshalIndent(v, "", "  ")`. -/
def marshalIndent (v : Value) : String := String.ofList (render 0 v)

/-! ### Layouts -/

/-- The white space before an element of each level and behind a colon. -/
structure Layout where
  gap : Nat → List Char
  colon : List Char
  isSpace_gap : ∀ d, ∀ c ∈ gap d, isSpace c
  isSpace_colon : ∀ c ∈ colon, isSpace c

mutual

/-- A value of level `d` in a layout. -/
def layOut (L : Layout) (d : Nat) : Value → List Char
  | .null => "null".toList
  | .bool true => "true".toList
  | .bool false => "false".toList
  | .number n => n.lit
  | .string s => '"' :: quoteRest s.toList
  | .array vs =>
      if vs.isEmpty then ['[', ']'] else '[' :: (layOutElements L (d + 1) vs ++ L.gap d ++ [']'])
  | .object ms =>
      if ms.isEmpty then ['{', '}'] else '{' :: (layOutMembers L (d + 1) ms ++ L.gap d ++ ['}'])

def layOutElements (L : Layout) (d : Nat) : List Value → List Char
  | [] => []
  | v :: vs =>
      L.gap d ++ (layOut L d v ++ ((if vs.isEmpty then [] else [',']) ++ layOutElements L d vs))

def layOutMembers (L : Layout) (d : Nat) : List (String × Value) → List Char
  | [] => []
  | m :: ms =>
      L.gap d ++
        (layOutMember L d m ++ ((if ms.isEmpty then [] else [',']) ++ layOutMembers L d ms))

def layOutMember (L : Layout) (d : Nat) : String × Value → List Char
  | (k, v) => '"' :: (quoteRest k.toList ++ (':' :: (L.colon ++ layOut L d v)))

end

/-- No white space at all. -/
def compact : Layout where
  gap _ := []
  colon := []
  isSpace_gap := nofun
  isSpace_colon := nofun

/-- `Marshal(v)`. -/
def marshal (v : Value) : String := String.ofList (layOut compact 0 v)

end Lib.Json
