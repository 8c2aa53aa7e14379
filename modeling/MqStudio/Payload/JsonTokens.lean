import MqStudio.Lib.Regex

/-!
# The runs of a message body that are coloured

`lib/jsonTokens.ts`: the body that is being typed is cut into runs by a regular expression, and
what that steps over is plain.  Texts are lists of UTF-16 code units.

* `scanner`: the expression, alternative by alternative.
* `tokenizeJson`: the loop over its matches, which ends as every match takes something.
* `Runs`: the runs of a source, with the quoted ones told apart from the others.
* `tokenizeJson_runs`: what the loop makes of any source.
-/

namespace MqStudio.Payload

open Lib.Regex

/-- The code unit of a character below `2 ^ 16`. -/
def unit (c : Char) : UInt16 := c.toNat.toUInt16

def units (s : String) : List UInt16 := s.toList.map unit

inductive JsonTokenKind where
  | key
  | string
  | number
  | literal
  | punct
  | plain
  deriving DecidableEq

structure JsonToken where
  kind : JsonTokenKind
  text : List UInt16
  deriving DecidableEq

/-! ### The expression -/

def quote : UInt16 := unit '"'
def colon : UInt16 := unit ':'
def backslash : UInt16 := unit '\\'

/-- One of the units of a text, as in `[…]`. -/
def oneOf (s : String) : Expr UInt16 := .one fun u => u ∈ units s

def between (first last : Char) (u : UInt16) : Bool := unit first ≤ u && u ≤ unit last

/-- `\d` -/
def isDigit : UInt16 → Bool := between '0' '9'

def isLetter (u : UInt16) : Bool := between 'A' 'Z' u || between 'a' 'z' u

/-- `\w` -/
def isWord (u : UInt16) : Bool := isLetter u || isDigit u || u == unit '_'

/-- What `.` does not match. -/
def isLineTerminator (u : UInt16) : Bool := u ∈ [0x0A, 0x0D, 0x2028, 0x2029]

/-- `"(?:[^"\\\n]|\\.)*"?` -/
def stringPattern : Expr UInt16 :=
  .seq (.one fun u => u == quote) (.seq
    (.star (.alt (.one fun u => u != quote && u != backslash && u != unit '\n')
      (.seq (.one fun u => u == backslash) (.one fun u => !isLineTerminator u))))
    (.opt (.one fun u => u == quote)))

/-- `\b(?:true|false|null)\b` -/
def literalPattern : Expr UInt16 :=
  .seq (.boundary isWord) (.seq (.alt (.word (units "true"))
    (.alt (.word (units "false")) (.word (units "null")))) (.boundary isWord))

/-- `[A-Za-z_$][\w$]*` -/
def wordPattern : Expr UInt16 :=
  .seq (.one fun u => isLetter u || u ∈ units "_$")
    (.star (.one fun u => isWord u || u == unit '$'))

/-- `-?\d+(?:\.\d+)?(?:[eE][+-]?\d+)?` -/
def numberPattern : Expr UInt16 :=
  .seq (.opt (oneOf "-")) (.seq (.plus (.one isDigit)) (.seq
    (.opt (.seq (oneOf ".") (.plus (.one isDigit))))
    (.opt (.seq (oneOf "eE") (.seq (.opt (oneOf "+-")) (.plus (.one isDigit)))))))

/-- `[{}[\],:]` -/
def punctuatorPattern : Expr UInt16 := oneOf "\x7b\x7d[],:"

def scanner : Expr UInt16 :=
  .alt stringPattern (.alt literalPattern (.alt wordPattern (.alt numberPattern punctuatorPattern)))

def punctuators : List UInt16 := units "\x7b\x7d[],:"

/-! ### The loop -/

/-- A space, a tab or a line break. -/
def isBlank (u : UInt16) : Bool := u ∈ units " \t\n\r"

/-- What is behind a text starts with a colon, when blanks are left out. -/
def beforeColon : List UInt16 → Bool
  | [] => false
  | u :: us => if isBlank u then beforeColon us else u == colon

def kindOf (text after : List UInt16) : JsonTokenKind :=
  if text.head? = some quote then if beforeColon after then .key else .string
  else if text ∈ [units "true", units "false", units "null"] then .literal
  else if text.length = 1 ∧ ∀ u ∈ text, u ∈ punctuators then .punct
  else if text.head?.any fun u => u == unit '-' || isDigit u then .number
  else .plain

/-- A plain run, unless it is empty. -/
def plainRun (text : List UInt16) : List JsonToken :=
  if text = [] then [] else [⟨.plain, text⟩]

theorem consumes_scanner : consumes scanner = true := by decide

/-- The runs from a position on.  The index that the loop remembers as `plainFrom` is the one the
expression goes on from. -/
def tokensFrom (c : Cursor UInt16) : List JsonToken :=
  match h : search scanner c with
  | none => plainRun c.ahead
  | some (start, stop) =>
    have : stop.ahead.length < c.ahead.length := search_progress consumes_scanner h
    plainRun (c.upTo start) ++
      ⟨kindOf (start.upTo stop) stop.ahead, start.upTo stop⟩ :: tokensFrom stop
termination_by c.ahead.length

def tokenizeJson (source : List UInt16) : List JsonToken := tokensFrom ⟨[], source⟩

/-! ### The runs of a source -/

/-- A run that is a key or a string in front of a text: the next unit that is not blank tells a key
from a string. -/
structure Told (t : JsonToken) (after : List UInt16) : Prop where
  quoted : t.kind = .key ∨ t.kind = .string ↔ t.text.head? = some quote
  key : t.text.head? = some quote →
    (t.kind = .key ↔ (after.find? fun u => !isBlank u) = some colon)

/-- Non-empty runs that make up a source, each told apart by what follows it. -/
structure Runs (source : List UInt16) (tokens : List JsonToken) : Prop where
  nonempty : ∀ t ∈ tokens, t.text ≠ []
  whole : tokens.flatMap (·.text) = source
  told : ∀ before t after, tokens = before ++ t :: after → Told t (after.flatMap (·.text))

theorem Runs.nil : Runs [] [] where
  nonempty := List.forall_mem_nil _
  whole := rfl
  told := fun _ _ _ h => absurd h.symm (List.append_ne_nil_of_right_ne_nil _ (List.cons_ne_nil _ _))

theorem Runs.cons {source : List UInt16} {t : JsonToken} {tokens : List JsonToken}
    (hne : t.text ≠ []) (ht : Told t source) (h : Runs source tokens) :
    Runs (t.text ++ source) (t :: tokens) where
  nonempty := List.forall_mem_cons.mpr ⟨hne, h.nonempty⟩
  whole := by rw [List.flatMap_cons, h.whole]
  told := by
    intro before u after heq
    cases before with
    | nil =>
      obtain ⟨rfl, rfl⟩ := List.cons.inj heq
      rwa [h.whole]
    | cons b before => exact h.told before u after (List.cons.inj heq).2

theorem beforeColon_iff (us : List UInt16) :
    beforeColon us = true ↔ (us.find? fun u => !isBlank u) = some colon := by
  induction us with
  | nil => simp [beforeColon]
  | cons u us ih =>
    rw [beforeColon, List.find?_cons]
    by_cases hblank : isBlank u = true
    · simpa [hblank] using ih
    · simp [hblank]

/-- The kind of a match. -/
theorem told_kindOf (text after : List UInt16) : Told ⟨kindOf text after, text⟩ after := by
  by_cases hquote : text.head? = some quote
  · by_cases hcolon : beforeColon after = true
    · have hkind : kindOf text after = .key := by rw [kindOf, if_pos hquote, if_pos hcolon]
      refine ⟨⟨fun _ => hquote, fun _ => .inl hkind⟩, fun _ => ⟨fun _ => ?_, fun _ => hkind⟩⟩
      exact (beforeColon_iff after).mp hcolon
    · have hkind : kindOf text after = .string := by rw [kindOf, if_pos hquote, if_neg hcolon]
      refine ⟨⟨fun _ => hquote, fun _ => .inr hkind⟩, fun _ => ⟨fun h => ?_, fun h => ?_⟩⟩
      · exact absurd (hkind.symm.trans h) (by decide)
      · exact absurd ((beforeColon_iff after).mpr h) hcolon
  · have hkind : kindOf text after ≠ .key ∧ kindOf text after ≠ .string := by
      rw [kindOf, if_neg hquote]
      split_ifs <;> decide
    exact ⟨⟨fun h => absurd h (not_or.mpr hkind), fun h => absurd h hquote⟩,
      fun h => absurd h hquote⟩

/-- A plain run holds no quote. -/
theorem Runs.plainRun {source text : List UInt16} {tokens : List JsonToken}
    (htext : ∀ u ∈ text, u ≠ quote) (h : Runs source tokens) :
    Runs (text ++ source) (plainRun text ++ tokens) := by
  cases text with
  | nil => exact h
  | cons u us =>
    refine Runs.cons (t := ⟨.plain, u :: us⟩) (List.cons_ne_nil _ _) ?_ h
    have hquote : (u :: us).head? ≠ some quote := fun heq =>
      htext u List.mem_cons_self (Option.some.inj heq)
    refine ⟨⟨fun hkind => ?_, fun heq => absurd heq hquote⟩, fun heq => absurd heq hquote⟩
    rcases hkind with hkind | hkind <;> cases hkind

/-- There is a match at every quote: what follows it may be empty, and so may the second quote. -/
theorem ends_scanner_quote (behind : List UInt16) (u : UInt16) (ahead : List UInt16)
    (hu : u = quote) : ends scanner ⟨behind, u :: ahead⟩ ≠ [] := by
  refine List.append_ne_nil_of_left_ne_nil (ends_seq_ne_nil ?_ (ends_ne_nil rfl)) _
  simp [ends, hu]

theorem tokensFrom_runs (c : Cursor UInt16) : Runs c.ahead (tokensFrom c) := by
  induction hn : c.ahead.length using Nat.strong_induction_on generalizing c with
  | _ n ih =>
    rw [tokensFrom]
    split
    · rename_i hnone
      have hplain := Runs.plainRun (search_none ends_scanner_quote hnone) Runs.nil
      rwa [List.append_nil, List.append_nil] at hplain
    · rename_i start stop hsome
      obtain ⟨hstop, skipped, hskip, hplain⟩ := search_spec ends_scanner_quote hsome
      obtain ⟨matched, htake⟩ := mem_ends_reaches scanner start stop hstop
      have hlt := lt_of_consumes consumes_scanner hstop
      have hne : matched ≠ [] := by
        rintro rfl
        rw [htake.length, List.length_nil, Nat.zero_add] at hlt
        exact lt_irrefl _ hlt
      have hrest := ih _ (hn ▸ search_progress consumes_scanner hsome) stop rfl
      have hruns : Runs c.ahead
          (plainRun skipped ++ ⟨kindOf matched stop.ahead, matched⟩ :: tokensFrom stop) := by
        rw [hskip.ahead, htake.ahead]
        exact .plainRun hplain (.cons hne (told_kindOf matched stop.ahead) hrest)
      rwa [hskip.upTo, htake.upTo]

/-- **Every source is cut into its runs.** -/
theorem tokenizeJson_runs (source : List UInt16) : Runs source (tokenizeJson source) :=
  tokensFrom_runs ⟨[], source⟩

end MqStudio.Payload
