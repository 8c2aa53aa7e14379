import MqStudio.Lib.Disk
import MqStudio.Lib.Encoding
import MqStudio.Lib.Text
import MqStudio.Lib.Transition

/-!
# The master key

`crypto`: the key that every secret is encrypted under is read from `secret.key`, or made and
written there.  Any number of starts do so at once, in as many processes; each system call is one
step, may fail and may be the last of its process.

* `parseKey_of_length_lt`: a key that is not all there is no key.
* `one_key`: the starts that succeed all have the same key, as long as no write and no close fails
  that has put all of a key in place.
-/

namespace MqStudio.Storage

open Lib.Disk Lib.Transition Lib.Encoding Lib.Text

/-! ### The text of a key -/

def keyFileName : String := "secret.key"

/-- What a start makes of the file: a key is 32 bytes. -/
def parseKey (text : List Char) : Option (List UInt8) :=
  (decodeString (trimSpace (String.ofList text))).filter fun key => key.length == 32

theorem length_of_parseKey {text : List Char} {key : List UInt8} (h : parseKey text = some key) :
    key.length = 32 := by
  obtain ⟨-, hlen⟩ := Option.filter_eq_some_iff.mp h
  simpa using hlen

theorem trim_sublist (p : Char → Bool) (text : List Char) : (trim p text).length ≤ text.length :=
  (List.rdropWhile_prefix p _).length_le.trans (List.dropWhile_suffix p).length_le

/-- A key that is not all there is no key. -/
theorem parseKey_of_length_lt {text : List Char} (h : text.length < 44) : parseKey text = none := by
  cases hkey : parseKey text with
  | none => rfl
  | some key =>
    have hlen := length_of_parseKey hkey
    obtain ⟨hdecode, -⟩ := Option.filter_eq_some_iff.mp hkey
    have hbytes := length_of_decode hdecode
    have htext : (List.filter (fun c => !isNewline c)
        (trimSpace (String.ofList text)).toList).length ≤ text.length := by
      refine (List.length_filter_le _ _).trans ?_
      rw [trimSpace, String.toList_ofList, String.toList_ofList]
      exact trim_sublist _ _
    omega

theorem not_isSpace_symbol {n : ℕ} (h : n < 64) : isSpace (symbol n) = false := by
  have hall : ∀ n < 64, isSpace (symbol n) = false := by decide
  exact hall n h

theorem not_isSpace_encode (bytes : List UInt8) : ∀ c ∈ encode bytes, isSpace c = false := by
  have hpad : isSpace '=' = false := by decide
  induction bytes using encode.induct with
  | case1 => simp [encode]
  | case2 a =>
    have ha := a.toNat_lt
    simp only [encode, List.forall_mem_cons]
    exact ⟨not_isSpace_symbol (by omega), not_isSpace_symbol (by omega), hpad, hpad, by simp⟩
  | case3 a b =>
    have ha := a.toNat_lt
    have hb := b.toNat_lt
    simp only [encode, List.forall_mem_cons]
    exact ⟨not_isSpace_symbol (by omega), not_isSpace_symbol (by omega),
      not_isSpace_symbol (by omega), hpad, by simp⟩
  | case4 a b c rest ih =>
    have ha := a.toNat_lt
    have hb := b.toNat_lt
    have hc := c.toNat_lt
    simp only [encode, List.forall_mem_cons]
    exact ⟨not_isSpace_symbol (by omega), not_isSpace_symbol (by omega),
      not_isSpace_symbol (by omega), not_isSpace_symbol (by omega), ih⟩

theorem trim_eq_self {p : Char → Bool} {text : List Char} (h : ∀ c ∈ text, p c = false) :
    trim p text = text := by
  have hfront : text.dropWhile p = text := by
    cases text with
    | nil => rfl
    | cons c rest => exact List.dropWhile_cons_of_neg (by simp [h c])
  rw [trim, hfront, List.rdropWhile_eq_self_iff]
  intro hne
  simpa using h _ (List.getLast_mem hne)

/-- **A key that was written is read.** -/
theorem parseKey_encode {key : List UInt8} (h : key.length = 32) :
    parseKey (encode key) = some key := by
  have htrim : trimSpace (String.ofList (encode key)) = encodeToString key := by
    rw [trimSpace, String.toList_ofList, trim_eq_self (not_isSpace_encode key)]
    rfl
  rw [parseKey, htrim, decodeString_encodeToString]
  simp [h]

/-! ### Starts -/

/-- Where a start is: in front of the system call that the state is named for. -/
inductive Start where
  | idle
  | reading
  | generating
  | making (key : List UInt8)
  | opening (key : List UInt8)
  | writing (key : List UInt8) (file : ℕ) (rest : List Char)
  | closing (key : List UInt8) (file : ℕ)
  | removing (file : ℕ) (err : String)
  | returned (result : Except String (List UInt8))

structure Keys where
  disk : Directory Char
  starts : ℕ → Start

def Keys.setStart (w : Keys) (tid : ℕ) (start : Start) : Keys :=
  { w with starts := Function.update w.starts tid start }

@[simp] theorem starts_setStart (w : Keys) (tid : ℕ) (start : Start) :
    (w.setStart tid start).starts tid = start := Function.update_self ..

inductive KeyLabel where
  | init (tid : ℕ)
  | readFile (tid : ℕ) (err : Option String)
  /-- What `rand.Reader` gives: all 32 bytes, or an error. -/
  | random (tid : ℕ) (result : Except String (List UInt8))
  | mkdirAll (tid : ℕ) (err : Option String)
  | openFile (tid : ℕ) (err : Option String)
  /-- The next `n` characters reach the file. -/
  | append (tid n : ℕ)
  | wrote (tid : ℕ) (err : Option String)
  | close (tid : ℕ) (err : Option String)
  | remove (tid : ℕ) (gone : Bool)

def Start.isIdle : Start → Bool
  | .idle => true
  | _ => false

def corrupted : String :=
  "key file is corrupted; restore from backup or reconfigure credentials"

def Keys.readFile (w : Keys) : Option String → Start
  | some err => .returned (.error ("failed to read key: " ++ err))
  | none =>
    match w.disk.read keyFileName with
    | none => .generating
    | some text => match parseKey text with
      | none => .returned (.error corrupted)
      | some key => .returned (.ok key)

def Keys.openFile (w : Keys) (tid : ℕ) (key : List UInt8) : Option String → Keys
  | some err => w.setStart tid (.returned (.error ("failed to save key: " ++ err)))
  | none =>
    -- `O_EXCL`: the file must not be there.
    if (w.disk.entry keyFileName).isSome then
      w.setStart tid (.returned (.error "failed to save key: file exists"))
    else { w with disk := w.disk.create keyFileName }.setStart tid
      (.writing key w.disk.next (encode key))

def Keys.step (w : Keys) : KeyLabel → Option Keys
  | .init tid => if (w.starts tid).isIdle then some (w.setStart tid .reading) else none
  | .readFile tid err =>
    match w.starts tid with
    | .reading => some (w.setStart tid (w.readFile err))
    | _ => none
  | .random tid result =>
    match w.starts tid, result with
    | .generating, .error err =>
      some (w.setStart tid (.returned (.error ("failed to generate key: " ++ err))))
    | .generating, .ok key =>
      if key.length = 32 then some (w.setStart tid (.making key)) else none
    | _, _ => none
  | .mkdirAll tid err =>
    match w.starts tid with
    | .making key => some (w.setStart tid (match err with
        | some err => .returned (.error ("failed to create key directory: " ++ err))
        | none => .opening key))
    | _ => none
  | .openFile tid err =>
    match w.starts tid with
    | .opening key => some (w.openFile tid key err)
    | _ => none
  | .append tid n =>
    match w.starts tid with
    | .writing key file rest => some ({ w with disk := w.disk.append file (rest.take n) }.setStart
        tid (.writing key file (rest.drop n)))
    | _ => none
  | .wrote tid err =>
    match w.starts tid with
    | .writing key file rest =>
      if err.isNone && !rest.isEmpty then none
      else some (w.setStart tid (match err with
        | some err => .removing file ("failed to save key: " ++ err)
        | none => .closing key file))
    | _ => none
  | .close tid err =>
    match w.starts tid with
    | .closing key file => some (w.setStart tid (match err with
        | some err => .removing file ("failed to save key: " ++ err)
        | none => .returned (.ok key)))
    | _ => none
  | .remove tid gone =>
    match w.starts tid with
    | .removing _ err =>
      some ({ w with disk := if gone then w.disk.remove keyFileName else w.disk }.setStart tid
        (.returned (.error err)))
    | _ => none

/-- Before any start, with a key file or without one. -/
structure Keys.Started (w : Keys) : Prop where
  entry : ∀ file, w.disk.entry keyFileName = some file → file < w.disk.next
  starts : ∀ tid, w.starts tid = .idle

def keys : System Keys KeyLabel where
  Init := Keys.Started
  Step w label v := w.step label = some v

/-- A write that has put all of a key in place does not fail, and no close does. -/
def Orderly (w : Keys) : KeyLabel → Prop
  | .wrote tid (some _) => ∀ key file rest, w.starts tid = .writing key file rest → rest ≠ []
  | .close _ (some _) => False
  | _ => True

/-! ### Who has made the file -/

/-- The file a start has made and has not done with. -/
def Start.file : Start → Option ℕ
  | .writing _ file _ | .closing _ file | .removing file _ => some file
  | _ => none

/-- The key that a reading of the file finds. -/
def Found (d : Directory Char) (key : List UInt8) : Prop :=
  (d.read keyFileName).bind parseKey = some key

theorem found_iff {d : Directory Char} {key : List UInt8} {file : ℕ}
    (h : d.entry keyFileName = some file) :
    Found d key ↔ parseKey (d.content file) = some key := by
  rw [Found, Directory.read, h, Option.map_some, Option.bind_some]

theorem not_found {d : Directory Char} {key : List UInt8} (h : d.entry keyFileName = none) :
    ¬ Found d key := by
  rw [Found, Directory.read, h]
  intro hk
  cases hk

/-- What a start has, or has seen. -/
def Saw (d : Directory Char) : Start → Prop
  | .making key | .opening key => key.length = 32
  | .writing key file rest => key.length = 32 ∧ d.content file ++ rest = encode key
  | .closing key file => key.length = 32 ∧ d.content file = encode key
  | .removing file _ => (d.content file).length < 44
  | .returned (.ok key) => Found d key
  | _ => True

structure Keys.Inv (w : Keys) : Prop where
  lt : ∀ file, w.disk.entry keyFileName = some file → file < w.disk.next
  owner : ∀ tid file, (w.starts tid).file = some file → w.disk.entry keyFileName = some file
  only : ∀ i j, (w.starts i).file ≠ none → (w.starts j).file ≠ none → i = j
  saw : ∀ tid, Saw w.disk (w.starts tid)

variable {w v : Keys} {tid : ℕ} {label : KeyLabel} {key : List UInt8} {file : ℕ}
  {rest : List Char}

theorem Keys.Started.inv (h : w.Started) : w.Inv := by
  refine ⟨h.entry, fun tid file hf => ?_, fun i j hi => ?_, fun tid => ?_⟩
  · rw [h.starts] at hf
    cases hf
  · rw [h.starts] at hi
    exact absurd rfl hi
  · rw [h.starts]
    trivial

/-- A start moves on, and no other start has the file. -/
theorem Keys.Inv.move (h : w.Inv) {d : Directory Char} {start : Start}
    (hlt : ∀ file, d.entry keyFileName = some file → file < d.next)
    (howner : ∀ file, start.file = some file → d.entry keyFileName = some file)
    (honly : start.file ≠ none → ∀ i, i ≠ tid → (w.starts i).file = none)
    (hothers : ∀ i, i ≠ tid → ∀ file, (w.starts i).file = some file →
      d.entry keyFileName = some file)
    (hsaw : Saw d start) (hsaws : ∀ i, i ≠ tid → Saw d (w.starts i)) :
    ({ w with disk := d }.setStart tid start).Inv := by
  have hself : ({ w with disk := d }.setStart tid start).starts tid = start :=
    Function.update_self ..
  have hother : ∀ i, i ≠ tid → ({ w with disk := d }.setStart tid start).starts i = w.starts i :=
    fun i hi => Function.update_of_ne hi ..
  refine ⟨hlt, fun i file hf => ?_, fun i j hi hj => ?_, fun i => ?_⟩
  · by_cases hit : i = tid
    · subst hit
      rw [hself] at hf
      exact howner file hf
    · rw [hother i hit] at hf
      exact hothers i hit file hf
  · by_cases hit : i = tid
    · subst hit
      rw [hself] at hi
      by_contra hne
      rw [hother j (Ne.symm hne)] at hj
      exact hj (honly hi j (Ne.symm hne))
    · rw [hother i hit] at hi
      by_cases hjt : j = tid
      · subst hjt
        rw [hself] at hj
        exact absurd (honly hj i hit) hi
      · rw [hother j hjt] at hj
        exact h.only i j hi hj
  · by_cases hit : i = tid
    · subst hit
      rw [hself]
      exact hsaw
    · rw [hother i hit]
      exact hsaws i hit

/-- A start moves on and the directory is as it was. -/
theorem Keys.Inv.stay (h : w.Inv) {start : Start}
    (hfile : start.file = none ∨ start.file = (w.starts tid).file) (hsaw : Saw w.disk start) :
    (w.setStart tid start).Inv := by
  refine h.move (d := w.disk) h.lt (fun file hf => ?_) (fun hne i hi => ?_)
    (fun i _ file hf => h.owner i file hf) hsaw fun i _ => h.saw i
  · rcases hfile with hnone | heq
    · rw [hnone] at hf
      cases hf
    · exact h.owner tid file (heq ▸ hf)
  · rcases hfile with hnone | heq
    · exact absurd hnone hne
    · by_contra hsome
      exact hi (h.only i tid hsome (heq ▸ hne))

/-- What is read has the key a start has returned. -/
theorem Keys.Inv.content_of_ok (h : w.Inv) {i : ℕ} (hi : w.starts i = .returned (.ok key))
    (hentry : w.disk.entry keyFileName = some file) :
    parseKey (w.disk.content file) = some key := by
  have hsaw := h.saw i
  rw [hi] at hsaw
  exact (found_iff hentry).mp hsaw

/-- Only what a start has returned depends on the file that another start has made. -/
theorem Keys.Inv.saw_of_owner (h : w.Inv) {d : Directory Char}
    (htid : (w.starts tid).file = some file)
    (hok : ∀ i key, w.starts i = .returned (.ok key) → Found d key) (i : ℕ) (hi : i ≠ tid) :
    Saw d (w.starts i) := by
  have hnone : (w.starts i).file = none := by
    by_contra hsome
    exact hi (h.only i tid hsome (by rw [htid]; simp))
  have hsaw := h.saw i
  cases hstart : w.starts i with
  | writing key file rest | closing key file | removing file err =>
    rw [hstart] at hnone
    cases hnone
  | making key | opening key =>
    rw [hstart] at hsaw
    exact hsaw
  | returned result =>
    cases result with
    | error err => trivial
    | ok key => exact hok i key hstart
  | idle | reading | generating => trivial

/-- The start that has made the file writes some more of it. -/
theorem Keys.Inv.append (h : w.Inv) (hstart : w.starts tid = .writing key file rest) (n : ℕ) :
    ({ w with disk := w.disk.append file (rest.take n) }.setStart tid
      (.writing key file (rest.drop n))).Inv := by
  have hfile : (w.starts tid).file = some file := by rw [hstart]; rfl
  have hentry := h.owner tid file hfile
  have hsaw := h.saw tid
  rw [hstart] at hsaw
  obtain ⟨hlen, hcontent⟩ := hsaw
  refine h.move h.lt (fun f hf => ?_) (fun _ i hi => ?_) (fun i _ f hf => h.owner i f hf)
    ⟨hlen, ?_⟩ (h.saw_of_owner hfile fun i key' hi => ?_)
  · exact h.owner tid f (by rw [hstart]; exact hf)
  · by_contra hsome
    exact hi (h.only i tid hsome (by rw [hfile]; simp))
  · rw [content_append, List.append_assoc, List.take_append_drop]
    exact hcontent
  · -- A start has read all of the key, so there is no more to be written.
    have hkey := h.content_of_ok hi hentry
    have hall : rest = [] := by
      by_contra hne
      have htotal := congrArg List.length hcontent
      rw [List.length_append, length_encode, hlen] at htotal
      have hpos := List.length_pos_iff.mpr hne
      rw [parseKey_of_length_lt (by omega)] at hkey
      cases hkey
    subst hall
    refine (found_iff (d := w.disk.append file (List.take n [])) hentry).mpr ?_
    rw [List.take_nil, content_append, List.append_nil]
    exact hkey

/-- The file is made by a start that has found none. -/
theorem Keys.Inv.create (h : w.Inv) (hstart : w.starts tid = .opening key)
    (hnone : w.disk.entry keyFileName = none) :
    ({ w with disk := w.disk.create keyFileName }.setStart tid
      (.writing key w.disk.next (encode key))).Inv := by
  have hfree : ∀ i, (w.starts i).file = none := by
    intro i
    cases hf : (w.starts i).file with
    | none => rfl
    | some f =>
      have := h.owner i f hf
      rw [hnone] at this
      cases this
  have hlen := h.saw tid
  rw [hstart] at hlen
  refine h.move (fun f hf => ?_) (fun f hf => ?_) (fun _ i _ => hfree i) (fun i _ f hf => ?_)
    ⟨hlen, ?_⟩ fun i _ => ?_
  · rw [entry_create] at hf
    obtain rfl := Option.some.inj hf
    exact Nat.lt_succ_self _
  · obtain rfl := Option.some.inj hf
    exact entry_create
  · rw [hfree i] at hf
    cases hf
  · rw [content_create, List.nil_append]
  · have hsaw := h.saw i
    have hf := hfree i
    cases hi : w.starts i with
    | writing key file rest | closing key file | removing file err =>
      rw [hi] at hf
      cases hf
    | making key | opening key =>
      rw [hi] at hsaw
      exact hsaw
    | returned result =>
      cases result with
      | error err => trivial
      | ok key =>
        rw [hi] at hsaw
        exact absurd hsaw (not_found hnone)
    | idle | reading | generating => trivial

/-- The start that has made a part of the file takes it away. -/
theorem Keys.Inv.remove (h : w.Inv) {err : String} (hstart : w.starts tid = .removing file err)
    (gone : Bool) :
    ({ w with disk := if gone then w.disk.remove keyFileName else w.disk }.setStart tid
      (.returned (.error err))).Inv := by
  cases gone with
  | false => exact h.stay (Or.inl rfl) trivial
  | true =>
    have hfile : (w.starts tid).file = some file := by rw [hstart]; rfl
    have hsaw := h.saw tid
    rw [hstart] at hsaw
    have hothers : ∀ i, i ≠ tid → (w.starts i).file = none := by
      intro i hi
      by_contra hsome
      exact hi (h.only i tid hsome (by rw [hfile]; simp))
    refine h.move (fun f hf => ?_) nofun nofun (fun i hi f hf => ?_) trivial
      (h.saw_of_owner hfile fun i key hi => ?_)
    · rw [if_pos rfl, Directory.remove, entry_setEntry] at hf
      cases hf
    · rw [hothers i hi] at hf
      cases hf
    · have hkey := h.content_of_ok hi (h.owner tid file hfile)
      rw [parseKey_of_length_lt hsaw] at hkey
      cases hkey

/-- **Every step keeps the invariant.** -/
theorem Keys.Inv.step (h : w.Inv) (ho : Orderly w label) (hs : w.step label = some v) :
    v.Inv := by
  cases label with
  | init tid =>
    simp only [Keys.step] at hs
    split at hs
    · obtain rfl := Option.some.inj hs
      exact h.stay (Or.inl rfl) trivial
    · cases hs
  | readFile tid err =>
    simp only [Keys.step] at hs
    split at hs
    · obtain rfl := Option.some.inj hs
      cases err with
      | some err => exact h.stay (Or.inl rfl) trivial
      | none =>
        unfold Keys.readFile
        dsimp only
        cases hread : w.disk.read keyFileName with
        | none => exact h.stay (Or.inl rfl) trivial
        | some text =>
          dsimp only
          cases hkey : parseKey text with
          | none => exact h.stay (Or.inl rfl) trivial
          | some key =>
            refine h.stay (Or.inl rfl) ?_
            change Found w.disk key
            rw [Found, hread, Option.bind_some]
            exact hkey
    · cases hs
  | random tid result =>
    simp only [Keys.step] at hs
    split at hs
    · obtain rfl := Option.some.inj hs
      exact h.stay (Or.inl rfl) trivial
    · split at hs
      · rename_i hlen
        obtain rfl := Option.some.inj hs
        exact h.stay (Or.inl rfl) hlen
      · cases hs
    · cases hs
  | mkdirAll tid err =>
    simp only [Keys.step] at hs
    split at hs
    · rename_i key hstart
      obtain rfl := Option.some.inj hs
      have hsaw := h.saw tid
      rw [hstart] at hsaw
      cases err with
      | some err => exact h.stay (Or.inl rfl) trivial
      | none => exact h.stay (Or.inl rfl) hsaw
    · cases hs
  | openFile tid err =>
    simp only [Keys.step] at hs
    split at hs
    · rename_i key hstart
      obtain rfl := Option.some.inj hs
      cases err with
      | some err => exact h.stay (Or.inl rfl) trivial
      | none =>
        unfold Keys.openFile
        dsimp only
        split
        · exact h.stay (Or.inl rfl) trivial
        · rename_i hnone
          exact h.create hstart (Option.not_isSome_iff_eq_none.mp hnone)
    · cases hs
  | append tid n =>
    simp only [Keys.step] at hs
    split at hs
    · rename_i key file rest hstart
      obtain rfl := Option.some.inj hs
      exact h.append hstart n
    · cases hs
  | wrote tid err =>
    simp only [Keys.step] at hs
    split at hs
    · rename_i key file rest hstart
      split at hs
      · cases hs
      · rename_i hrest
        obtain rfl := Option.some.inj hs
        have hsaw := h.saw tid
        rw [hstart] at hsaw
        obtain ⟨hlen, hcontent⟩ := hsaw
        cases err with
        | none =>
          obtain rfl : rest = [] := by simpa using hrest
          rw [List.append_nil] at hcontent
          exact h.stay (Or.inr (by rw [hstart]; rfl)) ⟨hlen, hcontent⟩
        | some err =>
          refine h.stay (Or.inr (by rw [hstart]; rfl)) ?_
          have htotal := congrArg List.length hcontent
          rw [List.length_append, length_encode, hlen] at htotal
          have hpos := List.length_pos_iff.mpr (ho key file rest hstart)
          change (w.disk.content file).length < 44
          omega
    · cases hs
  | close tid err =>
    simp only [Keys.step] at hs
    split at hs
    · rename_i key file hstart
      obtain rfl := Option.some.inj hs
      cases err with
      | some err => exact ho.elim
      | none =>
        have hsaw := h.saw tid
        rw [hstart] at hsaw
        refine h.stay (Or.inl rfl) ((found_iff (h.owner tid file (by rw [hstart]; rfl))).mpr ?_)
        rw [hsaw.2]
        exact parseKey_encode hsaw.1
    · cases hs
  | remove tid gone =>
    simp only [Keys.step] at hs
    split at hs
    · rename_i file err hstart
      obtain rfl := Option.some.inj hs
      exact h.remove hstart gone
    · cases hs

/-- The runs in which every step is `Orderly`. -/
abbrev KeyRun (w : Keys) : Prop := Reachable (keys.guard Orderly) w

theorem KeyRun.inv (h : KeyRun w) : w.Inv :=
  Reachable.inv (S := keys.guard Orderly) (P := Keys.Inv) (fun _ hw => Keys.Started.inv hw)
    (fun _ _ _ hw hs => hw.step hs.2 hs.1) h

/-! ### One key -/

/-- A step is one of a start that has not returned. -/
theorem step_moves (hs : w.step label = some v) : ∃ i start d,
    v = { w with disk := d }.setStart i start ∧ ∀ result, w.starts i ≠ .returned result := by
  have hmoves : ∀ {i start d}, (∀ result, w.starts i ≠ .returned result) →
      { w with disk := d }.setStart i start = v → ∃ i start d,
        v = { w with disk := d }.setStart i start ∧ ∀ result, w.starts i ≠ .returned result :=
    fun hi hv => ⟨_, _, _, hv.symm, hi⟩
  cases label with
  | init tid =>
    simp only [Keys.step] at hs
    split at hs
    · rename_i hidle
      refine hmoves (fun result hr => ?_) (Option.some.inj hs)
      rw [hr] at hidle
      cases hidle
    · cases hs
  | openFile tid err =>
    simp only [Keys.step] at hs
    split at hs
    · rename_i key hstart
      have hopening : ∀ result, w.starts tid ≠ .returned result := by
        rw [hstart]
        nofun
      have hv := Option.some.inj hs
      unfold Keys.openFile at hv
      cases err with
      | some err => exact hmoves hopening hv
      | none =>
        dsimp only at hv
        split at hv <;> exact hmoves hopening hv
    · cases hs
  | random tid result =>
    simp only [Keys.step] at hs
    split at hs
    · rename_i hstart
      exact hmoves (by rw [hstart]; nofun) (Option.some.inj hs)
    · rename_i hstart
      split at hs
      · exact hmoves (by rw [hstart]; nofun) (Option.some.inj hs)
      · cases hs
    · cases hs
  | wrote tid err =>
    simp only [Keys.step] at hs
    split at hs
    · rename_i hstart
      split at hs
      · cases hs
      · exact hmoves (by rw [hstart]; nofun) (Option.some.inj hs)
    · cases hs
  | readFile tid | mkdirAll tid | append tid | close tid | remove tid =>
    simp only [Keys.step] at hs
    split at hs
    · rename_i hstart
      exact hmoves (by rw [hstart]; nofun) (Option.some.inj hs)
    · cases hs

/-- A start that has returned has returned for good. -/
theorem returned_step {result : Except String (List UInt8)}
    (h : w.starts tid = .returned result) (hs : w.step label = some v) :
    v.starts tid = .returned result := by
  obtain ⟨i, start, d, rfl, hi⟩ := step_moves hs
  have hne : tid ≠ i := by
    rintro rfl
    exact hi result h
  exact (Function.update_of_ne hne ..).trans h

theorem returned_path {labels : List KeyLabel} {result : Except String (List UInt8)}
    (hpath : Path (keys.guard Orderly) w labels v) (h : w.starts tid = .returned result) :
    v.starts tid = .returned result := by
  induction hpath with
  | refl => exact h
  | tail _ hst ih => exact returned_step ih hst.1

/-- **There is one key**: what a start returns any start returns later that returns a key, and the
file goes on having it. -/
theorem one_key {labels : List KeyLabel} (h : KeyRun w) {i j : ℕ} {k : List UInt8}
    (hi : w.starts i = .returned (.ok key)) (hpath : Path (keys.guard Orderly) w labels v)
    (hj : v.starts j = .returned (.ok k)) : k = key ∧ Found v.disk key := by
  have hv : v.Inv := KeyRun.inv (hpath.reachable h)
  have hfound : ∀ {l : ℕ} {k : List UInt8}, v.starts l = .returned (.ok k) → Found v.disk k := by
    intro l k hl
    have hsaw := hv.saw l
    rw [hl] at hsaw
    exact hsaw
  have hfirst := hfound (returned_path hpath hi)
  exact ⟨Option.some.inj ((hfound hj).symm.trans hfirst), hfirst⟩

theorem KeyRun.system_call (h : KeyRun w) (label : KeyLabel) (ho : Orderly w label)
    (hs : w.step label = some v) : KeyRun v := Reachable.step h ⟨hs, ho⟩

theorem readFile_of_found (h : Found w.disk key) : w.readFile none = .returned (.ok key) := by
  unfold Found at h
  unfold Keys.readFile
  cases hread : w.disk.read keyFileName with
  | none =>
    rw [hread] at h
    cases h
  | some text =>
    rw [hread, Option.bind_some] at h
    dsimp only
    rw [h]

/-- An empty directory. -/
def emptyKeys : Keys :=
  ⟨⟨fun _ => none, fun _ => [], fun _ => [], fun _ => true, 0⟩, fun _ => .idle⟩

def zeroKey : List UInt8 := List.replicate 32 0

/-- A first start makes a key. -/
theorem key_made : ∃ w, KeyRun w ∧ w.starts 0 = .returned (.ok zeroKey) ∧ w.starts 1 = .idle := by
  have h0 : KeyRun emptyKeys := .init ⟨nofun, fun _ => rfl⟩
  have h1 := h0.system_call (.init 0) trivial rfl
  have h2 := h1.system_call (.readFile 0 none) trivial rfl
  have h3 := h2.system_call (.random 0 (.ok zeroKey)) trivial rfl
  have h4 := h3.system_call (.mkdirAll 0 none) trivial rfl
  have h5 := h4.system_call (.openFile 0 none) trivial rfl
  have h6 := h5.system_call (.append 0 44) trivial rfl
  have h7 := h6.system_call (.wrote 0 none) trivial rfl
  have h8 := h7.system_call (.close 0 none) trivial rfl
  exact ⟨_, h8, rfl, rfl⟩

/-- A second one finds it. -/
theorem key_found : ∃ w v : Keys, KeyRun w ∧ w.starts 0 = .returned (.ok zeroKey) ∧
    v.starts 1 = .returned (.ok zeroKey) ∧ Found v.disk zeroKey := by
  obtain ⟨w, h, hmade, hidle⟩ := key_made
  have hfound : Found w.disk zeroKey := by
    have hsaw := h.inv.saw 0
    rw [hmade] at hsaw
    exact hsaw
  set reading := w.setStart 1 .reading with hreading
  set found := reading.setStart 1 (.returned (.ok zeroKey)) with hv
  have hinit : w.step (.init 1) = some reading := by
    simp [Keys.step, hidle, Start.isIdle, hreading]
  have hstart : reading.starts 1 = .reading := starts_setStart ..
  have hread : reading.step (.readFile 1 none) = some found := by
    have hkey := readFile_of_found (w := reading) hfound
    simp only [Keys.step, hstart, hkey, hv]
  have hfirst : (keys.guard Orderly).Step w (.init 1) reading := ⟨hinit, trivial⟩
  have hsecond : (keys.guard Orderly).Step reading (.readFile 1 none) found := ⟨hread, trivial⟩
  have hpath : Path (keys.guard Orderly) w ([] ++ [.init 1] ++ [.readFile 1 none]) found :=
    .tail (.tail (.refl w) hfirst) hsecond
  have hreturned : found.starts 1 = .returned (.ok zeroKey) := starts_setStart ..
  exact ⟨w, found, h, hmade, hreturned, (one_key h hmade hpath hreturned).2⟩

end MqStudio.Storage
