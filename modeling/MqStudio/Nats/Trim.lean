import MqStudio.Lib.Errors
import MqStudio.Lib.JavaScript
import MqStudio.Nats.Browse

/-!
# Trimming a NATS stream

`PurgeDialogNats.tsx`, `bridge/nats.go` and `nats/trim.go`: the head of a stream is discarded, up to
the newest messages that are kept or up to a sequence.

* `purgeInputOf`, `PurgeCall.decode`, `trim`: a trim from the dialog to the server.
* `Bound.kept`: what a bound asks to keep.
* `trim_right_iff`: a trim that succeeds keeps what was asked and counts what went, for every answer
  of the server, exactly if it is `Safe`.
-/

namespace MqStudio.Nats.Trim

open Lib.Errors Lib.JavaScript Lib.Json
open Browse (parseUint)

/-! ### The dialog -/

inductive PurgeStrategy where
  | maxlen
  | minid
deriving DecidableEq

def PurgeStrategy.text : PurgeStrategy → String
  | .maxlen => "maxlen"
  | .minid => "minid"

/-- What the page sends; the count is a JavaScript number. -/
structure PurgeCall where
  stream : String
  strategy : String
  keep : Whole
  sequence : String

/-- `purgeInputOf`: none where it cannot be sent. -/
def purgeInputOf (stream : String) (strategy : PurgeStrategy) (keep sequence : String) :
    Option PurgeCall :=
  match strategy with
  | .maxlen =>
    let trimmed := jsTrim keep
    if trimmed = "" then none
    else
      match parseInt trimmed with
      | none => none
      | some parsed =>
        if parsed.isNegative ∨ parsed.text ≠ trimmed then none
        else some ⟨stream, strategy.text, parsed, ""⟩
  | .minid =>
    let trimmed := jsTrim sequence
    if isDigits trimmed.toList then
      some ⟨stream, strategy.text, .small 0 (Nat.zero_le _), trimmed⟩
    else none

/-! ### The bridge -/

structure PurgeInput where
  stream : String
  strategy : String
  keep : Int64
  sequence : String

/-- A number of the page as an `int64` of the bridge: in digits and in range.  An infinity is sent
as `null`, which sets nothing. -/
def decodeInt64 : Whole → Option Int64
  | .infinity _ => some 0
  | .finite n exact bounded =>
    (Lib.Strconv.parseInt 64 (Whole.finite n exact bounded).text.toList).map Int64.ofInt

def PurgeCall.decode (call : PurgeCall) : Option PurgeInput :=
  (decodeInt64 call.keep).map fun keep => ⟨call.stream, call.strategy, keep, call.sequence⟩

structure TrimRequest where
  name : String
  strategy : String
  maxLen : Int64
  minID : String

def PurgeInput.request (input : PurgeInput) : TrimRequest :=
  ⟨input.stream, input.strategy, input.keep, input.sequence⟩

def TrimMaxLen : String := "maxlen"
def TrimMinID : String := "minid"

/-! ### The server -/

/-- A stream, as the sequences it still holds. -/
structure StreamState where
  held : List Nat
  sorted : held.Pairwise (· < ·)
  words : ∀ s ∈ held, 0 < s ∧ s < 2 ^ 64

/-- The sequences are numbered from one and fit a word, so that their count does. -/
theorem StreamState.length_lt (st : StreamState) : st.held.length < 2 ^ 64 := by
  have hnodup : st.held.Nodup := st.sorted.imp fun h => Nat.ne_of_lt h
  have hsub : st.held ⊆ List.range' 1 (2 ^ 64 - 1) := fun s hs => by
    obtain ⟨hpos, hlt⟩ := st.words s hs
    rw [List.mem_range'_1]
    omega
  have hle := (hnodup.subperm hsub).length_le
  rw [List.length_range'] at hle
  omega

def StreamState.msgs (st : StreamState) : UInt64 := UInt64.ofNat st.held.length

/-- A purge as the server is sent it; zero is no bound. -/
structure PurgeRequest where
  seq : UInt64
  keep : UInt64
deriving DecidableEq

def WithPurgeKeep (keep : UInt64) : PurgeRequest := ⟨0, keep⟩

def WithPurgeSequence (sequence : UInt64) : PurgeRequest := ⟨sequence, 0⟩

/-- What a purge leaves. -/
def PurgeRequest.left (request : PurgeRequest) (held : List Nat) : List Nat :=
  if 0 < request.seq then held.filter fun s => request.seq.toNat ≤ s
  else if 0 < request.keep then held.drop (held.length - request.keep.toNat)
  else []

theorem PurgeRequest.left_sublist (request : PurgeRequest) (held : List Nat) :
    (request.left held).Sublist held := by
  rw [left]
  split
  · exact List.filter_sublist
  · split
    · exact List.drop_sublist _ _
    · exact List.nil_sublist _

def StreamState.purge (st : StreamState) (request : PurgeRequest) : StreamState where
  held := request.left st.held
  sorted := st.sorted.sublist (request.left_sublist _)
  words s hs := st.words s ((request.left_sublist _).subset hs)

inductive ServerError where
  | streamNotFound
  | other (err : Error)

/-- `streamError`. -/
def streamError (name : String) : ServerError → Error
  | .streamNotFound => .new ("stream \"" ++ name ++ "\" does not exist")
  | .other err => err

/-- The errors of a connection without JetStream, and of the four calls of a trim. -/
structure Server where
  jetStream : Option Error
  stream : Option ServerError
  before : Option ServerError
  purge : Option ServerError
  after : Option ServerError

/-! ### The driver -/

/-- `purgeOption`. -/
def purgeOption (request : TrimRequest) : Except Error PurgeRequest :=
  if request.strategy = TrimMaxLen then
    if request.maxLen < 0 then .error (.new "cannot keep a negative number of messages")
    else .ok (WithPurgeKeep request.maxLen.toUInt64)
  else if request.strategy = TrimMinID then
    match parseUint request.minID with
    | none =>
      .error (.new ("\"" ++ request.minID ++ "\" is not a jetstream sequence; a message is " ++
        "addressed by one number for the whole stream"))
    | some sequence => .ok (WithPurgeSequence (UInt64.ofNat sequence))
  else .error (.new ("unknown trim strategy \"" ++ request.strategy ++ "\""))

/-- `removedBetween`: how many messages went, from two snapshots. -/
def removedBetween (before after : StreamState) : Int64 :=
  if before.msgs ≤ after.msgs then 0 else (before.msgs - after.msgs).toInt64

structure TrimResult where
  removed : Int64

/-- `Trim`: the stream it leaves, and its result. -/
def trim (server : Server) (st : StreamState) (request : TrimRequest) :
    StreamState × Except Error TrimResult :=
  match server.jetStream with
  | some err => (st, .error err)
  | none =>
    match server.stream.or server.before with
    | some err => (st, .error (streamError request.name err))
    | none =>
      match purgeOption request with
      | .error err => (st, .error err)
      | .ok option =>
        match server.purge with
        | some err => (st, .error (streamError request.name err))
        | none =>
          match server.after with
          | some err => (st.purge option, .error (streamError request.name err))
          | none => (st.purge option, .ok ⟨removedBetween st (st.purge option)⟩)

/-- `PurgeStream` of the bridge, on what the page sends. -/
def purgeStream (server : Server) (st : StreamState) (call : PurgeCall) :
    StreamState × Except Error TrimResult :=
  match call.decode with
  | none => (st, .error .json)
  | some input => trim server st input.request

/-! ### What is asked -/

inductive Bound where
  | newest (count : Nat)
  | above (sequence : Nat)
deriving DecidableEq

/-- What a bound asks to keep. -/
def Bound.kept : Bound → List Nat → List Nat
  | .newest count, held => held.drop (held.length - count)
  | .above sequence, held => held.filter fun s => sequence ≤ s

/-- The bound that is typed into the dialog. -/
def boundOf (strategy : PurgeStrategy) (keep sequence : String) : Bound :=
  match strategy with
  | .maxlen => .newest (Nat.ofDigitChars 10 (jsTrim keep).toList 0)
  | .minid => .above (Nat.ofDigitChars 10 (jsTrim sequence).toList 0)

/-- A trim that succeeds keeps what was asked, and counts what went. -/
def TrimRight (bound : Bound) (before : StreamState)
    (r : StreamState × Except Error TrimResult) : Prop :=
  ∀ result, r.2 = .ok result → r.1.held = bound.kept before.held ∧
    result.removed.toInt = (before.held.length : Int) - r.1.held.length

/-- The bounds that do what they say: not the sequence zero on a stream that holds a message, and
not one that removes more messages than the count can say.  A sequence beyond 64 bits is refused. -/
def Safe (bound : Bound) (held : List Nat) : Prop :=
  match bound with
  | .newest count => held.length - count < 2 ^ 63
  | .above sequence => sequence < 2 ^ 64 →
      (sequence = 0 → held = []) ∧ held.length - (bound.kept held).length < 2 ^ 63

/-! ### The numbers on their way -/

theorem signedValue_of_isDigits {cs : List Char} (h : isDigits cs) :
    Lib.Strconv.signedValue cs = some (Nat.ofDigitChars 10 cs 0 : Int) := by
  have hv : Lib.Strconv.digitsValue cs = some (Nat.ofDigitChars 10 cs 0 : Int) := if_pos h
  unfold Lib.Strconv.signedValue
  split
  · exact absurd h (by simp [isDigits])
  · exact absurd h (by simp [isDigits])
  · exact hv

/-- A count that is sent was typed in digits. -/
theorem isDigits_of_printed {text : String} {x : Whole} (hread : parseInt text = some x)
    (hpos : ¬x.isNegative) (hprinted : x.text = text) : isDigits text.toList := by
  have hplain : x.Plain := by
    by_contra hx
    exact hx (plain_parseInt_text hx (hprinted ▸ hread))
  cases x with
  | infinity negative => exact absurd hplain (by simp [Whole.Plain])
  | finite n exact bounded =>
    have hlt : n.natAbs < 10 ^ 21 := hplain
    have hsign : ¬n < 0 := by simpa [Whole.isNegative] using hpos
    rw [← hprinted, Whole.text, String.toList_ofList, if_neg hsign, List.nil_append, digitsOf,
      if_pos hlt]
    exact isDigits_toDigits _

theorem toUInt64_ofInt_natCast (n : Nat) : (Int64.ofInt n).toUInt64 = UInt64.ofNat n := by
  rw [← UInt64.toBitVec_inj, Int64.toBitVec_toUInt64]
  exact BitVec.ofInt_natCast 64 n

theorem ofInt_natCast_nonneg {n : Nat} (h : n < 2 ^ 63) : ¬Int64.ofInt n < 0 := by
  have hsize : Int64.size = 2 ^ 64 := rfl
  rw [Int64.lt_iff_toInt_lt, Int64.toInt_ofInt, hsize, Int.bmod_eq_of_le (by omega) (by omega)]
  exact Int.not_lt.mpr (Int.natCast_nonneg n)

/-- A typed count reaches the driver as it is, where it fits. -/
theorem decodeInt64_printed {text : String} {x : Whole} (hread : parseInt text = some x)
    (hpos : ¬x.isNegative) (hprinted : x.text = text) :
    decodeInt64 x = if Nat.ofDigitChars 10 text.toList 0 < 2 ^ 63 then
      some (Int64.ofInt (Nat.ofDigitChars 10 text.toList 0)) else none := by
  have hdigits := isDigits_of_printed hread hpos hprinted
  cases x with
  | infinity negative =>
    rw [← hprinted] at hdigits
    cases negative <;> exact absurd hdigits (by decide)
  | finite n exact bounded =>
    rw [decodeInt64, hprinted, Lib.Strconv.parseInt, signedValue_of_isDigits hdigits,
      Option.filter_some]
    split <;> rename_i hfits
    · rw [if_pos (by simpa [Lib.Strconv.Fits] using (of_decide_eq_true hfits).2)]
      rfl
    · rw [if_neg]
      · rfl
      · intro hlt
        exact hfits (decide_eq_true ⟨by omega, by omega⟩)

theorem parseUint_of_isDigits {text : String} (h : isDigits text.toList) :
    parseUint text = if Nat.ofDigitChars 10 text.toList 0 < 2 ^ 64 then
      some (Nat.ofDigitChars 10 text.toList 0) else none := by
  rw [parseUint, Lib.Strconv.digitsValue, if_pos h, Option.map_some, Int.toNat_natCast,
    Option.filter_some]
  split <;> rename_i hlt
  · rw [if_pos (of_decide_eq_true hlt)]
  · rw [if_neg (fun h => hlt (decide_eq_true h))]

/-- The bounds that can be sent. -/
def Bound.InRange : Bound → Prop
  | .newest count => count < 2 ^ 63
  | .above sequence => sequence < 2 ^ 64

/-- The purge of a bound. -/
def Bound.option : Bound → PurgeRequest
  | .newest count => WithPurgeKeep (UInt64.ofNat count)
  | .above sequence => WithPurgeSequence (UInt64.ofNat sequence)

/-- **What the dialog collects becomes the purge of its bound**, or is refused where the bound is
out of range. -/
theorem purgeOption_of_purgeInputOf {stream : String} {strategy : PurgeStrategy}
    {keep sequence : String} {call : PurgeCall}
    (h : purgeInputOf stream strategy keep sequence = some call) :
    ((boundOf strategy keep sequence).InRange → ∃ input, call.decode = some input ∧
      purgeOption input.request = .ok (boundOf strategy keep sequence).option) ∧
    (¬(boundOf strategy keep sequence).InRange → ∀ input, call.decode = some input →
      ∃ err, purgeOption input.request = .error err) := by
  rw [purgeInputOf.eq_def] at h
  cases strategy with
  | maxlen =>
    dsimp only at h
    split at h
    · cases h
    split at h
    · cases h
    rename_i parsed hread
    split at h
    · cases h
    rename_i hsent
    obtain ⟨hpos, hprinted⟩ := not_or.mp hsent
    obtain rfl := Option.some.inj h
    have hdecode := decodeInt64_printed hread hpos (not_not.mp hprinted)
    have hmax : PurgeStrategy.maxlen.text = TrimMaxLen := rfl
    rw [boundOf, PurgeCall.decode, hdecode]
    dsimp only [Bound.InRange]
    constructor
    · intro hlt
      rw [if_pos hlt]
      refine ⟨_, rfl, ?_⟩
      rw [purgeOption, PurgeInput.request]
      dsimp only
      rw [if_pos hmax, if_neg (ofInt_natCast_nonneg hlt), toUInt64_ofInt_natCast]
      rfl
    · intro hbig input hinput
      rw [if_neg hbig] at hinput
      cases hinput
  | minid =>
    dsimp only at h
    split at h
    · rename_i hdigits
      obtain rfl := Option.some.inj h
      have hzero : decodeInt64 (.small 0 (Nat.zero_le _)) = some 0 := by decide
      rw [boundOf, PurgeCall.decode, hzero]
      dsimp only [Bound.InRange]
      have hne : PurgeStrategy.minid.text ≠ TrimMaxLen := by decide
      have hmin : PurgeStrategy.minid.text = TrimMinID := rfl
      constructor
      · intro hlt
        refine ⟨_, rfl, ?_⟩
        rw [purgeOption, PurgeInput.request]
        dsimp only
        rw [if_neg hne, if_pos hmin, parseUint_of_isDigits hdigits, if_pos hlt]
        rfl
      · rintro hbig input hinput
        obtain rfl := Option.some.inj hinput
        rw [purgeOption, PurgeInput.request]
        dsimp only
        rw [if_neg hne, if_pos hmin, parseUint_of_isDigits hdigits, if_neg hbig]
        exact ⟨_, rfl⟩
    · cases h


/-! ### What a trim does -/

/-- A trim that succeeds sent the purge it asked for. -/
theorem ok_of_trim {server : Server} {st : StreamState} {request : TrimRequest}
    {result : TrimResult} (h : (trim server st request).2 = .ok result) :
    ∃ option, purgeOption request = .ok option ∧ (trim server st request).1 = st.purge option ∧
      result = ⟨removedBetween st (st.purge option)⟩ := by
  rw [trim] at h ⊢
  split at h
  · cases h
  split at h
  · cases h
  split at h
  · cases h
  rename_i option hoption
  split at h
  · cases h
  split at h
  · cases h
  rw [hoption]
  exact ⟨option, rfl, rfl, (Except.ok.inj h).symm⟩

/-- A server that answers every call. -/
def answering : Server := ⟨none, none, none, none, none⟩

theorem trim_answering {st : StreamState} {request : TrimRequest} {option : PurgeRequest}
    (h : purgeOption request = .ok option) : trim answering st request =
      (st.purge option, .ok ⟨removedBetween st (st.purge option)⟩) := by
  rw [trim, h]
  rfl

/-- The two snapshots count what went, up to the numbers an `int64` has. -/
theorem removedBetween_eq_iff {before after : StreamState}
    (h : after.held.length ≤ before.held.length) :
    (removedBetween before after).toInt = (before.held.length : Int) - after.held.length ↔
      before.held.length - after.held.length < 2 ^ 63 := by
  have hbefore := before.length_lt
  have hafter := after.length_lt
  have hb : before.msgs.toNat = before.held.length := UInt64.toNat_ofNat_of_lt hbefore
  have ha : after.msgs.toNat = after.held.length := UInt64.toNat_ofNat_of_lt hafter
  rw [removedBetween]
  split
  · rename_i hle
    rw [UInt64.le_iff_toNat_le, hb, ha] at hle
    have hzero : (0 : Int64).toInt = 0 := rfl
    rw [hzero]
    omega
  · have hle : after.msgs ≤ before.msgs := by rw [UInt64.le_iff_toNat_le, hb, ha]; exact h
    have hdiff : (before.msgs - after.msgs).toNat = before.held.length - after.held.length := by
      rw [UInt64.toNat_sub_of_le _ _ hle, hb, ha]
    have hint : (before.msgs - after.msgs).toInt64.toInt =
        ((before.held.length - after.held.length : Nat) : Int).bmod (2 ^ 64) := by
      rw [← hdiff]
      exact BitVec.toInt_eq_toNat_bmod _
    rw [hint]
    constructor
    · intro heq
      have hlt := Int.bmod_lt (x := ((before.held.length - after.held.length : Nat) : Int))
        (m := 2 ^ 64) (by decide)
      omega
    · intro hlt
      rw [Int.bmod_eq_of_le (by omega) (by omega)]
      omega

/-- The purge of a bound keeps what is asked, but for the sequence zero. -/
theorem left_option {bound : Bound} (h : bound.InRange) (held : List Nat) :
    bound.option.left held = if bound = .above 0 then [] else bound.kept held := by
  cases bound with
  | newest count =>
    have hlt : count < 2 ^ 63 := h
    have hword : (UInt64.ofNat count).toNat = count :=
      UInt64.toNat_ofNat_of_lt (lt_trans hlt (by decide))
    have hpos : (0 : UInt64) < UInt64.ofNat count ↔ 0 < count := by
      rw [UInt64.lt_iff_toNat_lt, hword]
      rfl
    rw [if_neg nofun, Bound.option, WithPurgeKeep, PurgeRequest.left, Bound.kept]
    dsimp only
    rw [if_neg (by decide), hword]
    by_cases hzero : 0 < count
    · rw [if_pos (hpos.mpr hzero)]
    · have hall : held.length ≤ held.length - count := by omega
      rw [if_neg (mt hpos.mp hzero), List.drop_eq_nil_of_le hall]
  | above sequence =>
    have hlt : sequence < 2 ^ 64 := h
    have hword : (UInt64.ofNat sequence).toNat = sequence := UInt64.toNat_ofNat_of_lt hlt
    have hpos : (0 : UInt64) < UInt64.ofNat sequence ↔ 0 < sequence := by
      rw [UInt64.lt_iff_toNat_lt, hword]
      rfl
    rw [Bound.option, WithPurgeSequence, PurgeRequest.left, Bound.kept]
    dsimp only
    rw [hword]
    by_cases hzero : sequence = 0
    · subst hzero
      rw [if_pos rfl, if_neg (mt hpos.mp (Nat.lt_irrefl 0)), if_neg (by decide)]
    · rw [if_neg fun he => hzero (Bound.above.inj he),
        if_pos (hpos.mpr (Nat.pos_of_ne_zero hzero))]

theorem kept_sublist (bound : Bound) (held : List Nat) : (bound.kept held).Sublist held := by
  cases bound with
  | newest count => exact List.drop_sublist _ _
  | above sequence => exact List.filter_sublist

theorem kept_above_zero (held : List Nat) : (Bound.above 0).kept held = held :=
  List.filter_eq_self.mpr fun _ _ => decide_eq_true (Nat.zero_le _)

/-- What is safe, for the bounds that are sent. -/
theorem safe_bound_iff {bound : Bound} (h : bound.InRange) (st : StreamState) : Safe bound st.held ↔
    (bound = .above 0 → st.held = []) ∧
      st.held.length - (bound.kept st.held).length < 2 ^ 63 := by
  cases bound with
  | newest count =>
    have hlen : st.held.length - ((Bound.newest count).kept st.held).length =
        st.held.length - count := by
      rw [Bound.kept, List.length_drop]
      omega
    rw [hlen]
    exact ⟨fun hlt => ⟨nofun, hlt⟩, fun hs => hs.2⟩
  | above sequence =>
    have hlt : sequence < 2 ^ 64 := h
    constructor
    · intro hs
      exact ⟨fun he => (hs hlt).1 (Bound.above.inj he), (hs hlt).2⟩
    · intro hs _
      exact ⟨fun he => hs.1 (congrArg Bound.above he), hs.2⟩

theorem safe_of_not_inRange {bound : Bound} (h : ¬bound.InRange) (st : StreamState) :
    Safe bound st.held := by
  cases bound with
  | newest count =>
    have hbig : ¬count < 2 ^ 63 := h
    have hlt := st.length_lt
    show st.held.length - count < 2 ^ 63
    omega
  | above sequence => exact fun hlt => absurd hlt h

/-- A purge of a bound in range does what was asked exactly if it is safe. -/
theorem purge_right_iff {bound : Bound} (h : bound.InRange) (st : StreamState) :
    ((st.purge bound.option).held = bound.kept st.held ∧
      (removedBetween st (st.purge bound.option)).toInt =
        (st.held.length : Int) - (st.purge bound.option).held.length) ↔ Safe bound st.held := by
  have hsub := bound.option.left_sublist st.held
  rw [removedBetween_eq_iff hsub.length_le, safe_bound_iff h]
  have hheld : (st.purge bound.option).held = bound.option.left st.held := rfl
  rw [hheld, left_option h]
  by_cases hzero : bound = .above 0
  · subst hzero
    rw [if_pos rfl, kept_above_zero]
    constructor
    · rintro ⟨hempty, -⟩
      refine ⟨fun _ => hempty.symm, ?_⟩
      rw [Nat.sub_self]
      decide
    · rintro ⟨hempty, -⟩
      rw [hempty rfl]
      exact ⟨rfl, by decide⟩
  · rw [if_neg hzero]
    exact ⟨fun hr => ⟨fun he => absurd he hzero, hr.2⟩, fun hs => ⟨rfl, hs.2⟩⟩

/-- **A trim that succeeds removes what was asked and no more**, whatever the server answers,
exactly if it is safe. -/
theorem trim_right_iff {stream : String} {strategy : PurgeStrategy} {keep sequence : String}
    {call : PurgeCall} (h : purgeInputOf stream strategy keep sequence = some call)
    (st : StreamState) :
    (∀ server, TrimRight (boundOf strategy keep sequence) st (purgeStream server st call)) ↔
      Safe (boundOf strategy keep sequence) st.held := by
  obtain ⟨hsent, hrefused⟩ := purgeOption_of_purgeInputOf h
  by_cases hrange : (boundOf strategy keep sequence).InRange
  · obtain ⟨input, hdecode, hoption⟩ := hsent hrange
    rw [← purge_right_iff hrange st]
    constructor
    · intro hright
      have hdone := hright answering ⟨removedBetween st
        (st.purge (boundOf strategy keep sequence).option)⟩
      rw [purgeStream, hdecode] at hdone
      dsimp only at hdone
      rw [trim_answering hoption] at hdone
      exact hdone rfl
    · intro hsafe server result hresult
      rw [purgeStream, hdecode] at hresult ⊢
      obtain ⟨option, hopt, hst, hcount⟩ := ok_of_trim hresult
      rw [hoption] at hopt
      obtain rfl := Except.ok.inj hopt
      dsimp only
      rw [hst, hcount]
      exact hsafe
  · refine ⟨fun _ => safe_of_not_inRange hrange st, fun _ server result hresult => ?_⟩
    rw [purgeStream] at hresult
    split at hresult
    · cases hresult
    · rename_i input hdecode
      obtain ⟨option, hopt, -, -⟩ := ok_of_trim hresult
      obtain ⟨err, herr⟩ := hrefused hrange input hdecode
      rw [herr] at hopt
      cases hopt

/-- Three messages, the first two deleted before. -/
def threeHeld : StreamState where
  held := [3, 4, 7]
  sorted := by decide
  words := by decide

/-- Keeping the newest two of three messages. -/
theorem trim_keep_two : ∃ call, purgeInputOf "ORDERS" .maxlen " 2 " "" = some call ∧
    ∀ server, TrimRight (boundOf .maxlen " 2 " "") threeHeld
      (purgeStream server threeHeld call) := by
  have hbound : boundOf .maxlen " 2 " "" = .newest 2 := by decide
  have hsent : purgeInputOf "ORDERS" .maxlen " 2 " "" =
      some ⟨"ORDERS", "maxlen", .small 2 (by decide), ""⟩ := by
    have htrim : jsTrim " 2 " = "2" := by decide
    have htext : (Whole.small 2 (by decide)).text = "2" := by decide
    have hread : parseInt "2" = some (.small 2 (by decide)) := by
      rw [← htext]
      exact parseInt_text (Whole.plain_small (by decide))
    have hpos : (Whole.small 2 (by decide)).isNegative = false := rfl
    rw [purgeInputOf.eq_def]
    dsimp only
    rw [htrim, if_neg (by decide), hread]
    dsimp only
    rw [if_neg (by simp [hpos, htext])]
    rfl
  refine ⟨_, hsent, (trim_right_iff hsent threeHeld).mpr ?_⟩
  rw [hbound]
  show threeHeld.held.length - 2 < 2 ^ 63
  decide

/-- Keeping from the sequence zero on: nothing is below it, and the stream is emptied. -/
theorem sequence_zero_empties : ∃ call, purgeInputOf "ORDERS" .minid "" "0" = some call ∧
    boundOf .minid "" "0" = .above 0 ∧ (Bound.above 0).kept threeHeld.held = [3, 4, 7] ∧
    (purgeStream answering threeHeld call).1.held = [] := by
  have hsent : purgeInputOf "ORDERS" .minid "" "0" =
      some ⟨"ORDERS", "minid", .small 0 (by decide), "0"⟩ := by rfl
  have hdecode : PurgeCall.decode ⟨"ORDERS", "minid", .small 0 (by decide), "0"⟩ =
      some ⟨"ORDERS", "minid", 0, "0"⟩ := by rfl
  have hoption : purgeOption ⟨"ORDERS", "minid", 0, "0"⟩ = .ok ⟨0, 0⟩ := by decide
  refine ⟨_, hsent, by decide, by decide, ?_⟩
  rw [purgeStream, hdecode]
  dsimp only [PurgeInput.request]
  rw [trim_answering hoption]
  rfl

end MqStudio.Nats.Trim
