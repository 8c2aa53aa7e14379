import Mathlib

/-!
# URLs

`net/url` on the bytes of a string: how a URL is split, and how what was split is printed.  What is
accepted as a host is a parameter, since the releases of the library differ in it.

* `parse`: the split.  `URL.string`: the print.
* `parse_eq`: what is read of a URL with an authority.
* `string_of_user`, `string_of_no_user`: how the print of a URL begins.
-/

namespace Lib.Url

abbrev Bytes := List UInt8

/-- The bytes of a text of plain characters. -/
def lit (s : String) : Bytes := s.toList.map Char.toUInt8

/-! ### Cutting -/

/-- `strings.Cut`: what is in front of the first separator, and what is behind it. -/
def cut (sep : UInt8) : Bytes → Bytes × Option Bytes
  | [] => ([], none)
  | c :: cs => if c = sep then ([], some cs) else (c :: (cut sep cs).1, (cut sep cs).2)

/-- What is in front of the last separator, and what is behind it. -/
def cutLast (sep : UInt8) : Bytes → Option (Bytes × Bytes)
  | [] => none
  | c :: cs =>
    match cutLast sep cs with
    | some (before, after) => some (c :: before, after)
    | none => if c = sep then some ([], cs) else none

/-- `strings.Replace` of the first occurrence. -/
def replaceFirst (old new : Bytes) : Bytes → Bytes
  | [] => []
  | c :: cs =>
    if old.isPrefixOf (c :: cs) then new ++ (c :: cs).drop old.length
    else c :: replaceFirst old new cs

theorem cut_append {sep : UInt8} {front : Bytes} (h : sep ∉ front) (rest : Bytes) :
    cut sep (front ++ rest) = (front ++ (cut sep rest).1, (cut sep rest).2) := by
  induction front with
  | nil => rfl
  | cons c front ih =>
    rw [List.mem_cons, not_or] at h
    rw [List.cons_append, cut, if_neg (Ne.symm h.1), ih h.2]
    rfl

theorem notMem_cut (sep : UInt8) (s : Bytes) : sep ∉ (cut sep s).1 := by
  induction s with
  | nil => simp [cut]
  | cons c s ih =>
    rw [cut]
    split
    · simp
    · rename_i hne
      rw [List.mem_cons, not_or]
      exact ⟨Ne.symm hne, ih⟩

/-- What is cut off is a text with the separator in front. -/
theorem cut_spec (sep : UInt8) (s : Bytes) :
    s = (cut sep s).1 ++ ((cut sep s).2.map (sep :: ·)).getD [] := by
  induction s with
  | nil => rfl
  | cons c s ih =>
    rw [cut]
    split
    · rename_i heq
      rw [heq]
      rfl
    · rw [List.cons_append, ← ih]

theorem cutLast_append_cons (sep : UInt8) (front rest : Bytes) :
    cutLast sep (front ++ sep :: rest) = match cutLast sep rest with
      | some (before, after) => some (front ++ sep :: before, after)
      | none => some (front, rest) := by
  induction front with
  | nil =>
    rw [List.nil_append, cutLast, if_pos rfl]
    cases cutLast sep rest <;> rfl
  | cons c front ih =>
    rw [List.cons_append, cutLast, ih]
    cases cutLast sep rest <;> rfl

theorem cutLast_eq_none {sep : UInt8} {s : Bytes} (h : sep ∉ s) : cutLast sep s = none := by
  induction s with
  | nil => rfl
  | cons c s ih =>
    rw [List.mem_cons, not_or] at h
    rw [cutLast, ih h.2, if_neg (Ne.symm h.1)]

/-! ### Escapes -/

/-- Where in a URL a byte stands. -/
inductive Mode where
  | path
  | host
  | userPassword
  | fragment
  deriving DecidableEq

def isAlnum (c : UInt8) : Bool :=
  (97 ≤ c && c ≤ 122) || (65 ≤ c && c ≤ 90) || (48 ≤ c && c ≤ 57)

/-- `shouldEscape`. -/
def shouldEscape (c : UInt8) (mode : Mode) : Bool :=
  if isAlnum c then false
  else if mode = .host && c ∈ lit "!$&'()*+,;=:[]<>\"" then false
  else if c ∈ lit "-_.~" then false
  else if c ∈ lit "$&+,/:;=?@" then
    match mode with
    | .path => c = '?'.toUInt8
    | .userPassword => c ∈ lit "@/?:"
    | .fragment => false
    | .host => true
  else if mode = .fragment && c ∈ lit "!()*" then false
  else true

def upperHex (n : UInt8) : UInt8 := if n < 10 then 48 + n else 55 + n

def unhex (c : UInt8) : Option UInt8 :=
  if 48 ≤ c ∧ c ≤ 57 then some (c - 48)
  else if 97 ≤ c ∧ c ≤ 102 then some (c - 87)
  else if 65 ≤ c ∧ c ≤ 70 then some (c - 55)
  else none

def escape (mode : Mode) (s : Bytes) : Bytes :=
  s.flatMap fun c =>
    if shouldEscape c mode then ['%'.toUInt8, upperHex (c / 16), upperHex (c % 16)] else [c]

/-- In a host only the sign itself and what is not ASCII may be escaped. -/
def unescape (mode : Mode) : Bytes → Option Bytes
  | [] => some []
  | c :: cs =>
    if c = '%'.toUInt8 then
      match cs with
      | h :: l :: rest =>
        match unhex h, unhex l with
        | some high, some low =>
          if mode = .host && high < 8 && !(h = '2'.toUInt8 && l = '5'.toUInt8) then none
          else (unescape mode rest).map fun s => (16 * high + low) :: s
        | _, _ => none
      | _ => none
    else if mode = .host && c < 128 && shouldEscape c mode then none
    else (unescape mode cs).map fun s => c :: s

def validEncoded (s : Bytes) (mode : Mode) : Bool :=
  s.all fun c => c ∈ lit "!$&'()*+,;=:@[]%" || !shouldEscape c mode

/-! ### URLs -/

structure Userinfo where
  username : Bytes
  password : Option Bytes

structure URL where
  scheme : Bytes
  opaqueData : Bytes
  user : Option Userinfo
  host : Bytes
  path : Bytes
  rawPath : Bytes
  omitHost : Bool
  forceQuery : Bool
  rawQuery : Bytes
  fragment : Bytes
  rawFragment : Bytes

def URL.empty : URL := ⟨[], [], none, [], [], [], false, false, [], [], []⟩

def isCTLByte (c : UInt8) : Bool := c < 32 || c = 127

/-- A letter, or what may also stand in a scheme behind one. -/
def isSchemeByte (c : UInt8) : Bool := isAlnum c || c ∈ lit "+-."

def isLetter (c : UInt8) : Bool := (97 ≤ c && c ≤ 122) || (65 ≤ c && c ≤ 90)

/-- The loop of `getScheme`; `seen` is what is in front, in reverse. -/
def schemeLoop (raw : Bytes) : Bytes → Bytes → Option (Bytes × Bytes)
  | _, [] => some ([], raw)
  | seen, c :: cs =>
    if isLetter c then schemeLoop raw (c :: seen) cs
    else if isSchemeByte c then
      if seen = [] then some ([], raw) else schemeLoop raw (c :: seen) cs
    else if c = ':'.toUInt8 then
      if seen = [] then none else some (seen.reverse, cs)
    else some ([], raw)

def getScheme (raw : Bytes) : Option (Bytes × Bytes) := schemeLoop raw [] raw

def toLower (s : Bytes) : Bytes := s.map fun c => if 65 ≤ c ∧ c ≤ 90 then c + 32 else c

def validUserinfo (s : Bytes) : Bool := s.all fun c => isAlnum c || c ∈ lit "-._:~!$&'()*+,;=%@"

/-- The user name and the password in front of an authority. -/
def parseUserinfo (s : Bytes) : Option Userinfo :=
  if !validUserinfo s then none
  else match cut ':'.toUInt8 s with
    | (username, none) => (unescape .userPassword username).map fun username => ⟨username, none⟩
    | (username, some password) =>
      match unescape .userPassword username, unescape .userPassword password with
      | some username, some password => some ⟨username, some password⟩
      | _, _ => none

/-- What may stand in front of the last `@`, and the host behind it. -/
def parseAuthority (parseHost : Bytes → Option Bytes) (authority : Bytes) :
    Option (Option Userinfo × Bytes) :=
  match cutLast '@'.toUInt8 authority with
  | none => (parseHost authority).map fun host => (none, host)
  | some (userinfo, host) =>
    match parseHost host, parseUserinfo userinfo with
    | some host, some user => some (some user, host)
    | _, _ => none

def validOptionalPort (port : Bytes) : Bool :=
  match port with
  | [] => true
  | c :: digits => c = ':'.toUInt8 && digits.all fun d => 48 ≤ d && d ≤ 57

/-- The host of a release that takes one colon, in front of a port.  `ipLiteral` is what it makes of
what stands in brackets. -/
def plainHost (ipLiteral : Bytes → Option Bytes) (host : Bytes) : Option Bytes :=
  match cutLast '['.toUInt8 host with
  | some (_ :: _, _) => none
  | some ([], rest) =>
    match cutLast ']'.toUInt8 rest with
    | none => none
    | some (name, port) =>
      if validOptionalPort port then
        (ipLiteral name).map fun name => lit "[" ++ name ++ lit "]" ++ port
      else none
  | none =>
    if validOptionalPort (((cut ':'.toUInt8 host).2.map (':'.toUInt8 :: ·)).getD []) then
      unescape .host host
    else none

def URL.setPath (url : URL) (p : Bytes) : Option URL :=
  (unescape .path p).map fun path =>
    { url with path := path, rawPath := if p = escape .path path then [] else p }

def URL.setFragment (url : URL) (f : Bytes) : Option URL :=
  (unescape .fragment f).map fun fragment =>
    { url with
      fragment := fragment
      rawFragment := if f = escape .fragment fragment then [] else f }

/-- What is behind the scheme and in front of the query. -/
def parseHierarchy (parseHost : Bytes → Option Bytes) (url : URL) (rest : Bytes) : Option URL :=
  if !(lit "/").isPrefixOf rest then
    if url.scheme ≠ [] then some { url with opaqueData := rest }
    else if ':'.toUInt8 ∈ (cut '/'.toUInt8 rest).1 then none
    else url.setPath rest
  else if (lit "//").isPrefixOf rest && (url.scheme ≠ [] || !(lit "///").isPrefixOf rest) then
    let (authority, path) := cut '/'.toUInt8 (rest.drop 2)
    match parseAuthority parseHost authority with
    | none => none
    | some (user, host) =>
      { url with user := user, host := host }.setPath ((path.map ('/'.toUInt8 :: ·)).getD [])
  else { url with omitHost := url.scheme ≠ [] }.setPath rest

/-- A URL without a fragment.  A question mark at the very end is kept as it is. -/
def parseNoFragment (parseHost : Bytes → Option Bytes) (raw : Bytes) : Option URL :=
  if raw.any isCTLByte then none
  else if raw = lit "*" then some { URL.empty with path := lit "*" }
  else match getScheme raw with
    | none => none
    | some (scheme, rest) =>
      let (rest, query) := cut '?'.toUInt8 rest
      parseHierarchy parseHost { URL.empty with
        scheme := toLower scheme
        forceQuery := query = some []
        rawQuery := query.getD [] } rest

/-- `url.Parse`. -/
def parse (parseHost : Bytes → Option Bytes) (raw : Bytes) : Option URL :=
  let (u, fragment) := cut '#'.toUInt8 raw
  match parseNoFragment parseHost u, fragment with
  | none, _ => none
  | some url, none | some url, some [] => some url
  | some url, some f => url.setFragment f

/-! ### Printing -/

def URL.escapedPath (url : URL) : Bytes :=
  if url.rawPath ≠ [] ∧ validEncoded url.rawPath .path ∧
    unescape .path url.rawPath = some url.path then url.rawPath
  else if url.path = lit "*" then lit "*"
  else escape .path url.path

def URL.escapedFragment (url : URL) : Bytes :=
  if url.rawFragment ≠ [] ∧ validEncoded url.rawFragment .fragment ∧
    unescape .fragment url.rawFragment = some url.fragment then url.rawFragment
  else escape .fragment url.fragment

def Userinfo.string (user : Userinfo) : Bytes :=
  escape .userPassword user.username ++
    match user.password with
    | some password => ':'.toUInt8 :: escape .userPassword password
    | none => []

/-- The authority of a URL as it is printed. -/
def URL.authority (url : URL) : Bytes :=
  if url.scheme = [] ∧ url.host = [] ∧ url.user.isNone then []
  else if url.omitHost ∧ url.host = [] ∧ url.user.isNone then []
  else
    (if url.host ≠ [] ∨ url.path ≠ [] ∨ url.user.isSome then lit "//" else []) ++
      ((url.user.map fun user => user.string ++ lit "@").getD []) ++ escape .host url.host

/-- The path of a URL as it is printed behind what is `front`. -/
def URL.printedPath (url : URL) (front : Bytes) : Bytes :=
  let path := url.escapedPath
  let slash := if path ≠ [] ∧ path.head? ≠ some '/'.toUInt8 ∧ url.host ≠ [] then lit "/" else []
  let dot := if front ++ slash = [] ∧ ':'.toUInt8 ∈ (cut '/'.toUInt8 path).1 then lit "./" else []
  slash ++ dot ++ path

def URL.printedQuery (url : URL) : Bytes :=
  (if url.forceQuery || url.rawQuery ≠ [] then '?'.toUInt8 :: url.rawQuery else []) ++
    if url.fragment ≠ [] then '#'.toUInt8 :: url.escapedFragment else []

/-- `URL.String`. -/
def URL.string (url : URL) : Bytes :=
  let scheme := if url.scheme ≠ [] then url.scheme ++ lit ":" else []
  let body :=
    if url.opaqueData ≠ [] then url.opaqueData
    else url.authority ++ url.printedPath (scheme ++ url.authority)
  scheme ++ body ++ url.printedQuery

/-! ### What a URL is split into -/

/-- The characters that end an authority, or the user name and password in it. -/
def isStop (c : UInt8) : Bool := c ∈ lit "@/?#"

/-- A text that does not end an authority. -/
structure Inside (s : Bytes) : Prop where
  slash : '/'.toUInt8 ∉ s
  question : '?'.toUInt8 ∉ s
  hash : '#'.toUInt8 ∉ s

theorem Inside.append {s t : Bytes} (hs : Inside s) (ht : Inside t) : Inside (s ++ t) := by
  refine ⟨?_, ?_, ?_⟩
  · rw [List.mem_append, not_or]
    exact ⟨hs.slash, ht.slash⟩
  · rw [List.mem_append, not_or]
    exact ⟨hs.question, ht.question⟩
  · rw [List.mem_append, not_or]
    exact ⟨hs.hash, ht.hash⟩

theorem Inside.of_append_left {s t : Bytes} (h : Inside (s ++ t)) : Inside s :=
  ⟨fun hs => h.slash (List.mem_append_left _ hs), fun hs => h.question (List.mem_append_left _ hs),
    fun hs => h.hash (List.mem_append_left _ hs)⟩

/-- A scheme: a letter, and what may stand behind it. -/
structure Scheme where
  first : UInt8
  rest : Bytes
  letter : isLetter first = true
  plain : ∀ c ∈ rest, isSchemeByte c = true

def Scheme.bytes (s : Scheme) : Bytes := s.first :: s.rest

theorem isSchemeByte_of_isLetter {c : UInt8} (h : isLetter c = true) : isSchemeByte c = true := by
  rw [isLetter] at h
  rw [isSchemeByte, isAlnum, h]
  rfl

theorem Scheme.plain_bytes (s : Scheme) : ∀ c ∈ s.bytes, isSchemeByte c = true := by
  intro c hc
  rcases List.mem_cons.mp hc with rfl | hc
  · exact isSchemeByte_of_isLetter s.letter
  · exact s.plain c hc

theorem Scheme.notMem (s : Scheme) {c : UInt8} (h : isSchemeByte c = false) : c ∉ s.bytes := by
  intro hc
  rw [s.plain_bytes c hc] at h
  cases h

theorem schemeLoop_eq (raw : Bytes) {front seen : Bytes} (hfront : ∀ c ∈ front,
    isSchemeByte c = true) (hseen : seen ≠ []) (rest : Bytes) :
    schemeLoop raw seen (front ++ ':'.toUInt8 :: rest) = some (seen.reverse ++ front, rest) := by
  induction front generalizing seen with
  | nil =>
    rw [List.nil_append, schemeLoop, if_neg (by decide), if_neg (by decide), if_pos rfl,
      if_neg hseen, List.append_nil]
  | cons c front ih =>
    have hmore := ih (fun d hd => hfront d (List.mem_cons_of_mem _ hd)) (List.cons_ne_nil c seen)
    rw [List.reverse_cons, List.append_assoc, List.singleton_append] at hmore
    rw [List.cons_append, schemeLoop]
    split
    · exact hmore
    · rw [if_pos (hfront c List.mem_cons_self)]
      exact hmore

theorem getScheme_eq (s : Scheme) (rest : Bytes) :
    getScheme (s.bytes ++ ':'.toUInt8 :: rest) = some (s.bytes, rest) := by
  have hloop : ∀ raw, schemeLoop raw [] (s.first :: (s.rest ++ ':'.toUInt8 :: rest)) =
      some (s.bytes, rest) := by
    intro raw
    rw [schemeLoop, if_pos s.letter, schemeLoop_eq raw s.plain (List.cons_ne_nil _ _)]
    rfl
  exact hloop _

theorem bytes_ne_star (s : Scheme) (rest : Bytes) : s.bytes ++ rest ≠ lit "*" := by
  intro h
  have hletter := s.letter
  rw [Scheme.bytes, List.cons_append] at h
  rw [(List.cons.inj h).1] at hletter
  exact absurd hletter (by decide)

/-- What is left to set once the authority is known. -/
def URL.setRest (url : URL) (path : Bytes) (fragment : Option Bytes) : Option URL :=
  match url.setPath path, fragment with
  | none, _ => none
  | some url, none | some url, some [] => some url
  | some url, some f => url.setFragment f

/-- A URL in front of its authority. -/
def start (s : Scheme) (query : Option Bytes) : URL :=
  { URL.empty with
    scheme := toLower s.bytes
    forceQuery := query = some []
    rawQuery := query.getD [] }

/-- **The split of a URL** with two slashes behind its scheme. -/
theorem parse_eq (parseHost : Bytes → Option Bytes) (s : Scheme) (rest : Bytes) :
    parse parseHost (s.bytes ++ ':'.toUInt8 :: '/'.toUInt8 :: '/'.toUInt8 :: rest) =
      if (s.bytes ++ ':'.toUInt8 :: '/'.toUInt8 :: '/'.toUInt8 ::
        (cut '#'.toUInt8 rest).1).any isCTLByte then none
      else match parseAuthority parseHost
          (cut '/'.toUInt8 (cut '?'.toUInt8 (cut '#'.toUInt8 rest).1).1).1 with
        | none => none
        | some (user, host) =>
          { start s (cut '?'.toUInt8 (cut '#'.toUInt8 rest).1).2 with
            user := user, host := host }.setRest
              (((cut '/'.toUInt8 (cut '?'.toUInt8 (cut '#'.toUInt8 rest).1).1).2.map
                ('/'.toUInt8 :: ·)).getD []) (cut '#'.toUInt8 rest).2 := by
  have hhash : '#'.toUInt8 ∉ s.bytes ++ [':'.toUInt8, '/'.toUInt8, '/'.toUInt8] := by
    rw [List.mem_append, not_or]
    exact ⟨s.notMem (by decide), by decide⟩
  have hcut := cut_append hhash rest
  have hquestion : '?'.toUInt8 ∉ ['/'.toUInt8, '/'.toUInt8] := by decide
  have hcut' := cut_append hquestion (cut '#'.toUInt8 rest).1
  have hlower : toLower s.bytes ≠ [] := by
    rw [toLower, Scheme.bytes, List.map_cons]
    exact List.cons_ne_nil _ _
  simp only [List.append_assoc, List.cons_append, List.nil_append] at hcut hcut'
  rw [parse, hcut]
  dsimp only
  rw [parseNoFragment]
  by_cases hctl : (s.bytes ++ ':'.toUInt8 :: '/'.toUInt8 :: '/'.toUInt8 ::
      (cut '#'.toUInt8 rest).1).any isCTLByte = true
  · rw [if_pos hctl, if_pos hctl]
  · rw [if_neg hctl, if_neg hctl, if_neg (bytes_ne_star s _), getScheme_eq]
    dsimp only
    rw [hcut', parseHierarchy]
    dsimp only
    have hone : (lit "/").isPrefixOf ('/'.toUInt8 :: '/'.toUInt8 ::
        (cut '?'.toUInt8 (cut '#'.toUInt8 rest).1).1) = true := by
      rw [List.isPrefixOf_iff_prefix]
      exact ⟨_, rfl⟩
    have htwo : (lit "//").isPrefixOf ('/'.toUInt8 :: '/'.toUInt8 ::
        (cut '?'.toUInt8 (cut '#'.toUInt8 rest).1).1) = true := by
      rw [List.isPrefixOf_iff_prefix]
      exact ⟨_, rfl⟩
    rw [hone, htwo, if_neg (by decide), if_pos (by simp [hlower])]
    rw [show List.drop 2 ('/'.toUInt8 :: '/'.toUInt8 ::
      (cut '?'.toUInt8 (cut '#'.toUInt8 rest).1).1) = (cut '?'.toUInt8 (cut '#'.toUInt8 rest).1).1
        from rfl]
    cases parseAuthority parseHost
      (cut '/'.toUInt8 (cut '?'.toUInt8 (cut '#'.toUInt8 rest).1).1).1 with
    | none => rfl
    | some found => rfl


/-! ### What is left of a URL -/

theorem unescape_cons {mode : Mode} {c : UInt8} (hc : c ≠ '%'.toUInt8)
    (hhost : ¬(mode = .host && c < 128 && shouldEscape c mode) = true) (cs : Bytes) :
    unescape mode (c :: cs) = (unescape mode cs).map fun s => c :: s := by
  rw [unescape.eq_def]
  exact (if_neg hc).trans (if_neg hhost)

theorem setRest_eq_some {url url' : URL} {path : Bytes} {fragment : Option Bytes}
    (h : url.setRest path fragment = some url') :
    ∃ p, unescape .path path = some p ∧ url'.path = p ∧
      url'.rawPath = (if path = escape .path p then [] else path) ∧ url'.scheme = url.scheme ∧
      url'.opaqueData = url.opaqueData ∧ url'.user = url.user ∧ url'.host = url.host ∧
      url'.omitHost = url.omitHost := by
  unfold URL.setRest at h
  split at h
  · cases h
  · rename_i mid hpath
    obtain ⟨p, hp, rfl⟩ := Option.map_eq_some_iff.mp hpath
    obtain rfl := Option.some.inj h
    exact ⟨p, hp, rfl, rfl, rfl, rfl, rfl, rfl, rfl⟩
  · rename_i mid hpath
    obtain ⟨p, hp, rfl⟩ := Option.map_eq_some_iff.mp hpath
    obtain rfl := Option.some.inj h
    exact ⟨p, hp, rfl, rfl, rfl, rfl, rfl, rfl, rfl⟩
  · rename_i mid f _ hpath
    obtain ⟨p, hp, rfl⟩ := Option.map_eq_some_iff.mp hpath
    obtain ⟨g, -, rfl⟩ := Option.map_eq_some_iff.mp h
    exact ⟨p, hp, rfl, rfl, rfl, rfl, rfl, rfl, rfl⟩

/-- The user information is not looked at any more. -/
theorem setRest_user (url : URL) {path : Bytes} {fragment : Option Bytes}
    (user user' : Option Userinfo) {url' : URL}
    (h : { url with user := user }.setRest path fragment = some url') :
    { url with user := user' }.setRest path fragment = some { url' with user := user' } := by
  unfold URL.setRest at h ⊢
  split at h
  · cases h
  · rename_i mid hpath
    obtain ⟨p, hp, rfl⟩ := Option.map_eq_some_iff.mp hpath
    obtain rfl := Option.some.inj h
    rw [URL.setPath, hp]
    rfl
  · rename_i mid hpath
    obtain ⟨p, hp, rfl⟩ := Option.map_eq_some_iff.mp hpath
    obtain rfl := Option.some.inj h
    rw [URL.setPath, hp]
    rfl
  · rename_i mid f hf hpath
    obtain ⟨p, hp, rfl⟩ := Option.map_eq_some_iff.mp hpath
    obtain ⟨g, hg, rfl⟩ := Option.map_eq_some_iff.mp h
    rw [URL.setPath, hp]
    dsimp only [Option.map_some]
    split
    · rename_i hnone
      cases hnone
    · rename_i hnone
      cases hnone
    · rename_i hnil
      exact absurd (Option.some.inj hnil) hf
    · rename_i f' _ _ hsome hfragment
      obtain rfl := Option.some.inj hsome
      obtain rfl := Option.some.inj hfragment
      rw [URL.setFragment, hg]
      rfl

/-- A path that is set is printed as nothing, or with its slash. -/
theorem escapedPath_of_setRest {url url' : URL} {path : Bytes} {fragment : Option Bytes}
    (hpath : path = [] ∨ ∃ t, path = '/'.toUInt8 :: t)
    (h : url.setRest path fragment = some url') :
    url'.path = [] ∧ url'.escapedPath = [] ∨
      url'.path ≠ [] ∧ url'.escapedPath.head? = some '/'.toUInt8 := by
  obtain ⟨p, hp, hdecoded, hraw, -⟩ := setRest_eq_some h
  rcases hpath with rfl | ⟨t, rfl⟩
  · obtain rfl : [] = p := Option.some.inj hp
    refine .inl ⟨hdecoded, ?_⟩
    rw [URL.escapedPath, if_neg, hdecoded]
    · rfl
    · rw [hraw]
      exact fun hnot => hnot.1 (if_pos rfl)
  · rw [unescape_cons (by decide) (by decide)] at hp
    obtain ⟨q, -, rfl⟩ := Option.map_eq_some_iff.mp hp
    refine .inr ⟨by rw [hdecoded]; exact List.cons_ne_nil _ _, ?_⟩
    have hescape : (escape .path ('/'.toUInt8 :: q)).head? = some '/'.toUInt8 := by
      rw [escape, List.flatMap_cons, if_neg (by decide)]
      rfl
    rw [URL.escapedPath]
    split
    · rename_i hkept
      rw [hraw] at hkept ⊢
      split
      · rename_i hsame
        rw [if_pos hsame] at hkept
        exact absurd rfl hkept.1
      · rfl
    · rw [hdecoded, if_neg, hescape]
      intro hstar
      exact absurd (List.cons.inj hstar).1 (by decide)

/-! ### How the print of a URL begins -/

theorem isStop_upperHex {n : UInt8} (h : n < 16) : isStop (upperHex n) = false := by
  obtain ⟨k, hk, rfl⟩ : ∃ k < 16, n = UInt8.ofNat k :=
    ⟨n.toNat, UInt8.lt_iff_toNat_lt.mp h, UInt8.ofNat_toNat.symm⟩
  interval_cases k <;> decide

theorem isStop_escape {mode : Mode} (hmode : ∀ c, isStop c = true → shouldEscape c mode = true)
    (s : Bytes) : ∀ c ∈ escape mode s, isStop c = false := by
  have hhex : ∀ n : UInt8, isStop (upperHex (n / 16)) = false ∧
      isStop (upperHex (n % 16)) = false := by
    intro n
    have hn := n.toNat_lt
    have hsize : (16 : UInt8).toNat = 16 := rfl
    constructor <;> apply isStop_upperHex <;> rw [UInt8.lt_iff_toNat_lt]
    · rw [UInt8.toNat_div, hsize]
      omega
    · rw [UInt8.toNat_mod, hsize]
      omega
  intro c hc
  obtain ⟨d, -, hc⟩ := List.mem_flatMap.mp hc
  split at hc
  · rcases List.mem_cons.mp hc with rfl | hc
    · decide
    rcases List.mem_cons.mp hc with rfl | hc
    · exact (hhex d).1
    · rw [List.mem_singleton.mp hc]
      exact (hhex d).2
  · rename_i hkeep
    rw [List.mem_singleton.mp hc]
    by_contra hstop
    exact hkeep (hmode d (eq_true_of_ne_false hstop))

theorem stop_cases {c : UInt8} (h : isStop c = true) : c = '@'.toUInt8 ∨ c = '/'.toUInt8 ∨
    c = '?'.toUInt8 ∨ c = '#'.toUInt8 := by
  have hmem : c ∈ ['@'.toUInt8, '/'.toUInt8, '?'.toUInt8, '#'.toUInt8] := of_decide_eq_true h
  simpa using hmem

theorem isStop_userPassword (s : Bytes) : ∀ c ∈ escape .userPassword s, isStop c = false := by
  refine isStop_escape (fun c hc => ?_) s
  rcases stop_cases hc with rfl | rfl | rfl | rfl <;> decide

theorem isStop_host (s : Bytes) : ∀ c ∈ escape .host s, isStop c = false := by
  refine isStop_escape (fun c hc => ?_) s
  rcases stop_cases hc with rfl | rfl | rfl | rfl <;> decide

/-- The first stop behind the two slashes is an `@`. -/
def UserFirst (s : Bytes) : Prop :=
  ∃ rest, s = lit "//" ++ rest ∧ rest.find? isStop = some '@'.toUInt8

/-- **A URL with a user** is printed with the user behind the slashes. -/
theorem string_of_user {url : URL} {username : Bytes} (hscheme : url.scheme ≠ [])
    (hopaq : url.opaqueData = []) (huser : url.user = some ⟨username, none⟩) :
    ∃ more, url.string = url.scheme ++ lit ":" ++ (lit "//" ++
      (escape .userPassword username ++ '@'.toUInt8 :: more)) := by
  have hauthority : url.authority = lit "//" ++ (escape .userPassword username ++
      '@'.toUInt8 :: escape .host url.host) := by
    rw [URL.authority, if_neg (by simp [hscheme]), if_neg (by simp [huser]),
      if_pos (by simp [huser]), huser]
    simp [Userinfo.string, lit]
  rw [URL.string, if_pos hscheme, hopaq, if_neg (by simp), hauthority]
  refine ⟨escape .host url.host ++ (url.printedPath (url.scheme ++ lit ":" ++ (lit "//" ++
    (escape .userPassword username ++ '@'.toUInt8 :: escape .host url.host))) ++
      url.printedQuery), ?_⟩
  simp only [List.append_assoc, List.cons_append]

/-- A print of a path and a query begins with none of the characters of a user. -/
def NoUser (s : Bytes) : Prop :=
  s = [] ∨ s.head? = some '/'.toUInt8 ∨ s.head? = some '?'.toUInt8 ∨ s.head? = some '#'.toUInt8

theorem find_of_noUser {s : Bytes} (h : NoUser s) : s.find? isStop ≠ some '@'.toUInt8 := by
  cases s with
  | nil => simp
  | cons c s =>
    have hc : isStop c = true ∧ c ≠ '@'.toUInt8 := by
      rcases h with h | h | h | h
      · cases h
      · obtain rfl := Option.some.inj h
        decide
      · obtain rfl := Option.some.inj h
        decide
      · obtain rfl := Option.some.inj h
        decide
    rw [List.find?_cons_of_pos hc.1]
    exact fun heq => hc.2 (Option.some.inj heq)

theorem query_head (url : URL) : url.printedQuery = [] ∨
    url.printedQuery.head? = some '?'.toUInt8 ∨ url.printedQuery.head? = some '#'.toUInt8 := by
  unfold URL.printedQuery
  split
  · exact .inr (.inl rfl)
  · split
    · exact .inr (.inr rfl)
    · exact .inl rfl

theorem noUser_query (url : URL) : NoUser url.printedQuery :=
  (query_head url).imp_right .inr

/-- **A URL without a user** is printed with something else behind the slashes, if any. -/
theorem string_of_no_user {url : URL} (hscheme : url.scheme ≠ []) (hopaq : url.opaqueData = [])
    (huser : url.user = none) (homit : url.omitHost = false)
    (hpath : url.path = [] ∧ url.escapedPath = [] ∨
      url.path ≠ [] ∧ url.escapedPath.head? = some '/'.toUInt8) :
    ∃ rest, url.string = url.scheme ++ lit ":" ++ rest ∧ ¬UserFirst rest := by
  have hauthority : url.authority =
      (if url.host ≠ [] ∨ url.path ≠ [] then lit "//" else []) ++ escape .host url.host := by
    rw [URL.authority, if_neg (by simp [hscheme]), if_neg (by simp [homit]), huser]
    simp
  have hprinted : url.printedPath (url.scheme ++ lit ":" ++ url.authority) = url.escapedPath := by
    rw [URL.printedPath]
    have hfront : url.scheme ++ lit ":" ++ url.authority ≠ [] := by simp [hscheme]
    have hslash : ¬(url.escapedPath ≠ [] ∧ url.escapedPath.head? ≠ some '/'.toUInt8 ∧
        url.host ≠ []) := by
      rintro ⟨hne, hhead, -⟩
      rcases hpath with ⟨-, h⟩ | ⟨-, h⟩
      · exact hne h
      · exact hhead h
    have hdot : ¬(url.scheme ++ lit ":" ++ url.authority ++ [] = [] ∧
        ':'.toUInt8 ∈ (cut '/'.toUInt8 url.escapedPath).1) := by
      rw [List.append_nil]
      exact fun hboth => hfront hboth.1
    rw [if_neg hslash, if_neg hdot]
    rfl
  have htail : NoUser (url.escapedPath ++ url.printedQuery) := by
    rcases hpath with ⟨-, hnil⟩ | ⟨-, hhead⟩
    · rw [hnil]
      exact noUser_query url
    · cases hescaped : url.escapedPath with
      | nil =>
        rw [hescaped] at hhead
        cases hhead
      | cons c s =>
        rw [hescaped] at hhead
        exact .inr (.inl hhead)
  rw [URL.string, if_pos hscheme, hopaq, if_neg (by simp), hprinted, hauthority]
  refine ⟨_, by simp only [List.append_assoc]; rfl, ?_⟩
  rintro ⟨rest, heq, hfind⟩
  split at heq
  · obtain rfl := List.append_cancel_left heq
    rw [List.find?_append, List.find?_eq_none.mpr fun c hc => by
      rw [isStop_host url.host c hc]
      exact Bool.false_ne_true, Option.none_or] at hfind
    exact find_of_noUser htail hfind
  · rename_i hbare
    rw [not_or, not_not, not_not] at hbare
    have hnil : url.escapedPath = [] := hpath.resolve_right (fun h => h.1 hbare.2) |>.2
    rw [hbare.1, hnil] at heq
    have hquery := query_head url
    rw [show url.printedQuery = lit "//" ++ rest from heq] at hquery
    rcases hquery with hquery | hquery | hquery
    · cases hquery
    · exact absurd (Option.some.inj hquery) (by decide)
    · exact absurd (Option.some.inj hquery) (by decide)


end Lib.Url
