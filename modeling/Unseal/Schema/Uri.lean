/-!
# Resource identifiers

References to schema documents are read, resolved against a base and brought to a normal form
as RFC 3986 lays down: letters of scheme and host in lower case, no escapes that are not
needed, no dot segments.
-/

set_option autoImplicit false

namespace Unseal

/-- A reference in its five parts; one that has a scheme is absolute. -/
structure Uri where
  scheme : Option (List Char)
  authority : Option (List Char)
  path : List Char
  query : Option (List Char)
  fragment : Option (List Char)
deriving DecidableEq, Repr, Inhabited

namespace Uri

inductive Fault where
  | unexpected (index : Nat)
  | badEscape (index : Nat)
  | badAddress (index : Nat)
deriving DecidableEq, Repr

def Fault.message : Fault → String
  | unexpected i => "unexpected character at index " ++ toString i
  | badEscape i => "invalid percent-encoded octet at index " ++ toString i
  | badAddress i => "invalid IPv6 address at index " ++ toString i

/-! ## Character classes -/

def isAlpha (c : Char) : Bool := ('a' ≤ c && c ≤ 'z') || ('A' ≤ c && c ≤ 'Z')

def isDigit (c : Char) : Bool := '0' ≤ c && c ≤ '9'

def isHex (c : Char) : Bool := isDigit c || ('a' ≤ c && c ≤ 'f') || ('A' ≤ c && c ≤ 'F')

def isUnreserved (c : Char) : Bool := isAlpha c || isDigit c || "-._~".toList.contains c

def isDelimiter (c : Char) : Bool := "!$&'()*+,;=".toList.contains c

def inScheme (c : Char) : Bool := isAlpha c || isDigit c || "+-.".toList.contains c

def inName (c : Char) : Bool := isUnreserved c || isDelimiter c

def inUserInfo (c : Char) : Bool := inName c || c == ':'

def inPath (c : Char) : Bool := inName c || c == ':' || c == '@' || c == '/'

def inQuery (c : Char) : Bool := inPath c || c == '?'

/-! ## Reading -/

/-- The first character from `i` on that is neither allowed nor part of an escape. -/
def check (allowed : Char → Bool) (i : Nat) : List Char → Except Fault Unit
  | [] => .ok ()
  | '%' :: a :: b :: cs =>
    if isHex a && isHex b then check allowed (i + 3) cs else .error (.badEscape i)
  | c :: cs =>
    if c = '%' then .error (.badEscape i)
    else if allowed c then check allowed (i + c.utf8Size) cs
    else .error (.unexpected i)

def cut (marks : List Char) (cs : List Char) : List Char × List Char :=
  (cs.takeWhile fun c => !marks.contains c, cs.dropWhile fun c => !marks.contains c)

def splitOn (mark : Char) : List Char → List (List Char)
  | [] => [[]]
  | c :: cs =>
    if c = mark then [] :: splitOn mark cs
    else match splitOn mark cs with
      | part :: parts => (c :: part) :: parts
      | [] => [[c]]

def isGroup (g : List Char) : Bool := !g.isEmpty && g.length ≤ 4 && g.all isHex

def isDottedQuad (g : List Char) : Bool :=
  let parts := splitOn '.' g
  parts.length == 4 && parts.all fun p =>
    !p.isEmpty && p.length ≤ 3 && p.all isDigit &&
      p.foldl (fun n d => n * 10 + (d.toNat - 48)) 0 ≤ 255

/-- How many groups of an address the parts stand for; nothing if one is none. -/
def groupCount : List (List Char) → Option Nat
  | [] => some 0
  | [g] => if isGroup g then some 1 else if isDottedQuad g then some 2 else none
  | g :: gs => if isGroup g then (groupCount gs).map (· + 1) else none

/-- Eight groups, or fewer with one run of zero groups left out. -/
def isAddress (cs : List Char) : Bool :=
  let rec gap : List Char → List Char → Option (List Char × List Char)
    | _, [] => none
    | acc, ':' :: ':' :: rest => some (acc.reverse, rest)
    | acc, c :: rest => gap (c :: acc) rest
  let groups (g : List Char) := if g.isEmpty then some 0 else groupCount (splitOn ':' g)
  match gap [] cs with
  | none => groups cs == some 8
  | some (before, after) =>
    match groups before, groups after with
    | some m, some n => decide (m + n ≤ 7)
    | _, _ => false

def checkHost (i : Nat) (cs : List Char) : Except Fault Unit :=
  match cs with
  | '[' :: rest =>
    let (address, after) := cut [']'] rest
    if after.isEmpty || !isAddress address then .error (.badAddress (i + 1))
    else
      match after.drop 1 with
      | [] => .ok ()
      | ':' :: port => check isDigit (i + address.length + 3) port
      | _ => .error (.unexpected (i + address.length + 2))
  | _ =>
    let (host, port) := cut [':'] cs
    match check inName i host with
    | .error e => .error e
    | .ok () => check isDigit (i + host.length + 1) (port.drop 1)

def checkAuthority (i : Nat) (cs : List Char) : Except Fault Unit :=
  if cs.contains '@' then
    let (user, host) := cut ['@'] cs
    match check inUserInfo i user with
    | .error e => .error e
    | .ok () => checkHost (i + user.length + 1) (host.drop 1)
  else checkHost i cs

def readHierarchy (i : Nat) (cs : List Char) :
    Except Fault (Option (List Char) × List Char) :=
  match cs with
  | '/' :: '/' :: rest =>
    let (authority, path) := cut ['/'] rest
    match checkAuthority (i + 2) authority with
    | .error e => .error e
    | .ok () =>
      match check inPath (i + 2 + authority.length) path with
      | .error e => .error e
      | .ok () => .ok (some authority, path)
  | path =>
    match check inPath i path with
    | .error e => .error e
    | .ok () => .ok (none, path)

def readScheme (cs : List Char) :
    Except Fault (Option (List Char) × Option (List Char) × List Char) :=
  let (before, rest) := cut [':', '/'] cs
  match rest with
  | ':' :: after =>
    if before.all inScheme then
      match before with
      | c :: _ =>
        if isAlpha c then
          (readHierarchy (before.length + 1) after).map fun (a, p) => (some before, a, p)
        else .error (.unexpected 0)
      | [] => .error (.unexpected 0)
    else
      match check inPath 0 before with
      | .error e => .error e
      | .ok () => .error (.unexpected before.length)
  | _ => (readHierarchy 0 cs).map fun (a, p) => (none, a, p)

def readTail (i : Nat) : List Char → Except Fault (Option (List Char))
  | [] => .ok none
  | _ :: cs => (check inQuery (i + 1) cs).map fun _ => some cs

def read (text : String) : Except Fault Uri := do
  let (main, fragment) := cut ['#'] text.toList
  let (hierarchy, query) := cut ['?'] main
  let (scheme, authority, path) ← readScheme hierarchy
  let q ← readTail hierarchy.length query
  let f ← readTail main.length fragment
  .ok ⟨scheme, authority, path, q, f⟩

/-! ## Text -/

def chars (u : Uri) : List Char :=
  (match u.scheme with | some s => s ++ [':'] | none => []) ++
  (match u.authority with | some a => '/' :: '/' :: a | none => []) ++ u.path ++
  (match u.query with | some q => '?' :: q | none => []) ++
  (match u.fragment with | some f => '#' :: f | none => [])

def text (u : Uri) : String := String.ofList u.chars

/-! ## Normal form -/

def lowerChar (c : Char) : Char :=
  if 'A' ≤ c && c ≤ 'Z' then Char.ofNat (c.toNat + 32) else c

def upperChar (c : Char) : Char :=
  if 'a' ≤ c && c ≤ 'z' then Char.ofNat (c.toNat - 32) else c

def hexValue (c : Char) : Nat :=
  if isDigit c then c.toNat - 48 else (upperChar c).toNat - 55

/-- Escapes of unreserved characters are undone, all others get upper-case digits. Other
characters go through `change`. -/
def normalEscapes (change : Char → Char) : List Char → List Char
  | '%' :: a :: b :: cs =>
    let c := Char.ofNat (hexValue a * 16 + hexValue b)
    if isUnreserved c then change c :: normalEscapes change cs
    else '%' :: upperChar a :: upperChar b :: normalEscapes change cs
  | c :: cs => change c :: normalEscapes change cs
  | [] => []

def pushSegment (done : List (List Char)) (segment : List Char) : List (List Char) :=
  if segment = ['.'] then done
  else if segment = ['.', '.'] then done.drop 1
  else segment :: done

def removeDots (path : List Char) : List Char :=
  match path with
  | '/' :: rest =>
    let segments := splitOn '/' rest
    let done := segments.foldl pushSegment []
    let trailing := match segments.getLast? with
      | some last => last == ['.'] || last == ['.', '.']
      | none => false
    let done := if trailing then [] :: done else done
    done.reverse.flatMap ('/' :: ·)
  | path => path

/-- Host and port in normal form; the port that the scheme has anyway is left out. -/
def normalAuthority (scheme : Option (List Char)) (a : List Char) : List Char :=
  let (user, host) :=
    if a.contains '@' then
      let (u, h) := cut ['@'] a
      (normalEscapes id u ++ ['@'], h.drop 1)
    else ([], a)
  let (name, port) := match host with
    | '[' :: _ =>
      let (address, rest) := cut [']'] host
      (address ++ [']'], rest.drop 1)
    | _ => cut [':'] host
  let usual := match scheme with
    | some s =>
      if s = "http".toList ∨ s = "ws".toList then some "80".toList
      else if s = "https".toList ∨ s = "wss".toList then some "443".toList
      else none
    | none => none
  let digits := port.drop 1
  let port := if digits.isEmpty ∨ some digits = usual then [] else ':' :: digits
  user ++ normalEscapes lowerChar name ++ port

def normalize (u : Uri) : Uri :=
  let scheme := u.scheme.map (·.map lowerChar)
  let path := normalEscapes id u.path
  ⟨scheme, u.authority.map (normalAuthority scheme),
    if scheme.isSome then removeDots path else path,
    u.query.map (normalEscapes id), u.fragment.map (normalEscapes id)⟩

/-! ## Resolution -/

inductive Dangling where
  | invalid (reference : String) (fault : Fault)
  | fragmentInBase (reference base : String)
  | opaqueBase (reference base : String)
deriving DecidableEq, Repr

def Dangling.message : Dangling → String
  | invalid r f => "Invalid URI reference '" ++ r ++ "': " ++ f.message
  | fragmentInBase r b =>
    "Failed to resolve '" ++ r ++ "' against '" ++ b ++ "': base URI/IRI with fragment"
  | opaqueBase r b =>
    "Failed to resolve '" ++ r ++ "' against '" ++ b ++ "': relative reference must be empty " ++
      "or start with '#' when resolved against authority-less base with rootless path"

def mergePath (base : Uri) (path : List Char) : List Char :=
  if base.authority.isSome && base.path.isEmpty then '/' :: path
  else (base.path.reverse.dropWhile (· != '/')).reverse ++ path

def join (base r : Uri) : Uri :=
  if r.scheme.isSome then { r with path := removeDots r.path }
  else if r.authority.isSome then { r with scheme := base.scheme, path := removeDots r.path }
  else if r.path.isEmpty then
    { base with query := if r.query.isSome then r.query else base.query, fragment := r.fragment }
  else
    let path := match r.path with
      | '/' :: _ => r.path
      | _ => mergePath base r.path
    ⟨base.scheme, base.authority, removeDots path, r.query, r.fragment⟩

/-- No hierarchy to resolve a path in, as in `urn:a`. -/
def isOpaque (u : Uri) : Bool := u.authority.isNone && u.path.head? != some '/'

def resolve (base : Uri) (reference : String) : Except Dangling Uri :=
  match read reference with
  | .error f => .error (.invalid reference f)
  | .ok r =>
    if base.fragment.isSome then
      if reference.startsWith "#" && base.text.endsWith reference then .ok base
      else .error (.fragmentInBase reference base.text)
    else if r.scheme.isNone && isOpaque base && !(r.path.isEmpty && r.query.isNone &&
        r.authority.isNone) then
      .error (.opaqueBase reference base.text)
    else .ok (normalize (join base r))

def root : Uri := ⟨some "json-schema".toList, some [], ['/'], none, none⟩

def withoutFragment (u : Uri) : Uri := { u with fragment := none }

end Uri
end Unseal
