import OneApi.Text.Blank
import OneApi.Url.Basic

/-! Reading addresses. Controls and spaces around a text and tabs and newlines in it do not count.
After the scheme an address of the web has an authority, however many slashes announce it; a file
has a host after two slashes; any other scheme has an authority after two slashes, a path after
one, and a text without slash that nothing can be joined to. -/

namespace OneApi.Url

def isSchemeChar (c : Char) : Bool := c.isAlphanum || c == '+' || c == '-' || c == '.'

/-- The scheme in lower case, and what follows its colon. -/
def splitScheme (s : List Char) : Option (List Char × List Char) :=
  match s.span isSchemeChar with
  | (c :: name, ':' :: rest) =>
    if c.isAlpha then some ((c :: name).map Char.toLower, rest) else none
  | _ => none

def isEnd (c : Char) : Bool := c == '/' || c == '?' || c == '#'

/-- What ends an authority. -/
def endsAuthority (k : Kind) (c : Char) : Bool := isEnd c || (k.isSpecial && c == '\\')

/-- The texts before and after the last `@`. -/
def splitAt : List Char → Option (List Char × List Char)
  | [] => none
  | c :: s =>
    match splitAt s with
    | some (a, b) => some (c :: a, b)
    | none => if c == '@' then some ([], s) else none

/-- The host up to a colon outside of brackets, and the rest. -/
def splitHost (inside : Bool) : List Char → List Char × List Char
  | [] => ([], [])
  | c :: s =>
    if c == ':' && !inside then ([], c :: s)
    else
      let (host, rest) := splitHost (c == '[' || (inside && c != ']')) s
      (c :: host, rest)

/-- Port digits, ended by a backslash too, and what follows them. -/
def readPort (k : Kind) (s : List Char) : Except Fault (Option UInt16 × List Char) :=
  let (digits, rest) := s.span Char.isDigit
  let n := Nat.ofDigitChars 10 digits 0
  if n > 65535 || rest.head?.any (· != '\\') then .error .invalidPort
  else
    let port := UInt16.ofNat n
    .ok (if digits.isEmpty || k.defaultPort? = some port then none else some port, rest)

def splitPassword (s : List Char) : List Char × List Char :=
  let (user, rest) := s.span (· != ':')
  (user, rest.drop 1)

section

variable [DomainNames]

/-- Reads the text of an authority; also gives what belongs to the path again. -/
def readAuthority (k : Kind) (s after : List Char) : Except Fault (Authority × List Char) := do
  let (info, place) := (splitAt s).getD ([], s)
  if s.head? = some '@' && place.isEmpty && info.isEmpty && !after.isEmpty then throw .emptyHost
  let (user, password) := splitPassword info
  let user := encode userMarks user
  let password := encode userMarks password
  let (hostText, rest) := splitHost false place
  if hostText.isEmpty then
    if k.isSpecial || !rest.isEmpty || !user.isEmpty || !password.isEmpty then throw .emptyHost
  let host ← if k.isSpecial then Host.read hostText else Host.readForeign hostText
  let (port, back) ← readPort k (rest.drop 1)
  return (⟨user, password, host, port⟩, back)

end

/-- Query and fragment: what stands behind the first `?` before the first `#`, and behind that. -/
def readTail (k : Kind) (s : List Char) : Option (List Char) × Option (List Char) :=
  let marks := if k.isSpecial then '\'' :: queryMarks else queryMarks
  let (query, fragment) := s.span (· != '#')
  (match query with
    | '?' :: q => some (encode marks q)
    | _ => none,
   match fragment with
    | '#' :: f => some (encode fragmentMarks f)
    | _ => none)

def isPathChar (c : Char) : Bool := c != '?' && c != '#'

def assemble (scheme : List Char) (authority : Option Authority) (path : Path)
    (tail : List Char) : Url :=
  let (query, fragment) := readTail (Kind.ofScheme scheme) tail
  ⟨scheme, authority, path, query, fragment⟩

variable [DomainNames]

def readWithAuthority (scheme s : List Char) : Except Fault Url := do
  let k := Kind.ofScheme scheme
  let (authority, rest) := s.span fun c => !endsAuthority k c
  let (authority, back) ← readAuthority k authority rest
  let (path, tail) := (back ++ rest).span isPathChar
  return assemble scheme (some authority) (.hierarchical false (Path.read k path)) tail

def noHost : Authority := ⟨[], [], .name [], none⟩

/-- The host of a file address; the local machine needs no name. -/
def readFileHost (s : List Char) : Except Fault Host :=
  if s.isEmpty then .ok (.name [])
  else (Host.read s).map fun h => if h = .name "localhost".toList then .name [] else h

def readFile (scheme s : List Char) : Except Fault Url := do
  let isSlash (c : Char) : Bool := c == '/' || c == '\\'
  let (hostText, rest) :=
    match s with
    | a :: b :: t =>
      if isSlash a && isSlash b then
        let (h, r) := t.span fun c => !endsAuthority .file c
        if isDriveLetter h then ([], t) else (h, r)
      else ([], s)
    | _ => ([], s)
  let host ← readFileHost hostText
  let (path, tail) := rest.span isPathChar
  let segments := Path.segments .file path
  if host ≠ .name [] && Path.beginsWithDriveLetter segments then
    return assemble scheme (some noHost) (.hierarchical false (Path.finishSpelled .file segments)) tail
  return assemble scheme (some { noHost with host }) (.hierarchical false (Path.finish .file segments)) tail

def readForeign (scheme s : List Char) : Except Fault Url :=
  match s with
  | '/' :: '/' :: t => readWithAuthority scheme t
  | '/' :: _ =>
    let (path, tail) := s.span isPathChar
    let segments := Path.read .other path
    let guarded := segments.length > 1 && segments.head? == some []
    .ok (assemble scheme none (.hierarchical guarded segments) tail)
  | _ =>
    let (path, tail) := s.span isPathChar
    .ok (assemble scheme none (.rootless (Text.percentEncode isPlain path)) tail)

def parse (s : List Char) : Except Fault Url :=
  let isEdge (c : Char) : Bool := c ≤ ' '
  match splitScheme (dropTabs (Text.dropEnd isEdge (s.dropWhile isEdge))) with
  | none => .error .missingScheme
  | some (scheme, rest) =>
    match Kind.ofScheme scheme with
    | .web _ => readWithAuthority scheme (rest.dropWhile fun c => c == '/' || c == '\\')
    | .file => readFile scheme rest
    | .other => readForeign scheme rest

end OneApi.Url
