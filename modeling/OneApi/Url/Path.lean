import OneApi.Url.Encode
import OneApi.Url.Scheme

/-! Paths as lists of encoded segments. Segments are placed one after the other: `..` takes the
last one away and `.` adds nothing, and where either comes last an empty segment stays behind.
A segment that is a drive letter is never taken away. In a file address leading empty segments
are dropped, and a path that can have a host before it is changed to begin with a drive letter as
it is spelled with a colon. -/

namespace OneApi.Url

abbrev Segment := List Char

def isDot (s : Segment) : Bool :=
  let t := s.map Char.toLower
  t == ['.'] || t == ['%', '2', 'e']

def isDoubleDot (s : Segment) : Bool :=
  match s with
  | '.' :: t => isDot t
  | '%' :: '2' :: e :: t => e.toLower == 'e' && isDot t
  | _ => false

def isDriveLetter : Segment → Bool
  | [c, m] => c.isAlpha && (m == ':' || m == '|')
  | _ => false

/-- A drive letter, alone or before a backslash. -/
def beginsWithDrive (s : Segment) : Bool :=
  isDriveLetter (s.take 2) && (s.length == 2 || s[2]? == some '\\')

namespace Path

def text (segments : List Segment) : List Char := segments.flatMap ('/' :: ·)

/-- The path above the last segment. -/
def up (segments : List Segment) : List Segment :=
  if segments.getLast?.any beginsWithDrive then segments else segments.dropLast

/-- An empty segment keeps the final slash of a path that ends here. -/
def settle (last : Bool) (segments : List Segment) : List Segment :=
  if last then segments ++ [[]] else segments

def place (last : Bool) (done : List Segment) (s : Segment) : List Segment :=
  if isDoubleDot s then settle last (up done)
  else if isDot s then settle last done
  else done ++ [s]

def dropEmpty : List Segment → List Segment
  | [] :: s :: rest => dropEmpty (s :: rest)
  | segments => segments

/-- What a file address leaves of a finished path. -/
def finish (k : Kind) (segments : List Segment) : List Segment :=
  if k = .file then dropEmpty segments else segments

def beginsWithDriveLetter (segments : List Segment) : Bool := segments.head?.any isDriveLetter

/-- Writes a drive letter at the beginning with a colon. -/
def spellDrive (segments : List Segment) : List Segment :=
  match segments with
  | [c, '|'] :: rest => if c.isAlpha then [c, ':'] :: rest else segments
  | _ => segments

/-- A path that is put into an address. -/
def finishSpelled (k : Kind) (segments : List Segment) : List Segment :=
  finish k (if k = .file then spellDrive segments else segments)

def resolve (done : List Segment) : List Segment → List Segment
  | [] => done
  | [s] => place true done s
  | s :: rest => resolve (place false done s) rest

/-- The raw segments of a path text, after its first slash. -/
def split (k : Kind) (s : List Char) : List Segment :=
  match s with
  | c :: t => (if k.isSlash c then t else s).splitOnP k.isSlash
  | [] => [[]]

/-- Places the segments of a path text without tabs; only a scheme outside the web knows the empty
path. -/
def segments (k : Kind) (s : List Char) : List Segment :=
  if s.isEmpty && !k.isSpecial then [] else resolve [] ((split k s).map (encode pathMarks))

/-- Reads the path of an address. -/
def read (k : Kind) (s : List Char) : List Segment := finish k (segments k s)

/-- Appends one raw segment as it is, apart from tabs; `.` and `..` alone are left out. -/
def push (k : Kind) (done : List Segment) (s : List Char) : List Segment :=
  if s == ['.'] || s == ['.', '.'] then done
  else
    let marks := if k.isSpecial then '\\' :: segmentMarks else segmentMarks
    let s := encode marks (dropTabs s)
    if done.isEmpty || done == [[]] then finishSpelled k (place true [] s)
    else finish k (place true done s)

def popEmpty (segments : List Segment) : List Segment :=
  if segments.length > 1 && segments.getLast? == some [] then segments.dropLast else segments

/-- Appends raw segments, in the place of a final empty one. -/
def append (k : Kind) (segments : List Segment) (more : List (List Char)) : List Segment :=
  if more.isEmpty then segments else more.foldl (push k) (popEmpty segments)

end Path

end OneApi.Url
