/-! Places in a text: what is still to be read, and at which byte, line and column that is.
A line ends with a carriage return, a line feed, both together, or one of three Unicode
characters; the last two of these are kept where line ends are kept, all others become line
feeds. -/

namespace OneApi.Yaml

abbrev Text := List Char

def isBlank (c : Char) : Bool := c == ' ' || c == '\t'

def isSeparator (c : Char) : Bool := c == '\u2028' || c == '\u2029'

def isBreak (c : Char) : Bool := c == '\n' || c == '\r' || c == '\x85' || isSeparator c

def isSpace (c : Char) : Bool := isBlank c || isBreak c

/-- Whether a blank, the end of a line or the end of the text comes next. -/
def endsHere : Text → Bool
  | [] => true
  | c :: _ => isSpace c

/-- Letters, digits, the underscore and the hyphen. -/
def isNameChar (c : Char) : Bool := c.isAlphanum || c == '_' || c == '-'

/-- Characters that a text may hold. -/
def isAllowed (c : Char) : Bool :=
  c == '\t' || c == '\n' || c == '\r' || (' ' ≤ c && c ≤ '~') || c == '\x85' ||
    ('\xa0' ≤ c && c ≤ '\ufffd') || '\ufffd' < c && c.toNat ≥ 0x10000

def byteSize (s : Text) : Nat := s.foldl (fun n c => n + c.utf8Size) 0

structure Place where
  rest : Text
  /-- The number of bytes before. -/
  index : Nat := 0
  line : Nat := 0
  column : Nat := 0

namespace Place

/-- Passes over characters of one line. -/
def skip (p : Place) (n : Nat) : Place :=
  { p with
    rest := p.rest.drop n
    index := p.index + byteSize (p.rest.take n)
    column := p.column + n }

def skipWhile (p : Place) (q : Char → Bool) : Place := p.skip (p.rest.takeWhile q).length

/-- The end of a line at this place, as it is kept, and the beginning of the next. -/
def lineEnd? (p : Place) : Option (Char × Place) :=
  match p.rest with
  | '\r' :: '\n' :: s => some ('\n', ⟨s, p.index + 2, p.line + 1, 0⟩)
  | c :: s =>
    if isBreak c then
      some (if isSeparator c then c else '\n', ⟨s, p.index + c.utf8Size, p.line + 1, 0⟩)
    else none
  | [] => none

def skipLineEnd (p : Place) : Place := (p.lineEnd?.map Prod.snd).getD p

/-- A byte order mark may stand at the beginning of a line; it takes up a column there. -/
def skipByteOrderMark (p : Place) : Place :=
  if p.column == 0 && p.rest.head? == some '\ufeff' then p.skip 1 else p

/-- Passes over blanks and a comment to the end of the line, if nothing else comes before it. -/
def skipLine? (p : Place) : Option Place :=
  let q := p.skipWhile isBlank
  let r := if q.rest.head? == some '#' then q.skipWhile fun c => !isBreak c else q
  if r.rest.head?.all isBreak then some r.skipLineEnd else none

/-- Whether three equal marks at the beginning of a line end a document or begin one. -/
def isDocumentMark (p : Place) : Bool :=
  p.column == 0 &&
    match p.rest with
    | '-' :: '-' :: '-' :: s => endsHere s
    | '.' :: '.' :: '.' :: s => endsHere s
    | _ => false

end Place

end OneApi.Yaml
