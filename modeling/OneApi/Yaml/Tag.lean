import OneApi.Text.Percent
import OneApi.Yaml.Place

/-! Tags are bytes. One is written as a handle, which stands for its beginning, and a suffix of
ASCII characters and escaped bytes. Escaped bytes come in groups of the length that their first
byte announces, but need not encode a character. Handles and suffixes count up to the first zero
byte. -/

namespace OneApi.Yaml

abbrev Tag := List UInt8

namespace Tag

def ofText (s : Text) : Tag := s.flatMap String.utf8EncodeChar

/-- The tag of a type that every document knows. -/
def ofType (name : String) : Tag := ofText ("tag:yaml.org,2002:" ++ name).toList

/-- The tag of one mark, also the first byte of the tags that are a document's own. -/
def plain : Tag := ofText ['!']

def cut (t : Tag) : Tag := t.takeWhile (· != 0)

/-- What one of the document's own tags says, if that is a text. -/
def name? (t : Tag) : Option String :=
  if t = plain then some "!"
  else if t.take 1 = plain then String.fromUTF8? (t.drop 1).toByteArray
  else none

/-- A handle such as `!` or `!name!`. -/
def readHandle (p : Place) : Option (Text × Place) :=
  match p.rest with
  | '!' :: s =>
    let name := s.takeWhile isNameChar
    let closing := if (s.drop name.length).head? == some '!' then ['!'] else []
    let text := '!' :: name ++ closing
    some (text, p.skip text.length)
  | _ => none

/-- Whether a handle begins and ends with a mark of its own. -/
def isNamed (handle : Text) : Bool := handle.length > 1 && handle.getLast? == some '!'

def isTagChar (verbatim : Bool) (c : Char) : Bool :=
  isNameChar c || ";/?:@&=+$.%!~*'()".toList.contains c ||
    (verbatim && (c == ',' || c == '[' || c == ']'))

def readByte : Text → Option UInt8
  | '%' :: a :: b :: _ => do
    return UInt8.ofNat (16 * (← Text.hexValue a) + (← Text.hexValue b))
  | _ => none

/-- The number of bytes that follow a first byte. -/
def followers? (b : UInt8) : Option Nat :=
  if b < 0x80 then some 0
  else if b / 0x20 == 6 then some 1
  else if b / 0x10 == 14 then some 2
  else if b / 8 == 30 then some 3
  else none

def readFollowers : Nat → Text → Option Tag
  | 0, _ => some []
  | n + 1, s => do
    let b ← readByte s
    if b / 0x40 == 2 then return b :: (← readFollowers n (s.drop 3)) else none

/-- A group of escaped bytes, each of which takes three characters. -/
def readGroup (s : Text) : Option Tag := do
  let b ← readByte s
  return b :: (← readFollowers (← followers? b) (s.drop 3))

/-- The bytes of a tag, and what follows them. -/
def readBytes (verbatim : Bool) : Nat → Tag → Text → Option (Tag × Text)
  | 0, t, s => some (t, s)
  | n + 1, t, s =>
    match s with
    | [] => some (t, [])
    | c :: rest =>
      if !isTagChar verbatim c then some (t, s)
      else if c == '%' then do
        let bytes ← readGroup s
        readBytes verbatim n (t ++ bytes) (s.drop (3 * bytes.length))
      else readBytes verbatim n (t ++ ofText [c]) rest

def readAt (verbatim : Bool) (p : Place) : Option (Tag × Place) := do
  let (t, rest) ← readBytes verbatim p.rest.length [] p.rest
  return (t, p.skip (p.rest.length - rest.length))

/-- What a handle is to stand for. -/
def readExpansion (p : Place) : Option (Tag × Place) := do
  let (t, p) ← readAt true p
  if t.isEmpty || !endsHere p.rest then none else return (cut t, p)

/-- Reads a tag as its handle and its suffix; a tag without a handle is complete. -/
def read (flow : Bool) (p : Place) : Option (Text × Tag × Place) := do
  let (handle, t, q) ← match p.rest with
    | '!' :: '<' :: _ => do
      let (t, q) ← readAt true (p.skip 2)
      if t.isEmpty || q.rest.head? != some '>' then none
      pure (([] : Text), cut t, q.skip 1)
    | _ => do
      let (handle, q) ← readHandle p
      let (t, q) ← readAt false q
      if isNamed handle then
        if t.isEmpty then none
        pure (handle, cut t, q)
      else
        let suffix := cut (ofText (handle.drop 1) ++ t)
        pure (if suffix.isEmpty then ([], plain, q) else (['!'], suffix, q))
  if endsHere q.rest || (flow && q.rest.head? == some ',') then return (handle, t, q) else none

end Tag

end OneApi.Yaml
