import OneApi.Yaml.Scalar
import OneApi.Yaml.Tag

/-! The words of a document. Indentation becomes tokens for the beginning and the end of blocks. A
text may turn out to be a key only when its colon is met, which must be on the same line and
within 1024 bytes; the tokens of the key are then put before it. -/

namespace OneApi.Yaml

inductive Token where
  | version (major minor : Nat)
  /-- What a handle at the beginning of tags stands for. -/
  | handle (name : Text) (expansion : Tag)
  | documentStart
  | documentEnd
  | blockSequence
  | blockMapping
  | blockEnd
  | flowSequence
  | flowSequenceEnd
  | flowMapping
  | flowMappingEnd
  | blockEntry
  | flowEntry
  | key
  | value
  | alias (name : Text)
  | anchor (name : Text)
  | tag (handle : Text) (suffix : Tag)
  | scalar (style : Style) (text : Text)
  deriving DecidableEq

/-- A place where a key may begin: whether there must be one, and the number of tokens before. -/
structure KeyPlace where
  required : Bool
  number : Nat
  index : Nat
  line : Nat
  column : Nat

structure Scanner where
  place : Place
  /-- The tokens so far, last first, and their number. -/
  tokens : List Token := []
  count : Nat := 0
  indent : Int := -1
  outer : List Int := []
  /-- Where a key may have begun, for each level of brackets, innermost first. -/
  keys : List (Option KeyPlace) := [none]
  /-- Whether a key may begin here. -/
  keyAllowed : Bool := true

namespace Scanner

def inFlow (s : Scanner) : Bool := s.keys.length > 1

def push (s : Scanner) (t : Token) : Scanner := { s with tokens := t :: s.tokens, count := s.count + 1 }

/-- Puts a token after the first `number` tokens. -/
def insert (s : Scanner) (number : Nat) (t : Token) : Scanner :=
  { s with tokens := s.tokens.insertIdx (s.count - number) t, count := s.count + 1 }

def skip (s : Scanner) (n : Nat) : Scanner := { s with place := s.place.skip n }

/-- Gives up the innermost place of a key. -/
def dropKey (s : Scanner) : Option Scanner :=
  match s.keys with
  | some k :: keys => if k.required then none else some { s with keys := none :: keys }
  | _ => some s

/-- Notes that a key may begin here. -/
def noteKey (s : Scanner) : Option Scanner :=
  if !s.keyAllowed then some s
  else do
    let t ← s.dropKey
    let p := s.place
    let k : KeyPlace := ⟨!s.inFlow && s.indent == p.column, s.count, p.index, p.line, p.column⟩
    return { t with keys := some k :: t.keys.drop 1 }

/-- Gives up all places from which a key would be too long. -/
def dropStale (s : Scanner) : Option Scanner := do
  let keys ← s.keys.mapM fun k =>
    match k with
    | none => some none
    | some k =>
      if k.line < s.place.line || k.index + 1024 < s.place.index then
        if k.required then none else some none
      else some (some k)
  return { s with keys }

/-- Begins a block at a column, if it is deeper than the one around it. -/
def beginBlock (s : Scanner) (column number : Nat) (t : Token) : Scanner :=
  if s.inFlow || s.indent ≥ column then s
  else { s with indent := column, outer := s.indent :: s.outer }.insert number t

def endBlocksTo (column : Int) : List Int → Scanner → Scanner
  | [], s => s
  | o :: outer, s =>
    if s.indent > column then
      endBlocksTo column outer ({ s with indent := o, outer }.push .blockEnd)
    else s

/-- Ends the blocks that are deeper than a column. -/
def endBlocks (s : Scanner) (column : Int) : Scanner :=
  if s.inFlow then s else endBlocksTo column s.outer s

/-- Passes over blanks, comments and line ends, and over a byte order mark where a line begins.
Tabs do not count where a key may begin. -/
def skipSpace : Nat → Scanner → Scanner
  | 0, s => s
  | n + 1, s =>
    let p := s.place.skipByteOrderMark
    let p := p.skipWhile fun c => c == ' ' || (c == '\t' && (s.inFlow || !s.keyAllowed))
    let p := if p.rest.head? == some '#' then p.skipWhile fun c => !isBreak c else p
    match p.lineEnd? with
    | some (_, q) => skipSpace n { s with place := q, keyAllowed := s.keyAllowed || !s.inFlow }
    | none => { s with place := p }

def readVersionNumber (p : Place) : Option (Nat × Place) :=
  let digits := p.rest.takeWhile Char.isDigit
  if digits.isEmpty || digits.length > 9 then none
  else some (Nat.ofDigitChars 10 digits 0, p.skip digits.length)

/-- A line of instructions before a document. -/
def readDirective (p : Place) : Option (Token × Place) := do
  let name := (p.rest.drop 1).takeWhile isNameChar
  let p := p.skip (1 + name.length)
  if !endsHere p.rest then none
  let p := p.skipWhile isBlank
  if name = "YAML".toList then
    let (major, p) ← readVersionNumber p
    if p.rest.head? != some '.' then none
    let (minor, p) ← readVersionNumber (p.skip 1)
    return (.version major minor, ← p.skipLine?)
  else if name = "TAG".toList then
    let (handle, p) ← Tag.readHandle p
    if handle.length > 1 && !Tag.isNamed handle then none
    if !p.rest.head?.any isBlank then none
    let (expansion, p) ← Tag.readExpansion (p.skipWhile isBlank)
    return (.handle handle expansion, ← p.skipLine?)
  else none

/-- The name after the mark of an anchor or alias. -/
def readName (p : Place) : Option (Text × Place) :=
  let name := (p.rest.drop 1).takeWhile isNameChar
  let q := p.skip (1 + name.length)
  if name.isEmpty then none
  else if endsHere q.rest || q.rest.head?.any fun c => "?:,]\x7d%@`".toList.contains c then
    some (name, q)
  else none

/-- Adds a token that has been read and goes on behind it. -/
def take (s : Scanner) (t : Token) (p : Place) : Scanner := { s.push t with place := p }

/-- A token of one mark. -/
def mark (s : Scanner) (t : Token) (n : Nat) : Scanner := (s.push t).skip n

def documentMark (s : Scanner) : Option Scanner := do
  let t := if s.place.rest.head? == some '-' then Token.documentStart else .documentEnd
  return { ← (s.endBlocks (-1)).dropKey with keyAllowed := false }.mark t 3

def directive (s : Scanner) : Option Scanner := do
  let s ← (s.endBlocks (-1)).dropKey
  let (t, p) ← readDirective s.place
  return { s with keyAllowed := false }.take t p

def flowStart (s : Scanner) (t : Token) : Option Scanner := do
  let s ← s.noteKey
  return { s with keys := none :: s.keys, keyAllowed := true }.mark t 1

def flowEnd (s : Scanner) (t : Token) : Option Scanner := do
  let s ← s.dropKey
  let keys := if s.inFlow then s.keys.drop 1 else s.keys
  return { s with keys, keyAllowed := false }.mark t 1

def flowEntry (s : Scanner) : Option Scanner := do
  return { ← s.dropKey with keyAllowed := true }.mark .flowEntry 1

def blockEntry (s : Scanner) : Option Scanner := do
  if !s.inFlow && !s.keyAllowed then none
  let s ← (s.beginBlock s.place.column s.count .blockSequence).dropKey
  return { s with keyAllowed := true }.mark .blockEntry 1

def keyMark (s : Scanner) : Option Scanner := do
  if !s.inFlow && !s.keyAllowed then none
  let s ← (s.beginBlock s.place.column s.count .blockMapping).dropKey
  return { s with keyAllowed := !s.inFlow }.mark .key 1

/-- A colon: either the key before it is known now, or its key was announced or is missing. -/
def valueMark (s : Scanner) : Option Scanner := do
  match s.keys with
  | some k :: keys =>
    let s := (s.insert k.number .key).beginBlock k.column k.number .blockMapping
    return { s with keys := none :: keys, keyAllowed := false }.mark .value 1
  | _ =>
    if !s.inFlow && !s.keyAllowed then none
    let s := s.beginBlock s.place.column s.count .blockMapping
    return { s with keyAllowed := !s.inFlow }.mark .value 1

/-- A token that can be a key or belong to one. -/
def keyable (s : Scanner) (read : Place → Option (Token × Place)) : Option Scanner := do
  let s ← s.noteKey
  let (t, p) ← read s.place
  return { s with keyAllowed := false }.take t p

def block (s : Scanner) (literal : Bool) : Option Scanner := do
  let s ← s.dropKey
  let (text, p) ← Scalar.readBlock literal s.indent (s.place.skip 1)
  return { s with keyAllowed := true }.take (.scalar (if literal then .literal else .folded) text) p

def quoted (s : Scanner) (quote : Char) : Option Scanner :=
  s.keyable fun p => do
    let (text, q) ← Scalar.readQuoted quote p.rest.length [] (p.skip 1)
    return (.scalar .quoted text, q)

def plain (s : Scanner) : Option Scanner := do
  let s ← s.noteKey
  let indent := (s.indent + 1).toNat
  let (text, line, p) ← Scalar.readPlain s.inFlow indent (s.place.rest.length + 1) [] {} s.place
  return { s with keyAllowed := line }.take (.scalar .plain text) p

/-- Whether a plain text can begin here. -/
def beginsPlain (flow : Bool) : Text → Bool
  | [] => false
  | '-' :: s => !s.head?.any isBlank
  | '?' :: s => !flow && !endsHere s
  | ':' :: s => !flow && !endsHere s
  | c :: _ => !isSpace c && !",[]\x7b\x7d#&*!|>'\"%@`".toList.contains c

/-- Reads one token at a place where one begins. -/
def readToken (s : Scanner) : Option Scanner :=
  let flow := s.inFlow
  match s.place.rest with
  | [] => none
  | c :: rest =>
    if c == '%' && s.place.column == 0 then s.directive
    else if s.place.isDocumentMark then s.documentMark
    else
      match c with
      | '[' => s.flowStart .flowSequence
      | '\x7b' => s.flowStart .flowMapping
      | ']' => s.flowEnd .flowSequenceEnd
      | '\x7d' => s.flowEnd .flowMappingEnd
      | ',' => s.flowEntry
      | '*' => s.keyable fun p => (readName p).map fun (n, q) => (.alias n, q)
      | '&' => s.keyable fun p => (readName p).map fun (n, q) => (.anchor n, q)
      | '!' => s.keyable fun p => (Tag.read flow p).map fun (h, t, q) => (.tag h t, q)
      | '\'' => s.quoted '\''
      | '"' => s.quoted '"'
      | _ =>
        if c == '-' && endsHere rest then s.blockEntry
        else if c == '?' && (flow || endsHere rest) then s.keyMark
        else if c == ':' && (flow || endsHere rest) then s.valueMark
        else if c == '|' && !flow then s.block true
        else if c == '>' && !flow then s.block false
        else if beginsPlain flow (c :: rest) then s.plain
        else none

/-- Reads all tokens; each takes at least one character. -/
def readAll : Nat → Scanner → Option (List Token)
  | 0, _ => none
  | n + 1, s => do
    let s ← (skipSpace (s.place.rest.length + 1) s).dropStale
    let s := s.endBlocks s.place.column
    if s.place.rest.isEmpty then
      let s ← (s.endBlocks (-1)).dropKey
      return s.tokens.reverse
    else readAll n (← s.readToken)

end Scanner

/-- The tokens of a text of allowed characters. -/
def tokens (text : Text) : Option (List Token) :=
  if text.all isAllowed then Scanner.readAll (text.length + 1) { place := { rest := text } }
  else none

end OneApi.Yaml
