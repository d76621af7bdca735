import OneApi.Text.Percent
import OneApi.Yaml.Place

/-! Scalars: quoted, plain and block texts. Blanks before the end of a line are dropped, and the
end of a line becomes a space, unless empty lines follow it, which then become line feeds. A
literal block keeps its lines as they are. -/

namespace OneApi.Yaml

inductive Style where
  | plain
  | quoted
  | literal
  | folded
  deriving DecidableEq

/-- Blanks and line ends between two words; `line` says that a new line has begun. -/
structure Gap where
  line : Bool := false
  blanks : Text := []
  breaks : Text := []

namespace Gap

def isEmpty (g : Gap) : Bool := !g.line && g.blanks.isEmpty

/-- The first line end counts as a space when it stands alone. -/
def fold : Text → Text
  | ['\n'] => [' ']
  | '\n' :: more => more
  | breaks => breaks

def text (g : Gap) : Text := if g.line then fold g.breaks else g.blanks

/-- Reads on to the next word. Tabs are refused in the first columns of a new line. -/
def read (indent : Nat) : Nat → Gap → Place → Option (Gap × Place)
  | 0, g, p => some (g, p)
  | n + 1, g, p =>
    match p.lineEnd? with
    | some (b, q) => read indent n { line := true, breaks := g.breaks ++ [b] } q
    | none =>
      match p.rest with
      | [] => some (g, p)
      | c :: _ =>
        if !isBlank c then some (g, p)
        else if g.line then
          if c == '\t' && p.column < indent then none else read indent n g (p.skip 1)
        else read indent n { g with blanks := g.blanks ++ [c] } (p.skip 1)

end Gap

namespace Scalar

/-- The character of an escape without digits. -/
def escaped? : Char → Option Char
  | '0' => some '\x00'
  | 'a' => some '\x07'
  | 'b' => some '\x08'
  | 't' => some '\t'
  | '\t' => some '\t'
  | 'n' => some '\n'
  | 'v' => some '\x0b'
  | 'f' => some '\x0c'
  | 'r' => some '\r'
  | 'e' => some '\x1b'
  | ' ' => some ' '
  | '"' => some '"'
  | '/' => some '/'
  | '\\' => some '\\'
  | 'N' => some '\x85'
  | '_' => some '\xa0'
  | 'L' => some '\u2028'
  | 'P' => some '\u2029'
  | _ => none

def codeLength? : Char → Option Nat
  | 'x' => some 2
  | 'u' => some 4
  | 'U' => some 8
  | _ => none

def charOfCode? (n : Nat) : Option Char := if n.isValidChar then some (Char.ofNat n) else none

/-- Reads what follows a backslash: the character, and the number of characters read. -/
def readEscape : Text → Option (Char × Nat)
  | [] => none
  | c :: s =>
    match codeLength? c with
    | none => (escaped? c).map fun x => (x, 1)
    | some k => do
      let digits := s.take k
      if digits.length < k then none
      let n ← digits.foldlM (fun n d => (Text.hexValue d).map (16 * n + ·)) 0
      return (← charOfCode? n, k + 1)

/-- Reads a quoted text after its opening quote. -/
def readQuoted (quote : Char) : Nat → Text → Place → Option (Text × Place)
  | 0, _, _ => none
  | n + 1, text, p =>
    if p.isDocumentMark then none
    else
      match p.rest with
      | [] => none
      | c :: s =>
        if c == quote then
          if quote == '\'' && s.head? == some quote then
            readQuoted quote n (text ++ [quote]) (p.skip 2)
          else some (text, p.skip 1)
        else if isSpace c then do
          let (gap, q) ← Gap.read 0 p.rest.length {} p
          readQuoted quote n (text ++ gap.text) q
        else if c == '\\' && quote == '"' then
          match (p.skip 1).lineEnd? with
          | some (_, q) => do
            let (gap, r) ← Gap.read 0 q.rest.length { line := true } q
            readQuoted quote n (text ++ gap.breaks) r
          | none => do
            let (x, k) ← readEscape s
            readQuoted quote n (text ++ [x]) (p.skip (k + 1))
        else readQuoted quote n (text ++ [c]) (p.skip 1)

def isFlowMark (c : Char) : Bool := c == ',' || c == '[' || c == ']' || c == '\x7b' || c == '\x7d'

/-- Whether a colon inside brackets stands where no text may go on. -/
def misplacedColon : Text → Bool
  | ':' :: c :: _ => isFlowMark c || c == '?'
  | _ => false

def endsPlain (flow : Bool) : Text → Bool
  | [] => true
  | ':' :: s => endsHere s
  | c :: _ => flow && isFlowMark c

/-- Reads a plain text; also tells whether a new line has begun behind it. -/
def readPlain (flow : Bool) (indent : Nat) : Nat → Text → Gap → Place →
    Option (Text × Bool × Place)
  | 0, _, _, _ => none
  | n + 1, text, gap, p =>
    let done := some (text, gap.line, p)
    if p.isDocumentMark then done
    else
      match p.rest with
      | [] => done
      | c :: _ =>
        if c == '#' && !gap.isEmpty then done
        else if isSpace c then do
          let (g, q) ← Gap.read indent p.rest.length gap p
          if !flow && q.column < indent then return (text, g.line, q)
          readPlain flow indent n text g q
        else if flow && misplacedColon p.rest then none
        else if endsPlain flow p.rest then done
        else readPlain flow indent n (text ++ gap.text ++ [c]) {} (p.skip 1)

/-- How the line ends after a block are treated. -/
inductive Chomp where
  | clip
  | strip
  | keep
  deriving DecidableEq

def chomp? : Char → Option Chomp
  | '+' => some .keep
  | '-' => some .strip
  | _ => none

/-- The marks of a block in either order: its chomping and its indentation. -/
def readMarks (s : Text) : Option (Chomp × Nat × Nat) :=
  let digit (c : Char) : Option Nat := if '1' ≤ c && c ≤ '9' then some (c.toNat - 48) else none
  let first := s.head?
  let second := (s.drop 1).head?
  match first.bind chomp? with
  | some chomp =>
    if second == some '0' then none
    else
      match second.bind digit with
      | some k => some (chomp, k, 2)
      | none => some (chomp, 0, 1)
  | none =>
    if first == some '0' then none
    else
      match first.bind digit with
      | some k =>
        match second.bind chomp? with
        | some chomp => some (chomp, k, 2)
        | none => some (.clip, k, 1)
      | none => some (.clip, 0, 0)

/-- Passes over empty lines and the indentation of the next line. An indentation of zero is not
known yet; the deepest one seen is given back. -/
def readEmptyLines (indent : Nat) : Nat → Text → Nat → Place → Option (Text × Nat × Place)
  | 0, breaks, deepest, p => some (breaks, deepest, p)
  | n + 1, breaks, deepest, p =>
    let spaces := (p.rest.takeWhile (· == ' ')).length
    let q := p.skip (if indent == 0 then spaces else min spaces (indent - p.column))
    let deepest := max deepest q.column
    if (indent == 0 || q.column < indent) && q.rest.head? == some '\t' then none
    else
      match q.lineEnd? with
      | none => some (breaks, deepest, q)
      | some (b, r) => readEmptyLines indent n (breaks ++ [b]) deepest r

/-- Reads the lines of a block. `ending` is the end of the line before, `breaks` are the empty
lines after it, and `blank` says that the line began with a blank. -/
def readLines (literal : Bool) (chomp : Chomp) (indent : Nat) :
    Nat → Text → Text → Text → Bool → Place → Option (Text × Place)
  | 0, _, _, _, _, _ => none
  | n + 1, text, ending, breaks, blank, p =>
    if p.column != indent || p.rest.isEmpty then
      let tail := match chomp with
        | .strip => []
        | .clip => ending
        | .keep => ending ++ breaks
      some (text ++ tail, p)
    else do
      let nextBlank := p.rest.head?.any isBlank
      let joint :=
        if !literal && ending == ['\n'] && !blank && !nextBlank then
          if breaks.isEmpty then [' '] else []
        else ending
      let line := p.rest.takeWhile fun c => !isBreak c
      let q := p.skip line.length
      let (ending, r) := match q.lineEnd? with
        | some (b, r) => ([b], r)
        | none => ([], q)
      let (more, _, r) ← readEmptyLines indent r.rest.length [] 0 r
      readLines literal chomp indent n (text ++ joint ++ breaks ++ line) ending more nextBlank r

/-- Reads a block after its first mark, inside of something indented by `outer`. -/
def readBlock (literal : Bool) (outer : Int) (p : Place) : Option (Text × Place) := do
  let (chomp, given, k) ← readMarks p.rest
  let p ← (p.skip k).skipLine?
  let known := if given == 0 then 0 else (max outer 0).toNat + given
  let (breaks, deepest, p) ← readEmptyLines known p.rest.length [] 0 p
  let indent := if known == 0 then max deepest (max (outer + 1) 1).toNat else known
  readLines literal chomp indent (p.rest.length + 1) [] [] breaks false p

end Scalar

end OneApi.Yaml
