import OneApi.Decimal.Numeral
import OneApi.Text.Percent

/-! The words of a document: brackets, marks, literals, numbers and strings, with white space
between them. A number takes every character that can stand in one; a string is read to units
first, and the units of escaped halves are joined to characters afterwards. -/

namespace OneApi.Json

inductive Token where
  | openArray
  | closeArray
  | openObject
  | closeObject
  | comma
  | colon
  | null
  | bool (value : Bool)
  | number (value : Numeral)
  | string (value : Option String)
  deriving DecidableEq

/-- A character of a string as it is written: itself, or by a code of sixteen bits. -/
inductive CharUnit where
  | char (c : Char)
  | code (n : Nat)
  deriving DecidableEq

def hexCode (a b c d : Char) : Option Nat :=
  [a, b, c, d].foldlM (fun n x => (Text.hexValue x).map (16 * n + ·)) 0

def unescape? : Char → Option Char
  | '"' => some '"'
  | '\\' => some '\\'
  | '/' => some '/'
  | 'b' => some '\x08'
  | 'f' => some '\x0c'
  | 'n' => some '\n'
  | 'r' => some '\r'
  | 't' => some '\t'
  | _ => none

/-- Puts a unit before what was read after it. -/
def before (u : CharUnit) (read : Option (List CharUnit × List Char)) :
    Option (List CharUnit × List Char) :=
  read.map fun (us, rest) => (u :: us, rest)

/-- The units up to the closing quote, and what follows it. Controls must be escaped. -/
def readUnits : List Char → Option (List CharUnit × List Char)
  | [] => none
  | '"' :: s => some ([], s)
  | '\\' :: 'u' :: a :: b :: c :: d :: s =>
    (hexCode a b c d).bind fun n => before (.code n) (readUnits s)
  | '\\' :: e :: s => (unescape? e).bind fun c => before (.char c) (readUnits s)
  | c :: s => if c < ' ' then none else before (.char c) (readUnits s)

def isHighHalf (n : Nat) : Bool := 0xd800 ≤ n && n < 0xdc00

def isLowHalf (n : Nat) : Bool := 0xdc00 ≤ n && n < 0xe000

/-- A high half and the low half after it make one character; neither stands alone. -/
def joinUnits : List CharUnit → Option (List Char)
  | [] => some []
  | .char c :: us => (joinUnits us).map (c :: ·)
  | .code n :: .code m :: us =>
    if isHighHalf n && isLowHalf m then
      (joinUnits us).map (Char.ofNat (0x10000 + (n - 0xd800) * 0x400 + (m - 0xdc00)) :: ·)
    else if isHighHalf n || isLowHalf n then none
    else (joinUnits (.code m :: us)).map (Char.ofNat n :: ·)
  | .code n :: us =>
    if isHighHalf n || isLowHalf n then none else (joinUnits us).map (Char.ofNat n :: ·)

def isNumberChar (c : Char) : Bool :=
  c.isDigit || c == '+' || c == '-' || c == '.' || c == 'e' || c == 'E'

/-- Digits without a leading zero. -/
def isWhole : List Char → Bool
  | [] => false
  | ['0'] => true
  | c :: s => c != '0' && (c :: s).all Char.isDigit

def readUnsigned (negative : Bool) (s : List Char) : Option Numeral := do
  let (whole, rest) := s.span Char.isDigit
  let (fraction, rest) ← match rest with
    | '.' :: r =>
      let (ds, r) := r.span Char.isDigit
      if ds.isEmpty then none else some (some ds, r)
    | r => some (none, r)
  let exponent ← Numeral.readExponent rest
  if isWhole whole then some ⟨negative, whole, fraction, exponent⟩ else none

def readNumeral : List Char → Option Numeral
  | '-' :: s => readUnsigned true s
  | s => readUnsigned false s

def isBlank (c : Char) : Bool := c == ' ' || c == '\n' || c == '\t' || c == '\r'

def mark? : Char → Option Token
  | '[' => some .openArray
  | ']' => some .closeArray
  | '\x7b' => some .openObject
  | '\x7d' => some .closeObject
  | ',' => some .comma
  | ':' => some .colon
  | _ => none

def readWord : List Char → Option (Token × List Char)
  | 'n' :: 'u' :: 'l' :: 'l' :: s => some (.null, s)
  | 't' :: 'r' :: 'u' :: 'e' :: s => some (.bool true, s)
  | 'f' :: 'a' :: 'l' :: 's' :: 'e' :: s => some (.bool false, s)
  | _ => none

def readNumber (s : List Char) : Option (Token × List Char) :=
  (readNumeral (s.takeWhile isNumberChar)).map fun n => (.number n, s.dropWhile isNumberChar)

/-- The token at the beginning of a text that is not blank, and what follows it. -/
def readToken : List Char → Option (Token × List Char)
  | [] => none
  | c :: s =>
    match mark? c with
    | some t => some (t, s)
    | none =>
      if c == '"' then
        (readUnits s).map fun (us, rest) => (.string ((joinUnits us).map String.ofList), rest)
      else if isNumberChar c then readNumber (c :: s)
      else readWord (c :: s)

theorem exists_of_before {u : CharUnit} {us : List CharUnit} {rest : List Char}
    {read : Option (List CharUnit × List Char)} (h : before u read = some (us, rest)) :
    ∃ vs, read = some (vs, rest) := by
  obtain ⟨⟨vs, r⟩, hr, h⟩ := Option.map_eq_some_iff.mp h
  cases h
  exact ⟨vs, hr⟩

theorem length_of_readUnits {s rest : List Char} {us : List CharUnit}
    (h : readUnits s = some (us, rest)) : rest.length < s.length := by
  fun_induction readUnits s generalizing us with
  | case1 => contradiction
  | case2 => cases h; simp
  | case3 _ _ _ _ _ ih =>
    obtain ⟨n, _, h⟩ := Option.bind_eq_some_iff.mp h
    obtain ⟨vs, hr⟩ := exists_of_before h
    have := ih hr
    simp only [List.length_cons]
    omega
  | case4 _ _ _ ih =>
    obtain ⟨c, _, h⟩ := Option.bind_eq_some_iff.mp h
    obtain ⟨vs, hr⟩ := exists_of_before h
    have := ih hr
    simp only [List.length_cons]
    omega
  | case5 => contradiction
  | case6 _ _ _ _ _ _ ih =>
    obtain ⟨vs, hr⟩ := exists_of_before h
    have := ih hr
    simp only [List.length_cons]
    omega

theorem length_of_readWord {s rest : List Char} {t : Token} (h : readWord s = some (t, rest)) :
    rest.length < s.length := by
  unfold readWord at h
  split at h <;> cases h <;> simp only [List.length_cons] <;> omega

theorem length_of_readToken {s rest : List Char} {t : Token} (h : readToken s = some (t, rest)) :
    rest.length < s.length := by
  unfold readToken at h
  split at h
  · contradiction
  · rename_i c s
    split at h
    · cases h
      simp
    · split at h
      · obtain ⟨⟨us, r⟩, hr, h⟩ := Option.map_eq_some_iff.mp h
        cases h
        have := length_of_readUnits hr
        simp only [List.length_cons]
        omega
      · split at h
        · rename_i hc
          obtain ⟨n, _, h⟩ := Option.map_eq_some_iff.mp h
          cases h
          have := (List.dropWhile_suffix isNumberChar (l := s)).length_le
          simp only [List.dropWhile_cons, hc, if_true, List.length_cons]
          omega
        · exact length_of_readWord h

/-- All tokens of a text, if it holds nothing else. -/
def tokens (s : List Char) : Option (List Token) :=
  match s with
  | [] => some []
  | c :: s =>
    if isBlank c then tokens s
    else
      match _h : readToken (c :: s) with
      | none => none
      | some (t, rest) => (tokens rest).map (t :: ·)
termination_by s.length
decreasing_by
  · simp
  · exact length_of_readToken _h

end OneApi.Json
