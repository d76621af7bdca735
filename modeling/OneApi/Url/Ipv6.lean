import OneApi.Text.Digits
import OneApi.Text.Percent
import OneApi.Url.Fault

/-! IPv6 addresses: eight groups of sixteen bits. `::` stands once for at least one group of
zeros, and the last two groups may be written as an IPv4 address of plain decimal bytes. The
printed form writes the first longest run of two or more zero groups as `::`. -/

namespace OneApi.Url

def readGroup (s : List Char) : Option Nat :=
  if !s.isEmpty && s.length ≤ 4 then
    s.foldlM (fun n c => (Text.hexValue c).map (16 * n + ·)) 0
  else none

/-- A decimal byte without a leading zero. -/
def readByte (s : List Char) : Option Nat :=
  match s with
  | '0' :: _ :: _ => none
  | _ => (Text.readDigits s).filter (· < 256)

def readEmbedded (s : List Char) : Option (List Nat) :=
  match (s.splitOn '.').mapM readByte with
  | some [a, b, c, d] => some [256 * a + b, 256 * c + d]
  | _ => none

/-- Groups between single colons; `tail` allows the last of them to be an IPv4 address. -/
def readGroups (tail : Bool) : List (List Char) → Option (List Nat)
  | [] => some []
  | [s] => if tail && s.contains '.' then readEmbedded s else (readGroup s).map ([·])
  | s :: rest => do
    let g ← readGroup s
    let gs ← readGroups tail rest
    some (g :: gs)

/-- The texts around the first `::`. -/
def splitGap : List Char → Option (List Char × List Char)
  | ':' :: ':' :: s => some ([], s)
  | c :: s => (splitGap s).map fun (a, b) => (c :: a, b)
  | [] => none

def groupsOf (tail : Bool) (s : List Char) : Option (List Nat) :=
  if s.isEmpty then some [] else readGroups tail (s.splitOn ':')

def ipv6Groups? (s : List Char) : Option (List Nat) :=
  match splitGap s with
  | none => (readGroups true (s.splitOn ':')).filter (·.length == 8)
  | some (a, b) => do
    let front ← groupsOf false a
    let back ← groupsOf true b
    if front.length + back.length ≤ 7 then
      some (front ++ List.replicate (8 - front.length - back.length) 0 ++ back)
    else none

def readIpv6 (s : List Char) : Except Fault (List Nat) :=
  match ipv6Groups? s with
  | some gs => .ok gs
  | none => .error .invalidIpv6

def groupsText (gs : List Nat) : List Char := [':'].intercalate (gs.map (Nat.toDigits 16))

/-- Start and length of the first longest run of zeros at or after position `i`. -/
def longestRun : Nat → List Nat → Nat × Nat
  | _, [] => (0, 0)
  | i, g :: gs =>
    let run := ((g :: gs).takeWhile (· == 0)).length
    let later := longestRun (i + 1) gs
    if run ≥ later.2 then (i, run) else later

def ipv6Text (gs : List Nat) : List Char :=
  let (start, run) := longestRun 0 gs
  if run < 2 then groupsText gs
  else groupsText (gs.take start) ++ ':' :: ':' :: groupsText (gs.drop (start + run))

end OneApi.Url
