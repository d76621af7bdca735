import OneApi.Yaml.Node

/-! Reading values out of documents. Every scalar has a text, whatever its style and tag; counts
are plain, in one of four bases. A record is a mapping in which known keys stand at most once, or
nothing at all, which has every default. -/

namespace OneApi.Yaml

def isNull (s : Text) : Bool :=
  s = "null".toList || s = "Null".toList || s = "NULL".toList || s = ['~']

namespace Tree

def scalar? (d : Tree) (v : Node) : Option Scalar :=
  match d.target v with
  | some (.scalar _ s) => some s
  | _ => none

def text? (d : Tree) (v : Node) : Option String :=
  (d.scalar? v).map fun s => String.ofList s.text

/-- A text that may be null. The tag of nulls allows nothing else. -/
def optionalText? (d : Tree) (v : Node) : Option (Option String) := do
  let s ← d.scalar? v
  let text := some (some (String.ofList s.text))
  if s.style ≠ .plain then text
  else
    match s.tag with
    | some tag => if tag ≠ Tag.ofType "null" then text else if isNull s.text then some none else none
    | none => if s.text.isEmpty || isNull s.text then some none else text

def readBase (base : Nat) (s : Text) : Option Nat :=
  if s.isEmpty then none
  else
    s.foldlM (fun n c => do
      let d ← Text.hexValue c
      if d < base then some (base * n + d) else none) 0

def isPadded : Text → Bool
  | '0' :: s => !s.isEmpty && s.all Char.isDigit
  | _ => false

/-- A number with an optional plus sign, in the base that is written before it. -/
def readCount : Text → Option Nat
  | '+' :: s => unsigned s
  | s => unsigned s
where
  unsigned : Text → Option Nat
    | '0' :: 'x' :: s => readBase 16 s
    | '0' :: 'o' :: s => readBase 8 s
    | '0' :: 'b' :: s => readBase 2 s
    | s => if isPadded s then none else readBase 10 s

def count? (d : Tree) (bound : Nat) (v : Node) : Option Nat := do
  let s ← d.scalar? v
  let plain := s.style = .plain || (s.style = .literal && s.tag = some (Tag.ofType "int"))
  if plain then (readCount s.text).filter (· < bound) else none

def count32? (d : Tree) (v : Node) : Option UInt32 :=
  (d.count? UInt32.size v).map UInt32.ofNat

def count64? (d : Tree) (v : Node) : Option UInt64 :=
  (d.count? UInt64.size v).map UInt64.ofNat

/-- A name as a text, or as the tag of a node with nothing else. -/
def name? (d : Tree) (v : Node) : Option String := do
  let s ← d.scalar? v
  match s.tag.bind Tag.name? with
  | some name => if s.style = .plain && (s.text.isEmpty || isNull s.text) then some name else none
  | none => some (String.ofList s.text)

abbrev Fields := List (String × Node)

/-- The fields of a record with the given keys; all keys must be texts. -/
def fields? (d : Tree) (keys : List String) (v : Node) : Option Fields := do
  match ← d.target v with
  | .mapping _ entries => do
    let named ← entries.mapM fun e => (d.text? e.1).map fun k => (k, e.2)
    let known := named.filter fun e => keys.contains e.1
    if (known.map Prod.fst).Nodup then some known else none
  | .scalar _ s => if s.text.isEmpty && s.style = .plain then some [] else none
  | _ => none

def field {α : Type} (fields : Fields) (key : String) (missing : α) (read : Node → Option α) :
    Option α :=
  match fields.lookup key with
  | none => some missing
  | some v => read v

end Tree

end OneApi.Yaml
