import OneApi.Decimal.Shortest

/-! How doubles are written. A style says which sizes are written without an exponent, whether a
whole number keeps a point, and how ties between shortest decimals go. -/

namespace OneApi

structure NumberStyle where
  /-- The least and greatest power of ten of the first digit that is written without an exponent;
  no bound means always. -/
  positional : Option (Int × Int)
  pointed : Bool
  tie : Tie

namespace NumberStyle

/-- In documents: an exponent below 1e-5 and from 1e16 on, and always a point before it. -/
def document : NumberStyle := ⟨some (-5, 15), true, .even⟩

/-- In queries: never an exponent, and no point after a whole number. -/
def query : NumberStyle := ⟨none, false, .up⟩

end NumberStyle

namespace Binary64

def positional (style : NumberStyle) (negative : Bool) (digits : List Char) (power : Int) :
    Numeral :=
  if power < 0 then
    ⟨negative, ['0'], some (List.replicate (-power - 1).toNat '0' ++ digits), none⟩
  else
    let count := power.toNat + 1
    let whole := digits.take count ++ List.replicate (count - digits.length) '0'
    match digits.drop count with
    | [] => ⟨negative, whole, if style.pointed then some ['0'] else none, none⟩
    | rest => ⟨negative, whole, some rest, none⟩

def scientific (negative : Bool) (digits : List Char) (power : Int) : Numeral :=
  let rest := digits.drop 1
  ⟨negative, digits.take 1, if rest.isEmpty then none else some rest,
    some (power < 0, Text.decimal power.natAbs)⟩

def numeral (style : NumberStyle) (x : Binary64) : Numeral :=
  if x.rank = 0 then ⟨x.negative, ['0'], if style.pointed then some ['0'] else none, none⟩
  else
    let shown := shortest style.tie x.rank
    let plain := match style.positional with
      | none => true
      | some (low, high) => low ≤ shown.2 && shown.2 ≤ high
    if plain then positional style x.negative shown.1 shown.2
    else scientific x.negative shown.1 shown.2

end Binary64

namespace Extended

def text : Extended → List Char
  | .finite x => (x.numeral .query).text
  | .infinite negative => (if negative then ['-'] else []) ++ "inf".toList
  | .notANumber => "NaN".toList

end Extended

end OneApi
