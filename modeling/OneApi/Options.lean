import OneApi.Direction
import OneApi.Filter

/-! What a request asks for: filters in order, a sort key, and a window of items given by limit,
page and offset. The query writes them in this order, joined by ampersands. -/

namespace OneApi

structure Options where
  filters : List Filter := []
  sort : Option SortKey := none
  limit : Option UInt32 := none
  page : Option UInt32 := none
  offset : Option UInt32 := none
  deriving DecidableEq

namespace Options

def withFilter (o : Options) (f : Filter) : Options := { o with filters := o.filters ++ [f] }

def sortedBy (o : Options) (k : SortKey) : Options := { o with sort := some k }

def withLimit (o : Options) (n : UInt32) : Options := { o with limit := some n }

def withPage (o : Options) (n : UInt32) : Options := { o with page := some n }

def withOffset (o : Options) (n : UInt32) : Options := { o with offset := some n }

/-- The options of one page of a walk: its number replaces any page and offset. -/
def forPage (o : Options) (n : UInt32) : Options := { o with page := some n, offset := none }

def isEmpty (o : Options) : Bool :=
  o.filters.isEmpty && o.sort.isNone && o.limit.isNone && o.page.isNone && o.offset.isNone

def parameter (name : String) : Option UInt32 → List (List Char)
  | none => []
  | some n => [name.toList ++ '=' :: Text.decimal n.toNat]

def fragments (o : Options) : List (List Char) :=
  o.filters.map Filter.fragment ++
    (o.sort.toList.map fun k => "sort=".toList ++ k.text) ++
    parameter "limit" o.limit ++ parameter "page" o.page ++ parameter "offset" o.offset

def query (o : Options) : List Char := List.intercalate ['&'] o.fragments

/-- One change to the options. -/
inductive Step where
  | filter (f : Filter)
  | sort (k : SortKey)
  | limit (n : UInt32)
  | page (n : UInt32)
  | offset (n : UInt32)
  deriving DecidableEq

def apply (o : Options) : Step → Options
  | .filter f => o.withFilter f
  | .sort k => o.sortedBy k
  | .limit n => o.withLimit n
  | .page n => o.withPage n
  | .offset n => o.withOffset n

def ofSteps (steps : List Step) : Options := steps.foldl apply {}

end Options

end OneApi
