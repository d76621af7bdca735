/-! One page of a collection: its items and the counters that the server sends along. -/

namespace OneApi

structure Page (α : Type) where
  items : List α
  total : UInt64 := 0
  limit : UInt64 := 0
  offset : UInt64 := 0
  number : UInt64 := 0
  pages : UInt64 := 0
  deriving DecidableEq

namespace Page

variable {α : Type}

def hasNext (p : Page α) : Bool := p.number < p.pages

def hasPrevious (p : Page α) : Bool := 1 < p.number

def size (p : Page α) : Nat := p.items.length

def isEmpty (p : Page α) : Bool := p.items.isEmpty

end Page

end OneApi
