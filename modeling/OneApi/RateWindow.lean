import OneApi.Calendar

/-! The rate window that a response announces: how many requests it allows, how many were made and
when it starts anew. A header that is missing, has no text or is no count means zero, and a window
whose limit is zero is unknown. -/

namespace OneApi

/-- Header lines in the order received. Values are bytes, which need not encode a text. -/
abbrev Headers := List (String × List UInt8)

namespace Headers

def sameName (a b : String) : Bool := a.toList.map Char.toLower == b.toList.map Char.toLower

/-- The first value of a header; names ignore case. -/
def first? (h : Headers) (name : String) : Option (List UInt8) :=
  (h.find? fun line => sameName line.1 name).map (·.2)

/-- Visible ASCII, the space and the tab. -/
def isVisible (b : UInt8) : Bool := (0x20 ≤ b.toNat && b.toNat ≤ 0x7e) || b == 9

/-- The text of a value, if all its bytes are visible. -/
def text? (value : List UInt8) : Option (List Char) :=
  if value.all isVisible then some (value.map fun b => Char.ofNat b.toNat) else none

def count (h : Headers) (name : String) : UInt64 :=
  (((h.first? name).bind text?).bind fun text => Text.readCount64 (Text.strip text)).getD 0

end Headers

structure RateWindow where
  limit : UInt64
  remaining : UInt64
  reset : UInt64
  deriving DecidableEq

namespace RateWindow

def limitHeader : String := "x-ratelimit-limit"

def remainingHeader : String := "x-ratelimit-remaining"

def resetHeader : String := "x-ratelimit-reset"

def unknown : RateWindow := ⟨0, 0, 0⟩

def ofHeaders (h : Headers) : RateWindow :=
  ⟨h.count limitHeader, h.count remainingHeader, h.count resetHeader⟩

def isKnown (w : RateWindow) : Bool := 0 < w.limit

/-- The server counts the requests made, so the window is spent once that count has reached the
limit. -/
def isExhausted (w : RateWindow) : Bool := w.isKnown && w.limit ≤ w.remaining

def resetAt (w : RateWindow) : Option String :=
  if w.reset = 0 then none else Calendar.timestamp? w.reset.toNat

end RateWindow

end OneApi
