import OneApi.Url.Encode
import OneApi.Url.Ipv4
import OneApi.Url.Ipv6

/-! Hosts. Schemes of the web name a domain or an address; its text is percent-decoded and written in
ASCII first. Other schemes keep any text in which no delimiter stands.

How a domain is written in ASCII depends on tables of Unicode, which are no part of this library:
whoever reads addresses gives a reader of domains. Its laws say what all such readers have in
common. -/

namespace OneApi.Url

inductive Host where
  /-- A domain, or for other schemes any encoded text; empty when there is none. -/
  | name (text : List Char)
  | ipv4 (address : UInt32)
  | ipv6 (groups : List Nat)
  deriving DecidableEq

namespace Host

def text : Host → List Char
  | name s => s
  | ipv4 a => ipv4Text a
  | ipv6 gs => '[' :: ipv6Text gs ++ [']']

def delimiters : List Char :=
  [' ', '#', '/', ':', '<', '>', '?', '@', '[', '\\', ']', '^', '|']

def isDomainChar (c : Char) : Bool := isPlain c && !('%' :: delimiters).contains c

/-- A domain in lower case. -/
def lowered (domain : List UInt8) : List Char :=
  domain.map fun b => (Char.ofNat b.toNat).toLower

/-- The label stands for one outside ASCII. -/
def isEncodedLabel (label : List Char) : Bool := "xn--".toList.isPrefixOf label

/-- ASCII, and no label stands for more than itself. -/
def isPlainDomain (domain : List UInt8) : Bool :=
  domain.all (· < 128) && !((lowered domain).splitOn '.').any isEncodedLabel

/-- How a plain domain is written. -/
def plainDomain? (domain : List UInt8) : Option (List Char) :=
  if (lowered domain).all isDomainChar then some (lowered domain) else none

end Host

/-- A reader of domains: how one that is given by its bytes is written in ASCII, if it is valid. -/
class DomainNames where
  toAscii : List UInt8 → Option (List Char)
  /-- No delimiter and nothing outside ASCII is left. -/
  isDomainChar {domain : List UInt8} {name : List Char} : toAscii domain = some name →
    ∀ c ∈ name, Host.isDomainChar c = true
  /-- Plain domains are put in lower case, unless they hold a delimiter. -/
  toAscii_of_plain {domain : List UInt8} : Host.isPlainDomain domain = true →
    toAscii domain = Host.plainDomain? domain

theorem Host.isDomainChar_of_plainDomain? {domain : List UInt8} {name : List Char}
    (h : plainDomain? domain = some name) : ∀ c ∈ name, isDomainChar c = true := by
  unfold plainDomain? at h
  split at h
  · rename_i hall
    cases h
    exact List.all_eq_true.mp hall
  · contradiction

/-- The reader that knows plain domains alone. -/
abbrev DomainNames.ascii : DomainNames where
  toAscii domain := if Host.isPlainDomain domain then Host.plainDomain? domain else none
  isDomainChar h := by
    split at h
    · exact Host.isDomainChar_of_plainDomain? h
    · contradiction
  toAscii_of_plain h := if_pos h

namespace Host

/-- The text between brackets, for a text that begins with one. -/
def bracketed (s : List Char) : Except Fault Host :=
  if s.getLast? == some ']' then (readIpv6 s.dropLast).map ipv6 else .error .invalidIpv6

variable [DomainNames]

def readDomain (s : List Char) : Except Fault Host :=
  match DomainNames.toAscii (Text.percentDecode s) with
  | none => .error .invalidDomain
  | some domain =>
    if domain.isEmpty then .error .emptyHost
    else if endsInNumber domain then (readIpv4 domain).map ipv4
    else .ok (name domain)

/-- The host of an address of the web. -/
def read : List Char → Except Fault Host
  | '[' :: s => bracketed s
  | s => readDomain s

/-- The host of any other address. -/
def readForeign : List Char → Except Fault Host
  | '[' :: s => bracketed s
  | s =>
    if s.any fun c => c == '\x00' || delimiters.contains c then .error .invalidHostCharacter
    else .ok (name (Text.percentEncode isPlain s))

end Host

end OneApi.Url
