import OneApi.Url.Host
import OneApi.Url.Path

/-! Addresses. Each part is held in its encoded form, so the text of an address is its parts with
their delimiters between them. A path is either a list of segments or, for addresses such as
`mailto:a@b`, a text that no path can be joined to. -/

namespace OneApi

structure Url.Authority where
  user : List Char
  password : List Char
  host : Url.Host
  port : Option UInt16
  deriving DecidableEq

inductive Url.Path where
  /-- `guarded` writes `/.` before the segments, which then may begin with an empty one. -/
  | hierarchical (guarded : Bool) (segments : List Url.Segment)
  | rootless (text : List Char)
  deriving DecidableEq

structure Url where
  scheme : List Char
  authority : Option Url.Authority
  path : Url.Path
  query : Option (List Char)
  fragment : Option (List Char)
  deriving DecidableEq

namespace Url

def Authority.credentials (a : Authority) : List Char :=
  if a.user.isEmpty && a.password.isEmpty then []
  else if a.password.isEmpty then a.user ++ ['@']
  else a.user ++ ':' :: a.password ++ ['@']

def Authority.text (a : Authority) : List Char :=
  a.credentials ++ a.host.text ++
    match a.port with
    | none => []
    | some p => ':' :: Text.decimal p.toNat

def Path.written : Path → List Char
  | .hierarchical guarded segments => (if guarded then ['/', '.'] else []) ++ Path.text segments
  | .rootless s => s

def kind (u : Url) : Kind := Kind.ofScheme u.scheme

/-- Scheme and authority. -/
def origin (u : Url) : List Char :=
  u.scheme ++ ':' ::
    match u.authority with
    | none => []
    | some a => '/' :: '/' :: a.text

/-- An optional part with the mark that announces it. -/
def marked (mark : Char) : Option (List Char) → List Char
  | none => []
  | some s => mark :: s

def text (u : Url) : List Char :=
  u.origin ++ u.path.written ++ marked '?' u.query ++ marked '#' u.fragment

instance : ToString Url := ⟨fun u => String.ofList u.text⟩

end Url

end OneApi
