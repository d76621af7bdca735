import OneApi.Text.Blank
import OneApi.Url.Basic

/-! Addresses of requests. A collection path is joined to the path of a base address, the query
and the fragment of the base are dropped, and segments such as ids are appended, each encoded so
that it stays one segment. Scheme and authority are those of the base. -/

namespace OneApi.Url

/-- The path of the base without final slashes, one slash, and the given path. -/
def joinedPath (base : List Segment) (path : List Char) : List Char :=
  Text.dropEnd (· == '/') (Path.text base) ++ '/' :: path.dropWhile (· == '/')

def withPath (u : Url) (path : List Char) : Url :=
  match u.path with
  | .hierarchical guarded base =>
    let segments := Path.segments u.kind (dropTabs (joinedPath base path))
    { u with path := .hierarchical guarded (Path.finishSpelled u.kind segments) }
  | .rootless _ => u

/-- Puts a query text in the place of query and fragment; an empty text is no query. -/
def withQuery (u : Url) (query : List Char) : Url :=
  let marks := if u.kind.isSpecial then '\'' :: queryMarks else queryMarks
  { u with
    query := if query.isEmpty then none else some (encode marks (dropTabs query))
    fragment := none }

/-- Nothing can be appended to a path that has no segments to begin with. -/
def appendSegments? (u : Url) (segments : List (List Char)) : Option Url :=
  match u.path with
  | .hierarchical guarded base =>
    some { u with path := .hierarchical guarded (Path.append u.kind base segments) }
  | .rootless _ => none

def endpoint (base : Url) (path : List Char) (segments : List (List Char))
    (query : List Char) : Url :=
  let u := (base.withPath path).withQuery query
  (u.appendSegments? segments).getD u

end OneApi.Url
