import OneApi.Text.Blank

/-! Sort orders. A sort key is written as a field, or a field, a colon and a direction. The
direction is read first, so its error is the one reported when both parts are wrong. -/

namespace OneApi

inductive Direction where
  | ascending
  | descending
  deriving DecidableEq

instance : Inhabited Direction := ⟨.ascending⟩

namespace Direction

def name : Direction → String
  | ascending => "asc"
  | descending => "desc"

def ofName? (s : String) : Option Direction :=
  if s = "asc" then some ascending else if s = "desc" then some descending else none

theorem ofName?_name (d : Direction) : ofName? d.name = some d := by
  cases d <;> decide

end Direction

inductive SortFault where
  /-- The text, in lower case, that names no direction. -/
  | unknownDirection (text : String)
  | emptyField
  deriving DecidableEq

namespace SortFault

def message : SortFault → String
  | unknownDirection text => s!"unknown sort direction '{text}' (expected asc or desc)"
  | emptyField => "sort field must not be empty"

end SortFault

namespace Direction

def read (s : String) : Except SortFault Direction :=
  let lower := String.ofList (s.toList.map Char.toLower)
  match ofName? lower with
  | some d => .ok d
  | none => .error (.unknownDirection lower)

end Direction

structure SortKey where
  field : String
  direction : Direction
  deriving DecidableEq

namespace SortKey

def text (k : SortKey) : List Char := k.field.toList ++ ':' :: k.direction.name.toList

def withField (field : List Char) (d : Direction) : Except SortFault SortKey :=
  if Text.isBlank field then .error .emptyField
  else .ok ⟨String.ofList (Text.strip field), d⟩

def read (s : String) : Except SortFault SortKey :=
  match s.toList.span (· != ':') with
  | (field, []) => withField field .ascending
  | (field, _ :: d) => do withField field (← Direction.read (String.ofList d))

end SortKey

end OneApi
