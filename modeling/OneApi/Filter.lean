import OneApi.Decimal.Layout
import OneApi.Error
import OneApi.Field
import OneApi.Text.Percent

/-! Filters and the query fragments they are written as. Values of equality tests are form-encoded,
so that no value can hold a separator; patterns and bounds are written as they are. -/

namespace OneApi

/-- The name of a field: not blank, and without spaces around it. -/
structure FieldName where
  chars : List Char
  stripped : Text.strip chars = chars
  nonempty : chars ≠ []
  deriving DecidableEq

inductive Operand where
  | int (value : Int)
  | real (value : Extended)
  | text (value : String)
  deriving DecidableEq

inductive Comparison where
  | less
  | greater
  | atMost
  | atLeast
  deriving DecidableEq

inductive Test where
  | among (values : List String)
  | notAmong (values : List String)
  | present
  | absent
  /-- A regular expression in the service's own syntax. -/
  | pattern (text : String)
  | compare (relation : Comparison) (bound : Operand)
  deriving DecidableEq

inductive Filter where
  /-- A fragment that is passed through unseen. -/
  | raw (fragment : String)
  | on (field : FieldName) (test : Test)
  deriving DecidableEq

namespace FieldName

def read (s : String) : Except Error FieldName :=
  if h : Text.strip s.toList = [] then .error (.invalidFilter .blankField)
  else .ok ⟨Text.strip s.toList, Text.strip_strip _, h⟩

def ofMovieField (f : MovieField) : FieldName :=
  ⟨f.key.toList, by cases f <;> decide, by cases f <;> decide⟩

def ofQuoteField (f : QuoteField) : FieldName :=
  ⟨f.key.toList, by cases f <;> decide, by cases f <;> decide⟩

end FieldName

namespace Operand

def written : Operand → List Char
  | int value => (toString value).toList
  | real value => value.text
  | text value => value.toList

end Operand

namespace Comparison

def symbol : Comparison → List Char
  | less => ['<']
  | greater => ['>']
  | atMost => ['<', '=']
  | atLeast => ['>', '=']

end Comparison

namespace Filter

def values (vs : List String) : List Char :=
  List.intercalate [','] (vs.map fun v => Text.formEncode v.toList)

def testFragment (field : List Char) : Test → List Char
  | .among vs => field ++ '=' :: values vs
  | .notAmong vs => field ++ '!' :: '=' :: values vs
  | .present => field
  | .absent => '!' :: field
  | .pattern text => field ++ '=' :: text.toList
  | .compare relation bound => field ++ relation.symbol ++ bound.written

def fragment : Filter → List Char
  | raw text => text.toList
  | on field test => testFragment field.chars test

def equals (field : FieldName) (value : String) : Filter := on field (.among [value])

def notEquals (field : FieldName) (value : String) : Filter := on field (.notAmong [value])

end Filter

end OneApi
