import OneApi.Json.Basic
import OneApi.Json.Token

/-! Reading documents. The tokens are taken one by one; the arrays and objects around the current
place are kept on a stack, so no depth of nesting is too great. -/

namespace OneApi.Json

/-- An array or object that is still open, with what it holds so far, last first. -/
inductive Frame where
  | array (items : List Json)
  | object (members : List (Option String × Json)) (key : Option String)

inductive State where
  /-- A value comes next; right after an opening bracket the array may also end. -/
  | value (first : Bool) (stack : List Frame)
  /-- A key comes next; right after an opening brace the object may also end. -/
  | key (first : Bool) (members : List (Option String × Json)) (stack : List Frame)
  | colon (members : List (Option String × Json)) (key : Option String) (stack : List Frame)
  /-- A value is complete. -/
  | done (value : Json) (stack : List Frame)

namespace State

def start : State := .value false []

def begin (first : Bool) (stack : List Frame) : Token → Option State
  | .null => some (.done .null stack)
  | .bool b => some (.done (.bool b) stack)
  | .number n => some (.done (.number n) stack)
  | .string s => some (.done (.string s) stack)
  | .openArray => some (.value true (.array [] :: stack))
  | .openObject => some (.key true [] stack)
  | .closeArray =>
    match first, stack with
    | true, .array items :: rest => some (.done (.array items.reverse) rest)
    | _, _ => none
  | _ => none

/-- What may follow a complete value. -/
def proceed (v : Json) (stack : List Frame) (t : Token) : Option State :=
  match stack, t with
  | .array items :: rest, .comma => some (.value false (.array (v :: items) :: rest))
  | .array items :: rest, .closeArray => some (.done (.array (v :: items).reverse) rest)
  | .object members k :: rest, .comma => some (.key false ((k, v) :: members) rest)
  | .object members k :: rest, .closeObject =>
    some (.done (.object ((k, v) :: members).reverse) rest)
  | _, _ => none

def step (state : State) (t : Token) : Option State :=
  match state, t with
  | .value first stack, t => begin first stack t
  | .key _ members stack, .string k => some (.colon members k stack)
  | .key true members stack, .closeObject => some (.done (.object members.reverse) stack)
  | .key _ _ _, _ => none
  | .colon members k stack, .colon => some (.value false (.object members k :: stack))
  | .colon _ _ _, _ => none
  | .done v stack, t => proceed v stack t

def result? : State → Option Json
  | .done v [] => some v
  | _ => none

end State

def ofTokens (ts : List Token) : Option Json :=
  (ts.foldlM State.step State.start).bind State.result?

def parse (s : List Char) : Option Json := (tokens s).bind ofTokens

end OneApi.Json
