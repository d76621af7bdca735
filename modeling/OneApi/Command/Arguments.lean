import OneApi.Command.Switch

/-! Reading the command line. A value is looked at only when the next switch that is known, the id
or the end of the line is reached, so an unknown word in between is reported first. What follows
the verb is read to its end before the values in front of it are looked at. -/

namespace OneApi.Command

/-- What one side of the verb has given so far. -/
structure Given where
  values : List (Switch × String) := []
  /-- The last switch that takes a value, and the value if it has come. -/
  waiting : Option (Switch × Option String) := none
  id : Option String := none
  /-- Whether all further words are ids. -/
  closed : Bool := false

namespace Given

def has (g : Given) (s : Switch) : Bool := (g.values.lookup s).isSome

def value? (g : Given) (s : Switch) : Option String := g.values.lookup s

/-- Takes a switch with its value, once. -/
def take (g : Given) (s : Switch) (value : String) : Except UsageFault Given :=
  if g.has s then .error .givenTwice
  else (s.check value).map fun _ => { g with values := (s, value) :: g.values }

/-- Takes the switch that was waiting for its value. -/
def settle (g : Given) : Except UsageFault Given :=
  match g.waiting with
  | none => .ok g
  | some (_, none) => .error .impossibleValue
  | some (s, some value) => { g with waiting := none }.take s value

def awaitsValue (g : Given) : Bool :=
  match g.waiting with
  | some (_, none) => true
  | _ => false

/-- A switch without a value. -/
def flag (g : Given) (s : Switch) : Except UsageFault Given := do
  let g ← g.settle
  match s with
  | .help => throw .helpWanted
  | .version => throw .versionWanted
  | _ => g.take s ""

/-- A switch that takes a value, which may be attached to it. -/
def option (g : Given) (s : Switch) (attached : Option String) : Except UsageFault Given := do
  let g ← g.settle
  match attached with
  | some value => g.take s value
  | none => return { g with waiting := some (s, none) }

/-- A word that begins with two hyphens, without them. -/
def long (level : Level) (g : Given) (word : List Char) : Except UsageFault Given :=
  let (name, rest) := word.span (· != '=')
  match Switch.ofLong? level (String.ofList name) with
  | none => .error .unknownArgument
  | some s =>
    if s.takesValue then
      g.option s (if rest.isEmpty then none else some (String.ofList (rest.drop 1)))
    else if rest.isEmpty then g.flag s
    else .error .needlessValue

/-- Letters after a single hyphen; the first that takes a value takes what follows it. -/
def short (level : Level) (g : Given) : List Char → Except UsageFault Given
  | [] => .ok g
  | c :: rest =>
    match Switch.ofShort? level c with
    | none => .error .unknownArgument
    | some s =>
      if s.takesValue then
        match rest with
        | [] => g.option s none
        | '=' :: value => g.option s (some (String.ofList value))
        | value => g.option s (some (String.ofList value))
      else do short level (← g.flag s) rest

/-- A word that is no switch. -/
def word (level : Level) (g : Given) (w : String) : Except UsageFault Given :=
  match g.waiting with
  | some (s, none) =>
    if g.closed then plain else .ok { g with waiting := some (s, some w) }
  | _ => plain
where
  plain : Except UsageFault Given :=
    match level with
    | none =>
      if g.closed && (w = "help" || (Verb.ofName? w).isSome) then .error .unknownArgument
      else .error .unknownVerb
    | some v =>
      if v.takesId && g.id.isNone then g.settle.map fun g => { g with id := some w }
      else .error .unknownArgument

def argument (level : Level) (g : Given) (w : String) : Except UsageFault Given :=
  if g.closed then g.word level w
  else
    match w.toList with
    | ['-', '-'] => .ok { g with closed := true }
    | '-' :: '-' :: rest => g.long level rest
    | '-' :: c :: rest => g.short level (c :: rest)
    | _ => g.word level w

end Given

/-- Reads what follows a verb. -/
def readAfter (v : Verb) (g : Given) (words : List String) : Except UsageFault Given := do
  let g ← (← words.foldlM (Given.argument (some v)) g).settle
  if v.takesId && g.id.isNone then throw .missingId
  return g

/-- Help is there for the program and for each verb. -/
def helpOn : List String → UsageFault
  | [] => .helpWanted
  | [w] => if w = "help" || (Verb.ofName? w).isSome then .helpWanted else .unknownVerb
  | _ => .unknownVerb

/-- Reads a command line: what stands before the verb, the verb, and what follows it. -/
def readLine (g : Given) : List String → Except UsageFault (Given × Verb × Given)
  | [] => do
    let g ← g.settle
    throw (if g.values.isEmpty then .nothingGiven else .missingVerb)
  | w :: rest =>
    if g.closed || g.awaitsValue then do readLine (← g.argument none w) rest
    else if w = "help" then .error (helpOn rest)
    else
      match Verb.ofName? w with
      | some v => do
        let after ← readAfter v {} rest
        return (← g.settle, v, after)
      | none => do readLine (← g.argument none w) rest

/-- What the program is asked to do. -/
inductive Task where
  | movies (sort : Option SortKey) (limit page : Option UInt32) (all : Bool)
  | movie (id : String) (withQuotes : Bool)
  | quotes (dialog movie : Option String) (limit : Option UInt32) (all : Bool)
  | quote (id : String)
  deriving DecidableEq

structure Invocation where
  config : Option String
  apiKey : Option String
  baseUrl : Option String
  format : Format
  verbose : Bool
  task : Task
  deriving DecidableEq

def Given.number? (g : Given) (s : Switch) : Option UInt32 :=
  (g.value? s).bind fun v => readNumber v.toList

def Given.sortKey? (g : Given) : Option SortKey :=
  (g.value? .sort).bind fun v => (SortKey.read v).toOption

def Given.task (g : Given) : Verb → Task
  | .movies => .movies g.sortKey? (g.number? .limit) (g.number? .page) (g.has .all)
  | .movie => .movie (g.id.getD "") (g.has .withQuotes)
  | .quotes => .quotes (g.value? .dialog) (g.value? .movie) (g.number? .limit) (g.has .all)
  | .quote => .quote (g.id.getD "")

/-- What is said after the verb goes before what is said in front of it. -/
def Invocation.of (before : Given) (v : Verb) (after : Given) : Invocation :=
  let value? (s : Switch) : Option String := after.value? s <|> before.value? s
  { config := value? .config, apiKey := value? .apiKey, baseUrl := value? .baseUrl
    format := ((value? .format).bind Format.ofName?).getD .lines
    verbose := after.has .verbose || before.has .verbose
    task := after.task v }

def Invocation.read (words : List String) : Except UsageFault Invocation := do
  let (before, v, after) ← readLine {} words
  return .of before v after

end OneApi.Command
