import OneApi.Direction
import OneApi.Text.Digits

/-! The words of the command line: verbs, and switches with a long name and some with a short one.
Switches of the program may stand before or after the verb, all others only after theirs. -/

namespace OneApi.Command

inductive Verb where
  | movies
  | movie
  | quotes
  | quote
  deriving DecidableEq

inductive Switch where
  | config
  | apiKey
  | baseUrl
  | format
  | verbose
  | help
  | version
  | limit
  | page
  | sort
  | all
  | withQuotes
  | dialog
  | movie
  deriving DecidableEq

/-- Where a switch may stand: before the verb, or after one. -/
abbrev Level := Option Verb

namespace Verb

def all : List Verb := [movies, movie, quotes, quote]

def name : Verb → String
  | movies => "movies"
  | movie => "movie"
  | quotes => "quotes"
  | quote => "quote"

def ofName? (s : String) : Option Verb := all.find? fun v => v.name = s

/-- Whether an id must follow. -/
def takesId : Verb → Bool
  | movie => true
  | quote => true
  | _ => false

def switches : Verb → List Switch
  | movies => [.limit, .page, .sort, .all]
  | movie => [.withQuotes]
  | quotes => [.dialog, .movie, .limit, .all]
  | quote => []

end Verb

namespace Switch

/-- What can be said on either side of the verb. -/
def ofProgram : List Switch := [config, apiKey, baseUrl, format, verbose, help]

def known : Level → List Switch
  | none => version :: ofProgram
  | some v => v.switches ++ ofProgram

def long : Switch → String
  | config => "config"
  | apiKey => "api-key"
  | baseUrl => "base-url"
  | format => "format"
  | verbose => "verbose"
  | help => "help"
  | version => "version"
  | limit => "limit"
  | page => "page"
  | sort => "sort"
  | all => "all"
  | withQuotes => "with-quotes"
  | dialog => "dialog"
  | movie => "movie"

def short? : Switch → Option Char
  | config => some 'C'
  | format => some 'f'
  | verbose => some 'v'
  | help => some 'h'
  | version => some 'V'
  | _ => none

def takesValue : Switch → Bool
  | verbose => false
  | help => false
  | version => false
  | all => false
  | withQuotes => false
  | _ => true

def ofLong? (level : Level) (name : String) : Option Switch :=
  (known level).find? fun s => s.long = name

def ofShort? (level : Level) (c : Char) : Option Switch :=
  (known level).find? fun s => s.short? = some c

end Switch

/-- Why a command line is not carried out. -/
inductive UsageFault where
  | helpWanted
  | versionWanted
  /-- Nothing at all was given. -/
  | nothingGiven
  | unknownVerb
  | missingVerb
  | missingId
  | unknownArgument
  /-- A value of the wrong form. -/
  | malformedValue
  /-- A value that is missing, or none of those that are possible. -/
  | impossibleValue
  | givenTwice
  /-- A value for a switch that takes none. -/
  | needlessValue
  deriving DecidableEq

inductive Format where
  | lines
  | indented
  deriving DecidableEq

namespace Format

def ofName? (s : String) : Option Format :=
  if s = "json" then some lines else if s = "pretty" then some indented else none

end Format

/-- A whole number of 32 bits with an optional sign. -/
def readNumber : List Char → Option UInt32
  | '-' :: s => if Text.readDigits s = some 0 then some 0 else none
  | s => Text.readCount32 s

def Switch.check : Switch → String → Except UsageFault Unit
  | .limit, s => if (readNumber s.toList).isSome then .ok () else .error .malformedValue
  | .page, s => if (readNumber s.toList).isSome then .ok () else .error .malformedValue
  | .sort, s =>
    match SortKey.read s with
    | .ok _ => .ok ()
    | .error _ => .error .malformedValue
  | .format, s => if (Format.ofName? s).isSome then .ok () else .error .impossibleValue
  | .config, s => if s.isEmpty then .error .impossibleValue else .ok ()
  | _, _ => .ok ()

end OneApi.Command
