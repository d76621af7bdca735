import OneApi.Command.Execution

/-! What the program says about itself and about its failures. The help lists every verb with the
switches that belong to it. -/

namespace OneApi.Command

namespace Switch

def synopsis (s : Switch) : String :=
  (match s.short? with
    | some c => s!"-{c}, --{s.long}"
    | none => s!"--{s.long}") ++
  if s.takesValue then " <VALUE>" else ""

end Switch

namespace Verb

def synopsis (v : Verb) : String := if v.takesId then v.name ++ " <ID>" else v.name

def help (v : Verb) : List String :=
  ("  " ++ v.synopsis) :: v.switches.map fun s => "      " ++ s.synopsis

end Verb

/-- The lines of the help. -/
def help : List String :=
  "Usage: lotr [OPTIONS] <COMMAND>" :: "Commands:" :: Verb.all.flatMap Verb.help ++
    "Options:" :: (Switch.known none).map fun s => "  " ++ s.synopsis

namespace UsageFault

/-- Whether the program was only asked about itself. -/
def isQuestion : UsageFault → Bool
  | helpWanted => true
  | versionWanted => true
  | _ => false

def message : UsageFault → String
  | helpWanted => "\n".intercalate help
  | versionWanted => s!"lotr {Service.version}"
  | nothingGiven => "\n".intercalate help
  | unknownVerb => "error: unrecognized subcommand"
  | missingVerb => "error: a subcommand is required"
  | missingId => "error: an id is required"
  | unknownArgument => "error: unexpected argument"
  | malformedValue => "error: a value is malformed"
  | impossibleValue => "error: a value is missing or not possible"
  | givenTwice => "error: an argument cannot be used twice"
  | needlessValue => "error: an argument takes no value"

end UsageFault

def Failure.message (complaint : String → String) (f : Failure) : String :=
  ": ".intercalate (f.circumstance.message :: (f.cause.message? complaint).toList)

end OneApi.Command
