import OneApi.Command.Message
import OneApi.Command.Recording

/-! The program. Answers to its requests come from standard input; results go to standard output
and all else to standard error. It knows plain domains alone. It ends with 2 for a command line that
cannot be read and with 1 for one that cannot be carried out. -/

namespace OneApi.Main

local instance : Url.DomainNames := .ascii

partial def readLines (input : IO.FS.Stream) (lines : List String) : IO (List String) := do
  let line ← input.getLine
  if line.isEmpty then return lines.reverse
  readLines input ((line.dropEndWhile (· == '\n')).toString :: lines)

def readFile? (path : String) : IO (Option ByteArray) := do
  try
    return some (← IO.FS.readBinFile path)
  catch _ => return none

def environment : IO (List (Variable × String)) := do
  let values ← Variable.all.mapM fun v => do return (← IO.getEnv v.name).map fun s => (v, s)
  return values.filterMap id

def carryOut (i : Command.Invocation) : IO UInt32 := do
  let content ← match i.config with
    | some path => readFile? path
    | none => pure none
  let given ← environment
  let script := Command.Recording.script (← readLines (← IO.getStdin) [])
  let ((text, failure), after) :=
    i.run (fun _ => content) (fun v => given.lookup v) Script.transport script
  if i.verbose then
    for request in after.requests do IO.eprintln s!"GET {request.url}"
  IO.print text
  match failure with
  | none => return 0
  | some f =>
    let message := f.message fun _ => "not the expected document"
    IO.eprintln s!"Error: {message}"
    return 1

end OneApi.Main

def main (words : List String) : IO UInt32 := do
  match OneApi.Command.Invocation.read words with
  | .ok i => OneApi.Main.carryOut i
  | .error f =>
    if f.isQuestion then
      IO.println f.message
      return 0
    else
      IO.eprintln f.message
      return 2
