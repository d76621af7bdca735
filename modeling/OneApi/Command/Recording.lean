import OneApi.Text.Digits
import OneApi.Transport

/-! Recorded answers, which stand in for the network. Each is a line of its own that holds the
status, a space and the body. -/

namespace OneApi.Command.Recording

def ofLine (line : String) : Option Response :=
  let (status, body) := line.toList.span (· != ' ')
  (Text.readDigits status).map fun n => { status := n, body := String.ofList (body.drop 1) }

def script (lines : List String) : Script :=
  { answers := lines.filterMap fun l => (ofLine l).map .ok }

end OneApi.Command.Recording
