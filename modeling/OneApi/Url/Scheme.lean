/-! Schemes. Those of the web have a host and a default port, and treat a backslash as a slash;
files have an optional host and drive letters; all others are left as they are written. -/

namespace OneApi.Url

inductive Kind where
  | web (port : UInt16)
  | file
  | other
  deriving DecidableEq

namespace Kind

def ofScheme (s : List Char) : Kind :=
  match String.ofList s with
  | "http" | "ws" => web 80
  | "https" | "wss" => web 443
  | "ftp" => web 21
  | "file" => file
  | _ => other

/-- Whether backslashes are slashes and a path always has a segment. -/
def isSpecial : Kind → Bool
  | other => false
  | _ => true

def defaultPort? : Kind → Option UInt16
  | web p => some p
  | _ => none

/-- What ends a segment of a path. -/
def isSlash (k : Kind) (c : Char) : Bool := c == '/' || (k.isSpecial && c == '\\')

end Kind

end OneApi.Url
