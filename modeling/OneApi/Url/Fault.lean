/-! Why a text is no address. -/

namespace OneApi.Url

inductive Fault where
  | emptyHost
  | invalidPort
  | invalidIpv4
  | invalidIpv6
  /-- A host name with a character that no domain may hold. -/
  | invalidDomain
  /-- The same for schemes that do not know domains. -/
  | invalidHostCharacter
  | missingScheme
  deriving DecidableEq

namespace Fault

def message : Fault → String
  | emptyHost => "empty host"
  | invalidPort => "invalid port number"
  | invalidIpv4 => "invalid IPv4 address"
  | invalidIpv6 => "invalid IPv6 address"
  | invalidDomain => "invalid international domain name"
  | invalidHostCharacter => "invalid domain character"
  | missingScheme => "relative URL without a base"

end Fault

end OneApi.Url
