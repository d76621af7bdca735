import OneApi.Options
import OneApi.Transport
import OneApi.Url.Endpoint
import OneApi.Url.Parser

/-! What every request of a client shares: the base address, the credential and the transport. A
base address must have a path that others can be joined to. -/

namespace OneApi

structure Connection (σ : Type) where
  base : Url
  key : String
  transport : Transport σ

namespace Connection

variable {σ : Type}

/-- Reads the base address. -/
def connect [Url.DomainNames] (baseUrl key : String) (transport : Transport σ) : Except Error (Connection σ) :=
  match Url.parse baseUrl.toList with
  | .error fault => .error (.invalidUrl fault)
  | .ok base =>
    match base.path with
    | .rootless _ => .error (.config (.opaqueBase (toString base)))
    | .hierarchical _ _ => .ok ⟨base, key, transport⟩

/-- The address of a collection, or of something below it when segments are given. -/
def address (c : Connection σ) (path : String) (segments : List String) (options : Options) : Url :=
  c.base.endpoint path.toList (segments.map String.toList) options.query

end Connection

end OneApi
