import OneApi.Settings
import OneApi.Yaml.Record

/-! Settings as they stand in files. Every field may be missing, and a text without a document has
all defaults. -/

namespace OneApi

open Yaml

def BackoffSettings.ofNode (d : Tree) (v : Node) : Option BackoffSettings := do
  let fields ← d.fields? keys v
  let s : BackoffSettings := {}
  return { growth := ← Tree.field fields "type" s.growth fun v =>
             (d.name? v).bind Growth.ofName?
           initialMs := ← Tree.field fields "initial_ms" s.initialMs d.count64?
           maxMs := ← Tree.field fields "max_ms" s.maxMs d.count64? }

namespace Settings

def ofNode (d : Tree) (v : Node) : Option Settings := do
  let fields ← d.fields? keys v
  let s : Settings := {}
  return { apiKey := ← Tree.field fields "api_key" s.apiKey d.optionalText?
           baseUrl := ← Tree.field fields "base_url" s.baseUrl d.text?
           timeoutSeconds := ← Tree.field fields "timeout_seconds" s.timeoutSeconds d.count64?
           maxRetries := ← Tree.field fields "max_retries" s.maxRetries d.count32?
           backoff := ← Tree.field fields "retry_backoff" s.backoff
             (BackoffSettings.ofNode d) }

def ofDocument (d : Tree) : Option Settings :=
  match d.root with
  | none => some {}
  | some v => ofNode d v

def ofText (text : String) : Except Error Settings :=
  match (Tree.parse text.toList).bind ofDocument with
  | some s => .ok s
  | none => .error .settingsSyntax

/-- The content of a file must be UTF-8. -/
def ofFile (content : ByteArray) : Except Error Settings :=
  match String.fromUTF8? content with
  | some text => ofText text
  | none => .error .io

end Settings

end OneApi
