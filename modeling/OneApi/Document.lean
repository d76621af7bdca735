import OneApi.Direction
import OneApi.Envelope
import OneApi.Json.Parser
import OneApi.Json.Printer

/-! What is written as a document, and what is read from one as well. The items of a collection
are read; a movie with its quotes is only written. -/

namespace OneApi

class Written (α : Type) where
  toJson : α → Json

class Document (α : Type) extends Written α where
  ofJson : Json → Option α

def encode {α : Type} [Written α] (a : α) : String := (Written.toJson a).compact

def encodeIndented {α : Type} [Written α] (a : α) : String := (Written.toJson a).indented

def decode {α : Type} [Document α] (text : String) : Option α :=
  (Json.parse text.toList).bind Document.ofJson

instance : Document Direction :=
  { toJson := fun d => Json.ofText d.name, ofJson := fun v => (Json.name? v).bind Direction.ofName? }

instance : Document Movie := { toJson := Movie.toJson, ofJson := Movie.ofJson }

instance : Document Quote := { toJson := Quote.toJson, ofJson := Quote.ofJson }

instance {α : Type} [Written α] : Written (Page α) := ⟨Page.toJson Written.toJson⟩

instance {α : Type} [Document α] : Document (Page α) := { ofJson := Page.ofJson Document.ofJson }

instance : Written MovieWithQuotes := ⟨MovieWithQuotes.toJson⟩

end OneApi
