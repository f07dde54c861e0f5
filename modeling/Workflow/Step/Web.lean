import Workflow.Json.Equality
import Workflow.Wire.Reading

set_option autoImplicit false

namespace Workflow.Web

open RecordReader (field)
open Readable

inductive Method where
  | get
  | post
  | put
  | patch
  | delete
  deriving DecidableEq, Repr

def Method.name : Method → String
  | .get => "GET"
  | .post => "POST"
  | .put => "PUT"
  | .patch => "PATCH"
  | .delete => "DELETE"

def Method.all : List Method := [.get, .post, .put, .patch, .delete]

def Method.read {α : Type} [Readable α] : α → Except Fault Method :=
  readVariant (all.map fun method => (method.name, method))

structure Request where
  action : Method
  url : String
  parameters : List Json := []
  headers : Option (Table String) := none
  minAttestations : UInt32 := 2
  deriving DecidableEq, Repr

namespace Request

def addParameter (request : Request) (parameter : Json) : Request :=
  { request with parameters := request.parameters ++ [parameter] }

/-- A later header of one name takes the place of the earlier one. -/
def addHeader (request : Request) (name value : String) : Request :=
  { request with headers := some ((request.headers.getD ∅).insert name value) }

def headersWire (headers : Table String) : Json :=
  .ofTable (headers.map fun _ value => .string value)

def wire (request : Request) : Json :=
  .object ([
    ("action", .string request.action.name),
    ("url", .string request.url),
    ("parameters", .array request.parameters)] ++
    (match request.headers with
      | some headers => [("headers", headersWire headers)]
      | none => []) ++
    [("minAttestations", .ofInt request.minAttestations.toNat)])

structure Draft where
  action : Option Method := none
  url : Option String := none
  parameters : List Json := []
  headers : Option (Table String) := none
  minAttestations : UInt32 := 2

def reader : RecordReader Json Draft Request where
  fields := [
    field "action" Method.read fun action draft => { draft with action := some action },
    field "url" readString fun url draft => { draft with url := some url },
    field "parameters" (readList readValue) fun parameters draft => { draft with parameters },
    field "headers" (readOption (readTable readString)) fun headers draft => { draft with headers },
    field "minAttestations" readUInt32 fun minAttestations draft => { draft with minAttestations }]
  blank := {}
  finish form draft := do
    let action ← form.require 0 "action" draft.action
    let url ← form.require 1 "url" draft.url
    return {
      action, url
      parameters := draft.parameters
      headers := draft.headers
      minAttestations := draft.minAttestations }

end Request

end Workflow.Web
