import SpecAtlas.Text.Quotes
import SpecAtlas.Workspace

/-!
The operations of a workspace as a web service. A request names an operation by its path and carries
its argument as JSON; the answer is the JSON of the result, or of a message with a status that tells
what went wrong.
-/

namespace SpecAtlas.Service

open Json

structure Request where
  method : String
  path : String
  contentType : Option String := none
  body : String := ""
deriving Repr

structure Response where
  status : Nat
  body : Option String := none
deriving DecidableEq, Repr

inductive Route where
  | health
  | styles
  | scan
  | testAt
  | index
  | indexInfo
deriving DecidableEq, Repr

namespace Route

def all : List Route := [.health, .styles, .scan, .testAt, .index, .indexInfo]

def path : Route → String
  | .health => "/v1/health"
  | .styles => "/v1/styles"
  | .scan => "/v1/scan"
  | .testAt => "/v1/test-at"
  | .index => "/v1/index"
  | .indexInfo => "/v1/index/info"

def isQuery : Route → Bool
  | .health | .styles => true
  | .scan | .testAt | .index | .indexInfo => false

def ofPath? (path : String) : Option Route := all.find? (·.path == path)

@[simp] theorem ofPath?_path (r : Route) : ofPath? r.path = some r := by
  cases r <;> decide

def allows (r : Route) (method : String) : Bool :=
  if r.isQuery then method == "GET" || method == "HEAD" else method == "POST"

end Route

def isJsonType (contentType : String) : Bool :=
  let essence := Text.lowerAscii (Text.trim (String.ofList
    (contentType.toList.takeWhile (· != ';'))))
  match Path.pieces essence.toList with
  | [kind, sub] =>
    kind == "application".toList
      && (sub == "json".toList || "+json".toList.isSuffixOf sub)
  | _ => false

def Response.ofValue (v : Value) : Response := { status := 200, body := some v.render }

def statusOf : Failure → Nat
  | .indexMissing _ => 404
  | _ => 400

def Response.ofFailure (e : Failure) : Response where
  status := statusOf e
  body := some (Value.object [("error", .string e.chain)]).render

def Response.ofResult {α : Type} (encode : α → Value) : Except Failure α → Response
  | .ok a => .ofValue (encode a)
  | .error e => .ofFailure e

def maxBody : Nat := 2 * 1024 * 1024

def argument {α : Type} (d : Decoder α) (r : Request) : Except Response α :=
  if !(r.contentType.map isJsonType).getD false then .error { status := 415 }
  else if maxBody < r.body.utf8ByteSize then .error { status := 413 }
  else
    match Json.parse? r.body with
    | none => .error { status := 400 }
    | some v =>
      match d Json.maxDepth v with
      | none => .error { status := 422 }
      | some a => .ok a

def answer {α β : Type} (w : Workspace) (r : Request) (d : Decoder α) (encode : β → Value)
    (operation : α → Workspace × Except Failure β) : Workspace × Response :=
  match argument d r with
  | .error response => (w, response)
  | .ok a =>
    let (w, result) := operation a
    (w, .ofResult encode result)

def serve (w : Workspace) (r : Request) : Route → Workspace × Response
  | .health => (w, .ofValue (.object [("status", .string "ok")]))
  | .styles => (w, .ofValue (.array (StyleInfo.all.map StyleInfo.toJson)))
  | .scan => answer w r ScanConfig.decoder ScanResult.toJson w.scan
  | .testAt => answer w r TestAtRequest.decoder TestAtResult.toJson fun a => (w, w.testAt a)
  | .index => answer w r IndexConfig.decoder IndexSummary.toJson w.buildIndex
  | .indexInfo => answer w r IndexConfig.decoder IndexSummary.toJson w.describeIndex

def handle (w : Workspace) (r : Request) : Workspace × Response :=
  match Route.ofPath? r.path with
  | none => (w, { status := 404 })
  | some route => if route.allows r.method then serve w r route else (w, { status := 405 })

end SpecAtlas.Service
