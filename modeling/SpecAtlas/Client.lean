import SpecAtlas.Service

/-!
Asking a service to carry out an operation. How a request reaches the service is left open: a
transport delivers it, or fails to.
-/

namespace SpecAtlas

open Json Service

/-- Delivers a JSON text to an address, in a workspace that the service may share; there is no
answer if nothing is reached. -/
abbrev Transport := Workspace → (url body : String) → Workspace × Option Response

namespace Transport

def offline : Transport := fun w _ _ => (w, none)

def loopback (base : String) : Transport := fun w url body =>
  match Text.stripLead? base url with
  | none => (w, none)
  | some path =>
    let (w, response) := Service.handle w
      { method := "POST", path, contentType := some "application/json", body }
    (w, some response)

end Transport

namespace Client

def url (base : String) (route : Route) : String := Text.trimEndOf '/' base ++ route.path

def result {α : Type} (d : Decoder α) (url : String) : Option Response → Except Failure α
  | none => .error (.unsent url)
  | some response =>
    if 400 ≤ response.status then .error (.refused url)
    else
      match response.body.bind d.ofText with
      | some a => .ok a
      | none => .error .undecodedResponse

def post {α : Type} (send : Transport) (base : String) (route : Route) (argument : Value)
    (d : Decoder α) (w : Workspace) : Workspace × Except Failure α :=
  let (w, response) := send w (url base route) argument.render
  (w, result d (url base route) response)

def scan (send : Transport) (base : String) (config : ScanConfig) (w : Workspace) :
    Workspace × Except Failure ScanResult :=
  post send base .scan config.toJson ScanResult.decoder w

def testAt (send : Transport) (base : String) (request : TestAtRequest) (w : Workspace) :
    Workspace × Except Failure TestAtResult :=
  post send base .testAt request.toJson TestAtResult.decoder w

def buildIndex (send : Transport) (base : String) (config : IndexConfig) (w : Workspace) :
    Workspace × Except Failure IndexSummary :=
  post send base .index config.toJson IndexSummary.decoder w

def describeIndex (send : Transport) (base : String) (config : IndexConfig) (w : Workspace) :
    Workspace × Except Failure IndexSummary :=
  post send base .indexInfo config.toJson IndexSummary.decoder w

end Client

end SpecAtlas
