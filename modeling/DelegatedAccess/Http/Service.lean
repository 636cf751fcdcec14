import DelegatedAccess.Http.Reply
import DelegatedAccess.Http.Route

/-!
# The service

An instance answers requests, each by itself. The first thing that is wrong with a request
decides how it is refused: the path, the method, what the body is said to hold, its length,
and then the body itself. A request that is refused changes nothing.
-/

namespace DelegatedAccess

namespace Http

/-- The number of bytes in the longest body that is read. -/
def longestBody : Nat :=
  2 * 1024 * 1024

/-- The status of a response to a body that is refused. -/
def StatusCode.ofRefusal : Json.Refusal → StatusCode
  | .malformed => badRequest
  | .unfit => unprocessableContent

/-- The demand that a request makes on a route, or the status of its refusal. -/
def Route.demandOfRequest (r : Route) (req : Request) : Except StatusCode Demand :=
  if r = .status then .ok .status
  else if ¬ req.IsJson then .error .unsupportedMediaType
  else if longestBody < req.body.utf8ByteSize then .error .contentTooLarge
  else (r.demandOf req.body).mapError .ofRefusal

/-- The demand that a request makes, or the status of its refusal. -/
def Request.demand (req : Request) : Except StatusCode Demand :=
  match Route.ofPath? req.path with
  | none => .error .notFound
  | some r =>
      if r.allows req.method then r.demandOfRequest req
      else .error .methodNotAllowed

/-- A response as it is sent: to a request for the head alone, without the body. -/
def Response.sentFor (m : Method) (r : Response) : Response :=
  if m = .head then { r with body := none } else r

end Http

namespace World

variable {η ω : Type}

/-- How oracles behave when there are none. -/
def oracleless : Behaviour Empty ω :=
  nofun

/-- Answers a request at a given time. Any path may be asked for its options. The cause is what the
storage says if it fails. -/
def respond (behave : Behaviour η ω) (now : UInt64) (cause : String) (req : Http.Request) :
    StateM (World η ω) Http.Response := do
  if req.method = .options then
    return .empty .ok
  match req.demand with
  | .error status => return .empty status
  | .ok demand =>
      let result ← (fulfil behave now demand).run
      return (Http.Response.ofResult cause result).sentFor req.method

end World

namespace Http

/-- Answers requests in turn, on an empty store and without oracles. -/
def serve (config : Config) (now : UInt64) (reqs : List Request) (cause : String := "") :
    Except AccessError (List Response) := do
  let i ← Instance.start config .empty
  let w : World Empty Unit := ⟨i, ()⟩
  return ((reqs.mapM (World.respond World.oracleless now cause)).run w).1

end Http

end DelegatedAccess
