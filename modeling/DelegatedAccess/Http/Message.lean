import DelegatedAccess.Http.MediaType
import DelegatedAccess.Json.Value

/-!
# Requests and responses

An HTTP request, with those of its parts that matter here, and the response to it.
-/

namespace DelegatedAccess.Http

/-- What is to be done with the target of a request. -/
inductive Method where
  | get
  | head
  | post
  | options
  /-- Any other method. -/
  | other
deriving DecidableEq, Repr

/-- The method of a name. Names are in upper case. -/
def Method.ofName : String → Method
  | "GET" => get
  | "HEAD" => head
  | "POST" => post
  | "OPTIONS" => options
  | _ => other

/-- A request. -/
structure Request where
  method : Method
  /-- The path, with a query or a fragment after it, and with a scheme and an authority before
  it if the target is absolute. -/
  target : String
  /-- What the body is said to hold. -/
  contentType : Option String
  body : String
deriving Repr

/-- Whether a character sets off a part of a target: the path, the query or the fragment. -/
def isSeparator (c : Char) : Bool :=
  c == '/' || c == '?' || c == '#'

/-- A target without the scheme and the authority before its path, if it has them. -/
def withoutAuthority (target : List Char) : List Char :=
  match target.dropWhile fun c => c ≠ ':' && !isSeparator c with
  | ':' :: '/' :: '/' :: rest => rest.dropWhile fun c => !isSeparator c
  | _ => target

/-- The path of a request, which is the root if the target has a scheme but no path. -/
def Request.path (req : Request) : String :=
  match (withoutAuthority req.target.toList).takeWhile fun c => c ≠ '?' && c ≠ '#' with
  | [] => "/"
  | cs => String.ofList cs

/-- Whether the body of a request is said to be JSON. -/
def Request.IsJson (req : Request) : Prop :=
  ∃ m ∈ req.contentType.bind MediaType.parse?, m.IsJson

instance (req : Request) : Decidable req.IsJson :=
  match h : req.contentType.bind MediaType.parse? with
  | none => isFalse (by simp [Request.IsJson, h])
  | some m => decidable_of_iff m.IsJson (by simp [Request.IsJson, h])

/-- How a request went. -/
inductive StatusCode where
  | ok
  | badRequest
  | forbidden
  | notFound
  | methodNotAllowed
  | conflict
  | contentTooLarge
  | unsupportedMediaType
  | unprocessableContent
  | internalServerError
deriving DecidableEq, Repr

/-- The number of a status. -/
def StatusCode.number : StatusCode → Nat
  | ok => 200
  | badRequest => 400
  | forbidden => 403
  | notFound => 404
  | methodNotAllowed => 405
  | conflict => 409
  | contentTooLarge => 413
  | unsupportedMediaType => 415
  | unprocessableContent => 422
  | internalServerError => 500

/-- A response. -/
structure Response where
  status : StatusCode
  body : Option Json.Value

/-- The text of the body of a response. -/
def Response.content (r : Response) : String :=
  (r.body.map Json.Value.render).getD ""

/-- A response without a body. -/
def Response.empty (status : StatusCode) : Response :=
  ⟨status, none⟩

end DelegatedAccess.Http
