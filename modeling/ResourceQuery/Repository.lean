import ResourceQuery.Failure
import ResourceQuery.Log
import ResourceQuery.ErrorTree.Payload
import ResourceQuery.Query.Rendering
import ResourceQuery.QueryString

/-!
# Repositories

A repository gives access to the records of one resource. Each call becomes one request, and the
reply to it settles the call. Reads carry the parameters of a query, which are rendered before the
request is sent; writes carry a body, and the validation errors of a refused write come back as a
tree.
-/

set_option autoImplicit false

namespace ResourceQuery

/-! ## Requests and replies -/

/-- How a request is sent. -/
inductive Method
  | get
  | post
  | put
  deriving DecidableEq, Repr

def Method.name : Method → String
  | .get => "GET"
  | .post => "POST"
  | .put => "PUT"

/-- What a request is for. -/
inductive Action
  | index
  | single
  | store
  | update
  deriving DecidableEq, Repr

namespace Action

def name : Action → String
  | .index => "index"
  | .single => "show"
  | .store => "store"
  | .update => "update"

/-- How requests for an action are sent. -/
def method : Action → Method
  | .index => .get
  | .single => .get
  | .store => .post
  | .update => .put

/-- An action that changes records. -/
def isWrite : Action → Bool
  | .index => false
  | .single => false
  | .store => true
  | .update => true

end Action

structure Request where
  resource : String
  action : Action
  /-- The record, if the request is about one. -/
  id : Option UInt64
  params : Params
  body : Option Json

/-- The query string of a request. -/
def Request.queryString (request : Request) : String := QueryString.ofParams request.params

structure Response where
  status : UInt16
  data : Json

/-- What comes back for a request. -/
inductive Reply
  | granted (response : Response)
  | refused (status : UInt16) (payload : Json)
  /-- Nothing came back, for some reason. -/
  | unreachable (text : String)
  deriving Inhabited

/-! ## Calls -/

/-- A call to a repository. -/
inductive Call
  | index (query : QueryBuilder)
  | single (id : UInt64) (query : QueryBuilder)
  | store (data : Json)
  | update (id : UInt64) (data : Json)

namespace Call

/-- Reads the records that match the query that is composed from an empty one. -/
def indexWith (compose : QueryBuilder → QueryBuilder) : Call := .index (compose .empty)

/-- Reads one record with the query that is composed from an empty one. -/
def singleWith (id : UInt64) (compose : QueryBuilder → QueryBuilder) : Call :=
  .single id (compose .empty)

def action : Call → Action
  | .index _ => .index
  | .single _ _ => .single
  | .store _ => .store
  | .update _ _ => .update

def id? : Call → Option UInt64
  | .index _ => none
  | .single id _ => some id
  | .store _ => none
  | .update id _ => some id

def query? : Call → Option QueryBuilder
  | .index query => some query
  | .single _ query => some query
  | _ => none

def data? : Call → Option Json
  | .store data => some data
  | .update _ data => some data
  | _ => none

end Call

/-- Access to one resource, with the names that its parameters have. -/
structure Repository where
  resource : String
  names : Names

/-- One call with all that came of it. -/
structure Exchange where
  /-- The request that was sent, if there was one. -/
  request : Option Request
  result : Except Failure Response
  events : List Event

namespace Repository

/-- The request for a call, with the given parameters. -/
def requestWith (repository : Repository) (call : Call) (params : Params) : Request where
  resource := repository.resource
  action := call.action
  id := call.id?
  params := params
  body := call.data?

/-- The parameters for a call, rendered. Writes have none. -/
def renderParams (repository : Repository) (call : Call) : Encoded Params :=
  match call.query? with
  | some query => query.build.renderParams repository.names
  | none => .ok []

/-- The request that a call becomes, or why its parameters cannot be rendered. -/
def prepare (repository : Repository) (call : Call) : Encoded Request :=
  repository.requestWith call <$> repository.renderParams call

/-! ## Settling a request -/

/-- The name of a request in events. -/
def title (request : Request) : String := request.resource ++ "." ++ request.action.name

/-- A record in events. -/
def idText : Option UInt64 → String
  | none => "None"
  | some id => "Some(" ++ toString id.toNat ++ ")"

def sending (request : Request) : Event :=
  ⟨.debug, request.action.method.name ++ " " ++ title request ++ " " ++ idText request.id⟩

def unanswered (request : Request) (text : String) : Event :=
  ⟨.debug, title request ++ " failed: " ++ text⟩

/-- The errors of a refused write are left as they came. -/
def leftUnexpanded (request : Request) (failure : Failure) : Event :=
  ⟨.warn, "Leaving errors of " ++ title request ++ " unexpanded: " ++ failure.message⟩

/-- The payload of a refused request as the caller gets it. -/
def refusedPayload (request : Request) (payload : Json) : Json :=
  if request.action.isWrite then (ErrorTree.expandPayload payload).payload else payload

/-- What is told about the payload of a refused request. -/
def refusalEvents (request : Request) (payload : Json) : List Event :=
  if request.action.isWrite then
    let expanded := ErrorTree.expandPayload payload
    expanded.warnings.map (·.event) ++
      match expanded.result with
      | .ok _ => []
      | .error error => [leftUnexpanded request (.ofExpansion error)]
  else []

/-- The result of a request, by its reply. -/
def resultOf (request : Request) : Reply → Except Failure Response
  | .granted response => .ok response
  | .refused status payload => .error (.response status (refusedPayload request payload))
  | .unreachable text => .error (.transport text)

/-- What is told about a reply. -/
def replyEvents (request : Request) : Reply → List Event
  | .granted _ => []
  | .refused _ payload => refusalEvents request payload
  | .unreachable text => [unanswered request text]

/-- The warnings about the query of a call. -/
def queryEvents (call : Call) : List Event :=
  (call.query?.map fun query => query.warnings.map (·.event)).getD []

/-- What is told before a request is sent: the warnings about the query, and the request. -/
def requestEvents (request : Request) (call : Call) : List Event :=
  queryEvents call ++ [sending request]

/-- A call whose request has been answered. -/
def settled (request : Request) (call : Call) (reply : Reply) : Exchange :=
  ⟨some request, resultOf request reply, requestEvents request call ++ replyEvents request reply⟩

/-- A call that has no request, because its parameters could not be rendered. -/
def unsent (call : Call) (error : EncodeError) : Exchange :=
  ⟨none, .error (.decoding (.notEncoded error)), queryEvents call⟩

/-- Makes a call, where `send` sends a request and waits for the reply. -/
def perform {m : Type → Type} [Monad m] (send : Request → m Reply) (repository : Repository)
    (call : Call) : m Exchange :=
  match repository.prepare call with
  | .ok request => do
    let reply ← send request
    return settled request call reply
  | .error error => return unsent call error

def performAll {m : Type → Type} [Monad m] (send : Request → m Reply) (repository : Repository) :
    List Call → m (List Exchange)
  | [] => return []
  | call :: rest => do
    let exchange ← perform send repository call
    let exchanges ← performAll send repository rest
    return exchange :: exchanges

end Repository

end ResourceQuery
