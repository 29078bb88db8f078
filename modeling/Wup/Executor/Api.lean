/-
The order routes of the executor's HTTP API (`api.rs`): `POST /order`,
which leaves the platform to the router unless the request names one, and
`POST /order/{platform}`.

A reply is a status code and a body. The orders the router hands to
executors stand beside it. The other routes submit nothing and are left
out.
-/
import Wup.Executor.Router

namespace Wup.Executor

/-- The status codes the order routes answer with. -/
inductive StatusCode
  | ok
  | badRequest
deriving DecidableEq, Repr

/-- API error response. -/
structure ErrorResponse where
  error : String
  code : String
deriving DecidableEq, Repr

/-- The body of a reply. -/
inductive Body
  | order (response : OrderResponse)
  | error (response : ErrorResponse)
deriving DecidableEq

/-- A reply, and the orders that reached an executor. -/
structure Reply where
  status : StatusCode
  body : Body
  calls : List (String × OrderRequest)
deriving DecidableEq

/-- Application state shared across handlers. -/
structure AppState where
  router : SmartRouter

/-- The reply to a submission: the `match` both handlers end in. -/
def Reply.ofSubmission (submission : Submission) : Reply :=
  match submission.result with
  | .ok response => ⟨.ok, .order response, submission.calls⟩
  | .error e =>
      ⟨.badRequest, .error ⟨e.text, "ORDER_FAILED"⟩, submission.calls⟩

/-- Smart order routing: `POST /order`. -/
def smartOrderHandler (state : AppState) (req : OrderRequest) : Reply :=
  if req.side = .buy ∧ 5 < (req.amount.getD .zero).val then
    ⟨.badRequest,
      .error ⟨"Amount must be less than 5", "INVALID_AMOUNT"⟩, []⟩
  else .ofSubmission (state.router.submitOrder req)

/-- Direct platform order: `POST /order/{platform}`. -/
def directOrderHandler (state : AppState) (platform : String)
    (req : OrderRequest) : Reply :=
  .ofSubmission
    (state.router.submitOrder { req with platform := some platform })

/-- The routes that take an order. -/
inductive OrderRoute
  /-- `/order` -/
  | order
  /-- `/order/{platform}` -/
  | orderPlatform (platform : String)
deriving DecidableEq, Repr

/-- An order posted to a route. -/
def AppState.post (state : AppState) (req : OrderRequest) :
    OrderRoute → Reply
  | .order => smartOrderHandler state req
  | .orderPlatform platform => directOrderHandler state platform req

end Wup.Executor
