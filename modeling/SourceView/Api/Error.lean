import SourceView.Blame.Basic
import SourceView.Connection.Client
import SourceView.Pool.Basic

/-! Failures of requests, with the status that tells a browser what kind of failure it is. -/

namespace SourceView

/-- The kind of a failure. -/
inductive ApiStatus where
  | badRequest
  | notFound
  | internal
  | badGateway
  | unavailable
  | gatewayTimeout
  deriving DecidableEq, Repr

/-- The number of a kind of failure. -/
def ApiStatus.code : ApiStatus → Nat
  | badRequest => 400
  | notFound => 404
  | internal => 500
  | badGateway => 502
  | unavailable => 503
  | gatewayTimeout => 504

/-- The failure of a request. -/
structure ApiError where
  status : ApiStatus
  message : String
  deriving DecidableEq, Repr

namespace ApiError

/-- What is asked for is not in the history. -/
def ofBlame (cause : BlameError) : ApiError :=
  ⟨.notFound, cause.message⟩

/-- No client can be had. -/
def ofPool (cause : PoolError) : ApiError :=
  match cause with
  | .unknownBackend _ => ⟨.notFound, cause.message⟩
  | .closed => ⟨.unavailable, cause.message⟩

/-- A client has failed. A query that the backend refused is told in the backend's own words. -/
def ofClient (cause : ClientError) : ApiError :=
  match cause with
  | .rejected text => ⟨.badRequest, text⟩
  | .handshakeTimeout => ⟨.gatewayTimeout, cause.message⟩
  | _ => ⟨.badGateway, cause.message⟩

/-- A backend has not answered in time. -/
def timedOut (backend : String) : ApiError :=
  ⟨.gatewayTimeout, "backend " ++ backend ++ " did not answer in time"⟩

/-- Something that should have worked has failed. -/
def internal (context cause : String) : ApiError :=
  ⟨.internal, context ++ ": " ++ cause⟩

end ApiError

end SourceView
