/-!
# Failures of the cluster's server
-/

namespace TrainingJobs

/-- Why a request to the server of the cluster failed. -/
inductive ApiError
  /-- The server answered with a status that is no success. -/
  | status (code : Nat)
  /-- The answer was not what the request asks for. -/
  | undecodable
  /-- There was no answer. -/
  | unreachable
deriving DecidableEq, Repr

namespace ApiError

/-- The status of a name that is taken, and of a write to an object that has changed since it was read. -/
def conflict : ApiError := .status 409

/-- The status of an object that is absent. -/
def absent : ApiError := .status 404

/-- What happened. -/
def reason : ApiError → String
  | .status code => "the server answered with status " ++ toString code
  | .undecodable => "the answer could not be read"
  | .unreachable => "the server could not be reached"

/-- What is said about a failed request. -/
def message (e : ApiError) : String := "Inherited an error when contacting the k8s API: " ++ e.reason

end ApiError

end TrainingJobs
