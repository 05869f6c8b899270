/-!
# Error records

The error records that the modelled functions return, with the codes of the
headers.
-/

namespace Fre

/-- `ConfigErrorCode`. -/
inductive ConfigErrorCode
  | requiredStageMissing
  | latencyBudgetExceeded
  | undefinedStageDependency
  | invalidShardingConfig
  | evaluatorLoadFailed
  | invalidWindowConfig
  | invalidPolicyRule
  | unknown
  deriving DecidableEq, Repr

/-- `ConfigError`. -/
structure ConfigError where
  code : ConfigErrorCode
  detail : String
  deriving DecidableEq, Repr

/-- `EvaluatorErrorCode`. -/
inductive EvaluatorErrorCode
  | timeout
  | internalError
  | invalidInput
  | notInitialized
  deriving DecidableEq, Repr

/-- `EvaluatorError`. -/
structure EvaluatorError where
  code : EvaluatorErrorCode
  evaluatorId : String
  detail : String
  deriving DecidableEq, Repr

/-- `StoreErrorCode`. -/
inductive StoreErrorCode
  | unavailable
  | timeout
  | casFailed
  | serializationError
  | queryRangeError
  deriving DecidableEq, Repr

/-- `StoreError`. -/
structure StoreError where
  code : StoreErrorCode
  detail : String
  deriving DecidableEq, Repr

/-- `RateLimitErrorCode`. -/
inductive RateLimitErrorCode
  | exhausted
  | concurrencyCapReached
  deriving DecidableEq, Repr

/-- `RateLimitError`. -/
structure RateLimitError where
  code : RateLimitErrorCode
  tenantId : String
  deriving DecidableEq, Repr

/-- `RateLimitError::message`. -/
def RateLimitError.message (error : RateLimitError) : String :=
  let codeStr :=
    match error.code with
    | .exhausted => "RateLimitExhausted"
    | .concurrencyCapReached => "ConcurrencyCapReached"
  if error.tenantId.isEmpty then codeStr
  else codeStr ++ "[" ++ error.tenantId ++ "]"

/-- `PipelineErrorCode`. -/
inductive PipelineErrorCode
  | notRunning
  | alreadyRunning
  | drainTimeout
  | submitRejected
  deriving DecidableEq, Repr

/-- `PipelineError`. -/
structure PipelineError where
  code : PipelineErrorCode
  detail : String
  deriving DecidableEq, Repr

/-- `PipelineError::message`. -/
def PipelineError.message (error : PipelineError) : String :=
  let codeStr :=
    match error.code with
    | .notRunning => "NotRunning"
    | .alreadyRunning => "AlreadyRunning"
    | .drainTimeout => "DrainTimeout"
    | .submitRejected => "SubmitRejected"
  if error.detail.isEmpty then codeStr else codeStr ++ ": " ++ error.detail

/-- `EmissionErrorCode`. -/
inductive EmissionErrorCode
  | targetUnavailable
  | timeout
  | bufferFull
  | serializationError
  deriving DecidableEq, Repr

/-- `EmissionError`. -/
structure EmissionError where
  code : EmissionErrorCode
  targetId : String
  detail : String
  deriving DecidableEq, Repr

/-- `SubmitSyncError`. -/
inductive SubmitSyncError
  | timeout
  | rateLimited
  | pipelineUnavailable
  | notStarted
  | validationFailed
  | cancelled
  deriving DecidableEq, Repr

end Fre
