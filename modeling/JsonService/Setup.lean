import JsonService.Config
import JsonService.Http.Method
import JsonService.Route.Pattern

/-!
# Failures of the setup

Why a server does not come to serve.
-/
namespace JsonService

/-- Why a server does not come to serve. Models `ServerError`. -/
inductive SetupFailure where
  /-- Another process listens at the address. -/
  | addressInUse
  /-- The host of the address is not this machine. -/
  | addressElsewhere
  | route (method : Method) (path : String) (fault : Route.Fault)
  | config (fault : Config.Fault)
  /-- The process has a log output already. -/
  | logging

def SetupFailure.message : SetupFailure → String
  | .addressInUse => "io: Address already in use (os error 98)"
  | .addressElsewhere => "io: Cannot assign requested address (os error 99)"
  | .route method path fault => s!"invalid route `{method.name} {path}`: {fault.message}"
  | .config fault => s!"config: {fault.message}"
  | .logging => "logging: a global default trace dispatcher has already been set"

end JsonService
