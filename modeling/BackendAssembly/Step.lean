import BackendAssembly.Attempt
import BackendAssembly.BackendError

namespace BackendAssembly

inductive HookPoint where
  | aliases
  | create (component : Component)
  | bundle
  deriving DecidableEq, Repr

def HookPoint.name : HookPoint → String
  | aliases => "aliases"
  | create component => component.role
  | bundle => "bundle"

inductive Call where
  | hook (point : HookPoint)
  | host (component : Component)
  deriving DecidableEq, Repr

def Call.text : Call → String
  | hook point => "hook:" ++ point.name
  | host component => "runtime:" ++ component.role

/-- One step of a construction: the calls it reports, and how it ends. A step keeps nothing for later, so it goes the
same way each time. -/
structure Step (ε α : Type) where
  calls : List Call
  exit : Exit ε α

namespace Step

variable {ε α : Type}

def done (a : α) : Step ε α :=
  ⟨[], .returned a⟩

def reporting (call : Call) (step : Step ε α) : Step ε α :=
  { step with calls := call :: step.calls }

end Step

end BackendAssembly
