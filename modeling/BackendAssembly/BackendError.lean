namespace BackendAssembly

inductive Stage where
  | start
  | capabilitiesTranslated
  | targetBuilt
  | registerConfigBuilt
  | providersConstructed
  | bundleAssembled
  | aborted
  deriving DecidableEq, Repr

namespace Stage

def all : List Stage :=
  [start, capabilitiesTranslated, targetBuilt, registerConfigBuilt, providersConstructed, bundleAssembled, aborted]

def name : Stage → String
  | start => "Start"
  | capabilitiesTranslated => "CapabilitiesTranslated"
  | targetBuilt => "TargetBuilt"
  | registerConfigBuilt => "RegisterConfigBuilt"
  | providersConstructed => "ProvidersConstructed"
  | bundleAssembled => "BundleAssembled"
  | aborted => "Aborted"

def ofName? (name : String) : Option Stage :=
  all.find? fun s => s.name == name

end Stage

inductive Component where
  | registerConfig
  | metaAccess
  | codeCache
  | constantReflection
  | stackIntrospection
  deriving DecidableEq, Repr

namespace Component

def all : List Component :=
  [registerConfig, metaAccess, codeCache, constantReflection, stackIntrospection]

def role : Component → String
  | registerConfig => "register-config"
  | metaAccess => "meta-access"
  | codeCache => "code-cache"
  | constantReflection => "constant-reflection"
  | stackIntrospection => "stack-introspection"

def ofRole? (role : String) : Option Component :=
  all.find? fun c => c.role == role

def text : Component → String
  | registerConfig => "register configuration"
  | metaAccess => "meta-access provider"
  | codeCache => "code cache provider"
  | constantReflection => "constant reflection provider"
  | stackIntrospection => "stack introspection provider"

end Component

inductive Refusal where
  | unsupported (what : String)
  | failed (text : String)
  deriving DecidableEq, Repr

def Refusal.message : Refusal → String
  | unsupported what => "runtime does not support " ++ what
  | failed text => text

/-- Why there is no backend. A failed construction names the last stage that was reached before it. -/
inductive BackendError where
  | construction (component : Component) (completed : Stage) (source : Refusal)
  | unknownArchitecture (name : String) (available : List String)
  | duplicateArchitecture (name : String)
  deriving DecidableEq, Repr

namespace BackendError

def message : BackendError → String
  | construction component completed source =>
    "failed to create " ++ component.text ++ " (after " ++ completed.name ++ "): " ++ source.message
  | unknownArchitecture name available =>
    "no backend factory for architecture '" ++ name ++ "' (available: " ++ ", ".intercalate available ++ ")"
  | duplicateArchitecture name => "a backend factory for '" ++ name ++ "' is already registered"

def chain (e : BackendError) : List String :=
  match e with
  | construction _ _ source => [e.message, source.message]
  | unknownArchitecture .. | duplicateArchitecture _ => [e.message]

end BackendError

end BackendAssembly
