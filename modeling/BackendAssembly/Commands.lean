import BackendAssembly.Registry
import BackendAssembly.StoreFile

namespace BackendAssembly

inductive CommandError where
  | loading (path : String) (cause : ConfigError)
  | selecting (cause : BackendError)
  | assembling (label : String) (cause : BackendError)
  deriving DecidableEq, Repr

namespace CommandError

def chain : CommandError → List String
  | loading path cause => ("loading config " ++ path) :: cause.chain
  | selecting cause => cause.chain
  | assembling label cause => ("assembling " ++ label) :: cause.chain

def message (e : CommandError) : String :=
  ": ".intercalate e.chain

end CommandError

/-- What a command does. Files are read by way of their paths. -/
abbrev CommandRun : Type → Type :=
  Attempt Session CommandError

namespace Commands

def ofExcept {ε α : Type} (wrap : ε → CommandError) : Except ε α → CommandRun α
  | .ok a => pure a
  | .error e => .fail (wrap e)

def loadHost (files : String → FileRead) (path : String) : CommandRun Host := do
  let store ← ofExcept (.loading path) (Store.load path (files path))
  Attempt.change fun s => s.write (.loaded store.size path)
  return .standalone store

def buildBackend (files : String → FileRead) (path arch : String) : CommandRun Backend := do
  let host ← loadHost files path
  let factory ← ofExcept .selecting (Registry.builtin.select arch)
  let assembled ← (factory.create host none).mapError (.assembling factory.label)
  return assembled.backend

def target (files : String → FileRead) (path arch : String) (json : Bool) : CommandRun String := do
  let backend ← buildBackend files path arch
  return if json then backend.target.pretty else backend.target.text

def assemble (files : String → FileRead) (path arch : String) : CommandRun String := do
  let host ← loadHost files path
  let factory ← ofExcept .selecting (Registry.builtin.select arch)
  let (_, report) ← (factory.createWithReport host).mapError (.assembling factory.label)
  .exit report.print

def sampleStore : Store :=
  .ofList
    [("LA64", .int 1), ("FP", .int 1), ("LSX", .int 1), ("LASX", .int 0), ("UAL", .int 1), ("useLSX", .bool true),
     ("useLASX", .bool false), ("useCompressedOops", .bool true)]

def template : String :=
  line "# Runtime constants read by `vmci target` and `vmci assemble`." ++
  line "# Capabilities: nonzero integer means present. Flags: booleans." ++
  sampleStore.render

def archs : String :=
  Registry.builtin.text

end Commands

end BackendAssembly
