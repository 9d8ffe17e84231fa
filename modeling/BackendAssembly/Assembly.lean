import BackendAssembly.Backend
import BackendAssembly.Report

namespace BackendAssembly

abbrev Assembly : Type → Type :=
  Attempt Session BackendError

/-- Tells code caches apart: by their numbers in the order in which they were made, or by the keys they are kept
under. -/
inductive CodeCacheId where
  | made (number : Nat)
  | kept (key : Nat)
  deriving DecidableEq, Repr

structure Assembled where
  backend : Backend
  codeCacheId : CodeCacheId

namespace Assembly

def write (e : Event) : Assembly Unit :=
  Attempt.change fun s => s.write e

def recorded {α : Type} (log : Nat) (name : String) (body : Assembly α) : Assembly α :=
  Session.timed name (some log) body

def advance (stage next : Stage) : Assembly Stage := do
  write (.advanced stage next)
  return next

def create {α : Type} (component : Component) (stage : Stage) (step : Step Refusal α) : Assembly α := fun s =>
  match Session.take step s with
  | (.returned a, s) => (.returned a, s)
  | (.failed e, s) => abort e s
  | (.panicked text, s) => (.panicked text, s)
where
  abort (e : Refusal) : Assembly α := do
    write (.refused component stage e)
    let _ ← advance stage .aborted
    Attempt.fail (.construction component stage e)

/-- Finds the target. Aliases count for features only; whether object pointers are compressed is told by the store
alone, and is told once more beside the target. -/
def findTarget (hooks : Hooks) (store : Store) (stage : Stage) : Assembly (Target × Bool × Stage) := do
  let aliases ← Session.takeSafe hooks.aliases
  let features := capabilities CpuFeature store aliases
  let flags := store.flags
  let stage ← advance stage .capabilitiesTranslated
  let compressedOops := store.isSet Target.useCompressedOops
  let target : Target := ⟨⟨features, flags⟩, compressedOops⟩
  let stage ← advance stage .targetBuilt
  return (target, compressedOops, stage)

/-- Tells which object a code cache is that a step returned. A new one is counted, but a bundle may return the one that it
was handed. -/
def identify (handed : Option CodeCacheId) (codeCache : CodeCache) : Assembly CodeCacheId :=
  match codeCache.provenance, handed with
  | .kept key, _ => return .kept key
  | .made, some (.made number) => return .made number
  | _, _ => Attempt.ask fun s => (.made s.made, { s with made := s.made + 1 })

structure Providers where
  metaAccess : Provider
  codeCache : CodeCache
  constantReflection : Provider
  stackIntrospection : Provider

def createProviders (hooks : Hooks) (host : Host) (target : Target) (compressedOops : Bool) (stage : Stage)
    (log : Nat) : Assembly (Providers × CodeCacheId × Stage) := do
  let registers ← recorded log "create RegisterConfig" <|
    create .registerConfig stage (hooks.registerConfig target compressedOops)
  let stage ← advance stage .registerConfigBuilt
  let metaAccess ← recorded log "create MetaAccess provider" <|
    create .metaAccess stage (hooks.metaAccess host)
  let codeCache ← recorded log "create CodeCache provider" <|
    create .codeCache stage (hooks.codeCache host target registers)
  let id ← identify none codeCache
  let constantReflection ← recorded log "create ConstantReflection provider" <|
    create .constantReflection stage (hooks.constantReflection host)
  let stackIntrospection ← recorded log "create StackIntrospection provider" <|
    create .stackIntrospection stage (hooks.stackIntrospection host)
  let stage ← advance stage .providersConstructed
  return (⟨metaAccess, codeCache, constantReflection, stackIntrospection⟩, id, stage)

def runSteps (hooks : Hooks) (host : Host) (log : Nat) : Assembly (Assembled × Duration) := do
  let start ← Attempt.ask Session.readClock
  let (target, compressedOops, stage) ← recorded log "compute target" (findTarget hooks host.store .start)
  let (p, handed, stage) ← recorded log "create providers" <|
    createProviders hooks host target compressedOops stage log
  let backend ← recorded log "instantiate backend" <|
    Session.takeSafe (hooks.bundle p.metaAccess p.codeCache p.constantReflection p.stackIntrospection)
  let id ← identify (some handed) backend.codeCache
  let _ ← advance stage .bundleAssembled
  let stop ← Attempt.ask Session.readClock
  let total := Duration.between start stop
  write (.assembled backend.target.arch.features.size backend.target.arch.flags.size total)
  return (⟨backend, id⟩, total)

/-- Assembles a backend and reports on it. The report is about the target that the backend tells, which need not be
the one that was asked for. -/
def assembleWithReport (hooks : Hooks) (host : Host) : Assembly (Assembled × Report) := do
  let log ← Attempt.ask Session.newLog
  let (assembled, total) ← runSteps hooks host log
  let entries ← Attempt.ask fun s => (s.entries log, s)
  return (assembled, .ofBackend assembled.backend.target assembled.backend entries total)

def assemble (hooks : Hooks) (host : Host) : Assembly Assembled := do
  let log ← Attempt.ask Session.newLog
  let (assembled, _) ← runSteps hooks host log
  return assembled

end Assembly

end BackendAssembly
