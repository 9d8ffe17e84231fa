import BackendAssembly.Backend

namespace BackendAssembly

inductive Mishap where
  | refusal (e : Refusal)
  | panic (text : String)
  deriving DecidableEq, Repr

def Step.rehearsed {α : Type} (call : Call) (mishap : Option Mishap) (step : Step Refusal α) :
    Step Refusal α :=
  match mishap with
  | none => step.reporting call
  | some (.refusal e) => ⟨[call], .failed e⟩
  | some (.panic text) => ⟨[call], .panicked text⟩

structure RehearsedHost where
  store : Store
  mishap : Component → Option Mishap := fun _ => none
  name : Component → Option String := fun _ => none
  codeCacheTarget : Option Target := none

namespace RehearsedHost

def step {α : Type} (r : RehearsedHost) (component : Component) (step : Step Refusal α) :
    Step Refusal α :=
  step.rehearsed (.host component) (r.mishap component)

def provider (r : RehearsedHost) (component : Component) (usual : String) : Step Refusal Provider :=
  r.step component (.done ⟨(r.name component).getD usual⟩)

def toHost (r : RehearsedHost) : Host where
  store := r.store
  metaAccess := r.provider .metaAccess "host-meta-access"
  codeCache target registers :=
    r.step .codeCache <| .done
      { name := (r.name .codeCache).getD "host-code-cache"
        target := r.codeCacheTarget.getD target
        registers }
  constantReflection := r.provider .constantReflection "host-constant-reflection"
  stackIntrospection := r.provider .stackIntrospection "host-stack-introspection"

end RehearsedHost

structure RehearsedHooks where
  mishap : HookPoint → Option Mishap := fun _ => none
  aliases : Aliases := .none
  registers : Option (List Register) := none
  invertOops : Bool := false
  swapBundle : Bool := false

namespace RehearsedHooks

def step {α : Type} (h : RehearsedHooks) (component : Component) (step : Step Refusal α) :
    Step Refusal α :=
  step.rehearsed (.hook (.create component)) (h.mishap (.create component))

def registerConfig (h : RehearsedHooks) (target : Target) (compressedOops : Bool) : RegisterConventions :=
  match h.registers with
  | some registers => .only registers
  | none => LoongArch64Registers.toConventions ⟨target, h.invertOops ^^ compressedOops⟩

def bundledCodeCache (h : RehearsedHooks) (codeCache : CodeCache) : CodeCache :=
  if h.swapBundle then
    { name := "swapped", target := codeCache.target, registers := .only [], provenance := .bundled }
  else codeCache

/-- The aliases are always there. A bundle has no error to give, so there only a panic counts. -/
def toHooks (h : RehearsedHooks) : Hooks where
  aliases := (Step.done h.aliases).reporting (.hook .aliases)
  registerConfig target compressedOops := h.step .registerConfig (.done (h.registerConfig target compressedOops))
  metaAccess host := h.step .metaAccess host.metaAccess
  codeCache host target registers := h.step .codeCache (host.codeCache target registers)
  constantReflection host := h.step .constantReflection host.constantReflection
  stackIntrospection host := h.step .stackIntrospection host.stackIntrospection
  bundle metaAccess codeCache constantReflection stackIntrospection :=
    match h.mishap .bundle with
    | some (.panic text) => ⟨[.hook .bundle], .panicked text⟩
    | _ =>
      (Step.done ⟨metaAccess, h.bundledCodeCache codeCache, constantReflection, stackIntrospection⟩).reporting
        (.hook .bundle)

end RehearsedHooks

end BackendAssembly
