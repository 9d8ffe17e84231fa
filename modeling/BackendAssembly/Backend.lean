import BackendAssembly.BackendError
import BackendAssembly.RegisterConventions
import BackendAssembly.Step

namespace BackendAssembly

structure Provider where
  name : String
  deriving DecidableEq, Repr

/-- Which object a code cache is: a new one from the step that makes code caches, a new one from the bundle, or one that
somebody keeps under a key and hands out again. -/
inductive Provenance where
  | made
  | bundled
  | kept (key : Nat)
  deriving DecidableEq, Repr

structure CodeCache where
  name : String
  target : Target
  registers : RegisterConventions
  provenance : Provenance := .made

structure Backend where
  metaAccess : Provider
  codeCache : CodeCache
  constantReflection : Provider
  stackIntrospection : Provider

namespace Backend

def target (b : Backend) : Target :=
  b.codeCache.target

def registers (b : Backend) : RegisterConventions :=
  b.codeCache.registers

def providerNames (b : Backend) : List (String × String) :=
  [(Component.metaAccess.role, b.metaAccess.name), (Component.codeCache.role, b.codeCache.name),
   (Component.constantReflection.role, b.constantReflection.name),
   (Component.stackIntrospection.role, b.stackIntrospection.name)]

end Backend

structure Host where
  store : Store
  metaAccess : Step Refusal Provider
  codeCache : Target → RegisterConventions → Step Refusal CodeCache
  constantReflection : Step Refusal Provider
  stackIntrospection : Step Refusal Provider

/-- A host over a store alone, for looking at a backend outside of a running machine. Its code cache keeps what it
is given, and is a new one each time. -/
def Host.standalone (store : Store) : Host where
  store := store
  metaAccess := .done ⟨"host-meta-access"⟩
  codeCache target registers := .done { name := "host-code-cache", target, registers }
  constantReflection := .done ⟨"host-constant-reflection"⟩
  stackIntrospection := .done ⟨"host-stack-introspection"⟩

/-- The steps of an assembly that an architecture may build in its own way. The order of the steps is not among
them. -/
structure Hooks where
  aliases : Step Empty Aliases := .done .none
  registerConfig : Target → Bool → Step Refusal RegisterConventions := fun target compressedOops =>
    .done (LoongArch64Registers.toConventions ⟨target, compressedOops⟩)
  metaAccess : Host → Step Refusal Provider := Host.metaAccess
  codeCache : Host → Target → RegisterConventions → Step Refusal CodeCache := Host.codeCache
  constantReflection : Host → Step Refusal Provider := Host.constantReflection
  stackIntrospection : Host → Step Refusal Provider := Host.stackIntrospection
  bundle : Provider → CodeCache → Provider → Provider → Step Empty Backend :=
    fun metaAccess codeCache constantReflection stackIntrospection =>
      .done ⟨metaAccess, codeCache, constantReflection, stackIntrospection⟩

def Hooks.standard : Hooks := {}

end BackendAssembly
