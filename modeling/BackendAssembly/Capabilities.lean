import BackendAssembly.Switchable
import BackendAssembly.Store

namespace BackendAssembly

/-- Second names under which a runtime may publish a capability: pairs of a canonical name and the published one, the
newest pair first. -/
structure Aliases where
  pairs : List (String × String)
  deriving DecidableEq

namespace Aliases

def none : Aliases :=
  ⟨[]⟩

def add (a : Aliases) (canonical published : String) : Aliases :=
  ⟨(canonical, published) :: a.pairs⟩

def ofList (pairs : List (String × String)) : Aliases :=
  pairs.foldl (fun a pair => a.add pair.1 pair.2) none

def get? (a : Aliases) (canonical : String) : Option String :=
  a.pairs.lookup canonical

theorem get?_add (a : Aliases) (canonical published name : String) :
    (a.add canonical published).get? name = if name = canonical then some published else a.get? name := by
  unfold get? add
  rw [List.lookup_cons]
  by_cases h : name = canonical
  · simp [h]
  · rw [beq_eq_false_iff_ne.mpr h, if_neg h]

end Aliases

def Store.enables (store : Store) (aliases : Aliases) (name : String) : Bool :=
  store.isSet name || (aliases.get? name).any store.isSet

def capabilities (K : Type) [Switchable K] (store : Store) (aliases : Aliases) : SwitchSet K :=
  SwitchSet.ofList <| Switchable.all.filter fun k => store.enables aliases (Switchable.constantName k)

theorem mem_capabilities {K : Type} [Switchable K] {store : Store} {aliases : Aliases} {k : K} :
    k ∈ (capabilities K store aliases).toList ↔
      k ∈ Switchable.all ∧ store.enables aliases (Switchable.constantName k) = true := by
  rw [capabilities, SwitchSet.mem_ofList, List.mem_filter]

inductive CpuFeature where
  | la32 | la64 | llexc | scdly | lldbar | lbtX86 | lbtArm | lbtMips | ccdma | complex | fp | crypto | lsx | lasx | lam
  | llsync | tgtsync | ulsync | ual
  deriving DecidableEq, Repr

namespace CpuFeature

def all : List CpuFeature :=
  [la32, la64, llexc, scdly, lldbar, lbtX86, lbtArm, lbtMips, ccdma, complex, fp, crypto, lsx, lasx, lam, llsync,
   tgtsync, ulsync, ual]

def constantName : CpuFeature → String
  | la32 => "LA32"
  | la64 => "LA64"
  | llexc => "LLEXC"
  | scdly => "SCDLY"
  | lldbar => "LLDBAR"
  | lbtX86 => "LBT_X86"
  | lbtArm => "LBT_ARM"
  | lbtMips => "LBT_MIPS"
  | ccdma => "CCDMA"
  | complex => "COMPLEX"
  | fp => "FP"
  | crypto => "CRYPTO"
  | lsx => "LSX"
  | lasx => "LASX"
  | lam => "LAM"
  | llsync => "LLSYNC"
  | tgtsync => "TGTSYNC"
  | ulsync => "ULSYNC"
  | ual => "UAL"

theorem ctorIdx_injective {a b : CpuFeature} (h : a.ctorIdx = b.ctorIdx) : a = b := by
  rw [← ofNat_ctorIdx a, ← ofNat_ctorIdx b, h]

theorem mem_all (feature : CpuFeature) : feature ∈ all := by
  cases feature <;> decide

instance : Switchable CpuFeature where
  all := all
  constantName := constantName
  rank := CpuFeature.ctorIdx
  rank_injective := ctorIdx_injective

end CpuFeature

inductive TuningFlag where
  | useLsx | useLasx
  deriving DecidableEq, Repr

namespace TuningFlag

def all : List TuningFlag :=
  [useLsx, useLasx]

def constantName : TuningFlag → String
  | useLsx => "useLSX"
  | useLasx => "useLASX"

theorem ctorIdx_injective {a b : TuningFlag} (h : a.ctorIdx = b.ctorIdx) : a = b := by
  rw [← ofNat_ctorIdx a, ← ofNat_ctorIdx b, h]

theorem mem_all (flag : TuningFlag) : flag ∈ all := by
  cases flag <;> decide

instance : Switchable TuningFlag where
  all := all
  constantName := constantName
  rank := TuningFlag.ctorIdx
  rank_injective := ctorIdx_injective

end TuningFlag

/-- The flags that a store asks for. Each one is looked up by itself and under its own name only: flags have no
aliases. -/
def Store.flags (store : Store) : SwitchSet TuningFlag :=
  let flags : SwitchSet TuningFlag := ∅
  let flags := if store.isSet "useLSX" then flags.insert .useLsx else flags
  if store.isSet "useLASX" then flags.insert .useLasx else flags

theorem Store.mem_flags {store : Store} {flag : TuningFlag} :
    flag ∈ store.flags.toList ↔ store.isSet flag.constantName = true := by
  have hempty : flag ∉ (∅ : SwitchSet TuningFlag).toList := List.not_mem_nil
  unfold flags TuningFlag.constantName
  cases flag <;> cases store.isSet "useLSX" <;> cases store.isSet "useLASX" <;>
    simp [SwitchSet.mem_insert, hempty]

end BackendAssembly
