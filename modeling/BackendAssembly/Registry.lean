import BackendAssembly.Assembly

namespace BackendAssembly

structure Factory where
  architecture : String
  hooks : Hooks
  label : String := "Backend:" ++ architecture

namespace Factory

def loongArch64 (hooks : Hooks) : Factory :=
  { architecture := LoongArch64.name, hooks }

/-- Assembles a backend. A backend never wraps another one: to hand one in is a mistake of the caller, which ends
everything before anything is done. -/
def create (f : Factory) (host : Host) (wrapped : Option Backend) : Assembly Assembled :=
  match wrapped with
  | some _ => .panic (f.label ++ " cannot be created on top of an existing host backend")
  | none => do
    Assembly.write (.creating f.label)
    Assembly.assemble f.hooks host

def createWithReport (f : Factory) (host : Host) : Assembly (Assembled × Report) :=
  Assembly.assembleWithReport f.hooks host

end Factory

/-- The factories to choose from, in the order in which they were registered, no two for one architecture. -/
structure Registry where
  factories : List Factory
  distinct : (factories.map Factory.architecture).Nodup

namespace Registry

def empty : Registry :=
  ⟨[], List.nodup_nil⟩

def builtin : Registry :=
  ⟨[.loongArch64 .standard], List.pairwise_singleton _ _⟩

def architectures (r : Registry) : List String :=
  r.factories.map Factory.architecture

def register (r : Registry) (f : Factory) : Except BackendError Registry :=
  if h : f.architecture ∈ r.architectures then .error (.duplicateArchitecture f.architecture)
  else .ok
    { factories := r.factories ++ [f]
      distinct := by
        rw [List.map_append, List.nodup_append]
        refine ⟨r.distinct, List.pairwise_singleton _ _, fun a ha b hb hab => h ?_⟩
        rw [List.map_singleton, List.mem_singleton] at hb
        exact hb ▸ hab ▸ ha }

theorem register_eq_error_iff {r : Registry} {f : Factory} {e : BackendError} :
    r.register f = .error e ↔ f.architecture ∈ r.architectures ∧ e = .duplicateArchitecture f.architecture := by
  unfold register
  split
  next h => exact ⟨fun he => ⟨h, (Except.error.inj he).symm⟩, fun he => he.2 ▸ rfl⟩
  next h => exact ⟨nofun, fun he => absurd he.1 h⟩

def select (r : Registry) (architecture : String) : Except BackendError Factory :=
  match r.factories.find? fun f => f.architecture == architecture with
  | some f => .ok f
  | none => .error (.unknownArchitecture architecture r.architectures)

theorem select_builtin (arch : String) : builtin.select arch =
    if arch = "loongarch64" then .ok (.loongArch64 .standard)
    else .error (.unknownArchitecture arch ["loongarch64"]) := by
  have hfind : builtin.factories.find? (fun f => f.architecture == arch) =
      if arch = "loongarch64" then some (.loongArch64 .standard) else none := by
    have hname : (LoongArch64.name == arch) = true ↔ arch = "loongarch64" := beq_iff_eq.trans eq_comm
    rw [builtin, List.find?_singleton]
    exact ite_congr (propext hname) (fun _ => rfl) fun _ => rfl
  unfold select
  rw [hfind]
  by_cases h : arch = "loongarch64"
  · rw [if_pos h, if_pos h]
  · rw [if_neg h, if_neg h]
    rfl

def text (r : Registry) : String :=
  line "Available backends:" ++ line "" ++
    String.join (r.factories.map fun f => line ("  " ++ padRight 15 f.architecture ++ " " ++ f.label))

end Registry

end BackendAssembly
