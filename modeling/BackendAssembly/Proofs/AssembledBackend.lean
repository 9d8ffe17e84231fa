import BackendAssembly.Proofs.EntryPointAgreement

namespace BackendAssembly

theorem Register.mem_fprs {r : Register} (h : r ∈ fprs) : r ∉ LoongArch64Registers.reserved ∧ r ≠ s5 := by
  have hall : ∀ r ∈ fprs, r ∉ LoongArch64Registers.reserved ∧ r ≠ s5 := by decide
  exact hall r h

namespace LoongArch64Registers

theorem mem_allocatable {conventions : LoongArch64Registers} {r : Register} :
    r ∈ conventions.allocatable ↔
      r ∈ Register.file ∧ r ∉ reserved ∧ (conventions.compressedOops = true → r ≠ .s5) := by
  have hheap : (!(conventions.compressedOops && r == heapBaseRegister)) = true ↔
      (conventions.compressedOops = true → r ≠ .s5) := by
    cases conventions.compressedOops <;> simp [heapBaseRegister]
  have hgpr : r ∈ (Register.gprs.filter fun g => !reserved.contains g).filter
      (fun g => !(conventions.compressedOops && g == heapBaseRegister)) ↔
      r ∈ Register.gprs ∧ r ∉ reserved ∧ (conventions.compressedOops = true → r ≠ .s5) := by
    rw [List.mem_filter, hheap, List.mem_filter, and_assoc, Bool.not_eq_true', ← Bool.not_eq_true,
      List.contains_iff_mem]
  rw [allocatable, List.mem_append, hgpr, Register.file, List.mem_append]
  constructor
  · rintro (⟨hr, hfree⟩ | hr)
    · exact ⟨.inl hr, hfree⟩
    · exact ⟨.inr hr, (Register.mem_fprs hr).1, fun _ => (Register.mem_fprs hr).2⟩
  · rintro ⟨hr | hr, hfree⟩
    · exact .inl ⟨hr, hfree⟩
    · exact .inr hr

theorem isReserved_eq_false_iff {conventions : LoongArch64Registers} {r : Register} :
    conventions.toConventions.isReserved r = false ↔
      r ∈ Register.file ∧ r ∉ reserved ∧ (conventions.compressedOops = true → r ≠ .s5) := by
  rw [← mem_allocatable]
  change (!conventions.allocatable.contains r) = false ↔ _
  rw [Bool.not_eq_false', List.contains_iff_mem]

end LoongArch64Registers

/-- The code cache of the host, if it makes one, tells the target and the conventions that it was made for. -/
def Host.Faithful (host : Host) : Prop :=
  ∀ target registers codeCache, (host.codeCache target registers).exit = .returned codeCache →
    codeCache.target = target ∧ codeCache.registers = registers

theorem Host.faithful_standalone (store : Store) : (standalone store).Faithful := by
  intro target registers codeCache h
  cases h
  exact ⟨rfl, rfl⟩

structure Host.Builds (host : Host) (aliases : Aliases) (backend : Backend) : Prop where
  metaAccess : host.metaAccess.exit = .returned backend.metaAccess
  codeCache : (host.codeCache (.ofStore host.store aliases) (LoongArch64Registers.toConventions
    ⟨.ofStore host.store aliases, host.store.isSet Target.useCompressedOops⟩)).exit = .returned backend.codeCache
  constantReflection : host.constantReflection.exit = .returned backend.constantReflection
  stackIntrospection : host.stackIntrospection.exit = .returned backend.stackIntrospection

def Hooks.naming (calls : List Call) (aliases : Aliases) : Hooks where
  aliases := ⟨calls, .returned aliases⟩

namespace Course

variable {o : Outset}

theorem exit_timed_create {α : Type} (hfits : o.Fits) {name : String} {component : Component} {stage : Stage}
    {step : Step Refusal α} {a : α} (h : step.exit = .returned a) :
    (timed name (create component stage step) o).exit = .returned a := by
  refine exit_timed_eq_returned.mpr ⟨hfits, ?_⟩
  rw [create, h]

theorem exit_findTarget (calls : List Call) (aliases : Aliases) (store : Store) :
    (findTarget (.naming calls aliases) store o).exit =
      .returned (.ofStore store aliases, store.isSet Target.useCompressedOops, .targetBuilt) := rfl

section

variable {hooks : Hooks} {host : Host} {target : Target} {compressedOops : Bool} {registers : RegisterConventions}
  {p : Assembly.Providers}

theorem exit_createProviders (hfits : o.Fits)
    (hregisters : (hooks.registerConfig target compressedOops).exit = .returned registers)
    (hmetaAccess : (hooks.metaAccess host).exit = .returned p.metaAccess)
    (hcodeCache : (hooks.codeCache host target registers).exit = .returned p.codeCache)
    (hconstantReflection : (hooks.constantReflection host).exit = .returned p.constantReflection)
    (hstackIntrospection : (hooks.stackIntrospection host).exit = .returned p.stackIntrospection) :
    (createProviders hooks host target compressedOops o).exit = .returned (p, .providersConstructed) := by
  refine exit_bind_eq_returned.mpr ⟨registers, exit_timed_create hfits hregisters, ?_⟩
  refine exit_bind_eq_returned.mpr ⟨(), rfl, ?_⟩
  refine exit_bind_eq_returned.mpr ⟨p.metaAccess, exit_timed_create hfits hmetaAccess, ?_⟩
  refine exit_bind_eq_returned.mpr ⟨p.codeCache, exit_timed_create hfits hcodeCache, ?_⟩
  refine exit_bind_eq_returned.mpr ⟨p.constantReflection, exit_timed_create hfits hconstantReflection, ?_⟩
  refine exit_bind_eq_returned.mpr ⟨p.stackIntrospection, exit_timed_create hfits hstackIntrospection, ?_⟩
  exact exit_bind_eq_returned.mpr ⟨(), rfl, rfl⟩

theorem fits_of_createProviders {stage : Stage}
    (h : (createProviders hooks host target compressedOops o).exit = .returned (p, stage)) : o.Fits := by
  obtain ⟨registers, hregisters, -⟩ := exit_bind_eq_returned.mp h
  exact (exit_timed_eq_returned.mp hregisters).1

theorem roomy_of_assembly {backend : Backend} (h : (assembly hooks host o).exit = .returned backend) : o.Roomy := by
  obtain ⟨⟨target, compressedOops, _⟩, -, h⟩ := exit_bind_eq_returned.mp h
  obtain ⟨⟨p, stage⟩, hproviders, -⟩ := exit_bind_eq_returned.mp h
  exact fits_of_createProviders (exit_timed_eq_returned.mp hproviders).2

end

/-- There is a backend just where two timers can be opened within each other and the host makes its providers. -/
theorem exit_assembly_naming {calls : List Call} {aliases : Aliases} {host : Host} {backend : Backend} :
    (assembly (.naming calls aliases) host o).exit = .returned backend ↔ o.Roomy ∧ host.Builds aliases backend := by
  constructor
  · intro h
    refine ⟨roomy_of_assembly h, ?_⟩
    obtain ⟨⟨target, compressedOops, _⟩, htarget, h⟩ := exit_bind_eq_returned.mp h
    cases (exit_findTarget calls aliases host.store).symm.trans (exit_timed_eq_returned.mp htarget).2
    obtain ⟨⟨p, _⟩, hproviders, h⟩ := exit_bind_eq_returned.mp h
    obtain ⟨_, hregisters, hmetaAccess, hcodeCache, hconstantReflection, hstackIntrospection, -⟩ :=
      createProviders_returned (exit_timed_eq_returned.mp hproviders).2
    cases hregisters
    obtain ⟨_, hbundle, h⟩ := exit_bind_eq_returned.mp h
    cases (exit_timed_eq_returned.mp hbundle).2
    cases h
    exact ⟨hmetaAccess, hcodeCache, hconstantReflection, hstackIntrospection⟩
  · rintro ⟨hroomy, h⟩
    let p : Assembly.Providers :=
      ⟨backend.metaAccess, backend.codeCache, backend.constantReflection, backend.stackIntrospection⟩
    have hproviders : (createProviders (.naming calls aliases) host _ _ o.inner).exit = .returned (p, _) :=
      exit_createProviders hroomy rfl h.metaAccess h.codeCache h.constantReflection h.stackIntrospection
    refine exit_bind_eq_returned.mpr ⟨_, exit_timed_eq_returned.mpr
      ⟨hroomy.fits, exit_findTarget calls aliases host.store⟩, ?_⟩
    refine exit_bind_eq_returned.mpr ⟨_, exit_timed_eq_returned.mpr ⟨hroomy.fits, hproviders⟩, ?_⟩
    refine exit_bind_eq_returned.mpr ⟨backend, exit_timed_eq_returned.mpr ⟨hroomy.fits, rfl⟩, ?_⟩
    refine exit_bind_eq_returned.mpr ⟨(), rfl, ?_⟩
    exact exit_bind_eq_returned.mpr ⟨(), rfl, rfl⟩

end Course

/-- The backend tells the target of a store, and reserves what is no register, the registers with a fixed use, and the
base of the heap while object pointers are compressed. -/
structure Backend.Describes (backend : Backend) (store : Store) (aliases : Aliases) : Prop where
  target : backend.target = .ofStore store aliases
  isReserved : ∀ r, backend.registers.isReserved r = false ↔
    r ∈ Register.file ∧ r ∉ [.zero, .ra, .tp, .sp, .r21, .fp, .s6] ∧ (store.isSet "useCompressedOops" = true → r ≠ .s5)
  heapBase : backend.registers.isReserved .s5 = store.isSet "useCompressedOops"

theorem Backend.describes {backend : Backend} {store : Store} {aliases : Aliases}
    (htarget : backend.target = .ofStore store aliases)
    (hregisters : backend.registers =
      LoongArch64Registers.toConventions ⟨.ofStore store aliases, store.isSet Target.useCompressedOops⟩) :
    backend.Describes store aliases := by
  have hreserved : ∀ r, backend.registers.isReserved r = false ↔ r ∈ Register.file ∧
      r ∉ LoongArch64Registers.reserved ∧ (store.isSet "useCompressedOops" = true → r ≠ .s5) := fun r => by
    rw [hregisters]
    exact LoongArch64Registers.isReserved_eq_false_iff
  refine ⟨htarget, hreserved, ?_⟩
  have hfile : Register.s5 ∈ Register.file ∧ Register.s5 ∉ LoongArch64Registers.reserved := by decide
  have hheap := hreserved .s5
  cases hset : store.isSet "useCompressedOops" with
  | false =>
    rw [hset] at hheap
    exact hheap.mpr ⟨hfile.1, hfile.2, nofun⟩
  | true =>
    rw [hset] at hheap
    exact eq_true_of_ne_false fun hfree => (hheap.mp hfree).2.2 rfl rfl

theorem Host.Builds.describes {host : Host} {aliases : Aliases} {backend : Backend} (h : host.Builds aliases backend)
    (hfaithful : host.Faithful) : backend.Describes host.store aliases := by
  obtain ⟨htarget, hregisters⟩ := hfaithful _ _ _ h.codeCache
  exact Backend.describes htarget hregisters

namespace EntryPoint

def Yields (entry : EntryPoint) (hooks : Hooks) (host : Host) (s : Session) (P : Backend → Prop) : Prop :=
  ∃ assembled report, (entry.run hooks host s).1 = .returned (assembled, report) ∧ P assembled.backend

theorem exit_of_run {entry : EntryPoint} {hooks : Hooks} {host : Host} {s : Session} {assembled : Assembled}
    {report : Option Report} (h : (entry.run hooks host s).1 = .returned (assembled, report)) :
    (Course.assembly hooks host s.outset).exit = .returned assembled.backend := by
  rw [← entry.exit_course, ← (entry.run_led hooks host s).exit, h]
  rfl

theorem yields_iff {entry : EntryPoint} {hooks : Hooks} {host : Host} {s : Session} {P : Backend → Prop} :
    entry.Yields hooks host s P ↔
      ∃ backend, (Course.assembly hooks host s.outset).exit = .returned backend ∧ P backend := by
  constructor
  · rintro ⟨assembled, report, hrun, hP⟩
    exact ⟨assembled.backend, exit_of_run hrun, hP⟩
  · rintro ⟨backend, hexit, hP⟩
    have hled := (entry.run_led hooks host s).exit
    rw [entry.exit_course, hexit] at hled
    cases hrun : (entry.run hooks host s).1 with
    | returned r =>
      rw [hrun] at hled
      cases hled
      exact ⟨r.1, r.2, hrun, hP⟩
    | failed e =>
      rw [hrun] at hled
      cases hled
    | panicked text =>
      rw [hrun] at hled
      cases hled

variable (entry : EntryPoint) (calls : List Call) (aliases : Aliases) (s : Session)

theorem yields_of_builds {host : Host} {backend : Backend} (hroomy : s.outset.Roomy)
    (h : host.Builds aliases backend) (hfaithful : host.Faithful) :
    entry.Yields (.naming calls aliases) host s fun backend => backend.Describes host.store aliases :=
  yields_iff.mpr ⟨backend, Course.exit_assembly_naming.mpr ⟨hroomy, h⟩, h.describes hfaithful⟩

/-- Where hooks only name aliases and two timers can be opened within each other, an assembly over a store alone
succeeds, and over any host it succeeds just where the host makes the providers. The backend describes the store if the
code cache is faithful: aliases count for the features, and never for the base of the heap. -/
theorem describes_run :
    (∀ store, s.outset.Roomy → entry.Yields (.naming calls aliases) (.standalone store) s fun backend =>
      backend.Describes store aliases) ∧
    ∀ host : Host, host.Faithful →
      (entry.Yields (.naming calls aliases) host s (fun backend => backend.Describes host.store aliases) ↔
        s.outset.Roomy ∧ ∃ backend, host.Builds aliases backend) ∧
      ∀ assembled report, (entry.run (.naming calls aliases) host s).1 = .returned (assembled, report) →
        assembled.backend.Describes host.store aliases := by
  refine ⟨fun store hroomy => ?_, fun host hfaithful => ⟨⟨?_, ?_⟩, fun assembled report h => ?_⟩⟩
  · have hbuilds : (Host.standalone store).Builds aliases
        ⟨⟨"host-meta-access"⟩, ⟨"host-code-cache", .ofStore store aliases, _, .made⟩, ⟨"host-constant-reflection"⟩,
          ⟨"host-stack-introspection"⟩⟩ := ⟨rfl, rfl, rfl, rfl⟩
    exact entry.yields_of_builds calls aliases s hroomy hbuilds (Host.faithful_standalone store)
  · intro h
    obtain ⟨backend, hexit, -⟩ := yields_iff.mp h
    obtain ⟨hroomy, hbuilds⟩ := Course.exit_assembly_naming.mp hexit
    exact ⟨hroomy, backend, hbuilds⟩
  · rintro ⟨hroomy, backend, hbuilds⟩
    exact entry.yields_of_builds calls aliases s hroomy hbuilds hfaithful
  · exact (Course.exit_assembly_naming.mp (exit_of_run h)).2.describes hfaithful

theorem describes_run_aliased :
    let store := Store.ofList [("AVX2", .int 7), ("LA64", .bool true)]
    let aliases := Aliases.ofList [("LASX", "AVX2"), ("useCompressedOops", "LA64")]
    let host : Host := { Host.standalone store with metaAccess := .done ⟨"vm-meta-access"⟩ }
    host.Faithful ∧ create.Yields (.naming [] aliases) host { clock := id } fun backend =>
      backend.target = ⟨⟨.ofList [.la64, .lasx], ∅⟩, false⟩ ∧ backend.registers.isReserved .s5 = false := by
  intro store aliases host
  have hfaithful : host.Faithful := Host.faithful_standalone store
  have hbuilds : host.Builds aliases
      ⟨⟨"vm-meta-access"⟩, ⟨"host-code-cache", .ofStore store aliases, _, .made⟩, ⟨"host-constant-reflection"⟩,
        ⟨"host-stack-introspection"⟩⟩ := ⟨rfl, rfl, rfl, rfl⟩
  have htarget : Target.ofStore store aliases = ⟨⟨.ofList [.la64, .lasx], ∅⟩, false⟩ := by decide
  have hoops : store.isSet "useCompressedOops" = false := by decide
  obtain ⟨assembled, report, hrun, hdescribes⟩ :=
    ((describes_run .create [] aliases { clock := id }).2 host hfaithful).1.mpr ⟨by decide, _, hbuilds⟩
  exact ⟨hfaithful, assembled, report, hrun, hdescribes.target.trans htarget, hdescribes.heapBase.trans hoops⟩

/-- A host that refuses a provider has no backend, however faithful its code cache is. -/
theorem refused_run : ∃ host : Host, host.Faithful ∧
    (create.run (.naming [] .none) host { clock := id }).1 =
      .failed (.construction .metaAccess .registerConfigBuilt (.failed "down")) :=
  ⟨{ Host.standalone .empty with metaAccess := ⟨[], .failed (.failed "down")⟩ }, Host.faithful_standalone .empty, rfl⟩

end EntryPoint

end BackendAssembly
