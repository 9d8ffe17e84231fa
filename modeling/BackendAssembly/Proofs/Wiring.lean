import BackendAssembly.Proofs.AssembledBackend

namespace BackendAssembly

namespace Attempt

variable {σ ε α β : Type}

/-- Whatever the state is, this holds of the result, if there is one. -/
def Returns (x : Attempt σ ε α) (P : α → Prop) : Prop :=
  ∀ s a, (x s).1 = .returned a → P a

theorem returns_pure {P : α → Prop} {a : α} (h : P a) : (pure a : Attempt σ ε α).Returns P := by
  rintro s _ ⟨⟩
  exact h

theorem returns_bind {x : Attempt σ ε α} {f : α → Attempt σ ε β} {P : α → Prop} {Q : β → Prop} (hx : x.Returns P)
    (hf : ∀ a, P a → (f a).Returns Q) : (x >>= f).Returns Q := by
  intro s b h
  obtain ⟨a, t, ha, hb⟩ := bind_eq_returned.mp (Prod.ext h rfl)
  exact hf a (hx s a (congrArg Prod.fst ha)) t b (congrArg Prod.fst hb)

theorem returns_of_next {x : Attempt σ ε α} {f : α → Attempt σ ε β} {Q : β → Prop} (hf : ∀ a, (f a).Returns Q) :
    (x >>= f).Returns Q := by
  have hx : x.Returns fun _ => True := fun _ _ _ => trivial
  exact returns_bind hx fun a _ => hf a

theorem bind_congr_of_returns {x : Attempt σ ε α} {f g : α → Attempt σ ε β} {P : α → Prop} (hx : x.Returns P)
    (h : ∀ a, P a → f a = g a) : x >>= f = x >>= g := by
  funext s
  rw [bind_run, bind_run]
  rcases hrun : x s with ⟨a | e | text, t⟩
  · rw [andThen_returned hrun, andThen_returned hrun, h a (hx s a (congrArg Prod.fst hrun))]
  · rw [andThen_failed hrun, andThen_failed hrun]
  · rw [andThen_panicked hrun, andThen_panicked hrun]

end Attempt

namespace Assembly

open Attempt

variable {α β : Type} {log : Nat} {a : α} {P : α → Prop}

theorem returns_takeSafe {step : Step Empty α} (h : step.exit = .returned a) :
    (Session.takeSafe step : Assembly α).Returns fun b => b = a := by
  intro s b hb
  have htake : Session.take step s = (.returned a, { s with calls := s.calls ++ step.calls }) := by
    rw [Session.take, h]
  rw [Session.takeSafe, mapError_returned htake] at hb
  exact (Exit.returned.inj hb).symm

theorem returns_recorded {x : Assembly α} (name : String) (h : x.Returns P) : (recorded log name x).Returns P := by
  intro s a ha
  by_cases hfits : s.outset.Fits
  · rw [recorded, Session.timed_of_fits hfits] at ha
    exact h _ a ha
  · rw [recorded, Session.timed_of_not_fits hfits] at ha
    cases ha

theorem returns_create {step : Step Refusal α} (component : Component) (stage : Stage) (h : step.exit = .returned a) :
    (create component stage step).Returns fun b => b = a := by
  intro s b hb
  simp only [create, Session.take, h] at hb
  exact (Exit.returned.inj hb).symm

theorem returns_advance (stage next : Stage) : (advance stage next).Returns fun stage => stage = next := by
  rintro s _ ⟨⟩
  rfl

end Assembly

theorem Course.exit_timed_takeSafe {ε α : Type} {o : Outset} (hfits : o.Fits) {name : String} {step : Step Empty α}
    {a : α} (h : step.exit = .returned a) : (timed name (takeSafe step : Course ε α) o).exit = .returned a := by
  refine exit_timed_eq_returned.mpr ⟨hfits, ?_⟩
  rw [takeSafe, h, Exit.mapError]

/-- The values that pass between the steps of an assembly. -/
structure Wiring where
  aliases : Aliases
  target : Target
  registers : RegisterConventions
  providers : Assembly.Providers
  backend : Backend

namespace Wiring

/-- Each value is what its step returned when it was given the values before it, each in its own role. -/
structure Joins (w : Wiring) (hooks : Hooks) (host : Host) : Prop where
  aliases : hooks.aliases.exit = .returned w.aliases
  features : w.target.arch.features = capabilities CpuFeature host.store w.aliases
  flags : w.target.arch.flags = host.store.flags
  compressedOops : w.target.compressedOops = host.store.isSet "useCompressedOops"
  registers : (hooks.registerConfig w.target w.target.compressedOops).exit = .returned w.registers
  metaAccess : (hooks.metaAccess host).exit = .returned w.providers.metaAccess
  codeCache : (hooks.codeCache host w.target w.registers).exit = .returned w.providers.codeCache
  constantReflection : (hooks.constantReflection host).exit = .returned w.providers.constantReflection
  stackIntrospection : (hooks.stackIntrospection host).exit = .returned w.providers.stackIntrospection
  backend : (hooks.bundle w.providers.metaAccess w.providers.codeCache w.providers.constantReflection
    w.providers.stackIntrospection).exit = .returned w.backend

/-- Other hooks and another host do at these values what the first ones do there. Elsewhere they do what they like. -/
structure Agrees (w : Wiring) (hooks hooks' : Hooks) (host host' : Host) : Prop where
  store : host'.store = host.store
  aliases : hooks'.aliases = hooks.aliases
  registers : hooks'.registerConfig w.target w.target.compressedOops =
    hooks.registerConfig w.target w.target.compressedOops
  metaAccess : hooks'.metaAccess host' = hooks.metaAccess host
  codeCache : hooks'.codeCache host' w.target w.registers = hooks.codeCache host w.target w.registers
  constantReflection : hooks'.constantReflection host' = hooks.constantReflection host
  stackIntrospection : hooks'.stackIntrospection host' = hooks.stackIntrospection host
  bundle : hooks'.bundle w.providers.metaAccess w.providers.codeCache w.providers.constantReflection
      w.providers.stackIntrospection =
    hooks.bundle w.providers.metaAccess w.providers.codeCache w.providers.constantReflection
      w.providers.stackIntrospection

variable {w : Wiring} {hooks hooks' : Hooks} {host host' : Host}

theorem Joins.target_eq (h : w.Joins hooks host) : w.target = .ofStore host.store w.aliases := by
  rw [Target.ofStore, LoongArch64.ofStore, ← h.features, ← h.flags, Target.useCompressedOops, ← h.compressedOops]

variable {o : Outset}

theorem Joins.exit_findTarget (h : w.Joins hooks host) :
    (Course.findTarget hooks host.store o).exit = .returned (w.target, w.target.compressedOops, .targetBuilt) := by
  have haliases : ((Course.takeSafe hooks.aliases : Course BackendError Aliases) o).exit = .returned w.aliases := by
    rw [Course.takeSafe, h.aliases, Exit.mapError]
  refine Course.exit_bind_eq_returned.mpr ⟨w.aliases, haliases, ?_⟩
  refine Course.exit_bind_eq_returned.mpr ⟨(), rfl, ?_⟩
  refine Course.exit_bind_eq_returned.mpr ⟨(), rfl, ?_⟩
  rw [h.compressedOops, h.target_eq]
  rfl

theorem Joins.exit_assembly (h : w.Joins hooks host) (hroomy : o.Roomy) :
    (Course.assembly hooks host o).exit = .returned w.backend := by
  have hproviders := Course.exit_createProviders hroomy h.registers h.metaAccess h.codeCache h.constantReflection
    h.stackIntrospection
  refine Course.exit_bind_eq_returned.mpr ⟨_, Course.exit_timed_eq_returned.mpr ⟨hroomy.fits, h.exit_findTarget⟩, ?_⟩
  refine Course.exit_bind_eq_returned.mpr ⟨_, Course.exit_timed_eq_returned.mpr ⟨hroomy.fits, hproviders⟩, ?_⟩
  refine Course.exit_bind_eq_returned.mpr ⟨w.backend, Course.exit_timed_takeSafe hroomy.fits h.backend, ?_⟩
  refine Course.exit_bind_eq_returned.mpr ⟨(), rfl, ?_⟩
  exact Course.exit_bind_eq_returned.mpr ⟨(), rfl, rfl⟩

theorem exists_joins {backend : Backend} (h : (Course.assembly hooks host o).exit = .returned backend) :
    ∃ w : Wiring, w.Joins hooks host ∧ w.backend = backend := by
  obtain ⟨⟨target, compressedOops, stage⟩, htarget, h⟩ := Course.exit_bind_eq_returned.mp h
  obtain ⟨aliases, haliases, rfl, rfl, rfl⟩ :=
    Course.findTarget_returned (Course.exit_timed_eq_returned.mp htarget).2
  obtain ⟨⟨p, stage⟩, hproviders, h⟩ := Course.exit_bind_eq_returned.mp h
  obtain ⟨registers, hregisters, hmetaAccess, hcodeCache, hconstantReflection, hstackIntrospection, rfl⟩ :=
    Course.createProviders_returned (Course.exit_timed_eq_returned.mp hproviders).2
  obtain ⟨b, hbackend, h⟩ := Course.exit_bind_eq_returned.mp h
  cases h
  refine ⟨⟨aliases, .ofStore host.store aliases, registers, p, backend⟩, ?_, rfl⟩
  exact {
    aliases := haliases
    features := rfl
    flags := rfl
    compressedOops := rfl
    registers := hregisters
    metaAccess := hmetaAccess
    codeCache := hcodeCache
    constantReflection := hconstantReflection
    stackIntrospection := hstackIntrospection
    backend := Course.takeSafe_returned (Course.exit_timed_eq_returned.mp hbackend).2 }

open Assembly Attempt

variable {log : Nat}

theorem Joins.returns_findTarget (h : w.Joins hooks host) : (findTarget hooks host.store .start).Returns fun r =>
    r = (w.target, w.target.compressedOops, .targetBuilt) := by
  refine returns_bind (returns_takeSafe h.aliases) ?_
  rintro _ rfl
  refine returns_bind (returns_advance _ _) ?_
  rintro _ rfl
  refine returns_bind (returns_advance _ _) ?_
  rintro _ rfl
  refine returns_pure ?_
  rw [h.compressedOops, h.target_eq]
  rfl

theorem Joins.returns_createProviders (h : w.Joins hooks host) :
    (createProviders hooks host w.target w.target.compressedOops .targetBuilt log).Returns fun r =>
      r.1 = w.providers ∧ r.2.2 = .providersConstructed := by
  refine returns_bind (returns_recorded _ (returns_create _ _ h.registers)) ?_
  rintro _ rfl
  refine returns_bind (returns_advance _ _) ?_
  rintro _ rfl
  refine returns_bind (returns_recorded _ (returns_create _ _ h.metaAccess)) ?_
  rintro _ rfl
  refine returns_bind (returns_recorded _ (returns_create _ _ h.codeCache)) ?_
  rintro _ rfl
  refine returns_of_next fun id => ?_
  refine returns_bind (returns_recorded _ (returns_create _ _ h.constantReflection)) ?_
  rintro _ rfl
  refine returns_bind (returns_recorded _ (returns_create _ _ h.stackIntrospection)) ?_
  rintro _ rfl
  refine returns_bind (returns_advance _ _) ?_
  rintro _ rfl
  exact returns_pure ⟨rfl, rfl⟩

theorem Joins.createProviders_congr (h : w.Joins hooks host) (hagrees : w.Agrees hooks hooks' host host') :
    createProviders hooks host w.target w.target.compressedOops .targetBuilt log =
      createProviders hooks' host' w.target w.target.compressedOops .targetBuilt log := by
  unfold createProviders
  rw [hagrees.registers, hagrees.metaAccess, hagrees.constantReflection, hagrees.stackIntrospection]
  refine bind_congr_of_returns (returns_recorded _ (returns_create _ _ h.registers)) ?_
  rintro _ rfl
  rw [hagrees.codeCache]

theorem Joins.runSteps_congr (h : w.Joins hooks host) (hagrees : w.Agrees hooks hooks' host host') :
    runSteps hooks host log = runSteps hooks' host' log := by
  have hfind : findTarget hooks' host'.store .start = findTarget hooks host.store .start := by
    rw [findTarget, hagrees.aliases, hagrees.store, findTarget]
  unfold runSteps
  rw [hfind]
  refine bind_congr fun start => ?_
  refine bind_congr_of_returns (returns_recorded _ h.returns_findTarget) ?_
  rintro _ rfl
  simp only
  rw [← h.createProviders_congr hagrees]
  refine bind_congr_of_returns (returns_recorded _ h.returns_createProviders) ?_
  rintro ⟨_, id, _⟩ ⟨rfl, rfl⟩
  simp only
  rw [hagrees.bundle]

theorem Joins.run_congr (h : w.Joins hooks host) (hagrees : w.Agrees hooks hooks' host host') (entry : EntryPoint) :
    entry.run hooks host = entry.run hooks' host' := by
  have hassemble : Assembly.assemble hooks host = Assembly.assemble hooks' host' := by
    simp only [Assembly.assemble, h.runSteps_congr hagrees]
  have hreport : Assembly.assembleWithReport hooks host = Assembly.assembleWithReport hooks' host' := by
    simp only [Assembly.assembleWithReport, h.runSteps_congr hagrees]
  cases entry with
  | assemble => rw [EntryPoint.run, hassemble, EntryPoint.run]
  | assembleWithReport => rw [EntryPoint.run, hreport, EntryPoint.run]
  | create => simp only [EntryPoint.run, Factory.create, Factory.loongArch64, hassemble]
  | createWithReport => simp only [EntryPoint.run, Factory.createWithReport, Factory.loongArch64, hreport]

theorem Joins.providerNames (h : w.Joins hooks host) (hbundle : hooks.bundle = Hooks.standard.bundle) :
    w.backend.providerNames =
      [("meta-access", w.providers.metaAccess.name), ("code-cache", w.providers.codeCache.name),
       ("constant-reflection", w.providers.constantReflection.name),
       ("stack-introspection", w.providers.stackIntrospection.name)] := by
  have hbackend := h.backend
  rw [hbundle] at hbackend
  rw [← Exit.returned.inj hbackend]
  rfl

end Wiring

structure Hooks.Succeed (hooks : Hooks) (host : Host) : Prop where
  aliases : ∃ aliases, hooks.aliases.exit = .returned aliases
  registers : ∀ target compressedOops, ∃ registers,
    (hooks.registerConfig target compressedOops).exit = .returned registers
  metaAccess : ∃ provider, (hooks.metaAccess host).exit = .returned provider
  codeCache : ∀ target registers, ∃ codeCache, (hooks.codeCache host target registers).exit = .returned codeCache
  constantReflection : ∃ provider, (hooks.constantReflection host).exit = .returned provider
  stackIntrospection : ∃ provider, (hooks.stackIntrospection host).exit = .returned provider
  bundle : ∀ metaAccess codeCache constantReflection stackIntrospection, ∃ backend,
    (hooks.bundle metaAccess codeCache constantReflection stackIntrospection).exit = .returned backend

theorem Hooks.Succeed.exists_joins {hooks : Hooks} {host : Host} (h : hooks.Succeed host) :
    ∃ w : Wiring, w.Joins hooks host := by
  obtain ⟨aliases, haliases⟩ := h.aliases
  let target := Target.ofStore host.store aliases
  obtain ⟨registers, hregisters⟩ := h.registers target target.compressedOops
  obtain ⟨metaAccess, hmetaAccess⟩ := h.metaAccess
  obtain ⟨codeCache, hcodeCache⟩ := h.codeCache target registers
  obtain ⟨constantReflection, hconstantReflection⟩ := h.constantReflection
  obtain ⟨stackIntrospection, hstackIntrospection⟩ := h.stackIntrospection
  obtain ⟨backend, hbackend⟩ := h.bundle metaAccess codeCache constantReflection stackIntrospection
  let p : Assembly.Providers := ⟨metaAccess, codeCache, constantReflection, stackIntrospection⟩
  exact ⟨⟨aliases, target, registers, p, backend⟩, haliases, rfl, rfl, rfl, hregisters, hmetaAccess, hcodeCache,
    hconstantReflection, hstackIntrospection, hbackend⟩

namespace EntryPoint

/-- The assembly passes these values on. A step is given nothing else: to change what the steps do for other values
changes no run. -/
structure Wired (hooks : Hooks) (host : Host) (w : Wiring) : Prop where
  joins : w.Joins hooks host
  yields : ∀ (entry : EntryPoint) (s : Session), s.outset.Roomy →
    entry.Yields hooks host s fun backend => backend = w.backend
  given : ∀ hooks' host', w.Agrees hooks hooks' host host' → ∀ (entry : EntryPoint) (s : Session),
    entry.run hooks' host' s = entry.run hooks host s
  providerNames : hooks.bundle = Hooks.standard.bundle → w.backend.providerNames =
    [("meta-access", w.providers.metaAccess.name), ("code-cache", w.providers.codeCache.name),
     ("constant-reflection", w.providers.constantReflection.name),
     ("stack-introspection", w.providers.stackIntrospection.name)]

theorem wired_of_joins {hooks : Hooks} {host : Host} {w : Wiring} (h : w.Joins hooks host) : Wired hooks host w where
  joins := h
  yields _ _ hroomy := yields_iff.mpr ⟨w.backend, h.exit_assembly hroomy, rfl⟩
  given _ _ hagrees entry s := (congrFun (h.run_congr hagrees entry) s).symm
  providerNames := h.providerNames

/-- Where all steps succeed there are such values. And wherever a run returns a backend, it is the one that the bundle
returned for such values. -/
theorem wired_run (hooks : Hooks) (host : Host) :
    (hooks.Succeed host → ∃ w, Wired hooks host w) ∧
    ∀ (entry : EntryPoint) (s : Session) assembled report,
      (entry.run hooks host s).1 = .returned (assembled, report) →
        ∃ w, Wired hooks host w ∧ assembled.backend = w.backend := by
  refine ⟨fun h => ?_, fun entry s assembled report h => ?_⟩
  · obtain ⟨w, hw⟩ := h.exists_joins
    exact ⟨w, wired_of_joins hw⟩
  · obtain ⟨w, hw, hbackend⟩ := Wiring.exists_joins (exit_of_run h)
    exact ⟨w, wired_of_joins hw, hbackend.symm⟩

theorem wired_run_renamed :
    let host : Host := { Host.standalone (Store.ofList [("useCompressedOops", .bool true)]) with
      metaAccess := .done ⟨"code-cache"⟩
      codeCache := fun target registers => .done { name := "meta-access", target, registers } }
    let hooks : Hooks := {
      registerConfig := fun target compressedOops =>
        .done (LoongArch64Registers.toConventions ⟨target, !compressedOops⟩) }
    hooks.Succeed host ∧ createWithReport.Yields hooks host { clock := id } fun backend =>
      backend.target.compressedOops = true ∧ backend.registers.isReserved .s5 = false ∧
        backend.providerNames =
          [("meta-access", "code-cache"), ("code-cache", "meta-access"),
           ("constant-reflection", "host-constant-reflection"),
           ("stack-introspection", "host-stack-introspection")] := by
  intro host hooks
  have hsucceed : hooks.Succeed host := {
    aliases := ⟨_, rfl⟩
    registers := fun _ _ => ⟨_, rfl⟩
    metaAccess := ⟨_, rfl⟩
    codeCache := fun _ _ => ⟨_, rfl⟩
    constantReflection := ⟨_, rfl⟩
    stackIntrospection := ⟨_, rfl⟩
    bundle := fun _ _ _ _ => ⟨_, rfl⟩ }
  obtain ⟨w, hw⟩ := (wired_run hooks host).1 hsucceed
  obtain ⟨assembled, report, hrun, hbackend⟩ := hw.yields createWithReport { clock := id } (by decide)
  have hregisters := Exit.returned.inj hw.joins.registers
  have hmetaAccess := Exit.returned.inj hw.joins.metaAccess
  have hcodeCache := Exit.returned.inj hw.joins.codeCache
  have hconstantReflection := Exit.returned.inj hw.joins.constantReflection
  have hstackIntrospection := Exit.returned.inj hw.joins.stackIntrospection
  have hbundle := Exit.returned.inj hw.joins.backend
  have hoops : w.target.compressedOops = true := hw.joins.compressedOops.trans (by decide)
  refine ⟨hsucceed, assembled, report, hrun, ?_, ?_, ?_⟩
  · rw [hbackend, ← hbundle]
    change w.providers.codeCache.target.compressedOops = true
    rw [← hcodeCache]
    exact hoops
  · rw [hbackend, ← hbundle]
    change w.providers.codeCache.registers.isReserved .s5 = false
    rw [← hcodeCache, ← hregisters, hoops]
    exact LoongArch64Registers.isReserved_eq_false_iff.mpr ⟨by decide, by decide, nofun⟩
  · rw [hbackend, hw.providerNames rfl, ← hmetaAccess, ← hcodeCache, ← hconstantReflection, ← hstackIntrospection]

end EntryPoint

end BackendAssembly
