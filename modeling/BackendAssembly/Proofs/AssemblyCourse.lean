import BackendAssembly.Registry
import BackendAssembly.Proofs.Course

namespace BackendAssembly

namespace Course

variable {α : Type} {log : Nat}

def create (component : Component) (stage : Stage) (step : Step Refusal α) : Course BackendError α := fun _ =>
  match step.exit with
  | .returned a => ⟨.returned a, step.calls, [], false⟩
  | .failed e =>
    ⟨.failed (.construction component stage e), step.calls,
      [.refused component stage e, .advanced stage .aborted], false⟩
  | .panicked text => ⟨.panicked text, step.calls, [], false⟩

def findTarget (hooks : Hooks) (store : Store) : Course BackendError (Target × Bool × Stage) := do
  let aliases ← takeSafe hooks.aliases
  write (.advanced .start .capabilitiesTranslated)
  write (.advanced .capabilitiesTranslated .targetBuilt)
  return (.ofStore store aliases, store.isSet Target.useCompressedOops, .targetBuilt)

def createProviders (hooks : Hooks) (host : Host) (target : Target) (compressedOops : Bool) :
    Course BackendError (Assembly.Providers × Stage) := do
  let registers ← timed "create RegisterConfig" <|
    create .registerConfig .targetBuilt (hooks.registerConfig target compressedOops)
  write (.advanced .targetBuilt .registerConfigBuilt)
  let metaAccess ← timed "create MetaAccess provider" <|
    create .metaAccess .registerConfigBuilt (hooks.metaAccess host)
  let codeCache ← timed "create CodeCache provider" <|
    create .codeCache .registerConfigBuilt (hooks.codeCache host target registers)
  let constantReflection ← timed "create ConstantReflection provider" <|
    create .constantReflection .registerConfigBuilt (hooks.constantReflection host)
  let stackIntrospection ← timed "create StackIntrospection provider" <|
    create .stackIntrospection .registerConfigBuilt (hooks.stackIntrospection host)
  write (.advanced .registerConfigBuilt .providersConstructed)
  return (⟨metaAccess, codeCache, constantReflection, stackIntrospection⟩, .providersConstructed)

def assembly (hooks : Hooks) (host : Host) : Course BackendError Backend := do
  let (target, compressedOops, _) ← timed "compute target" (findTarget hooks host.store)
  let (p, _) ← timed "create providers" (createProviders hooks host target compressedOops)
  let backend ← timed "instantiate backend" <|
    takeSafe (hooks.bundle p.metaAccess p.codeCache p.constantReflection p.stackIntrospection)
  write (.advanced .providersConstructed .bundleAssembled)
  write (.assembled backend.target.arch.features.size backend.target.arch.flags.size .zero)
  return backend

theorem follows_create (component : Component) (stage : Stage) (step : Step Refusal α) :
    (create component stage step).Follows log (Assembly.create component stage step) := by
  intro s _
  obtain ⟨calls, a | e | text⟩ := step
  · exact .of_no_timers rfl rfl rfl rfl (List.append_nil _).symm rfl rfl rfl rfl
  · have hevents : (s.events ++ [.refused component stage e]) ++ [.advanced stage .aborted] =
        s.events ++ [.refused component stage e, .advanced stage .aborted] := List.append_assoc ..
    exact .of_no_timers rfl rfl rfl rfl hevents rfl rfl rfl rfl
  · exact .of_no_timers rfl rfl rfl rfl (List.append_nil _).symm rfl rfl rfl rfl

theorem follows_advance (stage next : Stage) {f : Stage → Assembly α} {c : Course BackendError α}
    (hf : c.Follows log (f next)) :
    (write (.advanced stage next) >>= fun _ => c).Follows log (Assembly.advance stage next >>= f) :=
  follows_bind (follows_write rfl rfl) fun _ _ _ => hf

/-- Which object a code cache is does not show. -/
theorem follows_identify {f : CodeCacheId → Assembly α} {c : Course BackendError α} (handed : Option CodeCacheId)
    (codeCache : CodeCache) (hf : ∀ id, c.Follows log (f id)) :
    c.Follows log (Assembly.identify handed codeCache >>= f) := by
  have hnew : c.Follows log (Attempt.ask (fun s => (.made s.made, { s with made := s.made + 1 })) >>= f) :=
    fun s hlog =>
      have h := hf (.made s.made) { s with made := s.made + 1 } hlog
      { h with made := Nat.le_trans (Nat.le_succ s.made) h.made }
  unfold Assembly.identify
  split
  · exact hf _
  · exact hf _
  · exact hnew

theorem follows_findTarget (hooks : Hooks) (store : Store) :
    (findTarget hooks store).Follows log (Assembly.findTarget hooks store .start) := by
  refine follows_bind (follows_takeSafe hooks.aliases) fun aliases _ _ => ?_
  exact follows_advance _ _ (follows_advance _ _ (follows_done _))

theorem follows_createProviders (hooks : Hooks) (host : Host) (target : Target) (compressedOops : Bool) :
    (createProviders hooks host target compressedOops).Follows log ((fun r => (r.1, r.2.2)) <$>
      Assembly.createProviders hooks host target compressedOops .targetBuilt log) := by
  unfold Assembly.createProviders
  simp only [map_bind]
  refine follows_bind (follows_timed _ (follows_create _ _ _)) fun registers _ _ => ?_
  refine follows_advance _ _ ?_
  refine follows_bind (follows_timed _ (follows_create _ _ _)) fun metaAccess _ _ => ?_
  refine follows_bind (follows_timed _ (follows_create _ _ _)) fun codeCache _ _ => ?_
  refine follows_identify none codeCache fun id => ?_
  refine follows_bind (follows_timed _ (follows_create _ _ _)) fun constantReflection _ _ => ?_
  refine follows_bind (follows_timed _ (follows_create _ _ _)) fun stackIntrospection _ _ => ?_
  exact follows_advance _ _ (follows_done _)

variable {o : Outset}

theorem takeSafe_returned {step : Step Empty α} {a : α}
    (h : ((takeSafe step : Course BackendError α) o).exit = .returned a) : step.exit = .returned a := by
  obtain ⟨calls, a' | e | text⟩ := step
  · cases h
    rfl
  · exact e.elim
  · cases h

theorem create_returned {component : Component} {stage : Stage} {step : Step Refusal α} {a : α}
    (h : (create component stage step o).exit = .returned a) : step.exit = .returned a := by
  obtain ⟨calls, a' | e | text⟩ := step
  · cases h
    rfl
  · cases h
  · cases h

theorem timed_create_returned {name : String} {component : Component} {stage : Stage} {step : Step Refusal α} {a : α}
    (h : (timed name (create component stage step) o).exit = .returned a) : step.exit = .returned a :=
  create_returned (exit_timed_eq_returned.mp h).2

theorem findTarget_returned {hooks : Hooks} {store : Store} {target : Target} {compressedOops : Bool} {stage : Stage}
    (h : (findTarget hooks store o).exit = .returned (target, compressedOops, stage)) :
    ∃ aliases, hooks.aliases.exit = .returned aliases ∧ target = .ofStore store aliases ∧
      compressedOops = store.isSet Target.useCompressedOops ∧ stage = .targetBuilt := by
  obtain ⟨aliases, haliases, h⟩ := exit_bind_eq_returned.mp h
  cases h
  exact ⟨aliases, takeSafe_returned haliases, rfl, rfl, rfl⟩

theorem createProviders_returned {hooks : Hooks} {host : Host} {target : Target} {compressedOops : Bool}
    {p : Assembly.Providers} {stage : Stage}
    (h : (createProviders hooks host target compressedOops o).exit = .returned (p, stage)) :
    ∃ registers, (hooks.registerConfig target compressedOops).exit = .returned registers ∧
      (hooks.metaAccess host).exit = .returned p.metaAccess ∧
      (hooks.codeCache host target registers).exit = .returned p.codeCache ∧
      (hooks.constantReflection host).exit = .returned p.constantReflection ∧
      (hooks.stackIntrospection host).exit = .returned p.stackIntrospection ∧ stage = .providersConstructed := by
  unfold createProviders at h
  simp only [exit_bind_eq_returned] at h
  obtain ⟨registers, hregisters, _, _, metaAccess, hmetaAccess, codeCache, hcodeCache, constantReflection,
    hconstantReflection, stackIntrospection, hstackIntrospection, _, _, h⟩ := h
  cases h
  exact ⟨registers, timed_create_returned hregisters, timed_create_returned hmetaAccess,
    timed_create_returned hcodeCache, timed_create_returned hconstantReflection,
    timed_create_returned hstackIntrospection, rfl⟩

theorem follows_runSteps (hooks : Hooks) (host : Host) :
    (assembly hooks host).Follows log ((fun r => r.1.backend) <$> Assembly.runSteps hooks host log) := by
  unfold Assembly.runSteps
  rw [map_bind]
  refine follows_readClock fun start => ?_
  simp only [map_bind]
  refine follows_bind (follows_timed _ (follows_findTarget hooks host.store))
    fun ⟨target, compressedOops, stage⟩ o h => ?_
  obtain ⟨_, _, _, _, rfl⟩ := findTarget_returned (exit_timed_eq_returned.mp h).2
  have hproviders : (timed "create providers" (createProviders hooks host target compressedOops)).Follows log
      ((fun r => (r.1, r.2.2)) <$> Assembly.recorded log "create providers"
        (Assembly.createProviders hooks host target compressedOops .targetBuilt log)) := by
    rw [Assembly.recorded, Session.map_timed]
    exact follows_timed _ (follows_createProviders hooks host target compressedOops)
  refine follows_bind_view (fun r => (r.1, r.2.2)) hproviders fun ⟨p, handed, stage⟩ o h => ?_
  obtain ⟨_, _, _, _, _, _, hstage⟩ := createProviders_returned (exit_timed_eq_returned.mp h).2
  cases hstage
  refine follows_bind (follows_timed _ (follows_takeSafe _)) fun backend _ _ => ?_
  refine follows_identify (some handed) backend.codeCache fun id => ?_
  refine follows_advance _ _ ?_
  refine follows_readClock fun stop => ?_
  refine follows_bind (follows_write rfl rfl) fun _ _ _ => ?_
  exact follows_done _

/-- If the line of a timer cannot be laid out, then there is this reason for it, and the course ends in that panic. -/
def Overruns (c : Course BackendError α) (o : Outset) (deep : Prop) : Prop :=
  (c o).overrun = true → deep ∧ (c o).exit = .panicked tooWide

section

variable {β : Type} {deep : Prop}

theorem overruns_of_not {c : Course BackendError α} (h : (c o).overrun = false) : c.Overruns o deep := fun htrue =>
  absurd htrue (Bool.eq_false_iff.mp h)

theorem overruns_bind {c : Course BackendError α} {d : α → Course BackendError β} (hc : c.Overruns o deep)
    (hd : ∀ a, (d a).Overruns o deep) : (c >>= d).Overruns o deep := by
  change ((c o).andThen fun a => d a o).overrun = true → deep ∧ ((c o).andThen fun a => d a o).exit = _
  cases hexit : (c o).exit with
  | returned a =>
    rw [Traced.andThen_returned hexit]
    exact hd a
  | failed e =>
    rw [Traced.andThen_failed hexit]
    exact fun h => nomatch hexit.symm.trans (hc h).2
  | panicked text =>
    rw [Traced.andThen_panicked hexit]
    intro h
    obtain ⟨hdeep, hpanic⟩ := hc h
    exact ⟨hdeep, congrArg Exit.panicked (Exit.panicked.inj (hexit.symm.trans hpanic))⟩

theorem overruns_timed {c : Course BackendError α} (name : String) (hdeep : ¬o.Fits → deep)
    (h : c.Overruns o.inner deep) : (timed name c).Overruns o deep := by
  unfold Overruns
  by_cases hfits : o.Fits
  · rw [timed_of_fits hfits]
    exact h
  · rw [timed_of_not_fits hfits]
    exact fun _ => ⟨hdeep hfits, rfl⟩

theorem overruns_create (component : Component) (stage : Stage) (step : Step Refusal α) :
    (create component stage step).Overruns o deep := by
  obtain ⟨calls, a | e | text⟩ := step <;> exact overruns_of_not rfl

theorem overruns_findTarget (hooks : Hooks) (store : Store) : (findTarget hooks store).Overruns o deep := by
  refine overruns_bind (overruns_of_not rfl) fun aliases => ?_
  refine overruns_bind (overruns_of_not rfl) fun _ => ?_
  exact overruns_bind (overruns_of_not rfl) fun _ => overruns_of_not rfl

theorem overruns_createProviders (hooks : Hooks) (host : Host) (target : Target) (compressedOops : Bool)
    (hdeep : ¬o.Fits → deep) : (createProviders hooks host target compressedOops).Overruns o deep := by
  refine overruns_bind (overruns_timed _ hdeep (overruns_create _ _ _)) fun registers => ?_
  refine overruns_bind (overruns_of_not rfl) fun _ => ?_
  refine overruns_bind (overruns_timed _ hdeep (overruns_create _ _ _)) fun metaAccess => ?_
  refine overruns_bind (overruns_timed _ hdeep (overruns_create _ _ _)) fun codeCache => ?_
  refine overruns_bind (overruns_timed _ hdeep (overruns_create _ _ _)) fun constantReflection => ?_
  refine overruns_bind (overruns_timed _ hdeep (overruns_create _ _ _)) fun stackIntrospection => ?_
  exact overruns_bind (overruns_of_not rfl) fun _ => overruns_of_not rfl

theorem overruns_assembly (hooks : Hooks) (host : Host) : (assembly hooks host).Overruns o (¬o.Roomy) := by
  have hdeep : ¬o.Fits → ¬o.Roomy := fun h hroomy => h hroomy.fits
  refine overruns_bind (overruns_timed _ hdeep (overruns_findTarget hooks host.store))
    fun ⟨target, compressedOops, _⟩ => ?_
  refine overruns_bind (overruns_timed _ hdeep (overruns_createProviders hooks host _ _ id)) fun ⟨p, _⟩ => ?_
  refine overruns_bind (overruns_timed _ hdeep (overruns_of_not rfl)) fun backend => ?_
  refine overruns_bind (overruns_of_not rfl) fun _ => ?_
  exact overruns_bind (overruns_of_not rfl) fun _ => overruns_of_not rfl

end

end Course

theorem Traced.Led.of_newLog {c : Traced BackendError α} {s t : Session} {exit : Exit BackendError α}
    (h : c.Led s.logs.length s.newLog.2 exit t) : c.Led s.logs.length s exit t := by
  have hentries : ∀ other, s.newLog.2.entries other = s.entries other := fun other => by
    change (s.logs ++ [[]])[other]?.getD [] = s.logs[other]?.getD []
    rcases Nat.lt_trichotomy other s.logs.length with hlt | rfl | hgt
    · rw [List.getElem?_append_left hlt]
    · rw [List.getElem?_concat_length, List.getElem?_eq_none (Nat.le_refl _)]
      rfl
    · rw [List.getElem?_eq_none (Nat.le_of_lt hgt), List.getElem?_eq_none]
      rw [List.length_append]
      exact hgt
  have hlogs : s.logs.length ≤ (s.logs ++ [[]]).length := by
    rw [List.length_append]
    exact Nat.le_add_right ..
  exact { h with
    stages := hentries s.logs.length ▸ h.stages
    others := fun other hne => (h.others other hne).trans (hentries other)
    logs := Nat.le_trans hlogs h.logs }

/-- The ways to have a backend assembled: by the steps alone, or by a factory, and with a report or without one. -/
inductive EntryPoint where
  | assemble
  | assembleWithReport
  | create
  | createWithReport
  deriving DecidableEq, Repr

namespace EntryPoint

def run (entry : EntryPoint) (hooks : Hooks) (host : Host) : Assembly (Assembled × Option Report) :=
  match entry with
  | assemble => do return (← Assembly.assemble hooks host, none)
  | assembleWithReport => do
    let (assembled, report) ← Assembly.assembleWithReport hooks host
    return (assembled, some report)
  | create => do return (← (Factory.loongArch64 hooks).create host none, none)
  | createWithReport => do
    let (assembled, report) ← (Factory.loongArch64 hooks).createWithReport host
    return (assembled, some report)

def course (entry : EntryPoint) (hooks : Hooks) (host : Host) : Course BackendError Backend :=
  match entry with
  | create => Course.write (.creating (Factory.loongArch64 hooks).label) >>= fun _ => .assembly hooks host
  | assemble | assembleWithReport | createWithReport => .assembly hooks host

variable {α : Type} {hooks : Hooks} {host : Host} {s : Session}

/-- What is done after the steps may look at the session, but it leaves the session alone and keeps the backend. -/
theorem andThen_runSteps_led {log : Nat} (hlog : log < s.logs.length) {f : Assembled × Duration → Assembly α}
    {backend : α → Backend} (hf : ∀ r t, ∃ a, f r t = (.returned a, t) ∧ backend a = r.1.backend) :
    (Course.assembly hooks host s.outset).Led log s (((Assembly.runSteps hooks host log >>= f) s).1.map backend)
      ((Assembly.runSteps hooks host log >>= f) s).2 := by
  have h := Course.follows_runSteps hooks host s hlog
  change (Course.assembly hooks host s.outset).Led log s (Attempt.andThen (Assembly.runSteps hooks host log) _ s).1
    (Attempt.andThen (Assembly.runSteps hooks host log) _ s).2 at h
  change (Course.assembly hooks host s.outset).Led log s
    ((Attempt.andThen (Assembly.runSteps hooks host log) f s).1.map backend)
    (Attempt.andThen (Assembly.runSteps hooks host log) f s).2
  rcases hrun : Assembly.runSteps hooks host log s with ⟨r | e | text, t⟩
  · obtain ⟨a, ha, hbackend⟩ := hf r t
    rw [Attempt.andThen_returned hrun] at h ⊢
    rw [ha]
    change (Course.assembly hooks host s.outset).Led log s (.returned (backend a)) t
    rw [hbackend]
    exact h
  · rw [Attempt.andThen_failed hrun] at h ⊢
    exact h
  · rw [Attempt.andThen_panicked hrun] at h ⊢
    exact h

theorem led_of_steps {x : Assembly α} {f : Nat → Assembled × Duration → Assembly α} {backend : α → Backend}
    (hx : x = Attempt.ask Session.newLog >>= fun log => Assembly.runSteps hooks host log >>= f log)
    (hf : ∀ log r t, ∃ a, f log r t = (.returned a, t) ∧ backend a = r.1.backend) :
    (Course.assembly hooks host s.outset).Led s.logs.length s ((x s).1.map backend) (x s).2 := by
  subst hx
  have hlog : s.logs.length < s.newLog.2.logs.length := by
    change s.logs.length < (s.logs ++ [[]]).length
    rw [List.length_append]
    exact Nat.lt_succ_self _
  exact Traced.Led.of_newLog (andThen_runSteps_led hlog (hf _))

theorem assemble_led (hooks : Hooks) (host : Host) (s : Session) :
    let x : Assembly (Assembled × Option Report) := do return (← Assembly.assemble hooks host, none)
    (Course.assembly hooks host s.outset).Led s.logs.length s ((x s).1.map fun r => r.1.backend) (x s).2 := by
  refine led_of_steps (f := fun _ r => pure (r.1, none)) ?_ fun _ r _ => ⟨(r.1, none), rfl, rfl⟩
  simp only [Assembly.assemble, bind_assoc, pure_bind]

theorem assembleWithReport_led (hooks : Hooks) (host : Host) (s : Session) :
    let x : Assembly (Assembled × Option Report) := do
      let (assembled, report) ← Assembly.assembleWithReport hooks host
      return (assembled, some report)
    (Course.assembly hooks host s.outset).Led s.logs.length s ((x s).1.map fun r => r.1.backend) (x s).2 := by
  let report (log : Nat) (r : Assembled × Duration) (t : Session) :=
    Report.ofBackend r.1.backend.target r.1.backend (t.entries log) r.2
  refine led_of_steps (f := fun log r => Attempt.ask fun t => ((r.1, some (report log r t)), t)) ?_
    fun log r t => ⟨(r.1, some (report log r t)), rfl, rfl⟩
  simp only [Assembly.assembleWithReport, bind_assoc, pure_bind]
  rfl

/-- Whatever the way, the session takes the course of the steps, in a log of its own. -/
theorem run_led (entry : EntryPoint) (hooks : Hooks) (host : Host) (s : Session) :
    (entry.course hooks host s.outset).Led s.logs.length s ((entry.run hooks host s).1.map fun r => r.1.backend)
      (entry.run hooks host s).2 := by
  cases entry with
  | assemble => exact assemble_led hooks host s
  | assembleWithReport => exact assembleWithReport_led hooks host s
  | createWithReport => exact assembleWithReport_led hooks host s
  | create =>
    let creating := Event.creating (Factory.loongArch64 hooks).label
    let said : Course BackendError Unit := .write creating
    have hwrite : (said s.outset).Led s.logs.length s (.returned ()) (s.write creating) :=
      Course.led_write rfl rfl s
    have hsteps := assemble_led hooks host (s.write creating)
    exact hwrite.andThen_returned (f := fun _ => Course.assembly hooks host s.outset) hsteps

theorem depth_run_cases (entry : EntryPoint) (hooks : Hooks) (host : Host) (s : Session) :
    (entry.run hooks host s).2.depth = s.depth ∨ ¬s.outset.Roomy ∧
      (entry.run hooks host s).1 = .panicked tooWide ∧ (entry.run hooks host s).2.depth = s.depth + 1 := by
  have hled := entry.run_led hooks host s
  have hoverruns : (entry.course hooks host).Overruns s.outset (¬s.outset.Roomy) := by
    cases entry with
    | create =>
      exact Course.overruns_bind (Course.overruns_of_not rfl) fun _ => Course.overruns_assembly hooks host
    | assemble | assembleWithReport | createWithReport => exact Course.overruns_assembly hooks host
  cases hoverrun : (entry.course hooks host s.outset).overrun with
  | false =>
    have hdepth := hled.depth
    rw [Traced.lost_of_not_overrun hoverrun] at hdepth
    exact .inl hdepth
  | true =>
    obtain ⟨hdeep, hpanic⟩ := hoverruns hoverrun
    have hdepth := hled.depth
    rw [Traced.lost, hpanic, hoverrun] at hdepth
    refine .inr ⟨hdeep, ?_, hdepth⟩
    have hexit := hled.exit.trans hpanic
    cases hrun : (entry.run hooks host s).1 with
    | returned r => rw [hrun] at hexit; cases hexit
    | failed e => rw [hrun] at hexit; cases hexit
    | panicked text => rw [hrun] at hexit; exact congrArg Exit.panicked (Exit.panicked.inj hexit)

end EntryPoint

end BackendAssembly
