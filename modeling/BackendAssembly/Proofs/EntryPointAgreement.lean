import BackendAssembly.Proofs.AssemblyCourse

namespace BackendAssembly

def Assembly.scopes (depth : Nat) : List (String × Nat) :=
  [("compute target", depth), ("create providers", depth), ("create RegisterConfig", depth + 1),
   ("create MetaAccess provider", depth + 1), ("create CodeCache provider", depth + 1),
   ("create ConstantReflection provider", depth + 1), ("create StackIntrospection provider", depth + 1),
   ("instantiate backend", depth)]

theorem Assembly.depth_le_of_mem_scopes {name : String} {depth d : Nat} (h : (name, d) ∈ scopes depth) :
    d ≤ depth + 1 := by
  simp only [scopes, List.mem_cons, List.not_mem_nil, Prod.mk.injEq, or_false] at h
  omega

namespace Course

variable {ε α β : Type} {o : Outset} {p q : List (String × Nat)}

def Opens (c : Course ε α) (o : Outset) (p : List (String × Nat)) : Prop :=
  ∀ a, (c o).exit = .returned a → (c o).events.filterMap Event.opened? = p

theorem opens_done (a : α) : (pure a : Course ε α).Opens o [] := fun _ _ => rfl

theorem opens_write {e : Event} (h : e.opened? = none) : (write e : Course ε Unit).Opens o [] := by
  intro _ _
  simp [write, Event.opened?_untimed, h]

theorem opens_takeSafe (step : Step Empty α) : (takeSafe step : Course ε α).Opens o [] := fun _ _ => rfl

theorem opens_create (component : Component) (stage : Stage) (step : Step Refusal α) :
    (create component stage step).Opens o [] := by
  intro a h
  obtain ⟨calls, v | e | text⟩ := step
  · rfl
  · cases h
  · cases h

theorem opens_timed {c : Course ε α} (name : String) (h : c.Opens o.inner p) :
    (timed name c).Opens o ((name, o.depth) :: p) := by
  intro a ha
  obtain ⟨hfits, ha⟩ := exit_timed_eq_returned.mp ha
  rw [opened_timed hfits, h a ha]

theorem opens_bind {c : Course ε α} {d : α → Course ε β} (hc : c.Opens o p) (hd : ∀ a, (d a).Opens o q) :
    (c >>= d).Opens o (p ++ q) := by
  intro b hb
  obtain ⟨a, ha, hb⟩ := exit_bind_eq_returned.mp hb
  change ((c o).andThen fun a => d a o).events.filterMap Event.opened? = p ++ q
  rw [Traced.andThen_returned ha, List.filterMap_append, hc a ha, hd a b hb]

variable (hooks : Hooks) (host : Host)

theorem opens_findTarget (store : Store) : (findTarget hooks store).Opens o [] := by
  refine opens_bind (p := []) (opens_takeSafe _) fun aliases => ?_
  refine opens_bind (p := []) (opens_write rfl) fun _ => ?_
  refine opens_bind (p := []) (opens_write rfl) fun _ => ?_
  exact opens_done _

theorem opens_createProviders (target : Target) (compressedOops : Bool) :
    (createProviders hooks host target compressedOops).Opens o
      [("create RegisterConfig", o.depth), ("create MetaAccess provider", o.depth),
       ("create CodeCache provider", o.depth), ("create ConstantReflection provider", o.depth),
       ("create StackIntrospection provider", o.depth)] := by
  refine opens_bind (p := [_]) (opens_timed _ (opens_create _ _ _)) fun registers => ?_
  refine opens_bind (p := []) (opens_write rfl) fun _ => ?_
  refine opens_bind (p := [_]) (opens_timed _ (opens_create _ _ _)) fun metaAccess => ?_
  refine opens_bind (p := [_]) (opens_timed _ (opens_create _ _ _)) fun codeCache => ?_
  refine opens_bind (p := [_]) (opens_timed _ (opens_create _ _ _)) fun constantReflection => ?_
  refine opens_bind (p := [_]) (opens_timed _ (opens_create _ _ _)) fun stackIntrospection => ?_
  refine opens_bind (p := []) (opens_write rfl) fun _ => ?_
  exact opens_done _

theorem opens_assembly : (assembly hooks host).Opens o (Assembly.scopes o.depth) := by
  refine opens_bind (p := [_]) (opens_timed _ (opens_findTarget hooks host.store)) fun ⟨target, compressedOops, _⟩ => ?_
  refine opens_bind (p := [_, _, _, _, _, _])
    (opens_timed _ (opens_createProviders hooks host target compressedOops)) fun ⟨p, _⟩ => ?_
  refine opens_bind (p := [_]) (opens_timed _ (opens_takeSafe _)) fun backend => ?_
  refine opens_bind (p := []) (opens_write rfl) fun _ => ?_
  refine opens_bind (p := []) (opens_write rfl) fun _ => ?_
  exact opens_done _

/-- From both outsets the course ends in the same way and makes the same calls, and it writes the same if the depths are
the same. -/
structure Alike (c : Course ε α) (o o' : Outset) : Prop where
  exit : (c o).exit = (c o').exit
  calls : (c o).calls = (c o').calls
  events : o.depth = o'.depth → (c o).events = (c o').events

variable {o' : Outset}

theorem alike_const (t : Traced ε α) : Alike (fun _ => t) o o' := ⟨rfl, rfl, fun _ => rfl⟩

theorem alike_bind {c : Course ε α} {d : α → Course ε β} (hc : c.Alike o o') (hd : ∀ a, (d a).Alike o o') :
    (c >>= d).Alike o o' := by
  have hexit := hc.exit
  change Alike (fun o => (c o).andThen fun a => d a o) o o'
  cases h : (c o).exit with
  | returned a =>
    rw [h] at hexit
    have hnext := hd a
    exact {
      exit := by rw [Traced.andThen_returned h, Traced.andThen_returned hexit.symm]; exact hnext.exit
      calls := by
        rw [Traced.andThen_returned h, Traced.andThen_returned hexit.symm, hc.calls, hnext.calls]
      events := fun hdepth => by
        rw [Traced.andThen_returned h, Traced.andThen_returned hexit.symm, hc.events hdepth, hnext.events hdepth] }
  | failed e =>
    rw [h] at hexit
    exact {
      exit := by rw [Traced.andThen_failed h, Traced.andThen_failed hexit.symm]
      calls := by rw [Traced.andThen_failed h, Traced.andThen_failed hexit.symm]; exact hc.calls
      events := fun hdepth => by
        rw [Traced.andThen_failed h, Traced.andThen_failed hexit.symm]
        exact hc.events hdepth }
  | panicked text =>
    rw [h] at hexit
    exact {
      exit := by rw [Traced.andThen_panicked h, Traced.andThen_panicked hexit.symm]
      calls := by rw [Traced.andThen_panicked h, Traced.andThen_panicked hexit.symm]; exact hc.calls
      events := fun hdepth => by
        rw [Traced.andThen_panicked h, Traced.andThen_panicked hexit.symm]
        exact hc.events hdepth }

theorem alike_timed {c : Course ε α} (name : String) (hfits : o.Fits) (hfits' : o'.Fits)
    (h : c.Alike o.inner o'.inner) : (timed name c).Alike o o' where
  exit := by rw [timed_of_fits hfits, timed_of_fits hfits']; exact h.exit
  calls := by rw [timed_of_fits hfits, timed_of_fits hfits']; exact h.calls
  events hdepth := by
    have hinner : o.inner.depth = o'.inner.depth := congrArg Nat.succ hdepth
    rw [timed_of_fits hfits, timed_of_fits hfits', h.events hinner, hdepth]

theorem alike_create (component : Component) (stage : Stage) (step : Step Refusal α) :
    (create component stage step).Alike o o' :=
  alike_const _

theorem alike_findTarget (store : Store) : (findTarget hooks store).Alike o o' := by
  refine alike_bind (alike_const _) fun aliases => ?_
  refine alike_bind (alike_const _) fun _ => ?_
  refine alike_bind (alike_const _) fun _ => ?_
  exact alike_const _

theorem alike_createProviders (hfits : o.Fits) (hfits' : o'.Fits) (target : Target) (compressedOops : Bool) :
    (createProviders hooks host target compressedOops).Alike o o' := by
  refine alike_bind (alike_timed _ hfits hfits' (alike_create _ _ _)) fun registers => ?_
  refine alike_bind (alike_const _) fun _ => ?_
  refine alike_bind (alike_timed _ hfits hfits' (alike_create _ _ _)) fun metaAccess => ?_
  refine alike_bind (alike_timed _ hfits hfits' (alike_create _ _ _)) fun codeCache => ?_
  refine alike_bind (alike_timed _ hfits hfits' (alike_create _ _ _)) fun constantReflection => ?_
  refine alike_bind (alike_timed _ hfits hfits' (alike_create _ _ _)) fun stackIntrospection => ?_
  exact alike_bind (alike_const _) fun _ => alike_const _

theorem alike_assembly (hroomy : o.Roomy) (hroomy' : o'.Roomy) : (assembly hooks host).Alike o o' := by
  refine alike_bind (alike_timed _ hroomy.fits hroomy'.fits (alike_findTarget hooks host.store))
    fun ⟨target, compressedOops, _⟩ => ?_
  refine alike_bind (alike_timed _ hroomy.fits hroomy'.fits (alike_createProviders hooks host hroomy hroomy' _ _))
    fun ⟨p, _⟩ => ?_
  refine alike_bind (alike_timed _ hroomy.fits hroomy'.fits (alike_const _)) fun backend => ?_
  refine alike_bind (alike_const _) fun _ => ?_
  exact alike_bind (alike_const _) fun _ => alike_const _

end Course

namespace EntryPoint

def announcement : EntryPoint → List Event
  | create => [.creating "Backend:loongarch64"]
  | assemble | assembleWithReport | createWithReport => []

def reports : EntryPoint → Bool
  | assembleWithReport | createWithReport => true
  | assemble | create => false

variable (entry : EntryPoint) (hooks : Hooks) (host : Host)

variable (o : Outset)

theorem opens_course : (entry.course hooks host).Opens o (Assembly.scopes o.depth) := by
  cases entry with
  | create => exact Course.opens_bind (p := []) (Course.opens_write rfl) fun _ => Course.opens_assembly hooks host
  | assemble | assembleWithReport | createWithReport => exact Course.opens_assembly hooks host

theorem course_eq : entry.course hooks host o = { Course.assembly hooks host o with
    events := entry.announcement ++ (Course.assembly hooks host o).events } := by
  cases entry <;> rfl

theorem exit_course : (entry.course hooks host o).exit = (Course.assembly hooks host o).exit := by
  rw [course_eq]

variable {entry hooks host} {s t : Session} {assembled : Assembled}

theorem report_run {report : Report} (h : entry.run hooks host s = (.returned (assembled, some report), t)) :
    ∃ total, report =
      .ofBackend assembled.backend.target assembled.backend (t.entries s.logs.length) total := by
  have hreport : ∀ {u : Session}, Assembly.assembleWithReport hooks host s = (.returned (assembled, report), u) →
      ∃ total, report =
        .ofBackend assembled.backend.target assembled.backend (u.entries s.logs.length) total := fun h => by
    obtain ⟨_, _, ⟨⟩, hlog⟩ := Attempt.bind_eq_returned.mp h
    obtain ⟨⟨assembled, total⟩, _, -, hdone⟩ := Attempt.bind_eq_returned.mp hlog
    cases hdone
    exact ⟨total, rfl⟩
  cases entry with
  | assemble | create =>
    obtain ⟨_, _, _, h⟩ := Attempt.bind_eq_returned.mp h
    cases h
  | assembleWithReport | createWithReport =>
    obtain ⟨⟨assembled, report⟩, _, hassembled, h⟩ := Attempt.bind_eq_returned.mp h
    cases h
    exact hreport hassembled

theorem isSome_report_run {report : Option Report}
    (h : entry.run hooks host s = (.returned (assembled, report), t)) : report.isSome = entry.reports := by
  cases entry with
  | assemble | create | assembleWithReport | createWithReport =>
    obtain ⟨_, _, _, h⟩ := Attempt.bind_eq_returned.mp h
    cases h
    rfl

/-- A report agrees with the backend that it comes with, and its stages are those of the log, all of them closed. -/
structure Reports (depth : Nat) (report : Report) (backend : Backend) (entries : List TimedStage) : Prop where
  target : report.target = backend.target
  providers : report.providers = backend.providerNames
  stages : report.stages = entries.map Report.stageTime
  scopes : report.stages.map (fun stage => (stage.name, stage.depth)) = Assembly.scopes depth
  closed : ∀ stage ∈ entries, stage.elapsed.isSome = true

/-- A run of an entry point ended like this, reported these calls, and wrote these events behind its announcement. -/
structure Ran (entry : EntryPoint) (s : Session) (run : Exit BackendError (Assembled × Option Report) × Session)
    (ending : Exit BackendError Backend) (reported : List Call) (said : List Event) : Prop where
  exit : run.1.map (fun r => r.1.backend) = ending
  calls : run.2.calls = s.calls ++ reported
  events : ∃ written, run.2.events = s.events ++ written ∧ written.map Event.untimed = entry.announcement ++ said
  opened : ∀ r, run.1 = .returned r → said.filterMap Event.opened? = Assembly.scopes s.depth
  reports : ∀ assembled report, run.1 = .returned (assembled, report) → report.isSome = entry.reports
  report : ∀ assembled report, run.1 = .returned (assembled, some report) →
    Reports s.depth report assembled.backend (run.2.entries s.logs.length)

theorem reports_run {report : Report} (h : (entry.run hooks host s).1 = .returned (assembled, some report)) :
    Reports s.depth report assembled.backend ((entry.run hooks host s).2.entries s.logs.length) := by
  have hled := entry.run_led hooks host s
  obtain ⟨stages, hstages, hopened, hclosed⟩ := hled.stages
  obtain ⟨total, rfl⟩ := report_run (Prod.ext h rfl)
  have hexit : (entry.course hooks host s.outset).exit = .returned assembled.backend := by
    rw [← hled.exit, h]
    rfl
  rw [hstages, Session.entries_length_logs, List.nil_append]
  exact {
    target := rfl
    providers := rfl
    stages := rfl
    scopes := by
      have hscopes := entry.opens_course hooks host s.outset _ hexit
      rw [← hopened] at hscopes
      exact List.map_map.trans hscopes
    closed := hclosed }

variable (hooks host)

/-- All entry points assemble in the same way: from sessions of one outset they end alike, report the same calls and
write the same but for times and an announcement, and a report tells what the backend tells and which stages there were.
Where two timers can be opened within each other, the outset counts for the depths alone. A factory that is handed a
backend to wrap panics, and nothing has been done by then. -/
theorem agreement_run :
    (∃ (ending : Outset → Exit BackendError Backend) (reported : Outset → List Call) (said : Outset → List Event),
      (∀ (entry : EntryPoint) (s : Session),
        Ran entry s (entry.run hooks host s) (ending s.outset) (reported s.outset) (said s.outset)) ∧
      ∀ o o' : Outset, o.Roomy → o'.Roomy →
        ending o = ending o' ∧ reported o = reported o' ∧ (o.depth = o'.depth → said o = said o')) ∧
    ∀ wrapped s, (Factory.loongArch64 hooks).create host (some wrapped) s =
      (.panicked "Backend:loongarch64 cannot be created on top of an existing host backend", s) := by
  refine ⟨⟨fun o => (Course.assembly hooks host o).exit, fun o => (Course.assembly hooks host o).calls,
    fun o => (Course.assembly hooks host o).events, fun entry s => ?_, fun o o' hroomy hroomy' => ?_⟩, fun _ _ => rfl⟩
  · have hled := entry.run_led hooks host s
    obtain ⟨written, hwritten, huntimed⟩ := hled.events
    exact {
      exit := hled.exit.trans (entry.exit_course hooks host s.outset)
      calls := by rw [hled.calls, entry.course_eq hooks host s.outset]
      events := ⟨written, hwritten, by rw [huntimed, entry.course_eq hooks host s.outset]⟩
      opened := fun r hr => by
        refine Course.opens_assembly hooks host r.1.backend ?_
        rw [← entry.exit_course, ← hled.exit, hr]
        rfl
      reports := fun assembled report h => isSome_report_run (Prod.ext h rfl)
      report := fun assembled report h => reports_run h }
  · have halike := Course.alike_assembly hooks host hroomy hroomy'
    exact ⟨halike.exit, halike.calls, halike.events⟩

theorem agreement_run_nested :
    let alone := assemble.run .standard (.standalone .empty) { clock := id }
    let nested := createWithReport.run .standard (.standalone .empty) { clock := id, depth := 5 }
    alone.1.map (fun r => r.1.backend) = nested.1.map (fun r => r.1.backend) ∧ alone.2.calls = nested.2.calls := by
  obtain ⟨⟨ending, reported, said, hran, halike⟩, -⟩ := agreement_run .standard (.standalone .empty)
  obtain ⟨hending, hreported, -⟩ := halike ⟨0, true⟩ ⟨5, true⟩ (by decide) (by decide)
  have halone := hran assemble { clock := id }
  have hnested := hran createWithReport { clock := id, depth := 5 }
  refine ⟨halone.exit.trans (hending.trans hnested.exit.symm), ?_⟩
  rw [halone.calls, hnested.calls]
  exact congrArg _ hreported

end EntryPoint

end BackendAssembly
