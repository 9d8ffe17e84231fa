import BackendAssembly.Proofs.AssembledBackend

namespace BackendAssembly

def Report.untimed (report : Report) : Report :=
  { report with
    stages := report.stages.map fun stage => { stage with elapsed := .zero }
    total := .zero }

def Report.scoped (backend : Backend) (depth : Nat) : Report where
  architecture := LoongArch64.name
  target := backend.target
  providers := backend.providerNames
  stages := (Assembly.scopes depth).map fun (name, depth) => ⟨name, depth, .zero⟩
  total := .zero

def CodeCache.IsStandalone (codeCache : CodeCache) : Prop :=
  ∃ store target registers, ((Host.standalone store).codeCache target registers).exit = .returned codeCache

theorem CodeCache.IsStandalone.provenance {codeCache : CodeCache} (h : codeCache.IsStandalone) :
    codeCache.provenance = .made := by
  obtain ⟨store, target, registers, h⟩ := h
  cases h
  rfl

theorem Course.assembly_returned {hooks : Hooks} {host : Host} {o : Outset} {backend : Backend}
    (h : (assembly hooks host o).exit = .returned backend) :
    ∃ aliases registers, ∃ p : Assembly.Providers, hooks.aliases.exit = .returned aliases ∧
      (hooks.codeCache host (.ofStore host.store aliases) registers).exit = .returned p.codeCache ∧
      (hooks.bundle p.metaAccess p.codeCache p.constantReflection p.stackIntrospection).exit = .returned backend := by
  obtain ⟨⟨target, compressedOops, _⟩, htarget, h⟩ := exit_bind_eq_returned.mp h
  obtain ⟨aliases, haliases, rfl, -, -⟩ := findTarget_returned (exit_timed_eq_returned.mp htarget).2
  obtain ⟨⟨p, _⟩, hproviders, h⟩ := exit_bind_eq_returned.mp h
  obtain ⟨registers, -, -, hcodeCache, -⟩ := createProviders_returned (exit_timed_eq_returned.mp hproviders).2
  obtain ⟨made, hbundle, h⟩ := exit_bind_eq_returned.mp h
  cases h
  exact ⟨aliases, registers, p, haliases, hcodeCache, takeSafe_returned (exit_timed_eq_returned.mp hbundle).2⟩

namespace Assembly

/-- The identity is that of a code cache that was made when the count of those that were made rose from one number to
another, or of one that is kept. -/
inductive Identifies (before after : Nat) (codeCache : CodeCache) (id : CodeCacheId) : Prop where
  | made {number : Nat} (hprovenance : ∀ key, codeCache.provenance ≠ .kept key) (hid : id = .made number)
    (hbefore : before ≤ number) (hafter : number < after) : Identifies before after codeCache id
  | kept {key : Nat} (hprovenance : codeCache.provenance = .kept key) (hid : id = .kept key) (hle : before ≤ after) :
    Identifies before after codeCache id

theorem Identifies.le {before after : Nat} {codeCache : CodeCache} {id : CodeCacheId}
    (h : Identifies before after codeCache id) : before ≤ after := by
  cases h with
  | made _ _ hbefore hafter => exact Nat.le_of_lt (Nat.lt_of_le_of_lt hbefore hafter)
  | kept _ _ hle => exact hle

variable {α : Type} {log : Nat} {s t : Session}

theorem identifies_identify {before : Nat} {handed : Option CodeCacheId} {codeCache : CodeCache} {id : CodeCacheId}
    (hhanded : ∀ number, handed = some (.made number) → before ≤ number ∧ number < s.made) (hle : before ≤ s.made)
    (h : identify handed codeCache s = (.returned id, t)) : Identifies before t.made codeCache id := by
  generalize hx : identify handed codeCache = x at h
  unfold identify at hx
  split at hx
  next key hprovenance =>
    cases hx
    cases h
    exact .kept hprovenance rfl hle
  next number hprovenance =>
    cases hx
    cases h
    obtain ⟨hbefore, hafter⟩ := hhanded number rfl
    exact .made (fun key hkey => nomatch hprovenance.symm.trans hkey) rfl hbefore hafter
  next hkept _ =>
    cases hx
    cases h
    exact .made hkept rfl hle (Nat.lt_succ_self s.made)

theorem recorded_returned {x : Assembly α} {name : String} {a : α} (h : recorded log name x s = (.returned a, t)) :
    ∃ u v, x u = (.returned a, v) ∧ u.made = s.made ∧ v.made = t.made := by
  by_cases hfits : s.outset.Fits
  · rw [recorded, Session.timed_of_fits hfits, Prod.mk.injEq] at h
    obtain ⟨hexit, rfl⟩ := h
    exact ⟨_, _, Prod.ext hexit rfl, Session.made_startTimer .., (Session.made_closeTimer ..).symm⟩
  · rw [recorded, Session.timed_of_not_fits hfits] at h
    cases h

theorem made_recorded_create {name : String} {component : Component} {stage : Stage} {step : Step Refusal α} {a : α}
    (h : recorded log name (create component stage step) s = (.returned a, t)) : t.made = s.made := by
  obtain ⟨u, v, hcreate, hu, hv⟩ := recorded_returned h
  obtain ⟨calls, a | e | text⟩ := step
  · cases hcreate
    exact hv.symm.trans hu
  · cases hcreate
  · cases hcreate

theorem made_takeSafe {step : Step Empty α} {a : α}
    (h : (Session.takeSafe step : Assembly α) s = (.returned a, t)) : t.made = s.made := by
  obtain ⟨calls, a | e | text⟩ := step
  · cases h
    rfl
  · exact e.elim
  · cases h

theorem made_advance {stage next result : Stage} (h : advance stage next s = (.returned result, t)) :
    t.made = s.made := by
  cases h
  rfl

variable {hooks : Hooks} {host : Host}

theorem made_findTarget {stage : Stage} {result : Target × Bool × Stage}
    (h : findTarget hooks host.store stage s = (.returned result, t)) : t.made = s.made := by
  obtain ⟨_, u, haliases, h⟩ := Attempt.bind_eq_returned.mp h
  have hmade : u.made = s.made := made_takeSafe haliases
  cases h
  exact hmade

theorem identifies_createProviders {target : Target} {compressedOops : Bool} {stage stage' : Stage} {p : Providers}
    {id : CodeCacheId}
    (h : createProviders hooks host target compressedOops stage log s = (.returned (p, id, stage'), t)) :
    Identifies s.made t.made p.codeCache id := by
  obtain ⟨_, s₁, h₁, h⟩ := Attempt.bind_eq_returned.mp h
  obtain ⟨_, s₂, h₂, h⟩ := Attempt.bind_eq_returned.mp h
  obtain ⟨_, s₃, h₃, h⟩ := Attempt.bind_eq_returned.mp h
  obtain ⟨_, s₄, h₄, h⟩ := Attempt.bind_eq_returned.mp h
  obtain ⟨id, s₅, hidentify, h⟩ := Attempt.bind_eq_returned.mp h
  obtain ⟨_, s₆, h₆, h⟩ := Attempt.bind_eq_returned.mp h
  obtain ⟨_, s₇, h₇, h⟩ := Attempt.bind_eq_returned.mp h
  obtain ⟨_, s₈, h₈, h⟩ := Attempt.bind_eq_returned.mp h
  cases h
  have hbefore : s₄.made = s.made := by
    rw [made_recorded_create h₄, made_recorded_create h₃, made_advance h₂, made_recorded_create h₁]
  have hafter : t.made = s₅.made := by
    rw [made_advance h₈, made_recorded_create h₇, made_recorded_create h₆]
  rw [hafter, ← hbefore]
  have hnone : ∀ number, (none : Option CodeCacheId) = some (.made number) →
      s₄.made ≤ number ∧ number < s₄.made := nofun
  exact identifies_identify hnone (Nat.le_refl _) hidentify

theorem identifies_runSteps {assembled : Assembled} {total : Duration}
    (h : runSteps hooks host log s = (.returned (assembled, total), t)) :
    Identifies s.made t.made assembled.backend.codeCache assembled.codeCacheId := by
  obtain ⟨_, s₁, h₁, h⟩ := Attempt.bind_eq_returned.mp h
  obtain ⟨⟨target, compressedOops, stage⟩, s₂, htarget, h⟩ := Attempt.bind_eq_returned.mp h
  obtain ⟨⟨p, handed, stage⟩, s₃, hproviders, h⟩ := Attempt.bind_eq_returned.mp h
  obtain ⟨backend, s₄, hbundle, h⟩ := Attempt.bind_eq_returned.mp h
  obtain ⟨id, s₅, hidentify, h⟩ := Attempt.bind_eq_returned.mp h
  cases h
  cases h₁
  obtain ⟨u, v, hfind, hu, hv⟩ := recorded_returned htarget
  have hstart : s₂.made = s.made := (hv.symm.trans (made_findTarget hfind)).trans hu
  obtain ⟨u, v, hcreate, hu, hv⟩ := recorded_returned hproviders
  have hhanded := identifies_createProviders hcreate
  rw [hu, hv, hstart] at hhanded
  obtain ⟨u, v, htake, hu, hv⟩ := recorded_returned hbundle
  have hbundled : s₄.made = s₃.made := (hv.symm.trans (made_takeSafe htake)).trans hu
  rw [← hbundled] at hhanded
  have hnumber : ∀ number, some handed = some (.made number) → s.made ≤ number ∧ number < s₄.made := by
    rintro number ⟨⟩
    cases hhanded with
    | made _ hid hbefore hafter =>
      cases hid
      exact ⟨hbefore, hafter⟩
    | kept _ hid _ => cases hid
  -- What follows the identification makes nothing more.
  have hidentifies := identifies_identify hnumber hhanded.le hidentify
  exact hidentifies

end Assembly

namespace EntryPoint

variable {entry : EntryPoint} {hooks : Hooks} {host : Host} {s t : Session} {assembled : Assembled}

theorem untimed_report_run {report : Report}
    (h : entry.run hooks host s = (.returned (assembled, some report), t)) :
    report.untimed = .scoped assembled.backend s.depth := by
  have hscopes : report.stages.map (fun stage => (stage.name, stage.depth)) = Assembly.scopes s.depth :=
    (reports_run (congrArg Prod.fst h)).scopes
  obtain ⟨total, rfl⟩ := report_run h
  rw [Report.scoped, ← hscopes, List.map_map]
  rfl

theorem identifies_assemble (h : Assembly.assemble hooks host s = (.returned assembled, t)) :
    Assembly.Identifies s.made t.made assembled.backend.codeCache assembled.codeCacheId := by
  obtain ⟨_, _, ⟨⟩, h⟩ := Attempt.bind_eq_returned.mp h
  obtain ⟨⟨assembled, total⟩, _, hsteps, h⟩ := Attempt.bind_eq_returned.mp h
  have hidentifies := Assembly.identifies_runSteps hsteps
  cases h
  exact hidentifies

theorem identifies_assembleWithReport {report : Report}
    (h : Assembly.assembleWithReport hooks host s = (.returned (assembled, report), t)) :
    Assembly.Identifies s.made t.made assembled.backend.codeCache assembled.codeCacheId := by
  obtain ⟨_, _, ⟨⟩, h⟩ := Attempt.bind_eq_returned.mp h
  obtain ⟨⟨assembled, total⟩, _, hsteps, h⟩ := Attempt.bind_eq_returned.mp h
  have hidentifies := Assembly.identifies_runSteps hsteps
  cases h
  exact hidentifies

theorem identifies_run {report : Option Report} (h : entry.run hooks host s = (.returned (assembled, report), t)) :
    Assembly.Identifies s.made t.made assembled.backend.codeCache assembled.codeCacheId := by
  cases entry with
  | assemble =>
    obtain ⟨_, _, hrun, h⟩ := Attempt.bind_eq_returned.mp h
    cases h
    exact identifies_assemble hrun
  | create =>
    obtain ⟨_, _, hrun, h⟩ := Attempt.bind_eq_returned.mp h
    cases h
    obtain ⟨_, _, ⟨⟩, hrun⟩ := Attempt.bind_eq_returned.mp hrun
    have hidentifies := identifies_assemble hrun
    exact hidentifies
  | assembleWithReport | createWithReport =>
    obtain ⟨_, _, hrun, h⟩ := Attempt.bind_eq_returned.mp h
    cases h
    exact identifies_assembleWithReport hrun

end EntryPoint

/-- A request for a backend. A factory that is asked for a backend alone can be handed one to wrap. -/
structure Request where
  entry : EntryPoint
  hooks : Hooks
  host : Host
  wrapped : Option Backend := none

/-- What shows of a run: how it ended, which calls it reported and what it wrote. Times do not count, nor does which of
the session's runs it was. -/
@[ext]
structure Shown where
  exit : Exit BackendError (Backend × Option Report)
  calls : List Call
  events : List Event

namespace Request

def run (r : Request) : Assembly (Assembled × Option Report) :=
  match r.entry with
  | .create => do return (← (Factory.loongArch64 r.hooks).create r.host r.wrapped, none)
  | entry => entry.run r.hooks r.host

def course (r : Request) : Course BackendError Backend :=
  match r.entry, r.wrapped with
  | .create, some _ => fun _ =>
    ⟨.panicked "Backend:loongarch64 cannot be created on top of an existing host backend", [], [], false⟩
  | entry, _ => entry.course r.hooks r.host

def shows (r : Request) (s : Session) : Shown :=
  let (exit, t) := r.run s
  { exit := exit.map fun (assembled, report) => (assembled.backend, report.map Report.untimed)
    calls := t.calls.drop s.calls.length
    events := (t.events.drop s.events.length).map Event.untimed }

structure Run where
  request : Request
  start : Session

def Run.ending (run : Run) : Exit BackendError (Assembled × Option Report) :=
  (run.request.run run.start).1

def Run.shows (run : Run) : Shown :=
  run.request.shows run.start

def after (rs : List Request) (s : Session) : Session :=
  rs.foldl (fun s r => (r.run s).2) s

def runs : List Request → Session → List Run
  | [], _ => []
  | r :: rs, s => ⟨r, s⟩ :: runs rs (r.run s).2

/-- The code cache of every backend that the request may yield is the one that a host over the store alone makes. -/
structure OnStandalone (r : Request) : Prop where
  codeCache : ∀ target registers codeCache, (r.hooks.codeCache r.host target registers).exit = .returned codeCache →
    ((Host.standalone r.host.store).codeCache target registers).exit = .returned codeCache
  bundle : ∀ metaAccess codeCache constantReflection stackIntrospection backend,
    (r.hooks.bundle metaAccess codeCache constantReflection stackIntrospection).exit = .returned backend →
      backend.codeCache = codeCache

variable {r : Request} {s : Session} {rs : List Request}

/-- Only a factory that is handed a backend to wrap does not do what its entry point does: it panics at once. -/
theorem run_cases (r : Request) :
    (r.run = r.entry.run r.hooks r.host ∧ r.course = r.entry.course r.hooks r.host) ∨
      ∃ text, r.run = .panic text ∧ r.course = fun _ => ⟨.panicked text, [], [], false⟩ := by
  obtain ⟨entry, hooks, host, wrapped⟩ := r
  cases entry with
  | create =>
    cases wrapped with
    | none => exact .inl ⟨rfl, rfl⟩
    | some backend => exact .inr ⟨_, rfl, rfl⟩
  | assemble | assembleWithReport | createWithReport => exact .inl ⟨rfl, rfl⟩

theorem run_led (r : Request) (s : Session) :
    (r.course s.outset).Led s.logs.length s ((r.run s).1.map fun result => result.1.backend) (r.run s).2 := by
  obtain ⟨hrun, hcourse⟩ | ⟨text, hrun, hcourse⟩ := r.run_cases
  · rw [hrun, hcourse]
    exact r.entry.run_led r.hooks r.host s
  · rw [hrun, hcourse]
    exact .of_no_timers rfl (List.append_nil _).symm rfl rfl (List.append_nil _).symm rfl rfl rfl rfl

theorem depth_cases (r : Request) (s : Session) : (r.run s).2.depth = s.depth ∨ ¬s.outset.Roomy ∧
    (r.run s).1 = .panicked tooWide ∧ (r.run s).2.depth = s.depth + 1 := by
  obtain ⟨hrun, -⟩ | ⟨text, hrun, -⟩ := r.run_cases
  · rw [hrun]
    exact r.entry.depth_run_cases r.hooks r.host s
  · rw [hrun]
    exact .inl rfl

theorem outset_run {r : Request} {s : Session} (h : s.outset.Roomy) : (r.run s).2.outset = s.outset := by
  have hdepth := (r.depth_cases s).resolve_right fun hdeep => hdeep.1 h
  rw [Session.outset, hdepth, (r.run_led s).debug, Session.outset]

theorem run_returned {result : Assembled × Option Report} (h : (r.run s).1 = .returned result) :
    (r.entry.run r.hooks r.host s).1 = .returned result ∧ (r.run s).2 = (r.entry.run r.hooks r.host s).2 := by
  obtain ⟨hrun, -⟩ | ⟨text, hrun, -⟩ := r.run_cases
  · rw [hrun] at h ⊢
    exact ⟨h, rfl⟩
  · rw [hrun] at h
    cases h

theorem exit_shows (r : Request) (s : Session) :
    (r.shows s).exit = (r.course s.outset).exit.map fun backend =>
      (backend, if r.entry.reports then some (.scoped backend s.depth) else none) := by
  have hexit := (r.run_led s).exit
  rw [← hexit]
  change (r.run s).1.map _ = ((r.run s).1.map _).map _
  cases hrun : (r.run s).1 with
  | failed e => rfl
  | panicked text => rfl
  | returned result =>
    obtain ⟨assembled, report⟩ := result
    obtain ⟨hentry, -⟩ := run_returned hrun
    have hsome := EntryPoint.isSome_report_run (Prod.ext hentry rfl)
    cases report with
    | none =>
      rw [← hsome]
      rfl
    | some report =>
      have huntimed := EntryPoint.untimed_report_run (Prod.ext hentry rfl)
      rw [← hsome]
      change Exit.returned (assembled.backend, some report.untimed) = _
      rw [huntimed]
      rfl

theorem calls_shows (r : Request) (s : Session) : (r.shows s).calls = (r.course s.outset).calls := by
  change (r.run s).2.calls.drop s.calls.length = _
  rw [(r.run_led s).calls, List.drop_left]

theorem events_shows (r : Request) (s : Session) : (r.shows s).events = (r.course s.outset).events := by
  obtain ⟨events, hevents, huntimed⟩ := (r.run_led s).events
  change ((r.run s).2.events.drop s.events.length).map Event.untimed = _
  rw [hevents, List.drop_left, huntimed]

theorem shows_eq_of_outset {s t : Session} (h : s.outset = t.outset) : r.shows s = r.shows t := by
  have hdepth : s.depth = t.depth := congrArg Outset.depth h
  have hexit : (r.shows s).exit = (r.shows t).exit := by rw [exit_shows, exit_shows, h, hdepth]
  have hcalls : (r.shows s).calls = (r.shows t).calls := by rw [calls_shows, calls_shows, h]
  have hevents : (r.shows s).events = (r.shows t).events := by rw [events_shows, events_shows, h]
  exact Shown.ext hexit hcalls hevents

theorem after_cons (r : Request) (rs : List Request) (s : Session) :
    after (r :: rs) s = after rs (r.run s).2 := rfl

theorem outset_after (rs : List Request) {s : Session} (h : s.outset.Roomy) : (after rs s).outset = s.outset := by
  induction rs generalizing s with
  | nil => rfl
  | cons r rs ih =>
    have houtset := outset_run (r := r) h
    rw [after_cons, ih (by rwa [houtset]), houtset]

theorem outset_of_mem_runs {run : Run} (hroomy : s.outset.Roomy) (h : run ∈ runs rs s) :
    run.start.outset = s.outset := by
  induction rs generalizing s with
  | nil => cases h
  | cons r rs ih =>
    rcases List.mem_cons.mp h with rfl | h
    · rfl
    · have houtset := outset_run (r := r) hroomy
      rw [ih (by rwa [houtset]) h, houtset]

theorem request_runs (rs : List Request) (s : Session) : (runs rs s).map Run.request = rs := by
  induction rs generalizing s with
  | nil => rfl
  | cons r rs ih => rw [runs, List.map_cons, ih]

/-- A run in a row shows the same as it does alone in any session of that outset. -/
theorem shows_runs {s t : Session} (hroomy : s.outset.Roomy) (h : t.outset = s.outset) :
    (runs rs s).map Run.shows = rs.map fun r => r.shows t := by
  have heq : (runs rs s).map Run.shows = (runs rs s).map fun run => run.request.shows t :=
    List.map_congr_left fun run hrun => shows_eq_of_outset ((outset_of_mem_runs hroomy hrun).trans h.symm)
  have hmap := congrArg (List.map fun r => shows r t) (request_runs rs s)
  rw [List.map_map] at hmap
  exact heq.trans hmap

theorem calls_after (rs : List Request) (s : Session) :
    (after rs s).calls = s.calls ++ (runs rs s).flatMap fun run => run.shows.calls := by
  induction rs generalizing s with
  | nil => exact (List.append_nil _).symm
  | cons r rs ih =>
    rw [after_cons, ih, (r.run_led s).calls, runs, List.flatMap_cons, List.append_assoc, Run.shows, calls_shows]

theorem events_after (rs : List Request) (s : Session) : ∃ written, (after rs s).events = s.events ++ written ∧
    written.map Event.untimed = (runs rs s).flatMap fun run => run.shows.events := by
  induction rs generalizing s with
  | nil => exact ⟨[], (List.append_nil _).symm, rfl⟩
  | cons r rs ih =>
    obtain ⟨first, hfirst, huntimed⟩ := (r.run_led s).events
    obtain ⟨later, hlater, huntimed'⟩ := ih (r.run s).2
    refine ⟨first ++ later, ?_, ?_⟩
    · rw [after_cons, hlater, hfirst, List.append_assoc]
    · rw [List.map_append, huntimed, huntimed', runs, List.flatMap_cons, Run.shows, events_shows]

theorem made_le_of_mem_runs {run : Run} (h : run ∈ runs rs s) : s.made ≤ run.start.made := by
  induction rs generalizing s with
  | nil => cases h
  | cons r rs ih =>
    rcases List.mem_cons.mp h with rfl | h
    · exact Nat.le_refl _
    · exact Nat.le_trans (r.run_led s).made (ih h)

/-- Of two code caches that were made for results, the later one has the higher number. -/
theorem pairwise_runs (rs : List Request) (s : Session) : (runs rs s).Pairwise fun p q => ∀ a b m n,
    p.ending = .returned a → q.ending = .returned b → a.1.codeCacheId = .made m → b.1.codeCacheId = .made n →
      m < n := by
  have hnumber : ∀ {run : Run} {a n}, run.ending = .returned a → a.1.codeCacheId = .made n →
      run.start.made ≤ n ∧ n < (run.request.run run.start).2.made := fun h hid => by
    obtain ⟨hentry, hsession⟩ := run_returned h
    rw [hsession]
    cases EntryPoint.identifies_run (Prod.ext hentry rfl) with
    | made _ hid' hbefore hafter =>
      cases hid.symm.trans hid'
      exact ⟨hbefore, hafter⟩
    | kept _ hid' _ => cases hid.symm.trans hid'
  induction rs generalizing s with
  | nil => exact List.Pairwise.nil
  | cons r rs ih =>
    refine List.pairwise_cons.mpr ⟨fun q hq a b m n ha hb hm hn => ?_, ih _⟩
    have hfirst : m < (r.run s).2.made := (hnumber ha hm).2
    have hlater : (r.run s).2.made ≤ q.start.made := made_le_of_mem_runs hq
    exact Nat.lt_of_lt_of_le hfirst (Nat.le_trans hlater (hnumber hb hn).1)

theorem assembly_of_returned {run : Run} {a : Assembled × Option Report} (h : run.ending = .returned a) :
    (Course.assembly run.request.hooks run.request.host run.start.outset).exit = .returned a.1.backend :=
  EntryPoint.exit_of_run (run_returned h).1

theorem made_of_isStandalone {run : Run} {a : Assembled × Option Report} (h : run.ending = .returned a)
    (hstandalone : a.1.backend.codeCache.IsStandalone) : ∃ number, a.1.codeCacheId = .made number := by
  obtain ⟨hentry, -⟩ := run_returned h
  cases EntryPoint.identifies_run (Prod.ext hentry rfl) with
  | made _ hid _ _ => exact ⟨_, hid⟩
  | kept hprovenance _ _ => cases hstandalone.provenance.symm.trans hprovenance

theorem target_of_onStandalone {run : Run} {a : Assembled × Option Report} (h : run.ending = .returned a)
    (hon : run.request.OnStandalone) : ∃ aliases, run.request.hooks.aliases.exit = .returned aliases ∧
      a.1.backend.target = .ofStore run.request.host.store aliases := by
  obtain ⟨aliases, registers, p, haliases, hcodeCache, hbundle⟩ :=
    Course.assembly_returned (assembly_of_returned h)
  have hmade := hon.codeCache _ _ _ hcodeCache
  have htarget : p.codeCache.target = .ofStore run.request.host.store aliases :=
    (Host.faithful_standalone _ _ _ _ hmade).1
  refine ⟨aliases, haliases, ?_⟩
  rw [Backend.target, hon.bundle _ _ _ _ _ hbundle, htarget]

/-- Requests that are run one after the other do not get in each other's way, if two timers can be opened within each
other at their start. Elsewhere a run may leave the depth one too high, and nothing else. -/
structure Independent (rs : List Request) (s : Session) : Prop where
  depth : s.outset.Roomy → (after rs s).depth = s.depth
  alone : s.outset.Roomy → ∀ clock, (runs rs s).map Run.shows =
    rs.map fun r => r.shows { clock, depth := s.depth, debug := s.debug }
  deeper : ∀ run ∈ runs rs s, (run.request.run run.start).2.depth ≠ run.start.depth →
    run.ending = .panicked tooWide ∧ (run.request.run run.start).2.depth = run.start.depth + 1
  calls : (after rs s).calls = s.calls ++ (runs rs s).flatMap fun run => run.shows.calls
  events : ∃ written, (after rs s).events = s.events ++ written ∧
    written.map Event.untimed = (runs rs s).flatMap fun run => run.shows.events
  apart : (runs rs s).Pairwise fun p q => ∀ a b, p.ending = .returned a → q.ending = .returned b →
    a.1.backend.codeCache.IsStandalone → b.1.backend.codeCache.IsStandalone → a.1.codeCacheId ≠ b.1.codeCacheId
  alike : ∀ p ∈ runs rs s, ∀ q ∈ runs rs s, p.request.hooks = q.request.hooks →
    (p.request.host = q.request.host ∨ p.request.host.store = q.request.host.store ∧
      p.request.OnStandalone ∧ q.request.OnStandalone) →
    ∀ a b, p.ending = .returned a → q.ending = .returned b → a.1.backend.target = b.1.backend.target

/-- However the requests end and whatever they ask for, each shows what it shows alone, and what is made for one is not
handed to another. -/
theorem independent_runs (rs : List Request) (s : Session) : Independent rs s where
  depth hroomy := congrArg Outset.depth (outset_after rs hroomy)
  alone hroomy clock := shows_runs hroomy rfl
  deeper run _ hne := ((run.request.depth_cases run.start).resolve_left hne).2
  calls := calls_after rs s
  events := events_after rs s
  apart := by
    refine (pairwise_runs rs s).imp fun {p q} hlt a b ha hb hkey hkey' heq => ?_
    obtain ⟨m, hm⟩ := made_of_isStandalone ha hkey
    obtain ⟨n, hn⟩ := made_of_isStandalone hb hkey'
    have hnumbers := hlt a b m n ha hb hm hn
    have hsame := CodeCacheId.made.inj ((hm.symm.trans heq).trans hn)
    omega
  alike p _ q _ hhooks hhost a b ha hb := by
    have hfirst := assembly_of_returned ha
    have hsecond := assembly_of_returned hb
    rcases hhost with hhost | ⟨hstore, hp, hq⟩
    · have halike := (Course.alike_assembly q.request.hooks q.request.host (Course.roomy_of_assembly hfirst)
        (Course.roomy_of_assembly hsecond)).exit
      rw [hhooks, hhost, halike, hsecond] at hfirst
      rw [Exit.returned.inj hfirst]
    · obtain ⟨aliases, haliases, htarget⟩ := target_of_onStandalone ha hp
      obtain ⟨aliases', haliases', htarget'⟩ := target_of_onStandalone hb hq
      rw [hhooks, haliases'] at haliases
      cases haliases
      rw [htarget, htarget', hstore]

theorem independent_runs_wrapping :
    let start : Session := { clock := id, depth := 2 }
    let r : Request := ⟨.create, .naming [] .none, .standalone .empty, none⟩
    ∃ a b s t, runs [r, { r with wrapped := some a.1.backend }, r] start =
        [⟨r, start⟩, ⟨{ r with wrapped := some a.1.backend }, s⟩, ⟨r, t⟩] ∧
      (r.run start).1 = .returned a ∧ (r.run t).1 = .returned b ∧
      a.1.codeCacheId ≠ b.1.codeCacheId ∧ a.1.backend.target = b.1.backend.target := by
  intro start r
  have hyields : ∀ s : Session, s.outset.Roomy →
      ∃ a, (r.run s).1 = .returned a ∧ a.1.backend.codeCache.IsStandalone := fun s hroomy => by
    have hbuilds : (Host.standalone .empty).Builds .none
        ⟨⟨"host-meta-access"⟩, ⟨"host-code-cache", .ofStore .empty .none, _, .made⟩, ⟨"host-constant-reflection"⟩,
          ⟨"host-stack-introspection"⟩⟩ := ⟨rfl, rfl, rfl, rfl⟩
    have hyields : EntryPoint.create.Yields r.hooks r.host s fun backend => backend.codeCache.IsStandalone :=
      EntryPoint.yields_iff.mpr ⟨_, Course.exit_assembly_naming.mpr ⟨hroomy, hbuilds⟩, .empty, _, _, rfl⟩
    obtain ⟨assembled, report, hrun, hstandalone⟩ := hyields
    exact ⟨(assembled, report), hrun, hstandalone⟩
  have hroomy : start.outset.Roomy := by decide
  obtain ⟨a, ha, hka⟩ := hyields start hroomy
  let wrapping : Request := { r with wrapped := some a.1.backend }
  obtain ⟨b, hb, hkb⟩ := hyields (after [r, wrapping] start) (by rwa [outset_after _ hroomy])
  have h := independent_runs [r, wrapping, r] start
  have hlast : ⟨r, after [r, wrapping] start⟩ ∈ runs [wrapping, r] (r.run start).2 := .tail _ (.head _)
  refine ⟨a, b, _, _, rfl, ha, hb, ?_, ?_⟩
  · exact (List.pairwise_cons.mp h.apart).1 _ hlast a b ha hb hka hkb
  · exact h.alike _ List.mem_cons_self _ (List.mem_cons_of_mem _ hlast) rfl (.inl rfl) a b ha hb

/-- Within 32767 timers the first run opens a timer that it cannot open another one in, and the second run cannot open
any. -/
theorem independent_runs_tooDeep :
    let start : Session := { clock := id, depth := 32767 }
    let r : Request := ⟨.assemble, .standard, .standalone .empty, none⟩
    (after [r, r] start).depth = 32769 ∧ (runs [r, r] start).map Run.shows ≠ [r, r].map fun r => r.shows start := by
  intro start r
  refine ⟨rfl, fun h => ?_⟩
  have hwritten := congrArg (List.map fun shown : Shown => shown.events.isEmpty) h
  have hruns : (runs [r, r] start).map (fun run => run.shows.events.isEmpty) = [false, true] := rfl
  have halone : [r, r].map (fun r => (r.shows start).events.isEmpty) = [false, false] := rfl
  rw [List.map_map, List.map_map] at hwritten
  cases (hruns.symm.trans hwritten).trans halone

end Request

end BackendAssembly
