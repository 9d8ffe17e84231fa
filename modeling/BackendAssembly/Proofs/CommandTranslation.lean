import BackendAssembly.Program
import BackendAssembly.Proofs.AssembledBackend
import BackendAssembly.Proofs.StoreRoundTrip

namespace BackendAssembly

def Backend.standalone (store : Store) : Backend where
  metaAccess := ⟨"host-meta-access"⟩
  codeCache :=
    { name := "host-code-cache"
      target := .ofStore store .none
      registers := LoongArch64Registers.toConventions
        ⟨.ofStore store .none, store.isSet Target.useCompressedOops⟩ }
  constantReflection := ⟨"host-constant-reflection"⟩
  stackIntrospection := ⟨"host-stack-introspection"⟩

theorem EntryPoint.yields_standalone (entry : EntryPoint) (store : Store) {s : Session} (hroomy : s.outset.Roomy) :
    entry.Yields .standard (.standalone store) s fun backend => backend = .standalone store := by
  have hexit : (Course.assembly (.naming [] .none) (.standalone store) s.outset).exit = .returned (.standalone store) :=
    Course.exit_assembly_naming.mpr ⟨hroomy, rfl, rfl, rfl, rfl⟩
  exact yields_iff.mpr ⟨_, hexit, rfl⟩

namespace Factory

variable (store : Store) {s : Session} (hroomy : s.outset.Roomy)
include hroomy

theorem create_standalone : ∃ assembled t,
    (loongArch64 .standard).create (.standalone store) none s = (.returned assembled, t) ∧
      assembled.backend = .standalone store := by
  obtain ⟨assembled, report, hrun, hbackend⟩ := EntryPoint.create.yields_standalone store hroomy
  obtain ⟨_, t, hcreate, h⟩ := Attempt.bind_eq_returned.mp (Prod.ext hrun rfl)
  cases h
  exact ⟨assembled, _, hcreate, hbackend⟩

theorem createWithReport_standalone : ∃ assembled report t,
    (loongArch64 .standard).createWithReport (.standalone store) s = (.returned (assembled, report), t) ∧
      report.architecture = "loongarch64" ∧ report.target = .ofStore store .none ∧
      report.providers = (Backend.standalone store).providerNames ∧
      report.stages.map (fun stage => (stage.name, stage.depth)) = Assembly.scopes s.depth := by
  obtain ⟨assembled, report, hrun, hbackend⟩ := EntryPoint.createWithReport.yields_standalone store hroomy
  obtain ⟨⟨_, report⟩, t, hcreate, h⟩ := Attempt.bind_eq_returned.mp (Prod.ext hrun rfl)
  cases h
  have hreports := EntryPoint.reports_run hrun
  obtain ⟨total, harchitecture⟩ := EntryPoint.report_run (Prod.ext hrun rfl)
  refine ⟨assembled, report, _, hcreate, ?_, ?_, ?_, hreports.scopes⟩
  · rw [harchitecture]
    rfl
  · rw [hreports.target, hbackend]
    rfl
  · rw [hreports.providers, hbackend]

end Factory

theorem CommandError.message_loading (path : String) (e : ConfigError) :
    (loading path e).message = "loading config " ++ path ++ ": " ++ ": ".intercalate e.chain := by
  have hchain : e.chain ≠ [] := by cases e <;> exact List.cons_ne_nil _ _
  rw [message, chain, String.intercalate_cons_of_ne_nil hchain]

namespace Report

def outermostStages (micros : Nat → Nat) : List String :=
  ["",
   "--- Stages (8) ---",
   "  compute target: " ++ toString (micros 0) ++ " us",
   "  create providers: " ++ toString (micros 1) ++ " us",
   "    create RegisterConfig: " ++ toString (micros 2) ++ " us",
   "    create MetaAccess provider: " ++ toString (micros 3) ++ " us",
   "    create CodeCache provider: " ++ toString (micros 4) ++ " us",
   "    create ConstantReflection provider: " ++ toString (micros 5) ++ " us",
   "    create StackIntrospection provider: " ++ toString (micros 6) ++ " us",
   "  instantiate backend: " ++ toString (micros 7) ++ " us"]

def standaloneProviders : List String :=
  ["  meta-access          host-meta-access",
   "  code-cache           host-code-cache",
   "  constant-reflection  host-constant-reflection",
   "  stack-introspection  host-stack-introspection"]

/-- The text of a report on the backend over a store alone, by the microseconds that were measured. -/
def standaloneText (target : Target) (total : Nat) (micros : Nat → Nat) : String :=
  let lines :=
    ["=== Assembly Report ===",
     "Architecture: loongarch64 (Backend:loongarch64)",
     "Duration: " ++ toString total ++ " us",
     "",
     target.text,
     "",
     "--- Providers ---"] ++ standaloneProviders ++ outermostStages micros
  String.join (lines.map fun text => text ++ "\n")

theorem stageLine_eq {stage : StageTime} {name front : String} {depth : Nat}
    (hstage : (stage.name, stage.depth) = (name, depth)) (hfront : "  " ++ spaces (2 * depth) ++ name ++ ": " = front) :
    stageLine stage = line (front ++ toString stage.elapsed.micros ++ " us") := by
  obtain ⟨rfl, rfl⟩ := Prod.mk.inj hstage
  rw [stageLine, ← hfront, Duration.text]
  simp only [String.append_assoc]

variable {report : Report} {depth : Nat}

theorem print_of_scopes {ε : Type}
    (hscopes : report.stages.map (fun stage => (stage.name, stage.depth)) = Assembly.scopes depth)
    (hdepth : 2 * (depth + 1) ≤ widestField) : (report.print : Exit ε String) = .returned report.text := by
  refine if_pos (List.all_eq_true.mpr fun stage hstage => decide_eq_true ?_)
  have hmem : (stage.name, stage.depth) ∈ Assembly.scopes depth := by
    rw [← hscopes]
    exact List.mem_map_of_mem hstage
  have hle := Assembly.depth_le_of_mem_scopes hmem
  omega

variable (hscopes : report.stages.map (fun stage => (stage.name, stage.depth)) = Assembly.scopes 0)
include hscopes

theorem stagesText_of_scopes : ∃ micros,
    stagesText report.stages = String.join ((outermostStages micros).map line) := by
  simp only [Assembly.scopes, List.map_eq_cons_iff, List.map_eq_nil_iff] at hscopes
  obtain ⟨s₀, _, hstages, h₀, s₁, _, rfl, h₁, s₂, _, rfl, h₂, s₃, _, rfl, h₃, s₄, _, rfl, h₄, s₅, _, rfl, h₅,
    s₆, _, rfl, h₆, s₇, _, rfl, h₇, rfl⟩ := hscopes
  let elapsed := [s₀, s₁, s₂, s₃, s₄, s₅, s₆, s₇].map StageTime.elapsed
  refine ⟨fun i => (elapsed[i]?.getD .zero).micros, ?_⟩
  have hempty : report.stages.isEmpty = false := by
    rw [hstages]
    rfl
  have hlength : report.stages.length = 8 := by
    rw [hstages]
    rfl
  have hheading : "--- Stages (" ++ toString 8 ++ ") ---" = "--- Stages (8) ---" := by decide +kernel
  rw [stagesText, hempty, if_neg Bool.false_ne_true, hlength, hheading, hstages]
  simp only [outermostStages, List.map_cons, List.map_nil, String.join_cons, String.join_nil]
  rw [stageLine_eq h₀ rfl, stageLine_eq h₁ rfl, stageLine_eq h₂ rfl, stageLine_eq h₃ rfl, stageLine_eq h₄ rfl,
    stageLine_eq h₅ rfl, stageLine_eq h₆ rfl, stageLine_eq h₇ rfl]
  simp only [String.append_assoc]
  rfl

theorem text_standalone {store : Store} (harchitecture : report.architecture = "loongarch64")
    (hproviders : report.providers = (Backend.standalone store).providerNames) :
    ∃ micros, report.text = standaloneText report.target report.total.micros micros := by
  have hlines : report.providers.map providerLine = standaloneProviders.map line := by
    have hnames : (Backend.standalone store).providerNames =
        [("meta-access", "host-meta-access"), ("code-cache", "host-code-cache"),
         ("constant-reflection", "host-constant-reflection"), ("stack-introspection", "host-stack-introspection")] :=
      rfl
    rw [hproviders, hnames]
    decide +kernel
  have hheading : line ("Architecture: " ++ "loongarch64" ++ " (Backend:" ++ "loongarch64" ++ ")") =
      line "Architecture: loongarch64 (Backend:loongarch64)" := by decide +kernel
  obtain ⟨micros, hstages⟩ := stagesText_of_scopes hscopes
  refine ⟨micros, ?_⟩
  change report.text = String.join (List.map line _)
  rw [text, hlines, hstages, harchitecture, hheading, Duration.text]
  simp only [List.map_append, String.join_append, List.map_cons, List.map_nil, String.join_cons, String.join_nil,
    String.append_assoc, String.append_empty]

end Report

namespace Commands

variable {α : Type} (files : String → FileRead) (path arch : String) {s : Session}

def selected (k : Host → Factory → CommandRun α) : CommandRun α := do
  let host ← loadHost files path
  let factory ← ofExcept .selecting (Registry.builtin.select arch)
  k host factory

variable {files path arch} {k : Host → Factory → CommandRun α}

theorem loadHost_ok {store : Store} (h : Store.load path (files path) = .ok store) :
    loadHost files path s = (.returned (.standalone store), s.write (.loaded store.size path)) := by
  unfold loadHost
  rw [h]
  rfl

theorem selected_loading {e : ConfigError} (h : Store.load path (files path) = .error e) :
    selected files path arch k s = (.failed (.loading path e), s) := by
  have hhost : loadHost files path s = (.failed (.loading path e), s) := by
    unfold loadHost
    rw [h]
    rfl
  exact Attempt.andThen_failed hhost

theorem selected_unknown {store : Store} (h : Store.load path (files path) = .ok store) (harch : arch ≠ "loongarch64") :
    (selected files path arch k s).1 = .failed (.selecting (.unknownArchitecture arch ["loongarch64"])) := by
  have hselect := Registry.select_builtin arch
  rw [if_neg harch] at hselect
  unfold selected
  rw [hselect, Attempt.bind_run, Attempt.andThen_returned (loadHost_ok h)]
  rfl

theorem selected_known {store : Store} (h : Store.load path (files path) = .ok store) :
    selected files path "loongarch64" k s =
      k (.standalone store) (.loongArch64 .standard) (s.write (.loaded store.size path)) := by
  have hselect := Registry.select_builtin "loongarch64"
  rw [if_pos rfl] at hselect
  unfold selected
  rw [hselect, Attempt.bind_run, Attempt.andThen_returned (loadHost_ok h)]
  rfl

theorem target_eq_selected (files : String → FileRead) (path arch : String) (json : Bool) :
    target files path arch json = selected files path arch fun host factory => do
      let assembled ← (factory.create host none).mapError (.assembling factory.label)
      return if json then assembled.backend.target.pretty else assembled.backend.target.text := by
  simp only [target, buildBackend, selected, bind_assoc, pure_bind]

theorem target_returned {store : Store} (hroomy : s.outset.Roomy) (h : Store.load path (files path) = .ok store)
    (json : Bool) :
    ∃ t, target files path "loongarch64" json s = (.returned
      (if json then (Target.ofStore store .none).pretty else (Target.ofStore store .none).text), t) := by
  obtain ⟨assembled, t, hcreate, hbackend⟩ := Factory.create_standalone (s := s.write (.loaded store.size path)) store hroomy
  have htarget : assembled.backend.target = .ofStore store .none := by
    rw [hbackend]
    rfl
  refine ⟨t, ?_⟩
  rw [target_eq_selected, selected_known h, Attempt.bind_run,
    Attempt.andThen_returned (Attempt.mapError_returned hcreate), htarget]
  rfl

end Commands

inductive Command.Shows (path arch : String) : Command → Prop where
  | target (json : Bool) : Shows path arch (.target path arch json)
  | assemble : Shows path arch (.assemble path arch)

namespace Program

variable (p : Program)

/-- Where a command begins, timers can be opened. -/
theorem roomy_start (clock : Nat → Nat) : (Session.outset { clock }).Roomy := by
  have hfirst : Outset.Roomy ⟨0, true⟩ := by decide
  exact hfirst

def answer (command : Command) : Exit CommandError String :=
  ((p.output command).run { clock := p.clock }).1

theorem output_target (path arch : String) (json : Bool) :
    p.output (.target path arch json) = Commands.selected p.files path arch fun host factory => do
      let assembled ← (factory.create host none).mapError (.assembling factory.label)
      return line (if json then assembled.backend.target.pretty else assembled.backend.target.text) := by
  rw [output, Commands.target_eq_selected]
  simp only [Commands.selected, bind_assoc, pure_bind]

theorem output_assemble (path arch : String) :
    p.output (.assemble path arch) = Commands.selected p.files path arch (fun host factory => do
      let (_, report) ← (factory.createWithReport host).mapError (.assembling factory.label)
      .exit report.print) := rfl

theorem output_shows {path arch : String} {command : Command} (h : command.Shows path arch) :
    ∃ k, p.output command = Commands.selected p.files path arch k := by
  cases h with
  | target json => exact ⟨_, p.output_target path arch json⟩
  | assemble => exact ⟨_, p.output_assemble path arch⟩

variable {path arch : String} {store : Store}

theorem answer_target (h : Store.load path (p.files path) = .ok store) (json : Bool) :
    p.answer (.target path "loongarch64" json) =
      .returned (line (if json then (Target.ofStore store .none).pretty else (Target.ofStore store .none).text)) := by
  obtain ⟨t, htarget⟩ := Commands.target_returned (roomy_start p.clock) h json
  exact congrArg Prod.fst (Attempt.andThen_returned (f := fun text => pure (line text)) htarget)

theorem answer_assemble (h : Store.load path (p.files path) = .ok store) : ∃ total micros,
    p.answer (.assemble path "loongarch64") =
      .returned (Report.standaloneText (.ofStore store .none) total micros) := by
  let start : Session := Session.write { clock := p.clock } (.loaded store.size path)
  obtain ⟨assembled, report, t, hcreate, harchitecture, htarget, hproviders, hscopes⟩ :=
    Factory.createWithReport_standalone (s := start) store (roomy_start p.clock)
  have hdepth : 2 * (0 + 1) ≤ widestField := by decide
  have hprint : (report.print : Exit CommandError String) = .returned report.text :=
    Report.print_of_scopes hscopes hdepth
  obtain ⟨micros, htext⟩ := Report.text_standalone hscopes harchitecture hproviders
  refine ⟨report.total.micros, micros, ?_⟩
  rw [answer, p.output_assemble, Attempt.run, Commands.selected_known h, Attempt.bind_run,
    Attempt.andThen_returned (Attempt.mapError_returned hcreate), ← htarget, ← htext, ← hprint]
  rfl

theorem answer_loading {e : ConfigError} (h : Store.load path (p.files path) = .error e) {command : Command}
    (hcommand : command.Shows path arch) : p.answer command = .failed (.loading path e) := by
  obtain ⟨k, hk⟩ := p.output_shows hcommand
  rw [answer, hk, Attempt.run, Commands.selected_loading h]

theorem answer_unknown (h : Store.load path (p.files path) = .ok store) (harch : arch ≠ "loongarch64")
    {command : Command} (hcommand : command.Shows path arch) :
    p.answer command = .failed (.selecting (.unknownArchitecture arch ["loongarch64"])) := by
  obtain ⟨k, hk⟩ := p.output_shows hcommand
  rw [answer, hk, Attempt.run, Commands.selected_unknown h harch]

theorem answer_known (h : Store.load path (p.files path) = .ok store) {command : Command}
    (hcommand : command.Shows path "loongarch64") : ∃ text, p.answer command = .returned text := by
  cases hcommand with
  | target json => exact ⟨_, p.answer_target h json⟩
  | assemble =>
    obtain ⟨total, micros, hanswer⟩ := p.answer_assemble h
    exact ⟨_, hanswer⟩

/-- The file is looked at first and then the architecture, and nothing else can be in the way. -/
theorem answer_cases {command : Command} (hcommand : command.Shows path arch) :
    (∃ e, p.answer command = .failed (.loading path e)) ∨
      p.answer command = .failed (.selecting (.unknownArchitecture arch ["loongarch64"])) ∨
      ∃ text, p.answer command = .returned text := by
  cases h : Store.load path (p.files path) with
  | error e => exact .inl ⟨e, p.answer_loading h hcommand⟩
  | ok store =>
    by_cases harch : arch = "loongarch64"
    · subst harch
      exact .inr (.inr (p.answer_known h hcommand))
    · exact .inr (.inl (p.answer_unknown h harch hcommand))

theorem carryOut_returned {command : Command} {text : String} (h : p.answer command = .returned text)
    (verbosity : Nat) :
    (p.carryOut ⟨verbosity, command⟩).status = 0 ∧ (p.carryOut ⟨verbosity, command⟩).stdout = text := by
  have hrun : (p.output command).run { clock := p.clock } = (.returned text, _) := Prod.ext h rfl
  unfold carryOut
  rw [hrun]
  exact ⟨rfl, rfl⟩

theorem carryOut_failed {command : Command} {e : CommandError} (h : p.answer command = .failed e)
    (verbosity : Nat) : ∃ log, p.carryOut ⟨verbosity, command⟩ = ⟨1, "", log ++ line ("error: " ++ e.message)⟩ := by
  have hrun : (p.output command).run { clock := p.clock } = (.failed e, _) := Prod.ext h rfl
  unfold carryOut
  rw [hrun]
  exact ⟨_, rfl⟩

/-- The two commands show what the constants in a file come to, and fail only where there is nothing to show. -/
structure Translates (path arch : String) : Prop where
  loading : ∀ e, Store.load path (p.files path) = .error e → ∀ command, command.Shows path arch →
    p.answer command = .failed (.loading path e) ∧ ∀ verbosity, ∃ log, p.carryOut ⟨verbosity, command⟩ =
      ⟨1, "", log ++ ("error: loading config " ++ path ++ ": " ++ ": ".intercalate e.chain ++ "\n")⟩
  selecting : ∀ store, Store.load path (p.files path) = .ok store → ∀ command, command.Shows path arch →
    (p.answer command = .failed (.selecting (.unknownArchitecture arch ["loongarch64"])) ↔ arch ≠ "loongarch64")
  target : ∀ store, Store.load path (p.files path) = .ok store → arch = "loongarch64" → ∀ json, ∃ text,
    text = (if json then (Target.ofStore store .none).pretty else (Target.ofStore store .none).text) ∧
      ((Commands.target p.files path arch json).run { clock := p.clock }).1 = .returned text ∧
      p.answer (.target path arch json) = .returned (text ++ "\n")
  assemble : ∀ store, Store.load path (p.files path) = .ok store → arch = "loongarch64" → ∃ total micros,
    p.answer (.assemble path arch) = .returned (Report.standaloneText (.ofStore store .none) total micros)
  unreached : ∀ command, command.Shows path arch →
    (∀ label cause, p.answer command ≠ .failed (.assembling label cause)) ∧ ∀ text, p.answer command ≠ .panicked text
  printed : ∀ command, command.Shows path arch → ∀ verbosity text, p.answer command = .returned text →
    (p.carryOut ⟨verbosity, command⟩).status = 0 ∧ (p.carryOut ⟨verbosity, command⟩).stdout = text
  silent : ∀ command, command.Shows path arch → ∀ verbosity, (∀ text, p.answer command ≠ .returned text) →
    (p.carryOut ⟨verbosity, command⟩).status = 1 ∧ (p.carryOut ⟨verbosity, command⟩).stdout = ""

theorem translates (path arch : String) : p.Translates path arch where
  loading e h command hcommand := by
    have hanswer := p.answer_loading h hcommand
    refine ⟨hanswer, fun verbosity => ?_⟩
    obtain ⟨log, hlog⟩ := p.carryOut_failed hanswer verbosity
    have hprefix : "error: " ++ "loading config " = "error: loading config " := rfl
    refine ⟨log, ?_⟩
    rw [hlog, CommandError.message_loading, ← hprefix, line]
    simp only [String.append_assoc]
  selecting store h command hcommand := by
    constructor
    · rintro hanswer rfl
      obtain ⟨text, htext⟩ := p.answer_known h hcommand
      cases hanswer.symm.trans htext
    · exact fun harch => p.answer_unknown h harch hcommand
  target store h harch json := by
    subst harch
    obtain ⟨t, htarget⟩ := Commands.target_returned (roomy_start p.clock) h json
    exact ⟨_, rfl, congrArg Prod.fst htarget, p.answer_target h json⟩
  assemble store h harch := by
    subst harch
    exact p.answer_assemble h
  unreached command hcommand := by
    constructor
    · intro label cause hanswer
      rcases p.answer_cases hcommand with ⟨e, h⟩ | h | ⟨text, h⟩ <;> cases h.symm.trans hanswer
    · intro text hanswer
      rcases p.answer_cases hcommand with ⟨e, h⟩ | h | ⟨text, h⟩ <;> cases h.symm.trans hanswer
  printed command _ verbosity text h := p.carryOut_returned h verbosity
  silent command hcommand verbosity hreturned := by
    have hfailed : ∃ e, p.answer command = .failed e := by
      rcases p.answer_cases hcommand with ⟨e, h⟩ | h | ⟨text, h⟩
      · exact ⟨_, h⟩
      · exact ⟨_, h⟩
      · exact absurd h (hreturned text)
    obtain ⟨e, h⟩ := hfailed
    obtain ⟨log, hlog⟩ := p.carryOut_failed h verbosity
    rw [hlog]
    exact ⟨rfl, rfl⟩

theorem translates_file :
    let store := Store.ofList [("LA64", .bool true)]
    let p : Program := ⟨fun _ => .contents (constantsText [] [("LA64", .bool true)]).toUTF8, none, id⟩
    (p.carryOut ⟨0, .target "vm.toml" "loongarch64" false⟩).stdout = line (Target.ofStore store .none).text ∧
      p.answer (.assemble "vm.toml" "riscv64") =
        .failed (.selecting (.unknownArchitecture "riscv64" ["loongarch64"])) := by
  intro store p
  have hread : readConstants (constantsText [] [("LA64", .bool true)]).toList = .ok store :=
    readConstants_constantsText nofun (List.pairwise_singleton _ _)
  have hgood : store.firstBadName? = none := by decide
  have hload : Store.load "vm.toml" (p.files "vm.toml") = .ok store := by
    rw [Store.load_toUTF8, Store.parse]
    simp only [hread, hgood]
  obtain ⟨_, rfl, -, htarget⟩ := (p.translates "vm.toml" "loongarch64").target _ hload rfl false
  have hprinted := (p.translates "vm.toml" "loongarch64").printed _ (.target false) 0 _ htarget
  have hselecting := (p.translates "vm.toml" "riscv64").selecting _ hload _ .assemble
  exact ⟨hprinted.2, hselecting.mpr (by decide)⟩

end Program

end BackendAssembly
