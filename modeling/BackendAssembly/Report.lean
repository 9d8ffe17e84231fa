import BackendAssembly.Backend
import BackendAssembly.Event
import BackendAssembly.Session

namespace BackendAssembly

structure StageTime where
  name : String
  depth : Nat
  elapsed : Duration
  deriving DecidableEq, Repr

structure Report where
  architecture : String
  target : Target
  providers : List (String × String)
  stages : List StageTime
  total : Duration
  deriving DecidableEq

namespace Report

/-- A stage that is still open counts as having taken no time. -/
def stageTime (entry : TimedStage) : StageTime :=
  ⟨entry.name, entry.depth, entry.elapsed.getD .zero⟩

def ofBackend (target : Target) (backend : Backend) (entries : List TimedStage) (total : Duration) : Report where
  architecture := LoongArch64.name
  target := target
  providers := backend.providerNames
  stages := entries.map stageTime
  total := total

def stage? (report : Report) (name : String) : Option StageTime :=
  report.stages.find? fun s => s.name == name

def providerLine (provider : String × String) : String :=
  line ("  " ++ padRight 20 provider.1 ++ " " ++ provider.2)

def stageLine (stage : StageTime) : String :=
  line ("  " ++ spaces (2 * stage.depth) ++ stage.name ++ ": " ++ stage.elapsed.text)

def stagesText (stages : List StageTime) : String :=
  if stages.isEmpty then ""
  else line "" ++ line ("--- Stages (" ++ toString stages.length ++ ") ---") ++ String.join (stages.map stageLine)

def text (report : Report) : String :=
  line "=== Assembly Report ===" ++
  line ("Architecture: " ++ report.architecture ++ " (Backend:" ++ report.architecture ++ ")") ++
  line ("Duration: " ++ report.total.text) ++
  line "" ++
  line report.target.text ++
  line "" ++
  line "--- Providers ---" ++
  String.join (report.providers.map providerLine) ++
  stagesText report.stages

/-- The text of the report, unless a stage is indented too far to be laid out. -/
def print {ε : Type} (report : Report) : Exit ε String :=
  if report.stages.all fun s => 2 * s.depth ≤ widestField then .returned report.text
  else .panicked tooWide

end Report

end BackendAssembly
