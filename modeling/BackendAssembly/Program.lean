import BackendAssembly.CommandLine
import BackendAssembly.Commands
import BackendAssembly.LogFilter

namespace BackendAssembly

structure Outcome where
  status : Nat
  stdout : String
  stderr : String
  deriving DecidableEq, Repr

/-- The program as seen from outside: a view of the files, what the environment asks of the log, and a clock. -/
structure Program where
  files : String → FileRead
  logSpec : Option String
  clock : Nat → Nat

namespace Program

def output (p : Program) : Command → CommandRun String
  | .archs => pure Commands.archs
  | .template => pure Commands.template
  | .target config arch json => do return line (← Commands.target p.files config arch json)
  | .assemble config arch => Commands.assemble p.files config arch

def logFilter (p : Program) (verbosity : Nat) : LogFilter :=
  match p.logSpec, verbosity with
  | some spec, _ => .parse spec
  | none, 0 => .ofLevel .warn
  | none, 1 => .ofLevel .debug
  | none, _ => .ofLevel .trace

def errorLine (e : CommandError) : String :=
  "error: " ++ e.message

def carryOut (p : Program) (i : Invocation) : Outcome :=
  let (exit, session) := (p.output i.command).run { clock := p.clock }
  let log := (p.logFilter i.verbosity).text session.events
  match exit with
  | .returned text => ⟨0, text, log⟩
  | .failed e => ⟨1, "", log ++ line (errorLine e)⟩
  | .panicked text => ⟨101, "", log ++ line text⟩

def version : String :=
  line "vmci 0.1.0"

/-- Reads the command line and does what it asks for. Help and misuse have no outcome of their own here. -/
def run (p : Program) (arguments : List String) : Except Halt Outcome :=
  match Invocation.ofArguments arguments with
  | .ok i => .ok (p.carryOut i)
  | .error .version => .ok ⟨0, version, ""⟩
  | .error halt => .error halt

end Program

end BackendAssembly
