import BackendAssembly.BackendError
import BackendAssembly.Layout

namespace BackendAssembly

structure Duration where
  nanos : Nat
  deriving DecidableEq, Repr

namespace Duration

def zero : Duration :=
  ⟨0⟩

def ofParts (seconds nanos : Nat) : Duration :=
  ⟨seconds * 1000000000 + nanos⟩

/-- The time from one reading of a clock to a later one, none if the clock went back. -/
def between (start stop : Nat) : Duration :=
  ⟨stop - start⟩

def micros (d : Duration) : Nat :=
  d.nanos / 1000

def text (d : Duration) : String :=
  toString d.micros ++ " us"

end Duration

inductive Level where
  | error | warn | info | debug | trace
  deriving DecidableEq, Repr

namespace Level

def all : List Level :=
  [error, warn, info, debug, trace]

def name : Level → String
  | error => "ERROR"
  | warn => "WARN"
  | info => "INFO"
  | debug => "DEBUG"
  | trace => "TRACE"

def detail : Level → Nat
  | error => 1
  | warn => 2
  | info => 3
  | debug => 4
  | trace => 5

end Level

inductive Event where
  | started (name : String) (depth : Nat)
  | finished (name : String) (depth : Nat) (elapsed : Duration)
  | advanced (before after : Stage)
  | refused (component : Component) (completed : Stage) (source : Refusal)
  | assembled (features flags : Nat) (elapsed : Duration)
  | creating (label : String)
  | loaded (constants : Nat) (path : String)
  deriving DecidableEq, Repr

namespace Event

def level : Event → Level
  | started .. | finished .. | refused .. | creating _ | loaded .. => .debug
  | advanced .. => .trace
  | assembled .. => .info

def source : Event → String
  | started .. | finished .. => "vmci_backend::timer"
  | advanced .. | refused .. | assembled .. => "vmci_backend::assembler"
  | creating _ => "vmci_backend::factory"
  | loaded .. => "vmci::commands"

def message : Event → String
  | started name depth => spaces (2 * depth) ++ "START: " ++ name
  | finished name depth elapsed => spaces (2 * depth) ++ "FINISHED: " ++ name ++ " (" ++ elapsed.text ++ ")"
  | advanced before after => "assembly: " ++ before.name ++ " -> " ++ after.name
  | refused component completed source =>
    "assembly: failed to create " ++ component.text ++ " after " ++ completed.name ++ ": " ++ source.message
  | assembled features flags elapsed =>
    "assembled loongarch64 backend with " ++ toString features ++ " features, " ++ toString flags ++ " flags in " ++
      elapsed.text
  | creating label => "creating " ++ label
  | loaded constants path => "loaded " ++ toString constants ++ " constants from " ++ path

def text (e : Event) : String :=
  e.level.name ++ " " ++ e.source ++ " " ++ e.message

def untimed : Event → Event
  | finished name depth _ => finished name depth .zero
  | assembled features flags _ => assembled features flags .zero
  | e => e

end Event

end BackendAssembly
