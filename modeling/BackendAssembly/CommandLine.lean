import BackendAssembly.Target

namespace BackendAssembly

inductive Command where
  | archs
  | target (config arch : String) (json : Bool)
  | assemble (config arch : String)
  | template
  deriving DecidableEq, Repr

inductive Halt where
  | help | version | misuse
  deriving DecidableEq, Repr

structure Invocation where
  verbosity : Nat
  command : Command
  deriving DecidableEq, Repr

/-- What kind of argument a text is: the end of the options, a long option that may have a value attached, a row of
short options, or a word. -/
inductive Argument where
  | separator
  | long (name : String) (value : Option String)
  | short (letters : List Char)
  | word (text : String)
  deriving DecidableEq, Repr

namespace Argument

def ofText (text : String) : Argument :=
  match text.toList with
  | ['-', '-'] => separator
  | '-' :: '-' :: name =>
    match name.span (· != '=') with
    | (name, []) => long (String.ofList name) none
    | (name, _ :: value) => long (String.ofList name) (some (String.ofList value))
  | '-' :: letter :: letters => short (letter :: letters)
  | _ => word text

def isWord (text : String) : Bool :=
  ofText text matches word _

end Argument

inductive Subcommand where
  | archs | target | assemble | template
  deriving DecidableEq, Repr

namespace Subcommand

def all : List Subcommand :=
  [archs, target, assemble, template]

def name : Subcommand → String
  | archs => "archs"
  | target => "target"
  | assemble => "assemble"
  | template => "template"

def ofName? (name : String) : Option Subcommand :=
  all.find? fun c => c.name == name

def readsConfig : Subcommand → Bool
  | target | assemble => true
  | archs | template => false

end Subcommand

structure Options where
  verbosity : Nat := 0
  config : Option String := none
  arch : Option String := none
  json : Bool := false
  deriving DecidableEq, Repr

namespace Options

def addShort : Options → List Char → Except Halt Options
  | o, [] => .ok o
  | o, 'v' :: letters => addShort { o with verbosity := o.verbosity + 1 } letters
  | _, 'h' :: _ => .error .help
  | _, _ => .error .misuse

def addFlag (c : Subcommand) (o : Options) (name : String) : Except Halt Options :=
  if name = "verbose" then .ok { o with verbosity := o.verbosity + 1 }
  else if name = "help" then .error .help
  else if name = "json" ∧ c = .target ∧ ¬ o.json then .ok { o with json := true }
  else .error .misuse

def takesValue (c : Subcommand) (name : String) : Bool :=
  c.readsConfig && (name == "config" || name == "arch")

def addValue (o : Options) (name value : String) : Except Halt Options :=
  if name = "config" then
    if o.config.isSome ∨ value.isEmpty then .error .misuse else .ok { o with config := some value }
  else if name = "arch" then
    if o.arch.isSome then .error .misuse else .ok { o with arch := some value }
  else .error .misuse

def read (c : Subcommand) (o : Options) : List String → Except Halt Options
  | [] => .ok o
  | text :: rest =>
    match Argument.ofText text with
    | .separator => if rest.isEmpty then .ok o else .error .misuse
    | .word _ => .error .misuse
    | .short letters => (o.addShort letters).bind fun o => read c o rest
    | .long name (some value) =>
      if takesValue c name then (o.addValue name value).bind fun o => read c o rest else .error .misuse
    | .long name none =>
      if takesValue c name then
        match rest with
        | value :: rest =>
          if Argument.isWord value then (o.addValue name value).bind fun o => read c o rest else .error .misuse
        | [] => .error .misuse
      else (o.addFlag c name).bind fun o => read c o rest

def command (o : Options) (c : Subcommand) : Except Halt Command :=
  let arch := o.arch.getD LoongArch64.name
  match c, o.config with
  | .archs, _ => .ok .archs
  | .template, _ => .ok .template
  | .target, some config => .ok (.target config arch o.json)
  | .assemble, some config => .ok (.assemble config arch)
  | .target, none | .assemble, none => .error .misuse

end Options

namespace Invocation

def readHelp : List String → Halt
  | [] => .help
  | [name] => if name = "help" ∨ (Subcommand.ofName? name).isSome then .help else .misuse
  | _ => .misuse

def readShort : Nat → List Char → Except Halt Nat
  | verbosity, [] => .ok verbosity
  | verbosity, 'v' :: letters => readShort (verbosity + 1) letters
  | _, 'h' :: _ => .error .help
  | _, 'V' :: _ => .error .version
  | _, _ => .error .misuse

/-- Reads a command line. The verbosity may stand before the command or after it; after it counts first. -/
def read (verbosity : Nat) : List String → Except Halt Invocation
  | [] => .error .misuse
  | text :: rest =>
    match Argument.ofText text with
    | .separator => .error .misuse
    | .short letters => (readShort verbosity letters).bind fun verbosity => read verbosity rest
    | .long "verbose" none => read (verbosity + 1) rest
    | .long "help" none => .error .help
    | .long "version" none => .error .version
    | .long _ _ => .error .misuse
    | .word name =>
      if name = "help" then .error (readHelp rest)
      else
        match Subcommand.ofName? name with
        | none => .error .misuse
        | some c => do
          let o ← Options.read c {} rest
          let command ← o.command c
          return ⟨if o.verbosity = 0 then verbosity else o.verbosity, command⟩

def ofArguments (arguments : List String) : Except Halt Invocation :=
  read 0 arguments

end Invocation

end BackendAssembly
