import BackendAssembly.Program

namespace BackendAssembly.Main

def usage : String :=
  "Usage: vmci [-v...] archs | template | target --config FILE [--arch NAME] [--json] | " ++
    "assemble --config FILE [--arch NAME]\n"

def errorNumber (code : UInt32) : UInt32 :=
  if code < 0x80000000 then code else 0 - code

def failure (e : IO.Error) : FileRead :=
  match e with
  | .noFileOrDirectory .. => .absent
  | .inappropriateType _ code _ => .failed (if errorNumber code = 20 then .notADirectory else .isDirectory)
  | .permissionDenied .. => .failed (.system "Permission denied (os error 13)")
  | .invalidArgument _ code _ =>
    .failed (if errorNumber code = 36 then .nameTooLong else .system (toString e))
  | e => .failed (.system (toString e))

def readFile (path : String) : IO FileRead := do
  if path.toList.contains '\x00' then return .failed .nulInName
  try
    return .contents (← IO.FS.readBinFile path)
  catch e =>
    return failure e

def fileOf (arguments : List String) : Option String :=
  match Invocation.ofArguments arguments with
  | .ok ⟨_, .target config _ _⟩ | .ok ⟨_, .assemble config _⟩ => some config
  | _ => none

end BackendAssembly.Main

/-- Reads the one file that the command asks for, and prints what the program leaves behind. Durations are counted by
a clock that stands still. -/
def main (arguments : List String) : IO UInt32 := do
  let file ← match BackendAssembly.Main.fileOf arguments with
    | some path => BackendAssembly.Main.readFile path
    | none => pure .absent
  let program : BackendAssembly.Program :=
    { files := fun _ => file, logSpec := ← IO.getEnv "RUST_LOG", clock := fun _ => 0 }
  match program.run arguments with
  | .ok outcome =>
    IO.print outcome.stdout
    IO.eprint outcome.stderr
    return outcome.status.toUInt32
  | .error .misuse =>
    IO.eprint BackendAssembly.Main.usage
    return 2
  | .error _ =>
    IO.print BackendAssembly.Main.usage
    return 0
