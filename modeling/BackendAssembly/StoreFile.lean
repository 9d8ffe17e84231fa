import BackendAssembly.Lexical
import BackendAssembly.Malformed

namespace BackendAssembly

inductive ReadFailure where
  | isDirectory
  | notADirectory
  | nameTooLong
  | nulInName
  | notUtf8
  | system (text : String)
  deriving DecidableEq, Repr

def ReadFailure.message : ReadFailure → String
  | isDirectory => "Is a directory (os error 21)"
  | notADirectory => "Not a directory (os error 20)"
  | nameTooLong => "File name too long (os error 36)"
  | nulInName => "file name contained an unexpected NUL byte"
  | notUtf8 => "stream did not contain valid UTF-8"
  | system text => text

inductive ConfigError where
  | malformed (m : Malformed)
  | unreadable (path : String) (failure : ReadFailure)
  | notFound (path : String)
  | invalidName (name : String)
  deriving DecidableEq, Repr

namespace ConfigError

def message : ConfigError → String
  | malformed m => "malformed config: " ++ m.report
  | unreadable path failure => "cannot read " ++ path ++ ": " ++ failure.message
  | notFound path => "config file not found: " ++ path
  | invalidName name =>
    "invalid constant name " ++ quoted name ++ ": names are non-empty and contain no whitespace"

def chain (e : ConfigError) : List String :=
  match e with
  | malformed m => [e.message, m.report]
  | unreadable _ failure => [e.message, failure.message]
  | notFound _ | invalidName _ => [e.message]

end ConfigError

namespace Store

/-- Reads the constants of a text and then looks at their names, of which the first bad one counts. -/
def parse (text : String) : Except ConfigError Store :=
  match readConstants text.toList with
  | .error m => .error (.malformed m)
  | .ok store =>
    match store.firstBadName? with
    | some name => .error (.invalidName name)
    | none => .ok store

def entryLine (entry : String × Constant) : String :=
  line (keyText entry.1 ++ " = " ++ entry.2.text)

def render (store : Store) : String :=
  line "[constants]" ++ String.join (store.entries.map entryLine)

end Store

inductive FileRead where
  | contents (bytes : ByteArray)
  | absent
  | failed (why : ReadFailure)

/-- Reads the constants of the file at a path, once it is known what came of reading it. -/
def Store.load (path : String) : FileRead → Except ConfigError Store
  | .absent => .error (.notFound path)
  | .failed why => .error (.unreadable path why)
  | .contents bytes =>
    match String.fromUTF8? bytes with
    | none => .error (.unreadable path .notUtf8)
    | some text => Store.parse text

theorem Store.load_toUTF8 (path text : String) : load path (.contents text.toUTF8) = parse text := by
  have htext : String.fromUTF8? text.toUTF8 = some text := dif_pos text.isValidUTF8
  rw [load, htext]

end BackendAssembly
