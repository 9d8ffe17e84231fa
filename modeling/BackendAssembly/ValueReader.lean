import BackendAssembly.DocumentTables
import BackendAssembly.MomentReader
import BackendAssembly.NumberReader
import BackendAssembly.StringReader

namespace BackendAssembly.Reader

def depthLimit : Nat := 79

def located {α : Type} (p : Reader α) : Reader (α × Extent) := fun text =>
  match p text with
  | .done a rest => .done (a, ⟨text.length, rest.length⟩) rest
  | .miss fault => .miss fault
  | .stop fault => .stop fault

def keyForm : Reader (List Char) := fun text =>
  match text with
  | '"' :: _ => basicString text
  | '\'' :: _ => literalString text
  | _ => someChars isBareChar text

def keyPart : Reader Key := do
  blanks
  let (cs, extent) ← located keyForm
  blanks
  return ⟨String.ofList cs, extent⟩

def keyPath : Reader (List Key) :=
  check ((someSeparated (skip '.') keyPart).inside "key") fun keys =>
    if keys.length ≤ depthLimit then .ok keys else .error .tooDeep

def splitPath (keys : List Key) : List Key × Key :=
  (keys.dropLast, keys.getLast?.getD ⟨"", ⟨0, 0⟩⟩)

/-- A word that stands for a scalar; a form that only begins like it is taken for a string without its quotes. -/
def scalarWord (p : Reader Scalar) : Reader Scalar :=
  ((p.inside "string").orExpected "`\"`").orExpected "`'`"

def boolean (w : String) (b : Bool) : Reader Scalar := do
  (word w.toList).commit
  return .boolean b

def number : Reader Scalar :=
  ((do moment; return Scalar.moment).or do return Scalar.float (← float)).or do return Scalar.integer (← integer)

def scalar : Reader Scalar := fun text =>
  match text with
  | [] => .miss { rest := [] }
  | c :: _ =>
    if c = '"' ∨ c = '\'' then (do return .string (← string) : Reader Scalar) text
    else if c = '+' ∨ c = '-' ∨ c.isDigit then number text
    else if c = '_' then ((do return .integer (← integer) : Reader Scalar).orExpected "leading digit") text
    else if c = '.' then ((do return .float (← float) : Reader Scalar).orExpected "leading digit") text
    else if c = 't' then scalarWord (boolean "true" true) text
    else if c = 'f' then scalarWord (boolean "false" false) text
    else if c = 'i' then scalarWord (do return .float (← infinity)) text
    else if c = 'n' then scalarWord (do return .float (← notANumber)) text
    else scalarWord fail text

def arrayBody (element : Reader Node) : Reader (List Node) := do
  if ← sees ']' then
    skip ']'
    return []
  else
    let elements ← separated (skip ',') do
      gap
      let e ← element
      gap
      return e
    if !elements.isEmpty then
      let _ ← optional (skip ',')
    gap
    ((skip ']').inside "array").orExpected "`]`"
    return elements

def bracePair (value : Reader Node) : Reader (List Key × Key × Node) := do
  let (path, key) := splitPath (← keyPath)
  commit do
    ((skip '=').orExpected "`.`").orExpected "`=`"
    blanks
    let v ← value
    blanks
    return (path, key, v)

def braceBody (value : Reader Node) : Reader Table := do
  let pairs : Reader (List (List Key × Key × Node)) := do
    let pairs ← separated (skip ',') (bracePair value)
    blanks
    return pairs
  let t ← check pairs Table.ofPairs
  ((skip '}').inside "inline table").orExpected "`\x7d`"
  return t

def scalarNode : Reader Node := do
  let (s, extent) ← located scalar
  return .scalar extent s

def arrayNode (element : Reader Node) : Reader Node := do
  let (elements, extent) ← located do
    skip '['
    (arrayBody element).commit
  return .array extent elements

def braceNode (value : Reader Node) : Reader Node := do
  let (t, extent) ← located do
    skip '{'
    (braceBody value).commit
  return .table { t with extent := some extent }

def tooDeep : Reader Node := fun text =>
  .stop { rest := text, objection := some .tooDeep }

/-- A value. Its arrays and tables in braces may be nested as deep as the number of levels says. -/
def value : Nat → Reader Node
  | 0, text =>
    match text with
    | '[' :: _ | '{' :: _ => tooDeep text
    | _ => scalarNode text
  | levels + 1, text =>
    match text with
    | '[' :: _ => arrayNode (value levels) text
    | '{' :: _ => braceNode (value levels) text
    | _ => scalarNode text

end BackendAssembly.Reader
