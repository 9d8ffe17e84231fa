import BackendAssembly.ValueReader

namespace BackendAssembly

inductive Statement where
  | heading (path : List Key) (extent : Extent)
  | listHeading (path : List Key) (extent : Extent)
  | assignment (path : List Key) (key : Key) (value : Node)

namespace Reader

def lastOnLine : Reader Unit :=
  (lineTrail.orExpected "newline").orExpected "`#`"

def headingPath (opening closing : String) : Reader (List Key) := do
  word opening.toList
  let keys ← keyPath.commit
  (((word closing.toList).commit).orExpected "`.`").orExpected ("`" ++ closing ++ "`")
  return keys

def bracketed (opening closing : String) : Reader (List Key × Extent) := do
  let heading ← located (headingPath opening closing)
  ((lineTrail.commit).orExpected "newline").orExpected "`#`"
  return heading

def headingLine : Reader Statement := fun text =>
  match text with
  | ['['] => .miss { rest := text, kind := some "table header" }
  | '[' :: '[' :: _ =>
    ((do let (keys, extent) ← bracketed "[[" "]]"; return Statement.listHeading keys extent : Reader Statement).inside
      "table header") text
  | _ =>
    ((do let (keys, extent) ← bracketed "[" "]"; return Statement.heading keys extent : Reader Statement).inside
      "table header") text

def assignmentLine : Reader Statement := do
  let (path, key) := splitPath (← keyPath)
  commit do
    ((skip '=').orExpected "`.`").orExpected "`=`"
    blanks
    let v ← value depthLimit
    lastOnLine
    return .assignment path key v

/-- A line from its first character on, which is not a blank. Comments and empty lines say nothing. -/
def statementLine : Reader (Option Statement) := fun text =>
  match text with
  | '#' :: _ => ((do comment; lineEnd; return none : Reader (Option Statement)).commit) text
  | '[' :: _ => ((do return some (← headingLine) : Reader (Option Statement)).commit) text
  | '\n' :: _ | '\r' :: _ => (do newline; return none : Reader (Option Statement)) text
  | _ => ((do return some (← assignmentLine) : Reader (Option Statement)).commit) text

end Reader

structure Placed where
  text : List Char
  statement : Statement

def statements (text : List Char) : List Placed × Option Fault :=
  let text' := text.dropWhile isBlank
  match text' with
  | [] => ([], none)
  | _ :: _ =>
    match Reader.statementLine text' with
    | .stop fault => ([], some fault)
    | .miss _ => ([], some { rest := text' })
    | .done said rest =>
      if rest.length < text.length then
        let (more, fault) := statements rest
        match said with
        | none => (more, fault)
        | some statement => (⟨text', statement⟩ :: more, fault)
      else ([], some { rest := text' })
termination_by text.length

end BackendAssembly
