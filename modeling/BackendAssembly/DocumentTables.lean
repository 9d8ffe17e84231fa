import BackendAssembly.DocumentNode
import BackendAssembly.Lexical

namespace BackendAssembly

inductive Passage where
  | heading | dottedKey | braces
  deriving DecidableEq, Repr

def Passage.origin : Passage → Origin
  | heading => .passed
  | dottedKey | braces => .dotted

/-- Why a table is closed to a passage, if it is: braces close a table for good, and a table with a heading is closed to
dotted keys. -/
def Passage.objection? (passage : Passage) (gone : List String) (key : Key) : Origin → Option Objection
  | .inline => some (if passage = .braces then .duplicateKey key.name none else .notATable gone "inline table")
  | .heading => if passage = .dottedKey then some (.duplicateKey key.name none) else none
  | .passed | .dotted => none

/-- Goes down a path and acts on the table at its end. Tables that are missing on the way come into being, and the way
through a list of tables leads into its last one. The names passed so far are `gone`. -/
def Table.visit {α : Type} (passage : Passage) (act : Table → Except Objection (α × Table)) :
    List String → List Key → Table → Except Objection (α × Table)
  | _, [], t => act t
  | gone, key :: keys, t =>
    let gone := gone ++ [key.name]
    match t.find? key.name with
    | none => do
      let (a, child) ← visit passage act gone keys { origin := passage.origin }
      return (a, t.push key (.table child))
    | some (.table child) =>
      match passage.objection? gone key child.origin with
      | some objection => .error objection
      | none => do
        let (a, child) ← visit passage act gone keys child
        return (a, t.set key.name (.table child))
    | some (.tables (element :: elements)) => do
      let all := element :: elements
      let (a, last) ← visit passage act gone keys (all.getLast (List.cons_ne_nil _ _))
      return (a, t.set key.name (.tables (all.dropLast ++ [last])))
    | some other => .error (.notATable gone other.kindName)

def Table.enter (passage : Passage) (sectionPath : Option (List String)) (path : List Key) (key : Key) (value : Node)
    (t : Table) : Except Objection Table := do
  let add (last : Table) : Except Objection (Unit × Table) :=
    if (last.origin == .dotted) == path.isEmpty then .error (.duplicateKey key.name none)
    else match last.find? key.name with
      | none => .ok ((), last.push key value)
      | some _ => .error (.duplicateKey key.name sectionPath)
  let ((), t) ← t.visit passage add [] path
  return t

def Table.ofPairs (pairs : List (List Key × Key × Node)) : Except Objection Table :=
  pairs.foldlM (fun t (path, key, value) => t.enter .braces none path key value) { origin := .inline }

end BackendAssembly
