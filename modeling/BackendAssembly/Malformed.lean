import BackendAssembly.DocumentNode
import BackendAssembly.Layout
import BackendAssembly.Outline
import BackendAssembly.QuotedText
import BackendAssembly.Store

namespace BackendAssembly

structure Position where
  line : Nat
  column : Nat
  deriving DecidableEq, Repr

def lastLine (cs : List Char) : List Char :=
  (cs.reverse.takeWhile (· != '\n')).reverse

def byteSize (cs : List Char) : Nat :=
  cs.foldl (fun size c => size + c.utf8Size) 0

/-- The place between two parts of a text. The end of the text belongs to the line of its last character. Columns count
characters, or bytes where the character at the place is not ASCII. -/
def Position.between (before after : List Char) : Position :=
  match after, before.getLast? with
  | [], none => ⟨0, 0⟩
  | [], some _ => ⟨before.dropLast.count '\n', (lastLine before.dropLast).length + 1⟩
  | c :: _, _ => ⟨before.count '\n', if c.toNat < 0x80 then (lastLine before).length else byteSize (lastLine before)⟩

def textLines (text : List Char) : List (List Char) :=
  match text with
  | [] => [[]]
  | '\n' :: rest => [] :: textLines rest
  | c :: rest =>
    match textLines rest with
    | [] => [[c]]
    | l :: lines => (c :: l) :: lines

def excerpt (text : List Char) (extent : Extent) : String :=
  let before := text.take (text.length - extent.start)
  let after := text.drop (text.length - extent.start)
  let place := Position.between before after
  let number := toString (place.line + 1)
  let content := (textLines text)[place.line]?.getD []
  let width := min (byteSize (after.take (extent.start - extent.stop))) (byteSize content - place.column)
  let gutter := spaces (number.length + 1)
  line ("TOML parse error at line " ++ number ++ ", column " ++ toString (place.column + 1)) ++
  line (gutter ++ "|") ++
  line (number ++ " | " ++ String.ofList content) ++
  line (gutter ++ "|" ++ spaces (place.column + 1) ++ String.ofList (List.replicate (max width 1) '^'))

inductive Misfit where
  | notAConstant
  | notATable (actual : String)
  deriving DecidableEq, Repr

def Misfit.message : Misfit → String
  | notAConstant => "data did not match any variant of untagged enum ConfigValue"
  | notATable actual => "invalid type: " ++ actual ++ ", expected a map"

inductive Complaint where
  | unreadable (fault : Fault)
  | misfit (misfit : Misfit)
  deriving DecidableEq, Repr

def Complaint.message : Complaint → String
  | unreadable fault => fault.message
  | misfit m => m.message

structure Malformed where
  text : List Char
  extent : Extent
  complaint : Complaint
  deriving DecidableEq, Repr

def Malformed.report (m : Malformed) : String :=
  excerpt m.text m.extent ++ line m.complaint.message

def Fault.extent (fault : Fault) : Extent :=
  ⟨fault.rest.length, fault.rest.length - 1⟩

namespace Node

def constant? : Node → Option Constant
  | scalar _ (.boolean b) => some (.bool b)
  | scalar _ (.integer n) => some (.int n)
  | _ => none

/-- What a node is, for a complaint that it is no table. A date or a time passes for a table with one odd entry. -/
def asTable : Node → Except Misfit Table
  | table t => .ok t
  | scalar _ .moment => .error .notAConstant
  | scalar _ (.boolean b) => .error (.notATable ("boolean `" ++ toString b ++ "`"))
  | scalar _ (.integer n) => .error (.notATable ("integer `" ++ toString n.toInt ++ "`"))
  | scalar _ (.float x) => .error (.notATable ("floating point `" ++ x.text ++ "`"))
  | scalar _ (.string s) => .error (.notATable ("string " ++ quoted s))
  | array _ _ | tables _ => .error (.notATable "sequence")

end Node

namespace Table

def addEntry (store : Store) : Key × Node → Except (Misfit × Extent) Store
  | (key, node) =>
    match node.constant? with
    | some value => .ok (store.insert key.name value)
    | none => .error (.notAConstant, node.extent?.getD key.extent)

def toStore (t : Table) : Except (Misfit × Extent) Store :=
  t.entries.foldlM addEntry Store.empty

/-- The constants that a document holds. Without a table of them it holds none, and what else it holds is passed
over. -/
def constants (doc : Table) : Except (Misfit × Extent) Store :=
  match doc.entries.find? fun entry => entry.1.name == "constants" with
  | none => .ok Store.empty
  | some (key, node) =>
    match node.asTable with
    | .ok t => toStore t
    | .error misfit => .error (misfit, node.extent?.getD key.extent)

end Table

def readConstants (text : List Char) : Except Malformed Store :=
  match readDocument text with
  | .error fault => .error ⟨text, fault.extent, .unreadable fault⟩
  | .ok doc => doc.constants.mapError fun (misfit, extent) => ⟨text, extent, .misfit misfit⟩

end BackendAssembly
