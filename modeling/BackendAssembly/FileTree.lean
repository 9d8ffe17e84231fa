import BackendAssembly.Layout
import BackendAssembly.StoreFile

namespace BackendAssembly

inductive FileTree where
  | file (bytes : ByteArray)
  | directory (entries : List (String × FileTree))

namespace FileTree

def empty : FileTree :=
  directory []

/-- Makes a file where the names lead, or a directory if no bytes are given, and the directories on the way. What is
there already as a directory stays one, and a file on the way stays too. -/
def make (bytes : Option ByteArray) : List String → FileTree → FileTree
  | [], here =>
    match bytes with
    | some bytes => file bytes
    | none => here
  | _ :: _, file bytes => file bytes
  | name :: rest, directory entries =>
    directory ((name, make bytes rest ((entries.lookup name).getD empty)) :: entries.filter fun e => e.1 != name)

def maxPath : Nat := 4095

def maxName : Nat := 255

/-- Follows the names of a path from a directory, whose own directories are given innermost first. What lies outside
of the outermost one is unknown and counts as empty. -/
def walk (parents : List FileTree) (here : FileTree) : List String → FileRead
  | [] =>
    match here with
    | file bytes => .contents bytes
    | directory _ => .failed .isDirectory
  | name :: rest =>
    match here with
    | file _ => .failed .notADirectory
    | directory entries =>
      if name = "" ∨ name = "." then walk parents here rest
      else if name = ".." then
        match parents with
        | [] => walk [] empty rest
        | parent :: others => walk others parent rest
      else if maxName < name.utf8ByteSize then .failed .nameTooLong
      else
        match entries.lookup name with
        | none => .absent
        | some tree => walk (here :: parents) tree rest

def read (tree : FileTree) (path : String) : FileRead :=
  if path = "" then .absent
  else if '\x00' ∈ path.toList then .failed .nulInName
  else if maxPath < path.utf8ByteSize then .failed .nameTooLong
  else
    match pieces '/' path with
    | "" :: names => walk [] empty names
    | names => walk [] tree names

end FileTree

end BackendAssembly
