import BackendAssembly.OrderedEntries
import BackendAssembly.Layout

namespace BackendAssembly

/-- The value of a constant that the runtime publishes: a switch, or a number such as a size or a feature word. -/
inductive Constant where
  | bool (b : Bool)
  | int (n : Int64)
  deriving DecidableEq, Repr

namespace Constant

def isTruthy : Constant → Bool
  | bool b => b
  | int n => n != 0

def text : Constant → String
  | bool true => "true"
  | bool false => "false"
  | int n => toString n.toInt

end Constant

/-- The runtime's constants by name, kept in the order of the names' code points. -/
structure Store where
  entries : List (String × Constant)
  ascending : Ascending Prod.fst entries
  deriving DecidableEq

namespace Store

def empty : Store :=
  ⟨[], ascending_nil _⟩

def insert (s : Store) (name : String) (value : Constant) : Store :=
  ⟨insertByKey Prod.fst (name, value) s.entries, ascending_insertByKey _ s.ascending⟩

def insertAll (s : Store) (pairs : List (String × Constant)) : Store :=
  pairs.foldl (fun s pair => s.insert pair.1 pair.2) s

def ofList (pairs : List (String × Constant)) : Store :=
  empty.insertAll pairs

def nameLE (a b : String × Constant) : Bool :=
  decide (a.1 ≤ b.1)

theorem nameLE_iff {a b : String × Constant} : nameLE a b = true ↔ a.1 ≤ b.1 :=
  decide_eq_true_iff

theorem nameLE_trans (a b c : String × Constant) (hab : nameLE a b = true) (hbc : nameLE b c = true) :
    nameLE a c = true :=
  nameLE_iff.mpr (String.le_trans (nameLE_iff.mp hab) (nameLE_iff.mp hbc))

theorem nameLE_total (a b : String × Constant) : (nameLE a b || nameLE b a) = true := by
  rw [Bool.or_eq_true, nameLE_iff, nameLE_iff]
  exact String.le_total a.1 b.1

theorem pairwise_mergeSort_nameLE (pairs : List (String × Constant)) :
    (pairs.mergeSort nameLE).Pairwise fun a b => ¬b.1 < a.1 := by
  refine (List.pairwise_mergeSort nameLE_trans nameLE_total pairs).imp fun {a b} h => ?_
  exact String.not_lt.mpr (nameLE_iff.mp h)

/-- Takes the constants in all at once. They are sorted by name, with those of one name left in the order in which they
come, and of these the last one stays. -/
def collect (pairs : List (String × Constant)) : Store :=
  ⟨lastOfEach Prod.fst (pairs.mergeSort nameLE), ascending_lastOfEach (pairwise_mergeSort_nameLE pairs)⟩

def get? (s : Store) (name : String) : Option Constant :=
  s.entries.lookup name

def exchange (s : Store) (name : String) (value : Constant) : Option Constant × Store :=
  (s.get? name, s.insert name value)

def toList (s : Store) : List (String × Constant) :=
  s.entries

def names (s : Store) : List String :=
  s.entries.map Prod.fst

def size (s : Store) : Nat :=
  s.entries.length

def isEmpty (s : Store) : Bool :=
  s.entries.isEmpty

def isSet (s : Store) (name : String) : Bool :=
  (s.get? name).any Constant.isTruthy

theorem get?_empty (name : String) : empty.get? name = none := rfl

theorem get?_insert (s : Store) (name k : String) (value : Constant) :
    (s.insert name value).get? k = if k = name then some value else s.get? k :=
  lookup_insertByKey name value s.entries k

theorem insertAll_nil (s : Store) : s.insertAll [] = s := rfl

theorem insertAll_cons (s : Store) (pair : String × Constant) (pairs : List (String × Constant)) :
    s.insertAll (pair :: pairs) = (s.insert pair.1 pair.2).insertAll pairs := rfl

end Store

/-- A name that no runtime publishes: an empty one, or one with white space in it. -/
def isBadName (name : String) : Bool :=
  name.isEmpty || name.toList.any isWhiteSpace

def Store.firstBadName? (s : Store) : Option String :=
  s.names.find? isBadName

end BackendAssembly
