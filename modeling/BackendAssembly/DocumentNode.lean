import BackendAssembly.Binary64

namespace BackendAssembly

structure Extent where
  start : Nat
  stop : Nat
  deriving DecidableEq, Repr

structure Key where
  name : String
  extent : Extent
  deriving DecidableEq, Repr

/-- A value without parts. Of a date or a time only that it is one is kept. -/
inductive Scalar where
  | boolean (b : Bool)
  | integer (n : Int64)
  | float (x : Binary64)
  | string (s : String)
  | moment
  deriving DecidableEq, Repr

/-- How a table came about: by a heading of its own, as a step on the way to another heading, as a step of a dotted
key, or in braces. -/
inductive Origin where
  | heading | passed | dotted | inline
  deriving DecidableEq, Repr

structure TableOf (ν : Type) where
  origin : Origin
  extent : Option Extent := none
  entries : List (Key × ν) := []

inductive Node where
  | scalar (extent : Extent) (value : Scalar)
  | array (extent : Extent) (elements : List Node)
  | table (t : TableOf Node)
  | tables (elements : List (TableOf Node))

abbrev Table := TableOf Node

namespace TableOf

variable {ν : Type}

def find? (t : TableOf ν) (name : String) : Option ν :=
  (t.entries.find? fun entry => entry.1.name == name).map Prod.snd

def push (t : TableOf ν) (key : Key) (value : ν) : TableOf ν :=
  { t with entries := t.entries ++ [(key, value)] }

def set (t : TableOf ν) (name : String) (value : ν) : TableOf ν :=
  { t with entries := t.entries.map fun entry => if entry.1.name == name then (entry.1, value) else entry }

def erase (t : TableOf ν) (name : String) : TableOf ν :=
  { t with entries := t.entries.filter fun entry => entry.1.name != name }

theorem find?_eq_none_iff {t : TableOf ν} {name : String} :
    t.find? name = none ↔ name ∉ t.entries.map fun entry => entry.1.name := by
  rw [find?, Option.map_eq_none_iff, List.find?_eq_none, List.mem_map]
  constructor
  · rintro h ⟨entry, hentry, rfl⟩
    exact h entry hentry (beq_self_eq_true _)
  · exact fun h entry hentry heq => h ⟨entry, hentry, eq_of_beq heq⟩

theorem mem_of_find? {t : TableOf ν} {name : String} {value : ν} (h : t.find? name = some value) :
    ∃ entry ∈ t.entries, entry.1.name = name ∧ entry.2 = value := by
  obtain ⟨entry, hfound, hvalue⟩ := Option.map_eq_some_iff.mp h
  have hname : (entry.1.name == name) = true :=
    List.find?_some (p := fun entry : Key × ν => entry.1.name == name) hfound
  exact ⟨entry, List.mem_of_find?_eq_some hfound, eq_of_beq hname, hvalue⟩

theorem map_name_set (t : TableOf ν) (name : String) (value : ν) :
    (t.set name value).entries.map (fun entry => entry.1.name) = t.entries.map fun entry => entry.1.name := by
  rw [set, List.map_map]
  refine List.map_congr_left fun entry _ => ?_
  dsimp only [Function.comp_apply]
  split <;> rfl

end TableOf

namespace Node

def kindName : Node → String
  | scalar _ (.boolean _) => "boolean"
  | scalar _ (.integer _) => "integer"
  | scalar _ (.float _) => "float"
  | scalar _ (.string _) => "string"
  | scalar _ .moment => "datetime"
  | array _ _ => "array"
  | table t => if t.origin = .inline then "inline table" else "table"
  | tables _ => "array of tables"

def extent? : Node → Option Extent
  | scalar extent _ => some extent
  | array extent _ => some extent
  | table t => t.extent
  | tables elements => do
    let first ← (← elements.head?).extent
    let last ← (← elements.getLast?).extent
    return ⟨first.start, last.stop⟩

end Node

end BackendAssembly
