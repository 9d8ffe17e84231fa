namespace BackendAssembly

inductive Objection where
  | duplicateKey (key : String) (table : Option (List String))
  | notATable (path : List String) (actual : String)
  | outOfRange
  | tooDeep
  | tooLarge
  | tooSmall
  deriving DecidableEq, Repr

def Objection.message : Objection → String
  | duplicateKey key none => "duplicate key `" ++ key ++ "`"
  | duplicateKey key (some []) => "duplicate key `" ++ key ++ "` in document root"
  | duplicateKey key (some path) => "duplicate key `" ++ key ++ "` in table `" ++ ".".intercalate path ++ "`"
  | notATable path actual =>
    "dotted key `" ++ ".".intercalate path ++ "` attempted to extend non-table type (" ++ actual ++ ")"
  | outOfRange => "value is out of range"
  | tooDeep => "recursion limit exceeded"
  | tooLarge => "number too large to fit in target type"
  | tooSmall => "number too small to fit in target type"

/-- Why reading stopped: the text not yet read, the innermost thing that was being read, what would have fitted there,
and what was wrong with what stood there. -/
structure Fault where
  rest : List Char
  kind : Option String := none
  expected : List String := []
  objection : Option Objection := none
  deriving DecidableEq, Repr

namespace Fault

def inside (kind : String) (fault : Fault) : Fault :=
  { fault with kind := fault.kind <|> some kind }

def orExpected (what : String) (fault : Fault) : Fault :=
  { fault with expected := fault.expected ++ [what] }

def message (fault : Fault) : String :=
  let kind := fault.kind.map fun kind => "invalid " ++ kind
  let expected := if fault.expected.isEmpty then none else some ("expected " ++ ", ".intercalate fault.expected)
  "\n".intercalate ([kind, expected, fault.objection.map Objection.message].filterMap id)

end Fault

/-- What reading comes to. After a miss another form may fit at the same place; a stop refuses the document. -/
inductive Reading (α : Type) where
  | done (value : α) (rest : List Char)
  | miss (fault : Fault)
  | stop (fault : Fault)

namespace Reading

variable {α β : Type}

def map (f : α → β) : Reading α → Reading β
  | done a rest => done (f a) rest
  | miss fault => miss fault
  | stop fault => stop fault

def mapFault (f : Fault → Fault) : Reading α → Reading α
  | done a rest => done a rest
  | miss fault => miss (f fault)
  | stop fault => stop (f fault)

end Reading

def Reader (α : Type) := List Char → Reading α

namespace Reader

variable {α β : Type}

def bind (p : Reader α) (f : α → Reader β) : Reader β := fun text =>
  match p text with
  | .done a rest => f a rest
  | .miss fault => .miss fault
  | .stop fault => .stop fault

instance : Monad Reader where
  pure a := fun text => .done a text
  bind := bind

theorem bind_apply (p : Reader α) (f : α → Reader β) (text : List Char) :
    (p >>= f) text = match p text with
      | .done a rest => f a rest
      | .miss fault => .miss fault
      | .stop fault => .stop fault := rfl

def fail : Reader α := fun text => .miss { rest := text }

def or (p q : Reader α) : Reader α := fun text =>
  match p text with
  | .miss _ => q text
  | reading => reading

def commit (p : Reader α) : Reader α := fun text =>
  match p text with
  | .miss fault => .stop fault
  | reading => reading

def inside (kind : String) (p : Reader α) : Reader α := fun text =>
  (p text).mapFault (Fault.inside kind)

def orExpected (what : String) (p : Reader α) : Reader α := fun text =>
  (p text).mapFault (Fault.orExpected what)

def optional (p : Reader α) : Reader (Option α) := fun text =>
  match p text with
  | .done a rest => .done (some a) rest
  | .miss _ => .done none text
  | .stop fault => .stop fault

/-- What was read is looked at; an objection is a miss at the start of the form. -/
def check (p : Reader α) (f : α → Except Objection β) : Reader β := fun text =>
  match p text with
  | .done a rest =>
    match f a with
    | .ok b => .done b rest
    | .error objection => .miss { rest := text, objection := some objection }
  | .miss fault => .miss fault
  | .stop fault => .stop fault

def char (p : Char → Bool) : Reader Char
  | c :: rest => if p c then .done c rest else .miss { rest := c :: rest }
  | [] => .miss { rest := [] }

def skip (c : Char) : Reader Unit := fun text =>
  (char (· == c) text).map fun _ => ()

def word (w : List Char) : Reader Unit := fun text =>
  if w.isPrefixOf text then .done () (text.drop w.length) else .miss { rest := text }

def chars (p : Char → Bool) : Reader (List Char) := fun text =>
  .done (text.takeWhile p) (text.dropWhile p)

def someChars (p : Char → Bool) : Reader (List Char) := fun text =>
  if (text.takeWhile p).isEmpty then .miss { rest := text } else chars p text

def exactly (n : Nat) (p : Char → Bool) : Reader (List Char) := fun text =>
  if (text.take n).length = n ∧ (text.take n).all p then .done (text.take n) (text.drop n)
  else .miss { rest := text }

/-- The form as often as it fits. It ends where the form takes nothing, so that it ends at all. -/
def many (p : Reader α) (text : List Char) : Reading (List α) :=
  match p text with
  | .done a rest => if rest.length < text.length then (many p rest).map (a :: ·) else .done [] text
  | .miss _ => .done [] text
  | .stop fault => .stop fault
termination_by text.length

def someSeparated (separator : Reader Unit) (p : Reader α) : Reader (List α) := do
  let first ← p
  let others ← many (do separator; p)
  return first :: others

def separated (separator : Reader Unit) (p : Reader α) : Reader (List α) :=
  (someSeparated separator p).or (pure [])

def sees (c : Char) : Reader Bool := fun text =>
  .done (text.head? == some c) text

theorem many_of_miss {p : Reader α} {text : List Char} {fault : Fault} (h : p text = .miss fault) :
    many p text = .done [] text := by
  rw [many, h]

theorem many_of_done {p : Reader α} {text rest : List Char} {a : α} (h : p text = .done a rest)
    (hlt : rest.length < text.length) : many p text = (many p rest).map (a :: ·) := by
  rw [many, h]
  exact if_pos hlt

end Reader

end BackendAssembly
