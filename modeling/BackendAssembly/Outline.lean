import BackendAssembly.Statement

namespace BackendAssembly

/-- A document while its statements are taken in: the tables that are closed, and the one that is open, with the path of
its heading and whether it goes to the end of a list of tables. The table before the first heading has an empty path. -/
structure Outline where
  closed : Table := { origin := .heading }
  path : List Key := []
  inList : Bool := false
  current : Table := { origin := .heading }

namespace Outline

def names (keys : List Key) : List String :=
  keys.map Key.name

def repeated (parents : List Key) (key : Key) : Objection :=
  .duplicateKey (keyText key.name) (some (names parents))

def close (o : Outline) : Except Objection Table :=
  match o.path.getLast? with
  | none => .ok o.current
  | some key =>
    let place (parent : Table) : Except Objection (Unit × Table) :=
      match parent.find? key.name, o.inList with
      | none, true => .ok ((), parent.push key (.tables [o.current]))
      | none, false => .ok ((), parent.push key (.table o.current))
      | some (.tables elements), true => .ok ((), parent.set key.name (.tables (elements ++ [o.current])))
      | some _, _ => .error (repeated o.path.dropLast key)
    (o.closed.visit .heading place [] o.path.dropLast).map Prod.snd

/-- Opens the table of a heading. A table that other headings have passed through is taken up again with what it holds;
any other thing of that name is in the way. -/
def heading (o : Outline) (path : List Key) (extent : Extent) : Except Objection Outline := do
  let closed ← o.close
  let (parents, key) := Reader.splitPath path
  let takeUp (parent : Table) : Except Objection (List (Key × Node) × Table) :=
    match parent.find? key.name with
    | none => .ok ([], parent)
    | some (.table t) =>
      if t.origin = .passed then .ok (t.entries, parent.erase key.name) else .error (repeated parents key)
    | some _ => .error (repeated parents key)
  let (entries, closed) ← closed.visit .heading takeUp [] parents
  return { closed, path, current := { origin := .heading, extent := some extent, entries } }

def listHeading (o : Outline) (path : List Key) (extent : Extent) : Except Objection Outline := do
  let closed ← o.close
  let (parents, key) := Reader.splitPath path
  let lookUp (parent : Table) : Except Objection (Unit × Table) :=
    match parent.find? key.name with
    | none | some (.tables _) => .ok ((), parent)
    | some _ => .error (repeated parents key)
  let ((), closed) ← closed.visit .heading lookUp [] parents
  return { closed, path, inList := true, current := { origin := .heading, extent := some extent } }

def assign (o : Outline) (path : List Key) (key : Key) (value : Node) : Except Objection Outline := do
  let extent := o.current.extent.map fun extent =>
    { extent with stop := (value.extent?.map Extent.stop).getD extent.stop }
  let current ← Table.enter .dottedKey (some (names o.path)) path key value { o.current with extent }
  return { o with current }

def take (o : Outline) : Statement → Except Objection Outline
  | .heading path extent => o.heading path extent
  | .listHeading path extent => o.listHeading path extent
  | .assignment path key value => o.assign path key value

end Outline

def Placed.fault (p : Placed) (objection : Objection) : Fault :=
  match p.statement with
  | .assignment _ _ _ => { rest := p.text, objection := some objection }
  | _ => { rest := p.text, kind := some "table header", objection := some objection }

def Outline.takeAll (o : Outline) : List Placed → Except Fault Outline
  | [] => .ok o
  | p :: rest =>
    match o.take p.statement with
    | .ok o => o.takeAll rest
    | .error objection => .error (p.fault objection)

def skipMark : List Char → List Char
  | '\ufeff' :: rest => rest
  | text => text

/-- The document that a text holds, or why it holds none. Of two faults the earlier one counts. -/
def readDocument (text : List Char) : Except Fault Table :=
  let (said, fault) := statements (skipMark text)
  match Outline.takeAll {} said with
  | .error earlier => .error earlier
  | .ok o =>
    match fault with
    | some fault => .error fault
    | none => o.close.mapError fun objection => { rest := [], objection := some objection }

end BackendAssembly
