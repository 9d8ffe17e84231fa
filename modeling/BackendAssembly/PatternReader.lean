import BackendAssembly.LetterReader

namespace BackendAssembly.Pattern

def readCount (text : List Sign) : Option Nat × List Sign :=
  let digits := (text.takeWhile fun s => s.digit?.isSome).filterMap Sign.digit?
  let count := digits.foldl (fun n d => n * 10 + d) 0
  (if digits.isEmpty then none else some count, text.dropWhile fun s => s.digit?.isSome)

structure Repetition where
  least : Nat
  most : Option Nat
  rest : List Sign

def required (count : Option Nat) (text : List Sign) : Except PatternFault Nat :=
  count.elim (.error ⟨.countMissing, text, 1⟩) .ok

def readBounds (text : List Sign) : Except PatternFault Repetition := do
  let upTo (flaw : Flaw) (rest : List Sign) : PatternFault :=
    ⟨flaw, .plain '\x7b' :: text, 1 + signWidth text - signWidth rest⟩
  let (least, rest) := readCount text
  match rest with
  | [] | [.plain ','] => .error (upTo .countNotClosed [])
  | .plain '\x7d' :: behind => do
    let n ← required least rest
    return ⟨n, some n, behind⟩
  | .plain ',' :: .plain '\x7d' :: behind => return ⟨← required least rest, none, behind⟩
  | .plain ',' :: more => do
    let least ← required least rest
    let (most, rest) := readCount more
    let most ← required most rest
    match rest with
    | .plain '\x7d' :: behind =>
      if least ≤ most then return ⟨least, some most, behind⟩ else .error (upTo .countsReversed behind)
    | _ => .error (upTo .countNotClosed rest)
  | _ => do
    let _ ← required least rest
    .error (upTo .countNotClosed rest)

def repetition? : List Sign → Option (Except PatternFault Repetition)
  | .plain '*' :: rest => some (.ok ⟨0, none, rest⟩)
  | .plain '+' :: rest => some (.ok ⟨1, none, rest⟩)
  | .plain '?' :: rest => some (.ok ⟨0, some 1, rest⟩)
  | .plain '\x7b' :: rest => some (readBounds rest)
  | _ => none

/-- What has been read of a group: the alternatives that are complete, and the row of patterns of the one that is not,
the last first. -/
structure Group where
  opening : List Sign := []
  flags : Flags := {}
  alternatives : List Pattern := []
  row : List Pattern := []

namespace Group

def add (g : Group) (p : Pattern) : Group :=
  { g with row := p :: g.row }

def complete (g : Group) : Group :=
  { g with alternatives := inRow g.row :: g.alternatives, row := [] }

def pattern (g : Group) : Pattern :=
  g.alternatives.foldl (fun p q => either q p) (inRow g.row)

end Group

structure Draft where
  group : Group := {}
  outer : List Group := []

namespace Draft

def add (d : Draft) (p : Pattern) : Draft :=
  { d with group := d.group.add p }

def openGroup (d : Draft) (text : List Sign) (flags : Flags) : Draft where
  group := { opening := text, flags }
  outer := d.group :: d.outer

/-- Repeats the last pattern of the row. It makes no difference whether few or many repetitions are preferred. -/
def repeatLast (d : Draft) (text : List Sign) (r : Except PatternFault Repetition) :
    Except PatternFault (Draft × List Sign) :=
  match d.group.row with
  | [] => .error ⟨.nothingToRepeat, text, 1⟩
  | p :: row => do
    let r ← r
    let rest := if r.rest.head? = some (.plain '?') then r.rest.tail else r.rest
    return ({ d with group := { d.group with row := p.times r.least r.most :: row } }, rest)

/-- Reads flags in front of a group, or for what is left of the group that is open. Those behind a hyphen are
cleared. -/
def readFlags (d : Draft) (text : List Sign) (flags : Flags) (value : Bool) :
    List Sign → Except PatternFault (Draft × List Sign)
  | [] => .error ⟨.flagMissing, [], 1⟩
  | .plain ':' :: rest => .ok (d.openGroup text flags, rest)
  | .plain ')' :: rest => .ok ({ d with group := { d.group with flags } }, rest)
  | .plain '-' :: rest =>
    match rest with
    | .plain ':' :: _ | .plain ')' :: _ => .error ⟨.danglingNegation, .plain '-' :: rest, 1⟩
    | _ => d.readFlags text flags false rest
  | s :: rest =>
    match flags.set? value s with
    | some flags => d.readFlags text flags value rest
    | none => .error ⟨.unknownFlag, s :: rest, 1⟩

def readOpening (d : Draft) (text : List Sign) : List Sign → Except PatternFault (Draft × List Sign)
  | .plain '?' :: .plain '=' :: _ | .plain '?' :: .plain '!' :: _ => .error ⟨.lookAround, text, 3⟩
  | .plain '?' :: .plain '<' :: .plain '=' :: _ | .plain '?' :: .plain '<' :: .plain '!' :: _ =>
    .error ⟨.lookAround, text, 4⟩
  | .plain '?' :: .plain '<' :: rest | .plain '?' :: .plain 'P' :: .plain '<' :: rest =>
    .ok (d.openGroup text d.group.flags, (rest.dropWhile (· != .plain '>')).tail)
  | [.plain '?'] => .error ⟨.groupNotClosed, text, 1⟩
  | .plain '?' :: .plain ')' :: rest => .error ⟨.nothingToRepeat, .plain '?' :: .plain ')' :: rest, 1⟩
  | .plain '?' :: rest => d.readFlags text d.group.flags true rest
  | rest => .ok (d.openGroup text d.group.flags, rest)

def step (d : Draft) (text : List Sign) : Except PatternFault (Draft × List Sign) :=
  match repetition? text with
  | some r => d.repeatLast text r
  | none =>
    match text with
    | [] => .ok (d, [])
    | .plain '(' :: rest => d.readOpening text rest
    | .plain ')' :: rest =>
      match d.outer with
      | [] => .error ⟨.groupNotOpened, text, 1⟩
      | g :: outer => .ok (⟨g.add d.group.pattern, outer⟩, rest)
    | .plain '|' :: rest => .ok ({ d with group := d.group.complete }, rest)
    | .plain '[' :: rest => do
      let (set, rest) ← readSet rest
      return (d.add (.letter (d.group.flags.letters set)), rest)
    | s :: rest => return (d.add (← atSign (ofSign d.group.flags) s rest), rest)

end Draft

def readParts (d : Draft) (text : List Sign) : Except PatternFault Pattern :=
  match text with
  | [] =>
    match d.outer with
    | [] => .ok d.group.pattern
    | _ :: _ => .error ⟨.groupNotClosed, d.group.opening, 1⟩
  | s :: behind =>
    match d.step (s :: behind) with
    | .error fault => .error fault
    | .ok (d, rest) => if _h : rest.length < (s :: behind).length then readParts d rest else .ok d.group.pattern
termination_by text.length
decreasing_by
  simp only [List.length_cons] at _h ⊢
  omega

def ofText (text : List Char) : Except PatternFault Pattern :=
  readParts {} (Sign.ofText text)

end BackendAssembly.Pattern
