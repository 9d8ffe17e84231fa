import BackendAssembly.Pattern
import BackendAssembly.PatternFault

namespace BackendAssembly.Pattern

/-- The letters behind a backslash that stand for a set of characters. Punctuation there stands for itself. -/
def escapedLetters? : Char → Option Letters
  | 'd' => some .digits
  | 'D' => some (.outside .digits)
  | 'w' => some .wordLetters
  | 'W' => some (.outside .wordLetters)
  | 's' => some .blanks
  | 'S' => some (.outside .blanks)
  | 'a' => some (.one '\x07')
  | 'f' => some (.one '\x0c')
  | 'n' => some (.one '\n')
  | 'r' => some (.one '\r')
  | 't' => some (.one '\t')
  | 'v' => some (.one '\x0b')
  | c => if c.toNat < 0x80 ∧ !c.isAlphanum ∧ c ≠ '<' ∧ c ≠ '>' then some (.one c) else none

def escapeFlaw (c : Char) : Flaw :=
  if c.isDigit then .backreference
  else if c = 'A' ∨ c = 'z' ∨ c = 'b' ∨ c = 'B' then .placeInSet
  else .unknownEscape

def lettersOfSign : Sign → Except Flaw Letters
  | .plain c => .ok (.one c)
  | .escaped c => (escapedLetters? c).elim (.error (escapeFlaw c)) .ok
  | .dangling => .error .unfinishedEscape

structure Flags where
  anyCase : Bool := false
  severalLines : Bool := false
  dotForAll : Bool := false

namespace Flags

def set? (flags : Flags) (value : Bool) : Sign → Option Flags
  | .plain 'i' => some { flags with anyCase := value }
  | .plain 'm' => some { flags with severalLines := value }
  | .plain 's' => some { flags with dotForAll := value }
  | .plain 'U' | .plain 'u' => some flags
  | _ => none

def letters (flags : Flags) (set : Letters) : Letters :=
  if flags.anyCase then set.anyCase else set

end Flags

def ofSign (flags : Flags) : Sign → Except Flaw Pattern
  | .plain '^' => .ok (if flags.severalLines then .atLineStart else .atStart)
  | .plain '$' => .ok (if flags.severalLines then .atLineEnd else .atEnd)
  | .escaped 'A' => .ok .atStart
  | .escaped 'z' => .ok .atEnd
  | .escaped 'b' => .ok (.wordEdge false)
  | .escaped 'B' => .ok (.wordEdge true)
  | .plain '.' => .ok (.letter (if flags.dotForAll then .outside .none else .outside (.one '\n')))
  | s => (lettersOfSign s).map fun set => .letter (flags.letters set)

def atSign {α : Type} (f : Sign → Except Flaw α) (s : Sign) (rest : List Sign) : Except PatternFault α :=
  (f s).mapError fun flaw => ⟨flaw, s :: rest, s.width⟩

def boundary (s : Sign) : Except Flaw Char := do
  match ← lettersOfSign s with
  | .between c c' => if c = c' then .ok c else .error .boundaryNotALetter
  | _ => .error .boundaryNotALetter

/-- The characters of a set, which are single or in ranges. What stands behind the set is given only to say where a
flaw is. There are no sets within the set. -/
def lettersOfSigns (behind : List Sign) : List Sign → Except PatternFault Letters
  | [] => .ok .none
  | a :: .plain '-' :: b :: rest => do
    let first ← atSign boundary a (.plain '-' :: b :: rest ++ behind)
    let last ← atSign boundary b (rest ++ behind)
    if first ≤ last then return .either (.between first last) (← lettersOfSigns behind rest)
    else .error ⟨.rangeReversed, a :: .plain '-' :: b :: rest ++ behind, a.width + 1 + b.width⟩
  | a :: rest => do
    let set ← atSign lettersOfSign a (rest ++ behind)
    return .either set (← lettersOfSigns behind rest)

/-- The signs of a set and what follows from the closing bracket on. A bracket right at the start does not close. -/
def splitSet : List Sign → List Sign × List Sign
  | .plain ']' :: rest => (.plain ']' :: rest.takeWhile (· != .plain ']'), rest.dropWhile (· != .plain ']'))
  | text => (text.takeWhile (· != .plain ']'), text.dropWhile (· != .plain ']'))

/-- A set in brackets, from behind its opening bracket, and what follows it. Hyphens right at the start stand for
themselves. -/
def readSet (text : List Sign) : Except PatternFault (Letters × List Sign) := do
  let inverted := text.head? == some (.plain '^')
  let (signs, behind) := splitSet (if inverted then text.tail else text)
  let hyphens := signs.takeWhile (· == .plain '-')
  let start := if hyphens.isEmpty then Letters.none else .one '-'
  let set := Letters.either start (← lettersOfSigns behind (signs.drop hyphens.length))
  match behind with
  | [] =>
    let opening := 1 + inverted.toNat + hyphens.length + (signs.head? == some (.plain ']')).toNat
    .error ⟨.setNotClosed, .plain '[' :: text, opening⟩
  | _ :: rest => return (if inverted then .outside set else set, rest)

end BackendAssembly.Pattern
