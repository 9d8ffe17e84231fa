namespace BackendAssembly

inductive Letters where
  | between (first last : Char)
  | either (a b : Letters)
  | outside (a : Letters)
  | none
  deriving DecidableEq, Repr

namespace Letters

def has : Letters → Char → Bool
  | between first last, c => first ≤ c && c ≤ last
  | either a b, c => a.has c || b.has c
  | outside a, c => !a.has c
  | none, _ => false

def one (c : Char) : Letters :=
  between c c

def digits : Letters :=
  between '0' '9'

def wordLetters : Letters :=
  either (either (between 'a' 'z') (between 'A' 'Z')) (either digits (one '_'))

def blanks : Letters :=
  either (one ' ') (between '\t' '\r')

def otherCase (c : Char) : Char :=
  if c.isUpper then c.toLower else c.toUpper

def anyCase : Letters → Letters
  | between first last =>
    let others := "ABCDEFGHIJKLMNOPQRSTUVWXYZabcdefghijklmnopqrstuvwxyz".toList.filter fun c =>
      (between first last).has (otherCase c)
    others.foldl (fun set c => either set (one c)) (between first last)
  | either a b => either a.anyCase b.anyCase
  | outside a => outside a.anyCase
  | none => none

end Letters

inductive Pattern where
  | empty
  | letter (set : Letters)
  | atStart
  | atEnd
  | atLineStart
  | atLineEnd
  | wordEdge (inverted : Bool)
  | followedBy (p q : Pattern)
  | either (p q : Pattern)
  | repeated (p : Pattern)
  deriving DecidableEq, Repr

namespace Pattern

def isWordEdge (text : List Char) (i : Nat) : Bool :=
  let inWord (c : Option Char) : Bool := c.any Letters.wordLetters.has
  inWord text[i]? != (if i = 0 then false else inWord text[i - 1]?)

/-- Adds the places that any number of steps leads to. With each round comes a new place or the search is over. -/
def reach (step : List Nat → List Nat) : Nat → List Nat → List Nat → List Nat
  | 0, found, _ => found
  | rounds + 1, found, latest =>
    let new := (step latest).filter fun i => !found.contains i
    if new.isEmpty then found else reach step rounds (found ++ new) new

/-- The places of a text where a stretch may end that looks like this and begins at one of the given places. -/
def ends (text : List Char) : Pattern → List Nat → List Nat
  | empty, starts => starts
  | letter set, starts => (starts.filter fun i => text[i]?.any set.has).map (· + 1)
  | atStart, starts => starts.filter (· == 0)
  | atEnd, starts => starts.filter (· == text.length)
  | atLineStart, starts => starts.filter fun i => i == 0 || text[i - 1]? == some '\n'
  | atLineEnd, starts => starts.filter fun i => i == text.length || text[i]? == some '\n'
  | wordEdge inverted, starts => starts.filter fun i => isWordEdge text i != inverted
  | followedBy p q, starts => q.ends text (p.ends text starts)
  | either p q, starts => (p.ends text starts ++ q.ends text starts).eraseDups
  | repeated p, starts => reach (p.ends text) (text.length + 1) starts starts

def occursIn (p : Pattern) (text : List Char) : Bool :=
  !(p.ends text (List.range (text.length + 1))).isEmpty

def copies (n : Nat) (p : Pattern) : Pattern :=
  (List.replicate n p).foldl followedBy empty

def times (p : Pattern) (least : Nat) : Option Nat → Pattern
  | none => followedBy (p.copies least) (repeated p)
  | some most => followedBy (p.copies least) ((either p empty).copies (most - least))

/-- Patterns in a row, of which the last is given first. -/
def inRow (row : List Pattern) : Pattern :=
  row.foldl (fun p q => followedBy q p) empty

end Pattern

end BackendAssembly
