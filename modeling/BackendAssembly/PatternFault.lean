import BackendAssembly.Layout

namespace BackendAssembly

inductive Sign where
  | plain (c : Char)
  | escaped (c : Char)
  | dangling
  deriving DecidableEq, Repr

namespace Sign

def width : Sign → Nat
  | escaped _ => 2
  | plain _ | dangling => 1

def digit? : Sign → Option Nat
  | plain c => if c.isDigit then some (c.toNat - '0'.toNat) else none
  | escaped _ | dangling => none

def ofText : List Char → List Sign
  | [] => []
  | ['\\'] => [dangling]
  | '\\' :: c :: rest => escaped c :: ofText rest
  | c :: rest => plain c :: ofText rest

end Sign

def signWidth (signs : List Sign) : Nat :=
  signs.foldl (fun width s => width + s.width) 0

inductive Flaw where
  | backreference
  | boundaryNotALetter
  | countMissing
  | countNotClosed
  | countsReversed
  | danglingNegation
  | flagMissing
  | groupNotClosed
  | groupNotOpened
  | lookAround
  | nothingToRepeat
  | placeInSet
  | rangeReversed
  | setNotClosed
  | unfinishedEscape
  | unknownEscape
  | unknownFlag
  deriving DecidableEq, Repr

def Flaw.message : Flaw → String
  | backreference => "backreferences are not supported"
  | boundaryNotALetter => "invalid range boundary, must be a literal"
  | countMissing => "repetition quantifier expects a valid decimal"
  | countNotClosed => "unclosed counted repetition"
  | countsReversed => "invalid repetition count range, the start must be <= the end"
  | danglingNegation => "dangling flag negation operator"
  | flagMissing => "expected flag but got end of regex"
  | groupNotClosed => "unclosed group"
  | groupNotOpened => "unopened group"
  | lookAround => "look-around, including look-ahead and look-behind, is not supported"
  | nothingToRepeat => "repetition operator missing expression"
  | placeInSet => "invalid escape sequence found in character class"
  | rangeReversed => "invalid character class range, the start must be <= the end"
  | setNotClosed => "unclosed character class"
  | unfinishedEscape => "incomplete escape sequence, reached end of pattern prematurely"
  | unknownEscape => "unrecognized escape sequence"
  | unknownFlag => "unrecognized flag"

/-- A flaw, with the signs from it on and how many characters of them are meant. -/
structure PatternFault where
  flaw : Flaw
  rest : List Sign
  width : Nat := 1
  deriving DecidableEq, Repr

def PatternFault.report (fault : PatternFault) (pattern : List Char) : String :=
  let column := pattern.length - signWidth fault.rest
  line "regex parse error:" ++
  line ("    " ++ String.ofList pattern) ++
  line (spaces (4 + column) ++ String.ofList (List.replicate (max fault.width 1) '^')) ++
  "error: " ++ fault.flaw.message

end BackendAssembly
