import BackendAssembly.Reader

namespace BackendAssembly

def isBlank (c : Char) : Bool :=
  c == ' ' || c == '\t'

/-- A control character other than the tab; none stands in a document except in line ends. -/
def isControl (c : Char) : Bool :=
  (c.toNat < 0x20 && c != '\t') || c.toNat == 0x7f

def isCommentChar (c : Char) : Bool :=
  !isControl c

def isBareChar (c : Char) : Bool :=
  c.isAlphanum || c == '-' || c == '_'

def isBasicChar (c : Char) : Bool :=
  !isControl c && c != '"' && c != '\\'

def isLiteralChar (c : Char) : Bool :=
  !isControl c && c != '\''

def isHexDigit (c : Char) : Bool :=
  c.isDigit || ('a' ≤ c && c ≤ 'f') || ('A' ≤ c && c ≤ 'F')

def digitValue (c : Char) : Nat :=
  if c.isDigit then c.toNat - '0'.toNat
  else if 'a' ≤ c then c.toNat - 'a'.toNat + 10
  else c.toNat - 'A'.toNat + 10

def digitsValue (base : Nat) (digits : List Char) : Nat :=
  digits.foldl (fun n c => n * base + digitValue c) 0

namespace Reader

def blanks : Reader Unit := fun text =>
  .done () (text.dropWhile isBlank)

def newline : Reader Unit
  | '\n' :: rest => .done () rest
  | '\r' :: '\n' :: rest => .done () rest
  | '\r' :: rest => .miss { rest := rest }
  | text => .miss { rest := text }

def comment : Reader Unit := do
  skip '#'
  let _ ← chars isCommentChar

def endOfText : Reader Unit
  | [] => .done () []
  | text => .miss { rest := text }

def lineEnd : Reader Unit :=
  newline.or endOfText

def lineTrail : Reader Unit := do
  blanks
  let _ ← optional comment
  lineEnd

def gap (text : List Char) : Reading Unit :=
  match _h : text.dropWhile isBlank with
  | '\n' :: rest => gap rest
  | '\r' :: '\n' :: rest => gap rest
  | '\r' :: rest => .miss { rest := rest }
  | '#' :: rest =>
    match _h' : rest.dropWhile isCommentChar with
    | '\n' :: rest' => gap rest'
    | '\r' :: '\n' :: rest' => gap rest'
    | rest' => .miss { rest := rest'.tail }
  | rest => .done () rest
termination_by text.length
decreasing_by
  all_goals
    have h₁ := congrArg List.length _h
    have h₂ := (List.dropWhile_sublist isBlank (l := text)).length_le
    simp only [List.length_cons] at h₁
    try have h₃ := congrArg List.length _h'
    try have h₄ := (List.dropWhile_sublist isCommentChar (l := rest)).length_le
    try simp only [List.length_cons] at h₃
    omega

end Reader

def basicKeyChar (c : Char) : List Char :=
  if c = '"' ∨ c = '\\' then ['\\', c]
  else if c = '\x08' then ['\\', 'b']
  else if c = '\t' then ['\\', 't']
  else if c = '\n' then ['\\', 'n']
  else if c = '\x0c' then ['\\', 'f']
  else if c = '\r' then ['\\', 'r']
  else if c.toNat < 0x10 then ['\\', 'u', '0', '0', '0'] ++ (Nat.toDigits 16 c.toNat).map Char.toUpper
  else if isControl c then ['\\', 'u', '0', '0'] ++ (Nat.toDigits 16 c.toNat).map Char.toUpper
  else [c]

/-- A key that would need escapes for its quotes or backslashes goes between single quotes where it can. -/
def prefersLiteral (cs : List Char) : Bool :=
  cs.any (fun c => c == '"' || c == '\\') && cs.all isLiteralChar

def keyChars (cs : List Char) : List Char :=
  if !cs.isEmpty && cs.all isBareChar then cs
  else if prefersLiteral cs then '\'' :: cs ++ ['\'']
  else '"' :: cs.flatMap basicKeyChar ++ ['"']

def keyText (name : String) : String :=
  String.ofList (keyChars name.toList)

end BackendAssembly
