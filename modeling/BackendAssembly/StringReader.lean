import BackendAssembly.Lexical

namespace BackendAssembly.Reader

def hexEscape (digits : Nat) : Reader Char :=
  check (exactly digits isHexDigit) fun ds =>
    let n := digitsValue 16 ds
    if n.isValidChar then .ok (Char.ofNat n) else .error .outOfRange

def noSuchEscape : Reader Char :=
  [ "`b`", "`f`", "`n`", "`r`", "`t`", "`u`", "`U`", "`\\`", "`\"`"].foldl (fun p what => p.orExpected what)
    (fail.inside "escape sequence").commit

/-- What follows the backslash. A wrong character is refused at its second byte: behind it if it is ASCII, and on it
otherwise. -/
def escapeTail : Reader Char := fun text =>
  match text with
  | [] => .miss { rest := [] }
  | 'b' :: rest => .done '\x08' rest
  | 'f' :: rest => .done '\x0c' rest
  | 'n' :: rest => .done '\n' rest
  | 'r' :: rest => .done '\r' rest
  | 't' :: rest => .done '\t' rest
  | '\\' :: rest => .done '\\' rest
  | '"' :: rest => .done '"' rest
  | 'u' :: rest => (((hexEscape 4).commit).inside "unicode 4-digit hex code") rest
  | 'U' :: rest => (((hexEscape 8).commit).inside "unicode 8-digit hex code") rest
  | c :: rest => noSuchEscape (if c.toNat < 0x80 then rest else text)

def escaped : Reader Char := do
  skip '\\'
  escapeTail

def basicString : Reader (List Char) := do
  skip '"'
  let body ← many ((char isBasicChar).or escaped)
  ((skip '"').commit).inside "basic string"
  return body

def literalString : Reader (List Char) :=
  Reader.inside "literal string" do
    skip '\''
    let body ← chars isLiteralChar
    (skip '\'').commit
    return body

def lineContinuation : Reader (List Char) := do
  skip '\\'
  blanks
  newline
  let _ ← many (newline.or do let _ ← someChars isBlank)
  return []

def multilineBasicPiece : Reader (List Char) :=
  ((do return [← char isBasicChar]).or lineContinuation).or
    ((do return [← escaped]).or do newline; return ['\n'])

def multilineLiteralPiece : Reader (List Char) :=
  (do return [← char isLiteralChar]).or do newline; return ['\n']

def ahead {α : Type} (p : Reader α) : Reader Unit := fun text =>
  match p text with
  | .done _ _ => .done () text
  | .miss _ => .miss { rest := text }
  | .stop _ => .stop { rest := text }

def quotesBefore {α : Type} (quote : Char) (p : Reader α) : Reader (List Char) :=
  (do word [quote, quote]; ahead p; return [quote, quote]).or do skip quote; ahead p; return [quote]

/-- The text between the delimiters: pieces, with one or two quotes between them or before the end. The first piece
after quotes has a reader of its own, which may refuse what is no piece. -/
def multilineBody (quote : Char) (piece afterQuotes : Reader (List Char)) : Reader (List Char) := do
  let start ← many piece
  let more ← many do
    let quotes ← quotesBefore quote (char (· != quote))
    let first ← afterQuotes
    let others ← many piece
    return quotes ++ first ++ others.flatten
  let last ← optional (quotesBefore quote (word [quote, quote, quote]))
  return start.flatten ++ more.flatten ++ last.getD []

def multilineString (quote : Char) (kind : String) (piece afterQuotes : Reader (List Char)) : Reader (List Char) :=
  Reader.inside kind do
    word [quote, quote, quote]
    let _ ← optional newline
    let body ← (multilineBody quote piece afterQuotes).commit
    (word [quote, quote, quote]).commit
    return body

def multilineBasicString : Reader (List Char) :=
  multilineString '"' "multiline basic string" multilineBasicPiece (multilineBasicPiece.or fail.commit)

def multilineLiteralString : Reader (List Char) :=
  multilineString '\'' "multiline literal string" multilineLiteralPiece multilineLiteralPiece

def string : Reader String := do
  let cs ← (multilineBasicString.or basicString).or (multilineLiteralString.or literalString)
  return String.ofList cs

end BackendAssembly.Reader
