import BackendAssembly.Binary64
import BackendAssembly.Lexical

namespace BackendAssembly.Reader

/-- The digits after the first one. An underscore stands only between two digits, and is left out of the result. -/
def moreDigits (p : Char → Bool) : Reader (List Char) :=
  many <| (char p).or do
    skip '_'
    ((char p).orExpected "digit").commit

def digitRow (p : Char → Bool) : Reader (List Char) := do
  let first ← char p
  let others ← moreDigits p
  return first :: others

def sign : Reader Bool := do
  let c ← optional (char fun c => c == '+' || c == '-')
  return c == some '-'

def decimalDigits : Reader (List Char) :=
  (do
    let first ← char fun c => c.isDigit && c != '0'
    let others ← moreDigits Char.isDigit
    return first :: others).or do return [← char Char.isDigit]

def decimal : Reader (Bool × List Char) :=
  Reader.inside "integer" do
    let negative ← sign
    let digits ← decimalDigits
    return (negative, digits)

def toInt64 (n : Int) : Except Objection Int64 :=
  if n < Int64.minValue.toInt then .error .tooSmall
  else if Int64.maxValue.toInt < n then .error .tooLarge
  else .ok (Int64.ofInt n)

def basedInteger (mark : Char) (base : Nat) (p : Char → Bool) (kind : String) : Reader Int64 :=
  commit <| (check · fun digits => toInt64 (Int.ofNat (digitsValue base digits))) <| Reader.inside kind do
    word ['0', mark]
    (digitRow p).commit

def decimalInteger : Reader Int64 :=
  fun text =>
    match decimal text with
    | .done (negative, digits) rest =>
      let n := Int.ofNat (digitsValue 10 digits)
      match toInt64 (if negative then -n else n) with
      | .ok n => .done n rest
      | .error objection => .stop { rest := text, objection := some objection }
    | .miss fault => .miss fault
    | .stop fault => .stop fault

def integer : Reader Int64 := fun text =>
  match text with
  | '0' :: 'x' :: _ => basedInteger 'x' 16 isHexDigit "hexadecimal integer" text
  | '0' :: 'o' :: _ => basedInteger 'o' 8 (fun c => '0' ≤ c && c ≤ '7') "octal integer" text
  | '0' :: 'b' :: _ => basedInteger 'b' 2 (fun c => c == '0' || c == '1') "binary integer" text
  | _ => decimalInteger text

def fraction : Reader (List Char) := do
  skip '.'
  ((digitRow Char.isDigit).commit).orExpected "digit"

def exponent : Reader Int := do
  let _ ← char fun c => c == 'e' || c == 'E'
  let negative ← sign
  let digits ← (digitRow Char.isDigit).commit
  let n := Int.ofNat (digitsValue 10 digits)
  return if negative then -n else n

def nearestDouble : Reader Binary64 := do
  let (negative, digits) ← decimal
  let (places, power) ← (do return ([], ← exponent)).or do
    let places ← fraction
    let power ← optional exponent
    return (places, power.getD 0)
  return Binary64.ofDecimal negative (digitsValue 10 (digits ++ places)) (power - Int.ofNat places.length)

/-- A decimal that has a double near it. A positive one beyond the doubles is refused as a whole. -/
def decimalFloat : Reader Binary64 := fun text =>
  match nearestDouble text with
  | .done (.infinite false) _ => .stop { rest := text }
  | reading => reading

def infinity : Reader Binary64 := do
  word ['i', 'n', 'f']
  return .infinite false

def notANumber : Reader Binary64 := do
  word ['n', 'a', 'n']
  return .nan

def specialFloat : Reader Binary64 := do
  let negative ← sign
  match ← infinity.or notANumber with
  | .infinite _ => return .infinite negative
  | value => return value

def float : Reader Binary64 :=
  (decimalFloat.or specialFloat).inside "floating-point number"

end BackendAssembly.Reader
