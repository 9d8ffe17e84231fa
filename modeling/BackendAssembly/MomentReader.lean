import BackendAssembly.Lexical

namespace BackendAssembly

def isLeapYear (year : Nat) : Bool :=
  year % 4 == 0 && (year % 100 != 0 || year % 400 == 0)

def daysInMonth (year month : Nat) : Nat :=
  match month with
  | 2 => if isLeapYear year then 29 else 28
  | 4 | 6 | 9 | 11 => 30
  | _ => 31

namespace Reader

def fixedNumber (digits low high : Nat) : Reader Nat :=
  check (exactly digits Char.isDigit) fun ds =>
    let n := digitsValue 10 ds
    if low ≤ n ∧ n ≤ high then .ok n else .error .outOfRange

/-- A calendar date. Once the year and a hyphen are read it cannot be anything else. -/
def fullDate : Reader Unit := do
  let year ← fixedNumber 4 0 9999
  skip '-'
  let month ← (fixedNumber 2 1 12).commit
  (skip '-').commit
  let _ ← (fixedNumber 2 1 (daysInMonth year month)).commit

/-- A time of day with seconds, which may be 60 where a leap second is. Once the hour and a colon are read it cannot be
anything else. -/
def partialTime : Reader Unit := do
  let _ ← fixedNumber 2 0 23
  skip ':'
  commit do
    let _ ← fixedNumber 2 0 59
    skip ':'
    let _ ← fixedNumber 2 0 60
    let _ ← optional do
      skip '.'
      someChars Char.isDigit

def timeOffset : Reader Unit :=
  Reader.inside "time offset" <|
    (do let _ ← char fun c => c == 'Z' || c == 'z').or do
      let _ ← char fun c => c == '+' || c == '-'
      commit do
        let _ ← fixedNumber 2 0 23
        skip ':'
        let _ ← fixedNumber 2 0 59

def moment : Reader Unit :=
  ((do
    fullDate
    let _ ← optional do
      let _ ← char fun c => c == 'T' || c == 't' || c == ' '
      partialTime
      optional timeOffset).inside "date-time").or
    (partialTime.inside "time")

end Reader

end BackendAssembly
