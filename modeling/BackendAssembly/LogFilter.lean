import BackendAssembly.Event
import BackendAssembly.PatternReader
import BackendAssembly.Layout

namespace BackendAssembly

structure LogRule where
  source : Option String
  detail : Nat
  deriving DecidableEq, Repr

namespace LogRule

def width (r : LogRule) : Nat :=
  (r.source.getD "").length

def covers (r : LogRule) (e : Event) : Bool :=
  (r.source.getD "").toList.isPrefixOf e.source.toList

def detail? (word : String) : Option Nat :=
  let word := String.ofList (word.toList.map Char.toUpper)
  if word = "OFF" then some 0 else (Level.all.find? fun level => level.name == word).map Level.detail

/-- Reads a level for all sources, a source that may write everything, or a source and its level. What cannot be read
is given back. -/
def parse (text : String) : Except String LogRule :=
  match pieces '=' text with
  | [word] =>
    match detail? word with
    | some detail => .ok ⟨none, detail⟩
    | none => .ok ⟨some word, Level.trace.detail⟩
  | [source, word] =>
    let word := trimmed word
    if word.isEmpty then .ok ⟨some source, Level.trace.detail⟩
    else
      match detail? word with
      | some detail => .ok ⟨some source, detail⟩
      | none => .error word
  | _ => .error text

end LogRule

structure LogFilter where
  rules : List LogRule := []
  pattern : Option Pattern := none
  complaints : List String := []
  deriving DecidableEq, Repr

namespace LogFilter

def ofLevel (level : Level) : LogFilter :=
  { rules := [⟨none, level.detail⟩] }

def add (f : LogFilter) (r : LogRule) : LogFilter :=
  if f.rules.any fun q => q.source == r.source then
    { f with rules := f.rules.map fun q => if q.source = r.source then r else q }
  else { f with rules := f.rules ++ [r] }

def complain (f : LogFilter) (what : String) : LogFilter :=
  { f with complaints := f.complaints ++ [line ("warning: invalid " ++ what ++ ", ignoring it")] }

def addText (f : LogFilter) (text : String) : LogFilter :=
  if text.isEmpty then f
  else
    match LogRule.parse text with
    | .ok r => f.add r
    | .error bad => f.complain ("logging spec '" ++ bad ++ "'")

def ofRules (text : String) : LogFilter :=
  ((pieces ',' text).map trimmed).foldl addText {}

def addPattern (f : LogFilter) (text : String) : LogFilter :=
  match Pattern.ofText text.toList with
  | .ok p => { f with pattern := some p }
  | .error fault => f.complain ("regex filter - " ++ fault.report text.toList)

def parse (spec : String) : LogFilter :=
  match pieces '/' spec with
  | [rules] => ofRules rules
  | [rules, pattern] => (ofRules rules).addPattern pattern
  | _ => ({} : LogFilter).complain ("logging spec '" ++ spec ++ "' (too many '/'s)")

/-- Of two rules the narrower one decides, and of two equally narrow ones the later one. -/
def narrower (best : Option LogRule) (r : LogRule) : Option LogRule :=
  match best with
  | none => some r
  | some b => if b.width ≤ r.width then some r else some b

def rule? (f : LogFilter) (e : Event) : Option LogRule :=
  (f.rules.filter fun r => r.covers e).foldl narrower none

/-- An event of more detail than the rule says is left out, and so is one whose message does not fit the pattern.
Without any rules, only errors are written. -/
def admits (f : LogFilter) (e : Event) : Bool :=
  let detail := if f.rules.isEmpty then Level.error.detail else ((f.rule? e).map LogRule.detail).getD 0
  decide (e.level.detail ≤ detail) && f.pattern.all fun p => p.occursIn e.message.toList

def eventLine (e : Event) : String :=
  let indent (c : Char) : List Char := if c = '\n' then c :: List.replicate 4 ' ' else [c]
  line ("[" ++ padRight 5 e.level.name ++ " " ++ e.source ++ "] " ++
    String.ofList (e.message.toList.flatMap indent))

def text (f : LogFilter) (events : List Event) : String :=
  String.join f.complaints ++ String.join ((events.filter f.admits).map eventLine)

end LogFilter

end BackendAssembly
