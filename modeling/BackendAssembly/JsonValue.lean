import BackendAssembly.Layout

namespace BackendAssembly

/-- The part of JSON that descriptions are written in. The members of an object keep their order. -/
inductive JsonValue where
  | bool (b : Bool)
  | number (n : Nat)
  | string (s : String)
  | array (elements : List JsonValue)
  | object (members : List (String × JsonValue))

namespace JsonValue

def stringChar (c : Char) : List Char :=
  if c = '"' ∨ c = '\\' then ['\\', c]
  else if c = '\x08' then ['\\', 'b']
  else if c = '\t' then ['\\', 't']
  else if c = '\n' then ['\\', 'n']
  else if c = '\x0c' then ['\\', 'f']
  else if c = '\r' then ['\\', 'r']
  else if c.toNat < 0x10 then ['\\', 'u', '0', '0', '0'] ++ Nat.toDigits 16 c.toNat
  else if c.toNat < 0x20 then ['\\', 'u', '0', '0'] ++ Nat.toDigits 16 c.toNat
  else [c]

def stringText (s : String) : String :=
  String.ofList ('"' :: s.toList.flatMap stringChar ++ ['"'])

def newLine (depth : Nat) : String :=
  "\n" ++ spaces (2 * depth)

mutual

def pretty (depth : Nat) : JsonValue → String
  | bool true => "true"
  | bool false => "false"
  | number n => toString n
  | string s => stringText s
  | array [] => "[]"
  | array (e :: rest) =>
    "[" ++ newLine (depth + 1) ++ pretty (depth + 1) e ++ prettyElements (depth + 1) rest ++ newLine depth ++ "]"
  | object [] => "\x7b\x7d"
  | object ((name, e) :: rest) =>
    "\x7b" ++ newLine (depth + 1) ++ stringText name ++ ": " ++ pretty (depth + 1) e ++
      prettyMembers (depth + 1) rest ++ newLine depth ++ "\x7d"

def prettyElements (depth : Nat) : List JsonValue → String
  | [] => ""
  | e :: rest => "," ++ newLine depth ++ pretty depth e ++ prettyElements depth rest

def prettyMembers (depth : Nat) : List (String × JsonValue) → String
  | [] => ""
  | (name, e) :: rest => "," ++ newLine depth ++ stringText name ++ ": " ++ pretty depth e ++ prettyMembers depth rest

end

end JsonValue

end BackendAssembly
