import BackendAssembly.JsonValue
import BackendAssembly.Proofs.ConstantReading

namespace BackendAssembly

namespace Reader

def isJsonSpace (c : Char) : Bool :=
  c == ' ' || c == '\t' || c == '\n' || c == '\r'

def jsonSpace : Reader Unit := fun text =>
  .done () (text.dropWhile isJsonSpace)

def isPlainChar (c : Char) : Bool :=
  0x20 ≤ c.toNat && c != '"' && c != '\\'

def surrogates : Reader Char :=
  let halves : Reader (Nat × Nat) := do
    let high ← exactly 4 isHexDigit
    word ['\\', 'u']
    let low ← exactly 4 isHexDigit
    return (digitsValue 16 high, digitsValue 16 low)
  check halves fun (high, low) =>
    if 0xd800 ≤ high ∧ high < 0xdc00 ∧ 0xdc00 ≤ low ∧ low < 0xe000 then
      .ok (Char.ofNat (0x10000 + (high - 0xd800) * 0x400 + (low - 0xdc00)))
    else .error .outOfRange

def jsonEscape : Reader Char := fun text =>
  match text with
  | '"' :: rest => .done '"' rest
  | '\\' :: rest => .done '\\' rest
  | '/' :: rest => .done '/' rest
  | 'b' :: rest => .done '\x08' rest
  | 'f' :: rest => .done '\x0c' rest
  | 'n' :: rest => .done '\n' rest
  | 'r' :: rest => .done '\r' rest
  | 't' :: rest => .done '\t' rest
  | 'u' :: rest => ((hexEscape 4).or surrogates) rest
  | _ => .miss { rest := text }

def jsonChar : Reader Char :=
  (char isPlainChar).or do
    skip '\\'
    jsonEscape

def jsonString : Reader String := do
  skip '"'
  let body ← many jsonChar
  skip '"'
  return String.ofList body

def jsonNumber : Reader Nat :=
  check (someChars Char.isDigit) fun digits =>
    if digits.head? = some '0' ∧ digits.length ≠ 1 then .error .outOfRange else .ok (digitsValue 10 digits)

def jsonComma : Reader Unit := do
  jsonSpace
  skip ','
  jsonSpace

def jsonItems {α : Type} (opening closing : Char) (item : Reader α) : Reader (List α) := do
  skip opening
  jsonSpace
  let items ← separated jsonComma item
  jsonSpace
  skip closing
  return items

def jsonMember (value : Reader JsonValue) : Reader (String × JsonValue) := do
  let name ← jsonString
  jsonSpace
  skip ':'
  jsonSpace
  let v ← value
  return (name, v)

def jsonWord (w : String) (b : Bool) : Reader JsonValue := do
  word w.toList
  return .bool b

def jsonScalar : Reader JsonValue :=
  ((jsonWord "true" true).or (jsonWord "false" false)).or
    (Reader.or (do return JsonValue.number (← jsonNumber)) do return JsonValue.string (← jsonString))

def jsonArray (value : Reader JsonValue) : Reader JsonValue := do
  let elements ← jsonItems '[' ']' value
  return .array elements

def jsonObject (value : Reader JsonValue) : Reader JsonValue := do
  let members ← jsonItems '{' '}' (jsonMember value)
  return .object members

/-- A value whose lists and objects are nested no deeper than the number of levels says. -/
def jsonValue : Nat → Reader JsonValue
  | 0 => jsonScalar
  | levels + 1 => jsonScalar.or ((jsonArray (jsonValue levels)).or (jsonObject (jsonValue levels)))

def jsonText (levels : Nat) : Reader JsonValue := do
  jsonSpace
  let v ← jsonValue levels
  jsonSpace
  endOfText
  return v

end Reader

namespace JsonValue

def depthLimit : Nat := 127

/-- The value of a JSON text, if it is one and its value is of the kinds that there are here: no null, and no number with
a sign, a fraction or an exponent. -/
def read? (text : String) : Option JsonValue :=
  match Reader.jsonText depthLimit text.toList with
  | .done v _ => some v
  | _ => none

inductive Within : Nat → JsonValue → Prop where
  | bool {levels : Nat} (b : Bool) : Within levels (.bool b)
  | number {levels : Nat} (n : Nat) : Within levels (.number n)
  | string {levels : Nat} (s : String) : Within levels (.string s)
  | array {levels : Nat} {elements : List JsonValue} (h : ∀ e ∈ elements, Within levels e) :
    Within (levels + 1) (.array elements)
  | object {levels : Nat} {members : List (String × JsonValue)} (h : ∀ m ∈ members, Within levels m.2) :
    Within (levels + 1) (.object members)

end JsonValue

namespace Reader

open JsonValue

theorem digits_of_small : ∀ n < 0x20, ∀ zeros, zeros = (if n < 0x10 then ['0', '0', '0'] else ['0', '0']) →
    (zeros ++ Nat.toDigits 16 n).length = 4 ∧ (zeros ++ Nat.toDigits 16 n).all isHexDigit = true ∧
      digitsValue 16 (zeros ++ Nat.toDigits 16 n) = n := by
  rintro n hn zeros rfl
  revert n
  decide +kernel

theorem jsonEscape_small {c : Char} (h : c.toNat < 0x20) (rest : List Char) :
    jsonEscape ('u' :: ((if c.toNat < 0x10 then ['0', '0', '0'] else ['0', '0']) ++ Nat.toDigits 16 c.toNat) ++ rest) =
      .done c rest := by
  obtain ⟨hlength, hdigits, hvalue⟩ := digits_of_small c.toNat h _ rfl
  have hread := hexEscape_done hdigits hvalue rest
  rw [hlength] at hread
  exact or_done hread

theorem jsonChar_stringChar (c : Char) (rest : List Char) : jsonChar (stringChar c ++ rest) = .done c rest := by
  have hescape : ∀ tail, jsonEscape tail = .done c rest → jsonChar ('\\' :: tail) = .done c rest := fun tail htail => by
    have hslash : LeavesOff isPlainChar ('\\' :: tail) := leavesOff_cons (by decide)
    obtain ⟨fault, hmiss⟩ := misses_char hslash
    exact (or_miss hmiss).trans ((bind_done (skip_done '\\' tail)).trans htail)
  unfold stringChar
  split_ifs with hquote hb ht hn hf hr hsmall hcontrol
  · rcases hquote with rfl | rfl
    · exact hescape _ rfl
    · exact hescape _ rfl
  · subst hb; exact hescape _ rfl
  · subst ht; exact hescape _ rfl
  · subst hn; exact hescape _ rfl
  · subst hf; exact hescape _ rfl
  · subst hr; exact hescape _ rfl
  · have htail := jsonEscape_small (c := c) (by omega) rest
    rw [if_pos hsmall] at htail
    exact hescape _ htail
  · have htail := jsonEscape_small hcontrol rest
    rw [if_neg hsmall] at htail
    exact hescape _ htail
  · refine or_done (char_done ?_)
    rw [not_or] at hquote
    have hprintable : 0x20 ≤ c.toNat := Nat.le_of_not_lt hcontrol
    simp [isPlainChar, hprintable, hquote.1, hquote.2]

theorem length_stringChar_pos (c : Char) : 0 < (stringChar c).length := by
  unfold stringChar
  split_ifs <;> simp

theorem toList_stringText (s : String) :
    (stringText s).toList = '"' :: (s.toList.flatMap stringChar ++ ['"']) :=
  String.toList_ofList

theorem jsonString_stringText (s : String) (rest : List Char) :
    jsonString ((stringText s).toList ++ rest) = .done s rest := by
  have hend : Misses jsonChar ('"' :: rest) :=
    misses_or (misses_char (leavesOff_cons (by decide))) (misses_bind (misses_skip (leavesOff_cons (by decide))))
  have hbody : many jsonChar (s.toList.flatMap stringChar ++ '"' :: rest) = .done (s.toList.map id) ('"' :: rest) :=
    many_done (fun c _ => jsonChar_stringChar c) (fun c _ => length_stringChar_pos c) hend
  rw [List.map_id] at hbody
  rw [toList_stringText, List.cons_append, List.append_assoc, List.singleton_append]
  unfold jsonString
  rw [bind_done (skip_done '"' _), bind_done hbody, bind_done (skip_done '"' rest), String.ofList_toList]
  rfl

example : jsonString "\"\\/\\ud83d\\ude00\"".toList = .done "/😀" [] := by
  cbv

theorem jsonNumber_digits (n : Nat) {rest : List Char} (hrest : LeavesOff Char.isDigit rest) :
    jsonNumber (Nat.toDigits 10 n ++ rest) = .done n rest := by
  have hdigits : ∀ c ∈ Nat.toDigits 10 n, c.isDigit = true := fun c hc => isDigit_of_mem_decimal hc
  refine check_done (someChars_done Nat.toDigits_ne_nil hdigits hrest) ?_
  have hzero : ¬((Nat.toDigits 10 n).head? = some '0' ∧ (Nat.toDigits 10 n).length ≠ 1) := by
    by_cases hn : n = 0
    · subst hn
      exact fun h => h.2 rfl
    · obtain ⟨d, ds, hds, hd⟩ := toDigits_head hn
      rw [hds]
      exact fun h => hd (Option.some.inj h.1)
  rw [if_neg hzero, digitsValue_toDigits]

theorem jsonSpace_done {text : List Char} (h : LeavesOff isJsonSpace text) : jsonSpace text = .done () text := by
  rw [jsonSpace, h.dropWhile]

theorem jsonSpace_newLine (depth : Nat) {text : List Char} (h : LeavesOff isJsonSpace text) :
    jsonSpace ((newLine depth).toList ++ text) = .done () text := by
  have hline : ∀ c ∈ (newLine depth).toList, isJsonSpace c = true := by
    intro c hc
    rw [newLine, String.toList_append, List.mem_append, toList_spaces] at hc
    rcases hc with hc | hc
    · rw [List.mem_singleton.mp hc]
      rfl
    · rw [List.eq_of_mem_replicate hc]
      rfl
  rw [jsonSpace, dropWhile_append_of_leavesOff hline h]

theorem leavesOff_newLine {p : Char → Bool} (h : p '\n' = false) (depth : Nat) (text : List Char) :
    LeavesOff p ((newLine depth).toList ++ text) := by
  rw [newLine, String.toList_append, List.append_assoc]
  exact leavesOff_cons h

def itemChars {α : Type} (opening closing : Char) (depth : Nat) (write : α → List Char) : List α → List Char
  | [] => [opening, closing]
  | x :: xs =>
    opening :: ((newLine (depth + 1)).toList ++ (write x ++
      (xs.flatMap (fun y => ',' :: ((newLine (depth + 1)).toList ++ write y)) ++
        ((newLine depth).toList ++ [closing]))))

def memberChars (depth : Nat) (m : String × JsonValue) : List Char :=
  (stringText m.1).toList ++ ':' :: ' ' :: (m.2.pretty depth).toList

theorem toList_prettyElements (depth : Nat) (elements : List JsonValue) :
    (prettyElements depth elements).toList =
      elements.flatMap fun e => ',' :: ((newLine depth).toList ++ (e.pretty depth).toList) := by
  induction elements with
  | nil => rw [prettyElements]; rfl
  | cons e elements ih =>
    rw [prettyElements, String.toList_append, ih, List.flatMap_cons]
    simp

theorem toList_prettyMembers (depth : Nat) (members : List (String × JsonValue)) :
    (prettyMembers depth members).toList =
      members.flatMap fun m => ',' :: ((newLine depth).toList ++ memberChars depth m) := by
  induction members with
  | nil => rw [prettyMembers]; rfl
  | cons m members ih =>
    obtain ⟨name, e⟩ := m
    rw [prettyMembers, String.toList_append, ih, List.flatMap_cons]
    simp [memberChars]

theorem toList_pretty_array (depth : Nat) (elements : List JsonValue) :
    ((JsonValue.array elements).pretty depth).toList =
      itemChars '[' ']' depth (fun e => (e.pretty (depth + 1)).toList) elements := by
  cases elements with
  | nil => rw [pretty]; rfl
  | cons e elements =>
    rw [pretty, itemChars, ← toList_prettyElements]
    simp

theorem toList_pretty_object (depth : Nat) (members : List (String × JsonValue)) :
    ((JsonValue.object members).pretty depth).toList =
      itemChars '{' '}' depth (memberChars (depth + 1)) members := by
  cases members with
  | nil => rw [pretty]; rfl
  | cons m members =>
    obtain ⟨name, e⟩ := m
    rw [pretty, itemChars, ← toList_prettyMembers]
    simp [memberChars]

theorem itemChars_head {α : Type} (opening closing : Char) (depth : Nat) (write : α → List Char) (xs : List α) :
    ∃ w, itemChars opening closing depth write xs = opening :: w := by
  cases xs with
  | nil => exact ⟨_, rfl⟩
  | cons x xs => exact ⟨_, rfl⟩

theorem leavesOff_pretty (v : JsonValue) (depth : Nat) (rest : List Char) :
    LeavesOff isJsonSpace ((v.pretty depth).toList ++ rest) := by
  cases v with
  | bool b => cases b <;> (rw [pretty]; exact leavesOff_cons (by decide))
  | number n =>
    obtain ⟨d, ds, hds⟩ := List.exists_cons_of_ne_nil (Nat.toDigits_ne_nil (n := n) (b := 10))
    have htext : ((JsonValue.number n).pretty depth).toList = d :: ds := by
      rw [pretty, ← hds]
      exact Nat.toList_repr
    have hd : d.isDigit = true := isDigit_of_mem_decimal (hds ▸ List.mem_cons_self)
    rw [htext]
    refine leavesOff_cons (Bool.eq_false_iff.mpr fun hspace => ?_)
    simp only [isJsonSpace, Bool.or_eq_true, beq_iff_eq] at hspace
    rcases hspace with ((rfl | rfl) | rfl) | rfl <;> exact absurd hd (by decide)
  | string s =>
    rw [pretty, toList_stringText]
    exact leavesOff_cons (by decide)
  | array elements =>
    obtain ⟨w, hw⟩ := itemChars_head '[' ']' depth (fun e => (e.pretty (depth + 1)).toList) elements
    rw [toList_pretty_array, hw]
    exact leavesOff_cons (by decide)
  | object members =>
    obtain ⟨w, hw⟩ := itemChars_head '{' '}' depth (memberChars (depth + 1)) members
    rw [toList_pretty_object, hw]
    exact leavesOff_cons (by decide)

section Items

variable {α : Type} {item : Reader α} {write : α → List Char} {xs : List α}
  (hitem : ∀ x ∈ xs, ∀ more, LeavesOff Char.isDigit more → item (write x ++ more) = .done x more)
  (hspace : ∀ x ∈ xs, ∀ more, LeavesOff isJsonSpace (write x ++ more))
include hitem hspace

theorem many_items (depth : Nat) {rest : List Char} (hrest : LeavesOff Char.isDigit rest)
    (hend : Misses jsonComma rest) :
    many (do jsonComma; item) (xs.flatMap (fun x => ',' :: ((newLine depth).toList ++ write x)) ++ rest) =
      .done xs rest := by
  have hpiece : ∀ x ∈ xs, ∀ more, LeavesOff Char.isDigit more →
      (do jsonComma; item) (',' :: ((newLine depth).toList ++ write x) ++ more) = .done (id x) more := by
    intro x hx more hmore
    have hcomma : jsonComma (',' :: ((newLine depth).toList ++ write x) ++ more) = .done () (write x ++ more) := by
      rw [List.cons_append, List.append_assoc]
      unfold jsonComma
      rw [bind_done (jsonSpace_done (leavesOff_cons (by decide))), bind_done (skip_done ',' _)]
      exact jsonSpace_newLine depth (hspace x hx more)
    rw [bind_done hcomma]
    exact hitem x hx more hmore
  have hread := many_done_of hpiece (fun _ _ => Nat.zero_lt_succ _) (fun _ _ _ => leavesOff_cons (by decide)) hrest
    (misses_bind hend)
  rwa [List.map_id] at hread

omit hitem hspace in
theorem misses_separated {text : List Char} (hempty : Misses item text) : separated jsonComma item text = .done [] text := by
  obtain ⟨fault, hmiss⟩ := misses_bind (f := fun first => do
    let others ← many (do jsonComma; item)
    return first :: others) hempty
  exact or_miss hmiss

theorem separated_items {x : α} (hx : ∀ more, LeavesOff Char.isDigit more → item (write x ++ more) = .done x more)
    (depth : Nat) {rest : List Char} (hrest : LeavesOff Char.isDigit rest) (hend : Misses jsonComma rest) :
    separated jsonComma item (write x ++ (xs.flatMap (fun y => ',' :: ((newLine depth).toList ++ write y)) ++ rest)) =
      .done (x :: xs) rest := by
  have hmore : LeavesOff Char.isDigit (xs.flatMap (fun y => ',' :: ((newLine depth).toList ++ write y)) ++ rest) := by
    cases xs with
    | nil => exact hrest
    | cons y ys => exact leavesOff_cons (by decide)
  refine or_done ?_
  unfold someSeparated
  rw [bind_done (hx _ hmore), bind_done (many_items hitem hspace depth hrest hend)]
  rfl

/-- What is written between brackets is read back, if each item is, and if none fits where the closing bracket is. -/
theorem jsonItems_itemChars {opening closing : Char} (hclosing : isJsonSpace closing = false)
    (hcomma : (closing == ',') = false)
    (hempty : ∀ more, Misses item (closing :: more)) (depth : Nat) (rest : List Char) :
    jsonItems opening closing item (itemChars opening closing depth write xs ++ rest) = .done xs rest := by
  have hlast : ∀ {text : List Char}, jsonSpace text = .done () (closing :: rest) →
      (do jsonSpace; skip closing; return xs : Reader (List α)) text = .done xs rest := fun h => by
    rw [bind_done h, bind_done (skip_done closing rest)]
    rfl
  have hbracket : LeavesOff isJsonSpace (closing :: rest) := leavesOff_cons hclosing
  unfold jsonItems
  cases xs with
  | nil =>
    rw [itemChars, List.cons_append, bind_done (skip_done opening _), List.singleton_append,
      bind_done (jsonSpace_done hbracket), bind_done (misses_separated (hempty rest))]
    exact hlast (jsonSpace_done hbracket)
  | cons x xs =>
    have hx := List.mem_cons_self (a := x) (l := xs)
    let after := (newLine depth).toList ++ closing :: rest
    let more := xs.flatMap (fun y => ',' :: ((newLine (depth + 1)).toList ++ write y)) ++ after
    have hend : Misses jsonComma after :=
      misses_bind_done (jsonSpace_newLine depth hbracket) (misses_bind (misses_skip (leavesOff_cons hcomma)))
    have hitems : separated jsonComma item (write x ++ more) = .done (x :: xs) after :=
      separated_items (fun y hy => hitem y (List.mem_cons_of_mem x hy)) (fun y hy => hspace y (List.mem_cons_of_mem x hy))
        (hitem x hx) (depth + 1) (leavesOff_newLine (by decide) depth _) hend
    have htext : itemChars opening closing depth write (x :: xs) ++ rest =
        opening :: ((newLine (depth + 1)).toList ++ (write x ++ more)) := by
      simp [itemChars, more, after]
    rw [htext, bind_done (skip_done opening _), bind_done (jsonSpace_newLine _ (hspace x hx more)), bind_done hitems]
    exact hlast (jsonSpace_newLine depth hbracket)

end Items

theorem jsonValue_of_scalar {text rest : List Char} {v : JsonValue} (h : jsonScalar text = .done v rest)
    (levels : Nat) : jsonValue levels text = .done v rest := by
  cases levels with
  | zero => exact h
  | succ levels => exact or_done h

theorem misses_jsonValue_bracket (levels : Nat) (more : List Char) : Misses (jsonValue levels) (']' :: more) := by
  have hscalar : Misses jsonScalar (']' :: more) := ⟨_, rfl⟩
  cases levels with
  | zero => exact hscalar
  | succ levels =>
    have harray : Misses (jsonArray (jsonValue levels)) (']' :: more) :=
      misses_bind (misses_bind (misses_skip (leavesOff_cons (by decide))))
    exact misses_or hscalar (misses_or harray (misses_bind (misses_bind (misses_skip (leavesOff_cons (by decide))))))

theorem misses_jsonMember_brace (value : Reader JsonValue) (more : List Char) :
    Misses (jsonMember value) ('}' :: more) :=
  misses_bind (misses_bind (misses_skip (leavesOff_cons (by decide))))

theorem jsonMember_memberChars {value : Reader JsonValue} {depth : Nat} {m : String × JsonValue} {more : List Char}
    (h : value ((m.2.pretty depth).toList ++ more) = .done m.2 more) :
    jsonMember value (memberChars depth m ++ more) = .done m more := by
  rw [memberChars, List.append_assoc, List.cons_append, List.cons_append]
  have hcolon : LeavesOff isJsonSpace (':' :: ' ' :: ((m.2.pretty depth).toList ++ more)) := leavesOff_cons (by decide)
  have hblank : jsonSpace (' ' :: ((m.2.pretty depth).toList ++ more)) = .done () ((m.2.pretty depth).toList ++ more) :=
    jsonSpace_done (leavesOff_pretty m.2 depth more)
  unfold jsonMember
  rw [bind_done (jsonString_stringText m.1 _), bind_done (jsonSpace_done hcolon), bind_done (skip_done ':' _),
    bind_done hblank, bind_done h]
  rfl

theorem leavesOff_memberChars (m : String × JsonValue) (depth : Nat) (more : List Char) :
    LeavesOff isJsonSpace (memberChars depth m ++ more) := by
  rw [memberChars, toList_stringText]
  exact leavesOff_cons (by decide)

theorem misses_word_digit {c d : Char} (hc : c.isDigit = false) (hd : d.isDigit = true) (w ds : List Char) :
    Misses (word (c :: w)) (d :: ds) := by
  refine misses_word (leavesOff_cons (beq_eq_false_iff_ne.mpr ?_))
  rintro rfl
  rw [hd] at hc
  cases hc

section Pretty

variable {levels : Nat} (depth : Nat) {rest : List Char}

theorem jsonValue_bool (b : Bool) :
    jsonValue levels (((JsonValue.bool b).pretty depth).toList ++ rest) = .done (.bool b) rest := by
  refine jsonValue_of_scalar ?_ _
  cases b <;> (rw [pretty]; rfl)

theorem jsonValue_number (n : Nat) (hrest : LeavesOff Char.isDigit rest) :
    jsonValue levels (((JsonValue.number n).pretty depth).toList ++ rest) = .done (.number n) rest := by
  have htext : ((JsonValue.number n).pretty depth).toList = Nat.toDigits 10 n := by
    rw [pretty]
    exact Nat.toList_repr
  obtain ⟨d, ds, hds⟩ := List.exists_cons_of_ne_nil (Nat.toDigits_ne_nil (n := n) (b := 10))
  have hd : d.isDigit = true := isDigit_of_mem_decimal (hds ▸ List.mem_cons_self)
  obtain ⟨fault, hmiss⟩ : Misses ((jsonWord "true" true).or (jsonWord "false" false)) (Nat.toDigits 10 n ++ rest) := by
    rw [hds]
    exact misses_or (misses_bind (misses_word_digit (by decide) hd _ _))
      (misses_bind (misses_word_digit (by decide) hd _ _))
  refine jsonValue_of_scalar ?_ _
  rw [htext]
  refine (or_miss hmiss).trans (or_done ?_)
  rw [bind_done (jsonNumber_digits n hrest)]
  rfl

theorem jsonValue_string (text : String) :
    jsonValue levels (((JsonValue.string text).pretty depth).toList ++ rest) = .done (.string text) rest := by
  refine jsonValue_of_scalar ?_ _
  rw [pretty]
  have hread := jsonString_stringText text rest
  rw [toList_stringText] at hread ⊢
  obtain ⟨fault, hword⟩ : Misses ((jsonWord "true" true).or (jsonWord "false" false))
    ('"' :: (text.toList.flatMap stringChar ++ ['"']) ++ rest) := ⟨_, rfl⟩
  obtain ⟨fault', hnumber⟩ : Misses (do return JsonValue.number (← jsonNumber))
    ('"' :: (text.toList.flatMap stringChar ++ ['"']) ++ rest) := misses_bind ⟨_, rfl⟩
  refine (or_miss hword).trans ((or_miss hnumber).trans ?_)
  rw [bind_done hread]
  rfl

theorem jsonValue_array {elements : List JsonValue}
    (h : ∀ e ∈ elements, ∀ more, LeavesOff Char.isDigit more →
      jsonValue levels ((e.pretty (depth + 1)).toList ++ more) = .done e more) :
    jsonValue (levels + 1) (((JsonValue.array elements).pretty depth).toList ++ rest) = .done (.array elements) rest := by
  let write (e : JsonValue) := (e.pretty (depth + 1)).toList
  have hitems : jsonItems '[' ']' (jsonValue levels) (itemChars '[' ']' depth write elements ++ rest) =
      .done elements rest :=
    jsonItems_itemChars h (fun e _ more => leavesOff_pretty e (depth + 1) more) (by decide) (by decide)
      (misses_jsonValue_bracket levels) depth rest
  obtain ⟨w, hw⟩ := itemChars_head '[' ']' depth write elements
  rw [toList_pretty_array]
  rw [hw] at hitems ⊢
  obtain ⟨fault, hscalar⟩ : Misses jsonScalar ('[' :: w ++ rest) := ⟨_, rfl⟩
  refine (or_miss hscalar).trans (or_done ?_)
  unfold jsonArray
  rw [bind_done hitems]
  rfl

theorem jsonValue_object {members : List (String × JsonValue)}
    (h : ∀ m ∈ members, ∀ more, LeavesOff Char.isDigit more →
      jsonValue levels ((m.2.pretty (depth + 1)).toList ++ more) = .done m.2 more) :
    jsonValue (levels + 1) (((JsonValue.object members).pretty depth).toList ++ rest) = .done (.object members) rest := by
  have hitems : jsonItems '{' '}' (jsonMember (jsonValue levels))
      (itemChars '{' '}' depth (memberChars (depth + 1)) members ++ rest) = .done members rest :=
    jsonItems_itemChars (fun m hm more hmore => jsonMember_memberChars (h m hm more hmore))
      (fun m _ more => leavesOff_memberChars m (depth + 1) more) (by decide) (by decide)
      (misses_jsonMember_brace (jsonValue levels)) depth rest
  obtain ⟨w, hw⟩ := itemChars_head '{' '}' depth (memberChars (depth + 1)) members
  rw [toList_pretty_object]
  rw [hw] at hitems ⊢
  obtain ⟨fault, hscalar⟩ : Misses jsonScalar ('{' :: w ++ rest) := ⟨_, rfl⟩
  obtain ⟨fault', harray⟩ : Misses (jsonArray (jsonValue levels)) ('{' :: w ++ rest) :=
    misses_bind (misses_bind (misses_skip (leavesOff_cons (by decide))))
  refine (or_miss hscalar).trans ((or_miss harray).trans ?_)
  unfold jsonObject
  rw [bind_done hitems]
  rfl

end Pretty

/-- A value is read back from its text in front of anything but a digit, which might belong to a number. -/
theorem jsonValue_pretty {levels : Nat} {v : JsonValue} (h : v.Within levels) (depth : Nat) {rest : List Char}
    (hrest : LeavesOff Char.isDigit rest) : jsonValue levels ((v.pretty depth).toList ++ rest) = .done v rest := by
  -- What follows a part is a comma or a line feed, so that the condition on what follows carries over to the parts.
  induction h generalizing depth rest with
  | bool b => exact jsonValue_bool depth b
  | number n => exact jsonValue_number depth n hrest
  | string text => exact jsonValue_string depth text
  | array _ ih => exact jsonValue_array depth fun e he _ hmore => ih e he (depth + 1) hmore
  | object _ ih => exact jsonValue_object depth fun m hm _ hmore => ih m hm (depth + 1) hmore

end Reader

namespace JsonValue

theorem read?_pretty {v : JsonValue} (h : v.Within depthLimit) (depth : Nat) : read? (v.pretty depth) = some v := by
  have hend : Reader.LeavesOff Char.isDigit [] := nofun
  have hvalue := Reader.jsonValue_pretty h depth hend
  rw [List.append_nil] at hvalue
  have hspace : Reader.LeavesOff Reader.isJsonSpace (v.pretty depth).toList := by
    have hpretty := Reader.leavesOff_pretty v depth []
    rwa [List.append_nil] at hpretty
  have hread : Reader.jsonText depthLimit (v.pretty depth).toList = .done v [] := by
    unfold Reader.jsonText
    rw [Reader.bind_done (Reader.jsonSpace_done hspace), Reader.bind_done hvalue]
    rfl
  rw [read?, hread]

theorem pretty_inj {v w : JsonValue} (hv : v.Within depthLimit) (hw : w.Within depthLimit) (depth : Nat) :
    v.pretty depth = w.pretty depth ↔ v = w := by
  refine ⟨fun h => ?_, fun h => h ▸ rfl⟩
  have hread := read?_pretty hv depth
  rw [h, read?_pretty hw depth] at hread
  exact (Option.some.inj hread).symm

end JsonValue

end BackendAssembly
