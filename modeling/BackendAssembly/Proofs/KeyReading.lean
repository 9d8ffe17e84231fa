import BackendAssembly.Proofs.ReaderSteps
import BackendAssembly.ValueReader
import Mathlib.Tactic.IntervalCases

namespace BackendAssembly.Reader

def escapeDigits (n : Nat) : List Char :=
  if n < 0x10 then ['0', '0', '0'] ++ (Nat.toDigits 16 n).map Char.toUpper
  else ['0', '0'] ++ (Nat.toDigits 16 n).map Char.toUpper

theorem length_escapeDigits : ∀ n < 0x80, (escapeDigits n).length = 4 := by
  decide +kernel

theorem isHexDigit_of_mem_escapeDigits : ∀ n < 0x80, ∀ c ∈ escapeDigits n, isHexDigit c = true := by
  have hall : ∀ n < 0x80, (escapeDigits n).all isHexDigit = true := by decide +kernel
  exact fun n hn => List.all_eq_true.mp (hall n hn)

theorem digitsValue_escapeDigits : ∀ n < 0x80, digitsValue 16 (escapeDigits n) = n := by
  decide +kernel

theorem isControl_bound {c : Char} (h : isControl c = true) : c.toNat < 0x80 := by
  simp only [isControl, Bool.or_eq_true, Bool.and_eq_true, decide_eq_true_eq, beq_iff_eq] at h
  omega

theorem hexEscape_done {digits : List Char} {c : Char} (hdigits : digits.all isHexDigit = true)
    (hvalue : digitsValue 16 digits = c.toNat) (rest : List Char) :
    hexEscape digits.length (digits ++ rest) = .done c rest := by
  have hread := exactly_done (List.all_eq_true.mp hdigits) rest
  have hvalid : c.toNat.isValidChar := c.valid
  refine check_done hread ?_
  simp only [hvalue, if_pos hvalid, Char.ofNat_toNat]

theorem hexEscape_escapeDigits {c : Char} (h : c.toNat < 0x80) (rest : List Char) :
    hexEscape 4 (escapeDigits c.toNat ++ rest) = .done c rest := by
  have hdigits := List.all_eq_true.mpr (isHexDigit_of_mem_escapeDigits c.toNat h)
  have hread := hexEscape_done hdigits (digitsValue_escapeDigits c.toNat h) rest
  rwa [length_escapeDigits c.toNat h] at hread

/-- What stands for a control character between double quotes, if there is no shorter escape for it. -/
theorem escapeTail_escapeDigits {c : Char} (h : c.toNat < 0x80) (rest : List Char) :
    escapeTail ('u' :: (escapeDigits c.toNat ++ rest)) = .done c rest :=
  inside_done (commit_done (hexEscape_escapeDigits h rest))

theorem basicChar_basicKeyChar (c : Char) (rest : List Char) :
    ((char isBasicChar).or escaped) (basicKeyChar c ++ rest) = .done c rest := by
  have hescape : ∀ tail, escapeTail tail = .done c rest →
      ((char isBasicChar).or escaped) ('\\' :: tail) = .done c rest := fun tail htail => by
    have hslash : LeavesOff isBasicChar ('\\' :: tail) := leavesOff_cons (by decide)
    obtain ⟨fault, hmiss⟩ := misses_char hslash
    rw [or_miss hmiss]
    exact (bind_done (skip_done '\\' tail)).trans htail
  unfold basicKeyChar
  split_ifs with hquote hb ht hn hf hr hsmall hcontrol
  · rcases hquote with rfl | rfl
    · exact hescape _ rfl
    · exact hescape _ rfl
  · subst hb; exact hescape _ rfl
  · subst ht; exact hescape _ rfl
  · subst hn; exact hescape _ rfl
  · subst hf; exact hescape _ rfl
  · subst hr; exact hescape _ rfl
  · have hbound : c.toNat < 0x80 := by omega
    have htail := escapeTail_escapeDigits hbound rest
    rw [escapeDigits, if_pos hsmall] at htail
    exact hescape _ htail
  · have htail := escapeTail_escapeDigits (isControl_bound hcontrol) rest
    rw [escapeDigits, if_neg hsmall] at htail
    exact hescape _ htail
  · refine or_done (char_done ?_)
    rw [not_or] at hquote
    simp [isBasicChar, hcontrol, hquote.1, hquote.2]

theorem length_basicKeyChar_pos (c : Char) : 0 < (basicKeyChar c).length := by
  unfold basicKeyChar
  split_ifs <;> simp

theorem basicString_flatMap (cs rest : List Char) :
    basicString ('"' :: cs.flatMap basicKeyChar ++ ['"'] ++ rest) = .done cs rest := by
  have hend : Misses ((char isBasicChar).or escaped) ('"' :: rest) :=
    misses_or (misses_char (leavesOff_cons (by decide))) (misses_bind (misses_skip (leavesOff_cons (by decide))))
  have hbody : many ((char isBasicChar).or escaped) (cs.flatMap basicKeyChar ++ '"' :: rest) =
      .done (cs.map id) ('"' :: rest) :=
    many_done (fun c _ => basicChar_basicKeyChar c) (fun c _ => length_basicKeyChar_pos c) hend
  rw [List.map_id] at hbody
  rw [List.append_assoc, List.cons_append, List.singleton_append]
  unfold basicString
  rw [bind_done (skip_done '"' _), bind_done hbody, bind_done (inside_done (commit_done (skip_done '"' rest)))]
  rfl

theorem literalString_quoted {cs : List Char} (h : ∀ c ∈ cs, isLiteralChar c = true) (rest : List Char) :
    literalString ('\'' :: cs ++ ['\''] ++ rest) = .done cs rest := by
  have hquote : LeavesOff isLiteralChar ('\'' :: rest) := leavesOff_cons (by decide)
  have hbody := chars_done h hquote
  rw [List.append_assoc, List.cons_append, List.singleton_append]
  refine inside_done ?_
  rw [bind_done (skip_done '\'' _), bind_done hbody, bind_done (commit_done (skip_done '\'' rest))]
  rfl

theorem located_done {α : Type} {p : Reader α} {text rest : List Char} {a : α} (h : p text = .done a rest) :
    located p text = .done (a, ⟨text.length, rest.length⟩) rest := by
  simp only [located, h]

theorem bareChar_ne_quotes {c : Char} (h : isBareChar c = true) : c ≠ '"' ∧ c ≠ '\'' := by
  constructor
  · rintro rfl
    exact absurd h (by decide)
  · rintro rfl
    exact absurd h (by decide)

/-- The first character of a written key tells its form. -/
theorem keyChars_head (cs : List Char) :
    ∃ c w, keyChars cs = c :: w ∧ (isBareChar c = true ∨ c = '"' ∨ c = '\'') := by
  unfold keyChars
  split_ifs with hbare hliteral
  · obtain ⟨hne, hall⟩ := Bool.and_eq_true_iff.mp hbare
    cases cs with
    | nil => exact absurd hne (by decide)
    | cons c w => exact ⟨c, w, rfl, .inl (List.all_eq_true.mp hall c List.mem_cons_self)⟩
  · exact ⟨_, _, rfl, .inr (.inr rfl)⟩
  · exact ⟨_, _, rfl, .inr (.inl rfl)⟩

theorem keyChars_not_blank (cs rest : List Char) : LeavesOff isBlank (keyChars cs ++ rest) := by
  obtain ⟨c, w, hw, hc⟩ := keyChars_head cs
  rw [hw]
  refine leavesOff_cons ?_
  rcases hc with hc | rfl | rfl
  · by_contra hblank
    rw [Bool.not_eq_false, isBlank, Bool.or_eq_true, beq_iff_eq, beq_iff_eq] at hblank
    rcases hblank with rfl | rfl <;> exact absurd hc (by decide)
  · decide
  · decide

/-- A written key is read back, whichever of the three forms it has. -/
theorem keyForm_keyChars (cs : List Char) {rest : List Char} (hrest : LeavesOff isBareChar rest) :
    keyForm (keyChars cs ++ rest) = .done cs rest := by
  unfold keyForm keyChars
  split_ifs with hbare hliteral
  · obtain ⟨hne, hall⟩ := Bool.and_eq_true_iff.mp hbare
    rw [List.all_eq_true] at hall
    cases cs with
    | nil => exact absurd hne (by decide)
    | cons c w =>
      have hc := bareChar_ne_quotes (hall c List.mem_cons_self)
      split
      next heq => exact absurd (List.cons.inj heq).1 hc.1
      next heq => exact absurd (List.cons.inj heq).1 hc.2
      next => exact someChars_done (List.cons_ne_nil c w) hall hrest
  · rw [prefersLiteral, Bool.and_eq_true, List.all_eq_true] at hliteral
    exact literalString_quoted hliteral.2 rest
  · exact basicString_flatMap cs rest

theorem keyPart_keyChars (cs : List Char) {rest : List Char} (hrest : LeavesOff isBareChar rest) :
    keyPart (keyChars cs ++ rest) =
      .done ⟨String.ofList cs, ⟨(keyChars cs ++ rest).length, rest.length⟩⟩ (rest.dropWhile isBlank) := by
  unfold keyPart
  rw [bind_done (blanks_done (keyChars_not_blank cs rest)),
    bind_done (located_done (keyForm_keyChars cs hrest))]
  rfl

theorem keyPath_single {key : Key} {text rest : List Char} (h : keyPart text = .done key rest)
    (hrest : LeavesOff (· == '.') rest) : keyPath text = .done [key] rest := by
  obtain ⟨fault, hmiss⟩ := misses_bind (f := fun _ => keyPart) (misses_skip hrest)
  have hpath : someSeparated (skip '.') keyPart text = .done [key] rest := by
    unfold someSeparated
    rw [bind_done h, bind_done (many_of_miss hmiss)]
    rfl
  exact check_done (inside_done hpath) rfl

end BackendAssembly.Reader
