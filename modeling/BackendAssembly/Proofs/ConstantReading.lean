import BackendAssembly.Store
import BackendAssembly.Proofs.KeyReading

namespace BackendAssembly.Reader

theorem digitsValue_append_singleton (base : Nat) (ds : List Char) (d : Char) :
    digitsValue base (ds ++ [d]) = digitsValue base ds * base + digitValue d := by
  simp only [digitsValue, List.foldl_append, List.foldl_cons, List.foldl_nil]

theorem digitValue_digitChar : ∀ d < 10, digitValue (Nat.digitChar d) = d := by
  decide

theorem digitsValue_toDigits (n : Nat) : digitsValue 10 (Nat.toDigits 10 n) = n := by
  induction n using Nat.strong_induction_on with
  | _ n ih =>
    rw [Nat.toDigits_eq_if (by decide)]
    split
    next hlt =>
      rw [← List.nil_append [Nat.digitChar n], digitsValue_append_singleton, digitValue_digitChar n hlt]
      exact Nat.zero_add n
    next hge =>
      have hlt : n % 10 < 10 := Nat.mod_lt n (by decide)
      rw [digitsValue_append_singleton, ih (n / 10) (by omega), digitValue_digitChar _ hlt]
      omega

theorem isDigit_of_mem_decimal {n : Nat} {c : Char} (h : c ∈ Nat.toDigits 10 n) : c.isDigit = true :=
  Nat.isDigit_of_mem_toDigits (by decide) (by decide) h

theorem digitChar_ne_zero : ∀ d < 10, d ≠ 0 → Nat.digitChar d ≠ '0' := by
  decide

theorem toDigits_head {n : Nat} (h : n ≠ 0) : ∃ d ds, Nat.toDigits 10 n = d :: ds ∧ d ≠ '0' := by
  induction n using Nat.strong_induction_on with
  | _ n ih =>
    rw [Nat.toDigits_eq_if (by decide)]
    split
    next hlt => exact ⟨_, [], rfl, digitChar_ne_zero n hlt h⟩
    next hge =>
      obtain ⟨d, ds, hds, hd⟩ := ih (n / 10) (by omega) (by omega)
      exact ⟨d, ds ++ [Nat.digitChar (n % 10)], by rw [hds]; rfl, hd⟩

/-- What follows a number on its line: a class with no digit in it is left off by the digits and by the line end. -/
theorem leavesOff_digits {p : Char → Bool} {ds : List Char} (hds : ∀ c ∈ ds, c.isDigit = true)
    (hp : ∀ c, p c = true → c.isDigit = false) (hend : p '\n' = false) (more : List Char) :
    LeavesOff p (ds ++ '\n' :: more) := by
  cases ds with
  | nil => exact leavesOff_cons hend
  | cons d ds =>
    refine leavesOff_cons (Bool.eq_false_iff.mpr fun hd => ?_)
    have hdigit := hds d List.mem_cons_self
    rw [hp d hd] at hdigit
    exact absurd hdigit (by decide)

theorem leavesOff_digits_char {c : Char} {ds : List Char} (hds : ∀ d ∈ ds, d.isDigit = true)
    (hc : c.isDigit = false) (hend : ('\n' == c) = false) (more : List Char) :
    LeavesOff (· == c) (ds ++ '\n' :: more) :=
  leavesOff_digits hds (fun d hd => by rw [eq_of_beq hd]; exact hc) hend more

section Digits

variable {ds : List Char} (hds : ∀ c ∈ ds, c.isDigit = true) (more : List Char)
include hds

theorem moreDigits_done : moreDigits Char.isDigit (ds ++ '\n' :: more) = .done ds ('\n' :: more) := by
  have hend : Misses ((char Char.isDigit).or do
      skip '_'
      ((char Char.isDigit).orExpected "digit").commit) ('\n' :: more) :=
    misses_or (misses_char (leavesOff_cons (by decide))) (misses_bind (misses_skip (leavesOff_cons (by decide))))
  exact many_chars_done (fun c hc rest => or_done (char_done (hds c hc))) hend

theorem exactly_digits (k : Nat) :
    Misses (exactly k Char.isDigit) (ds ++ '\n' :: more) ∨
      exactly k Char.isDigit (ds ++ '\n' :: more) = .done (ds.take k) (ds.drop k ++ '\n' :: more) := by
  by_cases hk : k ≤ ds.length
  · right
    have htake : ∀ c ∈ ds.take k, c.isDigit = true := fun c hc => hds c (List.mem_of_mem_take hc)
    have hread := exactly_done htake (ds.drop k ++ '\n' :: more)
    rwa [List.length_take_of_le hk, ← List.append_assoc, List.take_append_drop] at hread
  · left
    obtain ⟨m, hm⟩ : ∃ m, k - ds.length = m + 1 := ⟨k - ds.length - 1, by omega⟩
    have hmem : '\n' ∈ (ds ++ '\n' :: more).take k := by
      rw [List.take_append, hm, List.take_succ_cons]
      exact List.mem_append_right _ List.mem_cons_self
    refine ⟨{ rest := ds ++ '\n' :: more }, if_neg fun h => ?_⟩
    exact absurd (List.all_eq_true.mp h.2 '\n' hmem) (by decide)

theorem misses_fixedNumber_bind {β : Type} {k low high : Nat} {f : Nat → Reader β}
    (hf : ∀ (m : Nat) (es : List Char), (∀ c ∈ es, c.isDigit = true) → Misses (f m) (es ++ '\n' :: more)) :
    Misses (fixedNumber k low high >>= f) (ds ++ '\n' :: more) := by
  rcases exactly_digits hds more k with hmiss | hread
  · exact misses_bind (misses_check hmiss)
  · by_cases hrange : low ≤ digitsValue 10 (ds.take k) ∧ digitsValue 10 (ds.take k) ≤ high
    · refine misses_bind_done (check_done hread (if_pos hrange)) (hf _ _ fun c hc => ?_)
      exact hds c (List.mem_of_mem_drop hc)
    · refine misses_bind ⟨{ rest := ds ++ '\n' :: more, objection := some .outOfRange }, ?_⟩
      simp only [fixedNumber, check, hread, if_neg hrange]

theorem misses_moment_digits : Misses moment (ds ++ '\n' :: more) := by
  have hdate : Misses fullDate (ds ++ '\n' :: more) :=
    misses_fixedNumber_bind hds more fun _ es hes =>
      misses_bind (misses_skip (leavesOff_digits_char hes (by decide) (by decide) more))
  have htime : Misses partialTime (ds ++ '\n' :: more) :=
    misses_fixedNumber_bind hds more fun _ es hes =>
      misses_bind (misses_skip (leavesOff_digits_char hes (by decide) (by decide) more))
  exact misses_or (misses_inside (misses_bind hdate)) (misses_inside htime)

theorem sign_none : sign (ds ++ '\n' :: more) = .done false (ds ++ '\n' :: more) := by
  obtain ⟨fault, hmiss⟩ := misses_char (p := fun c => c == '+' || c == '-') (leavesOff_digits hds (by
    intro c hc
    rw [Bool.or_eq_true, beq_iff_eq, beq_iff_eq] at hc
    rcases hc with rfl | rfl <;> decide) (by decide) more)
  exact bind_done (optional_miss hmiss)

end Digits

theorem sign_minus (rest : List Char) : sign ('-' :: rest) = .done true rest :=
  bind_done (optional_done (char_done (by decide)))

theorem decimalDigits_done (n : Nat) (more : List Char) :
    decimalDigits (Nat.toDigits 10 n ++ '\n' :: more) = .done (Nat.toDigits 10 n) ('\n' :: more) := by
  by_cases hn : n = 0
  · subst hn
    rfl
  · obtain ⟨d, ds, hds, hd⟩ := toDigits_head hn
    have hall : ∀ c ∈ d :: ds, c.isDigit = true := fun c hc => isDigit_of_mem_decimal (hds ▸ hc)
    have hfirst : (fun c : Char => c.isDigit && c != '0') d = true := by
      simp [hall d List.mem_cons_self, hd]
    have hothers := moreDigits_done (fun c hc => hall c (List.mem_cons_of_mem d hc)) more
    rw [hds, List.cons_append]
    refine or_done ?_
    rw [bind_done (char_done hfirst), bind_done hothers]
    rfl

theorem decimal_done {negative : Bool} {text : List Char} {n : Nat} {more : List Char}
    (hsign : sign text = .done negative (Nat.toDigits 10 n ++ '\n' :: more)) :
    decimal text = .done (negative, Nat.toDigits 10 n) ('\n' :: more) := by
  refine inside_done ?_
  rw [bind_done hsign, bind_done (decimalDigits_done n more)]
  rfl

theorem misses_moment_minus (rest : List Char) : Misses moment ('-' :: rest) := by
  have hminus : LeavesOff Char.isDigit ('-' :: rest) := leavesOff_cons (by decide)
  exact misses_or (misses_inside (misses_bind (misses_bind (misses_check (misses_exactly hminus 3)))))
    (misses_inside (misses_bind (misses_check (misses_exactly hminus 1))))

section Number

variable {negative : Bool} {text : List Char} {n : Nat} {more : List Char}
  (hsign : sign text = .done negative (Nat.toDigits 10 n ++ '\n' :: more))
include hsign

theorem misses_decimalFloat : Misses decimalFloat text := by
  have hexponent : Misses exponent ('\n' :: more) := misses_bind (misses_char (leavesOff_cons (by decide)))
  have hfraction : Misses fraction ('\n' :: more) := misses_bind (misses_skip (leavesOff_cons (by decide)))
  obtain ⟨fault, hmiss⟩ : Misses nearestDouble text :=
    misses_bind_done (decimal_done hsign) (misses_bind (misses_or (misses_bind hexponent) (misses_bind hfraction)))
  exact ⟨fault, by simp only [decimalFloat, hmiss]⟩

theorem misses_specialFloat : Misses specialFloat text := by
  have hds : ∀ c ∈ Nat.toDigits 10 n, c.isDigit = true := fun c hc => isDigit_of_mem_decimal hc
  refine misses_bind_done hsign (misses_bind (misses_or (misses_bind ?_) (misses_bind ?_)))
  · exact misses_word (leavesOff_digits_char hds (by decide) (by decide) more)
  · exact misses_word (leavesOff_digits_char hds (by decide) (by decide) more)

theorem misses_float : Misses float text :=
  misses_inside (misses_or (misses_decimalFloat hsign) (misses_specialFloat hsign))

theorem decimalInteger_done {m : Int64}
    (hm : m.toInt = if negative then -Int.ofNat n else Int.ofNat n) :
    decimalInteger text = .done m ('\n' :: more) := by
  have hrange : toInt64 m.toInt = .ok m := by
    have hlow := m.minValue_le_toInt
    have hhigh := m.toInt_le
    rw [toInt64, if_neg (by omega), if_neg (by omega), Int64.ofInt_toInt]
  rw [hm] at hrange
  simp only [decimalInteger, decimal_done hsign, digitsValue_toDigits, hrange]

end Number

theorem number_done {negative : Bool} {text more : List Char} {n : Nat} {m : Int64}
    (hsign : sign text = .done negative (Nat.toDigits 10 n ++ '\n' :: more))
    (hm : m.toInt = if negative then -Int.ofNat n else Int.ofNat n)
    (hmoment : Misses moment text) (hbase : integer text = decimalInteger text) :
    number text = .done (.integer m) ('\n' :: more) := by
  obtain ⟨fault, hmiss⟩ : Misses ((do moment; return Scalar.moment).or do return Scalar.float (← float)) text :=
    misses_or (misses_bind hmoment) (misses_bind (misses_float hsign))
  refine (or_miss hmiss).trans ?_
  rw [bind_done (hbase.trans (decimalInteger_done hsign hm))]
  rfl

/-- Behind a zero at the front there is no second digit, let alone the mark of another base. -/
theorem integer_digits (n : Nat) (more : List Char) :
    integer (Nat.toDigits 10 n ++ '\n' :: more) = decimalInteger (Nat.toDigits 10 n ++ '\n' :: more) := by
  by_cases hn : n = 0
  · subst hn
    rfl
  · obtain ⟨d, ds, hds, hd⟩ := toDigits_head hn
    rw [hds, List.cons_append]
    unfold integer
    split
    next heq => exact absurd (List.cons.inj heq).1 hd
    next heq => exact absurd (List.cons.inj heq).1 hd
    next heq => exact absurd (List.cons.inj heq).1 hd
    next => rfl

end BackendAssembly.Reader

namespace BackendAssembly

def Constant.toScalar : Constant → Scalar
  | bool b => .boolean b
  | int n => .integer n

theorem Constant.text_int (n : Int64) : ∃ (negative : Bool) (k : Nat),
    (int n).text.toList = (if negative then ['-'] else []) ++ Nat.toDigits 10 k ∧
      n.toInt = if negative then -Int.ofNat k else Int.ofNat k := by
  have htext : (int n).text = n.toInt.repr := rfl
  rw [htext, Int.repr_eq_if]
  split
  next h =>
    refine ⟨false, n.toInt.toNat, ?_, ?_⟩
    · rw [Nat.toList_repr]
      rfl
    · exact (Int.toNat_of_nonneg h).symm
  next h =>
    refine ⟨true, (-n.toInt).toNat, ?_, ?_⟩
    · rw [String.toList_append, Nat.toList_repr]
      rfl
    · rw [if_pos rfl, Int.ofNat_eq_natCast, Int.toNat_of_nonneg (by omega), Int.neg_neg]

namespace Reader

theorem scalar_number {c : Char} {rest : List Char} (h : c = '-' ∨ c.isDigit = true) :
    scalar (c :: rest) = number (c :: rest) := by
  have hquote : ¬(c = '"' ∨ c = '\'') := by
    rintro (rfl | rfl) <;> exact absurd h (by decide)
  have hnumber : c = '+' ∨ c = '-' ∨ c.isDigit = true := .inr h
  simp only [scalar, if_neg hquote, if_pos hnumber]

theorem scalar_text (value : Constant) (more : List Char) :
    scalar (value.text.toList ++ '\n' :: more) = .done value.toScalar ('\n' :: more) := by
  cases value with
  | bool b => cases b <;> rfl
  | int n =>
    obtain ⟨negative, k, htext, hn⟩ := Constant.text_int n
    have hdigits : ∀ c ∈ Nat.toDigits 10 k, c.isDigit = true := fun c hc => isDigit_of_mem_decimal hc
    rw [htext]
    cases negative with
    | true =>
      refine (scalar_number (.inl rfl)).trans ?_
      exact number_done (sign_minus _) hn (misses_moment_minus _) rfl
    | false =>
      obtain ⟨d, ds, hds⟩ := List.exists_cons_of_ne_nil (Nat.toDigits_ne_nil (n := k) (b := 10))
      have hscalar : scalar (Nat.toDigits 10 k ++ '\n' :: more) = number (Nat.toDigits 10 k ++ '\n' :: more) := by
        rw [hds] at hdigits ⊢
        exact scalar_number (.inr (hdigits d List.mem_cons_self))
      refine hscalar.trans ?_
      exact number_done (sign_none hdigits more) hn (misses_moment_digits hdigits more) (integer_digits k more)

theorem text_not_blank (value : Constant) (more : List Char) :
    LeavesOff isBlank (value.text.toList ++ '\n' :: more) := by
  cases value with
  | bool b => cases b <;> exact leavesOff_cons (by decide)
  | int n =>
    obtain ⟨negative, k, htext, _⟩ := Constant.text_int n
    rw [htext]
    cases negative with
    | true => exact leavesOff_cons (by decide)
    | false =>
      refine leavesOff_digits (fun c hc => isDigit_of_mem_decimal hc) (fun c hc => ?_) (by decide) more
      rw [isBlank, Bool.or_eq_true, beq_iff_eq, beq_iff_eq] at hc
      rcases hc with rfl | rfl <;> decide

/-- The text of a constant is read back, up to the end of its line. -/
theorem value_text (levels : Nat) (value : Constant) (more : List Char) :
    Reader.value (levels + 1) (value.text.toList ++ '\n' :: more) =
      .done (.scalar ⟨(value.text.toList ++ '\n' :: more).length, ('\n' :: more).length⟩ value.toScalar)
        ('\n' :: more) := by
  have hscalar := scalar_text value more
  have hnode : scalarNode (value.text.toList ++ '\n' :: more) = .done
      (.scalar ⟨(value.text.toList ++ '\n' :: more).length, ('\n' :: more).length⟩ value.toScalar) ('\n' :: more) := by
    unfold scalarNode
    rw [bind_done (located_done hscalar)]
    rfl
  unfold Reader.value
  split
  next tail heq =>
    have hmiss : Misses scalar ('[' :: tail) := ⟨_, rfl⟩
    exact absurd (heq ▸ hscalar) (not_done_of_misses hmiss)
  next tail heq =>
    have hmiss : Misses scalar ('\x7b' :: tail) := ⟨_, rfl⟩
    exact absurd (heq ▸ hscalar) (not_done_of_misses hmiss)
  next => exact hnode

end Reader

end BackendAssembly
