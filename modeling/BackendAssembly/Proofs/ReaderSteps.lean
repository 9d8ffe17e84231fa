import BackendAssembly.Lexical

namespace BackendAssembly.Reader

variable {α β : Type}

theorem bind_done {p : Reader α} {f : α → Reader β} {text rest : List Char} {a : α}
    (h : p text = .done a rest) : (p >>= f) text = f a rest := by
  rw [bind_apply, h]

theorem bind_miss {p : Reader α} {f : α → Reader β} {text : List Char} {fault : Fault}
    (h : p text = .miss fault) : (p >>= f) text = .miss fault := by
  rw [bind_apply, h]

theorem or_done {p q : Reader α} {text rest : List Char} {a : α} (h : p text = .done a rest) :
    p.or q text = .done a rest := by
  simp only [Reader.or, h]

theorem or_miss {p q : Reader α} {text : List Char} {fault : Fault} (h : p text = .miss fault) :
    p.or q text = q text := by
  simp only [Reader.or, h]

theorem commit_done {p : Reader α} {text rest : List Char} {a : α} (h : p text = .done a rest) :
    p.commit text = .done a rest := by
  simp only [commit, h]

theorem inside_done {kind : String} {p : Reader α} {text rest : List Char} {a : α}
    (h : p text = .done a rest) : p.inside kind text = .done a rest := by
  simp only [inside, h, Reading.mapFault]

theorem orExpected_done {what : String} {p : Reader α} {text rest : List Char} {a : α}
    (h : p text = .done a rest) : p.orExpected what text = .done a rest := by
  simp only [orExpected, h, Reading.mapFault]

theorem optional_miss {p : Reader α} {text : List Char} {fault : Fault} (h : p text = .miss fault) :
    optional p text = .done none text := by
  simp only [optional, h]

theorem optional_done {p : Reader α} {text rest : List Char} {a : α} (h : p text = .done a rest) :
    optional p text = .done (some a) rest := by
  simp only [optional, h]

theorem check_done {p : Reader α} {f : α → Except Objection β} {text rest : List Char} {a : α} {b : β}
    (h : p text = .done a rest) (hf : f a = .ok b) : check p f text = .done b rest := by
  simp only [check, h, hf]

theorem char_done {p : Char → Bool} {c : Char} {rest : List Char} (h : p c = true) :
    char p (c :: rest) = .done c rest := by
  simp only [char, h, if_true]

theorem skip_done (c : Char) (rest : List Char) : skip c (c :: rest) = .done () rest := by
  simp only [skip, char, beq_self_eq_true, if_true, Reading.map]

def Misses (p : Reader α) (text : List Char) : Prop :=
  ∃ fault, p text = .miss fault

theorem not_done_of_misses {p : Reader α} {text rest : List Char} {a : α} (h : Misses p text) :
    p text ≠ .done a rest := by
  obtain ⟨fault, h⟩ := h
  rw [h]
  exact nofun

theorem misses_bind {p : Reader α} {f : α → Reader β} {text : List Char} (h : Misses p text) :
    Misses (p >>= f) text := by
  obtain ⟨fault, h⟩ := h
  exact ⟨fault, bind_miss h⟩

theorem misses_bind_done {p : Reader α} {f : α → Reader β} {text rest : List Char} {a : α}
    (h : p text = .done a rest) (hf : Misses (f a) rest) : Misses (p >>= f) text := by
  obtain ⟨fault, hf⟩ := hf
  exact ⟨fault, (bind_done h).trans hf⟩

theorem misses_or {p q : Reader α} {text : List Char} (hp : Misses p text) (hq : Misses q text) :
    Misses (p.or q) text := by
  obtain ⟨fault, hp⟩ := hp
  obtain ⟨fault', hq⟩ := hq
  exact ⟨fault', (or_miss hp).trans hq⟩

theorem misses_inside {kind : String} {p : Reader α} {text : List Char} (h : Misses p text) :
    Misses (p.inside kind) text := by
  obtain ⟨fault, h⟩ := h
  exact ⟨fault.inside kind, by simp only [inside, h, Reading.mapFault]⟩

/-- A class is left off by a text if its first character, if there is one, is not in the class. -/
def LeavesOff (p : Char → Bool) (rest : List Char) : Prop :=
  ∀ c ∈ rest.head?, p c = false

theorem leavesOff_cons {p : Char → Bool} {c : Char} {rest : List Char} (h : p c = false) :
    LeavesOff p (c :: rest) := by
  intro d hd
  rw [List.head?_cons, Option.mem_some_iff] at hd
  exact hd ▸ h

theorem LeavesOff.takeWhile {p : Char → Bool} {rest : List Char} (h : LeavesOff p rest) :
    rest.takeWhile p = [] := by
  cases rest with
  | nil => rfl
  | cons c rest => simp [h c rfl]

theorem LeavesOff.dropWhile {p : Char → Bool} {rest : List Char} (h : LeavesOff p rest) :
    rest.dropWhile p = rest := by
  cases rest with
  | nil => rfl
  | cons c rest => simp [h c rfl]

theorem takeWhile_append_of_leavesOff {p : Char → Bool} {w rest : List Char} (hw : ∀ c ∈ w, p c = true)
    (hrest : LeavesOff p rest) : (w ++ rest).takeWhile p = w := by
  rw [List.takeWhile_append_of_pos hw, hrest.takeWhile, List.append_nil]

theorem dropWhile_append_of_leavesOff {p : Char → Bool} {w rest : List Char} (hw : ∀ c ∈ w, p c = true)
    (hrest : LeavesOff p rest) : (w ++ rest).dropWhile p = rest := by
  rw [List.dropWhile_append_of_pos hw, hrest.dropWhile]

theorem misses_char {p : Char → Bool} {text : List Char} (h : LeavesOff p text) : Misses (char p) text := by
  cases text with
  | nil => exact ⟨_, rfl⟩
  | cons c rest => exact ⟨{ rest := c :: rest }, by simp [char, h c rfl]⟩

theorem misses_skip {c : Char} {text : List Char} (h : LeavesOff (· == c) text) : Misses (skip c) text := by
  obtain ⟨fault, h⟩ := misses_char h
  exact ⟨fault, by simp only [skip, h, Reading.map]⟩

theorem misses_word {c : Char} {w text : List Char} (h : LeavesOff (· == c) text) :
    Misses (word (c :: w)) text := by
  refine ⟨{ rest := text }, ?_⟩
  cases text with
  | nil => rfl
  | cons d rest =>
    have hd : (c == d) = false := by
      have hdc := h d rfl
      rw [beq_eq_false_iff_ne] at hdc ⊢
      exact hdc.symm
    simp [word, List.isPrefixOf, hd]

theorem chars_done {p : Char → Bool} {w rest : List Char} (hw : ∀ c ∈ w, p c = true)
    (hrest : LeavesOff p rest) : chars p (w ++ rest) = .done w rest := by
  rw [chars, takeWhile_append_of_leavesOff hw hrest, dropWhile_append_of_leavesOff hw hrest]

theorem someChars_done {p : Char → Bool} {w rest : List Char} (hne : w ≠ []) (hw : ∀ c ∈ w, p c = true)
    (hrest : LeavesOff p rest) : someChars p (w ++ rest) = .done w rest := by
  have he : w.isEmpty = false := List.isEmpty_eq_false_iff.mpr hne
  rw [someChars, takeWhile_append_of_leavesOff hw hrest, he, if_neg Bool.false_ne_true,
    chars_done hw hrest]

theorem exactly_done {p : Char → Bool} {w : List Char} (hw : ∀ c ∈ w, p c = true) (rest : List Char) :
    exactly w.length p (w ++ rest) = .done w rest := by
  rw [exactly, List.take_left, List.drop_left, if_pos ⟨rfl, List.all_eq_true.mpr hw⟩]

theorem misses_exactly {p : Char → Bool} {text : List Char} (h : LeavesOff p text) (n : Nat) :
    Misses (exactly (n + 1) p) text := by
  refine ⟨{ rest := text }, if_neg fun hall => ?_⟩
  cases text with
  | nil => exact absurd hall.1 (Nat.succ_ne_zero n).symm
  | cons c rest =>
    have hc := List.all_eq_true.mp hall.2 c List.mem_cons_self
    rw [h c rfl] at hc
    exact Bool.false_ne_true hc

theorem misses_check {p : Reader α} {f : α → Except Objection β} {text : List Char} (h : Misses p text) :
    Misses (check p f) text := by
  obtain ⟨fault, h⟩ := h
  exact ⟨fault, by simp only [check, h]⟩

theorem blanks_done {text : List Char} (h : LeavesOff isBlank text) : blanks text = .done () text := by
  rw [blanks, h.dropWhile]

/-- A row of pieces is read piece by piece, if each piece takes something and nothing more fits behind the last one. What
a piece asks of the text behind it has to hold of every piece and of the rest. -/
theorem many_done_of {γ : Type} {p : Reader α} {write : γ → List Char} {out : γ → α} {P : List Char → Prop} {xs : List γ}
    {rest : List Char} (hpiece : ∀ x ∈ xs, ∀ more, P more → p (write x ++ more) = .done (out x) more)
    (htakes : ∀ x ∈ xs, 0 < (write x).length) (hfollows : ∀ x ∈ xs, ∀ more, P (write x ++ more)) (hrest : P rest)
    (hend : Misses p rest) : many p (xs.flatMap write ++ rest) = .done (xs.map out) rest := by
  induction xs with
  | nil =>
    obtain ⟨fault, hend⟩ := hend
    exact many_of_miss hend
  | cons x xs ih =>
    have hlt := htakes x List.mem_cons_self
    have htail : ∀ y ∈ xs, y ∈ x :: xs := fun y hy => List.mem_cons_of_mem x hy
    have hmore : P (xs.flatMap write ++ rest) := by
      cases xs with
      | nil => exact hrest
      | cons y ys =>
        rw [List.flatMap_cons, List.append_assoc]
        exact hfollows y (htail y List.mem_cons_self) _
    have hread := ih (fun y hy => hpiece y (htail y hy)) (fun y hy => htakes y (htail y hy))
      fun y hy => hfollows y (htail y hy)
    rw [List.flatMap_cons, List.append_assoc, many_of_done (hpiece x List.mem_cons_self _ hmore), hread]
    · rfl
    · simp only [List.length_append]
      omega

theorem many_done {γ : Type} {p : Reader α} {write : γ → List Char} {out : γ → α} {xs : List γ} {rest : List Char}
    (hpiece : ∀ x ∈ xs, ∀ more, p (write x ++ more) = .done (out x) more)
    (htakes : ∀ x ∈ xs, 0 < (write x).length) (hend : Misses p rest) :
    many p (xs.flatMap write ++ rest) = .done (xs.map out) rest :=
  many_done_of (P := fun _ => True) (fun x hx more _ => hpiece x hx more) htakes (fun _ _ _ => trivial) trivial hend

theorem many_chars_done {p : Reader Char} {w rest : List Char}
    (hpiece : ∀ c ∈ w, ∀ more, p (c :: more) = .done c more) (hend : Misses p rest) :
    many p (w ++ rest) = .done w rest := by
  have hmany : many p (w.flatMap (fun c => [c]) ++ rest) = .done (w.map id) rest :=
    many_done hpiece (fun _ _ => Nat.zero_lt_one) hend
  rwa [List.map_id, List.flatMap_singleton'] at hmany

end BackendAssembly.Reader
