import BackendAssembly.Layout
import BackendAssembly.Proofs.StoreRoundTrip
import Mathlib.Data.List.Forall2

namespace BackendAssembly

theorem pieces_lines {rows : List String} (h : ∀ row ∈ rows, '\n' ∉ row.toList) :
    pieces '\n' (String.join (rows.map line)) = rows ++ [""] := by
  have htext : (String.join (rows.map line)).toList = ['\n'].intercalate (rows.map String.toList ++ [[]]) := by
    clear h
    induction rows with
    | nil => rfl
    | cons row rows ih =>
      rw [List.map_cons, String.join_cons, String.toList_append, toList_line, ih, List.map_cons, List.cons_append,
        List.intercalate_cons_of_ne_nil (by simp), List.append_assoc]
  have hfree : ∀ cs ∈ rows.map String.toList ++ [[]], '\n' ∉ cs := by
    intro cs hcs
    rcases List.mem_append.mp hcs with hcs | hcs
    · obtain ⟨row, hrow, rfl⟩ := List.mem_map.mp hcs
      exact h row hrow
    · rw [List.mem_singleton.mp hcs]
      exact List.not_mem_nil
  rw [pieces, htext, List.splitOn_intercalate '\n' hfree (by simp)]
  simp

theorem not_isControl_of_class {p : Char → Bool}
    (h : ∀ n < 0x80, isControl (Char.ofNat n) = true → p (Char.ofNat n) = false) {c : Char} (hc : p c = true) :
    isControl c = false := by
  by_contra hcontrol
  rw [Bool.not_eq_false] at hcontrol
  have hclass := h c.toNat (Reader.isControl_bound hcontrol)
  rw [Char.ofNat_toNat, hc] at hclass
  exact absurd (hclass hcontrol) (by decide)

theorem not_isControl_of_all {cs : List Char} (h : (cs.all fun d => !isControl d) = true) {c : Char} (hc : c ∈ cs) :
    isControl c = false := by
  have hall := List.all_eq_true.mp h c hc
  rwa [Bool.not_eq_true'] at hall

theorem not_isControl_of_isHexDigit {c : Char} (h : isHexDigit c = true) : isControl c = false :=
  not_isControl_of_class (by decide) h

theorem not_isControl_of_isBareChar {c : Char} (h : isBareChar c = true) : isControl c = false :=
  not_isControl_of_class (by decide) h

theorem not_isControl_of_isLiteralChar {c : Char} (h : isLiteralChar c = true) : isControl c = false := by
  rw [isLiteralChar, Bool.and_eq_true, Bool.not_eq_true'] at h
  exact h.1

theorem not_isControl_of_isDigit {c : Char} (h : c.isDigit = true) : isControl c = false :=
  not_isControl_of_class (by decide) h

theorem not_isControl_of_mem_escape {n : Nat} (hn : n < 0x80) {c : Char}
    (h : c ∈ '\\' :: 'u' :: Reader.escapeDigits n) : isControl c = false := by
  simp only [List.mem_cons] at h
  rcases h with rfl | rfl | h
  · rfl
  · rfl
  · exact not_isControl_of_isHexDigit (Reader.isHexDigit_of_mem_escapeDigits n hn c h)

theorem not_isControl_of_mem_basicKeyChar {c d : Char} (h : d ∈ basicKeyChar c) : isControl d = false := by
  unfold basicKeyChar at h
  split_ifs at h with hquote hb ht hn hf hr hsmall hcontrol
  · rcases hquote with rfl | rfl
    · exact not_isControl_of_all (by decide) h
    · exact not_isControl_of_all (by decide) h
  · exact not_isControl_of_all (by decide) h
  · exact not_isControl_of_all (by decide) h
  · exact not_isControl_of_all (by decide) h
  · exact not_isControl_of_all (by decide) h
  · exact not_isControl_of_all (by decide) h
  · have hbound : c.toNat < 0x80 := by omega
    refine not_isControl_of_mem_escape hbound ?_
    rwa [Reader.escapeDigits, if_pos hsmall]
  · refine not_isControl_of_mem_escape (Reader.isControl_bound hcontrol) ?_
    rwa [Reader.escapeDigits, if_neg hsmall]
  · rw [List.mem_singleton.mp h]
    exact Bool.eq_false_iff.mpr hcontrol

/-- Whatever characters a name has, its written form has no control in it but the tab. -/
theorem not_isControl_of_mem_keyChars {cs : List Char} {c : Char} (h : c ∈ keyChars cs) : isControl c = false := by
  have hquoted : ∀ {quote : Char} {body : List Char}, isControl quote = false →
      (∀ d ∈ body, isControl d = false) → c ∈ quote :: body ++ [quote] → isControl c = false := by
    intro quote body hquote hbody hmem
    rcases List.mem_append.mp hmem with hmem | hmem
    · rcases List.mem_cons.mp hmem with rfl | hmem
      · exact hquote
      · exact hbody c hmem
    · rwa [List.mem_singleton.mp hmem]
  unfold keyChars at h
  split_ifs at h with hbare hliteral
  · exact not_isControl_of_isBareChar (List.all_eq_true.mp (Bool.and_eq_true_iff.mp hbare).2 c h)
  · have hall := List.all_eq_true.mp (Bool.and_eq_true_iff.mp hliteral).2
    exact hquoted rfl (fun d hd => not_isControl_of_isLiteralChar (hall d hd)) h
  · refine hquoted rfl (fun d hd => ?_) h
    obtain ⟨e, -, hd⟩ := List.mem_flatMap.mp hd
    exact not_isControl_of_mem_basicKeyChar hd

theorem not_isControl_of_mem_text {value : Constant} {c : Char} (h : c ∈ value.text.toList) :
    isControl c = false := by
  cases value with
  | bool b =>
    have hall : ∀ b, ((Constant.bool b).text.toList.all fun d => !isControl d) = true := by decide
    exact not_isControl_of_all (hall b) h
  | int n =>
    obtain ⟨negative, k, htext, -⟩ := Constant.text_int n
    rw [htext] at h
    rcases List.mem_append.mp h with h | h
    · cases negative with
      | true =>
        rw [List.mem_singleton.mp h]
        rfl
      | false => cases h
    · exact not_isControl_of_isDigit (Reader.isDigit_of_mem_decimal h)

namespace Store

def entryText (entry : String × Constant) : String :=
  keyText entry.1 ++ " = " ++ entry.2.text

theorem not_isControl_of_mem_entryText {entry : String × Constant} {c : Char} (h : c ∈ (entryText entry).toList) :
    isControl c = false := by
  rw [entryText, String.toList_append, String.toList_append, List.mem_append, List.mem_append, keyText,
    String.toList_ofList] at h
  rcases h with (h | h) | h
  · exact not_isControl_of_mem_keyChars h
  · exact not_isControl_of_all (by decide) h
  · exact not_isControl_of_mem_text h

theorem render_eq_lines (s : Store) :
    s.render = String.join (("[constants]" :: s.toList.map entryText).map line) := by
  rw [List.map_cons, String.join_cons, List.map_map]
  rfl

theorem pieces_render (s : Store) :
    pieces '\n' s.render = "[constants]" :: s.toList.map entryText ++ [""] := by
  rw [render_eq_lines]
  refine pieces_lines fun row hrow hmem => ?_
  rcases List.mem_cons.mp hrow with rfl | hrow
  · exact absurd hmem (by decide)
  · obtain ⟨entry, -, rfl⟩ := List.mem_map.mp hrow
    exact absurd (not_isControl_of_mem_entryText hmem) (by decide)

/-- Constants of distinct names are read back from their lines, also where no runtime publishes such names. -/
theorem readConstants_lines {pairs : List (String × Constant)} (h : (pairs.map Prod.fst).Nodup) :
    readConstants (line "[constants]" ++ String.join (pairs.map entryLine)).toList = .ok (ofList pairs) := by
  have hcomments : ∀ comment ∈ ([] : List String), ∀ c ∈ comment.toList, isCommentChar c = true := nofun
  have htext : constantsText [] pairs = line "[constants]" ++ String.join (pairs.map entryLine) := String.empty_append
  rw [← htext]
  exact readConstants_constantsText hcomments h

theorem readConstants_render (s : Store) : readConstants s.render.toList = .ok s := by
  rw [render, readConstants_lines s.names_nodup, ofList_entries]

structure Tells (entry : String × Constant) (row : String) : Prop where
  text : row = keyText entry.1 ++ " = " ++ entry.2.text
  plain : ∀ c ∈ row.toList, isControl c = false
  alone : readConstants (line "[constants]" ++ line row).toList = .ok (ofList [entry])

theorem tells_entryText (entry : String × Constant) : Tells entry (entryText entry) where
  text := rfl
  plain _ := not_isControl_of_mem_entryText
  alone := by
    have hnames : ([entry].map Prod.fst).Nodup := by simp
    have hread := readConstants_lines hnames
    rwa [List.map_singleton, String.join_cons, String.join_nil, String.append_empty] at hread

/-- A store is written as a heading and one line for each constant in its order, whatever the names are made of, and
what is written tells the store. -/
theorem lines_render (s : Store) :
    (∃ rows, pieces '\n' s.render = "[constants]" :: rows ++ [""] ∧ rows.length = s.size ∧
      List.Forall₂ Tells s.toList rows) ∧
    ∀ s' : Store, s.render = s'.render ↔ s = s' := by
  refine ⟨⟨s.toList.map entryText, s.pieces_render, List.length_map _, ?_⟩, fun s' => ⟨fun h => ?_, fun h => h ▸ rfl⟩⟩
  · rw [List.forall₂_map_right_iff]
    exact List.forall₂_same.mpr fun entry _ => tells_entryText entry
  · have hread := s.readConstants_render
    rw [h, readConstants_render] at hread
    exact (Except.ok.inj hread).symm

example : entryText ("[constants]\nx = 1 #", .bool true) = "\"[constants]\\nx = 1 #\" = true" := by
  decide

end Store

end BackendAssembly
