import BackendAssembly.StoreFile
import BackendAssembly.Proofs.ConstantReading

namespace BackendAssembly

def commentLine (comment : String) : String :=
  line ("#" ++ comment)

/-- The statement gives a name its value, and does so without dots and braces. -/
def Statement.Assigns (pair : String × Constant) (statement : Statement) : Prop :=
  ∃ keyExtent extent, statement = .assignment [] ⟨pair.1, keyExtent⟩ (.scalar extent pair.2.toScalar)

theorem toList_line (s : String) : (line s).toList = s.toList ++ ['\n'] := by
  simp [line]

theorem toList_commentLine (comment : String) :
    (commentLine comment).toList = '#' :: (comment.toList ++ ['\n']) := by
  simp [commentLine, toList_line]

theorem toList_entryLine (entry : String × Constant) :
    (Store.entryLine entry).toList =
      keyChars entry.1.toList ++ ' ' :: '=' :: ' ' :: (entry.2.text.toList ++ ['\n']) := by
  simp [Store.entryLine, toList_line, keyText]

namespace Reader

theorem statementLine_comment {cs : List Char} (hcs : ∀ c ∈ cs, isCommentChar c = true) (rest : List Char) :
    statementLine ('#' :: (cs ++ '\n' :: rest)) = .done none rest := by
  have hline : LeavesOff isCommentChar ('\n' :: rest) := leavesOff_cons (by decide)
  have hcomment : comment ('#' :: (cs ++ '\n' :: rest)) = .done () ('\n' :: rest) := by
    unfold comment
    rw [bind_done (skip_done '#' _), bind_done (chars_done hcs hline)]
    rfl
  refine commit_done ?_
  rw [bind_done hcomment]
  rfl

theorem keyPath_name (cs : List Char) {rest : List Char} (hbare : LeavesOff isBareChar rest)
    (hdot : LeavesOff (· == '.') (rest.dropWhile isBlank)) :
    keyPath (keyChars cs ++ rest) =
      .done [⟨String.ofList cs, ⟨(keyChars cs ++ rest).length, rest.length⟩⟩] (rest.dropWhile isBlank) :=
  keyPath_single (keyPart_keyChars cs hbare) hdot

theorem assignmentLine_done {key : Key} {v : Node} {text afterKey afterSign rest : List Char}
    (hkey : keyPath text = .done [key] ('=' :: afterKey)) (hblanks : blanks afterKey = .done () afterSign)
    (hvalue : value depthLimit afterSign = .done v ('\n' :: rest)) :
    assignmentLine text = .done (.assignment [] key v) rest := by
  have hlast : lastOnLine ('\n' :: rest) = .done () rest := rfl
  unfold assignmentLine
  rw [bind_done hkey]
  refine commit_done ?_
  rw [bind_done (orExpected_done (orExpected_done (skip_done '=' _))), bind_done hblanks, bind_done hvalue,
    bind_done hlast]
  rfl

theorem assignmentLine_entryLine (entry : String × Constant) (rest : List Char) :
    ∃ statement, statement.Assigns entry ∧
      assignmentLine ((Store.entryLine entry).toList ++ rest) = .done statement rest := by
  obtain ⟨name, v⟩ := entry
  have hbare : LeavesOff isBareChar (' ' :: '=' :: ' ' :: (v.text.toList ++ '\n' :: rest)) :=
    leavesOff_cons (by decide)
  have hdot : LeavesOff (· == '.') ('=' :: ' ' :: (v.text.toList ++ '\n' :: rest)) :=
    leavesOff_cons (by decide)
  have hkey := keyPath_name name.toList hbare hdot
  have hblanks : blanks (' ' :: (v.text.toList ++ '\n' :: rest)) = .done () (v.text.toList ++ '\n' :: rest) :=
    blanks_done (text_not_blank v rest)
  have hline := assignmentLine_done hkey hblanks (value_text _ v rest)
  rw [toList_entryLine]
  simp only [List.append_assoc, List.cons_append, List.nil_append]
  exact ⟨_, ⟨_, _, by rw [String.ofList_toList]⟩, hline⟩

theorem statementLine_entryLine (entry : String × Constant) (rest : List Char) :
    ∃ statement, statement.Assigns entry ∧
      statementLine ((Store.entryLine entry).toList ++ rest) = .done (some statement) rest := by
  obtain ⟨statement, hassigns, hline⟩ := assignmentLine_entryLine entry rest
  obtain ⟨c, w, hkey, hc⟩ := keyChars_head entry.1.toList
  refine ⟨statement, hassigns, ?_⟩
  rw [toList_entryLine, hkey] at hline ⊢
  unfold statementLine
  split
  next heq => rw [(List.cons.inj heq).1] at hc; exact absurd hc (by decide)
  next heq => rw [(List.cons.inj heq).1] at hc; exact absurd hc (by decide)
  next heq => rw [(List.cons.inj heq).1] at hc; exact absurd hc (by decide)
  next heq => rw [(List.cons.inj heq).1] at hc; exact absurd hc (by decide)
  next =>
    refine commit_done ?_
    rw [bind_done hline]
    rfl

theorem headingPath_done {keys : List Key} {text rest : List Char}
    (hkeys : keyPath text = .done keys (']' :: rest)) :
    headingPath "[" "]" ('[' :: text) = .done keys rest := by
  have hopen : word "[".toList ('[' :: text) = .done () text := rfl
  have hclose : word "]".toList (']' :: rest) = .done () rest := rfl
  unfold headingPath
  rw [bind_done hopen, bind_done (commit_done hkeys),
    bind_done (orExpected_done (orExpected_done (commit_done hclose)))]
  rfl

theorem headingLine_done {c : Char} {keys : List Key} {text rest : List Char} (hc : c ≠ '[')
    (hkeys : keyPath (c :: text) = .done keys (']' :: '\n' :: rest)) :
    ∃ extent, headingLine ('[' :: c :: text) = .done (.heading keys extent) rest := by
  have htrail : lineTrail ('\n' :: rest) = .done () rest := rfl
  obtain ⟨extent, hline⟩ : ∃ extent, bracketed "[" "]" ('[' :: c :: text) = .done (keys, extent) rest := by
    refine ⟨⟨('[' :: c :: text).length, ('\n' :: rest).length⟩, ?_⟩
    unfold bracketed
    rw [bind_done (located_done (headingPath_done hkeys)),
      bind_done (orExpected_done (orExpected_done (commit_done htrail)))]
    rfl
  refine ⟨extent, ?_⟩
  unfold headingLine
  split
  next heq => exact absurd (List.cons.inj heq).2 (List.cons_ne_nil c text)
  next heq => exact absurd (List.cons.inj (List.cons.inj heq).2).1 hc
  next =>
    refine inside_done ?_
    rw [bind_done hline]
    rfl

theorem statementLine_heading (rest : List Char) :
    ∃ keyExtent extent, statementLine ("[constants]\n".toList ++ rest) =
      .done (some (.heading [⟨"constants", keyExtent⟩] extent)) rest := by
  have hclose : LeavesOff isBareChar (']' :: '\n' :: rest) := leavesOff_cons (by decide)
  have hdot : LeavesOff (· == '.') (']' :: '\n' :: rest) := leavesOff_cons (by decide)
  have hbracket : 'c' ≠ '[' := by decide
  obtain ⟨extent, hline⟩ := headingLine_done hbracket (keyPath_name "constants".toList hclose hdot)
  have hread := bind_done (f := fun heading => (pure (some heading) : Reader (Option Statement))) hline
  exact ⟨_, extent, commit_done hread⟩

end Reader

section Statements

variable {text rest : List Char} (hblank : Reader.LeavesOff isBlank text)
  (hlt : rest.length < text.length)
include hblank hlt

theorem statements_silent (hline : Reader.statementLine text = .done none rest) :
    statements text = statements rest := by
  obtain ⟨c, cs, rfl⟩ := List.exists_cons_of_length_pos (Nat.zero_lt_of_lt hlt)
  rw [statements]
  simp only [hblank.dropWhile, hline, if_pos hlt]

theorem statements_said {statement : Statement} (hline : Reader.statementLine text = .done (some statement) rest) :
    statements text = (⟨text, statement⟩ :: (statements rest).1, (statements rest).2) := by
  obtain ⟨c, cs, rfl⟩ := List.exists_cons_of_length_pos (Nat.zero_lt_of_lt hlt)
  rw [statements]
  simp only [hblank.dropWhile, hline, if_pos hlt]

end Statements

theorem statements_comments {comments : List String}
    (h : ∀ comment ∈ comments, ∀ c ∈ comment.toList, isCommentChar c = true) (rest : List Char) :
    statements (comments.flatMap (fun comment => (commentLine comment).toList) ++ rest) = statements rest := by
  induction comments with
  | nil => rfl
  | cons comment comments ih =>
    have hline := Reader.statementLine_comment (h comment List.mem_cons_self)
      (comments.flatMap (fun comment => (commentLine comment).toList) ++ rest)
    rw [List.flatMap_cons, toList_commentLine]
    simp only [List.append_assoc, List.cons_append, List.nil_append]
    rw [statements_silent (Reader.leavesOff_cons (by decide)) ?_ hline]
    · exact ih fun other hother => h other (List.mem_cons_of_mem comment hother)
    · simp
      omega

/-- The lines of some pairs say these pairs, in their order. -/
theorem statements_entries (pairs : List (String × Constant)) :
    ∃ said, statements (pairs.flatMap fun pair => (Store.entryLine pair).toList) = (said, none) ∧
      List.Forall₂ (fun pair placed => placed.statement.Assigns pair) pairs said := by
  induction pairs with
  | nil => exact ⟨[], by rw [List.flatMap_nil, statements]; rfl, .nil⟩
  | cons pair pairs ih =>
    obtain ⟨said, hsaid, hforall⟩ := ih
    obtain ⟨statement, hassigns, hline⟩ :=
      Reader.statementLine_entryLine pair (pairs.flatMap fun pair => (Store.entryLine pair).toList)
    have hblank : Reader.LeavesOff isBlank
        ((Store.entryLine pair).toList ++ pairs.flatMap fun pair => (Store.entryLine pair).toList) := by
      rw [toList_entryLine, List.append_assoc]
      exact Reader.keyChars_not_blank _ _
    have hlt : (pairs.flatMap fun pair => (Store.entryLine pair).toList).length <
        ((Store.entryLine pair).toList ++ pairs.flatMap fun pair => (Store.entryLine pair).toList).length := by
      simp only [toList_entryLine, List.length_append, List.length_cons]
      omega
    rw [List.flatMap_cons, statements_said hblank hlt hline, hsaid]
    exact ⟨_, rfl, .cons hassigns hforall⟩

end BackendAssembly
