import BackendAssembly.Commands
import BackendAssembly.Proofs.NameOrder
import BackendAssembly.Proofs.StoreDocument

namespace BackendAssembly

def ValidName (name : String) : Prop :=
  name ≠ "" ∧ ∀ c ∈ name.toList, isWhiteSpace c = false

theorem isBadName_eq_false_iff {name : String} : isBadName name = false ↔ ValidName name := by
  rw [isBadName, Bool.or_eq_false_iff, String.isEmpty_eq_false_iff, List.any_eq_false, ValidName]
  simp only [Bool.not_eq_true]

theorem isBadName_iff {name : String} : isBadName name = true ↔ ¬ValidName name := by
  rw [← isBadName_eq_false_iff, Bool.not_eq_false]

namespace Store

/-- Of the store's names that are not valid, this one has the smallest bytes. -/
structure FirstInvalid (s : Store) (name : String) : Prop where
  mem : name ∈ s.names
  invalid : ¬ValidName name
  least : ∀ other ∈ s.names, ¬ValidName other → other = name ∨ utf8Bytes name < utf8Bytes other

theorem names_pairwise_lt (s : Store) : s.names.Pairwise (· < ·) :=
  List.pairwise_map.mpr s.ascending

theorem names_nodup (s : Store) : s.names.Nodup :=
  s.names_pairwise_lt.imp fun {a b} hlt => by
    rintro rfl
    exact String.lt_irrefl a hlt

theorem firstBadName?_eq_none {s : Store} (h : s.firstBadName? = none) : ∀ name ∈ s.names, ValidName name := by
  intro name hname
  rw [firstBadName?, List.find?_eq_none] at h
  exact isBadName_eq_false_iff.mp (Bool.eq_false_iff.mpr (h name hname))

/-- The names stand in the order of their bytes, so the bad one that is found first is the smallest one. -/
theorem firstInvalid_of_firstBadName? {s : Store} {name : String} (h : s.firstBadName? = some name) :
    s.FirstInvalid name := by
  obtain ⟨hbad, before, after, hnames, hbefore⟩ := List.find?_eq_some_iff_append.mp h
  have hsorted := s.names_pairwise_lt
  rw [hnames, List.pairwise_append, List.pairwise_cons] at hsorted
  refine ⟨by rw [hnames]; exact List.mem_append_right _ List.mem_cons_self, isBadName_iff.mp hbad, ?_⟩
  intro other hother hinvalid
  rw [hnames] at hother
  rcases List.mem_append.mp hother with hmem | hmem
  · have hgood := hbefore other hmem
    rw [isBadName_iff.mpr hinvalid] at hgood
    exact absurd hgood (by decide)
  · rcases List.mem_cons.mp hmem with heq | hmem
    · exact .inl heq
    · exact .inr (utf8Bytes_lt (hsorted.2.1.1 other hmem))

theorem parse_of_readConstants {text : String} {s : Store} (h : readConstants text.toList = .ok s) :
    (∀ name ∈ s.names, ValidName name) ∧ parse text = .ok s ∨
      ∃ name, s.FirstInvalid name ∧ parse text = .error (.invalidName name) := by
  cases hfirst : s.firstBadName? with
  | none => exact .inl ⟨firstBadName?_eq_none hfirst, by simp only [parse, h, hfirst]⟩
  | some name => exact .inr ⟨name, firstInvalid_of_firstBadName? hfirst, by simp only [parse, h, hfirst]⟩

/-- A store that was written is read back as it was, behind any lines of comment, unless one of its names is not
valid; then the smallest such name is told, and nothing else goes wrong. -/
theorem parse_render {comments : List String}
    (hcomments : ∀ comment ∈ comments, ∀ c ∈ comment.toList, isCommentChar c = true) (s : Store) :
    (∀ name ∈ s.names, ValidName name) ∧ parse (String.join (comments.map commentLine) ++ s.render) = .ok s ∨
      ∃ name, s.FirstInvalid name ∧
        parse (String.join (comments.map commentLine) ++ s.render) = .error (.invalidName name) := by
  have hread : readConstants (constantsText comments s.entries).toList = .ok s := by
    rw [readConstants_constantsText hcomments s.names_nodup, ofList_entries]
  exact parse_of_readConstants hread

theorem parse_render_template : parse Commands.template = .ok Commands.sampleStore := by
  let comments : List String :=
    [" Runtime constants read by `vmci target` and `vmci assemble`.",
     " Capabilities: nonzero integer means present. Flags: booleans."]
  have htemplate : Commands.template = String.join (comments.map commentLine) ++ Commands.sampleStore.render := rfl
  have hall : comments.all (fun comment => comment.toList.all isCommentChar) = true := by decide
  have hcomments : ∀ comment ∈ comments, ∀ c ∈ comment.toList, isCommentChar c = true := fun comment hcomment =>
    List.all_eq_true.mp (List.all_eq_true.mp hall comment hcomment)
  rw [htemplate]
  rcases parse_render hcomments Commands.sampleStore with ⟨-, h⟩ | ⟨name, hfirst, -⟩
  · exact h
  · have hgood : Commands.sampleStore.firstBadName? = none := by decide
    exact absurd (firstBadName?_eq_none hgood name hfirst.mem) hfirst.invalid

end Store

end BackendAssembly
