import BackendAssembly.FileTree

namespace BackendAssembly.FileTree

/-- Where the names of a path have led to: what is there, and the directories above it, the innermost first. -/
structure Place where
  above : List FileTree
  here : FileTree

/-- A name that has to be looked up, unlike the empty one and the two made of dots. -/
def IsEntryName (name : String) : Prop :=
  name ≠ "" ∧ name ≠ "." ∧ name ≠ ".."

namespace Place

inductive Enters : Place → String → Place → Prop where
  | stay {above : List FileTree} {entries : List (String × FileTree)} {name : String} (h : name = "" ∨ name = ".") :
    Enters ⟨above, directory entries⟩ name ⟨above, directory entries⟩
  | up {parent : FileTree} {above : List FileTree} {entries : List (String × FileTree)} :
    Enters ⟨parent :: above, directory entries⟩ ".." ⟨above, parent⟩
  | out {entries : List (String × FileTree)} : Enters ⟨[], directory entries⟩ ".." ⟨[], empty⟩
  | down {above : List FileTree} {entries : List (String × FileTree)} {name : String} {tree : FileTree}
    (hname : IsEntryName name) (hshort : name.utf8ByteSize ≤ maxName) (h : entries.lookup name = some tree) :
    Enters ⟨above, directory entries⟩ name ⟨directory entries :: above, tree⟩

inductive Leads : Place → List String → Place → Prop where
  | nil (p : Place) : Leads p [] p
  | cons {p q r : Place} {name : String} {names : List String} (h : p.Enters name q) (hnames : q.Leads names r) :
    Leads p (name :: names) r

/-- What comes of the names that are left where none of them leads on. -/
inductive Halts : Place → List String → FileRead → Prop where
  | contents {above : List FileTree} {bytes : ByteArray} : Halts ⟨above, file bytes⟩ [] (.contents bytes)
  | isDirectory {above : List FileTree} {entries : List (String × FileTree)} :
    Halts ⟨above, directory entries⟩ [] (.failed .isDirectory)
  | notADirectory {above : List FileTree} {bytes : ByteArray} {name : String} {rest : List String} :
    Halts ⟨above, file bytes⟩ (name :: rest) (.failed .notADirectory)
  | nameTooLong {above : List FileTree} {entries : List (String × FileTree)} {name : String} {rest : List String}
    (hname : IsEntryName name) (hlong : maxName < name.utf8ByteSize) :
    Halts ⟨above, directory entries⟩ (name :: rest) (.failed .nameTooLong)
  | absent {above : List FileTree} {entries : List (String × FileTree)} {name : String} {rest : List String}
    (hname : IsEntryName name) (hshort : name.utf8ByteSize ≤ maxName) (h : entries.lookup name = none) :
    Halts ⟨above, directory entries⟩ (name :: rest) .absent

def Yields (p : Place) (names : List String) (r : FileRead) : Prop :=
  ∃ before after q, names = before ++ after ∧ p.Leads before q ∧ q.Halts after r

theorem enters_or_halts (p : Place) (name : String) (rest : List String) :
    (∃ q, p.Enters name q) ∨ ∃ r, p.Halts (name :: rest) r := by
  obtain ⟨above, bytes | entries⟩ := p
  · exact .inr ⟨_, .notADirectory⟩
  by_cases hstay : name = "" ∨ name = "."
  · exact .inl ⟨_, .stay hstay⟩
  by_cases hup : name = ".."
  · subst hup
    cases above with
    | nil => exact .inl ⟨_, .out⟩
    | cons parent above => exact .inl ⟨_, .up⟩
  have hname : IsEntryName name := ⟨fun h => hstay (.inl h), fun h => hstay (.inr h), hup⟩
  by_cases hlong : maxName < name.utf8ByteSize
  · exact .inr ⟨_, .nameTooLong hname hlong⟩
  have hshort : name.utf8ByteSize ≤ maxName := Nat.le_of_not_lt hlong
  cases h : entries.lookup name with
  | none => exact .inr ⟨_, .absent hname hshort h⟩
  | some tree => exact .inl ⟨_, .down hname hshort h⟩

theorem exists_yields (p : Place) (names : List String) : ∃ r, p.Yields names r := by
  induction names generalizing p with
  | nil =>
    obtain ⟨above, bytes | entries⟩ := p
    · exact ⟨_, [], [], _, rfl, .nil _, .contents⟩
    · exact ⟨_, [], [], _, rfl, .nil _, .isDirectory⟩
  | cons name rest ih =>
    rcases p.enters_or_halts name rest with ⟨q, hq⟩ | ⟨r, hr⟩
    · obtain ⟨r, before, after, end_, rfl, hleads, hhalts⟩ := ih q
      exact ⟨r, name :: before, after, end_, rfl, .cons hq hleads, hhalts⟩
    · exact ⟨r, [], name :: rest, p, rfl, .nil p, hr⟩

end Place

theorem walk_entry {above : List FileTree} {entries : List (String × FileTree)} {name : String}
    (hname : IsEntryName name) (rest : List String) : walk above (directory entries) (name :: rest) =
      if maxName < name.utf8ByteSize then .failed .nameTooLong
      else
        match entries.lookup name with
        | none => .absent
        | some tree => walk (directory entries :: above) tree rest := by
  have hstay : ¬(name = "" ∨ name = ".") := not_or.mpr ⟨hname.1, hname.2.1⟩
  exact (if_neg hstay).trans (if_neg hname.2.2)

section Walk

variable {p q : Place} {name : String} {names before after : List String} {r : FileRead}

theorem walk_enters (h : p.Enters name q) (rest : List String) :
    walk p.above p.here (name :: rest) = walk q.above q.here rest := by
  cases h with
  | stay h => exact if_pos h
  | up => rfl
  | out => rfl
  | down hname hshort h => rw [walk_entry hname, if_neg (Nat.not_lt.mpr hshort), h]

theorem walk_leads (h : p.Leads before q) (after : List String) :
    walk p.above p.here (before ++ after) = walk q.above q.here after := by
  induction h with
  | nil => rfl
  | cons h _ ih => rw [List.cons_append, walk_enters h, ih]

theorem walk_halts (h : p.Halts names r) : walk p.above p.here names = r := by
  cases h with
  | contents | isDirectory | notADirectory => rfl
  | nameTooLong hname hlong => rw [walk_entry hname, if_pos hlong]
  | absent hname hshort h => rw [walk_entry hname, if_neg (Nat.not_lt.mpr hshort), h]

theorem walk_yields (h : p.Yields names r) : walk p.above p.here names = r := by
  obtain ⟨before, after, q, rfl, hleads, hhalts⟩ := h
  rw [walk_leads hleads, walk_halts hhalts]

theorem yields_walk (p : Place) (names : List String) : p.Yields names (walk p.above p.here names) := by
  obtain ⟨r, hr⟩ := p.exists_yields names
  rwa [walk_yields hr]

end Walk

def Followable (path : String) : Prop :=
  path ≠ "" ∧ '\x00' ∉ path.toList ∧ path.utf8ByteSize ≤ maxPath

variable (tree : FileTree) (path : String)

/-- Where a path starts. Nothing is known of the root, which counts as empty. -/
def start : Place :=
  ⟨[], if path.toList.head? = some '/' then empty else tree⟩

def Holds (bytes : ByteArray) : Prop :=
  Followable path ∧ ∃ above, (tree.start path).Leads (pieces '/' path) ⟨above, file bytes⟩

/-- There is nothing at the path: it is the empty one, or it leads to a directory that has no entry of its next name. -/
def Lacks : Prop :=
  path = "" ∨ Followable path ∧ ∃ before name after above entries, pieces '/' path = before ++ name :: after ∧
    (tree.start path).Leads before ⟨above, directory entries⟩ ∧ IsEntryName name ∧ name.utf8ByteSize ≤ maxName ∧
      entries.lookup name = none

/-- The path cannot be followed to its end, or it leads to something that is no file. -/
inductive Refuses : ReadFailure → Prop where
  | nulInName (h : '\x00' ∈ path.toList) : Refuses .nulInName
  | pathTooLong (hnul : '\x00' ∉ path.toList) (hlong : maxPath < path.utf8ByteSize) : Refuses .nameTooLong
  | nameTooLong {before after : List String} {name : String} {above : List FileTree}
    {entries : List (String × FileTree)} (h : Followable path) (hnames : pieces '/' path = before ++ name :: after)
    (hleads : (tree.start path).Leads before ⟨above, directory entries⟩) (hname : IsEntryName name)
    (hlong : maxName < name.utf8ByteSize) : Refuses .nameTooLong
  | notADirectory {before after : List String} {name : String} {above : List FileTree} {bytes : ByteArray}
    (h : Followable path) (hnames : pieces '/' path = before ++ name :: after)
    (hleads : (tree.start path).Leads before ⟨above, file bytes⟩) : Refuses .notADirectory
  | isDirectory {above : List FileTree} {entries : List (String × FileTree)} (h : Followable path)
    (hleads : (tree.start path).Leads (pieces '/' path) ⟨above, directory entries⟩) : Refuses .isDirectory

variable {tree path}

theorem pieces_of_slash {cs : List Char} (h : path.toList = '/' :: cs) :
    pieces '/' path = "" :: (cs.splitOn '/').map String.ofList := by
  rw [pieces, h, List.splitOn_cons_eq_if_modifyHead, if_pos (beq_self_eq_true '/')]
  rfl

theorem pieces_of_not_slash {c : Char} {cs : List Char} (h : path.toList = c :: cs) (hc : c ≠ '/') :
    ∃ name names, name ≠ "" ∧ pieces '/' path = name :: names := by
  obtain ⟨first, rest, hsplit⟩ := List.exists_cons_of_ne_nil (List.splitOn_ne_nil '/' cs)
  refine ⟨String.ofList (c :: first), rest.map String.ofList, ?_, ?_⟩
  · intro hempty
    have hnil : c :: first = [] := by rw [← String.toList_ofList (l := c :: first), hempty]; rfl
    cases hnil
  · rw [pieces, h, List.splitOn_cons_eq_if_modifyHead, if_neg (by simpa using hc), hsplit]
    rfl

theorem read_eq_walk (h : Followable path) :
    tree.read path = walk (tree.start path).above (tree.start path).here (pieces '/' path) := by
  rw [read, if_neg h.1, if_neg h.2.1, if_neg (Nat.not_lt.mpr h.2.2), start]
  cases hchars : path.toList with
  | nil => exact absurd (String.toList_eq_nil_iff.mp hchars) h.1
  | cons c cs =>
    by_cases hc : c = '/'
    · subst hc
      rw [pieces_of_slash hchars]
      rfl
    · obtain ⟨name, names, hname, hpieces⟩ := pieces_of_not_slash hchars hc
      have hhead : ¬(c :: cs).head? = some '/' := by simpa using hc
      rw [hpieces, if_neg hhead]
      split
      next heq => exact absurd (List.cons.inj heq).1 hname
      next => rfl

theorem read_cases (tree : FileTree) (path : String) :
    path = "" ∧ tree.read path = .absent ∨
      '\x00' ∈ path.toList ∧ tree.read path = .failed .nulInName ∨
      ('\x00' ∉ path.toList ∧ maxPath < path.utf8ByteSize) ∧ tree.read path = .failed .nameTooLong ∨
      Followable path ∧ (tree.start path).Yields (pieces '/' path) (tree.read path) := by
  by_cases hempty : path = ""
  · exact .inl ⟨hempty, if_pos hempty⟩
  by_cases hnul : '\x00' ∈ path.toList
  · exact .inr (.inl ⟨hnul, by rw [read, if_neg hempty, if_pos hnul]⟩)
  by_cases hlong : maxPath < path.utf8ByteSize
  · exact .inr (.inr (.inl ⟨⟨hnul, hlong⟩, by rw [read, if_neg hempty, if_neg hnul, if_pos hlong]⟩))
  have hpath : Followable path := ⟨hempty, hnul, Nat.le_of_not_lt hlong⟩
  exact .inr (.inr (.inr ⟨hpath, read_eq_walk hpath ▸ yields_walk _ _⟩))

theorem read_of_yields {r : FileRead} (h : Followable path) (hr : (tree.start path).Yields (pieces '/' path) r) :
    tree.read path = r :=
  (read_eq_walk h).trans (walk_yields hr)

theorem read_eq_contents_iff {bytes : ByteArray} : tree.read path = .contents bytes ↔ tree.Holds path bytes := by
  constructor
  · intro h
    rcases tree.read_cases path with ⟨-, hr⟩ | ⟨-, hr⟩ | ⟨-, hr⟩ | ⟨hpath, hr⟩
    · cases hr.symm.trans h
    · cases hr.symm.trans h
    · cases hr.symm.trans h
    · obtain ⟨before, after, q, hnames, hleads, hhalts⟩ := h ▸ hr
      cases hhalts with
      | contents => exact ⟨hpath, _, by rwa [hnames, List.append_nil]⟩
  · rintro ⟨hpath, above, hleads⟩
    exact read_of_yields hpath ⟨_, [], _, (List.append_nil _).symm, hleads, .contents⟩

theorem read_eq_absent_iff : tree.read path = .absent ↔ tree.Lacks path := by
  constructor
  · intro h
    rcases tree.read_cases path with ⟨hempty, -⟩ | ⟨-, hr⟩ | ⟨-, hr⟩ | ⟨hpath, hr⟩
    · exact .inl hempty
    · cases hr.symm.trans h
    · cases hr.symm.trans h
    · obtain ⟨before, after, q, hnames, hleads, hhalts⟩ := h ▸ hr
      cases hhalts with
      | absent hname hshort hlookup =>
        exact .inr ⟨hpath, before, _, _, _, _, hnames, hleads, hname, hshort, hlookup⟩
  · rintro (rfl | ⟨hpath, before, name, after, above, entries, hnames, hleads, hname, hshort, hlookup⟩)
    · rfl
    · exact read_of_yields hpath ⟨before, name :: after, _, hnames, hleads, .absent hname hshort hlookup⟩

theorem read_eq_failed_iff {why : ReadFailure} : tree.read path = .failed why ↔ tree.Refuses path why := by
  constructor
  · intro h
    rcases tree.read_cases path with ⟨-, hr⟩ | ⟨hnul, hr⟩ | ⟨⟨hnul, hlong⟩, hr⟩ | ⟨hpath, hr⟩
    · cases hr.symm.trans h
    · cases hr.symm.trans h
      exact .nulInName hnul
    · cases hr.symm.trans h
      exact .pathTooLong hnul hlong
    · obtain ⟨before, after, q, hnames, hleads, hhalts⟩ := h ▸ hr
      cases hhalts with
      | isDirectory => exact .isDirectory hpath (by rwa [hnames, List.append_nil])
      | notADirectory => exact .notADirectory hpath hnames hleads
      | nameTooLong hname hlong => exact .nameTooLong hpath hnames hleads hname hlong
  · intro h
    cases h with
    | nulInName hnul =>
      have hempty : path ≠ "" := by
        rintro rfl
        cases hnul
      rw [read, if_neg hempty, if_pos hnul]
    | pathTooLong hnul hlong =>
      have hempty : path ≠ "" := by
        rintro rfl
        cases hlong
      rw [read, if_neg hempty, if_neg hnul, if_pos hlong]
    | nameTooLong hpath hnames hleads hname hlong =>
      exact read_of_yields hpath ⟨_, _, _, hnames, hleads, .nameTooLong hname hlong⟩
    | notADirectory hpath hnames hleads => exact read_of_yields hpath ⟨_, _, _, hnames, hleads, .notADirectory⟩
    | isDirectory hpath hleads =>
      exact read_of_yields hpath ⟨_, [], _, (List.append_nil _).symm, hleads, .isDirectory⟩

end BackendAssembly.FileTree
