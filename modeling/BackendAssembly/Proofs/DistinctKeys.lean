import BackendAssembly.Outline

namespace BackendAssembly

inductive Node.Distinct : Node → Prop where
  | scalar {extent : Extent} {value : Scalar} : Distinct (.scalar extent value)
  | array {extent : Extent} {elements : List Node} (h : ∀ node ∈ elements, Distinct node) :
    Distinct (.array extent elements)
  | table {t : Table} (hnames : (t.entries.map fun entry => entry.1.name).Nodup)
    (h : ∀ entry ∈ t.entries, Distinct entry.2) : Distinct (.table t)
  | tables {elements : List Table}
    (hnames : ∀ t ∈ elements, (t.entries.map fun entry => entry.1.name).Nodup)
    (h : ∀ t ∈ elements, ∀ entry ∈ t.entries, Distinct entry.2) : Distinct (.tables elements)

structure Table.Distinct (t : Table) : Prop where
  names : (t.entries.map fun entry => entry.1.name).Nodup
  nodes : ∀ entry ∈ t.entries, entry.2.Distinct

theorem Node.distinct_table {t : Table} : (Node.table t).Distinct ↔ Table.Distinct t := by
  constructor
  · rintro (_ | _ | ⟨hnames, h⟩)
    exact ⟨hnames, h⟩
  · exact fun h => .table h.names h.nodes

theorem Node.distinct_tables {elements : List Table} :
    (Node.tables elements).Distinct ↔ ∀ t ∈ elements, Table.Distinct t := by
  constructor
  · rintro (_ | _ | _ | ⟨hnames, h⟩)
    exact fun t ht => ⟨hnames t ht, h t ht⟩
  · exact fun h => .tables (fun t ht => (h t ht).names) fun t ht => (h t ht).nodes

namespace Table

theorem distinct_nil {origin : Origin} {extent : Option Extent} :
    Distinct { origin, extent } :=
  ⟨List.nodup_nil, nofun⟩

variable {t : Table} {key : Key} {node : Node} {name : String}

theorem Distinct.find? (ht : Distinct t) (h : t.find? name = some node) : node.Distinct := by
  obtain ⟨entry, hentry, -, rfl⟩ := TableOf.mem_of_find? h
  exact ht.nodes entry hentry

theorem Distinct.find?_eq_some_iff (ht : Distinct t) :
    t.find? name = some node ↔ ∃ entry ∈ t.entries, entry.1.name = name ∧ entry.2 = node := by
  refine ⟨TableOf.mem_of_find?, ?_⟩
  rintro ⟨entry, hentry, rfl, rfl⟩
  obtain ⟨before, after, hsplit⟩ := List.append_of_mem hentry
  have hnames := ht.names
  rw [hsplit, List.map_append, List.map_cons, List.nodup_append] at hnames
  refine Option.map_eq_some_iff.mpr ⟨entry, List.find?_eq_some_iff_append.mpr ⟨beq_self_eq_true _, before, after,
    hsplit, fun other hother => ?_⟩, rfl⟩
  have hne := hnames.2.2 other.1.name (List.mem_map.mpr ⟨other, hother, rfl⟩) entry.1.name List.mem_cons_self
  rw [beq_eq_false_iff_ne.mpr hne]
  rfl

theorem Distinct.push (ht : Distinct t) (hnew : t.find? key.name = none) (hnode : node.Distinct) :
    Distinct (t.push key node) := by
  constructor
  · change ((t.entries ++ [(key, node)]).map fun entry => entry.1.name).Nodup
    rw [List.map_append, List.nodup_append]
    refine ⟨ht.names, List.pairwise_singleton _ _, fun a ha b hb => ?_⟩
    rw [List.map_singleton, List.mem_singleton] at hb
    rintro rfl
    exact TableOf.find?_eq_none_iff.mp hnew (hb ▸ ha)
  · intro entry hentry
    rcases List.mem_append.mp hentry with hentry | hentry
    · exact ht.nodes entry hentry
    · cases List.mem_singleton.mp hentry
      exact hnode

theorem Distinct.set (ht : Distinct t) (hnode : node.Distinct) : Distinct (t.set name node) := by
  constructor
  · rw [TableOf.map_name_set]
    exact ht.names
  · intro entry hentry
    obtain ⟨old, hold, rfl⟩ := List.mem_map.mp hentry
    split
    · exact hnode
    · exact ht.nodes old hold

theorem Distinct.erase (ht : Distinct t) : Distinct (t.erase name) :=
  ⟨ht.names.sublist (List.filter_sublist.map _), fun entry hentry => ht.nodes entry (List.mem_filter.mp hentry).1⟩

end Table

namespace Except

variable {ε ε' α β : Type}

theorem bind_eq_ok {x : Except ε α} {f : α → Except ε β} {b : β} :
    (x >>= f) = .ok b ↔ ∃ a, x = .ok a ∧ f a = .ok b := by
  cases x with
  | error e => exact ⟨nofun, nofun⟩
  | ok a => exact ⟨fun h => ⟨a, rfl, h⟩, fun ⟨_, ha, h⟩ => by cases ha; exact h⟩

theorem map_eq_ok {x : Except ε α} {f : α → β} {b : β} : x.map f = .ok b ↔ ∃ a, x = .ok a ∧ f a = b := by
  cases x with
  | error e => exact ⟨nofun, nofun⟩
  | ok a => exact ⟨fun h => ⟨a, rfl, Except.ok.inj h⟩, fun ⟨_, ha, h⟩ => by cases ha; exact congrArg Except.ok h⟩

theorem mapError_eq_ok {x : Except ε α} {f : ε → ε'} {a : α} : x.mapError f = .ok a ↔ x = .ok a := by
  cases x with
  | error e => exact ⟨nofun, nofun⟩
  | ok a' => exact ⟨fun h => congrArg Except.ok (Except.ok.inj h), fun h => congrArg Except.ok (Except.ok.inj h)⟩

end Except

namespace Table

/-- What is done at the end of a path keeps tables distinct if it keeps the one there distinct. -/
theorem visit_distinct {α : Type} {P : α → Prop} {passage : Passage} {act : Table → Except Objection (α × Table)}
    (hact : ∀ t a t', Distinct t → act t = .ok (a, t') → P a ∧ Distinct t') {path : List Key} {gone : List String}
    {t t' : Table} {a : α} (ht : Distinct t) (h : t.visit passage act gone path = .ok (a, t')) :
    P a ∧ Distinct t' := by
  -- A table that is missing on the way starts out empty, and of a list of tables only the last one changes.
  induction path generalizing gone t t' a with
  | nil => exact hact t a t' ht h
  | cons key keys ih =>
    rw [visit] at h
    split at h
    next hnone =>
      obtain ⟨⟨b, child⟩, hchild, h⟩ := Except.bind_eq_ok.mp h
      cases h
      obtain ⟨hb, hdistinct⟩ := ih distinct_nil hchild
      exact ⟨hb, ht.push hnone (Node.distinct_table.mpr hdistinct)⟩
    next child hsome =>
      split at h
      · cases h
      · obtain ⟨⟨b, child'⟩, hchild, h⟩ := Except.bind_eq_ok.mp h
        cases h
        obtain ⟨hb, hdistinct⟩ := ih (Node.distinct_table.mp (ht.find? hsome)) hchild
        exact ⟨hb, ht.set (Node.distinct_table.mpr hdistinct)⟩
    next element elements hsome =>
      obtain ⟨⟨b, last⟩, hlast, h⟩ := Except.bind_eq_ok.mp h
      cases h
      have hall := Node.distinct_tables.mp (ht.find? hsome)
      obtain ⟨hb, hdistinct⟩ := ih (hall _ (List.getLast_mem _)) hlast
      refine ⟨hb, ht.set (Node.distinct_tables.mpr fun u hu => ?_)⟩
      rcases List.mem_append.mp hu with hu | hu
      · exact hall u (List.dropLast_sublist _ |>.subset hu)
      · cases List.mem_singleton.mp hu
        exact hdistinct
    next => cases h

theorem enter_distinct {passage : Passage} {sectionPath : Option (List String)} {path : List Key} {key : Key}
    {node : Node} {t t' : Table} (ht : Distinct t) (hnode : node.Distinct)
    (h : t.enter passage sectionPath path key node = .ok t') : Distinct t' := by
  obtain ⟨⟨_, _⟩, hvisit, h⟩ := Except.bind_eq_ok.mp h
  cases h
  refine (visit_distinct (P := fun _ => True) (fun u a u' hu hadd => ⟨trivial, ?_⟩) ht hvisit).2
  split at hadd
  · cases hadd
  · split at hadd
    next hnone =>
      cases hadd
      exact hu.push hnone hnode
    next => cases hadd

theorem foldlM_enter_distinct {pairs : List (List Key × Key × Node)} {t t' : Table} (ht : Distinct t)
    (hpairs : ∀ pair ∈ pairs, pair.2.2.Distinct)
    (h : pairs.foldlM (fun t (path, key, value) => t.enter .braces none path key value) t = .ok t') : Distinct t' := by
  induction pairs generalizing t with
  | nil =>
    cases h
    exact ht
  | cons pair pairs ih =>
    obtain ⟨path, key, value⟩ := pair
    rw [List.foldlM_cons] at h
    obtain ⟨u, henter, h⟩ := Except.bind_eq_ok.mp h
    have hu : Distinct u := enter_distinct ht (hpairs (path, key, value) List.mem_cons_self) henter
    exact ih hu (fun pair hpair => hpairs pair (List.mem_cons_of_mem _ hpair)) h

theorem ofPairs_distinct {pairs : List (List Key × Key × Node)} {t : Table}
    (hpairs : ∀ pair ∈ pairs, pair.2.2.Distinct) (h : ofPairs pairs = .ok t) : Distinct t :=
  foldlM_enter_distinct distinct_nil hpairs h

end Table

namespace Reader

variable {α β : Type} {P : α → Prop} {Q : β → Prop}

/-- All that is read in this form has a property. -/
def Gives (p : Reader α) (P : α → Prop) : Prop :=
  ∀ text a rest, p text = .done a rest → P a

theorem gives_any (p : Reader α) : p.Gives fun _ => True := fun _ _ _ _ => trivial

theorem gives_pure {a : α} (h : P a) : (pure a : Reader α).Gives P := by
  intro text b rest hread
  cases hread
  exact h

theorem gives_bind {p : Reader α} {f : α → Reader β} (hp : p.Gives P) (hf : ∀ a, P a → (f a).Gives Q) :
    (p >>= f).Gives Q := by
  intro text b rest h
  rw [bind_apply] at h
  split at h
  next a rest' hread => exact hf a (hp _ a rest' hread) _ b rest h
  next => cases h
  next => cases h

theorem gives_commit {p : Reader α} (hp : p.Gives P) : p.commit.Gives P := by
  intro text a rest h
  unfold commit at h
  split at h
  next => cases h
  next => exact hp text a rest h

theorem done_of_mapFault {f : Fault → Fault} {reading : Reading α} {a : α} {rest : List Char}
    (h : reading.mapFault f = .done a rest) : reading = .done a rest := by
  cases reading with
  | done a' rest' => exact h
  | miss fault => cases h
  | stop fault => cases h

theorem gives_inside {p : Reader α} (hp : p.Gives P) (kind : String) : (p.inside kind).Gives P :=
  fun text a rest h => hp text a rest (done_of_mapFault h)

theorem gives_located {p : Reader α} (hp : p.Gives P) : (located p).Gives fun r => P r.1 := by
  intro text r rest h
  unfold located at h
  split at h
  next a rest' hread =>
    cases h
    exact hp text a rest hread
  next => cases h
  next => cases h

theorem gives_or {p q : Reader α} (hp : p.Gives P) (hq : q.Gives P) : (p.or q).Gives P := by
  intro text a rest h
  unfold Reader.or at h
  split at h
  next => exact hq text a rest h
  next => exact hp text a rest h

theorem gives_check {p : Reader α} {f : α → Except Objection β} (hp : p.Gives P)
    (hf : ∀ a b, P a → f a = .ok b → Q b) : (check p f).Gives Q := by
  intro text b rest h
  unfold check at h
  split at h
  next a rest' hread =>
    split at h
    next b' hok =>
      cases h
      exact hf a b (hp text a rest hread) hok
    next => cases h
  next => cases h
  next => cases h

theorem gives_many {p : Reader α} (hp : p.Gives P) : Gives (many p) fun as => ∀ a ∈ as, P a := by
  intro text
  fun_induction many p text with
  | case1 text a rest hread hlt ih =>
    intro as rest' h
    cases hmore : many p rest with
    | done more rest' =>
      rw [hmore] at h
      cases h
      exact List.forall_mem_cons.mpr ⟨hp text a rest hread, ih more _ hmore⟩
    | miss fault =>
      rw [hmore] at h
      cases h
    | stop fault =>
      rw [hmore] at h
      cases h
  | case2 text a rest hread hle =>
    intro as rest' h
    cases h
    exact nofun
  | case3 text fault hread =>
    intro as rest' h
    cases h
    exact nofun
  | case4 text fault hread =>
    intro as rest' h
    cases h

theorem gives_separated {separator : Reader Unit} {p : Reader α} (hp : p.Gives P) :
    (separated separator p).Gives fun as => ∀ a ∈ as, P a := by
  refine gives_or ?_ (gives_pure nofun)
  refine gives_bind hp fun first hfirst => ?_
  refine gives_bind (gives_many (gives_bind (gives_any separator) fun _ _ => hp)) fun others hothers => ?_
  exact gives_pure (List.forall_mem_cons.mpr ⟨hfirst, hothers⟩)

theorem arrayBody_distinct {element : Reader Node} (h : element.Gives Node.Distinct) :
    (arrayBody element).Gives fun elements => ∀ node ∈ elements, node.Distinct := by
  have helement : (do gap; let e ← element; gap; return e : Reader Node).Gives Node.Distinct := by
    refine gives_bind (gives_any gap) fun _ _ => ?_
    refine gives_bind h fun node hnode => ?_
    exact gives_bind (gives_any gap) fun _ _ => gives_pure hnode
  unfold arrayBody
  refine gives_bind (gives_any _) fun closing _ => ?_
  split
  · exact gives_bind (gives_any _) fun _ _ => gives_pure nofun
  · refine gives_bind (gives_separated helement) fun elements helements => ?_
    have hend : (do gap; ((skip ']').inside "array").orExpected "`]`"; return elements : Reader (List Node)).Gives
        fun elements => ∀ node ∈ elements, node.Distinct :=
      gives_bind (gives_any gap) fun _ _ => gives_bind (gives_any _) fun _ _ => gives_pure helements
    change Gives (if (!elements.isEmpty) = true then _ else _) _
    split
    · exact gives_bind (gives_any _) fun _ _ => hend
    · exact hend

theorem bracePair_distinct {value : Reader Node} (h : value.Gives Node.Distinct) :
    (bracePair value).Gives fun pair => pair.2.2.Distinct := by
  refine gives_bind (gives_any _) fun keys _ => gives_commit ?_
  refine gives_bind (gives_any _) fun _ _ => ?_
  refine gives_bind (gives_any blanks) fun _ _ => ?_
  refine gives_bind h fun node hnode => ?_
  exact gives_bind (gives_any blanks) fun _ _ => gives_pure hnode

theorem braceBody_distinct {value : Reader Node} (h : value.Gives Node.Distinct) :
    (braceBody value).Gives Table.Distinct := by
  have hpairs : (do let pairs ← separated (skip ',') (bracePair value); blanks; return pairs :
      Reader (List (List Key × Key × Node))).Gives fun pairs => ∀ pair ∈ pairs, pair.2.2.Distinct := by
    refine gives_bind (gives_separated (bracePair_distinct h)) fun pairs hpairs => ?_
    exact gives_bind (gives_any blanks) fun _ _ => gives_pure hpairs
  refine gives_bind (gives_check hpairs fun _ _ hdistinct hok => Table.ofPairs_distinct hdistinct hok) fun t ht => ?_
  exact gives_bind (gives_any _) fun _ _ => gives_pure ht

theorem scalarNode_distinct : scalarNode.Gives Node.Distinct :=
  gives_bind (gives_any _) fun _ _ => gives_pure .scalar

theorem arrayNode_distinct {element : Reader Node} (h : element.Gives Node.Distinct) :
    (arrayNode element).Gives Node.Distinct := by
  have hbody : (do skip '['; (arrayBody element).commit : Reader (List Node)).Gives
      fun elements => ∀ node ∈ elements, node.Distinct :=
    gives_bind (gives_any _) fun _ _ => gives_commit (arrayBody_distinct h)
  exact gives_bind (gives_located hbody) fun _ helements => gives_pure (.array helements)

theorem braceNode_distinct {value : Reader Node} (h : value.Gives Node.Distinct) :
    (braceNode value).Gives Node.Distinct := by
  have hbody : (do skip '{'; (braceBody value).commit : Reader Table).Gives Table.Distinct :=
    gives_bind (gives_any _) fun _ _ => gives_commit (braceBody_distinct h)
  exact gives_bind (gives_located hbody) fun _ ht => gives_pure (.table ht.names ht.nodes)

theorem value_distinct (levels : Nat) : (value levels).Gives Node.Distinct := by
  induction levels with
  | zero =>
    intro text node rest h
    unfold value at h
    split at h
    · cases h
    · cases h
    · exact scalarNode_distinct text node rest h
  | succ levels ih =>
    intro text node rest h
    unfold value at h
    split at h
    · exact arrayNode_distinct ih _ node rest h
    · exact braceNode_distinct ih _ node rest h
    · exact scalarNode_distinct text node rest h

end Reader

def Statement.Distinct : Statement → Prop
  | heading _ _ | listHeading _ _ => True
  | assignment _ _ node => node.Distinct

namespace Reader

theorem headingLine_distinct : headingLine.Gives Statement.Distinct := by
  intro text statement rest h
  unfold headingLine at h
  split at h
  · cases h
  · exact gives_inside (gives_bind (gives_any _) fun _ _ => gives_pure trivial) _ _ statement rest h
  · exact gives_inside (gives_bind (gives_any _) fun _ _ => gives_pure trivial) _ _ statement rest h

theorem assignmentLine_distinct : assignmentLine.Gives Statement.Distinct := by
  refine gives_bind (gives_any _) fun keys _ => gives_commit ?_
  refine gives_bind (gives_any _) fun _ _ => ?_
  refine gives_bind (gives_any blanks) fun _ _ => ?_
  refine gives_bind (value_distinct depthLimit) fun node hnode => ?_
  exact gives_bind (gives_any lastOnLine) fun _ _ => gives_pure hnode

theorem statementLine_distinct : statementLine.Gives fun said => ∀ statement ∈ said, statement.Distinct := by
  have hsome : ∀ {p : Reader Statement}, p.Gives Statement.Distinct →
      (do return some (← p) : Reader (Option Statement)).Gives fun said => ∀ statement ∈ said, statement.Distinct :=
    fun hp => gives_bind hp fun statement h => gives_pure fun _ hmem => Option.mem_some.mp hmem ▸ h
  have hnone : ∀ p : Reader Unit,
      (do p; return none : Reader (Option Statement)).Gives fun said => ∀ statement ∈ said, statement.Distinct :=
    fun p => gives_bind (gives_any p) fun _ _ => gives_pure nofun
  intro text said rest h
  unfold statementLine at h
  split at h
  · exact gives_commit (gives_bind (gives_any comment) fun _ _ => hnone lineEnd) _ said rest h
  · exact gives_commit (hsome headingLine_distinct) _ said rest h
  · exact hnone newline _ said rest h
  · exact hnone newline _ said rest h
  · exact gives_commit (hsome assignmentLine_distinct) _ said rest h

end Reader

theorem statements_distinct (text : List Char) : ∀ placed ∈ (statements text).1, placed.statement.Distinct := by
  fun_induction statements text with
  | case1 | case2 | case3 | case6 => exact nofun
  | case4 text text' c cs hhead rest hlt more fault hmore hline ih =>
    rw [hmore] at ih
    exact ih
  | case5 text text' c cs hhead rest hlt more fault hmore statement hline ih =>
    rw [hmore] at ih
    exact List.forall_mem_cons.mpr ⟨Reader.statementLine_distinct _ _ _ hline statement rfl, ih⟩

namespace Outline

structure Distinct (o : Outline) : Prop where
  closed : Table.Distinct o.closed
  current : Table.Distinct o.current

variable {o o' : Outline} {path : List Key} {extent : Extent}

theorem close_distinct {t : Table} (ho : o.Distinct) (h : o.close = .ok t) : Table.Distinct t := by
  unfold close at h
  split at h
  next =>
    cases h
    exact ho.current
  next key _ =>
    obtain ⟨⟨_, t'⟩, hvisit, h⟩ := Except.map_eq_ok.mp h
    cases h
    refine (Table.visit_distinct (P := fun _ => True) (fun parent a t hparent hplace => ⟨trivial, ?_⟩)
      ho.closed hvisit).2
    split at hplace
    next hnone _ =>
      cases hplace
      exact hparent.push hnone (Node.distinct_tables.mpr (List.forall_mem_singleton.mpr ho.current))
    next hnone _ =>
      cases hplace
      exact hparent.push hnone (Node.distinct_table.mpr ho.current)
    next elements hsome _ =>
      cases hplace
      refine hparent.set (Node.distinct_tables.mpr (List.forall_mem_append.mpr ⟨?_, ?_⟩))
      · exact Node.distinct_tables.mp (hparent.find? hsome)
      · exact List.forall_mem_singleton.mpr ho.current
    next => cases hplace

theorem heading_distinct (ho : o.Distinct) (h : o.heading path extent = .ok o') : o'.Distinct := by
  obtain ⟨closed, hclose, h⟩ := Except.bind_eq_ok.mp h
  obtain ⟨⟨entries, closed'⟩, hvisit, h⟩ := Except.bind_eq_ok.mp h
  cases h
  have hentries := Table.visit_distinct (P := fun entries : List (Key × Node) =>
    Table.Distinct { origin := .heading, extent := some extent, entries }) (fun parent found t hparent htake => ?_)
    (close_distinct ho hclose) hvisit
  · exact ⟨hentries.2, hentries.1⟩
  · split at htake
    next =>
      cases htake
      exact ⟨Table.distinct_nil, hparent⟩
    next child hsome =>
      split at htake
      · cases htake
        have hchild := Node.distinct_table.mp (hparent.find? hsome)
        exact ⟨⟨hchild.names, hchild.nodes⟩, hparent.erase⟩
      · cases htake
    next => cases htake

theorem listHeading_distinct (ho : o.Distinct) (h : o.listHeading path extent = .ok o') : o'.Distinct := by
  obtain ⟨closed, hclose, h⟩ := Except.bind_eq_ok.mp h
  obtain ⟨⟨_, closed'⟩, hvisit, h⟩ := Except.bind_eq_ok.mp h
  cases h
  refine ⟨(Table.visit_distinct (P := fun _ => True) (fun parent a t hparent hlook => ⟨trivial, ?_⟩)
    (close_distinct ho hclose) hvisit).2, Table.distinct_nil⟩
  split at hlook
  · cases hlook
    exact hparent
  · cases hlook
    exact hparent
  · cases hlook

theorem assign_distinct {key : Key} {node : Node} (ho : o.Distinct) (hnode : node.Distinct)
    (h : o.assign path key node = .ok o') : o'.Distinct := by
  obtain ⟨current, henter, h⟩ := Except.bind_eq_ok.mp h
  cases h
  have hopen : Table.Distinct { o.current with extent := o.current.extent.map fun extent =>
      { extent with stop := (node.extent?.map Extent.stop).getD extent.stop } } :=
    ⟨ho.current.names, ho.current.nodes⟩
  exact ⟨ho.closed, Table.enter_distinct hopen hnode henter⟩

theorem take_distinct {statement : Statement} (ho : o.Distinct) (hstatement : statement.Distinct)
    (h : o.take statement = .ok o') : o'.Distinct := by
  cases statement with
  | heading path extent => exact heading_distinct ho h
  | listHeading path extent => exact listHeading_distinct ho h
  | assignment path key node => exact assign_distinct ho hstatement h

theorem takeAll_distinct {said : List Placed} (ho : o.Distinct) (hsaid : ∀ placed ∈ said, placed.statement.Distinct)
    (h : o.takeAll said = .ok o') : o'.Distinct := by
  induction said generalizing o with
  | nil =>
    cases h
    exact ho
  | cons placed said ih =>
    rw [takeAll] at h
    split at h
    next o₁ htake =>
      have ho₁ := take_distinct ho (hsaid placed List.mem_cons_self) htake
      exact ih ho₁ (fun other hother => hsaid other (List.mem_cons_of_mem placed hother)) h
    next => cases h

end Outline

/-- In a document that is read no table has two entries of one name. -/
theorem readDocument_distinct {text : List Char} {doc : Table} (h : readDocument text = .ok doc) :
    Table.Distinct doc := by
  unfold readDocument at h
  have hsaid := statements_distinct (skipMark text)
  generalize statements (skipMark text) = read at h hsaid
  obtain ⟨said, fault⟩ := read
  have hstart : Outline.Distinct {} := ⟨Table.distinct_nil, Table.distinct_nil⟩
  dsimp only at h
  split at h
  next => cases h
  next o htake =>
    have ho := Outline.takeAll_distinct hstart hsaid htake
    split at h
    next => cases h
    next => exact Outline.close_distinct ho (Except.mapError_eq_ok.mp h)

end BackendAssembly
