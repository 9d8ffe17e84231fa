import BackendAssembly.Proofs.StoreLines
import BackendAssembly.Proofs.StoreSessions

namespace BackendAssembly

theorem Table.enter_repeated {t : Table} {sectionPath : Option (List String)} {key : Key} {value : Node}
    (horigin : t.origin = .heading) (hthere : t.find? key.name ≠ none) :
    t.enter .dottedKey sectionPath [] key value = .error (.duplicateKey key.name sectionPath) := by
  have hopen : (t.origin == Origin.dotted) = false := by rw [horigin]; rfl
  obtain ⟨node, hnode⟩ := Option.ne_none_iff_exists'.mp hthere
  unfold Table.enter Table.visit
  simp only [hopen, hnode, List.isEmpty_nil]
  rfl

namespace Outline

theorem take_repeated {o : Outline} {placed : Placed} {pair : String × Constant} {before : List (String × Constant)}
    (hassigns : placed.statement.Assigns pair) (horigin : o.current.origin = .heading)
    (hbefore : Holds before o.current.entries) (hthere : pair.1 ∈ before.map Prod.fst) :
    o.take placed.statement = .error (.duplicateKey pair.1 (some (names o.path))) := by
  obtain ⟨keyExtent, extent, hstatement⟩ := hassigns
  let value : Node := .scalar extent pair.2.toScalar
  have hfind : (o.reaching value).find? pair.1 ≠ none := by
    intro hnone
    have hnew := TableOf.find?_eq_none_iff.mp hnone
    rw [← hbefore.names] at hthere
    exact hnew hthere
  rw [hstatement, take, assign_single, Table.enter_repeated (t := o.reaching value) horigin hfind]
  rfl

/-- Where a name recurs among assignments, the first one that repeats a name is refused. -/
theorem takeAll_repeated {pairs before : List (String × Constant)} {said : List Placed} {o : Outline}
    (hsaid : List.Forall₂ (fun pair placed => placed.statement.Assigns pair) pairs said)
    (horigin : o.current.origin = .heading) (hbefore : Holds before o.current.entries)
    (hdistinct : (before.map Prod.fst).Nodup) (hrepeated : ¬((before ++ pairs).map Prod.fst).Nodup) :
    ∃ fault name, o.takeAll said = .error fault ∧
      fault.objection = some (.duplicateKey name (some (names o.path))) ∧
      1 < ((before ++ pairs).map Prod.fst).count name := by
  -- What has been taken has distinct names all along, so the list of them does not end before a name recurs.
  induction hsaid generalizing before o with
  | nil =>
    rw [List.append_nil] at hrepeated
    exact absurd hdistinct hrepeated
  | @cons pair placed pairs said hassigns _ ih =>
    by_cases hmem : pair.1 ∈ before.map Prod.fst
    · refine ⟨placed.fault (.duplicateKey pair.1 (some (names o.path))), pair.1, ?_, ?_, ?_⟩
      · rw [takeAll, take_repeated hassigns horigin hbefore hmem]
      · unfold Placed.fault
        split <;> rfl
      · rw [List.map_append, List.map_cons, List.count_append, List.count_cons_self]
        have hpos := List.count_pos_iff.mpr hmem
        omega
    · obtain ⟨current, htake, horigin', hholds⟩ := take_new hassigns horigin hbefore hmem
      have hdistinct' : ((before ++ [pair]).map Prod.fst).Nodup := by
        rw [List.map_append, List.map_singleton, ← List.concat_eq_append]
        exact hdistinct.concat hmem
      have hrow : (before ++ [pair]) ++ pairs = before ++ pair :: pairs := by
        rw [List.append_assoc, List.singleton_append]
      rw [takeAll, htake]
      rw [← hrow] at hrepeated ⊢
      exact ih (o := { o with current }) horigin' hholds hdistinct' hrepeated

end Outline

namespace Store

def configText (pairs : List (String × Constant)) : String :=
  line "[constants]" ++ String.join (pairs.map entryLine)

variable {pairs pairs' : List (String × Constant)}

theorem constantsText_nil : constantsText [] pairs = configText pairs := String.empty_append

theorem parse_repeated (h : ¬(pairs.map Prod.fst).Nodup) :
    ∃ m fault name, parse (configText pairs) = .error (.malformed m) ∧ m.complaint = .unreadable fault ∧
      fault.objection = some (.duplicateKey name (some ["constants"])) ∧ 1 < (pairs.map Prod.fst).count name := by
  have hcomments : ∀ comment ∈ ([] : List String), ∀ c ∈ comment.toList, isCommentChar c = true := nofun
  obtain ⟨keyExtent, extent, said, hsaid, hdocument⟩ := readDocument_constantsText hcomments
  obtain ⟨fault, name, htake, hobjection, hcount⟩ :=
    Outline.takeAll_repeated (o := .opened keyExtent extent) hsaid rfl .nil .nil h
  rw [constantsText_nil, htake] at hdocument
  refine ⟨⟨(configText pairs).toList, fault.extent, .unreadable fault⟩, fault, name, ?_, rfl, hobjection, hcount⟩
  refine parse_malformed ?_
  simp only [readConstants, hdocument]

theorem mem_names_ofList (h : (pairs.map Prod.fst).Nodup) {name : String} :
    name ∈ (ofList pairs).names ↔ name ∈ pairs.map Prod.fst := by
  rw [mem_names_iff, List.mem_map]
  constructor
  · rintro ⟨value, hvalue⟩
    exact ⟨(name, value), (get?_ofList h).mp hvalue, rfl⟩
  · rintro ⟨⟨_, value⟩, hpair, rfl⟩
    exact ⟨value, (get?_ofList h).mpr hpair⟩

theorem parse_distinct (h : (pairs.map Prod.fst).Nodup) :
    (∀ pair ∈ pairs, ValidName pair.1) ∧ parse (configText pairs) = .ok (ofList pairs) ∨
      ∃ name, (ofList pairs).FirstInvalid name ∧ parse (configText pairs) = .error (.invalidName name) := by
  refine (parse_of_readConstants (readConstants_lines h)).imp_left fun ⟨hvalid, hparse⟩ => ⟨fun pair hpair => ?_, hparse⟩
  exact hvalid pair.1 ((mem_names_ofList h).mpr (List.mem_map_of_mem hpair))

theorem parse_perm (h : pairs'.Perm pairs) (hnodup : (pairs.map Prod.fst).Nodup) :
    parse (configText pairs') = parse (configText pairs) := by
  have hnodup' : (pairs'.map Prod.fst).Nodup := (h.map Prod.fst).nodup_iff.mpr hnodup
  have hstore : ofList pairs' = ofList pairs := by
    rw [← collect_eq_ofList, ← collect_eq_ofList, collect_perm h hnodup']
  have hread := readConstants_lines hnodup
  have hread' := readConstants_lines hnodup'
  rw [hstore] at hread'
  simp only [parse, configText, hread, hread']

/-- What is read from some constants, one to a line, and from the same lines in any other order. -/
structure AnyOrder (pairs : List (String × Constant)) : Prop where
  written : ∀ s : Store, s.toList = pairs → configText pairs = s.render
  permuted : (pairs.map Prod.fst).Nodup →
    ∀ pairs', pairs'.Perm pairs → parse (configText pairs') = parse (configText pairs)
  distinct : (pairs.map Prod.fst).Nodup →
    (∀ pair ∈ pairs, ValidName pair.1) ∧ parse (configText pairs) = .ok (ofList pairs) ∨
      ∃ name, (ofList pairs).FirstInvalid name ∧ parse (configText pairs) = .error (.invalidName name)
  repeated : ¬(pairs.map Prod.fst).Nodup → ∀ pairs', pairs'.Perm pairs →
    ∃ m fault name, parse (configText pairs') = .error (.malformed m) ∧ m.complaint = .unreadable fault ∧
      fault.objection = some (.duplicateKey name (some ["constants"])) ∧ 1 < (pairs.map Prod.fst).count name
  kept : ∀ s, parse (configText pairs) = .ok s → ∀ name value, s.get? name = some value ↔ (name, value) ∈ pairs
  overridden : ∀ name value, (collect pairs).get? name = some value ↔
    ∃ before after, pairs = before ++ (name, value) :: after ∧ ∀ pair ∈ after, pair.1 ≠ name

/-- The lines of distinct constants may stand in any order. A name that recurs, with whatever values, is refused in any
order, while a store that takes the same constants in keeps the last value of each name. -/
theorem anyOrder_configText (pairs : List (String × Constant)) : AnyOrder pairs where
  written _ h := h ▸ rfl
  permuted hnodup _ h := parse_perm h hnodup
  distinct := parse_distinct
  repeated hrepeated pairs' h := by
    have hnames := h.map Prod.fst
    obtain ⟨m, fault, name, hparse, hfault, hobjection, hcount⟩ :=
      parse_repeated fun hnodup' => hrepeated (hnames.nodup_iff.mp hnodup')
    exact ⟨m, fault, name, hparse, hfault, hobjection, hnames.count_eq name ▸ hcount⟩
  kept s hs name value := by
    have hnodup : (pairs.map Prod.fst).Nodup := by
      by_contra hrepeated
      obtain ⟨m, -, -, hparse, -⟩ := parse_repeated hrepeated
      cases hs.symm.trans hparse
    rcases parse_distinct hnodup with ⟨-, hparse⟩ | ⟨name', -, hparse⟩
    · cases hs.symm.trans hparse
      exact get?_ofList hnodup
    · cases hs.symm.trans hparse
  overridden _ _ := by
    rw [get?_collect, lookup_reverse_eq_some_iff]

end Store

end BackendAssembly
