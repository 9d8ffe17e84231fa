import BackendAssembly.Proofs.DistinctKeys
import BackendAssembly.Proofs.StoreLookup

namespace BackendAssembly

namespace Node

theorem constant?_eq_some_iff {node : Node} {value : Constant} :
    node.constant? = some value ↔ ∃ extent, node = .scalar extent value.toScalar := by
  constructor
  · intro h
    unfold constant? at h
    split at h
    next extent b =>
      cases h
      exact ⟨extent, rfl⟩
    next extent n =>
      cases h
      exact ⟨extent, rfl⟩
    next => cases h
  · rintro ⟨extent, rfl⟩
    exact constant?_toScalar extent value

theorem asTable_eq_ok {node : Node} {t : Table} : node.asTable = .ok t ↔ node = .table t := by
  constructor
  · intro h
    unfold asTable at h
    split at h <;> cases h
    rfl
  · rintro rfl
    rfl

def items? : Node → Option (List Node)
  | array _ elements => some elements
  | tables elements => some (elements.map table)
  | _ => none

/-- Nodes that differ only in where they stand and in the order of the entries in their tables. -/
inductive Same : Node → Node → Prop where
  | scalar {extent extent' : Extent} {value : Scalar} : Same (.scalar extent value) (.scalar extent' value)
  | list {node node' : Node} {elements elements' : List Node} (helements : node.items? = some elements)
    (helements' : node'.items? = some elements') (h : List.Forall₂ Same elements elements') : Same node node'
  | table {t t' : Table} (h : ∀ name, Option.Rel Same (t.find? name) (t'.find? name)) : Same (.table t) (.table t')

variable {node node' : Node}

theorem constant?_of_items? {elements : List Node} (h : node.items? = some elements) : node.constant? = none := by
  cases node with
  | scalar | table => cases h
  | array | tables => rfl

theorem asTable_of_items? {elements : List Node} (h : node.items? = some elements) :
    node.asTable = .error (.notATable "sequence") := by
  cases node with
  | scalar | table => cases h
  | array | tables => rfl

theorem Same.constant? (h : Same node node') : node.constant? = node'.constant? := by
  cases h with
  | @scalar extent extent' value => cases value <;> rfl
  | list helements helements' => rw [constant?_of_items? helements, constant?_of_items? helements']
  | table => rfl

theorem Same.asTable (h : Same node node') :
    (∃ t t', node = .table t ∧ node' = .table t' ∧ ∀ name, Option.Rel Same (t.find? name) (t'.find? name)) ∨
      ∃ misfit, node.asTable = .error misfit ∧ node'.asTable = .error misfit := by
  cases h with
  | @scalar extent extent' value => exact .inr (by cases value <;> exact ⟨_, rfl, rfl⟩)
  | list helements helements' => exact .inr ⟨_, asTable_of_items? helements, asTable_of_items? helements'⟩
  | table h => exact .inl ⟨_, _, rfl, rfl, h⟩

end Node

theorem Holds.mem_iff {pairs : List (String × Constant)} {entries : List (Key × Node)} (h : Holds pairs entries)
    {name : String} {value : Constant} :
    (name, value) ∈ pairs ↔ ∃ entry ∈ entries, entry.1.name = name ∧ entry.2.constant? = some value := by
  induction h with
  | nil => simp only [List.not_mem_nil, false_and, exists_false]
  | @cons pair entry pairs entries hentry _ ih =>
    obtain ⟨hname, extent, hnode⟩ := hentry
    have hvalue : entry.2.constant? = some pair.2 := by rw [hnode, constant?_toScalar]
    have hpair : (name, value) = pair ↔ pair.1 = name ∧ pair.2 = value := by rw [eq_comm, Prod.ext_iff]
    rw [List.mem_cons, ih, hpair]
    simp only [List.mem_cons, exists_eq_or_imp, hname, hvalue, Option.some_inj]

namespace Table

def Tells (doc : Table) (name : String) (node : Node) : Prop :=
  ∃ t, doc.find? "constants" = some (.table t) ∧ ∃ entry ∈ t.entries, entry.1.name = name ∧ entry.2 = node

/-- If the document says anything of constants, it gives a table of them, and every value there is a switch or a
number. -/
structure Fits (doc : Table) : Prop where
  table : ∀ node, doc.find? "constants" = some node → ∃ t, node = .table t
  constants : ∀ name node, doc.Tells name node → ∃ extent value, node = .scalar extent (Constant.toScalar value)

/-- Of the names in the document's table of constants that are not valid, this one has the smallest bytes. -/
structure FirstInvalid (doc : Table) (name : String) : Prop where
  mem : ∃ node, doc.Tells name node
  invalid : ¬ValidName name
  least : ∀ other node, doc.Tells other node → ¬ValidName other → other = name ∨ utf8Bytes name < utf8Bytes other

/-- The store has the constants that the document tells of, and no others. -/
def Means (doc : Table) (s : Store) : Prop :=
  ∀ name value, s.get? name = some value ↔ ∃ extent, doc.Tells name (.scalar extent (Constant.toScalar value))

theorem exists_holds {entries : List (Key × Node)} (h : ∀ entry ∈ entries, entry.2.constant? ≠ none) :
    ∃ pairs, Holds pairs entries := by
  induction entries with
  | nil => exact ⟨[], .nil⟩
  | cons entry entries ih =>
    obtain ⟨value, hvalue⟩ := Option.ne_none_iff_exists'.mp (h entry List.mem_cons_self)
    obtain ⟨pairs, hpairs⟩ := ih fun other hother => h other (List.mem_cons_of_mem entry hother)
    exact ⟨(entry.1.name, value) :: pairs, .cons ⟨rfl, Node.constant?_eq_some_iff.mp hvalue⟩ hpairs⟩

theorem foldlM_addEntry_misfit {entries : List (Key × Node)} {entry : Key × Node} (hmem : entry ∈ entries)
    (hentry : entry.2.constant? = none) (s : Store) :
    ∃ extent, entries.foldlM addEntry s = .error (.notAConstant, extent) := by
  induction entries generalizing s with
  | nil => cases hmem
  | cons first entries ih =>
    obtain ⟨key, node⟩ := first
    rw [List.foldlM_cons]
    cases hfirst : node.constant? with
    | none =>
      have hadd : addEntry s (key, node) = .error (.notAConstant, node.extent?.getD key.extent) := by
        simp only [addEntry, hfirst]
      exact ⟨_, by rw [hadd]; rfl⟩
    | some value =>
      have hadd : addEntry s (key, node) = .ok (s.insert key.name value) := by simp only [addEntry, hfirst]
      rw [hadd]
      rcases List.mem_cons.mp hmem with rfl | hmem
      · rw [hfirst] at hentry
        cases hentry
      · exact ih hmem _

theorem toStore_cases {t : Table} (ht : Distinct t) :
    (∃ s, t.toStore = .ok s ∧ ∀ name, (t.find? name).map Node.constant? = (s.get? name).map some) ∨
      ∃ extent name, t.toStore = .error (.notAConstant, extent) ∧ (t.find? name).map Node.constant? = some none := by
  by_cases hall : ∀ entry ∈ t.entries, entry.2.constant? ≠ none
  · left
    obtain ⟨pairs, hpairs⟩ := exists_holds hall
    refine ⟨.ofList pairs, foldlM_addEntry hpairs Store.empty, fun name => ?_⟩
    have hget : ∀ value, (Store.ofList pairs).get? name = some value ↔
        ∃ entry ∈ t.entries, entry.1.name = name ∧ entry.2.constant? = some value := fun value =>
      (Store.get?_ofList (hpairs.names ▸ ht.names)).trans hpairs.mem_iff
    cases hfind : t.find? name with
    | none =>
      have hnone : (Store.ofList pairs).get? name = none :=
        Option.eq_none_iff_forall_ne_some.mpr fun value hvalue => by
          obtain ⟨entry, hentry, hname, -⟩ := (hget value).mp hvalue
          exact TableOf.find?_eq_none_iff.mp hfind (List.mem_map.mpr ⟨entry, hentry, hname⟩)
      rw [hnone]
      rfl
    | some node =>
      obtain ⟨entry, hentry, hname, rfl⟩ := TableOf.mem_of_find? hfind
      obtain ⟨value, hvalue⟩ := Option.ne_none_iff_exists'.mp (hall entry hentry)
      rw [(hget value).mpr ⟨entry, hentry, hname, hvalue⟩, Option.map_some, Option.map_some, hvalue]
  · right
    push Not at hall
    obtain ⟨entry, hentry, hnone⟩ := hall
    obtain ⟨extent, hextent⟩ := foldlM_addEntry_misfit hentry hnone Store.empty
    refine ⟨extent, entry.1.name, hextent, ?_⟩
    rw [ht.find?_eq_some_iff.mpr ⟨entry, hentry, rfl, rfl⟩, Option.map_some, hnone]

theorem constants_of_none {doc : Table} (h : doc.find? "constants" = none) : doc.constants = .ok Store.empty := by
  unfold constants
  rw [Option.map_eq_none_iff.mp h]

theorem constants_of_table {doc t : Table} (h : doc.find? "constants" = some (.table t)) :
    doc.constants = t.toStore := by
  obtain ⟨⟨key, node⟩, hfound, hnode⟩ := Option.map_eq_some_iff.mp h
  cases hnode
  unfold constants
  rw [hfound]
  rfl

theorem constants_of_misfit {doc : Table} {node : Node} {misfit : Misfit} (h : doc.find? "constants" = some node)
    (hnode : node.asTable = .error misfit) : ∃ extent, doc.constants = .error (misfit, extent) := by
  obtain ⟨⟨key, node⟩, hfound, hsnd⟩ := Option.map_eq_some_iff.mp h
  cases hsnd
  refine ⟨node.extent?.getD key.extent, ?_⟩
  unfold constants
  simp only [hfound, hnode]

section Found

variable {doc t : Table} {s : Store} {name : String} {node : Node}
  (hfound : doc.find? "constants" = some (.table t)) (ht : Distinct t)
include hfound ht

theorem tells_iff : doc.Tells name node ↔ t.find? name = some node := by
  rw [ht.find?_eq_some_iff]
  constructor
  · rintro ⟨t', ht', h⟩
    cases hfound.symm.trans ht'
    exact h
  · exact fun h => ⟨t, hfound, h⟩

theorem fits_of_find? (hget : ∀ name, (t.find? name).map Node.constant? = (s.get? name).map some) : doc.Fits := by
  refine ⟨fun node hnode => ⟨t, Option.some.inj (hnode.symm.trans hfound)⟩, fun name node h => ?_⟩
  have hnode := hget name
  rw [(tells_iff hfound ht).mp h, Option.map_some, eq_comm, Option.map_eq_some_iff] at hnode
  obtain ⟨value, -, hvalue⟩ := hnode
  obtain ⟨extent, hnode⟩ := Node.constant?_eq_some_iff.mp hvalue.symm
  exact ⟨extent, value, hnode⟩

theorem means_of_find? (hget : ∀ name, (t.find? name).map Node.constant? = (s.get? name).map some) :
    doc.Means s := by
  intro name value
  have hname := hget name
  constructor
  · intro hvalue
    rw [hvalue, Option.map_some, Option.map_eq_some_iff] at hname
    obtain ⟨node, hfind, hnode⟩ := hname
    obtain ⟨extent, rfl⟩ := Node.constant?_eq_some_iff.mp hnode
    exact ⟨extent, (tells_iff hfound ht).mpr hfind⟩
  · rintro ⟨extent, h⟩
    rw [(tells_iff hfound ht).mp h, Option.map_some, constant?_toScalar, eq_comm, Option.map_eq_some_iff] at hname
    obtain ⟨value', hvalue', heq⟩ := hname
    rwa [Option.some.inj heq] at hvalue'

theorem not_fits_of_find? (hname : (t.find? name).map Node.constant? = some none) : ¬doc.Fits := by
  intro hfits
  obtain ⟨node, hfind, hnode⟩ := Option.map_eq_some_iff.mp hname
  obtain ⟨extent, value, rfl⟩ := hfits.constants name node ((tells_iff hfound ht).mpr hfind)
  rw [constant?_toScalar] at hnode
  cases hnode

end Found

/-- A document that fits gives the store it means, and any other document is refused. -/
theorem constants_cases {doc : Table} (hdistinct : Distinct doc) :
    (∃ s, doc.constants = .ok s ∧ doc.Fits ∧ doc.Means s) ∨
      ∃ misfit extent, doc.constants = .error (misfit, extent) ∧ ¬doc.Fits := by
  -- There is no such entry, or one that is no table, or a table, and then its entries decide.
  cases hfound : doc.find? "constants" with
  | none =>
    have htells : ∀ name node, ¬doc.Tells name node := fun name node ⟨t, ht, _⟩ => by
      cases hfound.symm.trans ht
    refine .inl ⟨.empty, constants_of_none hfound, ⟨fun node hnode => ?_, fun name node h => ?_⟩, fun name value => ?_⟩
    · cases hfound.symm.trans hnode
    · exact absurd h (htells name node)
    · exact ⟨nofun, fun ⟨extent, h⟩ => absurd h (htells name _)⟩
  | some node =>
    cases hnode : node.asTable with
    | error misfit =>
      obtain ⟨extent, hextent⟩ := constants_of_misfit hfound hnode
      refine .inr ⟨misfit, extent, hextent, fun hfits => ?_⟩
      obtain ⟨t, rfl⟩ := hfits.table node hfound
      cases hnode
    | ok t =>
      obtain rfl : node = .table t := Node.asTable_eq_ok.mp hnode
      have ht : Distinct t := Node.distinct_table.mp (hdistinct.find? hfound)
      rw [constants_of_table hfound]
      rcases toStore_cases ht with ⟨s, hs, hget⟩ | ⟨extent, name, herror, hname⟩
      · exact .inl ⟨s, hs, fits_of_find? hfound ht hget, means_of_find? hfound ht hget⟩
      · exact .inr ⟨.notAConstant, extent, herror, not_fits_of_find? hfound ht hname⟩

theorem Means.mem_names_iff {doc : Table} {s : Store} (h : doc.Means s) (hfits : doc.Fits) {name : String} :
    name ∈ s.names ↔ ∃ node, doc.Tells name node := by
  rw [Store.mem_names_iff]
  constructor
  · rintro ⟨value, hvalue⟩
    obtain ⟨extent, htells⟩ := (h name value).mp hvalue
    exact ⟨_, htells⟩
  · rintro ⟨node, htells⟩
    obtain ⟨extent, value, rfl⟩ := hfits.constants name node htells
    exact ⟨value, (h name value).mpr ⟨extent, htells⟩⟩

theorem Means.firstInvalid_iff {doc : Table} {s : Store} (h : doc.Means s) (hfits : doc.Fits) {name : String} :
    s.FirstInvalid name ↔ doc.FirstInvalid name := by
  have hnames : ∀ {n}, n ∈ s.names ↔ ∃ node, doc.Tells n node := h.mem_names_iff hfits
  constructor
  · exact fun hfirst => ⟨hnames.mp hfirst.mem, hfirst.invalid, fun other node htells =>
      hfirst.least other (hnames.mpr ⟨node, htells⟩)⟩
  · refine fun hfirst => ⟨hnames.mpr hfirst.mem, hfirst.invalid, fun other hother => ?_⟩
    obtain ⟨node, htells⟩ := hnames.mp hother
    exact hfirst.least other node htells

theorem toStore_congr {t t' : Table} (ht : Distinct t) (ht' : Distinct t')
    (h : ∀ name, Option.Rel Node.Same (t.find? name) (t'.find? name)) :
    t.toStore.mapError Prod.fst = t'.toStore.mapError Prod.fst := by
  have hview : ∀ name, (t.find? name).map Node.constant? = (t'.find? name).map Node.constant? := fun name => by
    have hrel := h name
    generalize t.find? name = x, t'.find? name = y at hrel
    cases hrel with
    | none => rfl
    | some hsame => exact congrArg some hsame.constant?
  rcases toStore_cases ht with ⟨s, hs, hget⟩ | ⟨extent, name, herror, hname⟩ <;>
    rcases toStore_cases ht' with ⟨s', hs', hget'⟩ | ⟨extent', name', herror', hname'⟩
  · have heq : s = s' := Store.ext_get? fun name =>
      Option.map_injective (Option.some_injective _) ((hget name).symm.trans ((hview name).trans (hget' name)))
    rw [hs, hs', heq]
  · have hnone := (hget name').symm.trans ((hview name').trans hname')
    obtain ⟨value, -, hvalue⟩ := Option.map_eq_some_iff.mp hnone
    cases hvalue
  · have hnone := (hget' name).symm.trans ((hview name).symm.trans hname)
    obtain ⟨value, -, hvalue⟩ := Option.map_eq_some_iff.mp hnone
    cases hvalue
  · rw [herror, herror']
    rfl

theorem constants_congr {doc doc' : Table} (hdoc : Distinct doc) (hdoc' : Distinct doc')
    (h : Option.Rel Node.Same (doc.find? "constants") (doc'.find? "constants")) :
    doc.constants.mapError Prod.fst = doc'.constants.mapError Prod.fst := by
  cases hfound : doc.find? "constants" <;> cases hfound' : doc'.find? "constants"
  all_goals rw [hfound, hfound'] at h; cases h
  case none.none.none => rw [constants_of_none hfound, constants_of_none hfound']
  case some.some.some node node' hsame =>
    rcases hsame.asTable with ⟨t, t', rfl, rfl, hfind⟩ | ⟨misfit, hnode, hnode'⟩
    · rw [constants_of_table hfound, constants_of_table hfound']
      exact toStore_congr (Node.distinct_table.mp (hdoc.find? hfound)) (Node.distinct_table.mp (hdoc'.find? hfound'))
        hfind
    · obtain ⟨extent, hextent⟩ := constants_of_misfit hfound hnode
      obtain ⟨extent', hextent'⟩ := constants_of_misfit hfound' hnode'
      rw [hextent, hextent']
      rfl

end Table

end BackendAssembly
