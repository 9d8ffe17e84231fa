import BackendAssembly.Proofs.DocumentReading

namespace BackendAssembly

/-- The entries say these pairs, in their order. -/
def Holds (pairs : List (String × Constant)) (entries : List (Key × Node)) : Prop :=
  List.Forall₂ (fun pair entry => entry.1.name = pair.1 ∧ ∃ extent, entry.2 = .scalar extent pair.2.toScalar)
    pairs entries

theorem Holds.names {pairs : List (String × Constant)} {entries : List (Key × Node)} (h : Holds pairs entries) :
    entries.map (fun entry => entry.1.name) = pairs.map Prod.fst := by
  induction h with
  | nil => rfl
  | cons hentry _ ih => rw [List.map_cons, List.map_cons, ih, hentry.1]

theorem Holds.append {pairs pairs' : List (String × Constant)} {entries entries' : List (Key × Node)}
    (h : Holds pairs entries) (h' : Holds pairs' entries') : Holds (pairs ++ pairs') (entries ++ entries') := by
  induction h with
  | nil => exact h'
  | cons hentry _ ih => exact .cons hentry ih

theorem constant?_toScalar (extent : Extent) (value : Constant) :
    (Node.scalar extent value.toScalar).constant? = some value := by
  cases value <;> rfl

theorem Table.enter_new {t : Table} {sectionPath : Option (List String)} {key : Key} {value : Node}
    (horigin : t.origin = .heading) (hnew : t.find? key.name = none) :
    t.enter .dottedKey sectionPath [] key value = .ok (t.push key value) := by
  have hopen : (t.origin == Origin.dotted) = false := by rw [horigin]; rfl
  unfold Table.enter Table.visit
  simp only [hopen, hnew, List.isEmpty_nil]
  rfl

namespace Outline

def reaching (o : Outline) (value : Node) : Table :=
  let extent := o.current.extent.map fun extent =>
    { extent with stop := (value.extent?.map Extent.stop).getD extent.stop }
  { o.current with extent }

theorem assign_single (o : Outline) (key : Key) (value : Node) :
    o.assign [] key value = do
      let current ← Table.enter .dottedKey (some (names o.path)) [] key value (o.reaching value)
      return { o with current } := rfl

/-- An assignment to a name that is not there yet adds its pair to what the table at hand says. -/
theorem take_new {o : Outline} {placed : Placed} {pair : String × Constant} {before : List (String × Constant)}
    (hassigns : placed.statement.Assigns pair) (horigin : o.current.origin = .heading)
    (hbefore : Holds before o.current.entries) (hnew : pair.1 ∉ before.map Prod.fst) :
    ∃ current, o.take placed.statement = .ok { o with current } ∧ current.origin = .heading ∧
      Holds (before ++ [pair]) current.entries := by
  obtain ⟨keyExtent, extent, hstatement⟩ := hassigns
  let value : Node := .scalar extent pair.2.toScalar
  have hfind : (o.reaching value).find? pair.1 = none := by
    refine TableOf.find?_eq_none_iff.mpr ?_
    rwa [← hbefore.names] at hnew
  refine ⟨(o.reaching value).push ⟨pair.1, keyExtent⟩ value, ?_, horigin, ?_⟩
  · rw [hstatement, take, assign_single, Table.enter_new (t := o.reaching value) horigin hfind]
    rfl
  · exact hbefore.append (.cons ⟨rfl, extent, rfl⟩ .nil)

theorem takeAll_assignments {pairs before : List (String × Constant)} {said : List Placed} {o : Outline}
    (hsaid : List.Forall₂ (fun pair placed => placed.statement.Assigns pair) pairs said)
    (horigin : o.current.origin = .heading) (hbefore : Holds before o.current.entries)
    (hnodup : ((before ++ pairs).map Prod.fst).Nodup) :
    ∃ current, o.takeAll said = .ok { o with current } ∧ Holds (before ++ pairs) current.entries := by
  induction hsaid generalizing before o with
  | nil => exact ⟨o.current, rfl, by rwa [List.append_nil]⟩
  | @cons pair placed pairs said hassigns _ ih =>
    have hnew : pair.1 ∉ before.map Prod.fst := by
      intro hmem
      rw [List.map_append, List.map_cons, List.nodup_append] at hnodup
      exact hnodup.2.2 pair.1 hmem pair.1 List.mem_cons_self rfl
    obtain ⟨current, htake, horigin', hholds⟩ := take_new hassigns horigin hbefore hnew
    have hnodup' : (((before ++ [pair]) ++ pairs).map Prod.fst).Nodup := by
      rwa [List.append_assoc, List.singleton_append]
    obtain ⟨last, hlast, hall⟩ := ih (o := { o with current }) horigin' hholds hnodup'
    refine ⟨last, ?_, by rwa [List.append_assoc, List.singleton_append] at hall⟩
    rw [takeAll, htake]
    exact hlast

def opened (keyExtent extent : Extent) : Outline :=
  { path := [⟨"constants", keyExtent⟩], current := { origin := .heading, extent := some extent } }

theorem close_single {o : Outline} {key : Key} (hclosed : o.closed = { origin := .heading }) (hpath : o.path = [key])
    (hlist : o.inList = false) :
    o.close = .ok { origin := .heading, entries := [(key, .table o.current)] } := by
  unfold close
  rw [hclosed, hpath, hlist]
  rfl

end Outline

namespace Table

theorem foldlM_addEntry {pairs : List (String × Constant)} {entries : List (Key × Node)}
    (h : Holds pairs entries) (s : Store) : entries.foldlM addEntry s = .ok (s.insertAll pairs) := by
  induction h generalizing s with
  | nil => rfl
  | @cons pair entry pairs entries hentry _ ih =>
    obtain ⟨key, node⟩ := entry
    obtain ⟨hname, extent, hnode⟩ := hentry
    replace hname : key.name = pair.1 := hname
    replace hnode : node = .scalar extent pair.2.toScalar := hnode
    have hadd : addEntry s (key, node) = .ok (s.insert pair.1 pair.2) := by
      simp only [addEntry, hnode, constant?_toScalar, hname]
    rw [List.foldlM_cons, hadd]
    exact ih _

theorem constants_of_holds {pairs : List (String × Constant)} {current : Table} {origin : Origin} (keyExtent : Extent)
    (h : Holds pairs current.entries) :
    constants { origin, entries := [(⟨"constants", keyExtent⟩, .table current)] } = .ok (Store.ofList pairs) := by
  unfold constants
  exact foldlM_addEntry h Store.empty

end Table

/-- The text that gives some names their values, behind some lines of comment. -/
def constantsText (comments : List String) (pairs : List (String × Constant)) : String :=
  String.join (comments.map commentLine) ++ (line "[constants]" ++ String.join (pairs.map Store.entryLine))

theorem toList_constantsText (comments : List String) (pairs : List (String × Constant)) :
    (constantsText comments pairs).toList = comments.flatMap (fun comment => (commentLine comment).toList) ++
      ("[constants]\n".toList ++ pairs.flatMap fun pair => (Store.entryLine pair).toList) := by
  have hjoin : ∀ {α : Type} (f : α → String) (xs : List α),
      (String.join (xs.map f)).toList = xs.flatMap fun x => (f x).toList := fun f xs => by
    rw [String.toList_join, List.flatMap_map]
  have hheading : (line "[constants]").toList = "[constants]\n".toList := rfl
  rw [constantsText, String.toList_append, String.toList_append, hjoin, hjoin, hheading]

section Document

variable {comments : List String} {pairs : List (String × Constant)}
  (hcomments : ∀ comment ∈ comments, ∀ c ∈ comment.toList, isCommentChar c = true)
include hcomments

theorem statements_constantsText :
    ∃ keyExtent extent text said,
      statements (constantsText comments pairs).toList =
        (⟨text, .heading [⟨"constants", keyExtent⟩] extent⟩ :: said, none) ∧
      List.Forall₂ (fun pair placed => placed.statement.Assigns pair) pairs said := by
  obtain ⟨said, hsaid, hforall⟩ := statements_entries pairs
  obtain ⟨keyExtent, extent, hline⟩ :=
    Reader.statementLine_heading (pairs.flatMap fun pair => (Store.entryLine pair).toList)
  have hblank : Reader.LeavesOff isBlank
      ("[constants]\n".toList ++ pairs.flatMap fun pair => (Store.entryLine pair).toList) :=
    Reader.leavesOff_cons (by decide)
  have hlt : (pairs.flatMap fun pair => (Store.entryLine pair).toList).length <
      ("[constants]\n".toList ++ pairs.flatMap fun pair => (Store.entryLine pair).toList).length := by
    rw [List.length_append]
    exact Nat.lt_add_of_pos_left (by decide)
  rw [toList_constantsText, statements_comments hcomments, statements_said hblank hlt hline, hsaid]
  exact ⟨keyExtent, extent, _, said, rfl, hforall⟩

/-- No byte order mark stands at the start, for that is a hash or a bracket. -/
theorem skipMark_constantsText :
    skipMark (constantsText comments pairs).toList = (constantsText comments pairs).toList := by
  rw [toList_constantsText]
  cases comments with
  | nil => rfl
  | cons comment comments =>
    rw [List.flatMap_cons, toList_commentLine]
    rfl

theorem readDocument_constantsText :
    ∃ keyExtent extent said, List.Forall₂ (fun pair placed => placed.statement.Assigns pair) pairs said ∧
      readDocument (constantsText comments pairs).toList =
        match (Outline.opened keyExtent extent).takeAll said with
        | .error earlier => .error earlier
        | .ok o => o.close.mapError fun objection => { rest := [], objection := some objection } := by
  obtain ⟨keyExtent, extent, text, said, hstatements, hsaid⟩ := statements_constantsText hcomments
  have htake : Outline.takeAll {} (⟨text, .heading [⟨"constants", keyExtent⟩] extent⟩ :: said) =
      (Outline.opened keyExtent extent).takeAll said := rfl
  refine ⟨keyExtent, extent, said, hsaid, ?_⟩
  unfold readDocument
  rw [skipMark_constantsText hcomments, hstatements]
  cases hend : (Outline.opened keyExtent extent).takeAll said with
  | error earlier => simp only [htake, hend]
  | ok o => simp only [htake, hend]

theorem readConstants_constantsText (hnodup : (pairs.map Prod.fst).Nodup) :
    readConstants (constantsText comments pairs).toList = .ok (Store.ofList pairs) := by
  obtain ⟨keyExtent, extent, said, hsaid, hdocument⟩ := readDocument_constantsText hcomments
  obtain ⟨current, htake, hholds⟩ :=
    Outline.takeAll_assignments (o := .opened keyExtent extent) hsaid rfl .nil hnodup
  have hclose := Outline.close_single (o := { Outline.opened keyExtent extent with current }) rfl rfl rfl
  have hread : readDocument (constantsText comments pairs).toList =
      .ok { origin := .heading, entries := [(⟨"constants", keyExtent⟩, .table current)] } := by
    simp only [hdocument, htake, hclose]
    rfl
  unfold readConstants
  simp only [hread, Table.constants_of_holds keyExtent hholds]
  rfl

end Document

namespace Store

theorem insertByKey_of_lt {α κ : Type} [LT κ] [DecidableLT κ] [DecidableEq κ] [Std.Asymm (α := κ) (· < ·)]
    {key : α → κ} {x : α} {entries : List α} (h : ∀ y ∈ entries, key y < key x) :
    insertByKey key x entries = entries ++ [x] := by
  induction entries with
  | nil => rfl
  | cons y entries ih =>
    have hlt := h y List.mem_cons_self
    have hle : ¬key x < key y := Std.Asymm.asymm _ _ hlt
    have hne : key x ≠ key y := fun heq => by
      rw [heq] at hlt hle
      exact hle hlt
    rw [insertByKey, if_neg hle, if_neg hne, ih fun z hz => h z (List.mem_cons_of_mem y hz)]
    rfl

theorem entries_insertAll {pairs : List (String × Constant)} {s : Store}
    (h : Ascending Prod.fst (s.entries ++ pairs)) : (s.insertAll pairs).entries = s.entries ++ pairs := by
  induction pairs generalizing s with
  | nil => rw [insertAll_nil, List.append_nil]
  | cons pair pairs ih =>
    have hlast : (s.insert pair.1 pair.2).entries = s.entries ++ [pair] :=
      insertByKey_of_lt fun y hy => (List.pairwise_append.mp h).2.2 y hy pair List.mem_cons_self
    rw [insertAll_cons, ih, hlast, List.append_assoc, List.singleton_append]
    rwa [hlast, List.append_assoc, List.singleton_append]

theorem ofList_entries (s : Store) : ofList s.entries = s := by
  have hentries : (ofList s.entries).entries = s.entries := entries_insertAll s.ascending
  cases s
  cases h : ofList _
  rw [h] at hentries
  cases hentries
  rfl

end Store

end BackendAssembly
