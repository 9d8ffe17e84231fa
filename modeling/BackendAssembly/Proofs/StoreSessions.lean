import BackendAssembly.Proofs.StoreLanguage

namespace BackendAssembly.Store

theorem filter_mergeSort_nameLE (pairs : List (String × Constant)) (name : String) :
    (pairs.mergeSort nameLE).filter (·.1 == name) = pairs.filter (·.1 == name) := by
  have hname : ∀ pair ∈ pairs.filter (·.1 == name), pair.1 = name := fun pair hpair =>
    eq_of_beq (List.mem_filter.mp hpair).2
  have hordered : (pairs.filter (·.1 == name)).Pairwise fun a b => nameLE a b = true :=
    List.pairwise_of_forall_mem_list fun a ha b hb => by
      rw [nameLE_iff, hname a ha, hname b hb]
  have hsublist := List.sublist_mergeSort nameLE_trans nameLE_total hordered List.filter_sublist
  have hkept := hsublist.filter (·.1 == name)
  rw [List.filter_filter] at hkept
  simp only [Bool.and_self] at hkept
  have hperm := (List.mergeSort_perm pairs nameLE).filter (·.1 == name)
  exact (hkept.eq_of_length hperm.length_eq.symm).symm

theorem lookup_filter_key {β : Type} (entries : List (String × β)) (name : String) :
    (entries.filter (·.1 == name)).lookup name = entries.lookup name := by
  induction entries with
  | nil => rfl
  | cons entry entries ih =>
    rw [lookup_cons_ite, List.filter_cons]
    by_cases h : entry.1 = name
    · rw [if_pos (beq_iff_eq.mpr h), lookup_cons_ite, if_pos h.symm, if_pos h.symm]
    · rw [if_neg fun heq => h (eq_of_beq heq), if_neg fun heq => h heq.symm, ih]

theorem get?_collect (pairs : List (String × Constant)) (name : String) :
    (collect pairs).get? name = pairs.reverse.lookup name := by
  change (lastOfEach Prod.fst (pairs.mergeSort nameLE)).lookup name = _
  rw [lookup_lastOfEach (pairwise_mergeSort_nameLE pairs), ← lookup_filter_key, List.filter_reverse,
    filter_mergeSort_nameLE, ← List.filter_reverse, lookup_filter_key]

/-- Constants that are taken in all at once are set as if one after the other. -/
theorem collect_eq_ofList (pairs : List (String × Constant)) : collect pairs = ofList pairs :=
  ext_get? fun name => by
    rw [get?_collect, ofList, get?_insertAll, get?_empty, Option.or_none]

theorem collect_perm {pairs pairs' : List (String × Constant)} (h : pairs.Perm pairs')
    (hnodup : (pairs.map Prod.fst).Nodup) : collect pairs = collect pairs' := by
  have hnodup' : (pairs'.map Prod.fst).Nodup := (h.map Prod.fst).nodup_iff.mp hnodup
  rw [collect_eq_ofList, collect_eq_ofList]
  refine ext_get? fun name => Option.ext fun value => ?_
  rw [get?_ofList hnodup, get?_ofList hnodup', h.mem_iff]

inductive Operation where
  | exchange (name : String) (value : Constant)
  | insert (name : String) (value : Constant)
  | collect (pairs : List (String × Constant))
  | read (text : String)

namespace Operation

def perform : Operation → Attempt Store ConfigError (Option Constant)
  | exchange name value => Attempt.ask fun s => s.exchange name value
  | insert name value => fun s => (.returned none, s.insert name value)
  | collect pairs => fun _ => (.returned none, .collect pairs)
  | read text => fun s =>
    match parse text with
    | .ok s' => (.returned none, s')
    | .error e => (.failed e, s)

/-- The operation gives the name this value, and no other one after it. -/
def Gives : Operation → String → Constant → Prop
  | exchange n v, name, value | insert n v, name, value => n = name ∧ v = value
  | collect pairs, name, value =>
    ∃ before after, pairs = before ++ (name, value) :: after ∧ ∀ pair ∈ after, pair.1 ≠ name
  | read text, name, value => (∃ s, parse text = .ok s) ∧
    ∃ doc extent, readDocument text.toList = .ok doc ∧ doc.Tells name (.scalar extent value.toScalar)

def Replaces : Operation → Prop
  | exchange .. | insert .. => False
  | collect _ => True
  | read text => ∃ s, parse text = .ok s

def Leaves (op : Operation) (name : String) : Prop :=
  ¬op.Replaces ∧ ∀ value, ¬op.Gives name value

variable {name : String} {value : Constant}

theorem gives_collect_iff {pairs : List (String × Constant)} :
    (collect pairs).Gives name value ↔ (Store.collect pairs).get? name = some value := by
  rw [get?_collect, lookup_reverse_eq_some_iff]
  exact Iff.rfl

theorem gives_read_iff {text : String} {s : Store} (h : parse text = .ok s) :
    (read text).Gives name value ↔ s.get? name = some value := by
  have hverdict := verdict_parse text
  rw [h] at hverdict
  cases hverdict with
  | @valid doc _ hread _ hmeans =>
    rw [hmeans name value]
    constructor
    · rintro ⟨-, doc', extent, hread', htells⟩
      cases hread.symm.trans hread'
      exact ⟨extent, htells⟩
    · exact fun ⟨extent, htells⟩ => ⟨⟨s, h⟩, doc, extent, hread, htells⟩

theorem get?_perform (op : Operation) (s : Store) :
    (op.perform s).2.get? name = some value ↔
      op.Gives name value ∨ op.Leaves name ∧ s.get? name = some value := by
  -- To insert and to exchange are the same but for what is told of it.
  have hset : ∀ {n : String} {v : Constant}, (s.insert n v).get? name = some value ↔
      (n = name ∧ v = value) ∨ (¬False ∧ ∀ w, ¬(n = name ∧ v = w)) ∧ s.get? name = some value := fun {n v} => by
    rw [get?_insert]
    by_cases hn : name = n
    · simp [hn]
    · simp [hn, Ne.symm hn]
  cases op with
  | exchange | insert => exact hset
  | collect pairs =>
    rw [gives_collect_iff]
    exact ⟨.inl, fun h => h.resolve_right fun h => h.1.1 trivial⟩
  | read text =>
    cases hparse : parse text with
    | ok s' =>
      have hperform : ((read text).perform s).2 = s' := by simp only [perform, hparse]
      rw [hperform, gives_read_iff hparse]
      exact ⟨.inl, fun h => h.resolve_right fun h => h.1.1 ⟨s', hparse⟩⟩
    | error e =>
      have hperform : ((read text).perform s).2 = s := by simp only [perform, hparse]
      have hnone : ¬∃ s', parse text = .ok s' := by
        rintro ⟨s', hs'⟩
        cases hparse.symm.trans hs'
      rw [hperform]
      exact ⟨fun h => .inr ⟨⟨hnone, fun _ hgives => hnone hgives.1⟩, h⟩,
        fun h => (h.resolve_left fun hgives => hnone hgives.1).2⟩

end Operation

def after (ops : List Operation) : Store :=
  ops.foldl (fun s op => (op.perform s).2) empty

/-- One of the operations gives the name the value, and those after it leave the name as it is. -/
def GivenLast (ops : List Operation) (name : String) (value : Constant) : Prop :=
  ∃ before op later, ops = before ++ op :: later ∧ op.Gives name value ∧ ∀ next ∈ later, next.Leaves name

theorem after_concat (ops : List Operation) (op : Operation) :
    after (ops ++ [op]) = (op.perform (after ops)).2 := by
  rw [after, List.foldl_append, List.foldl_cons, List.foldl_nil]
  rfl

theorem givenLast_concat {ops : List Operation} {op : Operation} {name : String} {value : Constant} :
    GivenLast (ops ++ [op]) name value ↔
      op.Gives name value ∨ op.Leaves name ∧ GivenLast ops name value := by
  constructor
  · rintro ⟨before, o, later, hops, hgives, hlater⟩
    rcases List.eq_nil_or_concat later with rfl | ⟨later, last, rfl⟩
    · obtain ⟨-, hlast⟩ := List.append_inj' hops rfl
      cases hlast
      exact .inl hgives
    · rw [List.concat_eq_append] at hops hlater
      rw [← List.cons_append, ← List.append_assoc] at hops
      obtain ⟨hinit, hlast⟩ := List.append_inj' hops rfl
      cases hlast
      refine .inr ⟨hlater op (List.mem_append_right _ List.mem_cons_self), before, o, later, hinit, hgives, ?_⟩
      exact fun next hnext => hlater next (List.mem_append_left _ hnext)
  · rintro (hgives | ⟨hleaves, before, o, later, rfl, hgives, hlater⟩)
    · exact ⟨ops, op, [], rfl, hgives, nofun⟩
    · refine ⟨before, o, later ++ [op], by simp, hgives, fun next hnext => ?_⟩
      rcases List.mem_append.mp hnext with hnext | hnext
      · exact hlater next hnext
      · rwa [List.mem_singleton.mp hnext]

theorem get?_after {ops : List Operation} {name : String} {value : Constant} :
    (after ops).get? name = some value ↔ GivenLast ops name value := by
  induction ops using List.reverseRecOn with
  | nil =>
    constructor
    · nofun
    · rintro ⟨before, op, later, hops, -⟩
      exact absurd hops.symm (List.append_ne_nil_of_right_ne_nil before (List.cons_ne_nil op later))
  | append_singleton ops op ih => rw [after_concat, Operation.get?_perform, ih, givenLast_concat]

theorem ncard_names (s : Store) : {name | (s.get? name).isSome = true}.ncard = s.size := by
  have hset : {name | (s.get? name).isSome = true} = (s.names.toFinset : Set String) := by
    ext name
    rw [Set.mem_ofPred_eq, Option.isSome_iff_exists, List.coe_toFinset, Set.mem_ofPred_eq, mem_names_iff]
  rw [hset, Set.ncard_coe_finset, List.toFinset_card_of_nodup s.names_nodup, names, List.length_map]
  rfl

theorem count_names (s : Store) (name : String) :
    s.names.count name = if (s.get? name).isSome then 1 else 0 := by
  have hmem : name ∈ s.names ↔ (s.get? name).isSome = true := by rw [mem_names_iff, Option.isSome_iff_exists]
  rw [s.names_nodup.count]
  simp only [hmem]

theorem eq_iff_get? {s s' : Store} : s = s' ↔ ∀ name, s.get? name = s'.get? name :=
  ⟨fun h _ => h ▸ rfl, ext_get?⟩

theorem after_insertions (pairs : List (String × Constant)) :
    after (pairs.map fun (name, value) => .insert name value) = ofList pairs := by
  rw [after, List.foldl_map]
  rfl

structure Recalls (ops : List Operation) : Prop where
  given : ∀ name value, (after ops).get? name = some value ↔ GivenLast ops name value
  never : ∀ name, (∀ op ∈ ops, ∀ value, ¬op.Gives name value) → (after ops).get? name = none
  ascending : (after ops).names.Pairwise fun a b => utf8Bytes a < utf8Bytes b
  once : ∀ name, (after ops).names.count name = if ((after ops).get? name).isSome then 1 else 0
  listed : (after ops).toList.map Prod.fst = (after ops).names ∧
    ∀ name value, (name, value) ∈ (after ops).toList ↔ (after ops).get? name = some value
  size : (after ops).size = {name | ((after ops).get? name).isSome = true}.ncard
  exchange : ∀ name value, (Operation.exchange name value).perform (after ops) =
    (.returned ((after ops).get? name), after (ops ++ [.exchange name value]))
  others : ∀ name value other, other ≠ name →
    (after (ops ++ [.exchange name value])).get? other = (after ops).get? other
  collect : ∀ pairs, after (ops ++ [.collect pairs]) = after (pairs.map fun (name, value) => .insert name value)
  permuted : ∀ pairs pairs', pairs.Perm pairs' → (pairs.map Prod.fst).Nodup →
    after (ops ++ [.collect pairs]) = after (ops ++ [.collect pairs'])
  equal : ∀ s, after ops = s ↔ ∀ name, (after ops).get? name = s.get? name

/-- Whatever is done with a store, each name has the value that it was given last since the store was replaced, and the
names stand once each in the order of their bytes. An exchange is about its one name, and the order in which constants
are taken in counts only where names recur. -/
theorem recalls_after (ops : List Operation) : Recalls ops where
  given _ _ := get?_after
  never name h := by
    refine Option.eq_none_iff_forall_ne_some.mpr fun value hvalue => ?_
    obtain ⟨before, op, later, rfl, hgives, -⟩ := get?_after.mp hvalue
    exact h op (List.mem_append_right before List.mem_cons_self) value hgives
  ascending := (after ops).names_pairwise_lt.imp utf8Bytes_lt
  once := (after ops).count_names
  listed := ⟨rfl, fun _ _ => mem_entries_iff⟩
  size := (after ops).ncard_names.symm
  exchange name value := by
    rw [after_concat]
    rfl
  others name value other hne := by
    rw [after_concat]
    exact (get?_insert (after ops) name other value).trans (if_neg hne)
  collect pairs := by
    rw [after_concat, after_insertions]
    exact collect_eq_ofList pairs
  permuted pairs pairs' hperm hnodup := by
    rw [after_concat, after_concat]
    exact collect_perm hperm hnodup
  equal _ := eq_iff_get?

example : (after [.insert "FP" (.int 1), .collect [("LSX", .int 0), ("FP", .int 2), ("FP", .bool true)],
    .read "[constants", .exchange "LAM" (.int 3)]).get? "FP" = some (.bool true) := by
  cbv

end BackendAssembly.Store
