import BackendAssembly.Proofs.StoreRoundTrip

namespace BackendAssembly

theorem lookup_eq_some_iff_mem {β : Type} {name : String} {value : β} {pairs : List (String × β)}
    (h : (pairs.map Prod.fst).Nodup) : pairs.lookup name = some value ↔ (name, value) ∈ pairs := by
  rw [List.lookup_eq_some_iff]
  constructor
  · rintro ⟨before, after, rfl, -⟩
    exact List.mem_append_right before List.mem_cons_self
  · intro hmem
    obtain ⟨before, after, rfl⟩ := List.append_of_mem hmem
    refine ⟨before, after, rfl, fun pair hpair => bne_iff_ne.mpr ?_⟩
    rw [List.map_append, List.map_cons, List.nodup_append] at h
    exact (h.2.2 pair.1 (List.mem_map_of_mem hpair) name List.mem_cons_self).symm

namespace Store

theorem mem_entries_iff {s : Store} {name : String} {value : Constant} :
    (name, value) ∈ s.entries ↔ s.get? name = some value :=
  (lookup_eq_some_iff_mem s.names_nodup).symm

theorem mem_names_iff {s : Store} {name : String} : name ∈ s.names ↔ ∃ value, s.get? name = some value := by
  rw [names, List.mem_map]
  constructor
  · rintro ⟨⟨_, value⟩, hentry, rfl⟩
    exact ⟨value, mem_entries_iff.mp hentry⟩
  · exact fun ⟨value, hvalue⟩ => ⟨(name, value), mem_entries_iff.mpr hvalue, rfl⟩

theorem ext_get? {s s' : Store} (h : ∀ name, s.get? name = s'.get? name) : s = s' := by
  have hmem : ∀ entry, entry ∈ s.entries ↔ entry ∈ s'.entries := fun (name, value) => by
    rw [mem_entries_iff, mem_entries_iff, h name]
  have hentries : s.entries = s'.entries := s.ascending.ext String.lt_asymm s'.ascending hmem
  cases s
  cases s'
  cases hentries
  rfl

theorem get?_insertAll (s : Store) (pairs : List (String × Constant)) (name : String) :
    (s.insertAll pairs).get? name = (pairs.reverse.lookup name).or (s.get? name) := by
  induction pairs generalizing s with
  | nil => rfl
  | cons pair pairs ih =>
    rw [insertAll_cons, ih, get?_insert, List.reverse_cons, List.lookup_append, Option.or_assoc, List.lookup_cons]
    by_cases h : name = pair.1
    · rw [if_pos h, h, beq_self_eq_true]
      rfl
    · rw [if_neg h, beq_eq_false_iff_ne.mpr h]
      rfl

theorem get?_ofList {pairs : List (String × Constant)} (h : (pairs.map Prod.fst).Nodup) {name : String}
    {value : Constant} : (ofList pairs).get? name = some value ↔ (name, value) ∈ pairs := by
  have hreverse : (pairs.reverse.map Prod.fst).Nodup := by
    rw [List.map_reverse]
    exact List.pairwise_reverse.mpr (h.imp Ne.symm)
  rw [ofList, get?_insertAll, get?_empty, Option.or_none, lookup_eq_some_iff_mem hreverse, List.mem_reverse]

theorem FirstInvalid.eq {s : Store} {name name' : String} (h : s.FirstInvalid name) (h' : s.FirstInvalid name') :
    name = name' := by
  rcases h.least name' h'.mem h'.invalid with heq | hlt
  · exact heq.symm
  · rcases h'.least name h.mem h.invalid with heq | hgt
    · exact heq
    · exact absurd hgt (List.lt_asymm hlt)

end Store

end BackendAssembly
