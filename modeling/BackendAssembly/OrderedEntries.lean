namespace BackendAssembly

variable {α κ : Type} [LT κ]

/-- Every key is below the keys that follow it, so no key stands twice. -/
def Ascending (key : α → κ) (entries : List α) : Prop :=
  entries.Pairwise fun a b => key a < key b

def insertByKey [DecidableLT κ] [DecidableEq κ] (key : α → κ) (x : α) : List α → List α
  | [] => [x]
  | y :: rest =>
    if key x < key y then x :: y :: rest
    else if key x = key y then x :: rest
    else y :: insertByKey key x rest

/-- Of neighbours with one key the last one stays. -/
def lastOfEach [DecidableEq κ] (key : α → κ) : List α → List α
  | x :: y :: rest => if key x = key y then lastOfEach key (y :: rest) else x :: lastOfEach key (y :: rest)
  | entries => entries

theorem ascending_nil (key : α → κ) : Ascending key [] :=
  List.Pairwise.nil

theorem Ascending.ext (hasymm : ∀ {k l : κ}, k < l → ¬l < k) {key : α → κ} {xs ys : List α} (hx : Ascending key xs)
    (hy : Ascending key ys) (h : ∀ a, a ∈ xs ↔ a ∈ ys) : xs = ys := by
  have hnodup : ∀ {zs : List α}, Ascending key zs → zs.Nodup := fun hz =>
    hz.imp fun {a b} hlt => by
      rintro rfl
      exact hasymm hlt hlt
  exact List.Perm.eq_of_pairwise (fun a b _ _ hlt hgt => absurd hgt (hasymm hlt)) hx hy
    ((List.perm_ext_iff_of_nodup (hnodup hx) (hnodup hy)).mpr h)

theorem mem_insertByKey [DecidableLT κ] [DecidableEq κ] {key : α → κ} {x y : α} {entries : List α}
    (h : y ∈ insertByKey key x entries) : y = x ∨ y ∈ entries := by
  induction entries with
  | nil => simpa [insertByKey] using h
  | cons z rest ih =>
    unfold insertByKey at h
    split at h
    · simpa using h
    · split at h
      · rcases List.mem_cons.mp h with rfl | h
        · exact .inl rfl
        · exact .inr (List.mem_cons_of_mem z h)
      · rcases List.mem_cons.mp h with rfl | h
        · exact .inr List.mem_cons_self
        · rcases ih h with rfl | h
          · exact .inl rfl
          · exact .inr (List.mem_cons_of_mem z h)

theorem self_mem_insertByKey [DecidableLT κ] [DecidableEq κ] (key : α → κ) (x : α) (entries : List α) :
    x ∈ insertByKey key x entries := by
  induction entries with
  | nil => simp [insertByKey]
  | cons y rest ih =>
    unfold insertByKey
    split
    · simp
    · split
      · simp
      · exact List.mem_cons_of_mem y ih

theorem mem_insertByKey_iff [DecidableLT κ] [DecidableEq κ] {key : α → κ} (hkey : ∀ {a b}, key a = key b → a = b)
    {x y : α} {entries : List α} : y ∈ insertByKey key x entries ↔ y = x ∨ y ∈ entries := by
  refine ⟨mem_insertByKey, fun h => ?_⟩
  rcases h with rfl | h
  · exact self_mem_insertByKey key y entries
  · induction entries with
    | nil => cases h
    | cons z rest ih =>
      unfold insertByKey
      split
      · exact List.mem_cons_of_mem x h
      · split
        next heq => exact hkey heq ▸ h
        next =>
          rcases List.mem_cons.mp h with rfl | h
          · exact List.mem_cons_self
          · exact List.mem_cons_of_mem z (ih h)

omit [LT κ] in
theorem lookup_cons_ite {β : Type} [DecidableEq κ] (entry : κ × β) (entries : List (κ × β)) (k : κ) :
    (entry :: entries).lookup k = if k = entry.1 then some entry.2 else entries.lookup k := by
  rw [List.lookup_cons]
  by_cases h : k = entry.1
  · simp [h]
  · rw [beq_eq_false_iff_ne.mpr h, if_neg h]

omit [LT κ] in
/-- Of the entries of one key the last one is the first from the end. -/
theorem lookup_reverse_eq_some_iff {β : Type} [DecidableEq κ] {entries : List (κ × β)} {k : κ} {value : β} :
    entries.reverse.lookup k = some value ↔
      ∃ before after, entries = before ++ (k, value) :: after ∧ ∀ entry ∈ after, entry.1 ≠ k := by
  rw [List.lookup_eq_some_iff]
  constructor
  · rintro ⟨later, earlier, hreverse, hlater⟩
    refine ⟨earlier.reverse, later.reverse, ?_, fun entry hentry => ?_⟩
    · have hentries := congrArg List.reverse hreverse
      rw [List.reverse_reverse] at hentries
      rw [hentries, List.reverse_append, List.reverse_cons, List.append_assoc, List.singleton_append]
    · exact (bne_iff_ne.mp (hlater entry (List.mem_reverse.mp hentry))).symm
  · rintro ⟨before, after, rfl, hafter⟩
    refine ⟨after.reverse, before.reverse, by simp, fun entry hentry => ?_⟩
    exact bne_iff_ne.mpr (hafter entry (List.mem_reverse.mp hentry)).symm

theorem lookup_insertByKey {β : Type} [DecidableLT κ] [DecidableEq κ] (name : κ) (value : β)
    (entries : List (κ × β)) (k : κ) :
    (insertByKey Prod.fst (name, value) entries).lookup k =
      if k = name then some value else entries.lookup k := by
  induction entries with
  | nil => exact lookup_cons_ite (name, value) [] k
  | cons z rest ih =>
    obtain ⟨n, v⟩ := z
    unfold insertByKey
    split
    · exact lookup_cons_ite (name, value) _ k
    · split
      next heq =>
        have heq : name = n := heq
        rw [lookup_cons_ite, lookup_cons_ite, heq]
        split <;> rfl
      next hne =>
        have hne : name ≠ n := hne
        rw [lookup_cons_ite, lookup_cons_ite, ih]
        by_cases hk : k = n
        · rw [if_pos hk, if_pos hk, if_neg (hk ▸ hne.symm)]
        · rw [if_neg hk, if_neg hk]

theorem ascending_insertByKey [DecidableLT κ] [DecidableEq κ] [Std.Trichotomous (α := κ) (· < ·)]
    [Trans (α := κ) (β := κ) (γ := κ) (· < ·) (· < ·) (· < ·)] {key : α → κ} (x : α) {entries : List α}
    (h : Ascending key entries) : Ascending key (insertByKey key x entries) := by
  induction entries with
  | nil => simp [insertByKey, Ascending]
  | cons y rest ih =>
    obtain ⟨hy, hrest⟩ := List.pairwise_cons.mp h
    unfold insertByKey
    split
    next hlt =>
      refine List.pairwise_cons.mpr ⟨fun z hz => ?_, h⟩
      rcases List.mem_cons.mp hz with rfl | hz
      · exact hlt
      · exact Trans.trans hlt (hy z hz)
    next hlt =>
      split
      next heq => exact List.pairwise_cons.mpr ⟨fun z hz => heq ▸ hy z hz, hrest⟩
      next hne =>
        refine List.pairwise_cons.mpr ⟨fun z hz => ?_, ih hrest⟩
        rcases mem_insertByKey hz with rfl | hz
        · exact Decidable.byContradiction fun hgt => hne (Std.Trichotomous.trichotomous _ _ hlt hgt)
        · exact hy z hz

omit [LT κ] in
theorem mem_of_mem_lastOfEach [DecidableEq κ] {key : α → κ} {x : α} {entries : List α}
    (h : x ∈ lastOfEach key entries) : x ∈ entries := by
  fun_induction lastOfEach key entries with
  | case1 y z rest _ ih => exact List.mem_cons_of_mem y (ih h)
  | case2 y z rest _ ih =>
    rcases List.mem_cons.mp h with rfl | h
    · exact List.mem_cons_self
    · exact List.mem_cons_of_mem y (ih h)
  | case3 => exact h

section Sorted

variable [DecidableLT κ] [Std.Trichotomous (α := κ) (· < ·)]

theorem ne_of_sorted_cons {key : α → κ} {x y z : α} {rest : List α}
    (h : (x :: y :: rest).Pairwise fun a b => ¬key b < key a) (hne : key x ≠ key y) (hz : z ∈ y :: rest) :
    key x ≠ key z := by
  obtain ⟨hx, hrest⟩ := List.pairwise_cons.mp h
  have hlt : key x < key y := Decidable.byContradiction fun hlt =>
    hne (Std.Trichotomous.trichotomous _ _ hlt (hx y List.mem_cons_self))
  intro heq
  rcases List.mem_cons.mp hz with rfl | hz
  · exact hne heq
  · exact (List.pairwise_cons.mp hrest).1 z hz (heq ▸ hlt)

theorem ascending_lastOfEach [DecidableEq κ] {key : α → κ} {entries : List α}
    (h : entries.Pairwise fun a b => ¬key b < key a) : Ascending key (lastOfEach key entries) := by
  fun_induction lastOfEach key entries with
  | case1 x y rest _ ih => exact ih h.of_cons
  | case2 x y rest hne ih =>
    refine List.pairwise_cons.mpr ⟨fun z hz => ?_, ih h.of_cons⟩
    have hmem : z ∈ y :: rest := mem_of_mem_lastOfEach hz
    have hge := (List.pairwise_cons.mp h).1 z hmem
    exact Decidable.byContradiction fun hlt =>
      ne_of_sorted_cons h hne hmem (Std.Trichotomous.trichotomous _ _ hlt hge)
  | case3 entries hshort =>
    rcases entries with _ | ⟨x, _ | ⟨y, rest⟩⟩
    · exact .nil
    · exact List.pairwise_singleton _ _
    · exact absurd rfl (hshort x y rest)

theorem lookup_lastOfEach [DecidableEq κ] {β : Type} {entries : List (κ × β)}
    (h : entries.Pairwise fun a b => ¬b.1 < a.1) (k : κ) :
    (lastOfEach Prod.fst entries).lookup k = entries.reverse.lookup k := by
  have hcons : ∀ (x : κ × β) rest, (x :: rest).reverse.lookup k =
      (rest.reverse.lookup k).or (if k = x.1 then some x.2 else none) := fun x rest => by
    rw [List.reverse_cons, List.lookup_append, lookup_cons_ite, List.lookup_nil]
  fun_induction lastOfEach Prod.fst entries with
  | case1 x y rest heq ih =>
    -- The neighbour has the same key, and it is found in place of this one.
    rw [ih h.of_cons, hcons x]
    by_cases hk : k = x.1
    · rw [hcons, if_pos (hk.trans heq), Option.or_assoc]
      rfl
    · rw [if_neg hk, Option.or_none]
  | case2 x y rest hne ih =>
    rw [hcons x, ← ih h.of_cons, lookup_cons_ite]
    by_cases hk : k = x.1
    · have hnone : (lastOfEach Prod.fst (y :: rest)).lookup k = none := by
        refine List.lookup_eq_none_iff.mpr fun z hz => bne_iff_ne.mpr ?_
        rw [hk]
        exact ne_of_sorted_cons h hne (mem_of_mem_lastOfEach hz)
      rw [hnone, if_pos hk]
      rfl
    · rw [if_neg hk, if_neg hk, Option.or_none]
  | case3 entries hshort =>
    rcases entries with _ | ⟨x, _ | ⟨y, rest⟩⟩
    · rfl
    · rfl
    · exact absurd rfl (hshort x y rest)

end Sorted

end BackendAssembly
