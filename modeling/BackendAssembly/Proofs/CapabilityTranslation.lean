import BackendAssembly.Proofs.TargetDependence

namespace BackendAssembly

open Switchable (constantName rank)

namespace Aliases

/-- Of the pairs for the canonical name, the last one has this published name. -/
def PublishedLast (pairs : List (String × String)) (canonical published : String) : Prop :=
  ∃ before after, pairs = before ++ (canonical, published) :: after ∧ ∀ pair ∈ after, pair.1 ≠ canonical

theorem pairs_ofList (pairs : List (String × String)) : (ofList pairs).pairs = pairs.reverse := by
  have hfold : ∀ a : Aliases,
      (pairs.foldl (fun a pair => a.add pair.1 pair.2) a).pairs = pairs.reverse ++ a.pairs := by
    induction pairs with
    | nil => exact fun a => rfl
    | cons pair pairs ih =>
      intro a
      rw [List.foldl_cons, ih, List.reverse_cons, List.append_assoc]
      rfl
  rw [ofList, hfold]
  exact List.append_nil _

variable {pairs : List (String × String)} {canonical published : String}

theorem get?_ofList :
    (ofList pairs).get? canonical = some published ↔ PublishedLast pairs canonical published := by
  rw [get?, pairs_ofList]
  exact lookup_reverse_eq_some_iff

theorem PublishedLast.eq {other : String} (h : PublishedLast pairs canonical published)
    (h' : PublishedLast pairs canonical other) : published = other :=
  Option.some.inj ((get?_ofList.mpr h).symm.trans (get?_ofList.mpr h'))

end Aliases

section Enabled

variable {K : Type} [Switchable K] {s : Store} {pairs : List (String × String)} {k : K}

theorem mem_capabilities_ofList : k ∈ (capabilities K s (.ofList pairs)).toList ↔ k ∈ Switchable.all ∧
    (s.Asserts (constantName k) ∨
      ∃ published, Aliases.PublishedLast pairs (constantName k) published ∧ s.Asserts published) := by
  rw [mem_capabilities, Store.enables_iff]
  simp only [Aliases.get?_ofList]

theorem mem_capabilities_insert {name : String} {value : Constant} (hown : name ≠ constantName k)
    (hpublished : ¬Aliases.PublishedLast pairs (constantName k) name) :
    k ∈ (capabilities K (s.insert name value) (.ofList pairs)).toList ↔
      k ∈ (capabilities K s (.ofList pairs)).toList := by
  have hasserts : ∀ {other}, other ≠ name → ((s.insert name value).Asserts other ↔ s.Asserts other) := fun hne => by
    rw [Store.asserts_insert, if_neg hne]
  rw [mem_capabilities_ofList, mem_capabilities_ofList, hasserts hown.symm]
  refine and_congr_right fun _ => or_congr_right (exists_congr fun published => and_congr_right fun hlast => ?_)
  refine hasserts ?_
  rintro rfl
  exact hpublished hlast

theorem asserts_singleton {name other : String} {value : Constant} (hvalue : value.isTruthy = true) :
    (Store.ofList [(name, value)]).Asserts other ↔ other = name := by
  have hempty : ¬Store.empty.Asserts other := fun ⟨_, hget, _⟩ => nomatch hget
  refine Store.asserts_insert.trans ?_
  by_cases h : other = name
  · rw [if_pos h]
    exact iff_of_true hvalue h
  · rw [if_neg h]
    exact iff_of_false hempty h

theorem mem_capabilities_singleton {name : String} {value : Constant} (hvalue : value.isTruthy = true) :
    k ∈ (capabilities K (.ofList [(name, value)]) (.ofList pairs)).toList ↔ k ∈ Switchable.all ∧
      (constantName k = name ∨ Aliases.PublishedLast pairs (constantName k) name) := by
  rw [mem_capabilities_ofList]
  simp only [asserts_singleton hvalue, exists_eq_right]

@[reducible]
def Switchable.relisted (K : Type) [Switchable K] (all : List K) : Switchable K where
  all := all
  constantName := constantName
  rank := rank
  rank_injective := Switchable.rank_injective

theorem toList_capabilities_relisted {all : List K} (hall : ∀ k, k ∈ all ↔ k ∈ Switchable.all) (a : Aliases) :
    @SwitchSet.toList K (.relisted K all) (@capabilities K (.relisted K all) s a) = (capabilities K s a).toList := by
  have hrelisted := @SwitchSet.ascending K (.relisted K all) (@capabilities K (.relisted K all) s a)
  refine Ascending.ext Nat.lt_asymm hrelisted (capabilities K s a).ascending fun k => ?_
  refine (@mem_capabilities K (.relisted K all) s a k).trans (Iff.trans ?_ mem_capabilities.symm)
  exact and_congr_left fun _ => hall k

end Enabled

structure Enabled (K : Type) [Switchable K] (s : Store) (pairs : List (String × String)) : Prop where
  mem : ∀ k : K, k ∈ (capabilities K s (.ofList pairs)).toList ↔ k ∈ Switchable.all ∧
    (s.Asserts (constantName k) ∨
      ∃ published, Aliases.PublishedLast pairs (constantName k) published ∧ s.Asserts published)
  nodup : (capabilities K s (.ofList pairs)).toList.Nodup
  ordered : (capabilities K s (.ofList pairs)).toList.Pairwise fun a b => rank a < rank b
  relisted : ∀ all : List K, (∀ k, k ∈ all ↔ k ∈ Switchable.all) →
    @SwitchSet.toList K (.relisted K all) (@capabilities K (.relisted K all) s (.ofList pairs)) =
      (capabilities K s (.ofList pairs)).toList
  chained : ∀ (k : K) published further value, Aliases.PublishedLast pairs (constantName k) published →
    Aliases.PublishedLast pairs published further → further ≠ constantName k → further ≠ published →
      (k ∈ (capabilities K (s.insert further value) (.ofList pairs)).toList ↔
        k ∈ (capabilities K s (.ofList pairs)).toList)
  replaced : ∀ (k : K) earlier published value, (constantName k, earlier) ∈ pairs →
    Aliases.PublishedLast pairs (constantName k) published → earlier ≠ constantName k → earlier ≠ published →
      (k ∈ (capabilities K (s.insert earlier value) (.ofList pairs)).toList ↔
        k ∈ (capabilities K s (.ofList pairs)).toList)
  unopposed : ∀ k ∈ (Switchable.all : List K), ∀ published value,
    Aliases.PublishedLast pairs (constantName k) published → published ≠ constantName k → s.Asserts published →
      k ∈ (capabilities K (s.insert (constantName k) value) (.ofList pairs)).toList
  alone : ∀ name value, value.isTruthy = true → ∀ k : K,
    k ∈ (capabilities K (.ofList [(name, value)]) (.ofList pairs)).toList ↔ k ∈ Switchable.all ∧
      (constantName k = name ∨ Aliases.PublishedLast pairs (constantName k) name)

/-- A member is switched on by its own constant or by the one that its last alias names, and by nothing else: aliases
are not followed further, replaced ones do not count, and a canonical constant that is off stands in no alias's way.
What is switched on is listed by rank. -/
theorem enabled_capabilities (K : Type) [Switchable K] (s : Store) (pairs : List (String × String)) :
    Enabled K s pairs where
  mem _ := mem_capabilities_ofList
  nodup := SwitchSet.nodup_toList _
  ordered := SwitchSet.ascending _
  relisted _ hall := toList_capabilities_relisted hall _
  chained _ _ _ _ hlast _ hown hne := mem_capabilities_insert hown fun h => hne (h.eq hlast)
  replaced _ _ _ _ _ hlast hown hne := mem_capabilities_insert hown fun h => hne (h.eq hlast)
  unopposed _ hk published _ hlast hne hasserts := by
    refine mem_capabilities_ofList.mpr ⟨hk, .inr ⟨published, hlast, ?_⟩⟩
    rwa [Store.asserts_insert, if_neg hne]
  alone _ _ hvalue _ := mem_capabilities_singleton hvalue

example : (capabilities CpuFeature (.ofList [("VECTORS", .int 256), ("SIMD", .bool true)])
    (.ofList [("LSX", "SIMD"), ("LASX", "VECTORS"), ("LSX", "VECTORS"), ("FP", "LASX")])).toList = [.lsx, .lasx] := by
  decide

namespace Store

variable {s : Store} {a : Aliases}

theorem mem_tuningFlags {flag : TuningFlag} : flag ∈ (capabilities TuningFlag s a).toList ↔
    s.Asserts flag.constantName ∨ ∃ published, a.get? flag.constantName = some published ∧ s.Asserts published :=
  mem_capabilities.trans <| (and_iff_right flag.mem_all).trans enables_iff

theorem mem_flags_iff {flag : TuningFlag} : flag ∈ s.flags.toList ↔ s.Asserts flag.constantName :=
  mem_flags.trans isSet_iff

/-- Flags that know no aliases are the same as flags that do, unless an alias switches one on. -/
theorem flags_eq_iff : s.flags = capabilities TuningFlag s a ↔
    ¬∃ (flag : TuningFlag) (published : String), ¬s.Asserts flag.constantName ∧
      a.get? flag.constantName = some published ∧ s.Asserts published := by
  constructor
  · rintro heq ⟨flag, published, hoff, hget, hon⟩
    have hmem : flag ∈ s.flags.toList := heq ▸ mem_tuningFlags.mpr (.inr ⟨published, hget, hon⟩)
    exact hoff (mem_flags_iff.mp hmem)
  · intro hnone
    refine SwitchSet.ext_mem fun flag => ?_
    rw [mem_flags_iff, mem_tuningFlags]
    refine ⟨.inl, fun h => h.elim id fun ⟨published, hget, hon⟩ => ?_⟩
    exact Classical.byContradiction fun hoff => hnone ⟨flag, published, hoff, hget, hon⟩

/-- A store with nothing but the published constant tells a flag with an alias of another name from one without. -/
theorem forall_flags_eq_iff : (∀ s : Store, s.flags = capabilities TuningFlag s a) ↔
    ∀ (flag : TuningFlag) published, a.get? flag.constantName = some published → published = flag.constantName := by
  constructor
  · intro hall flag published hget
    let lone : Store := .ofList [(published, .bool true)]
    have hasserts : ∀ {name}, lone.Asserts name ↔ name = published := asserts_singleton rfl
    refine Decidable.byContradiction fun hne => ?_
    refine flags_eq_iff.mp (hall lone) ⟨flag, published, ?_, hget, hasserts.mpr rfl⟩
    exact fun hon => hne (hasserts.mp hon).symm
  · intro hown s
    refine flags_eq_iff.mpr ?_
    rintro ⟨flag, published, hoff, hget, hon⟩
    exact hoff (hown flag published hget ▸ hon)

/-- How the flags that are looked up one by one go together with the flags of the general translation. -/
structure ComparedFlags (s : Store) (a : Aliases) : Prop where
  subset : ∀ flag ∈ s.flags.toList, flag ∈ (capabilities TuningFlag s a).toList
  eq_iff : s.flags = capabilities TuningFlag s a ↔
    ¬∃ (flag : TuningFlag) (published : String), ¬s.Asserts flag.constantName ∧
      a.get? flag.constantName = some published ∧ s.Asserts published
  everywhere : (∀ s' : Store, s'.flags = capabilities TuningFlag s' a) ↔
    ∀ (flag : TuningFlag) published, a.get? flag.constantName = some published → published = flag.constantName
  unaliased : a.get? "useLSX" = none → a.get? "useLASX" = none →
    ∀ s' : Store, s'.flags = capabilities TuningFlag s' a

theorem compared_flags (s : Store) (a : Aliases) : ComparedFlags s a where
  subset _ hflag := mem_tuningFlags.mpr (.inl (mem_flags_iff.mp hflag))
  eq_iff := flags_eq_iff
  everywhere := forall_flags_eq_iff
  unaliased hlsx hlasx := forall_flags_eq_iff.mpr fun flag published hget => by
    cases flag with
    | useLsx => cases hlsx.symm.trans hget
    | useLasx => cases hlasx.symm.trans hget

end Store

end BackendAssembly
