import BackendAssembly.Target

namespace BackendAssembly

theorem Constant.isTruthy_iff {value : Constant} : value.isTruthy = true ↔ value ≠ .bool false ∧ value ≠ .int 0 := by
  cases value with
  | bool b => cases b <;> simp [isTruthy]
  | int n => simp [isTruthy]

namespace Store

/-- A constant is there, and it is neither a switch that is off nor the number zero. -/
def Asserts (s : Store) (name : String) : Prop :=
  ∃ value, s.get? name = some value ∧ value ≠ .bool false ∧ value ≠ .int 0

def Provides (s : Store) (a : Aliases) (feature : CpuFeature) : Prop :=
  s.Asserts feature.constantName ∨
    ∃ published, a.get? feature.constantName = some published ∧ s.Asserts published

variable {s : Store} {a : Aliases} {name : String}

theorem isSet_iff : s.isSet name = true ↔ s.Asserts name := by
  unfold isSet Asserts
  rw [Option.any_eq_true]
  constructor
  · rintro ⟨value, hget, htruthy⟩
    exact ⟨value, hget, Constant.isTruthy_iff.mp htruthy⟩
  · rintro ⟨value, hget, hvalue⟩
    exact ⟨value, hget, Constant.isTruthy_iff.mpr hvalue⟩

theorem enables_iff : s.enables a name = true ↔
    s.Asserts name ∨ ∃ published, a.get? name = some published ∧ s.Asserts published := by
  unfold enables
  rw [Bool.or_eq_true, isSet_iff, Option.any_eq_true]
  simp only [isSet_iff]

theorem provides_congr {s' : Store} {a' : Aliases} {feature : CpuFeature}
    (halias : a.get? feature.constantName = a'.get? feature.constantName)
    (hown : s.Asserts feature.constantName ↔ s'.Asserts feature.constantName)
    (hpublished : ∀ published, a.get? feature.constantName = some published →
      (s.Asserts published ↔ s'.Asserts published)) : s.Provides a feature ↔ s'.Provides a' feature := by
  unfold Provides
  rw [← halias, hown]
  refine or_congr_right (exists_congr fun published => and_congr_right fun h => ?_)
  exact hpublished published h

theorem asserts_insert {value : Constant} {k : String} : (s.insert k value).Asserts name ↔
    if name = k then value.isTruthy = true else s.Asserts name := by
  unfold Asserts
  rw [get?_insert]
  by_cases h : name = k
  · rw [if_pos h, if_pos h, Constant.isTruthy_iff]
    constructor
    · rintro ⟨_, ⟨⟩, hvalue⟩
      exact hvalue
    · exact fun hvalue => ⟨value, rfl, hvalue⟩
  · rw [if_neg h, if_neg h]

end Store

namespace Target

def switches : List String :=
  ["useLSX", "useLASX", "useCompressedOops"]

/-- The constants that a target can depend on under some aliases. -/
def Reads (a : Aliases) (name : String) : Prop :=
  name ∈ switches ∨ ∃ feature : CpuFeature, name = feature.constantName ∨ a.get? feature.constantName = some name

theorem constantName_ne_of_mem_switches {name : String} (h : name ∈ switches) (feature : CpuFeature) :
    feature.constantName ≠ name := by
  have hall : ∀ name ∈ switches, ∀ feature ∈ CpuFeature.all, feature.constantName ≠ name := by decide
  exact hall name h feature feature.mem_all

variable {s s' : Store} {a a' : Aliases}

theorem mem_features_ofStore {feature : CpuFeature} :
    feature ∈ (ofStore s a).arch.features.toList ↔ s.Provides a feature :=
  mem_capabilities.trans <| (and_iff_right feature.mem_all).trans Store.enables_iff

theorem mem_flags_ofStore {flag : TuningFlag} :
    flag ∈ (ofStore s a).arch.flags.toList ↔ s.Asserts flag.constantName :=
  Store.mem_flags.trans Store.isSet_iff

theorem compressedOops_ofStore : (ofStore s a).compressedOops = true ↔ s.Asserts "useCompressedOops" :=
  Store.isSet_iff

theorem ext_mem {t t' : Target} (hfeatures : ∀ f, f ∈ t.arch.features.toList ↔ f ∈ t'.arch.features.toList)
    (hflags : ∀ f, f ∈ t.arch.flags.toList ↔ f ∈ t'.arch.flags.toList)
    (hoops : t.compressedOops = true ↔ t'.compressedOops = true) : t = t' := by
  obtain ⟨⟨features, flags⟩, oops⟩ := t
  obtain ⟨⟨features', flags'⟩, oops'⟩ := t'
  have hfeatures : features = features' := SwitchSet.ext_mem hfeatures
  have hflags : flags = flags' := SwitchSet.ext_mem hflags
  have hoops : oops = oops' := Bool.eq_iff_iff.mpr hoops
  rw [hfeatures, hflags, hoops]

/-- Nothing is lost: the target tells of each feature whether it is provided, and of each switch whether it is on. -/
theorem ofStore_eq_ofStore_iff : ofStore s a = ofStore s' a' ↔
    (∀ feature, s.Provides a feature ↔ s'.Provides a' feature) ∧
      ∀ name ∈ switches, (s.Asserts name ↔ s'.Asserts name) := by
  constructor
  · intro h
    have hflag : ∀ flag : TuningFlag, s.Asserts flag.constantName ↔ s'.Asserts flag.constantName := fun flag => by
      rw [← mem_flags_ofStore (a := a), h, mem_flags_ofStore]
    have hoops : s.Asserts "useCompressedOops" ↔ s'.Asserts "useCompressedOops" := by
      rw [← compressedOops_ofStore (a := a), h, compressedOops_ofStore]
    refine ⟨fun feature => ?_, fun name hname => ?_⟩
    · rw [← mem_features_ofStore, h, mem_features_ofStore]
    · simp only [switches, List.mem_cons, List.not_mem_nil, or_false] at hname
      rcases hname with rfl | rfl | rfl
      · exact hflag .useLsx
      · exact hflag .useLasx
      · exact hoops
  · rintro ⟨hfeatures, hswitches⟩
    refine ext_mem (fun feature => ?_) (fun flag => ?_) ?_
    · rw [mem_features_ofStore, mem_features_ofStore, hfeatures feature]
    · rw [mem_flags_ofStore, mem_flags_ofStore]
      cases flag
      · exact hswitches "useLSX" (by decide)
      · exact hswitches "useLASX" (by decide)
    · rw [compressedOops_ofStore, compressedOops_ofStore]
      exact hswitches "useCompressedOops" (by decide)

theorem ofStore_eq_of_asserts (h : ∀ name, Reads a name → (s.Asserts name ↔ s'.Asserts name)) :
    ofStore s a = ofStore s' a := by
  refine ofStore_eq_ofStore_iff.mpr ⟨fun feature => ?_, fun name hname => h name (.inl hname)⟩
  refine Store.provides_congr rfl (h _ (.inr ⟨feature, .inl rfl⟩)) fun published hpublished => ?_
  exact h published (.inr ⟨feature, .inr hpublished⟩)

theorem ofStore_eq_of_get? (h : ∀ name, Reads a name → s.get? name = s'.get? name) :
    ofStore s a = ofStore s' a := by
  refine ofStore_eq_of_asserts fun name hname => ?_
  unfold Store.Asserts
  rw [h name hname]

theorem ofStore_eq_of_aliases (h : ∀ feature : CpuFeature, a.get? feature.constantName = a'.get? feature.constantName) :
    ofStore s a = ofStore s a' := by
  refine ofStore_eq_ofStore_iff.mpr ⟨fun feature => ?_, fun _ _ => Iff.rfl⟩
  exact Store.provides_congr (h feature) Iff.rfl fun _ _ => Iff.rfl

theorem ofStore_insert_falsy {name : String} {value : Constant} (hvalue : value.isTruthy = false)
    (habsent : s.get? name = none) : ofStore (s.insert name value) a = ofStore s a := by
  refine ofStore_eq_of_asserts fun k _ => ?_
  rw [Store.asserts_insert]
  by_cases h : k = name
  · subst h
    rw [if_pos rfl, hvalue]
    constructor
    · exact nofun
    · rintro ⟨_, hget, -⟩
      cases habsent.symm.trans hget
  · rw [if_neg h]

theorem ofStore_insert_truthy {name : String} {value value' : Constant} (hvalue : value.isTruthy = true)
    (hvalue' : value'.isTruthy = true) : ofStore (s.insert name value) a = ofStore (s.insert name value') a := by
  refine ofStore_eq_of_asserts fun k _ => ?_
  rw [Store.asserts_insert, Store.asserts_insert, hvalue, hvalue']

/-- How the targets of two stores, each under aliases of its own, go together with what the stores assert. -/
structure Depends (s s' : Store) (a a' : Aliases) : Prop where
  eq_iff : ofStore s a = ofStore s' a' ↔ (∀ feature, s.Provides a feature ↔ s'.Provides a' feature) ∧
    ∀ name ∈ switches, (s.Asserts name ↔ s'.Asserts name)
  unread : (∀ name, Reads a name → s.get? name = s'.get? name) → ofStore s a = ofStore s' a
  asserted : (∀ name, Reads a name → (s.Asserts name ↔ s'.Asserts name)) → ofStore s a = ofStore s' a
  number : ∀ name n, n ≠ 0 → ofStore (s.insert name (.int n)) a = ofStore (s.insert name (.bool true)) a
  falsy : ∀ name, s.get? name = none → ofStore (s.insert name (.bool false)) a = ofStore s a ∧
    ofStore (s.insert name (.int 0)) a = ofStore s a
  aliases : (∀ feature : CpuFeature, a.get? feature.constantName = a'.get? feature.constantName) →
    ofStore s a = ofStore s a'
  unnamed : ∀ canonical published, (canonical ∈ switches ∨ ∀ feature : CpuFeature, feature.constantName ≠ canonical) →
    ofStore s (a.add canonical published) = ofStore s a

theorem depends_ofStore (s s' : Store) (a a' : Aliases) : Depends s s' a a' where
  eq_iff := ofStore_eq_ofStore_iff
  unread := ofStore_eq_of_get?
  asserted := ofStore_eq_of_asserts
  number name n hn := ofStore_insert_truthy (Constant.isTruthy_iff.mpr ⟨nofun, fun h => hn (Constant.int.inj h)⟩) rfl
  falsy name h := ⟨ofStore_insert_falsy rfl h, ofStore_insert_falsy rfl h⟩
  aliases := ofStore_eq_of_aliases
  unnamed canonical published h := by
    have hne : ∀ feature : CpuFeature, feature.constantName ≠ canonical :=
      h.elim constantName_ne_of_mem_switches id
    refine ofStore_eq_of_aliases fun feature => ?_
    rw [Aliases.get?_add, if_neg (hne feature)]

end Target

end BackendAssembly
