import BackendAssembly.OrderedEntries

namespace BackendAssembly

/-- A closed enumeration whose members are switched on by named constants. The rank orders the members; the list of
all of them may stand in any order. -/
class Switchable (K : Type) where
  all : List K
  constantName : K → String
  rank : K → Nat
  rank_injective : ∀ {a b : K}, rank a = rank b → a = b

def Switchable.ofConstantName? {K : Type} [Switchable K] (name : String) : Option K :=
  (Switchable.all (K := K)).find? fun k => Switchable.constantName k == name

structure SwitchSet (K : Type) [Switchable K] where
  members : List K
  ascending : Ascending Switchable.rank members

namespace SwitchSet

variable {K : Type} [Switchable K]

instance [DecidableEq K] : DecidableEq (SwitchSet K) := fun s t =>
  decidable_of_iff (s.members = t.members) ⟨fun h => by cases s; cases t; cases h; rfl, fun h => h ▸ rfl⟩

def empty : SwitchSet K :=
  ⟨[], ascending_nil _⟩

instance : EmptyCollection (SwitchSet K) := ⟨empty⟩

def insert (s : SwitchSet K) (k : K) : SwitchSet K :=
  ⟨insertByKey Switchable.rank k s.members, ascending_insertByKey _ s.ascending⟩

def ofList (ks : List K) : SwitchSet K :=
  ks.foldl insert empty

def toList (s : SwitchSet K) : List K :=
  s.members

def size (s : SwitchSet K) : Nat :=
  s.members.length

def contains [BEq K] (s : SwitchSet K) (k : K) : Bool :=
  s.members.contains k

def names (s : SwitchSet K) : List String :=
  s.members.map Switchable.constantName

theorem mem_insert {s : SwitchSet K} {j k : K} : j ∈ (s.insert k).toList ↔ j = k ∨ j ∈ s.toList :=
  mem_insertByKey_iff Switchable.rank_injective

theorem mem_foldl_insert {ks : List K} {s : SwitchSet K} {j : K} :
    j ∈ (ks.foldl insert s).toList ↔ j ∈ ks ∨ j ∈ s.toList := by
  induction ks generalizing s with
  | nil => simp
  | cons k ks ih =>
    rw [List.foldl_cons, ih, mem_insert, List.mem_cons]
    constructor
    · rintro (h | h | h)
      · exact .inl (.inr h)
      · exact .inl (.inl h)
      · exact .inr h
    · rintro ((h | h) | h)
      · exact .inr (.inl h)
      · exact .inl h
      · exact .inr (.inr h)

theorem nodup_toList (s : SwitchSet K) : s.toList.Nodup :=
  s.ascending.imp fun {a b} hlt => by
    rintro rfl
    exact Nat.lt_irrefl _ hlt

theorem ext_mem {s t : SwitchSet K} (h : ∀ k, k ∈ s.toList ↔ k ∈ t.toList) : s = t := by
  have hmembers : s.members = t.members := s.ascending.ext Nat.lt_asymm t.ascending h
  cases s
  cases t
  cases hmembers
  rfl

theorem mem_ofList {ks : List K} {j : K} : j ∈ (ofList ks).toList ↔ j ∈ ks := by
  rw [ofList, mem_foldl_insert]
  exact or_iff_left List.not_mem_nil

end SwitchSet

end BackendAssembly
