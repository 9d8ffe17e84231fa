import BackendAssembly.Registry

namespace BackendAssembly

def Factory.goesBy (name : String) (f : Factory) : Bool :=
  f.architecture == name

theorem Factory.goesBy_iff {name : String} {f : Factory} : f.goesBy name = true ↔ f.architecture = name :=
  beq_iff_eq

theorem Factory.find?_goesBy_eq_none {name : String} {fs : List Factory} :
    fs.find? (goesBy name) = none ↔ ∀ f ∈ fs, f.architecture ≠ name := by
  simp only [List.find?_eq_none, goesBy_iff, ne_eq]

theorem Factory.find?_goesBy_eq_some {name : String} {fs : List Factory} {f : Factory} :
    fs.find? (goesBy name) = some f ↔
      ∃ before after, fs = before ++ f :: after ∧ f.architecture = name ∧ ∀ g ∈ before, g.architecture ≠ name := by
  rw [List.find?_eq_some_iff_append, goesBy_iff]
  constructor
  · rintro ⟨hname, before, after, hfs, hbefore⟩
    refine ⟨before, after, hfs, hname, fun g hg heq => ?_⟩
    have hother := hbefore g hg
    rw [goesBy_iff.mpr heq] at hother
    cases hother
  · rintro ⟨before, after, hfs, hname, hbefore⟩
    refine ⟨hname, before, after, hfs, fun g hg => ?_⟩
    rw [Bool.not_eq_true', ← Bool.not_eq_true, goesBy_iff]
    exact hbefore g hg

namespace Registry

def enroll (f : Factory) : Attempt Registry BackendError Unit := fun r =>
  match r.register f with
  | .ok r' => (.returned (), r')
  | .error e => (.failed e, r)

def enrollAll (r : Registry) (fs : List Factory) : Registry :=
  fs.foldl (fun r f => (enroll f r).2) r

theorem enrollAll_cons (r : Registry) (f : Factory) (fs : List Factory) :
    r.enrollAll (f :: fs) = (enroll f r).2.enrollAll fs := rfl

variable {r : Registry} {f : Factory} {name : String}

theorem enroll_of_mem (h : f.architecture ∈ r.architectures) :
    enroll f r = (.failed (.duplicateArchitecture f.architecture), r) := by
  have hregister := register_eq_error_iff.mpr ⟨h, rfl⟩
  simp only [enroll, hregister]

theorem enroll_of_not_mem (h : f.architecture ∉ r.architectures) :
    (enroll f r).1 = .returned () ∧ (enroll f r).2.factories = r.factories ++ [f] := by
  obtain ⟨r', hr'⟩ : ∃ r', r.register f = .ok r' := ⟨_, dif_neg h⟩
  have hfactories : r'.factories = r.factories ++ [f] := by
    unfold register at hr'
    rw [dif_neg h] at hr'
    cases hr'
    rfl
  have henroll : enroll f r = (.returned (), r') := by simp only [enroll, hr']
  rw [henroll]
  exact ⟨rfl, hfactories⟩

theorem select_eq_find? (r : Registry) (name : String) : r.select name =
    match r.factories.find? (Factory.goesBy name) with
    | some f => .ok f
    | none => .error (.unknownArchitecture name r.architectures) := rfl

theorem select_eq_ok_iff : r.select name = .ok f ↔ r.factories.find? (Factory.goesBy name) = some f := by
  rw [select_eq_find?]
  cases r.factories.find? (Factory.goesBy name) with
  | none => exact ⟨nofun, nofun⟩
  | some g => exact ⟨fun h => by cases h; rfl, fun h => by cases h; rfl⟩

theorem select_eq_error_iff {e : BackendError} : r.select name = .error e ↔
    r.factories.find? (Factory.goesBy name) = none ∧ e = .unknownArchitecture name r.architectures := by
  rw [select_eq_find?]
  cases r.factories.find? (Factory.goesBy name) with
  | none => exact ⟨fun h => by cases h; exact ⟨rfl, rfl⟩, fun h => by rw [h.2]⟩
  | some g => exact ⟨nofun, fun h => nomatch h.1⟩

/-- A factory that is refused would not have been found, since there is one of its name in front of it. -/
theorem find?_enroll (r : Registry) (f : Factory) (name : String) :
    (enroll f r).2.factories.find? (Factory.goesBy name) = (r.factories ++ [f]).find? (Factory.goesBy name) := by
  by_cases h : f.architecture ∈ r.architectures
  · rw [enroll_of_mem h, List.find?_append]
    cases hfind : r.factories.find? (Factory.goesBy name) with
    | some g => rw [Option.some_or]
    | none =>
      have habsent := Factory.find?_goesBy_eq_none.mp hfind
      obtain ⟨g, hg, hgf⟩ := List.mem_map.mp h
      have hf : f.architecture ≠ name := hgf ▸ habsent g hg
      rw [Option.none_or, Factory.find?_goesBy_eq_none.mpr]
      simpa using hf
  · rw [(enroll_of_not_mem h).2]

theorem find?_enrollAll (r : Registry) (fs : List Factory) (name : String) :
    (r.enrollAll fs).factories.find? (Factory.goesBy name) = (r.factories ++ fs).find? (Factory.goesBy name) := by
  induction fs generalizing r with
  | nil => rw [List.append_nil]; rfl
  | cons f fs ih =>
    rw [enrollAll_cons, ih, List.find?_append, find?_enroll, ← List.find?_append, List.append_assoc,
      List.singleton_append]

theorem architectures_enrollAll (r : Registry) (fs : List Factory) : (r.enrollAll fs).architectures =
    r.architectures ++ ((fs.map Factory.architecture).removeAll r.architectures).eraseDups := by
  induction fs generalizing r with
  | nil => exact (List.append_nil _).symm
  | cons f fs ih =>
    rw [enrollAll_cons, ih, List.map_cons, List.cons_removeAll]
    by_cases h : f.architecture ∈ r.architectures
    · rw [enroll_of_mem h, if_neg (by simpa using h)]
    · have hgrown : (enroll f r).2.architectures = r.architectures ++ [f.architecture] := by
        unfold architectures
        rw [(enroll_of_not_mem h).2, List.map_append, List.map_singleton]
      have hothers : (fs.map Factory.architecture).removeAll (r.architectures ++ [f.architecture]) =
          ((fs.map Factory.architecture).removeAll r.architectures).filter fun a => !a == f.architecture := by
        simp only [List.removeAll, List.filter_filter]
        refine List.filter_congr fun a _ => ?_
        by_cases ha : a = f.architecture <;> simp [ha]
      rw [hgrown, hothers, if_pos (by simpa using h), List.eraseDups_cons, List.append_assoc, List.singleton_append]

theorem select_enroll_of_ne (h : f.architecture ≠ name) : (enroll f r).2.select name =
    (r.select name).mapError fun _ => .unknownArchitecture name (enroll f r).2.architectures := by
  have hf : [f].find? (Factory.goesBy name) = none := Factory.find?_goesBy_eq_none.mpr (by simpa using h)
  rw [select_eq_find?, select_eq_find? r, find?_enroll, List.find?_append, hf, Option.or_none]
  cases r.factories.find? (Factory.goesBy name) <;> rfl

/-- What a registry is after factories were to be registered in it, and what comes of one more. -/
structure Enrolled (start : Registry) (fs : List Factory) (r : Registry) : Prop where
  distinct : r.architectures.Nodup
  architectures : r.architectures =
    start.architectures ++ ((fs.map Factory.architecture).removeAll start.architectures).eraseDups
  selected : ∀ name f, r.select name = .ok f ↔ ∃ before after, start.factories ++ fs = before ++ f :: after ∧
    f.architecture = name ∧ ∀ g ∈ before, g.architecture ≠ name
  unknown : ∀ name e, r.select name = .error e ↔
    (∀ f ∈ start.factories ++ fs, f.architecture ≠ name) ∧ e = .unknownArchitecture name r.architectures
  refused : ∀ f e, (enroll f r).1 = .failed e ↔
    f.architecture ∈ r.architectures ∧ e = .duplicateArchitecture f.architecture
  kept : ∀ f, f.architecture ∈ r.architectures → (enroll f r).2 = r
  added : ∀ f, f.architecture ∉ r.architectures →
    (enroll f r).1 = .returned () ∧ (enroll f r).2.factories = r.factories ++ [f]
  others : ∀ f name, f.architecture ≠ name → (enroll f r).2.select name =
    (r.select name).mapError fun _ => .unknownArchitecture name (enroll f r).2.architectures

/-- Whatever is to be registered in turn, of each name the first factory counts and all others are refused. -/
theorem enrolled_enrollAll (start : Registry) (fs : List Factory) : Enrolled start fs (start.enrollAll fs) where
  distinct := (start.enrollAll fs).distinct
  architectures := start.architectures_enrollAll fs
  selected name f := by rw [select_eq_ok_iff, find?_enrollAll, Factory.find?_goesBy_eq_some]
  unknown name e := by rw [select_eq_error_iff, find?_enrollAll, Factory.find?_goesBy_eq_none]
  refused f e := by
    by_cases h : f.architecture ∈ (start.enrollAll fs).architectures
    · rw [enroll_of_mem h]
      exact ⟨fun he => by cases he; exact ⟨h, rfl⟩, fun he => by rw [he.2]⟩
    · rw [(enroll_of_not_mem h).1]
      exact ⟨nofun, fun he => absurd he.1 h⟩
  kept f h := by rw [enroll_of_mem h]
  added f h := enroll_of_not_mem h
  others f name h := select_enroll_of_ne h

end Registry

end BackendAssembly
