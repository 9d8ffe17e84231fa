import BackendAssembly.Proofs.JsonReading
import BackendAssembly.Proofs.StoreLines
import BackendAssembly.Proofs.TargetDependence

namespace BackendAssembly

open Switchable (constantName rank ofConstantName?)

def BareName (name : String) : Prop :=
  name ≠ "" ∧ name.toList.all isBareChar = true

theorem BareName.not_mem {name : String} (h : BareName name) {c : Char} (hc : isBareChar c = false) :
    c ∉ name.toList := by
  intro hmem
  have hbare := List.all_eq_true.mp h.2 c hmem
  rw [hc] at hbare
  cases hbare

theorem intercalate_commaBlank {rows : List (List Char)} (h : rows ≠ []) :
    ' ' :: [',', ' '].intercalate rows = [','].intercalate (rows.map (' ' :: ·)) := by
  induction rows with
  | nil => exact absurd rfl h
  | cons row rows ih =>
    cases rows with
    | nil => simp
    | cons next rows =>
      have ih := ih (List.cons_ne_nil next rows)
      have hne : (next :: rows).map (' ' :: ·) ≠ [] := List.cons_ne_nil _ _
      rw [List.intercalate_cons_cons, List.map_cons, List.intercalate_cons_of_ne_nil hne, ← ih]
      simp

theorem not_mem_intercalate {separator : List Char} {rows : List (List Char)} {c : Char} (hseparator : c ∉ separator)
    (hrows : ∀ row ∈ rows, c ∉ row) : c ∉ separator.intercalate rows := by
  induction rows with
  | nil => exact List.not_mem_nil
  | cons row rows ih =>
    have hrow : c ∉ row := hrows row List.mem_cons_self
    have hrest := ih fun r hr => hrows r (List.mem_cons_of_mem row hr)
    cases rows with
    | nil => simpa using hrow
    | cons next rows =>
      rw [List.intercalate_cons_cons, List.mem_append, List.mem_append, not_or, not_or]
      exact ⟨⟨hrow, hseparator⟩, hrest⟩

section Joined

variable {names names' : List String}

theorem splitOn_joined (hbare : ∀ name ∈ names, BareName name) (hne : names ≠ []) :
    (' ' :: (", ".intercalate names).toList).splitOn ',' = names.map fun name => ' ' :: name.toList := by
  have htext : ' ' :: (", ".intercalate names).toList = [','].intercalate (names.map fun name => ' ' :: name.toList) := by
    have hrows : names.map String.toList ≠ [] := by simpa using hne
    rw [String.toList_intercalate]
    refine (intercalate_commaBlank hrows).trans ?_
    rw [List.map_map]
    rfl
  have hfree : ∀ cs ∈ names.map fun name => ' ' :: name.toList, ',' ∉ cs := by
    intro cs hcs
    obtain ⟨name, hname, rfl⟩ := List.mem_map.mp hcs
    have hcomma := (hbare name hname).not_mem (c := ',') (by decide)
    rw [List.mem_cons, not_or]
    exact ⟨by decide, hcomma⟩
  rw [htext, List.splitOn_intercalate ',' hfree (by simpa using hne)]

/-- A row without names has no character, and one with names has those of its first name. -/
theorem eq_nil_of_joined (hbare : ∀ name ∈ names, BareName name) (h : ", ".intercalate names = "") : names = [] := by
  by_contra hne
  have hsplit := splitOn_joined hbare hne
  obtain ⟨name, rest, rfl⟩ := List.exists_cons_of_ne_nil hne
  rw [h] at hsplit
  have hfirst : [' '] = ' ' :: name.toList := (List.cons.inj hsplit).1
  have hchars : name.toList = [] := (List.cons.inj hfirst).2.symm
  exact (hbare name List.mem_cons_self).1 (String.toList_eq_nil_iff.mp hchars)

theorem joined_inj (hbare : ∀ name ∈ names, BareName name) (hbare' : ∀ name ∈ names', BareName name)
    (h : ", ".intercalate names = ", ".intercalate names') : names = names' := by
  -- An empty row splits into one piece, so it has to be told from a row with one name first.
  by_cases hne : names = []
  · subst hne
    exact (eq_nil_of_joined hbare' h.symm).symm
  by_cases hne' : names' = []
  · subst hne'
    exact eq_nil_of_joined hbare h
  have hsplit := splitOn_joined hbare hne
  rw [h, splitOn_joined hbare' hne'] at hsplit
  have hblank : Function.Injective fun name : String => ' ' :: name.toList := fun a b hab =>
    String.toList_inj.mp (List.cons.inj hab).2
  exact (List.map_injective_iff.mpr hblank hsplit).symm

end Joined

namespace Target

theorem not_mem_decimal {n : Nat} {c : Char} (hc : c.isDigit = false) : c ∉ Nat.toDigits 10 n := by
  intro hmem
  have hdigit := Reader.isDigit_of_mem_decimal hmem
  rw [hc] at hdigit
  cases hdigit

theorem toList_nameList (names : List String) : (nameList names).toList =
    '(' :: Nat.toDigits 10 names.length ++ ')' :: ':' :: ' ' :: (", ".intercalate names).toList := by
  simp [nameList]

/-- What stands behind the count is behind the first bracket that closes. -/
theorem nameList_inj {names names' : List String} (hbare : ∀ name ∈ names, BareName name)
    (hbare' : ∀ name ∈ names', BareName name) (h : nameList names = nameList names') : names = names' := by
  have hafter : ∀ names : List String, (nameList names).toList.dropWhile (· != ')') =
      ')' :: ':' :: ' ' :: (", ".intercalate names).toList := by
    intro names
    rw [toList_nameList]
    refine Reader.dropWhile_append_of_leavesOff (fun c hc => ?_) (Reader.leavesOff_cons (by decide))
    rw [bne_iff_ne]
    rintro rfl
    rcases List.mem_cons.mp hc with hc | hc
    · cases hc
    · exact not_mem_decimal (by decide) hc
  have hrest := hafter names
  rw [h, hafter names'] at hrest
  have hjoined : (", ".intercalate names).toList = (", ".intercalate names').toList := by
    simpa using hrest.symm
  exact joined_inj hbare hbare' (String.toList_inj.mp hjoined)

theorem lineFeed_not_mem_nameList {names : List String} (hbare : ∀ name ∈ names, BareName name) :
    '\n' ∉ (nameList names).toList := by
  have hdigits : '\n' ∉ Nat.toDigits 10 names.length := not_mem_decimal (by decide)
  have hjoined : '\n' ∉ (", ".intercalate names).toList := by
    rw [String.toList_intercalate]
    refine not_mem_intercalate (by decide) fun cs hcs => ?_
    obtain ⟨name, hname, rfl⟩ := List.mem_map.mp hcs
    exact (hbare name hname).not_mem (by decide)
  simp only [toList_nameList, List.mem_append, List.mem_cons, hdigits, hjoined]
  decide

def rows (t : Target) : List String :=
  ["=== Target: " ++ LoongArch64.name ++ " ===", "Architecture: " ++ t.arch.text,
   "Features " ++ nameList t.arch.features.names, "Flags " ++ nameList t.arch.flags.names, "",
   "--- Layout policy ---", "  64-bit addressing:         " ++ toString addressing64Bit,
   "  Stack alignment:           " ++ toString stackAlignment ++ " bytes",
   "  Implicit null check limit: " ++ toString implicitNullCheckLimit ++ " bytes",
   "  Inline objects:            " ++ toString inlineObjects,
   "  Return address size:       " ++ toString LoongArch64.returnAddressSize ++ " bytes",
   "  Compressed oops:           " ++ toString t.compressedOops]

theorem line_text (t : Target) : line t.text = String.join (t.rows.map line) := by
  simp only [text, rows, line, List.map_cons, List.map_nil, String.join_cons, String.join_nil, String.append_assoc,
    String.append_empty]

end Target

structure Switchable.Told (K : Type) [Switchable K] : Prop where
  bare : ∀ k : K, BareName (constantName k)
  known : ∀ k : K, ofConstantName? (constantName k) = some k
  listed : ∀ k : K, k ∈ Switchable.all
  ascending : Ascending rank (Switchable.all : List K)

theorem CpuFeature.told : Switchable.Told CpuFeature where
  bare feature := by cases feature <;> exact ⟨by decide, by decide⟩
  known feature := by cases feature <;> rfl
  listed := mem_all
  ascending := by unfold Ascending; decide

theorem TuningFlag.told : Switchable.Told TuningFlag where
  bare flag := by cases flag <;> exact ⟨by decide, by decide⟩
  known flag := by cases flag <;> rfl
  listed := mem_all
  ascending := by unfold Ascending; decide

namespace SwitchSet

variable {K : Type} [Switchable K] {s s' : SwitchSet K}

theorem bareName_of_mem_names (h : Switchable.Told K) : ∀ name ∈ s.names, BareName name := by
  intro name hname
  obtain ⟨k, -, rfl⟩ := List.mem_map.mp hname
  exact h.bare k

theorem map_ofConstantName?_names (h : Switchable.Told K) : s.names.map ofConstantName? = s.toList.map some := by
  rw [names, List.map_map]
  exact List.map_congr_left fun k _ => h.known k

theorem names_inj (h : Switchable.Told K) (hnames : s.names = s'.names) : s = s' := by
  have hknown := map_ofConstantName?_names h (s := s)
  rw [hnames, map_ofConstantName?_names h] at hknown
  have hmembers : s'.toList = s.toList := List.map_injective_iff.mpr (Option.some_injective K) hknown
  exact ext_mem fun k => by rw [hmembers]

theorem filter_contains [BEq K] [LawfulBEq K] (h : Switchable.Told K) : Switchable.all.filter s.contains = s.toList := by
  have hfilter : Ascending rank (Switchable.all.filter s.contains) := h.ascending.filter _
  refine hfilter.ext Nat.lt_asymm s.ascending fun k => ?_
  rw [List.mem_filter, contains, List.contains_iff_mem]
  exact and_iff_right (h.listed k)

end SwitchSet

namespace JsonValue

def get? (name : String) : JsonValue → Option JsonValue
  | object members => members.lookup name
  | _ => none

def at? (path : List String) (v : JsonValue) : Option JsonValue :=
  path.foldlM (fun v name => v.get? name) v

def Lists {K : Type} [Switchable K] [BEq K] (v : JsonValue) (s : SwitchSet K) : Prop :=
  ∃ names : List String, v = .array (names.map .string) ∧
    names.map ofConstantName? = (Switchable.all.filter s.contains).map some

theorem lists_names {K : Type} [Switchable K] [BEq K] [LawfulBEq K] (h : Switchable.Told K) (s : SwitchSet K) :
    (JsonValue.array (s.names.map .string)).Lists s := by
  refine ⟨s.names, rfl, ?_⟩
  rw [SwitchSet.map_ofConstantName?_names h, SwitchSet.filter_contains h]

theorem within_names (names : List String) (levels : Nat) : (array (names.map .string)).Within (levels + 1) := by
  refine .array fun e he => ?_
  obtain ⟨name, -, rfl⟩ := List.mem_map.mp he
  exact .string name

end JsonValue

namespace Target

variable {t t' : Target}

theorem lineFeed_not_mem_rows : ∀ row ∈ t.rows, '\n' ∉ row.toList := by
  have happend : ∀ {a b : String}, '\n' ∉ a.toList → '\n' ∉ b.toList → '\n' ∉ (a ++ b).toList := by
    intro a b ha hb
    rw [String.toList_append, List.mem_append, not_or]
    exact ⟨ha, hb⟩
  have harch : '\n' ∉ t.arch.text.toList := by
    unfold LoongArch64.text
    decide
  have hfeatures := lineFeed_not_mem_nameList (SwitchSet.bareName_of_mem_names CpuFeature.told (s := t.arch.features))
  have hflags := lineFeed_not_mem_nameList (SwitchSet.bareName_of_mem_names TuningFlag.told (s := t.arch.flags))
  have hoops : '\n' ∉ (toString t.compressedOops).toList := by
    cases t.compressedOops <;> decide
  intro row hrow
  simp only [rows, List.mem_cons, List.not_mem_nil, or_false] at hrow
  rcases hrow with rfl | rfl | rfl | rfl | rfl | rfl | rfl | rfl | rfl | rfl | rfl | rfl
  · decide
  · exact happend (by decide) harch
  · exact happend (by decide) hfeatures
  · exact happend (by decide) hflags
  · decide
  · decide
  · decide
  · decide
  · decide
  · decide
  · decide
  · exact happend (by decide) hoops

theorem ext_names (hfeatures : t.arch.features.names = t'.arch.features.names)
    (hflags : t.arch.flags.names = t'.arch.flags.names) (hoops : t.compressedOops = t'.compressedOops) : t = t' := by
  have hfeatures : t.arch.features = t'.arch.features := SwitchSet.names_inj CpuFeature.told hfeatures
  have hflags : t.arch.flags = t'.arch.flags := SwitchSet.names_inj TuningFlag.told hflags
  refine ext_mem (fun feature => ?_) (fun flag => ?_) ?_
  · rw [hfeatures]
  · rw [hflags]
  · rw [hoops]

theorem text_inj : t.text = t'.text ↔ t = t' := by
  refine ⟨fun h => ?_, fun h => h ▸ rfl⟩
  have hrows : t.rows = t'.rows := by
    have hpieces := pieces_lines (lineFeed_not_mem_rows (t := t))
    rw [← line_text, h, line_text, pieces_lines lineFeed_not_mem_rows] at hpieces
    exact (List.append_cancel_right hpieces).symm
  simp only [rows, List.cons.injEq, String.append_right_inj, and_true, true_and] at hrows
  obtain ⟨-, hfeatures, hflags, hoops⟩ := hrows
  have hbool : ∀ {b b' : Bool}, toString b = toString b' → b = b' := by decide
  refine ext_names (nameList_inj ?_ ?_ hfeatures) (nameList_inj ?_ ?_ hflags) (hbool hoops)
  · exact SwitchSet.bareName_of_mem_names CpuFeature.told
  · exact SwitchSet.bareName_of_mem_names CpuFeature.told
  · exact SwitchSet.bareName_of_mem_names TuningFlag.told
  · exact SwitchSet.bareName_of_mem_names TuningFlag.told

theorem at?_features : t.toJson.at? ["arch", "features"] = some (.array (t.arch.features.names.map .string)) := rfl

theorem at?_flags : t.toJson.at? ["arch", "flags"] = some (.array (t.arch.flags.names.map .string)) := rfl

theorem at?_compressedOops : t.toJson.at? ["compressed-oops"] = some (.bool t.compressedOops) := rfl

theorem toJson_inj : t.toJson = t'.toJson ↔ t = t' := by
  refine ⟨fun h => ?_, fun h => h ▸ rfl⟩
  have hnames : ∀ {names names' : List String},
      some (JsonValue.array (names.map .string)) = some (.array (names'.map .string)) → names = names' := fun h =>
    List.map_injective_iff.mpr (fun _ _ => JsonValue.string.inj) (JsonValue.array.inj (Option.some.inj h))
  have hfeatures := at?_features (t := t)
  have hflags := at?_flags (t := t)
  have hoops := at?_compressedOops (t := t)
  rw [h] at hfeatures hflags hoops
  exact ext_names (hnames hfeatures.symm) (hnames hflags.symm) (JsonValue.bool.inj (Option.some.inj hoops.symm))

theorem within_toJson : t.toJson.Within JsonValue.depthLimit := by
  have harch : t.arch.toJson.Within 126 := by
    refine .object fun m hm => ?_
    simp only [List.mem_cons, List.not_mem_nil, or_false] at hm
    rcases hm with rfl | rfl | rfl | rfl | rfl
    · exact .string _
    · exact .number _
    · exact .string _
    · exact JsonValue.within_names _ _
    · exact JsonValue.within_names _ _
  refine .object fun m hm => ?_
  simp only [List.mem_cons, List.not_mem_nil, or_false] at hm
  rcases hm with rfl | rfl | rfl | rfl | rfl | rfl
  · exact harch
  · exact .bool _
  · exact .number _
  · exact .number _
  · exact .bool _
  · exact .bool _

theorem pretty_inj : t.pretty = t'.pretty ↔ t = t' :=
  (JsonValue.pretty_inj within_toJson within_toJson 0).trans toJson_inj

/-- What the two renderings of a target tell about it. -/
structure Legible (t : Target) : Prop where
  text : ∀ t' : Target, t.text = t'.text ↔ t = t'
  pretty : ∀ t' : Target, t.pretty = t'.pretty ↔ t = t'
  read : JsonValue.read? t.pretty = some t.toJson
  features : ∃ v, t.toJson.at? ["arch", "features"] = some v ∧ v.Lists t.arch.features
  flags : ∃ v, t.toJson.at? ["arch", "flags"] = some v ∧ v.Lists t.arch.flags
  compressedOops : t.toJson.at? ["compressed-oops"] = some (.bool t.compressedOops)

/-- Nothing is lost: neither rendering is that of any other target, and from the JSON text both sets are read back name
by name. -/
theorem legible_renderings (t : Target) : Legible t where
  text _ := text_inj
  pretty _ := pretty_inj
  read := JsonValue.read?_pretty within_toJson 0
  features := ⟨_, at?_features, JsonValue.lists_names CpuFeature.told t.arch.features⟩
  flags := ⟨_, at?_flags, JsonValue.lists_names TuningFlag.told t.arch.flags⟩
  compressedOops := at?_compressedOops

end Target

end BackendAssembly
