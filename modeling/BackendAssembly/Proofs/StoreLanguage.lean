import Mathlib
import BackendAssembly.Proofs.DocumentConstants

namespace BackendAssembly

namespace Store

/-- What comes of a text, by what it is. -/
inductive Verdict (text : String) : Except ConfigError Store → Prop where
  | malformed (m : Malformed) (h : ∀ doc, readDocument text.toList = .ok doc → ¬doc.Fits) :
    Verdict text (.error (.malformed m))
  | valid {doc : Table} {s : Store} (hread : readDocument text.toList = .ok doc) (hfits : doc.Fits)
    (hmeans : doc.Means s) (hvalid : ∀ name ∈ s.names, ValidName name) : Verdict text (.ok s)
  | invalidName {doc : Table} {s : Store} {name : String} (hread : readDocument text.toList = .ok doc)
    (hfits : doc.Fits) (hmeans : doc.Means s) (hfirst : s.FirstInvalid name) :
    Verdict text (.error (.invalidName name))

theorem parse_malformed {text : String} {m : Malformed} (h : readConstants text.toList = .error m) :
    parse text = .error (.malformed m) := by
  simp only [parse, h]

theorem readConstants_of_readDocument {text : List Char} {doc : Table} (h : readDocument text = .ok doc) :
    readConstants text = doc.constants.mapError fun (misfit, extent) => ⟨text, extent, .misfit misfit⟩ := by
  simp only [readConstants, h]

theorem verdict_parse (text : String) : Verdict text (parse text) := by
  cases hread : readDocument text.toList with
  | error fault =>
    have hmalformed : readConstants text.toList = .error ⟨text.toList, fault.extent, .unreadable fault⟩ := by
      simp only [readConstants, hread]
    rw [parse_malformed hmalformed]
    refine .malformed _ fun doc hdoc => ?_
    cases hread.symm.trans hdoc
  | ok doc =>
    have hconstants := readConstants_of_readDocument hread
    have hdistinct := readDocument_distinct hread
    rcases Table.constants_cases hdistinct with ⟨s, hs, hfits, hmeans⟩ | ⟨misfit, extent, hmisfit, h⟩
    · rw [hs] at hconstants
      rcases parse_of_readConstants hconstants with ⟨hvalid, hparse⟩ | ⟨name, hfirst, hparse⟩
      · rw [hparse]
        exact .valid hread hfits hmeans hvalid
      · rw [hparse]
        exact .invalidName hread hfits hmeans hfirst
    · rw [hmisfit] at hconstants
      rw [parse_malformed hconstants]
      refine .malformed _ fun doc' hdoc' => ?_
      cases hread.symm.trans hdoc'
      exact h

end Store

def ConfigError.unplaced : ConfigError → ConfigError
  | malformed m => malformed { m with text := [], extent := ⟨0, 0⟩ }
  | e => e

namespace Store

/-- What a text is read as. Only the place that is shown depends on more than what is said of constants. -/
structure Reads (text : String) : Prop where
  ok : (∃ s, parse text = .ok s) ↔ ∃ doc, readDocument text.toList = .ok doc ∧ doc.Fits ∧
    ∀ name node, doc.Tells name node → ValidName name
  means : ∀ s doc, parse text = .ok s → readDocument text.toList = .ok doc → doc.Means s
  absent : ∀ doc, readDocument text.toList = .ok doc → doc.find? "constants" = none → parse text = .ok .empty
  malformed : (∃ m, parse text = .error (.malformed m)) ↔ ∀ doc, readDocument text.toList = .ok doc → ¬doc.Fits
  invalidName : ∀ name, parse text = .error (.invalidName name) ↔
    ∃ doc, readDocument text.toList = .ok doc ∧ doc.Fits ∧ doc.FirstInvalid name
  apart : ∀ text' doc doc', readDocument text.toList = .ok doc → readDocument text'.toList = .ok doc' →
    Option.Rel Node.Same (doc.find? "constants") (doc'.find? "constants") →
    (parse text).mapError ConfigError.unplaced = (parse text').mapError ConfigError.unplaced

def outcome : Except Misfit Store → Except ConfigError Store
  | .error misfit => .error (.malformed ⟨[], ⟨0, 0⟩, .misfit misfit⟩)
  | .ok s =>
    match s.firstBadName? with
    | some name => .error (.invalidName name)
    | none => .ok s

theorem unplaced_parse {text : String} {doc : Table} (hread : readDocument text.toList = .ok doc) :
    (parse text).mapError ConfigError.unplaced = outcome (doc.constants.mapError Prod.fst) := by
  simp only [parse, readConstants_of_readDocument hread]
  cases doc.constants with
  | error misfit => rfl
  | ok s =>
    simp only [Except.mapError, outcome]
    cases s.firstBadName? <;> rfl

theorem parse_congr {text text' : String} {doc doc' : Table} (hread : readDocument text.toList = .ok doc)
    (hread' : readDocument text'.toList = .ok doc')
    (h : Option.Rel Node.Same (doc.find? "constants") (doc'.find? "constants")) :
    (parse text).mapError ConfigError.unplaced = (parse text').mapError ConfigError.unplaced := by
  rw [unplaced_parse hread, unplaced_parse hread',
    Table.constants_congr (readDocument_distinct hread) (readDocument_distinct hread') h]

theorem parse_of_none {text : String} {doc : Table} (hread : readDocument text.toList = .ok doc)
    (h : doc.find? "constants" = none) : parse text = .ok .empty := by
  simp only [parse, readConstants_of_readDocument hread, Table.constants_of_none h]
  rfl

theorem exists_ok_parse_iff {text : String} : (∃ s, parse text = .ok s) ↔
    ∃ doc, readDocument text.toList = .ok doc ∧ doc.Fits ∧ ∀ name node, doc.Tells name node → ValidName name := by
  have hverdict := verdict_parse text
  constructor
  · rintro ⟨s, hs⟩
    rw [hs] at hverdict
    cases hverdict with
    | @valid doc _ hread hfits hmeans hvalid =>
      exact ⟨doc, hread, hfits, fun name node htells => hvalid name ((hmeans.mem_names_iff hfits).mpr ⟨node, htells⟩)⟩
  · rintro ⟨doc, hread, hfits, hvalid⟩
    generalize parse text = r at hverdict ⊢
    cases hverdict with
    | malformed m h => exact absurd hfits (h doc hread)
    | valid => exact ⟨_, rfl⟩
    | invalidName hread' _ hmeans hfirst =>
      cases hread.symm.trans hread'
      obtain ⟨node, htells⟩ := (hmeans.mem_names_iff hfits).mp hfirst.mem
      exact absurd (hvalid _ node htells) hfirst.invalid

theorem means_of_parse {text : String} {s : Store} {doc : Table} (hs : parse text = .ok s)
    (hread : readDocument text.toList = .ok doc) : doc.Means s := by
  have hverdict := verdict_parse text
  rw [hs] at hverdict
  cases hverdict with
  | valid hread' _ hmeans =>
    cases hread.symm.trans hread'
    exact hmeans

theorem exists_malformed_parse_iff {text : String} : (∃ m, parse text = .error (.malformed m)) ↔
    ∀ doc, readDocument text.toList = .ok doc → ¬doc.Fits := by
  have hverdict := verdict_parse text
  constructor
  · rintro ⟨m, hm⟩
    rw [hm] at hverdict
    cases hverdict with
    | malformed _ h => exact h
  · intro h
    generalize parse text = r at hverdict ⊢
    cases hverdict with
    | malformed m => exact ⟨m, rfl⟩
    | valid hread hfits => exact absurd hfits (h _ hread)
    | invalidName hread hfits => exact absurd hfits (h _ hread)

theorem invalidName_parse_iff {text name : String} : parse text = .error (.invalidName name) ↔
    ∃ doc, readDocument text.toList = .ok doc ∧ doc.Fits ∧ doc.FirstInvalid name := by
  have hverdict := verdict_parse text
  constructor
  · intro h
    rw [h] at hverdict
    cases hverdict with
    | @invalidName doc _ _ hread hfits hmeans hfirst =>
      exact ⟨doc, hread, hfits, (hmeans.firstInvalid_iff hfits).mp hfirst⟩
  · rintro ⟨doc, hread, hfits, hfirst⟩
    generalize parse text = r at hverdict ⊢
    cases hverdict with
    | malformed m h => exact absurd hfits (h doc hread)
    | valid hread' _ hmeans hvalid =>
      cases hread.symm.trans hread'
      exact absurd (hvalid name ((hmeans.mem_names_iff hfits).mpr hfirst.mem)) hfirst.invalid
    | invalidName hread' _ hmeans hfirst' =>
      cases hread.symm.trans hread'
      rw [((hmeans.firstInvalid_iff hfits).mpr hfirst).eq hfirst']

/-- Of a text that is no document, or of one that does not fit, this is told first; else bad names are looked for. -/
theorem reads_parse (text : String) : Reads text where
  ok := exists_ok_parse_iff
  means _ _ := means_of_parse
  absent _ := parse_of_none
  malformed := exists_malformed_parse_iff
  invalidName _ := invalidName_parse_iff
  apart _ _ _ := parse_congr

theorem reads_parse_reordered : ∃ doc doc',
    readDocument "[constants]\nx = 1\ny = true\n".toList = .ok doc ∧
      readDocument "a = 1\nconstants = \x7by = true, x = 1\x7d\n".toList = .ok doc' ∧
      Option.Rel Node.Same (doc.find? "constants") (doc'.find? "constants") ∧
      (parse "[constants]\nx = 1\ny = true\n").mapError ConfigError.unplaced =
        (parse "a = 1\nconstants = \x7by = true, x = 1\x7d\n").mapError ConfigError.unplaced := by
  let one (extent : Extent) : Node := .scalar extent (.integer 1)
  let yes (extent : Extent) : Node := .scalar extent (.boolean true)
  let t : Table := { origin := .heading, extent := some ⟨27, 1⟩, entries :=
    [(⟨"x", ⟨15, 14⟩⟩, one ⟨11, 10⟩), (⟨"y", ⟨9, 8⟩⟩, yes ⟨5, 1⟩)] }
  let t' : Table := { origin := .inline, extent := some ⟨18, 1⟩, entries :=
    [(⟨"y", ⟨17, 16⟩⟩, yes ⟨13, 9⟩), (⟨"x", ⟨7, 6⟩⟩, one ⟨3, 2⟩)] }
  have hread : readDocument "[constants]\nx = 1\ny = true\n".toList =
    .ok { origin := .heading, entries := [(⟨"constants", ⟨26, 17⟩⟩, .table t)] } := by cbv
  have hread' : readDocument "a = 1\nconstants = \x7by = true, x = 1\x7d\n".toList =
    .ok { origin := .heading, entries :=
      [(⟨"a", ⟨36, 35⟩⟩, one ⟨32, 31⟩), (⟨"constants", ⟨30, 21⟩⟩, .table t')] } := by cbv
  have hsame : Node.Same (.table t) (.table t') := .table fun name => by
    by_cases hx : name = "x"
    · subst hx
      exact .some .scalar
    · by_cases hy : name = "y"
      · subst hy
        exact .some .scalar
      · have hnone : t.find? name = none := TableOf.find?_eq_none_iff.mpr (by simp [t, hx, hy])
        have hnone' : t'.find? name = none := TableOf.find?_eq_none_iff.mpr (by simp [t', hx, hy])
        rw [hnone, hnone']
        exact .none
  exact ⟨_, _, hread, hread', .some hsame, (reads_parse _).apart _ _ _ hread hread' (.some hsame)⟩

/-- The place that is shown, and the line there, are those of the text at hand. -/
theorem report_displaced : ∃ doc doc' m m',
    readDocument "constants = 5\n".toList = .ok doc ∧ readDocument "a = 1\nconstants = 5\n".toList = .ok doc' ∧
      Option.Rel Node.Same (doc.find? "constants") (doc'.find? "constants") ∧
      parse "constants = 5\n" = .error (.malformed m) ∧ parse "a = 1\nconstants = 5\n" = .error (.malformed m') ∧
      m.report ≠ m'.report := by
  let misfit (text : String) : Malformed := ⟨text.toList, ⟨2, 1⟩, .misfit (.notATable "integer `5`")⟩
  let five : Key × Node := (⟨"constants", ⟨14, 5⟩⟩, .scalar ⟨2, 1⟩ (.integer 5))
  have hread : readDocument "constants = 5\n".toList = .ok { origin := .heading, entries := [five] } := by cbv
  have hread' : readDocument "a = 1\nconstants = 5\n".toList =
    .ok { origin := .heading, entries := [(⟨"a", ⟨20, 19⟩⟩, .scalar ⟨16, 15⟩ (.integer 1)), five] } := by cbv
  have hplace : excerpt "constants = 5\n".toList ⟨2, 1⟩ ≠ excerpt "a = 1\nconstants = 5\n".toList ⟨2, 1⟩ := by
    decide +kernel
  refine ⟨_, _, misfit "constants = 5\n", misfit "a = 1\nconstants = 5\n", hread, hread', .some .scalar, ?_, ?_, ?_⟩
  · refine parse_malformed ?_
    rw [readConstants_of_readDocument hread]
    rfl
  · refine parse_malformed ?_
    rw [readConstants_of_readDocument hread']
    rfl
  · exact fun h => hplace (String.append_left_inj _ |>.mp h)

end Store

end BackendAssembly
