import BackendAssembly.Proofs.PathReading
import BackendAssembly.Proofs.StoreLines
import BackendAssembly.Proofs.TextBytes

namespace BackendAssembly

open Utf8 (Decodes Mangled Broken)

namespace Store

inductive Loaded (path : String) : FileRead → Except ConfigError Store → Prop where
  | text {bytes : ByteArray} {text : String} (h : Decodes bytes.data.toList text.toList) :
    Loaded path (.contents bytes) (parse text)
  | notUtf8 {bytes : ByteArray} (h : Mangled bytes.data.toList) :
    Loaded path (.contents bytes) (.error (.unreadable path .notUtf8))
  | absent : Loaded path .absent (.error (.notFound path))
  | failed (why : ReadFailure) : Loaded path (.failed why) (.error (.unreadable path why))

variable {path : String} {read : FileRead} {r : Except ConfigError Store}

theorem load_of_decodes {bytes : ByteArray} {text : String} (h : Decodes bytes.data.toList text.toList) :
    load path (.contents bytes) = parse text := by
  rw [load, Utf8.fromUTF8?_eq_some_iff.mpr h]

/-- The bytes are looked at first, so it does not matter what stands in front of the place where they are no text. -/
theorem load_of_mangled {bytes : ByteArray} (h : Mangled bytes.data.toList) :
    load path (.contents bytes) = .error (.unreadable path .notUtf8) := by
  rw [load, Utf8.fromUTF8?_eq_none_iff.mpr h]

theorem loaded_load (path : String) (read : FileRead) : Loaded path read (load path read) := by
  cases read with
  | contents bytes =>
    rcases Utf8.decodes_or_mangled bytes.data.toList with ⟨cs, hcs⟩ | h
    · have htext : Decodes bytes.data.toList (String.ofList cs).toList := by rwa [String.toList_ofList]
      rw [load_of_decodes htext]
      exact .text htext
    · rw [load_of_mangled h]
      exact .notUtf8 h
  | absent => exact .absent
  | failed why => exact .failed why

theorem load_eq_iff : load path read = r ↔ Loaded path read r := by
  constructor
  · rintro rfl
    exact loaded_load path read
  · intro h
    cases h with
    | text h => exact load_of_decodes h
    | notUtf8 h => exact load_of_mangled h
    | absent | failed => rfl

theorem parse_error_cases {text : String} {e : ConfigError} (h : parse text = .error e) :
    (∃ m, e = .malformed m) ∨ ∃ name, e = .invalidName name := by
  unfold parse at h
  split at h
  next m _ =>
    cases h
    exact .inl ⟨m, rfl⟩
  next =>
    split at h
    next name _ =>
      cases h
      exact .inr ⟨name, rfl⟩
    next => cases h

theorem load_eq_notFound_iff {path' : String} :
    load path read = .error (.notFound path') ↔ read = .absent ∧ path' = path := by
  constructor
  · intro h
    have hloaded := load_eq_iff.mp h
    generalize hr : Except.error (ConfigError.notFound path') = r at hloaded
    cases hloaded with
    | text =>
      rcases parse_error_cases hr.symm with ⟨_, hm⟩ | ⟨_, hname⟩
      · cases hm
      · cases hname
    | notUtf8 => cases hr
    | absent =>
      cases hr
      exact ⟨rfl, rfl⟩
    | failed => cases hr
  · rintro ⟨rfl, rfl⟩
    rfl

theorem load_eq_unreadable_iff {path' : String} {why : ReadFailure} :
    load path read = .error (.unreadable path' why) ↔ path' = path ∧ (read = .failed why ∨
      why = .notUtf8 ∧ ∃ bytes, read = .contents bytes ∧ Mangled bytes.data.toList) := by
  constructor
  · intro h
    have hloaded := load_eq_iff.mp h
    generalize hr : Except.error (ConfigError.unreadable path' why) = r at hloaded
    cases hloaded with
    | text =>
      rcases parse_error_cases hr.symm with ⟨_, hm⟩ | ⟨_, hname⟩
      · cases hm
      · cases hname
    | @notUtf8 bytes hmangled =>
      cases hr
      exact ⟨rfl, .inr ⟨rfl, bytes, rfl, hmangled⟩⟩
    | absent => cases hr
    | failed =>
      cases hr
      exact ⟨rfl, .inl rfl⟩
  · rintro ⟨rfl, rfl | ⟨rfl, bytes, rfl, hmangled⟩⟩
    · rfl
    · exact load_of_mangled hmangled

theorem parse_render_of_valid {s : Store} (h : ∀ name ∈ s.names, ValidName name) : parse s.render = .ok s := by
  rcases parse_of_readConstants s.readConstants_render with ⟨-, hparse⟩ | ⟨name, hfirst, -⟩
  · exact hparse
  · exact absurd (h name hfirst.mem) hfirst.invalid

/-- What the constants at a path come to, by what is there. Whatever else the system says of a path is told as it is. -/
structure Sorts (tree : FileTree) (path : String) : Prop where
  loaded : ∀ read r, load path read = r ↔ Loaded path read r
  met : (∃ bytes, tree.Holds path bytes ∧ tree.read path = .contents bytes) ∨
    tree.Lacks path ∧ tree.read path = .absent ∨ ∃ why, tree.Refuses path why ∧ tree.read path = .failed why
  text : ∀ bytes, tree.Holds path bytes → ∀ text : String, Decodes bytes.data.toList text.toList →
    load path (tree.read path) = parse text
  notUtf8 : ∀ bytes, tree.Holds path bytes → ∀ start cs rest, bytes.data.toList = start ++ rest → Decodes start cs →
    Broken rest → load path (tree.read path) = .error (.unreadable path .notUtf8)
  cause : (ConfigError.unreadable path .notUtf8).chain.getLast? = some "stream did not contain valid UTF-8"
  decided : ∀ bytes : ByteArray, (∃ text : String, Decodes bytes.data.toList text.toList) ↔ ¬Mangled bytes.data.toList
  notFound : ∀ path', load path (tree.read path) = .error (.notFound path') ↔ tree.Lacks path ∧ path' = path
  unreadable : ∀ path' why, load path (tree.read path) = .error (.unreadable path' why) ↔ path' = path ∧
    (tree.Refuses path why ∨ why = .notUtf8 ∧ ∃ bytes, tree.Holds path bytes ∧ Mangled bytes.data.toList)
  written : ∀ s : Store, (∀ name ∈ s.names, ValidName name) → tree.Holds path s.render.toUTF8 →
    load path (tree.read path) = .ok s

theorem sorts_load (tree : FileTree) (path : String) : Sorts tree path where
  loaded _ _ := load_eq_iff
  met := by
    cases h : tree.read path with
    | contents bytes => exact .inl ⟨bytes, FileTree.read_eq_contents_iff.mp h, rfl⟩
    | absent => exact .inr (.inl ⟨FileTree.read_eq_absent_iff.mp h, rfl⟩)
    | failed why => exact .inr (.inr ⟨why, FileTree.read_eq_failed_iff.mp h, rfl⟩)
  text bytes h text htext := by rw [FileTree.read_eq_contents_iff.mpr h, load_of_decodes htext]
  notUtf8 bytes h start cs rest hbytes hstart hrest := by
    rw [FileTree.read_eq_contents_iff.mpr h, load_of_mangled ⟨start, cs, rest, hbytes, hstart, hrest⟩]
  cause := rfl
  decided bytes := by
    constructor
    · rintro ⟨text, htext⟩
      exact htext.not_mangled
    · intro h
      obtain ⟨cs, hcs⟩ := (Utf8.decodes_or_mangled bytes.data.toList).resolve_right h
      exact ⟨String.ofList cs, by rwa [String.toList_ofList]⟩
  notFound path' := by rw [load_eq_notFound_iff, FileTree.read_eq_absent_iff]
  unreadable path' why := by
    simp only [load_eq_unreadable_iff, FileTree.read_eq_failed_iff, FileTree.read_eq_contents_iff]
  written s hs h := by rw [FileTree.read_eq_contents_iff.mpr h, load_toUTF8, parse_render_of_valid hs]

/-- A file that begins with a text that is no document, and ends within a character. -/
theorem sorts_load_truncated :
    let bytes : ByteArray := ⟨"[constants".toUTF8.data ++ #[0xe2, 0x82]⟩
    let tree : FileTree := .directory [("conf", .directory [("vm.toml", .file bytes)])]
    (∃ m, parse "[constants" = .error (.malformed m)) ∧
      load "conf/./vm.toml" (tree.read "conf/./vm.toml") = .error (.unreadable "conf/./vm.toml" .notUtf8) ∧
      load "conf/vm.toml/" (tree.read "conf/vm.toml/") = .error (.unreadable "conf/vm.toml/" .notADirectory) ∧
      load "conf/../vm.toml" (tree.read "conf/../vm.toml") = .error (.notFound "conf/../vm.toml") := by
  intro bytes tree
  let unclosed : Fault := { rest := [], kind := some "table header", expected := ["`.`", "`]`"] }
  have hparse : parse "[constants" = .error (.malformed ⟨"[constants".toList, ⟨0, 0⟩, .unreadable unclosed⟩) := by
    decide +kernel
  have hholds : tree.Holds "conf/./vm.toml" bytes := FileTree.read_eq_contents_iff.mp rfl
  have hbroken : Broken [0xe2, 0x82] := by
    have htrails : ∀ b ∈ [(0x82 : UInt8)], Utf8.IsTrail b := by
      intro b hb
      cases List.mem_singleton.mp hb
      exact ⟨by decide, by decide⟩
    exact .truncated (by decide) htrails (by decide) nofun
  have hslash : tree.Refuses "conf/vm.toml/" .notADirectory := FileTree.read_eq_failed_iff.mp rfl
  have hlacks : tree.Lacks "conf/../vm.toml" := FileTree.read_eq_absent_iff.mp rfl
  refine ⟨⟨_, hparse⟩, ?_, ?_, ?_⟩
  · exact (sorts_load tree "conf/./vm.toml").notUtf8 _ hholds _ _ _ rfl (Utf8.decodes_utf8Bytes "[constants") hbroken
  · exact ((sorts_load tree "conf/vm.toml/").unreadable _ _).mpr ⟨rfl, .inl hslash⟩
  · exact ((sorts_load tree "conf/../vm.toml").notFound _).mpr ⟨hlacks, rfl⟩

end Store

end BackendAssembly
