import BackendAssembly.Proofs.CommandTranslation
import BackendAssembly.Proofs.StoreLoading
import Mathlib.Data.List.Chain
import Mathlib.Data.List.Infix

namespace BackendAssembly

/-- No message ends with the whole message of its cause, which follows it. -/
def ToldOnce (chain : List String) : Prop :=
  chain.IsChain fun message cause => ¬cause.toList <:+ message.toList

theorem toldOnce_singleton (message : String) : ToldOnce [message] :=
  List.isChain_singleton message

namespace ConfigError

theorem toldOnce_chain_iff (e : ConfigError) : ToldOnce e.chain ↔ e.chain = [e.message] := by
  have htold : ∀ front cause : String, ¬ToldOnce [front ++ cause, cause] := by
    intro front cause h
    refine List.isChain_pair.mp h ?_
    rw [String.toList_append]
    exact List.suffix_append _ _
  cases e with
  | malformed m => exact iff_of_false (htold _ _) (by simp [chain])
  | unreadable path failure => exact iff_of_false (htold _ _) (by simp [chain])
  | notFound path | invalidName name =>
    rw [chain]
    exact iff_of_true (toldOnce_singleton _) rfl

theorem message_notFound (path : String) : (notFound path).message = "config file not found: " ++ path := rfl

theorem message_invalidName (name : String) : (invalidName name).message =
    "invalid constant name " ++ quoted name ++ ": names are non-empty and contain no whitespace" := rfl

theorem not_suffix_notFound (path : String) :
    ¬(notFound path).message.toList <:+ ("loading config " ++ path).toList := by
  intro h
  have hlength := h.length_le
  simp [message_notFound] at hlength
  omega

theorem suffix_invalidName_iff {name path : String} :
    (invalidName name).message.toList <:+ ("loading config " ++ path).toList ↔
      (invalidName name).message.toList <:+ path.toList := by
  rw [String.toList_append]
  refine ⟨fun h => ?_, List.suffix_append_of_suffix⟩
  rcases List.suffix_or_suffix_of_suffix h (List.suffix_append _ _) with hpath | ⟨front, hfront⟩
  · exact hpath
  · have hstart : (invalidName name).message.toList.take 3 = ['i', 'n', 'v'] := by
      simp [message_invalidName]
    have hwords : ∀ t ∈ "loading config ".toList.tails, t.take 3 <+: ['i', 'n', 'v'] → t = [] := by decide
    rw [← hfront] at h hstart ⊢
    have hempty : front = [] := by
      refine hwords front ((List.mem_tails _ _).mpr (List.suffix_append_self_iff.mp h)) ?_
      rw [← hstart, List.take_append]
      exact List.prefix_append _ _
    rw [hempty]
    exact List.suffix_refl _

end ConfigError

theorem CommandError.toldOnce_loading_iff {path : String} {cause : ConfigError} : ToldOnce (loading path cause).chain ↔
    cause.chain = [cause.message] ∧ ¬cause.message.toList <:+ ("loading config " ++ path).toList := by
  have hhead : ∃ rest, cause.chain = cause.message :: rest := by
    cases cause <;> exact ⟨_, rfl⟩
  obtain ⟨rest, hrest⟩ := hhead
  have hchain : ToldOnce (loading path cause).chain ↔
      ¬cause.message.toList <:+ ("loading config " ++ path).toList ∧ ToldOnce cause.chain := by
    rw [chain, hrest]
    exact List.isChain_cons_cons
  rw [hchain, ConfigError.toldOnce_chain_iff, and_comm]

namespace Program

variable (p : Program)

/-- Which failures of a command tell each cause once. A report on a file and what the system says of it are told by the
message in front of them and then for themselves; else only a path that ends like a message is told twice. -/
structure TellsCauses (path arch : String) : Prop where
  once_iff : ∀ command, command.Shows path arch → ∀ e, p.answer command = .failed e → (ToldOnce e.chain ↔
    (∃ store, Store.load path (p.files path) = .ok store) ∨
      Store.load path (p.files path) = .error (.notFound path) ∨
      ∃ name, Store.load path (p.files path) = .error (.invalidName name) ∧
        ¬(ConfigError.invalidName name).message.toList <:+ path.toList)
  malformed : ∀ m, Store.load path (p.files path) = .error (.malformed m) → ∀ command, command.Shows path arch →
    ∀ e, p.answer command = .failed e →
      errorLine e = "error: loading config " ++ path ++ ": " ++ ("malformed config: " ++ m.report) ++ ": " ++ m.report
  unreadable : ∀ why, Store.load path (p.files path) = .error (.unreadable path why) →
    ∀ command, command.Shows path arch → ∀ e, p.answer command = .failed e →
      errorLine e = "error: loading config " ++ path ++ ": " ++ ("cannot read " ++ path ++ ": " ++ why.message) ++
        ": " ++ why.message

variable {p} {path arch : String} {command : Command} {e : CommandError}

theorem eq_loading_of_error {cause : ConfigError} (h : Store.load path (p.files path) = .error cause)
    (hcommand : command.Shows path arch) (he : p.answer command = .failed e) : e = .loading path cause := by
  rw [p.answer_loading h hcommand] at he
  exact (Exit.failed.inj he).symm

theorem eq_selecting_of_ok {store : Store} (h : Store.load path (p.files path) = .ok store)
    (hcommand : command.Shows path arch) (he : p.answer command = .failed e) :
    e = .selecting (.unknownArchitecture arch ["loongarch64"]) := by
  by_cases harch : arch = "loongarch64"
  · subst harch
    obtain ⟨text, htext⟩ := p.answer_known h hcommand
    cases htext.symm.trans he
  · rw [p.answer_unknown h harch hcommand] at he
    exact (Exit.failed.inj he).symm

theorem errorLine_loading (path : String) (cause : ConfigError) {cause' : String}
    (h : cause.chain = [cause.message, cause']) : errorLine (.loading path cause) =
      "error: loading config " ++ path ++ ": " ++ cause.message ++ ": " ++ cause' := by
  have hwords : "error: loading config " = "error: " ++ "loading config " := by decide
  rw [errorLine, CommandError.message_loading, h, String.intercalate_cons_cons, String.intercalate_singleton, hwords]
  simp only [String.append_assoc]

variable (p path arch)

theorem tellsCauses : p.TellsCauses path arch where
  once_iff command hcommand e he := by
    cases h : Store.load path (p.files path) with
    | ok store =>
      rw [eq_selecting_of_ok h hcommand he]
      exact iff_of_true (toldOnce_singleton _) (.inl ⟨store, rfl⟩)
    | error cause =>
      rw [eq_loading_of_error h hcommand he, CommandError.toldOnce_loading_iff]
      cases cause with
      | malformed m => simp [ConfigError.chain]
      | unreadable path' why => simp [ConfigError.chain]
      | notFound path' =>
        obtain ⟨-, rfl⟩ := Store.load_eq_notFound_iff.mp h
        exact iff_of_true ⟨rfl, ConfigError.not_suffix_notFound path'⟩ (.inr (.inl rfl))
      | invalidName name =>
        rw [ConfigError.suffix_invalidName_iff]
        simp [ConfigError.chain]
  malformed m h command hcommand e he := by
    rw [eq_loading_of_error h hcommand he]
    exact errorLine_loading path (.malformed m) rfl
  unreadable why h command hcommand e he := by
    rw [eq_loading_of_error h hcommand he]
    exact errorLine_loading path (.unreadable path why) rfl

theorem tellsCauses_absent :
    let p : Program := ⟨FileTree.empty.read, none, id⟩
    ∃ e, p.answer (.assemble "vm.toml" "loongarch64") = .failed e ∧ ToldOnce e.chain := by
  intro p
  have hload : Store.load "vm.toml" (p.files "vm.toml") = .error (.notFound "vm.toml") := rfl
  have hshows : (Command.assemble "vm.toml" "loongarch64").Shows "vm.toml" "loongarch64" := .assemble
  have hanswer := p.answer_loading hload hshows
  exact ⟨_, hanswer, ((p.tellsCauses _ _).once_iff _ hshows _ hanswer).mpr (.inr (.inl hload))⟩

/-- A directory, and a file that holds no constants, are each told twice. -/
theorem tellsCauses_repeated :
    let tree : FileTree := .directory [("conf", .empty), ("vm.toml", .file "constants = 5\n".toUTF8)]
    let p : Program := ⟨tree.read, none, id⟩
    (∃ e, p.answer (.target "conf" "loongarch64" false) = .failed e ∧ ¬ToldOnce e.chain ∧ errorLine e =
      "error: loading config conf: cannot read conf: Is a directory (os error 21): Is a directory (os error 21)") ∧
      ∃ e, p.answer (.assemble "vm.toml" "loongarch64") = .failed e ∧ ¬ToldOnce e.chain := by
  intro tree p
  let m : Malformed := ⟨"constants = 5\n".toList, ⟨2, 1⟩, .misfit (.notATable "integer `5`")⟩
  have hload : Store.load "conf" (p.files "conf") = .error (.unreadable "conf" .isDirectory) := rfl
  have hparse : Store.parse "constants = 5\n" = .error (.malformed m) := by decide +kernel
  have hload' : Store.load "vm.toml" (p.files "vm.toml") = .error (.malformed m) := by
    have hread : p.files "vm.toml" = .contents "constants = 5\n".toUTF8 := rfl
    rw [hread, Store.load_toUTF8, hparse]
  have htold : ∀ {path : String} {cause : ConfigError}, cause.chain.length = 2 →
      ¬ToldOnce (CommandError.loading path cause).chain := by
    intro path cause hlength h
    rw [CommandError.toldOnce_loading_iff] at h
    rw [h.1] at hlength
    cases hlength
  refine ⟨⟨_, p.answer_loading hload (.target false), htold rfl, ?_⟩, _, p.answer_loading hload' .assemble, htold rfl⟩
  rw [errorLine_loading "conf" (.unreadable "conf" .isDirectory) rfl]
  decide +kernel

end Program

end BackendAssembly
