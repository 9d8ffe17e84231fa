import BackendAssembly.Proofs.CommandTranslation

namespace BackendAssembly

def lineBreaks : List Char :=
  ['\n', '\x0b', '\x0c', '\r', '\u0085', '\u2028', '\u2029']

def OneLine (text : String) : Prop :=
  ∀ c ∈ lineBreaks, c ∉ text.toList

instance (text : String) : Decidable (OneLine text) :=
  List.decidableBAll (fun c => c ∉ text.toList) lineBreaks

theorem Malformed.not_oneLine_report (m : Malformed) : ¬ OneLine m.report := by
  intro h
  refine h '\n' (by decide) ?_
  simp [report, line]

/-- The line breaks of a text are those of these parts of it. -/
def Breaks (text : String) (parts : List String) : Prop :=
  ∀ c ∈ lineBreaks, c ∈ text.toList ↔ ∃ part ∈ parts, c ∈ part.toList

namespace Breaks

variable {text text' : String} {parts parts' : List String}

theorem of_oneLine (h : OneLine text) : Breaks text [] := fun c hc =>
  ⟨fun hmem => absurd hmem (h c hc), nofun⟩

theorem self (text : String) : Breaks text [text] := by
  intro c _
  simp

theorem append (h : Breaks text parts) (h' : Breaks text' parts') : Breaks (text ++ text') (parts ++ parts') := by
  intro c hc
  rw [String.toList_append, List.mem_append, h c hc, h' c hc]
  simp only [List.mem_append, or_and_right, exists_or]

/-- It does not matter how often a part is shown. -/
theorem of_mem_iff (h : Breaks text parts) (hparts : ∀ part, part ∈ parts ↔ part ∈ parts') : Breaks text parts' := by
  intro c hc
  simp only [h c hc, hparts]

theorem oneLine_iff (h : Breaks text parts) : OneLine text ↔ ∀ part ∈ parts, OneLine part := by
  constructor
  · intro htext part hpart c hc hmem
    exact htext c hc ((h c hc).mpr ⟨part, hpart, hmem⟩)
  · intro hparts c hc hmem
    obtain ⟨part, hpart, hmem⟩ := (h c hc).mp hmem
    exact hparts part hpart c hc hmem

end Breaks

theorem mem_toDigits {b n : Nat} (hb : 1 < b) {c : Char} (h : c ∈ Nat.toDigits b n) :
    ∃ d < b, c = Nat.digitChar d := by
  induction n using Nat.strong_induction_on with
  | _ n ih =>
    rw [Nat.toDigits_eq_if hb] at h
    split at h
    next hlt => exact ⟨n, hlt, List.mem_singleton.mp h⟩
    next hge =>
      rcases List.mem_append.mp h with h | h
      · exact ih (n / b) (Nat.div_lt_self (by omega) hb) h
      · exact ⟨n % b, Nat.mod_lt n (by omega), List.mem_singleton.mp h⟩

theorem isEscaped_of_mem_lineBreaks {c : Char} (hc : c ∈ lineBreaks) : isEscaped c = true := by
  have hall : lineBreaks.all isEscaped = true := by decide +kernel
  exact List.all_eq_true.mp hall c hc

theorem not_mem_escapes {c : Char} (hc : c ∈ lineBreaks) : c ∉ ['\\', '0', 't', 'r', 'n', '"', 'u', '{', '}'] := by
  have hall : lineBreaks.all (fun c => c ∉ ['\\', '0', 't', 'r', 'n', '"', 'u', '{', '}']) = true := by decide
  exact of_decide_eq_true (List.all_eq_true.mp hall c hc)

theorem not_mem_quotedChar {c : Char} (hc : c ∈ lineBreaks) (d : Char) : c ∉ quotedChar d := by
  have hdigit : ∀ k < 16, Nat.digitChar k ∉ lineBreaks := by decide
  have hmem := not_mem_escapes hc
  simp only [List.mem_cons, List.not_mem_nil, or_false, not_or] at hmem
  unfold quotedChar
  split_ifs with h0 ht hr hn hself hnumber
  · simp [hmem]
  · simp [hmem]
  · simp [hmem]
  · simp [hmem]
  · rcases hself with rfl | rfl <;> simp [hmem]
  · intro h
    simp only [List.mem_append, List.mem_cons, List.not_mem_nil, or_false, hmem, false_or] at h
    obtain ⟨k, hk, rfl⟩ := mem_toDigits (by decide) h
    exact hdigit k hk hc
  · intro h
    cases List.mem_singleton.mp h
    exact hnumber (isEscaped_of_mem_lineBreaks hc)

theorem oneLine_quoted (s : String) : OneLine (quoted s) := by
  intro c hc h
  have hquote : c ≠ '"' := fun heq => not_mem_escapes hc (by simp [heq])
  simp only [quoted, String.toList_ofList, List.mem_append, List.mem_cons, List.mem_flatMap, List.not_mem_nil,
    or_false, hquote, false_or] at h
  obtain ⟨d, -, hd⟩ := h
  exact not_mem_quotedChar hc d hd

def ConfigError.verbatim : ConfigError → List String
  | malformed m => [m.report]
  | unreadable path failure => [path, failure.message]
  | notFound path => [path]
  | invalidName _ => []

theorem ConfigError.breaks_message (e : ConfigError) : Breaks e.message e.verbatim := by
  cases e with
  | malformed m => exact .append (.of_oneLine (by decide)) (.self _)
  | unreadable path failure =>
    have hpath : Breaks ("cannot read " ++ path) [path] := .append (.of_oneLine (by decide)) (.self _)
    have hcolon : Breaks ("cannot read " ++ path ++ ": ") [path] := hpath.append (.of_oneLine (by decide))
    exact hcolon.append (.self _)
  | notFound path => exact .append (.of_oneLine (by decide)) (.self _)
  | invalidName name =>
    have hname : Breaks ("invalid constant name " ++ quoted name) [] :=
      .append (.of_oneLine (by decide)) (.of_oneLine (oneLine_quoted name))
    exact hname.append (.of_oneLine (by decide))

theorem ConfigError.breaks_chain (e : ConfigError) : Breaks (": ".intercalate e.chain) e.verbatim := by
  have hcolon : Breaks ": " [] := .of_oneLine (by decide)
  have hmessage := e.breaks_message
  cases e with
  | malformed m =>
    rw [chain, String.intercalate_cons_cons, String.intercalate_singleton]
    exact ((hmessage.append hcolon).append (.self m.report)).of_mem_iff (by simp [verbatim])
  | unreadable path failure =>
    rw [chain, String.intercalate_cons_cons, String.intercalate_singleton]
    exact ((hmessage.append hcolon).append (.self failure.message)).of_mem_iff (by simp [verbatim])
  | notFound path | invalidName name =>
    rw [chain, String.intercalate_singleton]
    exact hmessage

namespace Program

theorem breaks_loading (path : String) (cause : ConfigError) :
    Breaks (errorLine (.loading path cause)) (path :: cause.verbatim) := by
  have herror : Breaks "error: " [] := .of_oneLine (by decide)
  have hcolon : Breaks ": " [] := .of_oneLine (by decide)
  have hpath : Breaks ("loading config " ++ path) [path] := .append (.of_oneLine (by decide)) (.self _)
  rw [errorLine, CommandError.message_loading]
  exact herror.append ((hpath.append hcolon).append cause.breaks_chain)

theorem breaks_selecting (arch : String) :
    Breaks (errorLine (.selecting (.unknownArchitecture arch ["loongarch64"]))) [arch] := by
  have herror : Breaks "error: " [] := .of_oneLine (by decide)
  have hname : Breaks ("no backend factory for architecture '" ++ arch) [arch] :=
    .append (.of_oneLine (by decide)) (.self _)
  have havailable : Breaks ("no backend factory for architecture '" ++ arch ++ "' (available: ") [arch] :=
    hname.append (.of_oneLine (by decide))
  have hnames : Breaks (", ".intercalate ["loongarch64"]) [] := .of_oneLine (by decide +kernel)
  have hclosed : Breaks ")" [] := .of_oneLine (by decide)
  exact herror.append ((havailable.append hnames).append hclosed)

variable (p : Program)

/-- What a command prints when it fails. Its line is broken by what it shows just as it is: the path, the name of the
architecture, what the system says of the file, and the report on what the file holds, which is never one line. -/
structure TellsError (path arch : String) : Prop where
  printed : ∀ command, command.Shows path arch → ∀ e, p.answer command = .failed e →
    ("error: ".toList <+: (errorLine e).toList) ∧
      ∀ verbosity, ∃ log, p.carryOut ⟨verbosity, command⟩ = ⟨1, "", log ++ line (errorLine e)⟩
  loading : ∀ cause, Store.load path (p.files path) = .error cause → ∀ command, command.Shows path arch →
    ∀ e, p.answer command = .failed e → Breaks (errorLine e) (path :: cause.verbatim)
  selecting : ∀ store, Store.load path (p.files path) = .ok store → ∀ command, command.Shows path arch →
    ∀ e, p.answer command = .failed e → Breaks (errorLine e) [arch]
  oneLine_iff : ∀ command, command.Shows path arch → ∀ e, p.answer command = .failed e → (OneLine (errorLine e) ↔
    ((∃ store, Store.load path (p.files path) = .ok store) ∧ OneLine arch) ∨
      ∃ cause, Store.load path (p.files path) = .error cause ∧ (∀ m, cause ≠ .malformed m) ∧
        ∀ text ∈ path :: cause.verbatim, OneLine text)

variable {p} {path arch : String} {command : Command} {e : CommandError}

theorem breaks_of_error {cause : ConfigError} (h : Store.load path (p.files path) = .error cause)
    (hcommand : command.Shows path arch) (he : p.answer command = .failed e) :
    Breaks (errorLine e) (path :: cause.verbatim) := by
  rw [p.answer_loading h hcommand] at he
  cases he
  exact breaks_loading path cause

theorem breaks_of_ok {store : Store} (h : Store.load path (p.files path) = .ok store)
    (hcommand : command.Shows path arch) (he : p.answer command = .failed e) : Breaks (errorLine e) [arch] := by
  by_cases harch : arch = "loongarch64"
  · subst harch
    obtain ⟨text, htext⟩ := p.answer_known h hcommand
    cases htext.symm.trans he
  · rw [p.answer_unknown h harch hcommand] at he
    cases he
    exact breaks_selecting arch

variable (p path arch)

theorem tellsError : p.TellsError path arch where
  printed command _ e he := by
    refine ⟨?_, p.carryOut_failed he⟩
    rw [errorLine, String.toList_append]
    exact List.prefix_append _ _
  loading cause h command hcommand e he := breaks_of_error h hcommand he
  selecting store h command hcommand e he := breaks_of_ok h hcommand he
  oneLine_iff command hcommand e he := by
    cases h : Store.load path (p.files path) with
    | ok store =>
      rw [(breaks_of_ok h hcommand he).oneLine_iff]
      simp
    | error cause =>
      rw [(breaks_of_error h hcommand he).oneLine_iff]
      constructor
      · intro hall
        refine .inr ⟨cause, rfl, ?_, hall⟩
        rintro m rfl
        exact m.not_oneLine_report (hall _ (List.mem_cons_of_mem _ List.mem_cons_self))
      · rintro (⟨⟨_, ⟨⟩⟩, -⟩ | ⟨_, ⟨⟩, -, hall⟩)
        exact hall

theorem tellsError_absent :
    let p : Program := ⟨fun _ => .absent, none, id⟩
    ∃ e, p.answer (.target "absent.toml" "loongarch64" false) = .failed e ∧ OneLine (errorLine e) := by
  intro p
  have hload : Store.load "absent.toml" (p.files "absent.toml") = .error (.notFound "absent.toml") := rfl
  have hshows : (Command.target "absent.toml" "loongarch64" false).Shows "absent.toml" "loongarch64" := .target false
  have hanswer := p.answer_loading hload hshows
  have hparts : ∀ text ∈ ["absent.toml", "absent.toml"], OneLine text := by decide
  exact ⟨_, hanswer, ((p.tellsError _ _).oneLine_iff _ hshows _ hanswer).mpr (.inr ⟨_, hload, nofun, hparts⟩)⟩

/-- The name of an architecture is shown as it is given, and a report on a file has lines of its own. -/
theorem errorLine_broken :
    let text (path : String) := if path = "five.toml" then "constants = 5\n" else ""
    let p : Program := ⟨fun path => .contents (text path).toUTF8, none, id⟩
    (∃ e, p.answer (.target "vm.toml" "a\nb" false) = .failed e ∧ ¬ OneLine (errorLine e)) ∧
      ∃ e, p.answer (.assemble "five.toml" "loongarch64") = .failed e ∧ ¬ OneLine (errorLine e) := by
  intro text p
  let m : Malformed := ⟨"constants = 5\n".toList, ⟨2, 1⟩, .misfit (.notATable "integer `5`")⟩
  have hempty : Store.parse "" = .ok .empty := by decide +kernel
  have hfive : Store.parse "constants = 5\n" = .error (.malformed m) := by decide +kernel
  have hload : Store.load "vm.toml" (p.files "vm.toml") = .ok .empty := hempty ▸ Store.load_toUTF8 ..
  have hload' : Store.load "five.toml" (p.files "five.toml") = .error (.malformed m) := hfive ▸ Store.load_toUTF8 ..
  refine ⟨⟨_, p.answer_unknown hload (by decide) (.target false), ?_⟩, _, p.answer_loading hload' .assemble, ?_⟩
  · decide +kernel
  · intro h
    have hparts := (breaks_loading "five.toml" (.malformed m)).oneLine_iff.mp h
    exact m.not_oneLine_report (hparts _ (List.mem_cons_of_mem _ List.mem_cons_self))

end Program

end BackendAssembly
