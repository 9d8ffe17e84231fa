import BackendAssembly.Proofs.TargetRendering
import BackendAssembly.Report

namespace BackendAssembly

section Lists

variable {α β γ : Type} {xs ys : List α}

theorem map_eq_map_of {f : α → β} {g : α → γ} (hfg : ∀ x ∈ xs, ∀ y ∈ ys, f x = f y → g x = g y)
    (h : xs.map f = ys.map f) : xs.map g = ys.map g := by
  induction xs generalizing ys with
  | nil =>
    cases ys with
    | nil => rfl
    | cons y ys => cases h
  | cons x xs ih =>
    cases ys with
    | nil => cases h
    | cons y ys =>
      obtain ⟨hhead, htail⟩ := List.cons.inj h
      have hrest := ih (fun x' hx' y' hy' => hfg x' (List.mem_cons_of_mem x hx') y' (List.mem_cons_of_mem y hy')) htail
      rw [List.map_cons, List.map_cons, hfg x List.mem_cons_self y List.mem_cons_self hhead, hrest]

theorem append_leavesOff_inj {p : Char → Bool} {u v x y : List Char} (hu : ∀ c ∈ u, p c = true)
    (hv : ∀ c ∈ v, p c = true) (hx : Reader.LeavesOff p x) (hy : Reader.LeavesOff p y) (h : u ++ x = v ++ y) :
    u = v ∧ x = y := by
  have htake := Reader.takeWhile_append_of_leavesOff hu hx
  have hdrop := Reader.dropWhile_append_of_leavesOff hu hx
  rw [h, Reader.takeWhile_append_of_leavesOff hv hy] at htake
  rw [h, Reader.dropWhile_append_of_leavesOff hv hy] at hdrop
  exact ⟨htake.symm, hdrop.symm⟩

theorem append_digits_inj {u v ds es : List Char} {c : Char} (hc : c.isDigit = false)
    (hds : ∀ d ∈ ds, d.isDigit = true) (hes : ∀ d ∈ es, d.isDigit = true) (h : u ++ c :: ds = v ++ c :: es) :
    u = v ∧ ds = es := by
  have hreverse : ds.reverse ++ c :: u.reverse = es.reverse ++ c :: v.reverse := by
    simpa using congrArg List.reverse h
  obtain ⟨hdigits, hfront⟩ := append_leavesOff_inj (fun d hd => hds d (List.mem_reverse.mp hd))
    (fun d hd => hes d (List.mem_reverse.mp hd)) (Reader.leavesOff_cons hc) (Reader.leavesOff_cons hc) hreverse
  exact ⟨List.reverse_injective (List.cons.inj hfront).2, List.reverse_injective hdigits⟩

end Lists

theorem toDigits_inj {m n : Nat} (h : Nat.toDigits 10 m = Nat.toDigits 10 n) : m = n := by
  rw [← Reader.digitsValue_toDigits m, h, Reader.digitsValue_toDigits]

theorem Duration.toList_text (d : Duration) : d.text.toList = Nat.toDigits 10 d.micros ++ [' ', 'u', 's'] := by
  simp [text]

namespace StageTime

def shown (stage : StageTime) : String × Nat × Nat :=
  (stage.name, stage.depth, stage.elapsed.micros)

/-- The name of the stage stays on its line, and does not start like more indentation. -/
def Plain (stage : StageTime) : Prop :=
  '\n' ∉ stage.name.toList ∧ stage.name.toList.head? ≠ some ' '

def row (stage : StageTime) : String :=
  "  " ++ spaces (2 * stage.depth) ++ stage.name ++ ": " ++ stage.elapsed.text

variable {stage stage' : StageTime}

theorem toList_row (stage : StageTime) : stage.row.toList = List.replicate (2 * stage.depth + 2) ' ' ++
    ((stage.name.toList ++ [':'] ++ ' ' :: Nat.toDigits 10 stage.elapsed.micros) ++ [' ', 'u', 's']) := by
  have hindent : "  ".toList ++ List.replicate (2 * stage.depth) ' ' = List.replicate (2 * stage.depth + 2) ' ' := by
    rw [Nat.add_comm, List.replicate_add]
    rfl
  rw [row, String.toList_append, String.toList_append, String.toList_append, String.toList_append, toList_spaces,
    hindent, Duration.toList_text]
  simp

theorem row_congr (h : stage.shown = stage'.shown) : stage.row = stage'.row := by
  simp only [shown, Prod.mk.injEq] at h
  obtain ⟨hname, hdepth, hmicros⟩ := h
  rw [row, row, hname, hdepth, Duration.text, Duration.text, hmicros]

theorem Plain.leavesOff (h : stage.Plain) (rest : List Char) :
    Reader.LeavesOff (· == ' ') (stage.name.toList ++ ':' :: rest) := by
  have hhead := h.2
  cases hname : stage.name.toList with
  | nil => exact Reader.leavesOff_cons rfl
  | cons c cs =>
    rw [hname, List.head?_cons, Ne, Option.some.injEq] at hhead
    exact Reader.leavesOff_cons (beq_eq_false_iff_ne.mpr hhead)

/-- The indentation ends where the name or the colon starts, and the number starts behind the last blank but one,
whatever the name is made of. -/
theorem shown_of_row (hplain : stage.Plain) (hplain' : stage'.Plain) (h : stage.row = stage'.row) :
    stage.shown = stage'.shown := by
  have hblank : ∀ n : Nat, ∀ c ∈ List.replicate n ' ', (c == ' ') = true := fun n c hc =>
    beq_iff_eq.mpr (List.eq_of_mem_replicate hc)
  have hchars := congrArg String.toList h
  rw [toList_row, toList_row] at hchars
  obtain ⟨hindent, hrest⟩ := append_leavesOff_inj (hblank _) (hblank _) (by simpa using hplain.leavesOff _)
    (by simpa using hplain'.leavesOff _) hchars
  have hlength := congrArg List.length hindent
  simp only [List.length_replicate] at hlength
  obtain ⟨hfront, hdigits⟩ := append_digits_inj (by decide) (fun _ => Reader.isDigit_of_mem_decimal)
    (fun _ => Reader.isDigit_of_mem_decimal) (List.append_cancel_right hrest)
  have hname : stage.name = stage'.name := String.toList_inj.mp (List.append_cancel_right hfront)
  have hdepth : stage.depth = stage'.depth := by omega
  rw [shown, shown, hname, hdepth, toDigits_inj hdigits]

theorem Plain.not_mem_row (h : stage.Plain) : '\n' ∉ stage.row.toList := by
  have hdigits : '\n' ∉ Nat.toDigits 10 stage.elapsed.micros := Target.not_mem_decimal (by decide)
  rw [toList_row]
  simp [h.1, hdigits]

end StageTime

namespace Report

def body (report : Report) : String :=
  line "=== Assembly Report ===" ++
  line ("Architecture: " ++ report.architecture ++ " (Backend:" ++ report.architecture ++ ")") ++
  line ("Duration: " ++ report.total.text) ++
  line "" ++
  line report.target.text ++
  line "" ++
  line "--- Providers ---" ++
  String.join (report.providers.map providerLine)

def underHeading : List String → List String
  | [] => []
  | row :: rows => "" :: ("--- Stages (" ++ toString (row :: rows).length ++ ") ---") :: row :: rows

theorem text_eq_body_append (report : Report) : report.text = report.body ++ stagesText report.stages := rfl

theorem underHeading_of_ne_nil {rows : List String} (h : rows ≠ []) :
    underHeading rows = "" :: ("--- Stages (" ++ toString rows.length ++ ") ---") :: rows := by
  obtain ⟨row, rows, rfl⟩ := List.exists_cons_of_ne_nil h
  rfl

theorem underHeading_inj {rows rows' : List String} (h : underHeading rows = underHeading rows') : rows = rows' := by
  cases rows with
  | nil =>
    cases rows' with
    | nil => rfl
    | cons => cases h
  | cons =>
    cases rows' with
    | nil => cases h
    | cons => exact (List.cons.inj (List.cons.inj h).2).2

theorem lineFeed_not_mem_underHeading {rows : List String} (h : ∀ row ∈ rows, '\n' ∉ row.toList) :
    ∀ row ∈ underHeading rows, '\n' ∉ row.toList := by
  intro row hrow
  by_cases hne : rows = []
  · subst hne
    cases hrow
  rw [underHeading_of_ne_nil hne, List.mem_cons, List.mem_cons] at hrow
  rcases hrow with rfl | rfl | hrow
  · decide
  · have hdigits : '\n' ∉ Nat.toDigits 10 rows.length := Target.not_mem_decimal (by decide)
    simp [hdigits]
  · exact h row hrow

section Stages

variable {stages stages' : List StageTime}

theorem stagesText_eq_lines (stages : List StageTime) :
    stagesText stages = String.join ((underHeading (stages.map StageTime.row)).map line) := by
  cases stages with
  | nil => rfl
  | cons stage stages =>
    have hne : (stage :: stages).map StageTime.row ≠ [] := List.cons_ne_nil _ _
    rw [underHeading_of_ne_nil hne, List.length_map, List.map_cons, List.map_cons, String.join_cons, String.join_cons,
      List.map_map, ← String.append_assoc]
    rfl

theorem pieces_stagesText (h : ∀ stage ∈ stages, stage.Plain) :
    pieces '\n' (stagesText stages) = underHeading (stages.map StageTime.row) ++ [""] := by
  rw [stagesText_eq_lines]
  refine pieces_lines (lineFeed_not_mem_underHeading fun row hrow => ?_)
  obtain ⟨stage, hstage, rfl⟩ := List.mem_map.mp hrow
  exact (h stage hstage).not_mem_row

/-- The lines tell the stages, and there is nothing else that they depend on. -/
theorem stagesText_inj (h : ∀ stage ∈ stages, stage.Plain) (h' : ∀ stage ∈ stages', stage.Plain) :
    stagesText stages = stagesText stages' ↔ stages.map StageTime.shown = stages'.map StageTime.shown := by
  constructor
  · intro htext
    have hpieces := pieces_stagesText h
    rw [htext, pieces_stagesText h'] at hpieces
    have hrows := underHeading_inj (List.append_cancel_right hpieces).symm
    exact map_eq_map_of (fun stage hstage stage' hstage' =>
      StageTime.shown_of_row (h stage hstage) (h' stage' hstage')) hrows
  · intro hshown
    rw [stagesText_eq_lines, stagesText_eq_lines, map_eq_map_of (fun _ _ _ _ => StageTime.row_congr) hshown]

theorem stagesText_eq_empty_iff : stagesText stages = "" ↔ stages = [] := by
  constructor
  · intro h
    cases stages with
    | nil => rfl
    | cons stage stages =>
      have hne : (stage :: stages).map StageTime.row ≠ [] := List.cons_ne_nil _ _
      rw [stagesText_eq_lines, underHeading_of_ne_nil hne, List.map_cons, String.join_cons] at h
      have hchars := congrArg String.toList h
      simp [line] at hchars
  · rintro rfl
    rfl

end Stages

structure Alike (report report' : Report) : Prop where
  architecture : report.architecture = report'.architecture
  target : report.target = report'.target
  providers : report.providers = report'.providers
  total : report.total = report'.total

theorem Alike.body {report report' : Report} (h : Alike report report') : report.body = report'.body := by
  rw [Report.body, Report.body, h.architecture, h.target, h.providers, h.total]

def LaidOut (report : Report) : Prop :=
  ∀ stage ∈ report.stages, 2 * stage.depth ≤ widestField

def Prints (report : Report) (text : String) : Prop :=
  (report.print : Exit Empty String) = .returned text

theorem LaidOut.prints {report : Report} (h : report.LaidOut) :
    report.Prints (report.body ++ stagesText report.stages) := by
  rw [← text_eq_body_append]
  exact if_pos (List.all_eq_true.mpr fun stage hstage => decide_eq_true (h stage hstage))

theorem print_of_deep {report : Report} {stage : StageTime} (hstage : stage ∈ report.stages)
    (hdeep : widestField < 2 * stage.depth) :
    (report.print : Exit Empty String) = .panicked "Formatting argument out of range" := by
  refine if_neg fun hall => ?_
  have hdepth := of_decide_eq_true (List.all_eq_true.mp hall stage hstage)
  omega

theorem stage?_eq_some_iff {report : Report} {name : String} {stage : StageTime} :
    report.stage? name = some stage ↔ stage.name = name ∧
      ∃ before after, report.stages = before ++ stage :: after ∧ ∀ earlier ∈ before, earlier.name ≠ name := by
  rw [stage?, List.find?_eq_some_iff_append]
  simp only [beq_iff_eq, Bool.not_eq_true', beq_eq_false_iff_ne]

theorem stage?_eq_none_iff {report : Report} {name : String} :
    report.stage? name = none ↔ ∀ stage ∈ report.stages, stage.name ≠ name := by
  rw [stage?, List.find?_eq_none]
  simp only [beq_iff_eq]

/-- What a report that is laid out tells of its stages. -/
structure TellsStages (report : Report) : Prop where
  told : ∀ report', Alike report report' → report.LaidOut → report'.LaidOut →
    (∀ stage ∈ report.stages, stage.Plain) → (∀ stage ∈ report'.stages, stage.Plain) →
      ∃ text text', report.Prints text ∧ report'.Prints text' ∧
        (text = text' ↔ report.stages.map StageTime.shown = report'.stages.map StageTime.shown)
  sectioned : report.LaidOut → ∃ front part, report.Prints (front ++ part) ∧
    Report.Prints { report with stages := [] } front ∧ (part ≠ "" ↔ report.stages ≠ []) ∧
      ((∀ stage ∈ report.stages, stage.Plain) → report.stages ≠ [] → pieces '\n' part =
        "" :: ("--- Stages (" ++ toString report.stages.length ++ ") ---") :: report.stages.map StageTime.row ++ [""])
  found : ∀ name stage, report.stage? name = some stage ↔ stage.name = name ∧
    ∃ before after, report.stages = before ++ stage :: after ∧ ∀ earlier ∈ before, earlier.name ≠ name
  missed : ∀ name, report.stage? name = none ↔ ∀ stage ∈ report.stages, stage.name ≠ name

theorem tellsStages_print (report : Report) : report.TellsStages where
  told report' halike hlaid hlaid' hplain hplain' := by
    refine ⟨_, _, hlaid.prints, hlaid'.prints, ?_⟩
    rw [halike.body, String.append_right_inj, stagesText_inj hplain hplain']
  sectioned hlaid := by
    have hfront : Report.Prints { report with stages := [] } (report.body ++ "") := LaidOut.prints nofun
    rw [String.append_empty] at hfront
    refine ⟨report.body, _, hlaid.prints, hfront, not_congr stagesText_eq_empty_iff, fun hplain hne => ?_⟩
    have hrows : report.stages.map StageTime.row ≠ [] := by simpa using hne
    rw [pieces_stagesText hplain, underHeading_of_ne_nil hrows, List.length_map]
  found _ _ := stage?_eq_some_iff
  missed _ := stage?_eq_none_iff

theorem tellsStages_print_colon :
    let report (nanos : Nat) : Report := ⟨"loongarch64", .ofStore .empty .none, [], [⟨"a: 1 us", 2, ⟨nanos⟩⟩], .zero⟩
    (∃ text, (report 2000).Prints text ∧ (report 2999).Prints text) ∧
      ∃ text text', (report 2000).Prints text ∧ (report 3000).Prints text' ∧ text ≠ text' := by
  intro report
  have halike : ∀ m n, Alike (report m) (report n) := fun _ _ => ⟨rfl, rfl, rfl, rfl⟩
  have hlaid : ∀ n, (report n).LaidOut := by
    intro n stage hstage
    cases List.mem_singleton.mp hstage
    have hdepth : 2 * 2 ≤ widestField := by decide
    exact hdepth
  have hplain : ∀ n, ∀ stage ∈ (report n).stages, stage.Plain := by
    intro n stage hstage
    cases List.mem_singleton.mp hstage
    have hname : '\n' ∉ "a: 1 us".toList ∧ "a: 1 us".toList.head? ≠ some ' ' := by decide
    exact hname
  have htold := fun m n =>
    (tellsStages_print (report m)).told _ (halike m n) (hlaid m) (hlaid n) (hplain m) (hplain n)
  constructor
  · obtain ⟨text, text', hprints, hprints', hiff⟩ := htold 2000 2999
    obtain rfl := hiff.mpr rfl
    exact ⟨text, hprints, hprints'⟩
  · obtain ⟨text, text', hprints, hprints', hiff⟩ := htold 2000 3000
    exact ⟨text, text', hprints, hprints', fun htext => absurd (hiff.mp htext) (by decide)⟩

/-- Further in than a field is wide, reports on different stages end in the same panic, and neither has a text. -/
theorem tellsStages_tooDeep :
    let report (name : String) : Report := ⟨"loongarch64", .ofStore .empty .none, [], [⟨name, 32768, .zero⟩], .zero⟩
    Alike (report "a") (report "b") ∧ (∀ name ∈ ["a", "b"], ∀ stage ∈ (report name).stages, stage.Plain) ∧
      (report "a").stages.map StageTime.shown ≠ (report "b").stages.map StageTime.shown ∧
      ((report "a").print : Exit Empty String) = (report "b").print ∧
      ∀ name text, ¬(report name).Prints text := by
  intro report
  have hdeep : widestField < 2 * 32768 := by decide
  have hpanics : ∀ name, ((report name).print : Exit Empty String) = .panicked "Formatting argument out of range" :=
    fun _ => print_of_deep List.mem_cons_self hdeep
  refine ⟨⟨rfl, rfl, rfl, rfl⟩, ?_, by decide, by rw [hpanics, hpanics], fun name text h => ?_⟩
  · intro name hname stage hstage
    cases List.mem_singleton.mp hstage
    revert name
    unfold StageTime.Plain
    decide
  · cases (hpanics name).symm.trans h

end Report

end BackendAssembly
