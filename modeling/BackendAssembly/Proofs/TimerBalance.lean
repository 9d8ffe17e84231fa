import BackendAssembly.Proofs.AssemblyCourse

namespace BackendAssembly

def Component.stageName : Component → String
  | registerConfig => "create RegisterConfig"
  | metaAccess => "create MetaAccess provider"
  | codeCache => "create CodeCache provider"
  | constantReflection => "create ConstantReflection provider"
  | stackIntrospection => "create StackIntrospection provider"

namespace Event

def indentation (e : Event) : Nat :=
  (e.message.toList.takeWhile fun c => c == ' ').length

/-- The stages that are open after an event, innermost first, if the event is in its place. A stage is opened and closed
with two spaces for each stage around it and each timer that was open before; only the innermost one can be closed; and
a refusal belongs to the innermost one. -/
def follow (outside : Nat) (opened : List String) (e : Event) : Option (List String) :=
  match e with
  | started name _ => if e.indentation = 2 * (outside + opened.length) then some (name :: opened) else none
  | finished name _ _ =>
    match opened with
    | [] => none
    | innermost :: around =>
      if name = innermost ∧ e.indentation = 2 * (outside + around.length) then some around else none
  | refused component _ _ => if opened.head? = some component.stageName then some opened else none
  | advanced .. | assembled .. | creating _ | loaded .. => some opened

theorem length_takeWhile_spaces (n : Nat) {c : Char} (hc : c ≠ ' ') (rest : List Char) :
    (((spaces n).toList ++ c :: rest).takeWhile fun c => c == ' ').length = n := by
  have hspaces : ∀ a ∈ List.replicate n ' ', (a == ' ') = true := by
    intro a ha
    rw [List.eq_of_mem_replicate ha]
    rfl
  rw [toList_spaces, List.takeWhile_append_of_pos hspaces, List.takeWhile_cons_of_neg (by simpa using hc),
    List.append_nil, List.length_replicate]

theorem indentation_started (name : String) (depth : Nat) : (started name depth).indentation = 2 * depth := by
  have hletter : 'S' ≠ ' ' := by decide
  have hmessage : (started name depth).message.toList =
      (spaces (2 * depth)).toList ++ 'S' :: ("TART: ".toList ++ name.toList) := by
    have hstart : "START: ".toList = 'S' :: "TART: ".toList := by decide
    unfold message
    rw [String.toList_append, String.toList_append, List.append_assoc, hstart, List.cons_append]
  rw [indentation, hmessage, length_takeWhile_spaces _ hletter]

theorem indentation_finished (name : String) (depth : Nat) (elapsed : Duration) :
    (finished name depth elapsed).indentation = 2 * depth := by
  have hletter : 'F' ≠ ' ' := by decide
  have hmessage : (finished name depth elapsed).message.toList = (spaces (2 * depth)).toList ++
      'F' :: ("INISHED: ".toList ++ (name ++ " (" ++ elapsed.text ++ ")").toList) := by
    have hfinished : "FINISHED: ".toList = 'F' :: "INISHED: ".toList := by decide
    unfold message
    simp only [String.toList_append, List.append_assoc, hfinished, List.cons_append]
  rw [indentation, hmessage, length_takeWhile_spaces _ hletter]

theorem follow_started (outside : Nat) (opened : List String) (name : String) :
    (started name (outside + opened.length)).follow outside opened = some (name :: opened) :=
  if_pos (indentation_started _ _)

theorem follow_finished (outside : Nat) (around : List String) (name : String) (elapsed : Duration) :
    (finished name (outside + around.length) elapsed).follow outside (name :: around) = some around :=
  if_pos ⟨rfl, indentation_finished _ _ _⟩

theorem follow_untimed (outside : Nat) (opened : List String) (e : Event) :
    e.untimed.follow outside opened = e.follow outside opened := by
  cases e with
  | finished name depth elapsed =>
    cases opened with
    | nil => rfl
    | cons innermost around => simp only [untimed, follow, indentation_finished]
  | started | advanced | refused | assembled | creating | loaded => rfl

end Event

namespace Course

variable {ε α β : Type}

/-- Among any open stages, the course leaves them open and closes all that it opens. -/
def Balanced (c : Course ε α) : Prop :=
  ∀ o outside opened, o.depth = outside + opened.length →
    (c o).events.foldlM (Event.follow outside) opened = some opened

theorem balanced_done (a : α) : (pure a : Course ε α).Balanced := fun _ _ _ _ => rfl

theorem balanced_bind {c : Course ε α} {d : α → Course ε β} (hc : c.Balanced) (hd : ∀ a, (d a).Balanced) :
    (c >>= d).Balanced := by
  intro o outside opened hdepth
  have h := hc o outside opened hdepth
  change ((c o).andThen fun a => d a o).events.foldlM (Event.follow outside) opened = some opened
  cases hexit : (c o).exit with
  | returned a =>
    rw [Traced.andThen_returned hexit, List.foldlM_append, h]
    exact hd a o outside opened hdepth
  | failed e => rwa [Traced.andThen_failed hexit]
  | panicked text => rwa [Traced.andThen_panicked hexit]

theorem follow_timed {c : Course ε α} {name : String} {o : Outset} {outside : Nat} {opened : List String}
    (hdepth : o.depth = outside + opened.length)
    (h : (c o.inner).events.foldlM (Event.follow outside) (name :: opened) = some (name :: opened)) :
    (timed name c o).events.foldlM (Event.follow outside) opened = some opened := by
  by_cases hfits : o.Fits
  · rw [timed_of_fits hfits, List.foldlM_cons, hdepth, Event.follow_started, Option.bind_eq_bind, Option.bind_some,
      List.foldlM_append, h, Option.bind_eq_bind, Option.bind_some, List.foldlM_cons, Event.follow_finished]
    rfl
  · rw [timed_of_not_fits hfits]
    rfl

theorem balanced_timed {c : Course ε α} (name : String) (h : c.Balanced) : (timed name c).Balanced :=
  fun o outside opened hdepth => follow_timed hdepth (h o.inner outside (name :: opened) (congrArg Nat.succ hdepth))

theorem balanced_takeSafe (step : Step Empty α) : (takeSafe step : Course ε α).Balanced := fun _ _ _ _ => rfl

theorem balanced_write {e : Event} (h : ∀ outside opened, e.untimed.follow outside opened = some opened) :
    (write e : Course ε Unit).Balanced := by
  intro o outside opened _
  rw [write, List.foldlM_cons, h, Option.bind_eq_bind, Option.bind_some]
  rfl

theorem balanced_create (component : Component) (stage : Stage) (step : Step Refusal α) :
    (timed component.stageName (create component stage step)).Balanced := by
  intro o outside opened hdepth
  refine follow_timed hdepth ?_
  obtain ⟨calls, a | e | text⟩ := step
  · rfl
  · have hrefused : (Event.refused component stage e).follow outside (component.stageName :: opened) =
        some (component.stageName :: opened) := if_pos rfl
    rw [create, List.foldlM_cons, hrefused]
    rfl
  · rfl

variable (hooks : Hooks) (host : Host)

theorem balanced_findTarget (store : Store) : (findTarget hooks store).Balanced := by
  refine balanced_bind (balanced_takeSafe _) fun aliases => ?_
  refine balanced_bind (balanced_write fun _ _ => rfl) fun _ => ?_
  refine balanced_bind (balanced_write fun _ _ => rfl) fun _ => ?_
  exact balanced_done _

theorem balanced_createProviders (target : Target) (compressedOops : Bool) :
    (createProviders hooks host target compressedOops).Balanced := by
  refine balanced_bind (balanced_create .registerConfig _ _) fun registers => ?_
  refine balanced_bind (balanced_write fun _ _ => rfl) fun _ => ?_
  refine balanced_bind (balanced_create .metaAccess _ _) fun metaAccess => ?_
  refine balanced_bind (balanced_create .codeCache _ _) fun codeCache => ?_
  refine balanced_bind (balanced_create .constantReflection _ _) fun constantReflection => ?_
  refine balanced_bind (balanced_create .stackIntrospection _ _) fun stackIntrospection => ?_
  refine balanced_bind (balanced_write fun _ _ => rfl) fun _ => ?_
  exact balanced_done _

theorem balanced_assembly : (assembly hooks host).Balanced := by
  refine balanced_bind (balanced_timed _ (balanced_findTarget hooks host.store)) fun ⟨target, compressedOops, _⟩ => ?_
  refine balanced_bind (balanced_timed _ (balanced_createProviders hooks host target compressedOops)) fun ⟨p, _⟩ => ?_
  refine balanced_bind (balanced_timed _ (balanced_takeSafe _)) fun backend => ?_
  refine balanced_bind (balanced_write fun _ _ => rfl) fun _ => ?_
  exact balanced_bind (balanced_write fun _ _ => rfl) fun _ => balanced_done _

end Course

namespace EntryPoint

variable (entry : EntryPoint) (hooks : Hooks) (host : Host)

theorem balanced_course : (entry.course hooks host).Balanced := by
  cases entry with
  | create => exact Course.balanced_bind (Course.balanced_write fun _ _ => rfl) fun _ => Course.balanced_assembly hooks host
  | assemble | assembleWithReport | createWithReport => exact Course.balanced_assembly hooks host

/-- However an assembly ends, as many timers are open as before it where two can be opened within each other, and
elsewhere one may be counted that could not be opened. What an assembly writes opens and closes its stages in their
places, and its log has just these stages, none of them left open. -/
theorem timers_closed_run (s : Session) :
    (s.outset.Roomy → (entry.run hooks host s).2.depth = s.depth) ∧
      ((entry.run hooks host s).2.depth ≠ s.depth →
        (entry.run hooks host s).1 = .panicked tooWide ∧ (entry.run hooks host s).2.depth = s.depth + 1) ∧
      ∃ events, (entry.run hooks host s).2.events = s.events ++ events ∧
        events.foldlM (Event.follow s.depth) [] = some [] ∧
        ((entry.run hooks host s).2.entries s.logs.length).map (fun stage => (stage.name, stage.depth)) =
          events.filterMap Event.opened? ∧
        ∀ stage ∈ (entry.run hooks host s).2.entries s.logs.length, stage.elapsed.isSome = true := by
  have hled := entry.run_led hooks host s
  have hcases := entry.depth_run_cases hooks host s
  obtain ⟨events, hevents, huntimed⟩ := hled.events
  obtain ⟨stages, hstages, hopened, hclosed⟩ := hled.stages
  have hentries : (entry.run hooks host s).2.entries s.logs.length = stages := by
    rw [hstages, Session.entries_length_logs, List.nil_append]
  rw [hentries]
  refine ⟨fun hroomy => ?_, fun hne => ?_, events, hevents, ?_, ?_, hclosed⟩
  · exact hcases.resolve_right fun hdeep => hdeep.1 hroomy
  · exact (hcases.resolve_left hne).2
  · have hbalanced := entry.balanced_course hooks host s.outset s.depth [] rfl
    rw [← huntimed, List.foldlM_map] at hbalanced
    have hfollow : (fun opened (e : Event) => e.untimed.follow s.depth opened) = Event.follow s.depth :=
      funext fun opened => funext fun e => e.follow_untimed s.depth opened
    rwa [hfollow] at hbalanced
  · rw [hopened, ← huntimed, Event.filterMap_untimed Event.opened?_untimed]

theorem timers_closed_run_panicked :
    let host : Host := { Host.standalone .empty with codeCache := fun _ _ => ⟨[], .panicked "lost"⟩ }
    let run := createWithReport.run .standard host { clock := id, depth := 2 }
    run.1 = .panicked "lost" ∧ run.2.depth = 2 :=
  ⟨rfl, (timers_closed_run createWithReport .standard _ _).1 (by decide)⟩

/-- Within 32767 timers the first stage can still be opened, but none within the second one. -/
theorem timers_closed_run_tooDeep :
    let run := createWithReport.run .standard (.standalone .empty) { clock := id, depth := 32767 }
    run.1 = .panicked tooWide ∧ run.2.depth = 32768 :=
  ⟨rfl, rfl⟩

end EntryPoint

end BackendAssembly
