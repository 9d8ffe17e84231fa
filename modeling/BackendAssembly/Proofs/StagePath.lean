import BackendAssembly.Proofs.AssemblyCourse

namespace BackendAssembly

def Event.transition? : Event → Option (Stage × Stage)
  | advanced before after => some (before, after)
  | _ => none

theorem Event.transition?_untimed (e : Event) : e.untimed.transition? = e.transition? := by
  cases e <;> rfl

namespace Stage

def route : List (Stage × Stage) :=
  [(start, capabilitiesTranslated), (capabilitiesTranslated, targetBuilt), (targetBuilt, registerConfigBuilt),
   (registerConfigBuilt, providersConstructed), (providersConstructed, bundleAssembled)]

def behind (stage : Stage) : List (Stage × Stage) :=
  route.takeWhile fun transition => transition.1 != stage

def ahead (stage : Stage) : List (Stage × Stage) :=
  route.dropWhile fun transition => transition.1 != stage

def reached (transitions : List (Stage × Stage)) : Stage :=
  (transitions.getLast?.map Prod.snd).getD start

/-- A stage from which the assembly can still go on. -/
def Underway (stage : Stage) : Prop :=
  stage ≠ bundleAssembled ∧ stage ≠ aborted

instance (stage : Stage) : Decidable stage.Underway :=
  inferInstanceAs (Decidable (_ ∧ _))

theorem eq_behind {before : List (Stage × Stage)} {stage : Stage} (h : before ++ stage.ahead = start.ahead) :
    before = stage.behind := by
  have hroute : stage.behind ++ stage.ahead = start.ahead := List.takeWhile_append_dropWhile
  exact List.append_cancel_right (h.trans hroute.symm)

theorem reached_behind {stage : Stage} (h : stage.Underway) : reached stage.behind = stage := by
  cases stage with
  | bundleAssembled => exact absurd rfl h.1
  | aborted => exact absurd rfl h.2
  | start | capabilitiesTranslated | targetBuilt | registerConfigBuilt | providersConstructed => rfl

theorem behind_ne_route {stage : Stage} (h : stage.Underway) : stage.behind ≠ route := by
  intro heq
  have hreached := reached_behind h
  rw [heq] at hreached
  exact h.1 hreached.symm

theorem underway_of_mem_route {transition : Stage × Stage} (h : transition ∈ route) : transition.1.Underway := by
  have hall : ∀ transition ∈ route, transition.1.Underway := by decide
  exact hall transition h

theorem behind_prefix (stage : Stage) : stage.behind <+: route :=
  List.takeWhile_prefix _

theorem underway_of_mem_behind {stage : Stage} : ∀ transition ∈ stage.behind, transition.1.Underway := fun _ h =>
  underway_of_mem_route (stage.behind_prefix.subset h)

theorem reached_aborted (stage : Stage) : reached (stage.behind ++ [(stage, .aborted)]) = .aborted := by
  rw [reached, List.getLast?_concat]
  rfl

end Stage

/-- From one stage these transitions lead to another one if there is a result, and otherwise to one on the way, which
an error names before it leads to the end. -/
inductive Arrives {α : Type} (a b : Stage) : Exit BackendError α → List (Stage × Stage) → Prop where
  | returned {v : α} {before : List (Stage × Stage)} (hpath : before ++ b.ahead = a.ahead) :
    Arrives a b (.returned v) before
  | failed {component : Component} {last : Stage} {source : Refusal} {before : List (Stage × Stage)}
    (hpath : before ++ last.ahead = a.ahead) (hlast : last.Underway) :
    Arrives a b (.failed (.construction component last source)) (before ++ [(last, .aborted)])
  | panicked {text : String} {last : Stage} {before : List (Stage × Stage)}
    (hpath : before ++ last.ahead = a.ahead) (hlast : last.Underway) : Arrives a b (.panicked text) before

namespace Arrives

variable {α β : Type} {a b c : Stage}

theorem trans {exit : Exit BackendError β} {before after : List (Stage × Stage)}
    (hpath : before ++ b.ahead = a.ahead) (h : Arrives b c exit after) : Arrives a c exit (before ++ after) := by
  cases h with
  | returned h =>
    refine .returned ?_
    rw [List.append_assoc, h, hpath]
  | failed h hlast =>
    rw [← List.append_assoc]
    refine .failed ?_ hlast
    rw [List.append_assoc, h, hpath]
  | panicked h hlast =>
    refine .panicked ?_ hlast
    rw [List.append_assoc, h, hpath]

theorem of_map {f : α → β} {exit : Exit BackendError α} {transitions : List (Stage × Stage)}
    (h : Arrives a b (exit.map f) transitions) : Arrives a b exit transitions := by
  cases exit with
  | returned v => cases h with | returned h => exact .returned h
  | failed e => cases h with | failed h hlast => exact .failed h hlast
  | panicked text => cases h with | panicked h hlast => exact .panicked h hlast

end Arrives

namespace Course

variable {α β : Type} {a b : Stage}

def Moves (c : Course BackendError α) (a b : Stage) : Prop :=
  ∀ o, Arrives a b (c o).exit ((c o).events.filterMap Event.transition?)

theorem moves_done (v : α) : (pure v : Course BackendError α).Moves a a := fun _ => .returned rfl

theorem moves_bind {c : Course BackendError α} {d : α → Course BackendError β} {m : Stage} (hc : c.Moves a m)
    (hd : ∀ v, (d v).Moves m b) : (c >>= d).Moves a b := by
  intro o
  have h := hc o
  change Arrives a b ((c o).andThen fun v => d v o).exit
    (((c o).andThen fun v => d v o).events.filterMap Event.transition?)
  cases hexit : (c o).exit with
  | returned v =>
    rw [hexit] at h
    rw [Traced.andThen_returned hexit, List.filterMap_append]
    cases h with
    | returned h => exact .trans h (hd v o)
  | failed e =>
    rw [hexit] at h
    rw [Traced.andThen_failed hexit]
    generalize List.filterMap _ _ = transitions at h ⊢
    cases h with
    | failed h hlast => exact .failed h hlast
  | panicked text =>
    rw [hexit] at h
    rw [Traced.andThen_panicked hexit]
    generalize List.filterMap _ _ = transitions at h ⊢
    cases h with
    | panicked h hlast => exact .panicked h hlast

theorem moves_timed {c : Course BackendError α} (ha : a.Underway) (name : String) (h : c.Moves a b) :
    (timed name c).Moves a b := by
  intro o
  by_cases hfits : o.Fits
  · have hevents : (timed name c o).events.filterMap Event.transition? =
        (c o.inner).events.filterMap Event.transition? := by
      rw [timed_of_fits hfits, List.filterMap_cons_none rfl, List.filterMap_append, List.filterMap_cons_none rfl,
        List.filterMap_nil, List.append_nil]
    rw [hevents, timed_of_fits hfits]
    exact h o.inner
  · rw [timed_of_not_fits hfits]
    exact .panicked rfl ha

theorem moves_write {e : Event} (h : e.transition? = none) : (write e : Course BackendError Unit).Moves a a := by
  intro o
  have hevents : ((write e : Course BackendError Unit) o).events.filterMap Event.transition? = [] := by
    simp [write, Event.transition?_untimed, h]
  rw [hevents]
  exact .returned rfl

theorem moves_advance (h : (a, b) :: b.ahead = a.ahead) :
    (write (.advanced a b) : Course BackendError Unit).Moves a b := fun _ => .returned h

theorem moves_takeSafe (ha : a.Underway) (step : Step Empty α) :
    (takeSafe step : Course BackendError α).Moves a a := by
  intro o
  obtain ⟨calls, v | e | text⟩ := step
  · exact .returned rfl
  · exact e.elim
  · exact .panicked rfl ha

theorem moves_create (ha : a.Underway) (component : Component) (step : Step Refusal α) :
    (create component a step).Moves a a := by
  intro o
  obtain ⟨calls, v | e | text⟩ := step
  · exact .returned rfl
  · have hstay : [] ++ a.ahead = a.ahead := rfl
    exact .failed hstay ha
  · exact .panicked rfl ha

variable (hooks : Hooks) (host : Host)

theorem moves_findTarget (store : Store) : (findTarget hooks store).Moves .start .targetBuilt := by
  refine moves_bind (moves_takeSafe (by decide) _) fun aliases => ?_
  refine moves_bind (moves_advance rfl) fun _ => ?_
  refine moves_bind (moves_advance rfl) fun _ => ?_
  exact moves_done _

theorem moves_createProviders (target : Target) (compressedOops : Bool) :
    (createProviders hooks host target compressedOops).Moves .targetBuilt .providersConstructed := by
  refine moves_bind (moves_timed (by decide) _ (moves_create (by decide) _ _)) fun registers => ?_
  refine moves_bind (moves_advance rfl) fun _ => ?_
  refine moves_bind (moves_timed (by decide) _ (moves_create (by decide) _ _)) fun metaAccess => ?_
  refine moves_bind (moves_timed (by decide) _ (moves_create (by decide) _ _)) fun codeCache => ?_
  refine moves_bind (moves_timed (by decide) _ (moves_create (by decide) _ _)) fun constantReflection => ?_
  refine moves_bind (moves_timed (by decide) _ (moves_create (by decide) _ _)) fun stackIntrospection => ?_
  refine moves_bind (moves_advance rfl) fun _ => ?_
  exact moves_done _

theorem moves_assembly : (assembly hooks host).Moves .start .bundleAssembled := by
  refine moves_bind (moves_timed (by decide) _ (moves_findTarget hooks host.store)) fun ⟨target, compressedOops, _⟩ => ?_
  refine moves_bind (moves_timed (by decide) _ (moves_createProviders hooks host target compressedOops)) fun ⟨p, _⟩ => ?_
  refine moves_bind (moves_timed (by decide) _ (moves_takeSafe (by decide) _)) fun backend => ?_
  refine moves_bind (moves_advance rfl) fun _ => ?_
  refine moves_bind (moves_write rfl) fun _ => ?_
  exact moves_done _

end Course

/-- The transitions of an assembly go together with the way it ends. -/
structure StageHistory {α : Type} (exit : Exit BackendError α) (transitions : List (Stage × Stage)) : Prop where
  path : transitions <+: Stage.route ∨
    ∃ before, before <+: Stage.route ∧ before ≠ Stage.route ∧
      transitions = before ++ [(Stage.reached before, .aborted)]
  returned : Stage.reached transitions = .bundleAssembled ↔ ∃ a, exit = .returned a
  failed : Stage.reached transitions = .aborted ↔
    ∃ component completed source, exit = .failed (.construction component completed source)
  completed : ∀ component completed source, exit = .failed (.construction component completed source) →
    transitions.getLast? = some (completed, .aborted)
  panicked : ∀ text, exit = .panicked text → transitions <+: Stage.route ∧ transitions ≠ Stage.route
  underway : ∀ transition ∈ transitions, transition.1.Underway

namespace StageHistory

variable {α : Type}

theorem of_returned (v : α) : StageHistory (.returned v) Stage.bundleAssembled.behind where
  path := .inl (Stage.behind_prefix _)
  returned := ⟨fun _ => ⟨v, rfl⟩, fun _ => rfl⟩
  failed := ⟨nofun, nofun⟩
  completed := nofun
  panicked := nofun
  underway := Stage.underway_of_mem_behind

variable {last : Stage} (hlast : last.Underway)
include hlast

theorem of_failed (component : Component) (source : Refusal) :
    StageHistory (α := α) (.failed (.construction component last source)) (last.behind ++ [(last, .aborted)]) where
  path := .inr ⟨last.behind, last.behind_prefix, Stage.behind_ne_route hlast, by rw [Stage.reached_behind hlast]⟩
  returned := by
    rw [Stage.reached_aborted]
    exact ⟨nofun, nofun⟩
  failed := ⟨fun _ => ⟨component, last, source, rfl⟩, fun _ => Stage.reached_aborted last⟩
  completed := fun _ _ _ heq => by
    cases heq
    exact List.getLast?_concat
  panicked := nofun
  underway := fun transition hmem => by
    rcases List.mem_append.mp hmem with hmem | hmem
    · exact Stage.underway_of_mem_behind transition hmem
    · cases List.mem_singleton.mp hmem
      exact hlast

theorem of_panicked (text : String) : StageHistory (α := α) (.panicked text) last.behind where
  path := .inl last.behind_prefix
  returned := by
    rw [Stage.reached_behind hlast]
    exact ⟨fun heq => absurd heq hlast.1, nofun⟩
  failed := by
    rw [Stage.reached_behind hlast]
    exact ⟨fun heq => absurd heq hlast.2, nofun⟩
  completed := nofun
  panicked := fun _ _ => ⟨last.behind_prefix, Stage.behind_ne_route hlast⟩
  underway := Stage.underway_of_mem_behind

omit hlast in
theorem of_arrives {exit : Exit BackendError α} {transitions : List (Stage × Stage)}
    (h : Arrives .start .bundleAssembled exit transitions) : StageHistory exit transitions := by
  cases h with
  | returned hpath =>
    cases Stage.eq_behind hpath
    exact of_returned _
  | failed hpath hlast =>
    cases Stage.eq_behind hpath
    exact of_failed hlast _ _
  | panicked hpath hlast =>
    cases Stage.eq_behind hpath
    exact of_panicked hlast _

end StageHistory

namespace EntryPoint

variable (entry : EntryPoint) (hooks : Hooks) (host : Host)

theorem moves_course : (entry.course hooks host).Moves .start .bundleAssembled := by
  cases entry with
  | create => exact Course.moves_bind (Course.moves_write rfl) fun _ => Course.moves_assembly hooks host
  | assemble | assembleWithReport | createWithReport => exact Course.moves_assembly hooks host

/-- Whatever hooks and host do, the transitions that an assembly writes follow the route from its start: to the end
with a backend, up to a stage from which the assembly is aborted with an error that names this stage, or up to a panic.
-/
theorem stageHistory_run (s : Session) :
    ∃ events, (entry.run hooks host s).2.events = s.events ++ events ∧
      StageHistory (entry.run hooks host s).1 (events.filterMap Event.transition?) := by
  have hled := entry.run_led hooks host s
  obtain ⟨events, hevents, huntimed⟩ := hled.events
  have htransitions : (entry.course hooks host s.outset).events.filterMap Event.transition? =
      events.filterMap Event.transition? := by
    rw [← huntimed, Event.filterMap_untimed Event.transition?_untimed]
  have hmoves := entry.moves_course hooks host s.outset
  rw [← hled.exit, htransitions] at hmoves
  exact ⟨events, hevents, .of_arrives hmoves.of_map⟩

end EntryPoint

end BackendAssembly
