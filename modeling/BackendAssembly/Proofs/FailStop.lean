import BackendAssembly.Rehearsal
import BackendAssembly.Proofs.AssemblyCourse

namespace BackendAssembly

namespace Exit

variable {ε α : Type}

def result? : Exit ε α → Option α
  | returned a => some a
  | failed _ | panicked _ => none

def mishap? : Exit Refusal α → Option Mishap
  | returned _ => none
  | failed e => some (.refusal e)
  | panicked text => some (.panic text)

end Exit

/-- A step that is left to the host, unless something goes wrong in the hook before that. -/
structure Layered (α : Type) where
  hook : Option Mishap
  host : Exit Refusal α

/-- How all the steps of an assembly go, each for itself. -/
structure Script where
  store : Store
  aliases : Exit Empty Aliases
  registerConfig : Target → Bool → Exit Refusal RegisterConventions
  metaAccess : Layered Provider
  codeCache : Target → RegisterConventions → Layered CodeCache
  constantReflection : Layered Provider
  stackIntrospection : Layered Provider
  bundle : Provider → CodeCache → Provider → Provider → Exit Empty Backend

namespace Script

def hooks (script : Script) : Hooks where
  aliases := ⟨[.hook .aliases], script.aliases⟩
  registerConfig target compressedOops :=
    ⟨[.hook (.create .registerConfig)], script.registerConfig target compressedOops⟩
  metaAccess host := .rehearsed (.hook (.create .metaAccess)) script.metaAccess.hook host.metaAccess
  codeCache host target registers :=
    .rehearsed (.hook (.create .codeCache)) (script.codeCache target registers).hook (host.codeCache target registers)
  constantReflection host :=
    .rehearsed (.hook (.create .constantReflection)) script.constantReflection.hook host.constantReflection
  stackIntrospection host :=
    .rehearsed (.hook (.create .stackIntrospection)) script.stackIntrospection.hook host.stackIntrospection
  bundle metaAccess codeCache constantReflection stackIntrospection :=
    ⟨[.hook .bundle], script.bundle metaAccess codeCache constantReflection stackIntrospection⟩

def host (script : Script) : Host where
  store := script.store
  metaAccess := ⟨[.host .metaAccess], script.metaAccess.host⟩
  codeCache target registers := ⟨[.host .codeCache], (script.codeCache target registers).host⟩
  constantReflection := ⟨[.host .constantReflection], script.constantReflection.host⟩
  stackIntrospection := ⟨[.host .stackIntrospection], script.stackIntrospection.host⟩

def target? (script : Script) : Option Target :=
  script.aliases.result?.map (Target.ofStore script.store)

def registerConfig? (script : Script) : Option (Exit Refusal RegisterConventions) :=
  script.target?.map fun target => script.registerConfig target target.compressedOops

def codeCache? (script : Script) : Option (Layered CodeCache) := do
  return script.codeCache (← script.target?) (← (← script.registerConfig?).result?)

def bundle? (script : Script) : Option (Exit Empty Backend) := do
  return script.bundle (← script.metaAccess.host.result?) (← (← script.codeCache?).host.result?)
    (← script.constantReflection.host.result?) (← script.stackIntrospection.host.result?)

/-- What goes wrong in a call, if anything does, when the calls before it went well. -/
def trouble (script : Script) : Call → Option Mishap
  | .hook .aliases => (script.aliases.mapError nofun).mishap?
  | .hook (.create .registerConfig) => script.registerConfig?.bind Exit.mishap?
  | .hook (.create .metaAccess) => script.metaAccess.hook
  | .hook (.create .codeCache) => script.codeCache?.bind Layered.hook
  | .hook (.create .constantReflection) => script.constantReflection.hook
  | .hook (.create .stackIntrospection) => script.stackIntrospection.hook
  | .hook .bundle => script.bundle?.bind fun exit => (exit.mapError nofun).mishap?
  | .host .registerConfig => none
  | .host .metaAccess => script.metaAccess.host.mishap?
  | .host .codeCache => script.codeCache?.bind fun step => step.host.mishap?
  | .host .constantReflection => script.constantReflection.host.mishap?
  | .host .stackIntrospection => script.stackIntrospection.host.mishap?

end Script

namespace Call

def sequence : List Call :=
  [.hook .aliases, .hook (.create .registerConfig), .hook (.create .metaAccess), .host .metaAccess,
   .hook (.create .codeCache), .host .codeCache, .hook (.create .constantReflection), .host .constantReflection,
   .hook (.create .stackIntrospection), .host .stackIntrospection, .hook .bundle]

def component? : Call → Option Component
  | hook (.create component) | host component => some component
  | hook .aliases | hook .bundle => none

end Call

def Component.completed : Component → Stage
  | registerConfig => .targetBuilt
  | metaAccess | codeCache | constantReflection | stackIntrospection => .registerConfigBuilt

def Mishap.Ends {α : Type} (call : Call) (exit : Exit BackendError α) : Mishap → Prop
  | refusal source =>
    ∃ component, call.component? = some component ∧ exit = .failed (.construction component component.completed source)
  | panic text => exit = .panicked text

/-- Of the calls that are planned, those are made up to the first one in which something goes wrong, and that is how it
ends. Below too many timers it may end earlier, at a timer that cannot be opened. -/
inductive Stops {α : Type} (trouble : Call → Option Mishap) (deep : Prop) :
    List Call → List Call → Exit BackendError α → Prop where
  | returned {p : List Call} {v : α} (h : ∀ call ∈ p, trouble call = none) : Stops trouble deep p p (.returned v)
  | stopped {before after : List Call} {call : Call} {mishap : Mishap} {exit : Exit BackendError α}
    (hbefore : ∀ earlier ∈ before, trouble earlier = none) (hcall : trouble call = some mishap)
    (hends : mishap.Ends call exit) : Stops trouble deep (before ++ call :: after) (before ++ [call]) exit
  | tooDeep {before after : List Call} (hbefore : ∀ earlier ∈ before, trouble earlier = none) (hdeep : deep) :
    Stops trouble deep (before ++ after) before (.panicked tooWide)

namespace Mishap

variable {α β : Type} {call : Call} {mishap : Mishap}

theorem not_ends_returned {v : α} : ¬mishap.Ends call (.returned v) := by
  cases mishap with
  | refusal source => exact fun ⟨_, _, h⟩ => nomatch h
  | panic text => exact nofun

theorem Ends.of_failed {e : BackendError} (h : mishap.Ends (α := α) call (.failed e)) :
    mishap.Ends (α := β) call (.failed e) := by
  cases mishap with
  | refusal source =>
    obtain ⟨component, hcomponent, h⟩ := h
    cases h
    exact ⟨component, hcomponent, rfl⟩
  | panic text => cases h

theorem Ends.of_panicked {text : String} (h : mishap.Ends (α := α) call (.panicked text)) :
    mishap.Ends (α := β) call (.panicked text) := by
  cases mishap with
  | refusal source =>
    obtain ⟨component, hcomponent, h⟩ := h
    cases h
  | panic text =>
    cases h
    rfl

end Mishap

namespace Stops

variable {α β : Type} {trouble : Call → Option Mishap} {deep : Prop} {p made : List Call}

theorem of_returned {v : α} (h : Stops trouble deep p made (.returned v)) :
    made = p ∧ ∀ call ∈ p, trouble call = none := by
  cases h with
  | returned h => exact ⟨rfl, h⟩
  | stopped _ _ hends => exact absurd hends Mishap.not_ends_returned

theorem append_failed {e : BackendError} (q : List Call) (h : Stops (α := α) trouble deep p made (.failed e)) :
    Stops (α := β) trouble deep (p ++ q) made (.failed e) := by
  cases h with
  | stopped hbefore hcall hends =>
    rw [List.append_assoc]
    exact .stopped hbefore hcall hends.of_failed

theorem append_panicked {text : String} (q : List Call) (h : Stops (α := α) trouble deep p made (.panicked text)) :
    Stops (α := β) trouble deep (p ++ q) made (.panicked text) := by
  cases h with
  | stopped hbefore hcall hends =>
    rw [List.append_assoc]
    exact .stopped hbefore hcall hends.of_panicked
  | tooDeep hbefore hdeep =>
    rw [List.append_assoc]
    exact .tooDeep hbefore hdeep

theorem after {q : List Call} {exit : Exit BackendError β} (hp : ∀ call ∈ p, trouble call = none)
    (h : Stops trouble deep q made exit) : Stops trouble deep (p ++ q) (p ++ made) exit := by
  have hjoin : ∀ {before : List Call}, (∀ call ∈ before, trouble call = none) →
      ∀ call ∈ p ++ before, trouble call = none := fun hbefore call hmem =>
    (List.mem_append.mp hmem).elim (hp call) (hbefore call)
  cases h with
  | returned h => exact .returned (hjoin h)
  | stopped hbefore hcall hends =>
    rw [← List.append_assoc, ← List.append_assoc]
    exact .stopped (hjoin hbefore) hcall hends
  | tooDeep hbefore hdeep =>
    rw [← List.append_assoc]
    exact .tooDeep (hjoin hbefore) hdeep

theorem of_map {f : α → β} {exit : Exit BackendError α} (h : Stops trouble deep p made (exit.map f)) :
    Stops trouble deep p made exit := by
  cases exit with
  | returned v =>
    obtain ⟨rfl, hnone⟩ := h.of_returned
    exact .returned hnone
  | failed e =>
    rw [← List.append_nil p]
    exact append_failed [] h
  | panicked text =>
    rw [← List.append_nil p]
    exact append_panicked [] h

theorem first {call : Call} {rest : List Call} {exit : Exit BackendError α} {mishap : Mishap}
    (hcall : trouble call = some mishap) (hends : mishap.Ends call exit) :
    Stops trouble deep (call :: rest) [call] exit := by
  have hnone : ∀ earlier ∈ [], trouble earlier = none := nofun
  exact .stopped hnone hcall hends

end Stops

namespace Course

variable {α β : Type} {trouble : Call → Option Mishap} {deep : Prop} {o : Outset} {p q : List Call}

def StopsIn (c : Course BackendError α) (o : Outset) (trouble : Call → Option Mishap) (deep : Prop) (p : List Call) :
    Prop :=
  Stops trouble deep p (c o).calls (c o).exit

theorem stopsIn_done (v : α) : (pure v : Course BackendError α).StopsIn o trouble deep [] := .returned nofun

theorem stopsIn_write (e : Event) : (write e : Course BackendError Unit).StopsIn o trouble deep [] := .returned nofun

theorem stopsIn_timed {c : Course BackendError α} (name : String) (hdeep : ¬o.Fits → deep)
    (h : c.StopsIn o.inner trouble deep p) : (timed name c).StopsIn o trouble deep p := by
  unfold StopsIn
  by_cases hfits : o.Fits
  · rw [timed_of_fits hfits]
    exact h
  · rw [timed_of_not_fits hfits, ← List.nil_append p]
    exact .tooDeep nofun (hdeep hfits)

theorem stopsIn_bind {c : Course BackendError α} {d : α → Course BackendError β} (hc : c.StopsIn o trouble deep p)
    (hd : ∀ v, (c o).exit = .returned v → (d v).StopsIn o trouble deep q) :
    (c >>= d).StopsIn o trouble deep (p ++ q) := by
  change Stops trouble deep (p ++ q) ((c o).andThen fun v => d v o).calls ((c o).andThen fun v => d v o).exit
  unfold StopsIn at hc
  cases hexit : (c o).exit with
  | returned v =>
    rw [hexit] at hc
    obtain ⟨hcalls, hnone⟩ := hc.of_returned
    rw [Traced.andThen_returned hexit, hcalls]
    exact .after hnone (hd v hexit)
  | failed e =>
    rw [hexit] at hc
    rw [Traced.andThen_failed hexit]
    exact hc.append_failed q
  | panicked text =>
    rw [hexit] at hc
    rw [Traced.andThen_panicked hexit]
    exact hc.append_panicked q

theorem stopsIn_takeSafe {step : Step Empty α} {call : Call} (hcalls : step.calls = [call])
    (htrouble : trouble call = (step.exit.mapError nofun).mishap?) :
    (takeSafe step : Course BackendError α).StopsIn o trouble deep [call] := by
  obtain ⟨calls, v | e | text⟩ := step
  · cases hcalls
    refine .returned fun call hmem => ?_
    cases List.mem_singleton.mp hmem
    exact htrouble
  · exact e.elim
  · cases hcalls
    exact .first htrouble rfl

theorem stopsIn_create {component : Component} {step : Step Refusal α} {call : Call} (hcalls : step.calls = [call])
    (hcomponent : call.component? = some component) (htrouble : trouble call = step.exit.mishap?) :
    (create component component.completed step).StopsIn o trouble deep [call] := by
  obtain ⟨calls, v | e | text⟩ := step
  · cases hcalls
    refine .returned fun call hmem => ?_
    cases List.mem_singleton.mp hmem
    exact htrouble
  · cases hcalls
    exact .first htrouble ⟨component, hcomponent, rfl⟩
  · cases hcalls
    exact .first htrouble rfl

theorem stopsIn_create_layered {component : Component} {l : Layered α}
    (hhook : trouble (.hook (.create component)) = l.hook) (hhost : trouble (.host component) = l.host.mishap?) :
    (create component component.completed
      (.rehearsed (.hook (.create component)) l.hook ⟨[.host component], l.host⟩)).StopsIn o trouble deep
        [.hook (.create component), .host component] := by
  obtain ⟨hook, host⟩ := l
  cases hook with
  | some mishap =>
    cases mishap with
    | refusal source => exact .first hhook ⟨component, rfl, rfl⟩
    | panic text => exact .first hhook rfl
  | none =>
    have hnone : ∀ call ∈ [Call.hook (.create component)], trouble call = none := fun call hmem => by
      cases List.mem_singleton.mp hmem
      exact hhook
    cases host with
    | returned v =>
      refine .after hnone (.returned fun call hmem => ?_)
      cases List.mem_singleton.mp hmem
      exact hhost
    | failed e => exact .after hnone (.first hhost ⟨component, rfl, rfl⟩)
    | panicked text => exact .after hnone (.first hhost rfl)

end Course

namespace Script

variable (script : Script) {o : Outset} {deep : Prop}

theorem stopsIn_findTarget :
    (Course.findTarget script.hooks script.store).StopsIn o script.trouble deep [.hook .aliases] := by
  refine Course.stopsIn_bind (q := []) (Course.stopsIn_takeSafe rfl rfl) fun aliases _ => ?_
  refine Course.stopsIn_bind (Course.stopsIn_write _) fun _ _ => ?_
  refine Course.stopsIn_bind (Course.stopsIn_write _) fun _ _ => ?_
  exact Course.stopsIn_done _

theorem returned_of_rehearsed {α : Type} {call call' : Call} {l : Layered α} {v : α}
    (h : (Step.rehearsed call l.hook ⟨[call'], l.host⟩).exit = .returned v) : l.host = .returned v := by
  obtain ⟨hook, host⟩ := l
  cases hook with
  | none => exact h
  | some mishap => cases mishap <;> cases h

variable {target : Target} (htarget : script.target? = some target)
include htarget

theorem registerConfig?_eq :
    script.registerConfig? = some (script.registerConfig target target.compressedOops) := by
  rw [registerConfig?, htarget, Option.map_some]

theorem codeCache?_eq {registers : RegisterConventions}
    (hregisters : script.registerConfig target target.compressedOops = .returned registers) :
    script.codeCache? = some (script.codeCache target registers) := by
  simp only [codeCache?, htarget, script.registerConfig?_eq htarget, hregisters]
  rfl

theorem bundle?_eq {registers : RegisterConventions} {p : Assembly.Providers}
    (hregisters : script.registerConfig target target.compressedOops = .returned registers)
    (hmetaAccess : script.metaAccess.host = .returned p.metaAccess)
    (hcodeCache : (script.codeCache target registers).host = .returned p.codeCache)
    (hconstantReflection : script.constantReflection.host = .returned p.constantReflection)
    (hstackIntrospection : script.stackIntrospection.host = .returned p.stackIntrospection) :
    script.bundle? = some (script.bundle p.metaAccess p.codeCache p.constantReflection p.stackIntrospection) := by
  simp only [bundle?, script.codeCache?_eq htarget hregisters, hmetaAccess, hconstantReflection, hstackIntrospection]
  change (do
    let codeCache ← (script.codeCache target registers).host.result?
    return script.bundle p.metaAccess codeCache p.constantReflection p.stackIntrospection) = _
  rw [hcodeCache]
  rfl

theorem stopsIn_createProviders (hdeep : ¬o.Fits → deep) :
    (Course.createProviders script.hooks script.host target target.compressedOops).StopsIn o script.trouble deep
      [.hook (.create .registerConfig), .hook (.create .metaAccess), .host .metaAccess, .hook (.create .codeCache),
       .host .codeCache, .hook (.create .constantReflection), .host .constantReflection,
       .hook (.create .stackIntrospection), .host .stackIntrospection] := by
  have hregisterConfig : (Course.create .registerConfig .targetBuilt
      (script.hooks.registerConfig target target.compressedOops)).StopsIn o.inner script.trouble deep
        [.hook (.create .registerConfig)] := by
    refine Course.stopsIn_create rfl rfl ?_
    rw [trouble, script.registerConfig?_eq htarget, Option.bind_some]
    rfl
  have hmetaAccess : (Course.create .metaAccess .registerConfigBuilt (script.hooks.metaAccess script.host)).StopsIn
      o.inner script.trouble deep [.hook (.create .metaAccess), .host .metaAccess] :=
    Course.stopsIn_create_layered rfl rfl
  have hconstantReflection : (Course.create .constantReflection .registerConfigBuilt
      (script.hooks.constantReflection script.host)).StopsIn o.inner script.trouble deep
        [.hook (.create .constantReflection), .host .constantReflection] :=
    Course.stopsIn_create_layered rfl rfl
  have hstackIntrospection : (Course.create .stackIntrospection .registerConfigBuilt
      (script.hooks.stackIntrospection script.host)).StopsIn o.inner script.trouble deep
        [.hook (.create .stackIntrospection), .host .stackIntrospection] :=
    Course.stopsIn_create_layered rfl rfl
  refine Course.stopsIn_bind (p := [_]) (Course.stopsIn_timed _ hdeep hregisterConfig) fun registers hregisters => ?_
  -- What the code cache is made for is known only from here on.
  have hcodeCache? := script.codeCache?_eq htarget (Course.timed_create_returned hregisters)
  have hcodeCache : (Course.create .codeCache .registerConfigBuilt
      (script.hooks.codeCache script.host target registers)).StopsIn o.inner script.trouble deep
        [.hook (.create .codeCache), .host .codeCache] := by
    refine Course.stopsIn_create_layered ?_ ?_
    · rw [trouble, hcodeCache?, Option.bind_some]
    · rw [trouble, hcodeCache?, Option.bind_some]
  refine Course.stopsIn_bind (p := []) (Course.stopsIn_write _) fun _ _ => ?_
  refine Course.stopsIn_bind (p := [_, _]) (Course.stopsIn_timed _ hdeep hmetaAccess) fun metaAccess _ => ?_
  refine Course.stopsIn_bind (p := [_, _]) (Course.stopsIn_timed _ hdeep hcodeCache) fun codeCache _ => ?_
  refine Course.stopsIn_bind (p := [_, _]) (Course.stopsIn_timed _ hdeep hconstantReflection) fun constantReflection _ => ?_
  refine Course.stopsIn_bind (p := [_, _]) (Course.stopsIn_timed _ hdeep hstackIntrospection) fun stackIntrospection _ => ?_
  exact Course.stopsIn_bind (Course.stopsIn_write _) fun _ _ => Course.stopsIn_done _

omit htarget in
theorem stopsIn_assembly :
    (Course.assembly script.hooks script.host).StopsIn o script.trouble (¬o.Roomy) Call.sequence := by
  have hdeep : ¬o.Fits → ¬o.Roomy := fun h hroomy => h hroomy.fits
  refine Course.stopsIn_bind (p := [_]) (Course.stopsIn_timed _ hdeep script.stopsIn_findTarget)
    fun ⟨target, _, _⟩ h => ?_
  obtain ⟨aliases, haliases, rfl, rfl, rfl⟩ := Course.findTarget_returned (Course.exit_timed_eq_returned.mp h).2
  have htarget : script.target? = some (.ofStore script.store aliases) := by
    have hresult : script.aliases = .returned aliases := haliases
    rw [target?, hresult]
    rfl
  refine Course.stopsIn_bind (p := [_, _, _, _, _, _, _, _, _])
    (Course.stopsIn_timed _ hdeep (script.stopsIn_createProviders htarget id)) fun ⟨p, _⟩ h => ?_
  obtain ⟨registers, hregisters, hmetaAccess, hcodeCache, hconstantReflection, hstackIntrospection, rfl⟩ :=
    Course.createProviders_returned (Course.exit_timed_eq_returned.mp h).2
  have htrouble : script.trouble (.hook .bundle) =
      ((script.bundle p.metaAccess p.codeCache p.constantReflection p.stackIntrospection).mapError nofun).mishap? := by
    rw [trouble, script.bundle?_eq htarget hregisters (returned_of_rehearsed hmetaAccess)
      (returned_of_rehearsed hcodeCache) (returned_of_rehearsed hconstantReflection)
      (returned_of_rehearsed hstackIntrospection), Option.bind_some]
  refine Course.stopsIn_bind (p := [_]) (Course.stopsIn_timed _ hdeep (Course.stopsIn_takeSafe rfl htrouble))
    fun backend _ => ?_
  refine Course.stopsIn_bind (p := []) (Course.stopsIn_write _) fun _ _ => ?_
  exact Course.stopsIn_bind (Course.stopsIn_write _) fun _ _ => Course.stopsIn_done _

end Script

/-- Which of the planned calls were made goes together with the way it ended. -/
structure FailStop {α : Type} (trouble : Call → Option Mishap) (planned made : List Call) (exit : Exit BackendError α) :
    Prop where
  once : made.Nodup
  returned : (∃ v, exit = .returned v) ↔ ∀ call ∈ planned, trouble call = none
  complete : (∀ call ∈ planned, trouble call = none) → made = planned
  stopped : ∀ before call after mishap, planned = before ++ call :: after →
    (∀ earlier ∈ before, trouble earlier = none) → trouble call = some mishap →
    made = before ++ [call] ∧ mishap.Ends call exit

namespace FailStop

variable {α : Type} {trouble : Call → Option Mishap}

theorem first_unique {before before' after after' : List Call} {call call' : Call}
    (h : before ++ call :: after = before' ++ call' :: after') (hbefore : ∀ earlier ∈ before, trouble earlier = none)
    (hcall : trouble call ≠ none) (hbefore' : ∀ earlier ∈ before', trouble earlier = none)
    (hcall' : trouble call' ≠ none) : before = before' ∧ call = call' := by
  rcases List.append_eq_append_iff.mp h with ⟨between, rfl, hrest⟩ | ⟨between, rfl, hrest⟩
  · cases between with
    | nil => exact ⟨(List.append_nil _).symm, (List.cons.inj hrest).1⟩
    | cons c between =>
      rw [(List.cons.inj hrest).1] at hcall
      exact absurd (hbefore' c (List.mem_append_right _ List.mem_cons_self)) hcall
  · cases between with
    | nil => exact ⟨List.append_nil _, (List.cons.inj hrest).1.symm⟩
    | cons c between =>
      rw [(List.cons.inj hrest).1] at hcall'
      exact absurd (hbefore c (List.mem_append_right _ List.mem_cons_self)) hcall'

theorem of_all_none {planned : List Call} (hnodup : planned.Nodup) (hnone : ∀ call ∈ planned, trouble call = none)
    (v : α) : FailStop trouble planned planned (.returned v) where
  once := hnodup
  returned := ⟨fun _ => hnone, fun _ => ⟨v, rfl⟩⟩
  complete := fun _ => rfl
  stopped := by
    rintro before call after mishap rfl - hcall
    rw [hnone call (List.mem_append_right _ List.mem_cons_self)] at hcall
    cases hcall

theorem of_mishap {before after : List Call} {call : Call} {mishap : Mishap} {exit : Exit BackendError α}
    (hnodup : (before ++ call :: after).Nodup) (hbefore : ∀ earlier ∈ before, trouble earlier = none)
    (hcall : trouble call = some mishap) (hends : mishap.Ends call exit) :
    FailStop trouble (before ++ call :: after) (before ++ [call]) exit := by
  have htrouble : ¬∀ c ∈ before ++ call :: after, trouble c = none := fun hnone => by
    rw [hnone call (List.mem_append_right _ List.mem_cons_self)] at hcall
    cases hcall
  exact {
    once := by
      have hsplit : before ++ call :: after = (before ++ [call]) ++ after := by
        rw [List.append_assoc, List.singleton_append]
      rw [hsplit] at hnodup
      exact (List.nodup_append.mp hnodup).1
    returned := by
      refine ⟨?_, fun hnone => absurd hnone htrouble⟩
      rintro ⟨v, rfl⟩
      exact absurd hends Mishap.not_ends_returned
    complete := fun hnone => absurd hnone htrouble
    stopped := by
      intro before' call' after' mishap' heq hbefore' hcall'
      have hne : trouble call ≠ none := by rw [hcall]; exact nofun
      have hne' : trouble call' ≠ none := by rw [hcall']; exact nofun
      obtain ⟨rfl, rfl⟩ := first_unique heq hbefore hne hbefore' hne'
      cases hcall.symm.trans hcall'
      exact ⟨rfl, hends⟩ }

theorem of_stops {planned made : List Call} {exit : Exit BackendError α} {deep : Prop} (hnodup : planned.Nodup)
    (h : Stops trouble deep planned made exit) : FailStop trouble planned made exit ∨ deep ∧
      exit = .panicked tooWide ∧ made <+: planned ∧ ∀ call ∈ made, trouble call = none := by
  cases h with
  | returned hnone => exact .inl (of_all_none hnodup hnone _)
  | stopped hbefore hcall hends => exact .inl (of_mishap hnodup hbefore hcall hends)
  | tooDeep hbefore hdeep => exact .inr ⟨hdeep, rfl, List.prefix_append .., hbefore⟩

end FailStop

namespace EntryPoint

variable (entry : EntryPoint) (script : Script)

theorem stopsIn_course (o : Outset) :
    (entry.course script.hooks script.host).StopsIn o script.trouble (¬o.Roomy) Call.sequence := by
  cases entry with
  | create => exact Course.stopsIn_bind (Course.stopsIn_write _) fun _ _ => script.stopsIn_assembly
  | assemble | assembleWithReport | createWithReport => exact script.stopsIn_assembly

/-- However the steps go, an assembly makes the calls in their order, each one at most once. The first call in which
something goes wrong is the last one that is made, and what went wrong there is how the assembly ends. Only where no two
timers can be opened within each other it may end before that, when nothing went wrong in a call. -/
theorem failStop_run (s : Session) :
    ∃ made, (entry.run script.hooks script.host s).2.calls = s.calls ++ made ∧
      (FailStop script.trouble Call.sequence made (entry.run script.hooks script.host s).1 ∨
        ¬s.outset.Roomy ∧ (entry.run script.hooks script.host s).1 = .panicked tooWide ∧
          made <+: Call.sequence ∧ ∀ call ∈ made, script.trouble call = none) := by
  have hled := entry.run_led script.hooks script.host s
  have hstops := entry.stopsIn_course script s.outset
  rw [Course.StopsIn, ← hled.exit] at hstops
  exact ⟨_, hled.calls, FailStop.of_stops (by decide) hstops.of_map⟩

end EntryPoint

end BackendAssembly
