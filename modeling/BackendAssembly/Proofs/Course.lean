import BackendAssembly.Session

namespace BackendAssembly

def Event.opened? : Event → Option (String × Nat)
  | started name depth => some (name, depth)
  | _ => none

theorem Event.opened?_untimed (e : Event) : e.untimed.opened? = e.opened? := by
  cases e <;> rfl

theorem Event.filterMap_untimed {β : Type} {f : Event → Option β} (hf : ∀ e, f e.untimed = f e) (events : List Event) :
    (events.map Event.untimed).filterMap f = events.filterMap f := by
  rw [List.filterMap_map]
  exact congrArg (fun g => events.filterMap g) (funext hf)

/-- What shows of something that is done: how it ends, which calls it reports and what it writes without times, and
whether it ends because the line of a timer cannot be laid out. -/
structure Traced (ε α : Type) where
  exit : Exit ε α
  calls : List Call
  events : List Event
  overrun : Bool := false

namespace Traced

variable {ε α β : Type}

def lost (t : Traced ε α) : Nat :=
  match t.exit with
  | .panicked _ => t.overrun.toNat
  | .returned _ | .failed _ => 0

def andThen (t : Traced ε α) (f : α → Traced ε β) : Traced ε β :=
  match t.exit with
  | .returned a => { f a with calls := t.calls ++ (f a).calls, events := t.events ++ (f a).events }
  | .failed e => { t with exit := .failed e }
  | .panicked text => { t with exit := .panicked text }

theorem andThen_returned {t : Traced ε α} {f : α → Traced ε β} {a : α} (h : t.exit = .returned a) :
    t.andThen f = { f a with calls := t.calls ++ (f a).calls, events := t.events ++ (f a).events } := by
  simp only [andThen, h]

theorem andThen_failed {t : Traced ε α} {f : α → Traced ε β} {e : ε} (h : t.exit = .failed e) :
    t.andThen f = { t with exit := .failed e } := by
  simp only [andThen, h]

theorem andThen_panicked {t : Traced ε α} {f : α → Traced ε β} {text : String} (h : t.exit = .panicked text) :
    t.andThen f = { t with exit := .panicked text } := by
  simp only [andThen, h]

theorem exit_andThen_eq_returned {t : Traced ε α} {f : α → Traced ε β} {b : β} :
    (t.andThen f).exit = .returned b ↔ ∃ a, t.exit = .returned a ∧ (f a).exit = .returned b := by
  cases hexit : t.exit with
  | returned a =>
    rw [andThen_returned hexit]
    exact ⟨fun h => ⟨a, rfl, h⟩, fun ⟨a', ha, h⟩ => by cases ha; exact h⟩
  | failed e =>
    rw [andThen_failed hexit]
    exact ⟨nofun, nofun⟩
  | panicked text =>
    rw [andThen_panicked hexit]
    exact ⟨nofun, nofun⟩

theorem lost_of_returned {t : Traced ε α} {a : α} (h : t.exit = .returned a) : t.lost = 0 := by
  rw [lost, h]

theorem lost_of_not_overrun {t : Traced ε α} (h : t.overrun = false) : t.lost = 0 := by
  rw [lost, h]
  cases t.exit <;> rfl

/-- From one session to another something ended in this way and was seen to do this. All that was there before is still
there, the timers it opened are closed again, and they stand in the log with their times. -/
structure Led (c : Traced ε α) (log : Nat) (s : Session) (exit : Exit ε α) (t : Session) : Prop where
  exit : exit = c.exit
  calls : t.calls = s.calls ++ c.calls
  depth : t.depth = s.depth + c.lost
  debug : t.debug = s.debug
  events : ∃ events, t.events = s.events ++ events ∧ events.map Event.untimed = c.events
  stages : ∃ stages, t.entries log = s.entries log ++ stages ∧
    stages.map (fun stage => (stage.name, stage.depth)) = c.events.filterMap Event.opened? ∧
    ∀ stage ∈ stages, stage.elapsed.isSome = true
  others : ∀ other, other ≠ log → t.entries other = s.entries other
  logs : s.logs.length ≤ t.logs.length
  made : s.made ≤ t.made

namespace Led

variable {c : Traced ε α} {f : α → Traced ε β} {log : Nat} {s t u : Session} {exit : Exit ε α}

theorem of_no_timers {events : List Event} (hexit : exit = c.exit) (hcalls : t.calls = s.calls ++ c.calls)
    (houtset : t.outset = s.outset) (hlost : c.lost = 0) (hevents : t.events = s.events ++ events)
    (huntimed : events.map Event.untimed = c.events) (hopened : c.events.filterMap Event.opened? = [])
    (hlogs : t.logs = s.logs) (hmade : t.made = s.made) : c.Led log s exit t := by
  have hentries : ∀ log, t.entries log = s.entries log := fun log => by
    rw [Session.entries, Session.entries, hlogs]
  exact {
    exit := hexit
    calls := hcalls
    depth := by rw [hlost]; exact congrArg Outset.depth houtset
    debug := congrArg Outset.debug houtset
    events := ⟨events, hevents, huntimed⟩
    stages := ⟨[], by rw [hentries, List.append_nil], hopened.symm, nofun⟩
    others := fun other _ => hentries other
    logs := Nat.le_of_eq (congrArg List.length hlogs.symm)
    made := Nat.le_of_eq hmade.symm }

theorem outset {a : α} (h : c.Led log s (.returned a) t) : t.outset = s.outset := by
  have hdepth := h.depth
  rw [lost_of_returned h.exit.symm] at hdepth
  rw [Session.outset, hdepth, h.debug]
  rfl

theorem andThen_returned {a : α} {exit : Exit ε β} (h : c.Led log s (.returned a) t) (h' : (f a).Led log t exit u) :
    (c.andThen f).Led log s exit u := by
  obtain ⟨first, hfirst, huntimed⟩ := h.events
  obtain ⟨second, hsecond, huntimed'⟩ := h'.events
  obtain ⟨stages, hstages, hopened, hclosed⟩ := h.stages
  obtain ⟨stages', hstages', hopened', hclosed'⟩ := h'.stages
  have hdepth : t.depth = s.depth := congrArg Outset.depth h.outset
  rw [Traced.andThen_returned h.exit.symm]
  exact {
    exit := h'.exit
    calls := by rw [h'.calls, h.calls, List.append_assoc]
    depth := by rw [h'.depth, hdepth]; rfl
    debug := h'.debug.trans h.debug
    events := ⟨first ++ second, by rw [hsecond, hfirst, List.append_assoc], by
      rw [List.map_append, huntimed, huntimed']⟩
    stages := ⟨stages ++ stages', by rw [hstages', hstages, List.append_assoc], by
      rw [List.map_append, hopened, hopened', List.filterMap_append], fun stage hstage =>
        (List.mem_append.mp hstage).elim (hclosed stage) (hclosed' stage)⟩
    others := fun other hne => (h'.others other hne).trans (h.others other hne)
    logs := Nat.le_trans h.logs h'.logs
    made := Nat.le_trans h.made h'.made }

theorem andThen_failed {e : ε} (h : c.Led log s (.failed e) t) : (c.andThen f).Led log s (.failed e) t := by
  have hdepth := h.depth
  rw [lost, ← h.exit] at hdepth
  rw [Traced.andThen_failed h.exit.symm]
  exact { h with exit := rfl, depth := hdepth }

theorem andThen_panicked {text : String} (h : c.Led log s (.panicked text) t) :
    (c.andThen f).Led log s (.panicked text) t := by
  have hdepth := h.depth
  rw [lost, ← h.exit] at hdepth
  rw [Traced.andThen_panicked h.exit.symm]
  exact { h with exit := rfl, depth := hdepth }

end Led

end Traced

/-- What something shows in any session, by the outset at which it is begun. -/
def Course (ε α : Type) : Type :=
  Outset → Traced ε α

namespace Course

variable {ε α β : Type}

instance : Monad (Course ε) where
  pure a := fun _ => ⟨.returned a, [], [], false⟩
  bind c d := fun o => (c o).andThen fun a => d a o

def write (e : Event) : Course ε Unit := fun _ =>
  ⟨.returned (), [], [e.untimed], false⟩

def takeSafe (step : Step Empty α) : Course ε α := fun _ =>
  ⟨step.exit.mapError nofun, step.calls, [], false⟩

def timed (name : String) (c : Course ε α) : Course ε α := fun o =>
  if o.Fits then
    { c o.inner with
      events := .started name o.depth :: ((c o.inner).events ++ [.finished name o.depth .zero]) }
  else ⟨.panicked tooWide, [], [], true⟩

variable {c : Course ε α} {d : α → Course ε β} {o : Outset}

theorem timed_of_fits (h : o.Fits) (name : String) (c : Course ε α) : timed name c o = { c o.inner with
    events := .started name o.depth :: ((c o.inner).events ++ [.finished name o.depth .zero]) } :=
  if_pos h

theorem timed_of_not_fits (h : ¬o.Fits) (name : String) (c : Course ε α) :
    timed name c o = ⟨.panicked tooWide, [], [], true⟩ :=
  if_neg h

theorem opened_timed (h : o.Fits) (name : String) (c : Course ε α) : (timed name c o).events.filterMap Event.opened? =
    (name, o.depth) :: (c o.inner).events.filterMap Event.opened? := by
  simp [timed_of_fits h, Event.opened?]

theorem exit_bind_eq_returned {b : β} :
    ((c >>= d) o).exit = .returned b ↔ ∃ a, (c o).exit = .returned a ∧ (d a o).exit = .returned b :=
  Traced.exit_andThen_eq_returned

theorem exit_timed_eq_returned {name : String} {a : α} :
    (timed name c o).exit = .returned a ↔ o.Fits ∧ (c o.inner).exit = .returned a := by
  by_cases h : o.Fits
  · rw [timed_of_fits h]
    exact (and_iff_right h).symm
  · rw [timed_of_not_fits h]
    exact ⟨nofun, fun hfits => absurd hfits.1 h⟩

def Follows (c : Course ε α) (log : Nat) (x : Attempt Session ε α) : Prop :=
  ∀ s, log < s.logs.length → (c s.outset).Led log s (x s).1 (x s).2

variable {log : Nat}

theorem follows_done (a : α) : (pure a : Course ε α).Follows log (pure a) := fun _ _ =>
  .of_no_timers rfl (List.append_nil _).symm rfl rfl (List.append_nil _).symm rfl rfl rfl rfl

/-- What is done next may see more than the course shows. -/
theorem follows_bind_view {γ : Type} {x : Attempt Session ε γ} {f : γ → Attempt Session ε β} (view : γ → α)
    (hx : c.Follows log (view <$> x)) (hf : ∀ v o, (c o).exit = .returned (view v) → (d (view v)).Follows log (f v)) :
    (c >>= d).Follows log (x >>= f) := by
  intro s hlog
  have h := hx s hlog
  change (c s.outset).Led log s (Attempt.andThen x (pure ∘ view) s).1 (Attempt.andThen x (pure ∘ view) s).2 at h
  change ((c s.outset).andThen fun a => d a s.outset).Led log s (Attempt.andThen x f s).1 (Attempt.andThen x f s).2
  rcases hrun : x s with ⟨v | e | text, t⟩
  · rw [Attempt.andThen_returned hrun] at h
    rw [Attempt.andThen_returned hrun]
    have hnext := hf v _ h.exit.symm t (Nat.lt_of_lt_of_le hlog h.logs)
    have houtset : t.outset = s.outset := h.outset
    rw [houtset] at hnext
    exact h.andThen_returned hnext
  · rw [Attempt.andThen_failed hrun] at h
    rw [Attempt.andThen_failed hrun]
    exact h.andThen_failed
  · rw [Attempt.andThen_panicked hrun] at h
    rw [Attempt.andThen_panicked hrun]
    exact h.andThen_panicked

theorem follows_bind {x : Attempt Session ε α} {f : α → Attempt Session ε β} (hx : c.Follows log x)
    (hf : ∀ a o, (c o).exit = .returned a → (d a).Follows log (f a)) : (c >>= d).Follows log (x >>= f) := by
  have hid : c.Follows log (id <$> x) := by rwa [id_map]
  exact follows_bind_view id hid hf

theorem led_write {e e' : Event} (huntimed : e'.untimed = e.untimed) (h : e.untimed.opened? = none) (s : Session) :
    ((write e : Course ε Unit) s.outset).Led log s (.returned ()) (s.write e') :=
  .of_no_timers rfl (List.append_nil _).symm rfl rfl rfl (congrArg (fun e => [e]) huntimed) (by simp [write, h]) rfl rfl

theorem follows_write {e e' : Event} (huntimed : e'.untimed = e.untimed) (h : e.untimed.opened? = none) :
    (write e : Course ε Unit).Follows log (Attempt.change fun s => s.write e') := fun s _ =>
  led_write huntimed h s

theorem follows_takeSafe (step : Step Empty α) : (takeSafe step : Course ε α).Follows log (Session.takeSafe step) :=
  fun _ _ => .of_no_timers rfl rfl rfl (Traced.lost_of_not_overrun rfl) (List.append_nil _).symm rfl rfl rfl rfl

theorem follows_readClock {f : Nat → Attempt Session ε α} (hf : ∀ time, c.Follows log (f time)) :
    c.Follows log (Attempt.ask Session.readClock >>= f) := by
  intro s hlog
  have h := hf s.readClock.1 s.readClock.2 hlog
  exact { h with }

end Course

namespace Session

variable {log : Nat} {s : Session}

theorem entries_length_logs (s : Session) : s.entries s.logs.length = [] := by
  rw [entries, List.getElem?_eq_none (Nat.le_refl _), Option.getD_none]

theorem entries_startTimer (hlog : log < s.logs.length) (name : String) :
    (s.startTimer name (some log)).2.entries log = s.entries log ++ [⟨name, s.depth, none⟩] := by
  change (s.logs.modify log (· ++ [⟨name, s.depth, none⟩]))[log]?.getD [] = _
  rw [List.getElem?_modify_eq, entries, List.getElem?_eq_getElem hlog]
  rfl

theorem entries_startTimer_of_ne {other : Nat} (h : other ≠ log) (name : String) :
    (s.startTimer name (some log)).2.entries other = s.entries other := by
  change (s.logs.modify log (· ++ [⟨name, s.depth, none⟩]))[other]?.getD [] = _
  rw [List.getElem?_modify_ne _ _ h.symm, entries]

theorem logs_startTimer (name : String) : (s.startTimer name (some log)).2.logs.length = s.logs.length :=
  List.length_modify ..

variable {timer : Timer} {slot : Slot}

theorem entries_closeTimer (hslot : timer.slot = some slot) :
    (s.closeTimer timer).entries slot.log = (s.entries slot.log).modify slot.position fun entry =>
      { entry with elapsed := some (.between timer.start (s.clock s.readings)) } := by
  simp only [closeTimer, hslot, closeSlot, entries, write, readClock, List.getElem?_modify_eq]
  cases s.logs[slot.log]? with
  | none => rw [Option.getD_none, List.modify_nil]; rfl
  | some entries => rfl

theorem entries_closeTimer_of_ne (hslot : timer.slot = some slot) {other : Nat} (h : other ≠ slot.log) :
    (s.closeTimer timer).entries other = s.entries other := by
  simp only [closeTimer, hslot, closeSlot, entries, write, readClock, List.getElem?_modify_ne _ _ h.symm]

theorem logs_closeTimer (hslot : timer.slot = some slot) :
    (s.closeTimer timer).logs.length = s.logs.length := by
  simp only [closeTimer, hslot, closeSlot, write, readClock, List.length_modify]

end Session

namespace Course

variable {ε α : Type} {log : Nat}

theorem modify_length_append {β : Type} (f : β → β) (before : List β) (b : β) (after : List β) :
    (before ++ b :: after).modify before.length f = before ++ f b :: after := by
  induction before with
  | nil => exact List.modify_zero_cons f b after
  | cons a before ih => rw [List.cons_append, List.length_cons, List.modify_succ_cons, ih, List.cons_append]

/-- The entry that is filled in when the timer is closed stands in front of those of the timers within it. -/
theorem led_timed {c : Course ε α} {x : Attempt Session ε α} (name : String) (h : c.Follows log x) {s : Session}
    (hlog : log < s.logs.length) (hfits : s.outset.Fits) :
    (timed name c s.outset).Led log s (Session.timed name (some log) x s).1
      (Session.timed name (some log) x s).2 := by
  let timer := (s.startTimer name (some log)).1
  let u := (s.startTimer name (some log)).2
  let t := (x u).2
  have hslot : timer.slot = some ⟨log, (s.entries log).length⟩ := rfl
  have hbody : (c s.outset.inner).Led log u (x u).1 t := by
    have hinner := h u (by rwa [Session.logs_startTimer])
    rwa [Session.outset_startTimer] at hinner
  have hdepth : u.depth = s.depth + 1 := congrArg Outset.depth (s.outset_startTimer name (some log))
  obtain ⟨events, hevents, huntimed⟩ := hbody.events
  obtain ⟨stages, hstages, hopened, hclosed⟩ := hbody.stages
  let elapsed := Duration.between timer.start (t.clock t.readings)
  rw [Session.timed_of_fits hfits]
  exact {
    exit := by rw [timed_of_fits hfits]; exact hbody.exit
    calls := by rw [Session.calls_closeTimer, hbody.calls, timed_of_fits hfits]; rfl
    depth := by
      rw [Session.depth_closeTimer, hbody.depth, hdepth, Nat.add_right_comm, Nat.add_sub_cancel, timed_of_fits hfits]
      rfl
    debug := by rw [Session.debug_closeTimer, hbody.debug]; rfl
    events := ⟨.started name s.depth :: (events ++ [.finished name s.depth elapsed]), by
      rw [Session.events_closeTimer, hevents, Session.events_startTimer, List.append_assoc, List.append_assoc]
      rfl, by
      rw [List.map_cons, List.map_append, huntimed, timed_of_fits hfits]
      rfl⟩
    stages := ⟨⟨name, s.depth, some elapsed⟩ :: stages, by
      rw [Session.entries_closeTimer hslot, hstages, Session.entries_startTimer hlog, List.append_assoc]
      exact modify_length_append _ _ _ _, by
      rw [List.map_cons, hopened, opened_timed hfits]
      rfl, by
      intro stage hstage
      rcases List.mem_cons.mp hstage with rfl | hstage
      · rfl
      · exact hclosed stage hstage⟩
    others := fun other hne => by
      rw [Session.entries_closeTimer_of_ne hslot hne, hbody.others other hne, Session.entries_startTimer_of_ne hne]
    logs := by rw [Session.logs_closeTimer hslot, ← Session.logs_startTimer name]; exact hbody.logs
    made := by rw [Session.made_closeTimer, ← Session.made_startTimer s name (some log)]; exact hbody.made }

/-- A timer that cannot be opened leaves the depth one too high, and nothing else. -/
theorem follows_timed {c : Course ε α} {x : Attempt Session ε α} (name : String) (h : c.Follows log x) :
    (timed name c).Follows log (Session.timed name (some log) x) := by
  intro s hlog
  by_cases hfits : s.outset.Fits
  · exact led_timed name h hlog hfits
  · rw [timed_of_not_fits hfits, Session.timed_of_not_fits hfits]
    exact {
      exit := rfl
      calls := (List.append_nil _).symm
      depth := rfl
      debug := rfl
      events := ⟨[], (List.append_nil _).symm, rfl⟩
      stages := ⟨[], (List.append_nil _).symm, rfl, nofun⟩
      others := fun _ _ => rfl
      logs := Nat.le_refl _
      made := Nat.le_refl _ }

end Course

namespace Session

variable {ε α β : Type}

theorem map_timed (f : α → β) (name : String) (log : Option Nat) (x : Attempt Session ε α) :
    f <$> timed name log x = timed name log (f <$> x) := by
  funext s
  change Attempt.andThen (timed name log x) (pure ∘ f) s = timed name log (Attempt.andThen x (pure ∘ f)) s
  by_cases hfits : s.outset.Fits
  · rw [Attempt.andThen, timed_of_fits hfits, timed_of_fits hfits, Attempt.andThen]
    rcases x (s.startTimer name log).2 with ⟨a | e | text, t⟩ <;> rfl
  · rw [Attempt.andThen, timed_of_not_fits hfits, timed_of_not_fits hfits]

end Session

end BackendAssembly
