import BackendAssembly.Proofs.Course
import Mathlib.Data.List.Induction
import Mathlib.Data.List.Infix

namespace BackendAssembly

variable {logs : Nat}

theorem map_modify {α β : Type} {f : α → α} {g : α → β} {k : β → β} (h : ∀ a, g (f a) = k (g a)) (xs : List α)
    (i : Nat) : (xs.modify i f).map g = (xs.map g).modify i k := by
  refine List.ext_getElem? fun j => ?_
  rw [List.getElem?_map, List.getElem?_modify, List.getElem?_modify, List.getElem?_map]
  cases xs[j]? with
  | none => rfl
  | some a => by_cases hi : i = j <;> simp [hi, h]

/-- A timer is opened, which records into one of the logs or into none, or the timer that was opened at a place is
dropped. Only a timer that is open can be dropped: at any other place nothing happens. -/
inductive TimerEvent (logs : Nat) where
  | opened (name : String) (log : Option (Fin logs))
  | dropped (place : Nat)
  deriving DecidableEq, Repr

/-- What the events alone tell of a timer: how it was opened and at which depth, and whether it is open. -/
structure Opening (logs : Nat) where
  name : String
  log : Option (Fin logs)
  depth : Nat
  isOpen : Bool
  deriving DecidableEq, Repr

namespace Opening

def drop (o : Opening logs) : Opening logs :=
  { o with isOpen := false }

def openCount (openings : List (Opening logs)) : Nat :=
  openings.countP isOpen

def into (log : Fin logs) (openings : List (Opening logs)) : List (Opening logs) :=
  openings.filter fun o => o.log = some log

/-- Where the entry of a timer is: behind those of the timers that were opened before into the same log. -/
def slot? (openings : List (Opening logs)) (place : Nat) : Option Slot :=
  openings[place]?.bind fun o => o.log.map fun log => ⟨log.val, (into log (openings.take place)).length⟩

def ended (shown : String × Nat × Bool) : String × Nat × Bool :=
  (shown.1, shown.2.1, false)

def seen (o : Opening logs) : String × Nat × Bool :=
  (o.name, o.depth, o.isOpen)

variable {openings : List (Opening logs)} {place : Nat} {o : Opening logs} {log : Fin logs}

theorem map_seen_modify_drop (openings : List (Opening logs)) (place : Nat) :
    (openings.modify place drop).map seen = (openings.map seen).modify place ended := by
  have hdrop : ∀ o : Opening logs, seen o.drop = ended (seen o) := fun _ => rfl
  exact map_modify hdrop openings place

theorem drop_of_closed (h : o.isOpen = false) : o.drop = o := by
  cases o
  cases h
  rfl

theorem exists_parts (h : openings[place]? = some o) :
    ∃ before after, openings = before ++ o :: after ∧ openings.take place = before ∧
      openings.modify place drop = before ++ o.drop :: after := by
  obtain ⟨hlt, hget⟩ := List.getElem?_eq_some_iff.mp h
  refine ⟨openings.take place, openings.drop (place + 1), ?_, rfl, ?_⟩
  · rw [← hget, ← List.drop_eq_getElem_cons hlt, List.take_append_drop]
  · rw [List.modify_eq_take_cons_drop hlt, hget]

theorem eq_or_eq_of_concat {last : Opening logs} (h : (openings ++ [last])[place]? = some o) :
    place < openings.length ∧ openings[place]? = some o ∨ place = openings.length ∧ o = last := by
  obtain ⟨hlt, -⟩ := List.getElem?_eq_some_iff.mp h
  rw [List.length_append, List.length_singleton] at hlt
  rcases Nat.lt_or_eq_of_le (Nat.le_of_lt_succ hlt) with hlt | rfl
  · rw [List.getElem?_append_left hlt] at h
    exact .inl ⟨hlt, h⟩
  · rw [List.getElem?_append_right (Nat.le_refl _), Nat.sub_self, List.getElem?_cons_zero] at h
    exact .inr ⟨rfl, (Option.some.inj h).symm⟩

theorem of_modify_drop {other : Nat} (h : (openings.modify place drop)[other]? = some o) (hopen : o.isOpen = true) :
    other ≠ place ∧ openings[other]? = some o := by
  by_cases hother : other = place
  · subst hother
    rw [List.getElem?_modify_eq, Option.map_eq_map, Option.map_eq_some_iff] at h
    obtain ⟨before, -, rfl⟩ := h
    cases hopen
  · rw [List.getElem?_modify_ne _ _ (Ne.symm hother)] at h
    exact ⟨hother, h⟩

theorem openCount_concat (openings : List (Opening logs)) (o : Opening logs) (h : o.isOpen = true) :
    openCount (openings ++ [o]) = openCount openings + 1 := by
  rw [openCount, List.countP_append, List.countP_singleton, if_pos h, openCount]

theorem openCount_modify_drop (h : openings[place]? = some o) (hopen : o.isOpen = true) :
    openCount openings = openCount (openings.modify place drop) + 1 := by
  obtain ⟨before, after, hparts, -, hmodify⟩ := exists_parts h
  have hdrop : ¬ o.drop.isOpen = true := Bool.false_ne_true
  rw [hmodify, hparts, openCount, openCount, List.countP_append, List.countP_append, List.countP_cons_of_pos hopen,
    List.countP_cons_of_neg hdrop, Nat.add_assoc]

theorem into_append (log : Fin logs) (before after : List (Opening logs)) :
    into log (before ++ after) = into log before ++ into log after :=
  List.filter_append ..

theorem into_cons_of_eq (h : o.log = some log) (openings : List (Opening logs)) :
    into log (o :: openings) = o :: into log openings :=
  List.filter_cons_of_pos (decide_eq_true h)

theorem into_cons_of_ne (h : o.log ≠ some log) (openings : List (Opening logs)) :
    into log (o :: openings) = into log openings :=
  List.filter_cons_of_neg (by rwa [decide_eq_true_iff])

theorem getElem?_into (h : openings[place]? = some o) (hlog : o.log = some log) :
    (into log openings)[(into log (openings.take place)).length]? = some o := by
  obtain ⟨before, after, hparts, htake, -⟩ := exists_parts h
  rw [htake, hparts, into_append, into_cons_of_eq hlog, List.getElem?_append_right (Nat.le_refl _), Nat.sub_self,
    List.getElem?_cons_zero]

theorem into_modify_drop_of_eq (h : openings[place]? = some o) (hlog : o.log = some log) :
    into log (openings.modify place drop) =
      (into log openings).modify (into log (openings.take place)).length drop := by
  obtain ⟨before, after, hparts, htake, hmodify⟩ := exists_parts h
  have hdrop : o.drop.log = some log := hlog
  rw [htake, hmodify, hparts, into_append, into_append, into_cons_of_eq hlog, into_cons_of_eq hdrop,
    Course.modify_length_append]

theorem into_modify_drop_of_ne (h : openings[place]? = some o) (hlog : o.log ≠ some log) :
    into log (openings.modify place drop) = into log openings := by
  obtain ⟨before, after, hparts, -, hmodify⟩ := exists_parts h
  have hdrop : o.drop.log ≠ some log := hlog
  rw [hmodify, hparts, into_append, into_append, into_cons_of_ne hlog, into_cons_of_ne hdrop]

theorem slot?_of_log (h : openings[place]? = some o) (hlog : o.log = some log) :
    slot? openings place = some ⟨log, (into log (openings.take place)).length⟩ := by
  rw [slot?, h, Option.bind_some, hlog, Option.map_some]

theorem slot?_of_no_log (h : openings[place]? = some o) (hlog : o.log = none) : slot? openings place = none := by
  rw [slot?, h, Option.bind_some, hlog, Option.map_none]

theorem slot?_append (h : place < openings.length) (after : List (Opening logs)) :
    slot? (openings ++ after) place = slot? openings place := by
  rw [slot?, slot?, List.getElem?_append_left h, List.take_append_of_le_length (Nat.le_of_lt h)]

theorem slot?_eq (openings : List (Opening logs)) (place : Nat) :
    slot? openings place = (openings.map Opening.log)[place]?.bind fun l =>
      l.map fun log => ⟨log, ((openings.map Opening.log).take place).countP (· = some log)⟩ := by
  simp only [slot?, into, ← List.countP_eq_length_filter, ← List.map_take, List.countP_map, List.getElem?_map,
    Option.bind_map, Function.comp_def]

theorem map_log_modify_drop (openings : List (Opening logs)) (place : Nat) :
    (openings.modify place drop).map Opening.log = openings.map Opening.log := by
  have hdrop : ∀ o : Opening logs, Opening.log o.drop = id (Opening.log o) := fun _ => rfl
  rw [map_modify hdrop, List.modify_id]

theorem slot?_modify_drop (openings : List (Opening logs)) (place other : Nat) :
    slot? (openings.modify other drop) place = slot? openings place := by
  rw [slot?_eq, slot?_eq, map_log_modify_drop]

end Opening

def TimerEvent.openings (events : List (TimerEvent logs)) : List (Opening logs) :=
  events.foldl follow []
where
  follow (openings : List (Opening logs)) : TimerEvent logs → List (Opening logs)
    | .opened name log => openings ++ [⟨name, log, Opening.openCount openings, true⟩]
    | .dropped place => openings.modify place Opening.drop

/-- The timers that were opened, and how many were counted but could not be opened. -/
structure Past (logs : Nat) where
  openings : List (Opening logs) := []
  lost : Nat := 0

namespace Past

variable {debug : Bool}

def depth (past : Past logs) : Nat :=
  Opening.openCount past.openings + past.lost

def next (past : Past logs) (name : String) (log : Option (Fin logs)) : Opening logs :=
  ⟨name, log, past.depth, true⟩

def follow (debug : Bool) (past : Past logs) : TimerEvent logs → Past logs
  | .opened name log =>
    if Outset.Fits ⟨past.depth, debug⟩ then { past with openings := past.openings ++ [past.next name log] }
    else { past with lost := past.lost + 1 }
  | .dropped place => { past with openings := past.openings.modify place Opening.drop }

def after (debug : Bool) (events : List (TimerEvent logs)) : Past logs :=
  events.foldl (follow debug) {}

theorem after_concat (debug : Bool) (events : List (TimerEvent logs)) (e : TimerEvent logs) :
    after debug (events ++ [e]) = (after debug events).follow debug e := by
  rw [after, List.foldl_append]
  rfl

theorem after_eq_openings {events : List (TimerEvent logs)}
    (h : debug = true → ∀ before, before <+: events → Opening.openCount (TimerEvent.openings before) ≤ 32768) :
    after debug events = ⟨TimerEvent.openings events, 0⟩ := by
  induction events using List.reverseRecOn with
  | nil => rfl
  | append_singleton events e ih =>
    have hopenings : TimerEvent.openings (events ++ [e]) = TimerEvent.openings.follow (TimerEvent.openings events) e := by
      rw [TimerEvent.openings, List.foldl_append]
      rfl
    rw [after_concat, ih fun hdebug before hbefore => h hdebug before (hbefore.trans (List.prefix_append _ _)), hopenings]
    cases e with
    | dropped place => rfl
    | opened name log =>
      have hfits : Outset.Fits ⟨Opening.openCount (TimerEvent.openings events), debug⟩ := by
        intro hdebug
        have hcount := h hdebug _ (List.prefix_refl _)
        rw [hopenings, TimerEvent.openings.follow, Opening.openCount_concat _ _ rfl] at hcount
        change 2 * Opening.openCount (TimerEvent.openings events) ≤ 65535
        omega
      exact if_pos hfits

end Past

def TimedStage.seen (stage : TimedStage) : String × Nat × Bool :=
  (stage.name, stage.depth, stage.elapsed.isNone)

namespace Session

variable {s : Session} {timer : Timer} {log : Nat} {slot : Slot}

def stageAt? (s : Session) (slot : Slot) : Option TimedStage :=
  (s.entries slot.log)[slot.position]?

theorem slot_startTimer (s : Session) (name : String) (log : Option Nat) :
    (s.startTimer name log).1.slot = log.map fun log => ⟨log, (s.entries log).length⟩ := by
  cases log <;> rfl

theorem length_logs_startTimer (s : Session) (name : String) (log : Option Nat) :
    (s.startTimer name log).2.logs.length = s.logs.length := by
  cases log with
  | none => rfl
  | some log => exact logs_startTimer name

theorem entries_startTimer_of_other {log : Option Nat} {other : Nat} (h : log ≠ some other) (name : String) :
    (s.startTimer name log).2.entries other = s.entries other := by
  cases log with
  | none => rfl
  | some log => exact entries_startTimer_of_ne (fun hlog => h (congrArg some hlog.symm)) name

theorem entries_closeTimer_of_unrecorded (h : timer.slot = none) (log : Nat) :
    (s.closeTimer timer).entries log = s.entries log := by
  simp only [closeTimer, h, entries, write, readClock]

theorem stageAt?_closeTimer_self (h : timer.slot = some slot) :
    (s.closeTimer timer).stageAt? slot = (s.stageAt? slot).map fun stage =>
      { stage with elapsed := some (.between timer.start (s.clock s.readings)) } := by
  rw [stageAt?, entries_closeTimer h, List.getElem?_modify_eq, stageAt?, Option.map_eq_map]

theorem stageAt?_closeTimer_of_ne (h : timer.slot ≠ some slot) :
    (s.closeTimer timer).stageAt? slot = s.stageAt? slot := by
  rw [stageAt?, stageAt?]
  cases hslot : timer.slot with
  | none => rw [entries_closeTimer_of_unrecorded hslot]
  | some own =>
    by_cases hlog : slot.log = own.log
    · have hposition : own.position ≠ slot.position := by
        intro hposition
        obtain ⟨ownLog, ownPosition⟩ := own
        cases hlog
        cases hposition
        exact h hslot
      rw [hlog, entries_closeTimer hslot, List.getElem?_modify_ne _ _ hposition]
    · rw [entries_closeTimer_of_ne hslot hlog]

theorem length_logs_closeTimer (s : Session) (timer : Timer) : (s.closeTimer timer).logs.length = s.logs.length := by
  cases hslot : timer.slot with
  | none => simp only [closeTimer, hslot, write, readClock]
  | some slot => exact logs_closeTimer hslot

theorem map_seen_entries_closeTimer (h : timer.slot = some slot) :
    ((s.closeTimer timer).entries slot.log).map TimedStage.seen =
      ((s.entries slot.log).map TimedStage.seen).modify slot.position Opening.ended := by
  have hclose : ∀ stage : TimedStage, TimedStage.seen
      { stage with elapsed := some (.between timer.start (s.clock s.readings)) } = Opening.ended stage.seen :=
    fun _ => rfl
  rw [entries_closeTimer h, map_modify hclose]

end Session

namespace TimerTable

open Opening

variable {t : TimerTable} {debug : Bool} {past : Past logs} {place : Nat} {o : Opening logs} {timer : Timer}

theorem openTimer_of_fits (h : t.session.outset.Fits) (name : String) (log : Option Nat) :
    (t.openTimer name log).2 = { session := (t.session.startTimer name log).2
                                 timers := t.timers ++ [some (t.session.startTimer name log).1] } := by
  rw [openTimer, Session.openTimer_of_fits h]

theorem openTimer_of_not_fits (h : ¬t.session.outset.Fits) (name : String) (log : Option Nat) :
    (t.openTimer name log).2 = { t with session := { t.session with depth := t.session.depth + 1 } } := by
  rw [openTimer, Session.openTimer_of_not_fits h]

theorem timer?_append_of_lt (h : place < t.timers.length) (session : Session) (timers : List (Option Timer)) :
    timer? ⟨session, t.timers ++ timers⟩ place = t.timer? place := by
  rw [timer?, List.getElem?_append_left h, timer?]

theorem timer?_append_self (t : TimerTable) (session : Session) (timer : Timer) :
    timer? ⟨session, t.timers ++ [some timer]⟩ t.timers.length = some timer := by
  rw [timer?, List.getElem?_append_right (Nat.le_refl _), Nat.sub_self, List.getElem?_cons_zero, Option.join_some]

theorem close_of_none (h : t.timer? place = none) : t.close place = t := by
  simp only [close, h]

theorem close_of_some (h : t.timer? place = some timer) :
    t.close place = { session := t.session.closeTimer timer, timers := t.timers.set place none } := by
  simp only [close, h]

/-- The table and the past are in step. What carries over is the place of its entry that each open timer holds. -/
structure Mirrors (t : TimerTable) (debug : Bool) (past : Past logs) : Prop where
  depth : t.session.depth = past.depth
  debug : t.session.debug = debug
  places : t.timers.length = past.openings.length
  opened : ∀ {place o}, past.openings[place]? = some o → o.isOpen = true →
    ∃ timer, t.timer? place = some timer ∧ timer.slot = slot? past.openings place
  closed : ∀ {place o}, past.openings[place]? = some o → o.isOpen = false → t.timer? place = none
  length_logs : t.session.logs.length = logs
  entries : ∀ log : Fin logs, (t.session.entries log).map TimedStage.seen = (into log past.openings).map Opening.seen

theorem Mirrors.outset (h : t.Mirrors debug past) : t.session.outset = ⟨past.depth, debug⟩ := by
  rw [Session.outset, h.depth, h.debug]

theorem Mirrors.timer?_eq_none (h : t.Mirrors debug past) (hplace : past.openings[place]? = none) :
    t.timer? place = none := by
  rw [timer?, List.getElem?_eq_none (by rw [h.places]; exact List.getElem?_eq_none_iff.mp hplace), Option.join_none]

theorem Mirrors.timer?_isSome (h : t.Mirrors debug past) (place : Nat) :
    (t.timer? place).isSome = true ↔ ∃ o, past.openings[place]? = some o ∧ o.isOpen = true := by
  cases hplace : past.openings[place]? with
  | none => simp [h.timer?_eq_none hplace]
  | some o =>
    cases hopen : o.isOpen with
    | false => simp [h.closed hplace hopen, hopen]
    | true =>
      obtain ⟨timer, htimer, -⟩ := h.opened hplace hopen
      simp [htimer, hopen]

theorem Mirrors.length_entries (h : t.Mirrors debug past) (log : Fin logs) :
    (t.session.entries log).length = (into log past.openings).length := by
  have hlength := congrArg List.length (h.entries log)
  rwa [List.length_map, List.length_map] at hlength

theorem Mirrors.slot_startTimer (h : t.Mirrors debug past) (name : String) (log : Option (Fin logs)) :
    (t.session.startTimer name (log.map Fin.val)).1.slot =
      slot? (past.openings ++ [past.next name log]) past.openings.length := by
  have hself : (past.openings ++ [past.next name log])[past.openings.length]? = some (past.next name log) := by
    rw [List.getElem?_append_right (Nat.le_refl _), Nat.sub_self, List.getElem?_cons_zero]
  rw [Session.slot_startTimer]
  cases log with
  | none => exact (slot?_of_no_log hself rfl).symm
  | some log => rw [slot?_of_log hself rfl, List.take_left, ← h.length_entries, Option.map_some, Option.map_some]

theorem Mirrors.entries_startTimer (h : t.Mirrors debug past) (name : String) (log : Option (Fin logs))
    (other : Fin logs) :
    ((t.session.startTimer name (log.map Fin.val)).2.entries other).map TimedStage.seen =
      (into other (past.openings ++ [past.next name log])).map Opening.seen := by
  have hlog : (past.next name log).log = log := rfl
  rw [into_append, List.map_append]
  by_cases hother : log = some other
  · subst hother
    have hlt : other.val < t.session.logs.length := by rw [h.length_logs]; exact other.isLt
    rw [Option.map_some, Session.entries_startTimer hlt, into_cons_of_eq hlog, List.map_append, h.entries, h.depth]
    rfl
  · have hval : log.map Fin.val ≠ some other.val := fun hval => by
      obtain ⟨_, hlog, hval⟩ := Option.map_eq_some_iff.mp hval
      exact hother (hlog.trans (congrArg some (Fin.ext hval)))
    rw [Session.entries_startTimer_of_other hval, h.entries, into_cons_of_ne (by rwa [hlog])]
    exact (List.append_nil _).symm

theorem Mirrors.openTimer_of_fits (h : t.Mirrors debug past) (hfits : t.session.outset.Fits) (name : String)
    (log : Option (Fin logs)) :
    (t.openTimer name (log.map Fin.val)).2.Mirrors debug
      { past with openings := past.openings ++ [past.next name log] } := by
  have houtset := t.session.outset_startTimer name (log.map Fin.val)
  rw [TimerTable.openTimer_of_fits hfits]
  exact {
    depth := by
      rw [Past.depth, openCount_concat _ _ rfl, Nat.add_right_comm, ← Past.depth, ← h.depth]
      exact congrArg Outset.depth houtset
    debug := (congrArg Outset.debug houtset).trans h.debug
    places := by
      rw [List.length_append, List.length_append, h.places]
      rfl
    opened := by
      intro place o hplace hopen
      -- The other timers keep their entries, and the new one holds the last entry of its log.
      rcases eq_or_eq_of_concat hplace with ⟨hlt, hplace⟩ | ⟨rfl, -⟩
      · rw [timer?_append_of_lt (by rwa [h.places]), slot?_append hlt]
        exact h.opened hplace hopen
      · rw [← h.places, timer?_append_self, h.places]
        exact ⟨_, rfl, h.slot_startTimer name log⟩
    closed := by
      intro place o hplace hclosed
      rcases eq_or_eq_of_concat hplace with ⟨hlt, hplace⟩ | ⟨-, rfl⟩
      · rw [timer?_append_of_lt (by rwa [h.places])]
        exact h.closed hplace hclosed
      · cases hclosed
    length_logs := (Session.length_logs_startTimer ..).trans h.length_logs
    entries := h.entries_startTimer name log }

theorem Mirrors.openTimer_of_not_fits (h : t.Mirrors debug past) (hfits : ¬t.session.outset.Fits) (name : String)
    (log : Option Nat) : (t.openTimer name log).2.Mirrors debug { past with lost := past.lost + 1 } := by
  rw [TimerTable.openTimer_of_not_fits hfits]
  exact { h with depth := congrArg Nat.succ h.depth }

theorem Mirrors.openTimer (h : t.Mirrors debug past) (name : String) (log : Option (Fin logs)) :
    (t.openTimer name (log.map Fin.val)).2.Mirrors debug (past.follow debug (.opened name log)) := by
  rw [Past.follow, ← h.outset]
  split
  next hfits => exact h.openTimer_of_fits hfits name log
  next hfits => exact h.openTimer_of_not_fits hfits name (log.map Fin.val)

theorem timer?_set_none_self (t : TimerTable) (place : Nat) (session : Session) :
    timer? ⟨session, t.timers.set place none⟩ place = none := by
  rw [timer?, List.getElem?_set_self']
  cases t.timers[place]? <;> rfl

theorem timer?_set_none_of_ne {other : Nat} (h : other ≠ place) (session : Session) :
    timer? ⟨session, t.timers.set place none⟩ other = t.timer? other := by
  rw [timer?, List.getElem?_set_ne h.symm, timer?]

theorem Mirrors.entries_closeTimer (h : t.Mirrors debug past) (hplace : past.openings[place]? = some o)
    (hslot : timer.slot = slot? past.openings place) (log : Fin logs) :
    ((t.session.closeTimer timer).entries log).map TimedStage.seen =
      (into log (past.openings.modify place drop)).map Opening.seen := by
  -- Either this is the log of the timer, or none of its entries belongs to the timer.
  by_cases hlog : o.log = some log
  · rw [slot?_of_log hplace hlog] at hslot
    rw [into_modify_drop_of_eq hplace hlog, map_seen_modify_drop, ← h.entries]
    exact Session.map_seen_entries_closeTimer hslot
  · rw [into_modify_drop_of_ne hplace hlog, ← h.entries]
    cases hown : o.log with
    | none =>
      rw [slot?_of_no_log hplace hown] at hslot
      rw [Session.entries_closeTimer_of_unrecorded hslot]
    | some own =>
      rw [slot?_of_log hplace hown] at hslot
      have hne : log.val ≠ own.val := fun heq => hlog (hown.trans (congrArg some (Fin.ext heq.symm)))
      rw [Session.entries_closeTimer_of_ne hslot hne]

theorem depth_modify_drop (hplace : past.openings[place]? = some o) (hopen : o.isOpen = true) :
    past.depth = Past.depth { past with openings := past.openings.modify place drop } + 1 := by
  rw [Past.depth, openCount_modify_drop hplace hopen, Nat.add_right_comm]
  rfl

theorem Mirrors.close_of_open (h : t.Mirrors debug past) (hplace : past.openings[place]? = some o)
    (hopen : o.isOpen = true) :
    (t.close place).Mirrors debug { past with openings := past.openings.modify place drop } := by
  obtain ⟨timer, htimer, hslot⟩ := h.opened hplace hopen
  rw [close_of_some htimer]
  exact {
    depth := by rw [Session.depth_closeTimer, h.depth, depth_modify_drop hplace hopen, Nat.add_sub_cancel]
    debug := (Session.debug_closeTimer ..).trans h.debug
    places := by rw [List.length_set, List.length_modify, h.places]
    opened := by
      intro other p hother hp
      obtain ⟨hne, hother⟩ := of_modify_drop hother hp
      rw [timer?_set_none_of_ne hne, slot?_modify_drop]
      exact h.opened hother hp
    closed := by
      intro other p hother hp
      by_cases hne : other = place
      · subst hne
        exact timer?_set_none_self ..
      · rw [List.getElem?_modify_ne _ _ (Ne.symm hne)] at hother
        rw [timer?_set_none_of_ne hne]
        exact h.closed hother hp
    length_logs := (Session.length_logs_closeTimer ..).trans h.length_logs
    entries := h.entries_closeTimer hplace hslot }

theorem Mirrors.close (h : t.Mirrors debug past) (place : Nat) :
    (t.close place).Mirrors debug (past.follow debug (.dropped place)) := by
  change (t.close place).Mirrors debug { past with openings := past.openings.modify place drop }
  cases hplace : past.openings[place]? with
  | none =>
    rw [close_of_none (h.timer?_eq_none hplace), List.modify_eq_self (List.getElem?_eq_none_iff.mp hplace)]
    exact h
  | some o =>
    cases hopen : o.isOpen with
    | true => exact h.close_of_open hplace hopen
    | false =>
      obtain ⟨before, after, hparts, -, hmodify⟩ := exists_parts hplace
      rw [close_of_none (h.closed hplace hopen), hmodify, drop_of_closed hopen, ← hparts]
      exact h

def perform (t : TimerTable) : TimerEvent logs → TimerTable
  | .opened name log => (t.openTimer name (log.map Fin.val)).2
  | .dropped place => t.close place

theorem Mirrors.perform (h : t.Mirrors debug past) (e : TimerEvent logs) :
    (t.perform e).Mirrors debug (past.follow debug e) := by
  cases e with
  | opened name log => exact h.openTimer name log
  | dropped place => exact h.close place

def fresh (clock : Nat → Nat) (debug : Bool) (logs : Nat) : TimerTable :=
  { session := { clock, debug, logs := List.replicate logs [] } }

theorem mirrors_fresh (clock : Nat → Nat) (debug : Bool) (logs : Nat) :
    (fresh clock debug logs).Mirrors debug ({} : Past logs) where
  depth := rfl
  debug := rfl
  places := rfl
  opened := nofun
  closed := nofun
  length_logs := List.length_replicate
  entries log := by
    rw [fresh, Session.entries, List.getElem?_replicate_of_lt log.isLt]
    rfl

def afterEvents (clock : Nat → Nat) (debug : Bool) (events : List (TimerEvent logs)) : TimerTable :=
  events.foldl perform (fresh clock debug logs)

theorem mirrors_afterEvents (clock : Nat → Nat) (debug : Bool) (events : List (TimerEvent logs)) :
    (afterEvents clock debug events).Mirrors debug (Past.after debug events) := by
  -- From the last event back: it is performed on the table that the events before it left.
  induction events using List.reverseRecOn with
  | nil => exact mirrors_fresh clock debug logs
  | append_singleton events e ih =>
    rw [afterEvents, List.foldl_append, Past.after_concat]
    exact ih.perform e

/-- What changes from one table to the other is the number of open timers and the entry of the timer that is dropped,
if it has one. -/
structure Drops (t t' : TimerTable) (o : Opening logs) (held : Option Slot) : Prop where
  depth : t.session.depth = t'.session.depth + 1
  own : ∀ slot ∈ held, t.session.stageAt? slot = some ⟨o.name, o.depth, none⟩ ∧
    ∃ elapsed, t'.session.stageAt? slot = some ⟨o.name, o.depth, some elapsed⟩
  others : ∀ slot ∉ held, t'.session.stageAt? slot = t.session.stageAt? slot

theorem Mirrors.stageAt?_slot (h : t.Mirrors debug past) (hplace : past.openings[place]? = some o)
    (hopen : o.isOpen = true) {slot : Slot} (hslot : slot? past.openings place = some slot) :
    t.session.stageAt? slot = some ⟨o.name, o.depth, none⟩ := by
  cases hlog : o.log with
  | none =>
    rw [slot?_of_no_log hplace hlog] at hslot
    cases hslot
  | some log =>
    rw [slot?_of_log hplace hlog] at hslot
    cases hslot
    have hseen := congrArg (fun shown => shown[(into log (past.openings.take place)).length]?) (h.entries log)
    simp only [List.getElem?_map, getElem?_into hplace hlog, Option.map_some, Option.map_eq_some_iff] at hseen
    obtain ⟨⟨name, depth, elapsed⟩, hentry, hstage⟩ := hseen
    simp only [TimedStage.seen, seen, Prod.mk.injEq, hopen, Option.isNone_iff_eq_none] at hstage
    obtain ⟨rfl, rfl, rfl⟩ := hstage
    exact hentry

theorem Mirrors.drops (h : t.Mirrors debug past) (hplace : past.openings[place]? = some o) (hopen : o.isOpen = true) :
    t.Drops (t.close place) o (slot? past.openings place) := by
  obtain ⟨timer, htimer, htaken⟩ := h.opened hplace hopen
  have hclose := (h.close_of_open hplace hopen).depth
  rw [close_of_some htimer] at hclose ⊢
  exact {
    depth := by rw [h.depth, depth_modify_drop hplace hopen, hclose]
    own := by
      intro slot hslot
      have hentry := h.stageAt?_slot hplace hopen hslot
      refine ⟨hentry, .between timer.start (t.session.clock t.session.readings), ?_⟩
      rw [Session.stageAt?_closeTimer_self (htaken.trans hslot), hentry]
      rfl
    others := fun slot hslot => Session.stageAt?_closeTimer_of_ne fun hown => hslot (htaken.symm.trans hown) }

/-- What the timers and the logs are after some events, by what the events tell. -/
structure Chronicle (clock : Nat → Nat) (debug : Bool) (events : List (TimerEvent logs)) (past : Past logs) : Prop where
  depth : (afterEvents clock debug events).session.depth = openCount past.openings + past.lost
  timers : ∀ place, ((afterEvents clock debug events).timer? place).isSome = true ↔
    ∃ o, past.openings[place]? = some o ∧ o.isOpen = true
  entries : ∀ log : Fin logs, ((afterEvents clock debug events).session.entries log).map TimedStage.seen =
    (into log past.openings).map Opening.seen
  drops : ∀ place o, past.openings[place]? = some o → o.isOpen = true →
    (afterEvents clock debug events).Drops (afterEvents clock debug (events ++ [.dropped place])) o
      (slot? past.openings place)

/-- Timers may be opened and dropped in any order. Their number is that of the open timers and of those that could not
be opened, each log has the timers that were opened into it, and to drop one touches no entry but its own. All of them
are opened unless debug lines are laid out and more than 32768 timers were to be open. -/
theorem chronicle_of_events (clock : Nat → Nat) (debug : Bool) (events : List (TimerEvent logs)) :
    Chronicle clock debug events (Past.after debug events) ∧
      ((debug = true → ∀ before, before <+: events → openCount (TimerEvent.openings before) ≤ 32768) →
        Past.after debug events = ⟨TimerEvent.openings events, 0⟩) := by
  have h := mirrors_afterEvents clock debug events
  refine ⟨⟨h.depth, h.timer?_isSome, h.entries, fun place o hplace hopen => ?_⟩, Past.after_eq_openings⟩
  have hdrop : afterEvents clock debug (events ++ [.dropped place]) = (afterEvents clock debug events).close place := by
    rw [afterEvents, List.foldl_append]
    rfl
  rw [hdrop]
  exact h.drops hplace hopen

theorem chronicle_of_events_crossed :
    let events : List (TimerEvent 2) := [.opened "outer" (some 0), .opened "inner" (some 1), .dropped 0,
      .opened "last" (some 0), .dropped 1]
    Past.after true events = ⟨TimerEvent.openings events, 0⟩ ∧ (afterEvents id true events).session.depth = 1 ∧
      ((afterEvents id true events).session.entries 0).map TimedStage.seen =
        [("outer", 0, false), ("last", 1, true)] := by
  intro events
  obtain ⟨h, hnone⟩ := chronicle_of_events id true events
  have hshallow : ∀ before ∈ events.inits, openCount (TimerEvent.openings before) ≤ 32768 := by decide
  have hpast := hnone fun _ before hbefore => hshallow before ((List.mem_inits before events).mpr hbefore)
  rw [hpast] at h
  exact ⟨hpast, h.depth, h.entries 0⟩

theorem openings_replicate (n : Nat) (name : String) (log : Option (Fin logs)) :
    openCount (TimerEvent.openings (List.replicate n (.opened name log))) = n ∧
      (TimerEvent.openings (List.replicate n (.opened name log))).length = n := by
  induction n with
  | zero => exact ⟨rfl, rfl⟩
  | succ n ih =>
    rw [List.replicate_succ', TimerEvent.openings, List.foldl_append]
    exact ⟨(openCount_concat _ _ rfl).trans (congrArg Nat.succ ih.1), List.length_append.trans (congrArg Nat.succ ih.2)⟩

theorem afterEvents_replicate {n : Nat} (hn : n ≤ 32768) (hdeep : widestField < 2 * n) (clock : Nat → Nat)
    (name : String) (log : Option (Fin logs)) :
    (afterEvents clock true (List.replicate (n + 1) (.opened name log))).session.depth = n + 1 ∧
      (afterEvents clock true (List.replicate (n + 1) (.opened name log))).timers.length = n := by
  let e : TimerEvent logs := .opened name log
  obtain ⟨hcount, hlength⟩ := openings_replicate n name log
  have hopened : Past.after true (List.replicate n e) = ⟨TimerEvent.openings (List.replicate n e), 0⟩ := by
    refine Past.after_eq_openings fun _ before hbefore => ?_
    obtain ⟨hle, heq⟩ := List.prefix_replicate_iff.mp hbefore
    have hbefore := (openings_replicate before.length name log).1
    rw [← heq] at hbefore
    omega
  have hwide : ¬Outset.Fits ⟨Past.depth ⟨TimerEvent.openings (List.replicate n e), 0⟩, true⟩ := by
    rw [Past.depth, hcount]
    exact fun hfits => Nat.not_le_of_lt hdeep (hfits rfl)
  have hpast : Past.after true (List.replicate (n + 1) e) = ⟨TimerEvent.openings (List.replicate n e), 1⟩ := by
    rw [List.replicate_succ', Past.after_concat, hopened]
    exact if_neg hwide
  have h := mirrors_afterEvents clock true (List.replicate (n + 1) e)
  rw [hpast] at h
  refine ⟨?_, h.places.trans hlength⟩
  rw [h.depth, Past.depth, hcount]

theorem afterEvents_tooDeep :
    let t := afterEvents id true (List.replicate (32768 + 1) (.opened "stage" none : TimerEvent 0))
    t.session.depth = 32768 + 1 ∧ t.timers.length = 32768 := by
  have hdeep : widestField < 2 * 32768 := by decide
  exact afterEvents_replicate (Nat.le_refl 32768) hdeep id "stage" none

end TimerTable

end BackendAssembly
