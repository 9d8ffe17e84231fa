import BackendAssembly.Attempt
import BackendAssembly.Event
import BackendAssembly.Step

namespace BackendAssembly

structure TimedStage where
  name : String
  depth : Nat
  elapsed : Option Duration
  deriving DecidableEq, Repr

/-- A place in a log. Neither logs nor their entries are ever taken away, so a place stays good. -/
structure Slot where
  log : Nat
  position : Nat
  deriving DecidableEq, Repr

structure Timer where
  name : String
  depth : Nat
  start : Nat
  slot : Option Slot
  deriving DecidableEq, Repr

/-- Where something begins: within how many timers, and whether the lines of debug detail are laid out. -/
structure Outset where
  depth : Nat
  debug : Bool
  deriving DecidableEq, Repr

namespace Outset

def inner (o : Outset) : Outset :=
  { o with depth := o.depth + 1 }

def Fits (o : Outset) : Prop :=
  o.debug = true → 2 * o.depth ≤ widestField

instance (o : Outset) : Decidable o.Fits :=
  inferInstanceAs (Decidable (_ → _))

def Roomy (o : Outset) : Prop :=
  o.inner.Fits

instance (o : Outset) : Decidable o.Roomy :=
  inferInstanceAs (Decidable o.inner.Fits)

theorem Roomy.fits {o : Outset} (h : o.Roomy) : o.Fits := fun hdebug => by
  have hinner : 2 * (o.depth + 1) ≤ widestField := h hdebug
  omega

end Outset

/-- What assemblies share that follow one another: how many timers are open, the logs they record into, what was
written, which calls were reported and how many code caches were made. The clock gives the nanoseconds at each of its
readings. -/
structure Session where
  clock : Nat → Nat
  readings : Nat := 0
  depth : Nat := 0
  debug : Bool := true
  logs : List (List TimedStage) := []
  events : List Event := []
  calls : List Call := []
  made : Nat := 0

namespace Session

variable {ε α : Type}

def readClock (s : Session) : Nat × Session :=
  (s.clock s.readings, { s with readings := s.readings + 1 })

def write (s : Session) (e : Event) : Session :=
  { s with events := s.events ++ [e] }

def newLog (s : Session) : Nat × Session :=
  (s.logs.length, { s with logs := s.logs ++ [[]] })

def entries (s : Session) (log : Nat) : List TimedStage :=
  s.logs[log]?.getD []

def openSlot (s : Session) (log : Nat) (name : String) (depth : Nat) : Slot × Session :=
  (⟨log, (s.entries log).length⟩, { s with logs := s.logs.modify log (· ++ [⟨name, depth, none⟩]) })

def closeSlot (s : Session) (slot : Slot) (elapsed : Duration) : Session :=
  let close (entries : List TimedStage) :=
    entries.modify slot.position fun entry => { entry with elapsed := some elapsed }
  { s with logs := s.logs.modify slot.log close }

def outset (s : Session) : Outset :=
  ⟨s.depth, s.debug⟩

def startTimer (s : Session) (name : String) (log : Option Nat) : Timer × Session :=
  let depth := s.depth
  let s := { s with depth := depth + 1 }
  let s := s.write (.started name depth)
  let (start, s) := s.readClock
  match log with
  | none => (⟨name, depth, start, none⟩, s)
  | some log =>
    let (slot, s) := s.openSlot log name depth
    (⟨name, depth, start, some slot⟩, s)

/-- Opens a timer. It is counted before its line is laid out, and stays counted if that fails. -/
def openTimer (s : Session) (name : String) (log : Option Nat) : Exit Empty Timer × Session :=
  if s.outset.Fits then
    let (timer, s) := s.startTimer name log
    (.returned timer, s)
  else (.panicked tooWide, { s with depth := s.depth + 1 })

/-- Closes a timer. It keeps the depth at which it was opened, whatever was closed in the meantime. -/
def closeTimer (s : Session) (timer : Timer) : Session :=
  let (stop, s) := s.readClock
  let elapsed := Duration.between timer.start stop
  let s := { s with depth := s.depth - 1 }
  let s := s.write (.finished timer.name timer.depth elapsed)
  match timer.slot with
  | none => s
  | some slot => s.closeSlot slot elapsed

variable {s : Session}

theorem openTimer_of_fits (h : s.outset.Fits) (name : String) (log : Option Nat) :
    s.openTimer name log = (.returned (s.startTimer name log).1, (s.startTimer name log).2) :=
  if_pos h

theorem openTimer_of_not_fits (h : ¬s.outset.Fits) (name : String) (log : Option Nat) :
    s.openTimer name log = (.panicked tooWide, { s with depth := s.depth + 1 }) :=
  if_neg h

theorem outset_startTimer (s : Session) (name : String) (log : Option Nat) :
    (s.startTimer name log).2.outset = s.outset.inner := by
  cases log <;> rfl

theorem depth_closeTimer (s : Session) (timer : Timer) : (s.closeTimer timer).depth = s.depth - 1 := by
  unfold closeTimer
  cases timer.slot <;> rfl

theorem debug_closeTimer (s : Session) (timer : Timer) : (s.closeTimer timer).debug = s.debug := by
  unfold closeTimer
  cases timer.slot <;> rfl

theorem made_startTimer (s : Session) (name : String) (log : Option Nat) :
    (s.startTimer name log).2.made = s.made := by
  cases log <;> rfl

theorem made_closeTimer (s : Session) (timer : Timer) : (s.closeTimer timer).made = s.made := by
  unfold closeTimer
  cases timer.slot <;> rfl

theorem events_startTimer (s : Session) (name : String) (log : Option Nat) :
    (s.startTimer name log).2.events = s.events ++ [.started name s.depth] := by
  cases log <;> rfl

theorem events_closeTimer (s : Session) (timer : Timer) :
    (s.closeTimer timer).events =
      s.events ++ [.finished timer.name timer.depth (.between timer.start (s.clock s.readings))] := by
  unfold closeTimer
  cases timer.slot <;> rfl

theorem calls_closeTimer (s : Session) (timer : Timer) : (s.closeTimer timer).calls = s.calls := by
  unfold closeTimer
  cases timer.slot <;> rfl

/-- Does something with a timer open, which is closed however that ends. -/
def timed (name : String) (log : Option Nat) (body : Attempt Session ε α) : Attempt Session ε α := fun s =>
  match s.openTimer name log with
  | (.returned timer, s) =>
    let (exit, s) := body s
    (exit, s.closeTimer timer)
  | (.panicked text, s) => (.panicked text, s)

theorem timed_of_fits (h : s.outset.Fits) (name : String) (log : Option Nat) (body : Attempt Session ε α) :
    timed name log body s = ((body (s.startTimer name log).2).1,
      (body (s.startTimer name log).2).2.closeTimer (s.startTimer name log).1) := by
  rw [timed, openTimer_of_fits h]

theorem timed_of_not_fits (h : ¬s.outset.Fits) (name : String) (log : Option Nat) (body : Attempt Session ε α) :
    timed name log body s = (.panicked tooWide, { s with depth := s.depth + 1 }) := by
  rw [timed, openTimer_of_not_fits h]

def take (step : Step ε α) : Attempt Session ε α := fun s =>
  (step.exit, { s with calls := s.calls ++ step.calls })

def takeSafe (step : Step Empty α) : Attempt Session ε α :=
  (take step).mapError nofun

end Session

/-- Timers that are opened one after the other and closed in any order. A timer is known by its place; a place that
holds none was closed. -/
structure TimerTable where
  session : Session
  timers : List (Option Timer) := []

namespace TimerTable

/-- A timer that cannot be opened has no place. The panic is caught, and the session is as it was left. -/
def openTimer (t : TimerTable) (name : String) (log : Option Nat) : Exit Empty Unit × TimerTable :=
  match t.session.openTimer name log with
  | (.returned timer, session) => (.returned (), { session, timers := t.timers ++ [some timer] })
  | (.panicked text, session) => (.panicked text, { t with session })

def timer? (t : TimerTable) (place : Nat) : Option Timer :=
  t.timers[place]?.join

def close (t : TimerTable) (place : Nat) : TimerTable :=
  match t.timer? place with
  | none => t
  | some timer => { session := t.session.closeTimer timer, timers := t.timers.set place none }

def lastOpen? (t : TimerTable) : Option Nat :=
  (List.range t.timers.length).reverse.find? fun place => (t.timer? place).isSome

def closeAll (t : TimerTable) : TimerTable :=
  (List.range t.timers.length).foldl close t

def attempt {ε α : Type} (t : TimerTable) (body : Attempt Session ε α) : Exit ε α × TimerTable :=
  let (exit, session) := body t.session
  (exit, { t with session })

end TimerTable

end BackendAssembly
