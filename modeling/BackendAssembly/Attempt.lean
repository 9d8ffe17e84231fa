namespace BackendAssembly

inductive Exit (ε α : Type) where
  | returned (a : α)
  | failed (e : ε)
  | panicked (text : String)
  deriving DecidableEq, Repr

namespace Exit

variable {ε ε' α β : Type}

def map (f : α → β) : Exit ε α → Exit ε β
  | returned a => returned (f a)
  | failed e => failed e
  | panicked text => panicked text

def mapError (f : ε → ε') : Exit ε α → Exit ε' α
  | returned a => returned a
  | failed e => failed (f e)
  | panicked text => panicked text

end Exit

/-- Something that is done on a state and may end early. The state stays as it was left, however it ends. -/
def Attempt (σ ε α : Type) : Type :=
  σ → Exit ε α × σ

namespace Attempt

variable {σ ε ε' α β : Type}

def run (x : Attempt σ ε α) (s : σ) : Exit ε α × σ :=
  x s

def andThen (x : Attempt σ ε α) (f : α → Attempt σ ε β) : Attempt σ ε β := fun s =>
  match x s with
  | (.returned a, s') => f a s'
  | (.failed e, s') => (.failed e, s')
  | (.panicked text, s') => (.panicked text, s')

instance : Monad (Attempt σ ε) where
  pure a := fun s => (.returned a, s)
  bind := andThen

def exit (e : Exit ε α) : Attempt σ ε α := fun s => (e, s)

def fail (e : ε) : Attempt σ ε α :=
  exit (.failed e)

def panic (text : String) : Attempt σ ε α :=
  exit (.panicked text)

def ask (f : σ → α × σ) : Attempt σ ε α := fun s =>
  let (a, s') := f s
  (.returned a, s')

def change (f : σ → σ) : Attempt σ ε Unit := fun s => (.returned (), f s)

def mapError (f : ε → ε') (x : Attempt σ ε α) : Attempt σ ε' α := fun s =>
  let (e, s') := x s
  (e.mapError f, s')

theorem bind_run (x : Attempt σ ε α) (f : α → Attempt σ ε β) (s : σ) :
    (x >>= f) s = andThen x f s := rfl

theorem andThen_returned {x : Attempt σ ε α} {f : α → Attempt σ ε β} {s s' : σ} {a : α}
    (h : x s = (.returned a, s')) : andThen x f s = f a s' := by
  simp [andThen, h]

theorem andThen_failed {x : Attempt σ ε α} {f : α → Attempt σ ε β} {s s' : σ} {e : ε}
    (h : x s = (.failed e, s')) : andThen x f s = (.failed e, s') := by
  simp [andThen, h]

theorem andThen_panicked {x : Attempt σ ε α} {f : α → Attempt σ ε β} {s s' : σ} {text : String}
    (h : x s = (.panicked text, s')) : andThen x f s = (.panicked text, s') := by
  simp [andThen, h]

theorem mapError_returned {x : Attempt σ ε α} {f : ε → ε'} {a : α} {s t : σ} (h : x s = (.returned a, t)) :
    x.mapError f s = (.returned a, t) := by
  simp [mapError, h, Exit.mapError]

theorem bind_eq_returned {x : Attempt σ ε α} {f : α → Attempt σ ε β} {s t : σ} {b : β} :
    (x >>= f) s = (.returned b, t) ↔ ∃ a s', x s = (.returned a, s') ∧ f a s' = (.returned b, t) := by
  rw [bind_run]
  rcases h : x s with ⟨a | e | text, s'⟩
  · rw [andThen_returned h]
    exact ⟨fun hf => ⟨a, s', rfl, hf⟩, fun ⟨_, _, hx, hf⟩ => by cases hx; exact hf⟩
  · rw [andThen_failed h]
    exact ⟨nofun, nofun⟩
  · rw [andThen_panicked h]
    exact ⟨nofun, nofun⟩

instance : LawfulMonad (Attempt σ ε) := LawfulMonad.mk' (Attempt σ ε)
  (fun x => by
    funext s
    change andThen x _ s = x s
    unfold andThen
    rcases x s with ⟨_ | _ | _, s'⟩ <;> rfl)
  (fun _ _ => rfl)
  (fun x f g => by
    funext s
    change andThen (andThen x f) g s = andThen x (fun a => andThen (f a) g) s
    unfold andThen
    rcases x s with ⟨_ | _ | _, s'⟩ <;> rfl)

end Attempt

end BackendAssembly
