import DialogueExport.Event

/-!
# Computations that report

A `Logged` computation has an outcome and the events on the way to it.  A failure stops the
computation and keeps the events so far: the events of `x >>= f` are those of `x`, followed by
those of `f` if `x` came to a value (`events_bind`), and the outcome is that of the two outcomes
in a row (`outcome_bind`).  So what all events of the steps have in common, those of the whole have
(`ReportsOnly.bind`, `reportsOnly_foldlM`).
-/

namespace DialogueExport

/-- The outcome of a computation with the events on the way. -/
structure Logged (ε α : Type) where
  events : List Event
  outcome : Except ε α

namespace Logged

variable {ε α β σ : Type}

/-- Goes on from a value, or stops at a failure. -/
def bind (x : Logged ε α) (f : α → Logged ε β) : Logged ε β :=
  match x.outcome with
  | .ok a => ⟨x.events ++ (f a).events, (f a).outcome⟩
  | .error e => ⟨x.events, .error e⟩

instance : Monad (Logged ε) where
  pure a := ⟨[], .ok a⟩
  bind := bind

/-- Reports events and goes on. -/
def report (events : List Event) : Logged ε Unit := ⟨events, .ok ()⟩

/-- An outcome without events. -/
def ofExcept (outcome : Except ε α) : Logged ε α := ⟨[], outcome⟩

@[simp] theorem events_pure (a : α) : (pure a : Logged ε α).events = [] := rfl

@[simp] theorem outcome_pure (a : α) : (pure a : Logged ε α).outcome = .ok a := rfl

@[simp] theorem events_report (events : List Event) :
    (report events : Logged ε Unit).events = events := rfl

@[simp] theorem outcome_report (events : List Event) :
    (report events : Logged ε Unit).outcome = .ok () := rfl

@[simp] theorem events_ofExcept (o : Except ε α) : (ofExcept o).events = [] := rfl

@[simp] theorem outcome_ofExcept (o : Except ε α) : (ofExcept o).outcome = o := rfl

@[simp] theorem outcome_bind (x : Logged ε α) (f : α → Logged ε β) :
    (x >>= f).outcome = x.outcome >>= fun a => (f a).outcome := by
  cases x with
  | mk events outcome => cases outcome <;> rfl

theorem events_bind (x : Logged ε α) (f : α → Logged ε β) :
    (x >>= f).events = x.events ++
      match x.outcome with
      | .ok a => (f a).events
      | .error _ => [] := by
  cases x with
  | mk events outcome =>
    cases outcome with
    | ok a => rfl
    | error e => simp [Bind.bind, bind]

@[simp] theorem events_report_bind (events : List Event) (f : Unit → Logged ε β) :
    (report events >>= f).events = events ++ (f ()).events := rfl

/-- All events of a computation have a property. -/
def ReportsOnly (P : Event → Prop) (x : Logged ε α) : Prop := ∀ e ∈ x.events, P e

section ReportsOnly

variable {P : Event → Prop}

theorem reportsOnly_pure (a : α) : (pure a : Logged ε α).ReportsOnly P := by
  simp [ReportsOnly]

theorem reportsOnly_ofExcept (o : Except ε α) : (ofExcept o).ReportsOnly P := by
  simp [ReportsOnly]

theorem reportsOnly_report {events : List Event} (h : ∀ e ∈ events, P e) :
    (report events : Logged ε Unit).ReportsOnly P := h

theorem ReportsOnly.bind {x : Logged ε α} {f : α → Logged ε β} (hx : x.ReportsOnly P)
    (hf : ∀ a, (f a).ReportsOnly P) : (x >>= f).ReportsOnly P := by
  intro e he
  rw [events_bind, List.mem_append] at he
  rcases he with he | he
  · exact hx e he
  · cases hx' : x.outcome with
    | ok a => exact hf a e (by simpa [hx'] using he)
    | error _ => simp [hx'] at he

theorem reportsOnly_foldlM {f : β → α → Logged ε β} (hf : ∀ b a, (f b a).ReportsOnly P)
    (l : List α) (b : β) : (l.foldlM f b).ReportsOnly P := by
  induction l generalizing b with
  | nil => exact reportsOnly_pure b
  | cons a l ih =>
    rw [List.foldlM_cons]
    exact (hf b a).bind ih

end ReportsOnly

theorem id_map' (x : Logged ε α) : id <$> x = x := by
  cases x with
  | mk events outcome => cases outcome <;> simp [Functor.map, bind]

theorem pure_bind' (a : α) (f : α → Logged ε β) : pure a >>= f = f a := by
  simp [Bind.bind, bind, Pure.pure]

theorem bind_assoc' (x : Logged ε α) (f : α → Logged ε β) (g : β → Logged ε σ) :
    x >>= f >>= g = x >>= fun a => f a >>= g := by
  cases x with
  | mk events outcome =>
    cases outcome with
    | error e => rfl
    | ok a =>
      simp only [Bind.bind, bind]
      cases (f a).outcome <;> simp

instance : LawfulMonad (Logged ε) := LawfulMonad.mk' _ id_map' pure_bind' bind_assoc'

end Logged

end DialogueExport
