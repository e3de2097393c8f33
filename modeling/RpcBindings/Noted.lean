/-!
# RpcBindings.Noted

Computations that leave notices behind, whether they succeed or fail: the notices of a step stand
before those of the next, and a failure keeps the notices up to it.
-/

namespace RpcBindings

/-- The outcome of a computation and the notices it left on the way. -/
structure Noted (ω ε α : Type) where
  notices : List ω
  outcome : Except ε α

namespace Noted

variable {ω ε α β : Type}

instance : Monad (Noted ω ε) where
  pure a := ⟨[], .ok a⟩
  bind m f :=
    match m.outcome with
    | .error e => ⟨m.notices, .error e⟩
    | .ok a => ⟨m.notices ++ (f a).notices, (f a).outcome⟩

@[simp] theorem outcome_pure (a : α) : (pure a : Noted ω ε α).outcome = .ok a := rfl

@[simp] theorem notices_pure (a : α) : (pure a : Noted ω ε α).notices = [] := rfl

/-- Outcomes are chained as if there were no notices. -/
@[simp] theorem outcome_bind (m : Noted ω ε α) (f : α → Noted ω ε β) :
    (m >>= f).outcome = m.outcome >>= fun a => (f a).outcome := by
  obtain ⟨notices, _ | a⟩ := m <;> rfl

/-- The notices of a second step stand behind those of the first, if it comes to a second. -/
theorem notices_bind (m : Noted ω ε α) (f : α → Noted ω ε β) :
    (m >>= f).notices = m.notices ++ (m.outcome.toOption.map fun a => (f a).notices).getD [] := by
  obtain ⟨notices, _ | a⟩ := m <;> simp [bind, Except.toOption]

instance : LawfulMonad (Noted ω ε) := LawfulMonad.mk' _
  (by intro α m; obtain ⟨notices, _ | a⟩ := m <;> simp [Functor.map])
  (by intro α β a f; simp [pure, bind])
  (by
    intro α β γ m f g
    obtain ⟨notices, _ | a⟩ := m
    · rfl
    · simp only [bind]
      cases h : (f a).outcome <;> simp)

/-- A computation without notices. -/
def lift (outcome : Except ε α) : Noted ω ε α := ⟨[], outcome⟩

def note (notices : List ω) : Noted ω ε Unit := ⟨notices, .ok ()⟩

def mapError {δ : Type} (f : ε → δ) (m : Noted ω ε α) : Noted ω δ α :=
  ⟨m.notices, m.outcome.mapError f⟩

def mapNotices {σ : Type} (f : ω → σ) (m : Noted ω ε α) : Noted σ ε α :=
  ⟨m.notices.map f, m.outcome⟩

@[simp] theorem outcome_lift (outcome : Except ε α) :
    (lift outcome : Noted ω ε α).outcome = outcome := rfl

@[simp] theorem outcome_note (notices : List ω) :
    (note notices : Noted ω ε Unit).outcome = .ok () := rfl

@[simp] theorem outcome_mapError {δ : Type} (f : ε → δ) (m : Noted ω ε α) :
    (m.mapError f).outcome = m.outcome.mapError f := rfl

@[simp] theorem outcome_mapNotices {σ : Type} (f : ω → σ) (m : Noted ω ε α) :
    (m.mapNotices f).outcome = m.outcome := rfl

@[simp] theorem outcome_map (f : α → β) (m : Noted ω ε α) :
    (f <$> m).outcome = m.outcome.map f := by
  obtain ⟨notices, _ | a⟩ := m <;> rfl

@[simp] theorem notices_map (f : α → β) (m : Noted ω ε α) : (f <$> m).notices = m.notices := by
  obtain ⟨notices, _ | a⟩ := m <;> simp [Functor.map]

end Noted

end RpcBindings
