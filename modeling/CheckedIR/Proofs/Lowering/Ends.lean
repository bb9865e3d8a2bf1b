import CheckedIR.Lowering.State

/-!
# How actions end

`Ends x s Q E` says that `x`, run from `s`, ends with an answer that satisfies `Q` or with a fault
that satisfies `E`. An action always ends, so this is its weakest precondition, and it unfolds along
the structure of the action.
-/

namespace CheckedIR.Scope.Action

variable {σ α β : Type}

def Ends (x : Action σ α) (s : σ) (Q : α → σ → Prop) (E : Fault → σ → Prop) : Prop :=
  match x.run s with
  | (.ok a, t) => Q a t
  | (.error f, t) => E f t

theorem run_bind (x : Action σ α) (f : α → Action σ β) (s : σ) :
    (x >>= f).run s =
      match x.run s with
      | (.ok a, t) => (f a).run t
      | (.error e, t) => (.error e, t) := by
  simp only [ExceptT.run, bind, ExceptT.bind, ExceptT.mk, StateT.bind]
  rcases x s with ⟨e | a, t⟩ <;> rfl

theorem run_get_bind (f : σ → Action σ β) (s : σ) : (get >>= f).run s = (f s).run s := rfl

theorem run_discard (x : Action σ α) (s : σ) :
    (discard x).run s = ((x.run s).1.map fun _ => PUnit.unit, (x.run s).2) := by
  rw [show Functor.discard x = (fun _ => PUnit.unit) <$> x from rfl, map_eq_pure_bind, run_bind]
  rcases x.run s with ⟨e | a, t⟩ <;> rfl

theorem run_tryCatch (x : Action σ α) (h : Fault → Action σ α) (s : σ) :
    (tryCatch x h).run s =
      match x.run s with
      | (.ok a, t) => (.ok a, t)
      | (.error e, t) => (h e).run t := by
  simp only [ExceptT.run, tryCatch, tryCatchThe, MonadExceptOf.tryCatch, ExceptT.tryCatch,
    ExceptT.mk, bind, StateT.bind]
  rcases x s with ⟨e | a, t⟩ <;> rfl

section
variable {s : σ} {Q Q' : α → σ → Prop} {E E' : Fault → σ → Prop}

theorem ends_bind {Q : β → σ → Prop} (x : Action σ α) (f : α → Action σ β) :
    Ends (x >>= f) s Q E ↔ Ends x s (fun a t => Ends (f a) t Q E) E := by
  unfold Ends
  rw [run_bind]
  rcases x.run s with ⟨e | a, t⟩ <;> rfl

theorem ends_get_bind {Q : β → σ → Prop} (f : σ → Action σ β) :
    Ends (get >>= f) s Q E ↔ Ends (f s) s Q E := by
  rw [ends_bind]
  exact Iff.rfl

theorem ends_tryCatch (x : Action σ α) (h : Fault → Action σ α) :
    Ends (tryCatch x h) s Q E ↔ Ends x s Q fun f t => Ends (h f) t Q E := by
  unfold Ends
  rw [run_tryCatch]
  rcases x.run s with ⟨e | a, t⟩ <;> rfl

theorem ends_withInner {V D : Type} [HasEnvironment σ V D] (inner : List ScopeId) (x : Action σ α) :
    Ends (withInner inner x) s Q E ↔
      let e := HasEnvironment.environment s
      Ends x (HasEnvironment.withEnvironment s { e with inner })
        (fun a t => Q a (HasEnvironment.withEnvironment t
          { HasEnvironment.environment t with inner := e.inner }))
        fun f t => E f (HasEnvironment.withEnvironment t
          { HasEnvironment.environment t with inner := e.inner }) := by
  simp only [Ends, ExceptT.run, withInner]
  rcases x (HasEnvironment.withEnvironment s
    { HasEnvironment.environment s with inner }) with ⟨e | a, t⟩ <;> rfl

theorem Ends.mono {x : Action σ α} (h : Ends x s Q E) (hQ : ∀ a t, Q a t → Q' a t)
    (hE : ∀ f t, E f t → E' f t) : Ends x s Q' E' := by
  unfold Ends at *
  revert h
  rcases x.run s with ⟨e | a, t⟩
  · exact hE e t
  · exact hQ a t

theorem Ends.and {x : Action σ α} (h : Ends x s Q E) (h' : Ends x s Q' E') :
    Ends x s (fun a t => Q a t ∧ Q' a t) (fun f t => E f t ∧ E' f t) := by
  unfold Ends at *
  revert h h'
  rcases x.run s with ⟨e | a, t⟩ <;> exact And.intro

theorem Ends.of_run_ok {x : Action σ α} {a : α} {t : σ} (h : Ends x s Q E)
    (hr : x.run s = (.ok a, t)) : Q a t := by
  unfold Ends at h
  rwa [hr] at h

theorem Ends.of_run_error {x : Action σ α} {f : Fault} {t : σ} (h : Ends x s Q E)
    (hr : x.run s = (.error f, t)) : E f t := by
  unfold Ends at h
  rwa [hr] at h

end

end CheckedIR.Scope.Action

namespace CheckedIR.Lowering

open CheckedIR.Scope.Action

theorem ends_keepingCursor {α : Type} {s : State} {Q : α → State → Prop} {E : Fault → State → Prop}
    (x : Lower α) :
    Ends (Lower.keepingCursor x) s Q E ↔
      Ends x s (fun a t => Q a { t with cursor := s.cursor, frame := s.frame })
        fun f t => E f { t with cursor := s.cursor, frame := s.frame } := by
  simp only [Ends, ExceptT.run, Lower.keepingCursor]
  rcases x s with ⟨e | a, t⟩ <;> rfl

end CheckedIR.Lowering
