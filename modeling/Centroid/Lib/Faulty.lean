import Mathlib.Logic.Function.Basic

/-- An action on a state that may raise. What it did to the state before it
raised stays. -/
abbrev Faulty (ε σ α : Type) : Type := ExceptT ε (StateM σ) α

namespace Faulty

variable {ε σ α β : Type}

def ofFun (f : σ → Except ε α × σ) : Faulty ε σ α := ExceptT.mk f

def runFrom (x : Faulty ε σ α) (s : σ) : Except ε α × σ := (ExceptT.run x).run s

@[simp] theorem runFrom_ofFun (f : σ → Except ε α × σ) (s : σ) : (ofFun f).runFrom s = f s := rfl

@[simp] theorem runFrom_pure (a : α) (s : σ) : runFrom (pure a : Faulty ε σ α) s = (.ok a, s) := rfl

@[simp] theorem runFrom_throw (e : ε) (s : σ) : runFrom (throw e : Faulty ε σ α) s = (.error e, s) := rfl

variable {x : Faulty ε σ α} {s next : σ}

theorem runFrom_bind_of_ok {a : α} (returns : x.runFrom s = (.ok a, next)) (f : α → Faulty ε σ β) :
    runFrom (x >>= f) s = (f a).runFrom next := by
  show (ExceptT.bindCont f (x.runFrom s).1).run (x.runFrom s).2 = _
  rw [returns]
  rfl

theorem runFrom_bind_of_error {e : ε} (raises : x.runFrom s = (.error e, next)) (f : α → Faulty ε σ β) :
    runFrom (x >>= f) s = (.error e, next) := by
  show (ExceptT.bindCont f (x.runFrom s).1).run (x.runFrom s).2 = _
  rw [raises]
  rfl

theorem runFrom_tryCatch_of_ok {a : α} (returns : x.runFrom s = (.ok a, next)) (handle : ε → Faulty ε σ α) :
    runFrom (tryCatch x handle) s = (.ok a, next) := by
  simp only [runFrom, ExceptT.run, StateT.run] at returns ⊢
  simp only [tryCatch, tryCatchThe, MonadExceptOf.tryCatch, ExceptT.tryCatch, ExceptT.mk, bind, StateT.bind, returns]
  rfl

theorem runFrom_tryCatch_of_error {e : ε} (raises : x.runFrom s = (.error e, next)) (handle : ε → Faulty ε σ α) :
    runFrom (tryCatch x handle) s = (handle e).runFrom next := by
  simp only [runFrom, ExceptT.run, StateT.run] at raises ⊢
  simp only [tryCatch, tryCatchThe, MonadExceptOf.tryCatch, ExceptT.tryCatch, ExceptT.mk, bind, StateT.bind, raises]

/-- Run an action, and put down what it raises instead of raising it. -/
def attempt (x : Faulty ε σ α) (entry : ε → β) : Faulty ε σ (Option α × List β) :=
  tryCatch (x >>= fun a => pure (some a, [])) fun e => pure (none, [entry e])

theorem runFrom_attempt_of_ok {a : α} (returns : x.runFrom s = (.ok a, next)) (entry : ε → β) :
    (attempt x entry).runFrom s = (.ok (some a, []), next) :=
  runFrom_tryCatch_of_ok (runFrom_bind_of_ok returns _) _

theorem runFrom_attempt_of_error {e : ε} (raises : x.runFrom s = (.error e, next)) (entry : ε → β) :
    (attempt x entry).runFrom s = (.ok (none, [entry e]), next) :=
  runFrom_tryCatch_of_error (runFrom_bind_of_error raises _) _

end Faulty
