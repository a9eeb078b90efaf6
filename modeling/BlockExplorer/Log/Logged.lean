/-!
# BlockExplorer — computations that log

A value together with the events reported on the way to it, in order. Whether
an event is written is decided elsewhere: here all of them are kept.
-/

namespace BlockExplorer

/-- A value and the events of type `ε` reported while it was computed. -/
structure Logged (ε α : Type) where
  value : α
  events : List ε
  deriving DecidableEq, Repr

namespace Logged

instance {ε : Type} : Monad (Logged ε) where
  pure a := ⟨a, []⟩
  bind x f := ⟨(f x.value).value, x.events ++ (f x.value).events⟩

/-- Reports one event. -/
def report {ε : Type} (e : ε) : Logged ε Unit := ⟨(), [e]⟩

/-- The same computation with its events seen as events of another type. -/
def mapEvents {ε ε' α : Type} (f : ε → ε') (x : Logged ε α) : Logged ε' α :=
  ⟨x.value, x.events.map f⟩

section Lemmas

variable {ε α β : Type}

@[simp] theorem value_pure (a : α) : (pure a : Logged ε α).value = a := rfl

@[simp] theorem events_pure (a : α) : (pure a : Logged ε α).events = [] := rfl

@[simp] theorem value_bind (x : Logged ε α) (f : α → Logged ε β) :
    (x >>= f).value = (f x.value).value := rfl

@[simp] theorem events_bind (x : Logged ε α) (f : α → Logged ε β) :
    (x >>= f).events = x.events ++ (f x.value).events := rfl

@[simp] theorem value_report (e : ε) : (report e).value = () := rfl

@[simp] theorem events_report (e : ε) : (report e).events = [e] := rfl

@[simp] theorem value_mapEvents {ε' : Type} (f : ε → ε') (x : Logged ε α) :
    (x.mapEvents f).value = x.value := rfl

@[simp] theorem events_mapEvents {ε' : Type} (f : ε → ε') (x : Logged ε α) :
    (x.mapEvents f).events = x.events.map f := rfl

end Lemmas

instance {ε : Type} : LawfulMonad (Logged ε) :=
  LawfulMonad.mk' (Logged ε) (fun _ => by simp [Functor.map]) (fun _ _ => rfl)
    (fun _ _ _ => by simp [bind, List.append_assoc])

end Logged

end BlockExplorer
