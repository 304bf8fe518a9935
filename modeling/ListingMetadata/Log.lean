/-
  ListingMetadata.Log
  ───────────────────
  **RESULTS WITH WHAT HAPPENED ON THE WAY.**

  Work that never fails still has something to tell: a value kept although it
  breaks its grammar, a child left out, a source asked.  Such work answers its
  result together with the events, in the order in which they happened:

      (x >>= f).events = x.events ++ (f x.value).events
-/

namespace ListingMetadata

/-! ## §1. Lines of a log -/

/-- How much a line of the log matters. -/
inductive Level where
  | info
  | warning
  | error
deriving DecidableEq, Repr

/-- The word for a level. -/
def Level.word : Level → String
  | .info => "INFO"
  | .warning => "WARN"
  | .error => "ERROR"

/-- A line of the log. -/
structure LogLine where
  level : Level
  message : String
  fields : List (String × String)
deriving DecidableEq, Repr

/-! ## §2. Logged results -/

/-- A result and the events on the way to it. -/
structure Logged (ε α : Type) where
  value : α
  events : List ε
deriving DecidableEq, Repr

namespace Logged

variable {ε α β : Type}

/-- One event and no result. -/
def tell (event : ε) : Logged ε Unit :=
  ⟨(), [event]⟩

instance : Monad (Logged ε) where
  pure x := ⟨x, []⟩
  bind x f := let y := f x.value; ⟨y.value, x.events ++ y.events⟩

@[simp] theorem value_pure (x : α) : (pure x : Logged ε α).value = x := rfl

@[simp] theorem events_pure (x : α) : (pure x : Logged ε α).events = [] := rfl

@[simp] theorem value_bind (x : Logged ε α) (f : α → Logged ε β) :
    (x >>= f).value = (f x.value).value := rfl

@[simp] theorem events_bind (x : Logged ε α) (f : α → Logged ε β) :
    (x >>= f).events = x.events ++ (f x.value).events := rfl

@[simp] theorem value_tell (event : ε) : (tell event).value = () := rfl

@[simp] theorem events_tell (event : ε) : (tell event).events = [event] := rfl

/-- All of a list, one after the other. -/
def each (f : α → Logged ε β) : List α → Logged ε (List β)
  | [] => pure []
  | x :: xs => do
    let y ← f x
    let ys ← each f xs
    pure (y :: ys)

/-- One step after the other, from a state to a state. -/
def steps (f : β → α → Logged ε β) : β → List α → Logged ε β
  | b, [] => pure b
  | b, x :: xs => do
    let b ← f b x
    steps f b xs

theorem value_each (f : α → Logged ε β) (xs : List α) :
    (each f xs).value = xs.map fun x => (f x).value := by
  induction xs with
  | nil => rfl
  | cons x xs ih => simp [each, ih]

theorem value_steps (f : β → α → Logged ε β) (b : β) (xs : List α) :
    (steps f b xs).value = xs.foldl (fun b x => (f b x).value) b := by
  induction xs generalizing b with
  | nil => rfl
  | cons x xs ih => simp [steps, ih]

end Logged

end ListingMetadata
