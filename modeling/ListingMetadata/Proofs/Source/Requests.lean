/-
  ListingMetadata.Proofs.Source.Requests
  ──────────────────────────────────────
  **WHO ASKS A SOURCE.**

  Of all work on entities only a fetch makes a request, and it makes one at
  most: none without a source, and none of a source that is gone.

    • `requests_setAll`, `requests_build`, `requests_answer` — work that makes none,
    • `requests_fetch`                                       — a fetch.
-/
import ListingMetadata.Proofs.Source.Materializing
import ListingMetadata.Workbench

namespace ListingMetadata

/-! ## §1. The requests among events -/

namespace Logged

variable {α β : Type}

/-- The requests made on the way to a result. -/
def requests (x : Logged Event α) : List Event :=
  x.events.filter Workbench.isRequest

@[simp] theorem requests_pure (x : α) : (pure x : Logged Event α).requests = [] := rfl

@[simp] theorem requests_bind (x : Logged Event α) (f : α → Logged Event β) :
    (x >>= f).requests = x.requests ++ (f x.value).requests := by
  unfold requests
  rw [events_bind, List.filter_append]

theorem requests_tell_of_isRequest {event : Event} (h : Workbench.isRequest event = true) :
    (tell event).requests = [event] := by
  unfold requests
  rw [events_tell, List.filter_cons_of_pos h]
  rfl

theorem requests_each_eq_nil {f : α → Logged Event β} (h : ∀ x, (f x).requests = [])
    (xs : List α) : (each f xs).requests = [] := by
  induction xs with
  | nil => rfl
  | cons x xs ih =>
    unfold each
    rw [requests_bind, requests_bind, h, ih]
    rfl

theorem requests_steps_eq_nil {f : β → α → Logged Event β} (h : ∀ b x, (f b x).requests = [])
    (b : β) (xs : List α) : (steps f b xs).requests = [] := by
  induction xs generalizing b with
  | nil => rfl
  | cons x xs ih =>
    unfold steps
    rw [requests_bind, h, ih]
    rfl

end Logged

/-! ## §2. Attributes -/

theorem ValueType.requests_read (t : ValueType) (text : String) (strict : Bool) :
    (t.read text strict).requests = [] := by
  unfold read
  cases t.strict text with
  | ok v => rfl
  | error reason => cases strict <;> rfl

namespace Head

theorem requests_store (h : Head) (name text : String) (strict : Bool) :
    (h.store name text strict).requests = [] := by
  unfold store
  cases h.column? name with
  | some c =>
    dsimp only
    rw [Logged.requests_bind, ValueType.requests_read]
    cases (c.type.read text strict).value <;> rfl
  | none =>
    show (if isExtension name then pure (.ok (h.keep name (.text text)))
      else _ : Logged Event (Except ParseFault Head)).requests = []
    split <;> rfl

theorem requests_setWith (h : Head) (name text : String) (strict : Bool) :
    (h.setWith name text strict).requests = [] := by
  unfold setWith
  rw [Logged.requests_bind, requests_store]
  cases (h.store name text strict).value <;> rfl

theorem requests_set (h : Head) (name text : String) : (h.set name text).requests = [] := by
  unfold set
  rw [Logged.requests_bind, requests_setWith]
  cases (h.setWith name text h.strict).value <;> rfl

theorem requests_setAll (h : Head) (pairs : List (String × String)) :
    (h.setAll pairs).requests = [] := by
  unfold setAll
  apply Logged.requests_steps_eq_nil
  intro h p
  exact requests_set h p.1 p.2

end Head

/-! ## §3. Documents -/

namespace Document

theorem requests_leaf (strict : Bool) (d : Document) : (d.leaf strict).requests = [] := by
  cases d with
  | mk k as cs =>
    unfold leaf
    rw [Logged.requests_bind]
    show (Head.ofWire strict k as).requests ++ [] = []
    rw [List.append_nil]
    exact Head.requests_setAll _ _

mutual

theorem requests_build (strict : Bool) : ∀ d : Document, (d.build strict).requests = []
  | mk k as cs => by
    unfold build
    rw [Logged.requests_bind, requests_buildBelow strict cs, List.append_nil]
    exact Head.requests_setAll _ _

theorem requests_buildBelow (strict : Bool) :
    ∀ (ds : List Document) (e : Entity), (buildBelow strict e ds).requests = []
  | [], _ => rfl
  | d :: ds, e => by
    unfold buildBelow
    rw [Logged.requests_bind, requests_build strict d]
    cases e.add (d.build strict).value with
    | ok e' => exact requests_buildBelow strict ds e'
    | error f => exact requests_buildBelow strict ds e

end

mutual

theorem requests_indexed (strict : Bool) :
    ∀ (d : Document) (p : String), (d.indexed strict p).requests = []
  | mk k as cs, p => by
    unfold indexed
    rw [Logged.requests_bind, Logged.requests_bind, requests_indexedAll strict cs]
    show (Head.ofWire strict k as).requests ++ ([] ++ []) = []
    rw [List.append_nil, List.append_nil]
    exact Head.requests_setAll _ _

theorem requests_indexedAll (strict : Bool) :
    ∀ (ds : List Document) (p : String), (indexedAll strict p ds).requests = []
  | [], _ => rfl
  | d :: ds, p => by
    unfold indexedAll
    rw [Logged.requests_bind, Logged.requests_bind, requests_indexed strict d,
      requests_indexedAll strict ds]
    rfl

end

theorem requests_bind (number : Nat) (strict : Bool) (d : Document) :
    (d.bind number strict).requests = [] := by
  unfold bind
  rw [Logged.requests_bind, Logged.requests_bind, requests_leaf, requests_indexedAll]
  rfl

end Document

/-! ## §4. Fetching -/

theorem Source.requests_answer (s : Source) (r : Request) : (s.answer r).requests = [] := by
  cases s with
  | store entries failing =>
    show (if failing.contains r then pure _ else pure _ : Logged Event _).requests = []
    split <;> rfl
  | shelf entries => rfl
  | document strict entries =>
    unfold answer
    rw [Logged.requests_bind, Logged.requests_each_eq_nil (Document.requests_leaf strict)]
    rfl

namespace Entity

theorem requests_takeIn (asked : Kind) (e : Entity) (cs : List Entity) :
    (takeIn asked e cs).requests = [] := by
  induction cs generalizing e with
  | nil => rfl
  | cons c cs ih =>
    unfold takeIn
    cases e.add c with
    | ok e' => exact ih e'
    | error f =>
      show (Logged.tell _ >>= fun _ => takeIn asked e cs : Logged Event Entity).requests = []
      rw [Logged.requests_bind, ih]
      rfl

/-- The source of an entity is there to be asked. -/
def isServed (sources : Sources) (e : Entity) : Bool :=
  (e.head.source.bind sources.source?).isSome

/-- What a request of a number for a kind of children leaves in the log. -/
def requestOf (source : Option Nat) (k : Kind) (p : String) : List Event :=
  match source with
  | some number => [.asked number k p]
  | none => []

/-- **A fetch asks the source of the entity once, if it is there to be asked.** -/
theorem requests_fetch (sources : Sources) (e : Entity) (k : Kind) :
    (e.fetch sources k).requests
      = if e.isServed sources then requestOf e.head.source k e.path else [] := by
  unfold fetch isServed
  cases e.head.source with
  | none => rfl
  | some number =>
    dsimp only
    rw [Option.bind_some]
    cases sources.source? number with
    | none => rfl
    | some source =>
      show (Logged.tell (.asked number k e.path) >>= fun _ =>
        source.answer ⟨k, e.path⟩ >>= fun r => _ : Logged Event Entity).requests = _
      rw [Logged.requests_bind, Logged.requests_bind, Source.requests_answer,
        Logged.requests_tell_of_isRequest rfl, List.nil_append]
      cases (source.answer ⟨k, e.path⟩).value with
      | ok found =>
        show _ ++ (takeIn k (e.opened k) found).requests = _
        rw [requests_takeIn]
        rfl
      | error f => rfl

end Entity

end ListingMetadata
