/-
  ListingMetadata.Proofs.Workbench.Keeping
  ────────────────────────────────────────
  **WORK THAT KEEPS A PROPERTY OF ALL ENTITIES.**

  Work keeps a property when it leaves only entities with it on a workbench
  that has only such entities, and answers as it says.  The parts of work are
  put together by `Keeps.bind`; what is done to the entities themselves is left
  to the steps by which trees are made:

    • `Keeps.bind`         — one part after the other,
    • `keeps_…`            — the parts.
-/
import ListingMetadata.Proofs.Source.Lasting
import ListingMetadata.Workbench

namespace ListingMetadata.Workbench

/-! ## §1. All entities -/

/-- Each entity has a property, those of names and those that sources give. -/
structure All (I : Entity → Prop) (b : Workbench) : Prop where
  named : ∀ name e, b.entities.get? name = some e → I e
  served : Sources.Give I b.alive

theorem all_empty (I : Entity → Prop) : All I empty where
  named _ _ h := by cases h
  served _ h := by cases h

/-- What work leaves behind and answers. -/
def outcome {α : Type} (w : Work α) (b : Workbench) : Except Complaint α × Workbench :=
  (w.run.run b).value

/-- Work keeps a property of all entities and answers with another. -/
def Keeps {α : Type} (I : Entity → Prop) (P : α → Prop) (w : Work α) : Prop :=
  ∀ b, All I b → All I (outcome w b).2 ∧ ∀ x, (outcome w b).1 = .ok x → P x

section Parts

variable {α β : Type} {I : Entity → Prop} {P : α → Prop} {Q : β → Prop}

/-! ## §2. Putting work together -/

theorem outcome_bind (w : Work α) (f : α → Work β) (b : Workbench) :
    outcome (w >>= f) b
      = match (outcome w b).1 with
        | .ok x => outcome (f x) (outcome w b).2
        | .error c => (.error c, (outcome w b).2) := by
  -- failing work leaves the workbench as far as it came
  show (((w.run >>= ExceptT.bindCont f).run b)).value = _
  show (((ExceptT.bindCont f (w.run.run b).value.1).run (w.run.run b).value.2)).value = _
  unfold outcome
  cases (w.run.run b).value.1 <;> rfl

theorem Keeps.bind {w : Work α} {f : α → Work β} (hw : Keeps I P w)
    (hf : ∀ x, P x → Keeps I Q (f x)) : Keeps I Q (w >>= f) := by
  intro b hb
  obtain ⟨hall, hx⟩ := hw b hb
  rw [outcome_bind]
  cases h : (outcome w b).1 with
  | ok x => exact hf x (hx x h) _ hall
  | error c =>
    refine ⟨hall, ?_⟩
    intro y hy
    cases hy

theorem keeps_pure {x : α} (h : P x) : Keeps I P (pure x : Work α) := by
  intro b hb
  refine ⟨hb, ?_⟩
  intro y hy
  cases hy
  exact h

theorem keeps_throw (c : Complaint) : Keeps I P (throw c : Work α) := by
  intro b hb
  refine ⟨hb, ?_⟩
  intro y hy
  cases hy

theorem keeps_get : Keeps I (All I) (get : Work Workbench) := by
  intro b hb
  refine ⟨hb, ?_⟩
  intro y hy
  cases hy
  exact hb

theorem keeps_modify {f : Workbench → Workbench} (h : ∀ b, All I b → All I (f b)) :
    Keeps I (fun _ => True) (modify f : Work Unit) :=
  fun b hb => ⟨h b hb, fun _ _ => trivial⟩

theorem keeps_set {b : Workbench} (h : All I b) : Keeps I (fun _ => True) (set b : Work Unit) :=
  fun _ _ => ⟨h, fun _ _ => trivial⟩

/-- Work of an entity alone. -/
theorem keeps_lift {x : Logged Event α} (h : P x.value) : Keeps I P (liftM x : Work α) := by
  intro b hb
  refine ⟨hb, ?_⟩
  intro y hy
  cases hy
  exact h

theorem keeps_orFail {x : Except Failure α} (h : ∀ y, x = .ok y → P y) :
    Keeps I P (orFail x) := by
  cases x with
  | ok y => exact keeps_pure (h y rfl)
  | error f => exact keeps_throw _

/-! ## §3. Names -/

theorem keeps_named (things : Workbench → Text.Named α) (name : String)
    (h : ∀ b, All I b → ∀ x, (things b).get? name = some x → P x) :
    Keeps I P (named things name) := by
  refine keeps_get.bind fun b hb => ?_
  cases hx : (things b).get? name with
  | none => exact keeps_throw _
  | some x => exact keeps_pure (h b hb x hx)

theorem keeps_entity (name : String) : Keeps I I (entity name) :=
  keeps_named entities name fun _ hb e => hb.named name e

theorem keeps_anyNamed (things : Workbench → Text.Named α) (name : String) :
    Keeps I (fun _ => True) (named things name) :=
  keeps_named things name fun _ _ _ _ => trivial

theorem All.put {b : Workbench} (hb : All I b) {e : Entity} (he : I e) (name : String) :
    All I { b with entities := b.entities.put name e } where
  named other d hd := by
    by_cases h : other = name
    · rw [h, Text.Named.get?_put_self] at hd
      cases hd
      exact he
    · rw [Text.Named.get?_put_of_ne _ _ h] at hd
      exact hb.named other d hd
  served := hb.served

theorem All.drop {b : Workbench} (hb : All I b) (name : String) :
    All I { b with entities := b.entities.drop name } where
  named other d hd := by
    by_cases h : other = name
    · rw [h, Text.Named.get?_drop_self] at hd
      cases hd
    · rw [Text.Named.get?_drop_of_ne _ h] at hd
      exact hb.named other d hd
  served := hb.served

theorem keeps_keep {e : Entity} (he : I e) (name : String) :
    Keeps I (fun _ => True) (keep name e) :=
  keeps_modify fun _ hb => hb.put he name

theorem keeps_keepIn {found : Option Entity} (h : ∀ e, found = some e → I e)
    (into : Option String) : Keeps I (fun _ => True) (keepIn into found) := by
  cases into with
  | none => exact keeps_pure trivial
  | some name =>
    cases found with
    | none => exact keeps_pure trivial
    | some e => exact keeps_keep (h e rfl) name

theorem keeps_entitiesOf (names : List String) :
    Keeps I (fun es => ∀ e ∈ es, I e) (entitiesOf names) := by
  induction names with
  | nil => exact keeps_pure fun e he => by cases he
  | cons name names ih =>
    refine (keeps_entity name).bind fun e he => ih.bind fun es hes => keeps_pure ?_
    intro d hd
    rcases List.mem_cons.mp hd with hd | hd
    · rw [hd]
      exact he
    · exact hes d hd

theorem keeps_putRegistry (name : String) (r : Registry) :
    Keeps I (fun _ => True)
      (modify fun b => { b with registries := b.registries.put name r } : Work Unit) :=
  keeps_modify fun _ hb => ⟨hb.named, hb.served⟩

theorem keeps_putLayout (name : String) (l : SharedLayout) :
    Keeps I (fun _ => True)
      (modify fun b => { b with layouts := b.layouts.put name l } : Work Unit) :=
  keeps_modify fun _ hb => ⟨hb.named, hb.served⟩

theorem keeps_freshNumber : Keeps I (fun _ => True) freshNumber := by
  refine keeps_get.bind fun b hb => ?_
  have hnext : All I { b with next := b.next + 1 } := ⟨hb.named, hb.served⟩
  exact (keeps_set hnext).bind fun _ _ => keeps_pure trivial

theorem keeps_change {f : Entity → Logged Event Entity} (hf : ∀ e, I e → I (f e).value)
    (name : String) : Keeps I I (change name f) :=
  (keeps_entity name).bind fun e he =>
    (keeps_lift (P := I) (hf e he)).bind fun _ he' =>
      (keeps_keep he' name).bind fun _ _ => keeps_pure he'

/-! ## §4. Sources -/

theorem gives_emptyStore : Source.Gives I Source.emptyStore := by
  intro r c h
  cases h

theorem gives_emptyShelf : Source.Gives I Source.emptyShelf := by
  intro r c h
  cases h

theorem keeps_keepSource {s : Source} (hs : s.Gives I) (name : String) (number : Nat) :
    Keeps I (fun _ => True) (keepSource name number s) := by
  refine keeps_modify fun b hb => ⟨hb.named, ?_⟩
  intro t ht
  rcases List.mem_cons.mp ht with ht | ht
  · rw [ht]
    exact hs
  · exact hb.served t (List.mem_filter.mp ht).1

theorem keeps_newSource {s : Source} (hs : s.Gives I) (name : String) :
    Keeps I (fun _ => True) (newSource name s) :=
  keeps_freshNumber.bind fun number _ => keeps_keepSource hs name number

theorem keeps_source (name : String) : Keeps I (fun s => s.2.Gives I) (source name) := by
  refine (keeps_anyNamed sources name).bind fun number _ => keeps_get.bind fun b hb => ?_
  cases h : b.alive.source? number with
  | none => exact keeps_throw _
  | some s => exact keeps_pure (hb.served _ (Sources.mem_of_source? h))

theorem keeps_changeSource {f : Source → Source} (hf : ∀ s, s.Gives I → (f s).Gives I)
    (name : String) : Keeps I (fun _ => True) (changeSource name f) :=
  (keeps_source name).bind fun s hs => keeps_keepSource (hf s.2 hs) name s.1

end Parts

end ListingMetadata.Workbench
