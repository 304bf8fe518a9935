/-
  ListingMetadata.Proofs.Workbench.Legible
  ────────────────────────────────────────
  **EVERY ENTITY OF A RUN CAN BE READ BY NAME.**

  Whatever tasks are done, each entity of each tree has a layout of its mode, keeps no
  name twice, and keeps texts alone under names that are not declared and, as long as no
  type was replaced, values read as declared under all others:

    • `lasting_legible` — the steps by which trees are made,
    • `legible_run`     — a whole run.
-/
import ListingMetadata.Proofs.Entity.Paths
import ListingMetadata.Proofs.Workbench.Tasks

namespace ListingMetadata

namespace Entity

/-! ## §1. Trees -/

/-- Each head in the tree is legible. -/
def Legible (e : Entity) : Prop :=
  ∀ x, Within x e → x.head.Legible

theorem legible_iff {e : Entity} :
    e.Legible ↔ e.head.Legible ∧ ∀ k, ∀ c ∈ e.resolved k, c.Legible :=
  forall_within_iff

theorem Legible.here {e : Entity} (h : e.Legible) : e.head.Legible :=
  (legible_iff.mp h).1

theorem Legible.child {e c : Entity} (h : e.Legible) {k : Kind} (hc : c ∈ e.resolved k) :
    c.Legible :=
  (legible_iff.mp h).2 k c hc

/-- Fewer children below a legible head. -/
theorem Legible.of_subset {e e' : Entity} (h : e.Legible) (hhead : e'.head.Legible)
    (hr : ∀ k c, c ∈ e'.resolved k → c ∈ e.resolved k) : e'.Legible :=
  legible_iff.mpr ⟨hhead, fun k c hc => h.child (hr k c hc)⟩

theorem legible_placed (e : Entity) :
    ∀ (p : Option String) (s : Option Nat), e.Legible → (e.placed p s).Legible := by
  induction e using induct with
  | step h cs ih =>
    intro p s he
    rw [legible_iff]
    refine ⟨he.here.placed p s, ?_⟩
    intro k c hc
    rw [resolved_placed] at hc
    obtain ⟨b, hb, rfl⟩ := List.mem_map.mp hc
    exact ih b (mem_resolved.mp hb).2.1 _ s (he.child hb)

theorem legible_adopt {e child : Entity} (he : e.Legible) (hc : child.Legible) :
    (e.adopt child).Legible := by
  rw [legible_iff]
  refine ⟨he.here.of_core (core_adopt e child), ?_⟩
  intro k c h
  rcases mem_resolved_adopt h with hnew | hold
  · rw [hnew]
    exact legible_placed child _ _ hc
  · exact he.child hold

theorem legible_eachChild {e : Entity} (h : e.Legible) (k : Kind)
    {f : Entity → Logged Event Entity} (hf : ∀ c, c.Legible → (f c).value.Legible)
    (hcore : ∀ c, (f c).value.head.core = c.head.core) :
    (Entity.eachChild f e k).value.Legible := by
  have hkind : ∀ c, (f c).value.kind = c.kind := fun c => Head.kind_eq_of_core (hcore c)
  rw [legible_iff, head_eachChild]
  refine ⟨h.here, ?_⟩
  intro j c hc
  obtain ⟨b, hb, rfl | rfl⟩ := mem_resolved_eachChild hkind hc
  · exact hf b (h.child hb)
  · exact h.child hb

/-- **Trees stay legible through every step by which they are made.** -/
theorem lasting_legible : Lasting Legible where
  bare h _ hlegible := by
    rw [legible_iff]
    refine ⟨hlegible, ?_⟩
    intro k c hc
    cases (mem_resolved.mp hc).2.1
  placed e p s he := legible_placed e p s he
  resolved _ _ _ he hc := he.child hc
  adopt _ _ he hc _ := legible_adopt he hc
  remove e k i he := by
    refine he.of_subset ?_ fun _ _ => mem_resolved_remove
    rw [head_remove]
    exact he.here
  opened e k he _ := he.of_subset (he.here.of_core rfl) fun _ _ => mem_resolved_opened
  failed e k he _ := he.of_subset (he.here.of_core rfl) fun _ _ => mem_resolved_setProgress
  eachChild _ k _ he hf hcore := legible_eachChild he k hf hcore

/-- **So they do through every operation on attributes.** -/
theorem legible_withHead {e : Entity} (he : e.Legible) {h : Head} (hedit : e.head.Edit h) :
    (e.withHead h).Legible := by
  refine he.of_subset (hedit.legible he.here) fun k c hc => ?_
  rw [resolved_withHead hedit.frame] at hc
  exact hc

end Entity

namespace Workbench

/-! ## §2. Runs -/

/-- What holds of the trees in every state of a run. -/
theorem all_legible_run (ts : List Task) : All Entity.Legible (run ts) :=
  all_run Entity.lasting_legible (fun _ _ he hedit => Entity.legible_withHead he hedit) ts

/-- **Each named entity of a run is legible.** -/
theorem legible_run {ts : List Task} {name : String} {e : Entity}
    (he : (run ts).entities.get? name = some e) : e.head.Legible :=
  ((all_legible_run ts).named name e he).here

end Workbench

end ListingMetadata
