/-
  ListingMetadata.Proofs.Workbench.Paths
  ──────────────────────────────────────
  **THE PATHS HOLD UNTIL AN ID CHANGES ABOVE RESOLVED CHILDREN.**

  Adding a child, binding to a source and fetching bring the paths of a tree in
  line with the ids.  A change of attributes does not, so it may leave children
  behind with the path of the id that their parent had:

    • `pathsHold_step`    — what one task keeps,
    • `not_pathsHold_step_of_renames` — what one task breaks,
    • `pathsHold_run_iff` — a whole run.
-/
import ListingMetadata.Proofs.Entity.Paths
import ListingMetadata.Proofs.Workbench.Tasks
import Mathlib.Data.List.Induction

namespace ListingMetadata.Workbench

/-! ## §1. One task -/

/-- The paths hold in the tree of each name. -/
def PathsHold (b : Workbench) : Prop :=
  ∀ name e, b.entities.get? name = some e → e.PathsHold

/-- The task edits the attributes of an entity that has resolved children, and
the id of the entity is another afterwards. -/
def Renames (b : Workbench) (t : Task) : Prop :=
  ∃ name e e', t.edits? = some name ∧ b.entities.get? name = some e ∧
    (step b t).entities.get? name = some e' ∧ e'.id ≠ e.id ∧ ∃ k c, c ∈ e.resolved k

/-- A named entity with another head of its frame: the paths hold if it has the
id that it had, or no resolved children. -/
theorem pathsHold_edited {b : Workbench} {t : Task} {name : String}
    (ht : t.edits? = some name) (hn : ¬ Renames b t) (hb : All Entity.PathsHold b) :
    All Entity.PathsHold (step b t) := by
  obtain ⟨halive, hentities | ⟨e, h, he, hedit, hentities⟩⟩ := edited_step ht b
  · exact ⟨fun n e he => hb.named n e (hentities ▸ he), halive ▸ hb.served⟩
  have hframe := hedit.frame
  have hnow : (step b t).entities.get? name = some (e.withHead h) := by
    rw [hentities, Text.Named.get?_put_self]
  -- either the path of the entity stays, or no child is there to be left behind
  have hedited : (e.withHead h).PathsHold := by
    by_cases hid : h.id = e.id
    · exact Entity.pathsHold_withHead_of_id_eq (hb.named name e he) hframe hid
    · apply Entity.pathsHold_withHead_of_childless hframe
      intro k
      rw [List.eq_nil_iff_forall_not_mem]
      intro c hc
      exact hn ⟨name, e, _, ht, he, hnow, hid, k, c, hc⟩
  refine ⟨?_, halive ▸ hb.served⟩
  intro other d hd
  by_cases ho : other = name
  · rw [ho, hnow] at hd
    cases hd
    exact hedited
  · rw [hentities, Text.Named.get?_put_of_ne _ _ ho] at hd
    exact hb.named other d hd

/-- **What one task keeps.** -/
theorem pathsHold_step {b : Workbench} {t : Task} (hn : ¬ Renames b t)
    (hb : All Entity.PathsHold b) : All Entity.PathsHold (step b t) := by
  cases ht : t.edits? with
  | none => exact all_step Entity.lasting_pathsHold ht hb
  | some name => exact pathsHold_edited ht hn hb

/-- **What one task breaks.** -/
theorem not_pathsHold_step_of_renames {b : Workbench} {t : Task} (h : Renames b t)
    (hb : b.PathsHold) : ¬ (step b t).PathsHold := by
  obtain ⟨name, e, e', ht, he, he', hid, k, c, hc⟩ := h
  intro hafter
  have hheld := hb name e he
  obtain ⟨-, hentities | ⟨d, h, hd, hedit, hentities⟩⟩ := edited_step ht b
  · rw [hentities, he] at he'
    cases he'
    exact hid rfl
  · rw [he] at hd
    cases hd
    rw [hentities, Text.Named.get?_put_self] at he'
    cases he'
    apply Entity.not_pathsHold_withHead hheld hedit.frame hid hc
    apply hafter name
    rw [hentities, Text.Named.get?_put_self]

/-! ## §2. Runs -/

/-- A run without such a change keeps the paths, in the named trees and in those
that sources give. -/
theorem all_pathsHold_run (ts : List Task)
    (h : ∀ us t, us ++ [t] <+: ts → ¬ Renames (run us) t) : All Entity.PathsHold (run ts) := by
  -- on the run, last task first: what holds before a task holds after it
  induction ts using List.reverseRecOn with
  | nil => exact all_empty _
  | append_singleton ts t ih =>
    rw [run_append_singleton]
    apply pathsHold_step (h ts t (List.prefix_refl _))
    apply ih
    intro us u hu
    exact h us u (hu.trans (List.prefix_append ts [t]))

/-- **The paths hold in every state of a run exactly when no task of it changes
the id of an entity with resolved children.** -/
theorem pathsHold_run_iff (ts : List Task) :
    (∀ us, us <+: ts → (run us).PathsHold) ↔
      ∀ us t, us ++ [t] <+: ts → ¬ Renames (run us) t := by
  constructor
  · intro h us t hp hr
    have hbefore := h us ((List.prefix_append us [t]).trans hp)
    have hafter := h (us ++ [t]) hp
    rw [run_append_singleton] at hafter
    exact not_pathsHold_step_of_renames hr hbefore hafter
  · intro h us hp
    exact (all_pathsHold_run us fun vs t hv => h vs t (hv.trans hp)).named

/-- A resource with a class, and the resource gets another id. -/
def propertyRenamed : List Task :=
  [.create "r" .resource true .plain [("ResourceID", "Property")],
    .create "c" .propertyClass true .plain [("ClassName", "RES")],
    .add "r" "c" false,
    .setAttribute "r" "ResourceID" "Agent"]

/-- The class keeps the path of the old id. -/
theorem propertyRenamed_leaves_a_path_behind : ¬ (run propertyRenamed).PathsHold := by
  have hshown : ((run propertyRenamed).entities.get? "r").map (fun e =>
      (e.path, (e.resolved .propertyClass).map fun c => (c.path, c.id)))
        = some ("Agent", [("Property:RES", "RES")]) := by decide +kernel
  intro h
  obtain ⟨e, he, hshown⟩ := Option.map_eq_some_iff.mp hshown
  obtain ⟨hpath, hchildren⟩ := Prod.mk.inj hshown
  have hmem : ("Property:RES", "RES") ∈
      (e.resolved .propertyClass).map fun c => (c.path, c.id) := by
    rw [hchildren]
    exact List.mem_singleton.mpr rfl
  obtain ⟨c, hc, hshown⟩ := List.mem_map.mp hmem
  obtain ⟨hcpath, hcid⟩ := Prod.mk.inj hshown
  have hheld := (Entity.pathsHold_iff.mp (h "r" e he) .propertyClass c hc).1
  rw [hcpath, hpath, hcid] at hheld
  exact absurd hheld (by decide)

end ListingMetadata.Workbench
