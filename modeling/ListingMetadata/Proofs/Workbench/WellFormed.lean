/-
  ListingMetadata.Proofs.Workbench.WellFormed
  ───────────────────────────────────────────
  **EVERY TREE THAT A RUN MAKES IS WELL-FORMED.**

  Whatever tasks are done, in whatever order and whether they fail or not, each
  named tree and each tree that a store or shelf holds is well-formed:

    • `wellFormed_step` — what one task keeps,
    • `wellFormed_run`  — a whole run.
-/
import ListingMetadata.Proofs.Entity.WellFormed
import ListingMetadata.Proofs.Workbench.Tasks

namespace ListingMetadata.Workbench

/-- **What one task keeps.** -/
theorem wellFormed_step {b : Workbench} (t : Task) (hb : All Entity.WellFormed b) :
    All Entity.WellFormed (step b t) :=
  all_any_step Entity.lasting_wellFormed
    (fun _ _ he hedit => Entity.wellFormed_withHead he hedit.frame) t hb

/-- What holds of the trees in every state of a run. -/
theorem all_wellFormed_run (ts : List Task) : All Entity.WellFormed (run ts) :=
  all_run Entity.lasting_wellFormed
    (fun _ _ he hedit => Entity.wellFormed_withHead he hedit.frame) ts

/-- **Every tree of every run is well-formed**, the named ones and those that
sources hold: each entity has a slot for exactly the kinds that may stand below
it, resolved children sit in the slots of their kinds, under ids that are not
empty and that no sibling has, and all below an entity has its source. -/
theorem wellFormed_run (ts : List Task) :
    (∀ name e, (run ts).entities.get? name = some e → e.WellFormed) ∧
      Sources.Give Entity.WellFormed (run ts).alive :=
  ⟨(all_wellFormed_run ts).named, (all_wellFormed_run ts).served⟩

end ListingMetadata.Workbench
