/-
  ListingMetadata.Proofs.Workbench.Materializing
  ──────────────────────────────────────────────
  **A NAMED ENTITY MATERIALIZED, ONCE AND ONCE MORE.**

  In every state of a run, materializing an entity that asks no shelf ends, leaves
  nothing to ask for, and takes nothing away.  Done again it asks nobody and leaves
  the whole workbench as it is:

    • `step_materialize_again` — the second time,
    • `materialized_run`       — a whole run.
-/
import ListingMetadata.Proofs.Source.Ending
import ListingMetadata.Proofs.Source.Growing
import ListingMetadata.Proofs.Workbench.Attributes

namespace ListingMetadata.Workbench

open Entity (Within)

/-! ## §1. The second time -/

theorem outcome_materialize {b : Workbench} {name : String} {e : Entity}
    (he : b.entities.get? name = some e) :
    outcome (materialize name) b
      = (.ok (e.materialize b.alive).value, b.keeping name (e.materialize b.alive).value) := by
  unfold materialize
  rw [outcome_bind, outcome_get]
  exact outcome_change he (Entity.materialize b.alive)

/-- **Where nothing is left to ask for, the workbench stays as it is.** -/
theorem step_materialize_again {b : Workbench} {name : String} {e : Entity}
    (he : b.entities.get? name = some e) (hexplored : (e.materialize b.alive).value.Explored) :
    step (step b (.materialize name)) (.materialize name) = step b (.materialize name) := by
  refine @step_again (.materialize name) name Entity.materialize
    (fun _ _ => step_materialize name) b e he ?_
  intro sources
  exact Entity.materialize_of_explored sources hexplored

/-! ## §2. Runs -/

/-- What materializing does to an entity of a name in a run. -/
structure Materialized (ts : List Task) (name : String) (e e' : Entity) : Prop where
  /-- Without a bound on its depth the work comes to an end, with this entity alone. -/
  ends : ∃ events, ∀ x, Entity.Ends (run ts).alive e x ↔ x = ⟨e', events⟩
  answered : answer (materialize name) (run ts) = .ok e'
  kept : (run (ts ++ [.materialize name])).entities.get? name = some e'
  /-- No slot of the entity, nor of any resolved below it, is left to ask for. -/
  explored : ∀ x, Within x e' → ∀ k, x.head.progress? k ≠ some .unfetched
  /-- Fetched slots keep their entities, each with more below it; failed slots stay so. -/
  grown : Entity.Grows e e'
  /-- Whatever sources there are by then, it has nothing more to do and to tell. -/
  idle : ∀ sources, e'.materialize sources = pure e'
  /-- So done again it changes nothing, and asks nobody. -/
  again : run (ts ++ [.materialize name, .materialize name]) = run (ts ++ [.materialize name])

/-- **Materializing explores an entity of any run, and does so once**, if the entity
asks a store, a document, a source that is gone, or none. -/
theorem materialized_run (ts : List Task) {name : String} {e : Entity}
    (he : (run ts).entities.get? name = some e) (hask : e.AsksNoShelf (run ts).alive) :
    ∃ e', Materialized ts name e e' := by
  have hwf : e.WellFormed := (all_wellFormed_run ts).named name e he
  have hkind := asksInKind_run ts hask
  have hexplored := Entity.explored_materialize (all_wellFormed_run ts).served hwf hkind
  have houtcome := outcome_materialize he
  have hafter : run (ts ++ [.materialize name]) = step (run ts) (.materialize name) :=
    run_append_singleton ts _
  refine ⟨(e.materialize (run ts).alive).value, ⟨(e.materialize (run ts).alive).events, ?_⟩,
    congrArg Prod.fst houtcome, ?_, hexplored, Entity.grows_materialize hwf hkind, ?_, ?_⟩
  · exact Entity.ends_iff (run ts).alive e
  · rw [hafter, step_materialize name he]
    exact get?_recording (run ts) name _
  · intro sources
    exact Entity.materialize_of_explored sources hexplored
  · rw [run_append_pair, hafter]
    exact step_materialize_again he hexplored

/-- A resource at a store that has a class for it, and fails on its lookups. -/
def classServed : List Task :=
  [.newStore "store",
    .create "resource" .resource true (.source "store") [("ResourceID", "Property")],
    .create "class" .propertyClass true .plain [("ClassName", "RES")],
    .insert "store" "Property" ["class"],
    .failOn "store" .lookup "Property"]

/-- The resource is materialized once. -/
theorem materialized_run_classServed :
    ∃ e e', (run classServed).entities.get? "resource" = some e ∧
      e.AsksNoShelf (run classServed).alive ∧ Materialized classServed "resource" e e' := by
  have hshown : ((run classServed).entities.get? "resource").map (fun e =>
      (e.head.source.bind (run classServed).alive.source?).map Source.isShelf)
        = some (some false) := by decide +kernel
  obtain ⟨e, he, hshown⟩ := Option.map_eq_some_iff.mp hshown
  have hask : e.AsksNoShelf (run classServed).alive := by
    intro s hs
    rw [hs] at hshown
    exact Option.some.inj hshown
  obtain ⟨e', hmaterialized⟩ := materialized_run classServed he hask
  exact ⟨e, e', he, hask, hmaterialized⟩

end ListingMetadata.Workbench
