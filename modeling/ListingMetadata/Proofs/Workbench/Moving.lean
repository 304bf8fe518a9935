/-
  ListingMetadata.Proofs.Workbench.Moving
  ───────────────────────────────────────
  **ADDING MENDS THE PATHS OF A TREE; REMOVING LEAVES THEM.**

  An entity that is added to another comes below its path with the whole tree that it
  is the root of, whatever paths were in it.  An entity that is removed keeps its path
  and those of all below it: it is a root again only if its parent had no path.

    • `added_run`   — adding, in every state of a run,
    • `removed_run` — removing.
-/
import ListingMetadata.Proofs.Entity.Moving
import ListingMetadata.Proofs.Workbench.Layouts
import ListingMetadata.Proofs.Workbench.Paths
import ListingMetadata.Proofs.Workbench.Slots

namespace ListingMetadata.Workbench

/-! ## §1. Adding -/

section Adding

variable {b : Workbench} {n : String} {e : Entity}

/-- What is answered when a child is offered to a named entity. -/
theorem answer_offering (he : b.entities.get? n = some e) (c : Entity) :
    (outcome (entity n >>= fun e => orFail (e.add c) >>= fun e' => keep n e' >>= fun _ =>
        pure (e'.resolved c.kind)) b).1
      = ((e.add c).map fun e' => e'.resolved c.kind).mapError Complaint.failure := by
  rw [outcome_entity_bind he]
  cases e.add c with
  | ok e' => rfl
  | error f => rfl

theorem answer_add (he : b.entities.get? n = some e) {child : String} {c : Entity}
    (hc : b.entities.get? child = some c) {move : Bool} (hn : move = true → n ≠ child) :
    answer (add n child move) b
      = ((e.add c).map fun e' => e'.resolved c.kind).mapError Complaint.failure := by
  show (outcome (entity child >>= _) b).1 = _
  rw [outcome_entity_bind hc]
  cases move with
  | false => exact answer_offering he c
  | true =>
    -- the child has gone from its name, which is another one
    have hdropped : (b.entities.drop child).get? n = some e := by
      rw [Text.Named.get?_drop_of_ne _ (hn rfl)]
      exact he
    exact answer_offering (b := { b with entities := b.entities.drop child }) hdropped c

end Adding

/-- **Adding moves a tree to its new place, or changes nothing.**  A child that its
parent permits and that has an id is adopted: it and all below it have the paths that
the ids make from the path of the parent, and its source; the child is in the place of
its namesake or comes last, and nothing else of the parent changes.  Any other is
refused, and the parent stays as it was. -/
theorem added_run (ts : List Task) {name child : String} {p c : Entity} {move : Bool}
    (hp : (run ts).entities.get? name = some p) (hc : (run ts).entities.get? child = some c)
    (hn : move = true → name ≠ child) :
    (p.kind.permits c.kind = true → c.id ≠ "" →
      ∃ p' c', (run (ts ++ [.add name child move])).entities.get? name = some p' ∧
        p.Adopted c c' p' ∧
        answer (add name child move) (run ts) = .ok (p'.resolved c.kind)) ∧
    (p.kind.permits c.kind = false ∨ c.id = "" →
      (run (ts ++ [.add name child move])).entities.get? name = some p ∧
        answer (add name child move) (run ts)
          = .error (.failure (if p.kind.permits c.kind then .missingId c.kind
              else .childNotPermitted p.kind c.kind))) := by
  have hslotted : p.head.Slotted := ((all_wellFormed_run ts).named name p hp).here.slotted
  have hafter : (run (ts ++ [.add name child move])).entities.get? name = some (p.offered c) := by
    rw [run_append_singleton]
    exact entities_add hp hc hn
  have hanswer := answer_add hp hc hn
  rw [hafter, hanswer]
  constructor
  · intro hpermits hid
    have haccepts : p.accepts c = true := Entity.accepts_iff.mpr ⟨hpermits, hid⟩
    refine ⟨p.adopt c, _, ?_, Entity.adopted_adopt hslotted haccepts, ?_⟩
    · rw [Entity.offered_of_accepts haccepts]
    · rw [Entity.add_of_accepts haccepts]
      rfl
  · intro hrefused
    have haccepts : p.accepts c = false := Entity.accepts_eq_false_iff.mpr hrefused
    rw [Entity.offered_of_not_accepts haccepts, Entity.add_of_not_accepts haccepts]
    exact ⟨rfl, rfl⟩

/-- A class with a table below one resource, taken from there to be put below
another. -/
def classTaken : List Task :=
  [.create "r" .resource true .plain [("ResourceID", "Property")],
    .create "s" .resource true .plain [("ResourceID", "Agent")],
    .create "c" .propertyClass true .plain [("ClassName", "RES")],
    .create "t" .table true .plain [("SystemName", "ListPrice")],
    .add "c" "t" true,
    .add "r" "c" true,
    .remove "r" .propertyClass "RES" (some "c")]

/-- The class comes with the path of the resource that it was taken from. -/
theorem added_run_classTaken :
    ∃ p c p' c', (run classTaken).entities.get? "s" = some p ∧
      (run classTaken).entities.get? "c" = some c ∧ c.path = "Property:RES" ∧
      (run (classTaken ++ [.add "s" "c" true])).entities.get? "s" = some p' ∧
      p.Adopted c c' p' ∧ c'.path = "Agent:RES" := by
  have hresource : ((run classTaken).entities.get? "s").map (fun p => (p.kind, p.path))
      = some (.resource, "Agent") := by decide +kernel
  have hclass : ((run classTaken).entities.get? "c").map (fun c => (c.kind, c.id, c.path))
      = some (.propertyClass, "RES", "Property:RES") := by decide +kernel
  obtain ⟨p, hp, hpshown⟩ := Option.map_eq_some_iff.mp hresource
  obtain ⟨c, hc, hcshown⟩ := Option.map_eq_some_iff.mp hclass
  obtain ⟨hpkind, hppath⟩ := Prod.mk.inj hpshown
  obtain ⟨hckind, hcrest⟩ := Prod.mk.inj hcshown
  obtain ⟨hcid, hcpath⟩ := Prod.mk.inj hcrest
  have hpermits : p.kind.permits c.kind = true := by
    rw [hpkind, hckind]
    decide
  have hid : c.id ≠ "" := by
    rw [hcid]
    decide
  obtain ⟨p', c', hp', hadopted, -⟩ :=
    (@added_run classTaken "s" "c" p c true hp hc (by decide)).1 hpermits hid
  have hcid' : c'.id = "RES" := hadopted.id.trans hcid
  refine ⟨p, c, p', c', hp, hc, hcpath, hp', hadopted, ?_⟩
  rw [hadopted.rooted.path, hppath, hcid']
  decide

/-! ## §2. Removing -/

theorem answer_remove {b : Workbench} {n : String} {e : Entity} (he : b.entities.get? n = some e)
    (k : Kind) (i : String) (into : Option String) :
    answer (remove n k i into) b = .ok (e.remove k i).1 := by
  show (outcome (entity n >>= _) b).1 = _
  rw [outcome_entity_bind he]
  cases into with
  | none => rfl
  | some other =>
    obtain ⟨removed, e'⟩ := e.remove k i
    cases removed <;> rfl

/-- **Removing leaves all else, and all paths.**  The parent keeps its other children
in their order.  What was removed is the child as it stood there, so it is a root, with
paths that begin with its own id, exactly if its path was its id before.  Where the
paths of the parent hold, that is when the parent has no path. -/
theorem removed_run (ts : List Task) {name i : String} {k : Kind} {into : Option String}
    {p c : Entity} (hp : (run ts).entities.get? name = some p) (hinto : into ≠ some name)
    (hc : answer (remove name k i into) (run ts) = .ok (some c)) :
    ∃ p', (run (ts ++ [.remove name k i into])).entities.get? name = some p' ∧
      p.Detached k i c p' ∧
      (∀ n, into = some n → (run (ts ++ [.remove name k i into])).entities.get? n = some c) ∧
      (c.RootedAt "" ↔ c.path = c.id ∧ c.PathsHold) ∧
      (p.PathsHold → (c.RootedAt "" ↔ p.path = "")) := by
  have hremoved : (p.remove k i).1 = some c := by
    rw [answer_remove hp] at hc
    exact Except.ok.inj hc
  have hdetached : p.Detached k i c (p.remove k i).2 := Entity.detached_remove hremoved
  have hid : c.id ≠ "" := ((all_wellFormed_run ts).named name p hp).here.named k c hdetached.mem
  refine ⟨(p.remove k i).2, ?_, hdetached, ?_, ?_, Entity.rootedAt_of_detached_iff hdetached hid⟩
  · rw [run_append_singleton]
    exact entities_remove hp k i hinto
  · rintro n rfl
    rw [run_append_singleton]
    exact entities_remove_into hp ((Entity.remove_fst p k i).symm.trans hremoved) n
  · rw [Entity.rootedAt_iff hid, Head.below_empty]

/-- A class below a resource with some attributes. -/
def classBelow (attributes : List (String × String)) : List Task :=
  [.create "r" .resource true .plain attributes,
    .create "c" .propertyClass true .plain [("ClassName", "RES")],
    .add "r" "c" true]

/-- Removed from a resource without an id, the class is a root again. -/
theorem removed_run_nameless :
    ∃ c, answer (remove "r" .propertyClass "RES" none) (run (classBelow [])) = .ok (some c) ∧
      c.RootedAt "" := by
  have hshown : ((run (classBelow [])).entities.get? "r").map (fun p =>
      (p.path, (p.remove .propertyClass "RES").1.isSome)) = some ("", true) := by decide +kernel
  obtain ⟨p, hp, hshown⟩ := Option.map_eq_some_iff.mp hshown
  obtain ⟨hpath, hsome⟩ := Prod.mk.inj hshown
  obtain ⟨c, hc⟩ := Option.isSome_iff_exists.mp hsome
  have hanswer : answer (remove "r" .propertyClass "RES" none) (run (classBelow []))
      = .ok (some c) := by
    rw [answer_remove hp, hc]
  -- no task edits attributes, so the paths hold
  have hcalm : ∀ t ∈ classBelow [], t.edits? = none := by decide
  have hheld : All Entity.PathsHold (run (classBelow [])) := by
    apply all_pathsHold_run
    rintro us t hus ⟨name, -, -, ht, -⟩
    have hnone := hcalm t (hus.subset (by simp))
    rw [ht] at hnone
    cases hnone
  obtain ⟨-, -, -, -, -, hroot⟩ := removed_run (classBelow []) hp (by decide) hanswer
  exact ⟨c, hanswer, (hroot (hheld.named "r" p hp)).mpr hpath⟩

/-- Removed from a resource with an id, it keeps the path that begins with that id. -/
theorem removed_class_keeps_its_path :
    ∃ c, answer (remove "r" .propertyClass "RES" none)
        (run (classBelow [("ResourceID", "Property")])) = .ok (some c) ∧
      c.id = "RES" ∧ c.path = "Property:RES" ∧ ¬ c.RootedAt "" := by
  have hshown : ((run (classBelow [("ResourceID", "Property")])).entities.get? "r").bind (fun p =>
      (p.remove .propertyClass "RES").1.map fun c => (c.id, c.path))
        = some ("RES", "Property:RES") := by decide +kernel
  obtain ⟨p, hp, hshown⟩ := Option.bind_eq_some_iff.mp hshown
  obtain ⟨c, hc, hshown⟩ := Option.map_eq_some_iff.mp hshown
  obtain ⟨hid, hpath⟩ := Prod.mk.inj hshown
  refine ⟨c, ?_, hid, hpath, ?_⟩
  · rw [answer_remove hp, hc]
  · intro hroot
    have hrooted : c.path = Head.below "" c.id := hroot.path
    rw [hpath, hid] at hrooted
    exact absurd hrooted (by decide)

end ListingMetadata.Workbench
