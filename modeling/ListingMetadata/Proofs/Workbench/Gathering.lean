/-
  ListingMetadata.Proofs.Workbench.Gathering
  ──────────────────────────────────────────
  **CHILDREN ASKED FOR THE FIRST TIME, AND LATER.**

  The first time that the children of a kind are asked for, the source of the entity
  is asked, once.  What it brings is kept below the entity, or that it failed is.
  From then on the answer is the same, as long as no other entity is put under the
  name and the children are not changed by hand:

    • `step_children_again` — the next time,
    • `kept_step`           — what another task leaves of the children,
    • `kept_run`            — what any number of other tasks leave,
    • `gathered_run`        — a whole run.
-/
import ListingMetadata.Proofs.Source.Gathering
import ListingMetadata.Proofs.Source.Growing
import ListingMetadata.Proofs.Workbench.Layouts
import ListingMetadata.Proofs.Workbench.Slots

namespace ListingMetadata.Workbench

/-! ## §1. The next time -/

section Again

variable {b : Workbench} {name : String} {e : Entity}

/-- Children that were asked for before are told as they are. -/
theorem answer_children_of_ne {k : Kind} (he : b.entities.get? name = some e)
    (hp : e.head.progress? k ≠ some .unfetched) :
    answer (children name k) b = .ok (e.resolved k) := by
  show (outcome (children name k) b).1 = _
  rw [outcome_children name k he, Entity.resolve_of_ne hp]
  rfl

/-- **Asking a second time leaves the workbench as it is.** -/
theorem step_children_again (he : b.entities.get? name = some e) (k : Kind) :
    step (step b (.children name k)) (.children name k) = step b (.children name k) := by
  refine @step_again (.children name k) name (fun sources e => e.resolve sources k)
    (fun _ _ => step_children name k) b e he ?_
  intro sources
  exact Entity.resolve_of_ne (Entity.progress?_resolve_ne_unfetched b.alive e k)

end Again

/-! ## §2. Other tasks -/

/-- The task leaves alone what is below a named entity, but for children that were
never asked for: it changes attributes of the entity at most. -/
structure Task.Spares (t : Task) (name : String) : Prop where
  puts : name ∉ t.puts
  changes : t.changes? = some name → t.edits? ≠ none
  shallow : t ≠ .materialize name

/-- **A task that spares an entity leaves the children that were asked for.** -/
theorem kept_step {t : Task} {name : String} (hspares : t.Spares name) (hshelf : t.isShelf = false)
    {b : Workbench} (hb : All Entity.WellFormed b) (hk : b.alive.InKind) {e : Entity}
    (he : b.entities.get? name = some e) {k : Kind} (hp : e.head.progress? k ≠ some .unfetched) :
    ∃ e', (step b t).entities.get? name = some e' ∧
      e'.head.progress? k = e.head.progress? k ∧ e'.resolved k = e.resolved k := by
  obtain ⟨e', he', hbecomes⟩ := becomes_step hshelf he hspares.puts
  refine ⟨e', he', ?_⟩
  cases hbecomes with
  | same => exact ⟨rfl, rfl⟩
  | edited hf => exact ⟨Head.progress?_eq_of_frame hf k, Entity.resolved_withHead hf k⟩
  | adopting => exact absurd rfl (hspares.changes rfl)
  | removing => exact absurd rfl (hspares.changes rfl)
  | bound => exact absurd rfl (hspares.changes rfl)
  | asking ht =>
    -- asking for another kind brings nothing of this one
    have hresolve : ∀ j, (e.resolve b.alive j).value.head.progress? k = e.head.progress? k ∧
        (e.resolve b.alive j).value.resolved k = e.resolved k := by
      intro j
      by_cases hj : k = j
      · subst hj
        rw [Entity.value_resolve_of_ne hp]
        exact ⟨rfl, rfl⟩
      · have hslotted : e.head.Slotted := (hb.named name e he).here.slotted
        have hbrings := Entity.bringsInKind_of_inKind hk e
        exact ⟨Entity.progress?_resolve_of_ne hbrings hj,
          Entity.resolved_resolve_of_ne hslotted hbrings hj⟩
    cases t with
    | children n j =>
      cases ht
      exact hresolve j
    | child n j i into =>
      cases ht
      exact hresolve j
    | materialize n =>
      cases ht
      exact absurd rfl hspares.shallow
    | _ => cases ht

/-- **Any number of such tasks leave them.** -/
theorem kept_run {ts us : List Task} (hshelf : ∀ t ∈ ts ++ us, t.isShelf = false) {name : String}
    (hspares : ∀ t ∈ us, t.Spares name) {e : Entity} (he : (run ts).entities.get? name = some e)
    {k : Kind} (hp : e.head.progress? k ≠ some .unfetched) :
    ∃ e', (run (ts ++ us)).entities.get? name = some e' ∧
      e'.head.progress? k = e.head.progress? k ∧ e'.resolved k = e.resolved k := by
  induction us using List.reverseRecOn with
  | nil =>
    rw [List.append_nil]
    exact ⟨e, he, rfl, rfl⟩
  | append_singleton us t ih =>
    rw [← List.append_assoc] at hshelf ⊢
    have hbefore : ∀ u ∈ ts ++ us, u.isShelf = false :=
      fun u hu => hshelf u (List.mem_append_left _ hu)
    have hlast : t ∈ us ++ [t] := List.mem_append_right _ (List.mem_singleton_self t)
    obtain ⟨d, hd, hprogress, hresolved⟩ :=
      ih hbefore fun u hu => hspares u (List.mem_append_left _ hu)
    rw [← hprogress] at hp
    obtain ⟨e', he', hprogress', hresolved'⟩ := kept_step (hspares t hlast)
      (hshelf t (List.mem_append_right _ (List.mem_singleton_self t)))
      (all_wellFormed_run (ts ++ us)) (inKind_run hbefore) hd hp
    rw [run_append_singleton]
    exact ⟨e', he', hprogress'.trans hprogress, hresolved'.trans hresolved⟩

/-! ## §3. Runs -/

/-- What it leaves of a run to ask an entity for children of a kind that were never
asked for, from the source of a number; the second entity is the first afterwards. -/
structure FirstAsked (ts : List Task) (name : String) (k : Kind) (number : Nat)
    (e e' : Entity) : Prop where
  answered : answer (children name k) (run ts) = .ok (e'.resolved k)
  /-- The entity is in its place, and one request is remembered. -/
  left : run (ts ++ [.children name k])
    = { (run ts).keeping name e' with
        requests := (run ts).requests ++ [.asked number k e.path] }
  /-- The next time the answer is the same, and nobody is asked. -/
  again : answer (children name k) (run (ts ++ [.children name k])) = .ok (e'.resolved k) ∧
    run (ts ++ [.children name k, .children name k]) = run (ts ++ [.children name k])
  /-- It is the same after any other tasks that spare the entity. -/
  later : ∀ us, (∀ t ∈ ts ++ us, t.isShelf = false) → (∀ t ∈ us, t.Spares name) →
    answer (children name k) (run (ts ++ .children name k :: us)) = .ok (e'.resolved k)

theorem firstAsked_run (ts : List Task) {name : String} {e : Entity} {k : Kind} {number : Nat}
    {s : Source} (he : (run ts).entities.get? name = some e)
    (hu : e.head.progress? k = some .unfetched) (hnumber : e.head.source = some number)
    (hs : (run ts).alive.source? number = some s) :
    FirstAsked ts name k number e (e.resolve (run ts).alive k).value := by
  have hasked := Entity.progress?_resolve_ne_unfetched (run ts).alive e k
  have hafter : run (ts ++ [.children name k]) = step (run ts) (.children name k) :=
    run_append_singleton ts _
  have hrequests : (e.resolve (run ts).alive k).requests = [.asked number k e.path] := by
    unfold Entity.resolve
    rw [if_pos hu, Entity.requests_fetch, hnumber]
    unfold Entity.isServed
    rw [hnumber, Option.bind_some, hs]
    rfl
  have hleft := step_children name k he
  have hthere : (run (ts ++ [.children name k])).entities.get? name
      = some (e.resolve (run ts).alive k).value := by
    rw [hafter, hleft]
    exact get?_recording (run ts) name _
  unfold recording at hleft
  rw [hrequests, ← hafter] at hleft
  refine ⟨?_, hleft, ⟨answer_children_of_ne hthere hasked, ?_⟩, ?_⟩
  · show (outcome (children name k) (run ts)).1 = _
    rw [outcome_children name k he]
  · rw [run_append_pair, hafter]
    exact step_children_again he k
  · intro us hshelf hspares
    have hsplit : ts ++ .children name k :: us = (ts ++ [.children name k]) ++ us := by simp
    have hshelves : ∀ t ∈ (ts ++ [.children name k]) ++ us, t.isShelf = false := by
      intro t ht
      rw [← hsplit] at ht
      rcases List.mem_append.mp ht with ht | ht
      · exact hshelf t (List.mem_append_left _ ht)
      · rcases List.mem_cons.mp ht with rfl | ht
        · rfl
        · exact hshelf t (List.mem_append_right _ ht)
    obtain ⟨e', he', hprogress, hresolved⟩ := kept_run hshelves hspares hthere hasked
    rw [hsplit, ← hresolved]
    exact answer_children_of_ne he' (hprogress ▸ hasked)

/-- **Children are gathered once.**  A store or a document that is alive is asked for
the children that an entity was never asked for.  If it brings any, the last of each
id stands below the entity, where the id first came; if it fails, there are none.
Nothing else changes, and later the answer is the same. -/
theorem gathered_run (ts : List Task) {name : String} {e : Entity} {k : Kind} {number : Nat}
    {s : Source} (he : (run ts).entities.get? name = some e)
    (hu : e.head.progress? k = some .unfetched) (hnumber : e.head.source = some number)
    (hs : (run ts).alive.source? number = some s) (hshelf : s.isShelf = false) :
    (∀ found, (s.answer ⟨k, e.path⟩).value = .ok found →
      ∃ e', FirstAsked ts name k number e e' ∧ Entity.Gathered k found e e') ∧
    (∀ f, (s.answer ⟨k, e.path⟩).value = .error f →
      ∃ e', FirstAsked ts name k number e e' ∧ Entity.FailedOnly k e e' ∧
        answer (children name k) (run ts) = .ok []) := by
  have hfirst := firstAsked_run ts he hu hnumber hs
  have hslotted : e.head.Slotted := ((all_wellFormed_run ts).named name e he).here.slotted
  have hsource : e.head.source.bind (run ts).alive.source? = some s := by
    rw [hnumber, Option.bind_some, hs]
  have hbrings : e.BringsInKind (run ts).alive := by
    apply Entity.AsksInKind.bringsInKind
    apply asksInKind_run ts
    intro s' hs'
    rw [hsource] at hs'
    cases hs'
    exact hshelf
  constructor
  · intro found hfound
    refine ⟨_, hfirst, Entity.gathered_resolve hslotted hbrings hu ?_⟩
    unfold Entity.brought?
    simp only [hsource, hfound]
  · intro f hf
    have hfailed : Entity.FailedOnly k e (e.resolve (run ts).alive k).value := by
      apply Entity.failedOnly_resolve hslotted hbrings hu
      unfold Entity.brought?
      simp only [hsource, hf]
    refine ⟨_, hfirst, hfailed, ?_⟩
    rw [hfirst.answered, hfailed.none]

/-- A resource at a store that has two classes of one name for it, another class
and one without a name. -/
def namesakesServed : List Task :=
  [.newStore "store",
    .create "resource" .resource true (.source "store") [("ResourceID", "Property")],
    .create "early" .propertyClass true .plain [("ClassName", "RES")],
    .create "nameless" .propertyClass true .plain [],
    .create "other" .propertyClass true .plain [("ClassName", "LND")],
    .create "late" .propertyClass true .plain [("ClassName", "RES"), ("VisibleName", "Homes")],
    .insert "store" "Property" ["early", "nameless", "other", "late"]]

/-- Two of the four classes are kept. -/
theorem gathered_run_namesakesServed :
    ∃ e s found, (run namesakesServed).entities.get? "resource" = some e ∧
      e.head.progress? .propertyClass = some .unfetched ∧ e.head.source = some 0 ∧
      (run namesakesServed).alive.source? 0 = some s ∧ s.isShelf = false ∧
      (s.answer ⟨.propertyClass, e.path⟩).value = .ok found ∧
      ∃ e', FirstAsked namesakesServed "resource" .propertyClass 0 e e' ∧
        Entity.Gathered .propertyClass found e e' ∧
        (e'.resolved .propertyClass).map Entity.id = ["RES", "LND"] := by
  have hentity : ((run namesakesServed).entities.get? "resource").map (fun e =>
      (e.head.progress? .propertyClass, e.head.source, e.path))
        = some (some .unfetched, some 0, "Property") := by decide +kernel
  have hsource : ((run namesakesServed).alive.source? 0).map (fun s =>
      (s.isShelf, (s.answer ⟨.propertyClass, "Property"⟩).value.toOption.map (List.map Entity.id)))
        = some (false, some ["RES", "", "LND", "RES"]) := by decide +kernel
  obtain ⟨e, he, heshown⟩ := Option.map_eq_some_iff.mp hentity
  obtain ⟨hu, herest⟩ := Prod.mk.inj heshown
  obtain ⟨hnumber, hpath⟩ := Prod.mk.inj herest
  obtain ⟨s, hs, hsshown⟩ := Option.map_eq_some_iff.mp hsource
  obtain ⟨hshelf, hids⟩ := Prod.mk.inj hsshown
  cases hanswer : (s.answer ⟨.propertyClass, "Property"⟩).value with
  | error f =>
    rw [hanswer] at hids
    cases hids
  | ok found =>
    rw [hanswer] at hids
    rw [← hpath] at hanswer
    obtain ⟨e', hfirst, hgathered⟩ :=
      (gathered_run namesakesServed he hu hnumber hs hshelf).1 found hanswer
    refine ⟨e, s, found, he, hu, hnumber, hs, hshelf, hanswer, e', hfirst, hgathered, ?_⟩
    have hfound : found.map Entity.id = ["RES", "", "LND", "RES"] := Option.some.inj hids
    rw [hgathered.ids, hfound]
    decide

end ListingMetadata.Workbench
