/-
  ListingMetadata.Proofs.Workbench.Slots
  ──────────────────────────────────────
  **EACH SLOT IS FETCHED ONCE.**

  A run leads every slot from `unfetched` to `fetched` or `failed` and never
  back.  A task tells how the entity of a name goes on; from it the slots of
  one task follow, and from one task the history of a run:

    • `becomes_step`        — what a task makes of a named entity,
    • `answered_step`       — a slot that is asked for is not left `unfetched`,
    • `carried_step`        — entities that go to another place take their slots
      along,
    • `fetchesOnce_step`    — the slots and the requests of one task,
    • `slot?_left_for_good` — no later task takes a slot back,
    • `slots_fetched_once`  — a whole run, and how often each source was asked.
-/
import ListingMetadata.Proofs.Workbench.Requests
import ListingMetadata.Proofs.Kind.Hierarchy
import ListingMetadata.Proofs.Source.Exploring

namespace ListingMetadata.Workbench

open Entity (Way Departure Visits)

/-! ## §1. What becomes of a named entity -/

/-- What a task makes of the entity of a name, if it puts no other in its place. -/
inductive Becomes (b : Workbench) (n : String) (e : Entity) : Task → Entity → Prop where
  | same {t : Task} : Becomes b n e t e
  | edited {t : Task} {h : Head} (hf : h.frame = e.head.frame) : Becomes b n e t (e.withHead h)
  | adopting {child : String} {move : Bool} {c : Entity} (hc : b.entities.get? child = some c)
      (ha : e.accepts c = true) : Becomes b n e (.add n child move) (e.adopt c)
  | removing {k : Kind} {i : String} {into : Option String} :
      Becomes b n e (.remove n k i into) (e.remove k i).2
  | bound {source : Option String} (s : Option Nat) :
      Becomes b n e (.bind n source) (e.setSource s)
  | asking {t : Task} {ask : Sources → Entity → Logged Event Entity}
      (ht : t.asking? = some (n, ask)) : Becomes b n e t (ask b.alive e).value

section Outcomes

variable {b : Workbench} {n : String} {e : Entity}

theorem entities_entity_bind {α : Type} (he : b.entities.get? n = some e) (f : Entity → Work α) :
    (after (entity n >>= f) b).entities = (outcome (f e) b).2.entities := by
  rw [entities_after, outcome_entity_bind he]

/-- An entity that another is offered: it adopts the other, or stays. -/
theorem entities_offering (he : b.entities.get? n = some e) (c : Entity) :
    (outcome (entity n >>= fun e => orFail (e.add c) >>= fun e' => keep n e' >>= fun _ =>
        pure (e'.resolved c.kind)) b).2.entities.get? n = some (e.offered c) := by
  rw [outcome_entity_bind he]
  cases ha : e.accepts c with
  | true =>
    rw [Entity.add_of_accepts ha, Entity.offered_of_accepts ha]
    exact Text.Named.get?_put_self _ _ _
  | false =>
    rw [Entity.add_of_not_accepts ha, Entity.offered_of_not_accepts ha]
    exact he

/-- What adding does to the entity that is added to. -/
theorem entities_add (he : b.entities.get? n = some e) {child : String} {c : Entity}
    (hc : b.entities.get? child = some c) {move : Bool} (hn : move = true → n ≠ child) :
    (after (add n child move) b).entities.get? n = some (e.offered c) := by
  unfold add
  rw [entities_entity_bind hc]
  cases move with
  | false => exact entities_offering he c
  | true =>
    -- the child has gone from its name, which is another one
    have hdropped : (b.entities.drop child).get? n = some e := by
      rw [Text.Named.get?_drop_of_ne _ (hn rfl)]
      exact he
    exact entities_offering (b := { b with entities := b.entities.drop child }) hdropped c

theorem entities_remove (he : b.entities.get? n = some e) (k : Kind) (i : String)
    {into : Option String} (hn : into ≠ some n) :
    (after (remove n k i into) b).entities.get? n = some (e.remove k i).2 := by
  have hkept : ((b.entities.put n (e.remove k i).2)).get? n = some (e.remove k i).2 :=
    Text.Named.get?_put_self _ _ _
  unfold remove
  rw [entities_entity_bind he]
  show (outcome (keepIn into (e.remove k i).1 >>= fun _ => pure (e.remove k i).1)
    { b with entities := b.entities.put n (e.remove k i).2 }).2.entities.get? n = _
  rw [outcome_bind]
  cases hout : (outcome (keepIn into (e.remove k i).1)
      { b with entities := b.entities.put n (e.remove k i).2 }).1 with
  | ok x => exact (entities_keepIn hn _ _).trans hkept
  | error f => exact (entities_keepIn hn _ _).trans hkept

theorem entities_changed (he : b.entities.get? n = some e) (f : Entity → Logged Event Entity) :
    (after (change n f) b).entities.get? n = some (f e).value := by
  rw [entities_after, (changed_some he f).1]
  exact Text.Named.get?_put_self _ _ _

/-- A named entity that is bound has another source, or stays if there is no such
source. -/
theorem entities_bind (he : b.entities.get? n = some e) (source : Option String) :
    (after (bind n source) b).entities.get? n = some e ∨
      ∃ number, (after (bind n source) b).entities.get? n = some (e.setSource number) := by
  cases source with
  | none => exact Or.inr ⟨none, entities_changed he fun e => pure (e.setSource none)⟩
  | some s =>
    cases hs : b.sources.get? s with
    | none =>
      have hout : (outcome (bind n (some s)) b).2 = b := by
        unfold bind named
        simp only [outcome_bind, outcome_get, hs]
        rfl
      exact Or.inl (by rw [entities_after, hout, he])
    | some number =>
      have hout : outcome (bind n (some s)) b
          = outcome (change n fun e => pure (e.setSource (some number))) b := by
        unfold bind named
        simp only [outcome_bind, outcome_get, hs]
        rfl
      have hchanged := entities_changed he fun e => pure (e.setSource (some number))
      rw [entities_after] at hchanged
      exact Or.inr ⟨some number, by rw [entities_after, hout]; exact hchanged⟩

theorem entities_copy (he : b.entities.get? n = some e) (into : String) :
    (step b (.copy n into)).entities.get? into = some e := by
  show (after (entity n >>= keep into) b).entities.get? into = _
  rw [entities_entity_bind he]
  exact Text.Named.get?_put_self _ _ _

/-- A child that is removed comes under the name that is given for it. -/
theorem entities_remove_into (he : b.entities.get? n = some e) {k : Kind} {i : String}
    {c : Entity} (hc : e.resolvedChild? k i = some c) (into : String) :
    (step b (.remove n k i (some into))).entities.get? into = some c := by
  have hremoved : (e.remove k i).1 = some c := by
    unfold Entity.remove
    rw [hc]
  show (after (entity n >>= _) b).entities.get? into = _
  rw [entities_entity_bind he]
  show (outcome (keepIn (some into) (e.remove k i).1 >>= fun _ => pure (e.remove k i).1)
    (b.keeping n (e.remove k i).2)).2.entities.get? into = _
  rw [hremoved]
  exact Text.Named.get?_put_self _ _ _

/-- A child that is there comes under the name that is given for it. -/
theorem entities_child_into (he : b.entities.get? n = some e) {k : Kind} {i : String}
    {c : Entity} (hf : e.head.progress? k = some .fetched) (hc : e.resolvedChild? k i = some c)
    (into : String) : (step b (.child n k i (some into))).entities.get? into = some c := by
  have hresolve : e.resolve b.alive k = pure e := by
    unfold Entity.resolve
    rw [hf, if_neg (by simp)]
  show (after (child n k i (some into)) b).entities.get? into = _
  rw [entities_after, state_child n k i (some into) he, hresolve]
  show (outcome (keepIn (some into) (e.resolvedChild? k i)) _).2.entities.get? into = _
  rw [hc]
  exact Text.Named.get?_put_self _ _ _

/-- **What a task makes of a named entity.** -/
theorem becomes_step {t : Task} (hshelf : t.isShelf = false) (he : b.entities.get? n = some e)
    (hn : n ∉ t.puts) :
    ∃ e', (step b t).entities.get? n = some e' ∧ Becomes b n e t e' := by
  cases hasking : t.asking? with
  | some asking =>
    obtain ⟨name, ask⟩ := asking
    by_cases hname : n = name
    · subst hname
      refine ⟨(ask b.alive e).value, ?_, .asking hasking⟩
      rw [(asked_step hasking he).entities n hn]
      exact Text.Named.get?_put_self _ _ _
    · refine ⟨e, ?_, .same⟩
      cases hd : b.entities.get? name with
      | none =>
        rw [step_of_nameless hasking hd]
        exact he
      | some d =>
        rw [(asked_step hasking hd).entities n hn, Text.Named.get?_put_of_ne _ _ hname]
        exact he
  | none =>
    cases hfetch : t.isFetch with
    | true =>
      refine ⟨e, ?_, .same⟩
      rw [(hand_step hfetch b).2.2]
      exact he
    | false =>
      by_cases hchanges : t.changes? = some n
      · cases hedits : t.edits? with
        | some name =>
          -- a task that edits attributes changes the entity that it edits
          have hname : name = n := by
            cases t <;> cases hedits <;> exact Option.some.inj hchanges
          subst hname
          obtain ⟨-, hsame | ⟨d, h, hd, hedit, hput⟩⟩ := edited_step hedits b
          · exact ⟨e, by rw [hsame, he], .same⟩
          · have hde : d = e := Option.some.inj (hd.symm.trans he)
            subst hde
            refine ⟨d.withHead h, ?_, .edited hedit.frame⟩
            rw [hput]
            exact Text.Named.get?_put_self _ _ _
        | none =>
          cases t with
          | add name child move =>
            cases hchanges
            cases hc : b.entities.get? child with
            | none =>
              refine ⟨e, ?_, .same⟩
              show (after (entity child >>= _) b).entities.get? n = _
              rw [after_entity_none hc]
              exact he
            | some c =>
              have hne : move = true → n ≠ child := by
                intro hm hnc
                subst hm
                exact hn (List.mem_singleton.mpr hnc)
              refine ⟨e.offered c, entities_add he hc hne, ?_⟩
              cases ha : e.accepts c with
              | true =>
                rw [Entity.offered_of_accepts ha]
                exact .adopting hc ha
              | false =>
                rw [Entity.offered_of_not_accepts ha]
                exact .same
          | remove name k i into =>
            cases hchanges
            have hne : into ≠ some n := by
              intro hi
              subst hi
              exact hn (List.mem_singleton_self n)
            exact ⟨_, entities_remove he k i hne, .removing⟩
          | bind name source =>
            cases hchanges
            rcases entities_bind he source with hsame | ⟨number, hbound⟩
            · exact ⟨e, hsame, .same⟩
            · exact ⟨_, hbound, .bound number⟩
          | setAttribute => cases hedits
          | setAttributeWith => cases hedits
          | unsetAttribute => cases hedits
          | replaceType => cases hedits
          | _ => cases hchanges
      · refine ⟨e, ?_, .same⟩
        have htouches : ¬ t.touches n := fun h => h.elim hn hchanges
        rw [(calm_step hasking hfetch hshelf b).entities n htouches]
        exact he

end Outcomes

/-! ## §2. The slots of named trees -/

/-- How far the children of a kind are resolved at the end of a way in a named
tree. -/
def slot? (b : Workbench) (n : String) (w : Way) (k : Kind) : Option Progress :=
  (b.entities.get? n).bind fun e => e.slot? w k

theorem slot?_of_get? {b : Workbench} {n : String} {e : Entity}
    (he : b.entities.get? n = some e) (w : Way) (k : Kind) : b.slot? n w k = e.slot? w k := by
  unfold slot?
  rw [he, Option.bind_some]

/-- The child, by kind and id, that a task puts below a named entity or takes from
there. -/
def exchanges? (b : Workbench) : Task → Option (String × (Kind × String))
  | .add name child _ => (b.entities.get? child).map fun c => (name, c.key)
  | .remove name kind id _ => some (name, (kind, id))
  | _ => none

/-- A task may put another entity at the end of a way, or none: it puts a tree
under the name, or exchanges the child with which the way begins. -/
def Displaces (b : Workbench) (t : Task) (n : String) (w : Way) : Prop :=
  n ∈ t.puts ∨ ∃ s, exchanges? b t = some (n, s) ∧ w.head? = some s

/-- The departures that a task leads to: in the tree that it asks for children,
one after the other, with the sources that are alive. -/
inductive Leads (b : Workbench) : Task → List Departure → Prop where
  | asking {t : Task} {n : String} {ask : Sources → Entity → Logged Event Entity} {e : Entity}
      {ds : List Departure} (ht : t.asking? = some (n, ask)) (he : b.entities.get? n = some e)
      (hv : Visits b.alive e ds (ask b.alive e).value) : Leads b t ds
  | idle {t : Task} (h : ∀ n ask, t.asking? = some (n, ask) → b.entities.get? n = none) :
      Leads b t []

/-- How a slot goes on through a task with its departures. -/
inductive Advances (b : Workbench) (t : Task) (ds : List Departure) (n : String) (w : Way)
    (k : Kind) : Progress → Progress → Prop where
  /-- It stays as it is. -/
  | stays {p : Progress} : Advances b t ds n w k p p
  /-- It was never asked for, and the task asks for it. -/
  | departs {ask : Sources → Entity → Logged Event Entity} {d : Departure} {p : Progress}
      (ht : t.asking? = some (n, ask)) (hd : d ∈ ds) (hw : d.way = w) (hk : d.kind = k)
      (hp : p = .fetched ∨ p = .failed) : Advances b t ds n w k .unfetched p
  /-- A child of its kind is added. -/
  | adopts {child : String} {move : Bool} {c : Entity} {p : Progress}
      (ht : t = .add n child move) (hc : b.entities.get? child = some c) (hk : c.kind = k)
      (hw : w = []) : Advances b t ds n w k p .fetched

/-- A task takes an entity to another place: from a name and a way to a name and a
way. -/
inductive Carries (b : Workbench) : Task → String × Way → String × Way → Prop where
  | copying {name into : String} : Carries b (.copy name into) (name, []) (into, [])
  | adopting {name child : String} {move : Bool} {e c : Entity}
      (he : b.entities.get? name = some e) (hc : b.entities.get? child = some c)
      (ha : e.accepts c = true) : Carries b (.add name child move) (child, []) (name, [c.key])
  | removing {name into : String} {k : Kind} {i : String} :
      Carries b (.remove name k i (some into)) (name, [(k, i)]) (into, [])
  | finding {name into : String} {k : Kind} {i : String} :
      Carries b (.child name k i (some into)) (name, [(k, i)]) (into, [])

/-- A task asks for a slot: for one of a named entity, or for all of its tree. -/
inductive AsksFor : Task → String → Way → Kind → Prop where
  | children {n : String} {k : Kind} : AsksFor (.children n k) n [] k
  | child {n i : String} {k : Kind} {into : Option String} : AsksFor (.child n k i into) n [] k
  | materialize {n : String} {w : Way} {k : Kind} : AsksFor (.materialize n) n w k

/-- What a task does to the slots of all named trees, and what it asks. -/
structure FetchesOnce (b : Workbench) (t : Task) (ds : List Departure) : Prop where
  /-- Slots leave `unfetched` one by one, each by a departure. -/
  departures : Leads b t ds
  /-- Sources are asked at departures, and by hand. -/
  requests : (step b t).requests = b.requests ++ ds.flatMap Departure.requests ++ byHand b t
  /-- A slot that the task asks for is not `unfetched` afterwards. -/
  answered : ∀ n w k, AsksFor t n w k → n ∉ t.puts →
    (step b t).slot? n w k ≠ some .unfetched
  /-- Where no entity is displaced, each slot goes on. -/
  onward : ∀ n w k p, b.slot? n w k = some p → ¬ Displaces b t n w →
    ∃ p', (step b t).slot? n w k = some p' ∧ Advances b t ds n w k p p'
  /-- Entities that go to another place take their slots along. -/
  carried : ∀ n w n' w', Carries b t (n, w) (n', w') →
    ∀ v k p, b.slot? n (w ++ v) k = some p → (step b t).slot? n' (w' ++ v) k = some p

/-! ## §3. One task -/

section OneTask

variable {b : Workbench}

/-- **The departures of a task, and all that it asks.** -/
theorem leads_step {t : Task} (hshelf : t.isShelf = false) (hb : All Entity.WellFormed b)
    (hk : b.alive.InKind) :
    ∃ ds, Leads b t ds ∧
      (step b t).requests = b.requests ++ ds.flatMap Departure.requests ++ byHand b t := by
  cases hasking : t.asking? with
  | none =>
    have hidle : Leads b t [] := .idle fun n ask h => by
      rw [hasking] at h
      cases h
    refine ⟨[], hidle, ?_⟩
    rw [List.flatMap_nil, List.append_nil]
    cases hfetch : t.isFetch with
    | true => exact (hand_step hfetch b).1
    | false =>
      rw [byHand_of_not_fetch hfetch, List.append_nil]
      exact (calm_step hasking hfetch hshelf b).requests
  | some asking =>
    obtain ⟨n, ask⟩ := asking
    have hfetch : t.isFetch = false := by
      cases t <;> first | rfl | cases hasking
    rw [byHand_of_not_fetch hfetch]
    cases he : b.entities.get? n with
    | none =>
      have hidle : Leads b t [] := .idle fun m ask' h => by
        rw [hasking] at h
        cases h
        exact he
      refine ⟨[], hidle, ?_⟩
      rw [step_of_nameless hasking he, List.flatMap_nil, List.append_nil, List.append_nil]
    | some e =>
      have hwf : e.WellFormed := hb.named n e he
      have htraced : Entity.Traced b.alive e (ask b.alive e) := by
        cases t with
        | children name kind =>
          cases hasking
          exact Entity.traced_resolve hk hwf.here.slotted kind
        | child name kind id into =>
          cases hasking
          exact Entity.traced_resolve hk hwf.here.slotted kind
        | materialize name =>
          cases hasking
          exact Entity.traced_materializeTo hb.served hk _ e hwf
        | _ => cases hasking
      obtain ⟨ds, hv, hrequests⟩ := htraced
      refine ⟨ds, .asking hasking he hv, ?_⟩
      rw [(asked_step hasking he).requests, hrequests, List.append_nil]

/-- **A slot that a task asks for is not `unfetched` afterwards.** -/
theorem answered_step {t : Task} (hb : All Entity.WellFormed b) (hk : b.alive.InKind)
    {n : String} {w : Way} {k : Kind} (ha : AsksFor t n w k) (hn : n ∉ t.puts) :
    (step b t).slot? n w k ≠ some .unfetched := by
  have hasking : ∃ ask, t.asking? = some (n, ask) ∧
      ∀ e : Entity, e.WellFormed → (ask b.alive e).value.slot? w k ≠ some .unfetched := by
    cases ha with
    | children => exact ⟨_, rfl, fun e _ => Entity.progress?_resolve_ne_unfetched b.alive e k⟩
    | child => exact ⟨_, rfl, fun e _ => Entity.progress?_resolve_ne_unfetched b.alive e k⟩
    | materialize =>
      refine ⟨_, rfl, fun e he => ?_⟩
      have hexplored := Entity.explored_materialize hb.served he (Entity.asksInKind_of_inKind hk e)
      exact hexplored.slot? w k
  obtain ⟨ask, ht, hanswered⟩ := hasking
  cases he : b.entities.get? n with
  | none =>
    have hnone : (step b t).slot? n w k = none := by
      rw [step_of_nameless ht he]
      unfold slot?
      rw [he, Option.bind_none]
    rw [hnone]
    simp
  | some e =>
    have hput : (step b t).entities.get? n = some (ask b.alive e).value := by
      rw [(asked_step ht he).entities n hn]
      exact Text.Named.get?_put_self _ _ _
    rw [slot?_of_get? hput]
    exact hanswered e (hb.named n e he)

/-- **Where no entity is displaced, each slot goes on.** -/
theorem advances_step {t : Task} (hshelf : t.isShelf = false) (hb : All Entity.WellFormed b)
    {ds : List Departure} (hds : Leads b t ds) {n : String} {w : Way} {k : Kind} {p : Progress}
    (hp : b.slot? n w k = some p) (hd : ¬ Displaces b t n w) :
    ∃ p', (step b t).slot? n w k = some p' ∧ Advances b t ds n w k p p' := by
  obtain ⟨e, he, hslot⟩ := Option.bind_eq_some_iff.mp hp
  obtain ⟨e', he', hbecomes⟩ := becomes_step hshelf he fun h => hd (Or.inl h)
  rw [slot?_of_get? he']
  cases hbecomes with
  | same => exact ⟨p, hslot, .stays⟩
  | edited hf =>
    refine ⟨p, ?_, .stays⟩
    rw [Entity.slot?_withHead hf]
    exact hslot
  | bound s =>
    refine ⟨p, ?_, .stays⟩
    unfold Entity.setSource
    rw [Entity.slot?_placed]
    exact hslot
  | @removing kind id into =>
    refine ⟨p, ?_, .stays⟩
    have hw : w.head? ≠ some (kind, id) := fun hh => hd (Or.inr ⟨(kind, id), rfl, hh⟩)
    rw [Entity.slot?_remove e hw]
    exact hslot
  | @adopting child move c hc ha =>
    have hw : w.head? ≠ some c.key := by
      intro hh
      refine hd (Or.inr ⟨c.key, ?_, hh⟩)
      show (b.entities.get? child).map _ = _
      rw [hc]
      rfl
    have hprogress : e.head.progress? c.kind ≠ none :=
      (hb.named n e he).here.slotted.progress?_ne_none (Entity.accepts_iff.mp ha).1
    rw [Entity.slot?_adopt hprogress hw]
    split
    · rename_i hroot
      exact ⟨.fetched, rfl, .adopts rfl hc hroot.2.symm hroot.1⟩
    · exact ⟨p, hslot, .stays⟩
  | @asking _ ask ht =>
    cases hds with
    | idle hidle =>
      rw [hidle n ask ht] at he
      cases he
    | @asking n' ask' d _ ht' hd' hv =>
      -- the task asks for the children of one entity only
      obtain ⟨rfl, rfl⟩ : n = n' ∧ ask = ask' := by
        rw [ht] at ht'
        cases ht'
        exact ⟨rfl, rfl⟩
      have hde : d = e := Option.some.inj (hd'.symm.trans he)
      subst hde
      rcases hv.slot? hslot with hstay | ⟨rfl, ⟨x, hx, hway, hkind⟩, hafter⟩
      · exact ⟨p, hstay, .stays⟩
      · rcases hafter with hfetched | hfailed
        · exact ⟨.fetched, hfetched, .departs ht hx hway hkind (Or.inl rfl)⟩
        · exact ⟨.failed, hfailed, .departs ht hx hway hkind (Or.inr rfl)⟩

/-- **Entities that go to another place take their slots along.** -/
theorem carried_step (hb : All Entity.WellFormed b) {t : Task} {n n' : String} {w w' : Way}
    (hc : Carries b t (n, w) (n', w')) {v : Way} {k : Kind} {p : Progress}
    (hp : b.slot? n (w ++ v) k = some p) : (step b t).slot? n' (w' ++ v) k = some p := by
  obtain ⟨e, he, hslot⟩ := Option.bind_eq_some_iff.mp hp
  cases hc with
  | copying =>
    rw [slot?_of_get? (entities_copy he n')]
    exact hslot
  | @adopting _ child move d c hd hc ha =>
    have hce : c = e := Option.some.inj (hc.symm.trans he)
    subst hce
    have hpermits := (Entity.accepts_iff.mp ha).1
    -- no kind stands below itself, so an entity is not added to itself
    have hne : n' ≠ n := by
      intro hsame
      subst hsame
      have hdc : d = c := Option.some.inj (hd.symm.trans hc)
      subst hdc
      exact absurd (Kind.rank_lt_of_mem_childKinds (Kind.permits_iff.mp hpermits)) (by omega)
    have hprogress : d.head.progress? c.kind ≠ none :=
      (hb.named n' d hd).here.slotted.progress?_ne_none hpermits
    have hput : (step b (.add n' n move)).entities.get? n' = some (d.adopt c) := by
      rw [← Entity.offered_of_accepts ha]
      exact entities_add hd hc fun _ => hne
    rw [slot?_of_get? hput]
    exact (Entity.slot?_adopt_key hprogress v k).trans hslot
  | @removing _ _ kind id =>
    rw [List.singleton_append, Entity.slot?_cons] at hslot
    obtain ⟨c, hc, hslot⟩ := Option.bind_eq_some_iff.mp hslot
    rw [slot?_of_get? (entities_remove_into he hc n')]
    exact hslot
  | @finding _ _ kind id =>
    -- below an entity that is there, the kind is fetched already
    have hfetched := Entity.progress?_of_slot?_cons hslot
    rw [List.singleton_append, Entity.slot?_cons] at hslot
    obtain ⟨c, hc, hslot⟩ := Option.bind_eq_some_iff.mp hslot
    rw [slot?_of_get? (entities_child_into he hfetched hc n')]
    exact hslot

/-- **What one task does to the slots.** -/
theorem fetchesOnce_step {t : Task} (hshelf : t.isShelf = false) (hb : All Entity.WellFormed b)
    (hk : b.alive.InKind) : ∃ ds, FetchesOnce b t ds := by
  obtain ⟨ds, hds, hrequests⟩ := leads_step hshelf hb hk
  exact ⟨ds, hds, hrequests, fun n w k ha hn => answered_step hb hk ha hn,
    fun n w k p hp hd => advances_step hshelf hb hds hp hd,
    fun n w n' w' hc v k p hp => carried_step hb hc hp⟩

end OneTask

/-! ## §4. Runs -/

/-- Tasks none of which displaces the entity at the end of a way. -/
inductive Undisplaced (n : String) (w : Way) : Workbench → List Task → Prop where
  | nil {b : Workbench} : Undisplaced n w b []
  | cons {b : Workbench} {t : Task} {ts : List Task} (h : ¬ Displaces b t n w)
      (hs : Undisplaced n w (step b t) ts) : Undisplaced n w b (t :: ts)

/-- **A slot leaves `unfetched` for good**, and of those that failed only the slots
of a root become fetched, by a child that is added there. -/
theorem slot?_left_for_good {n : String} {w : Way} {k : Kind} {b : Workbench} {ts : List Task}
    (hshelf : ∀ t ∈ ts, t.isShelf = false) (hb : All Entity.WellFormed b) (hk : b.alive.InKind)
    (hu : Undisplaced n w b ts) {p : Progress} (hp : b.slot? n w k = some p)
    (hleft : p ≠ .unfetched) :
    ∃ p', (ts.foldl step b).slot? n w k = some p' ∧ p' ≠ .unfetched ∧
      (p' ≠ p → w = [] ∧ ∃ child move, Task.add n child move ∈ ts) := by
  induction hu generalizing p with
  | nil => exact ⟨p, hp, hleft, fun h => absurd rfl h⟩
  | @cons b t ts hd hs ih =>
    have ht : t.isShelf = false := hshelf t List.mem_cons_self
    obtain ⟨ds, hds⟩ := fetchesOnce_step ht hb hk
    obtain ⟨q, hq, hadvances⟩ := hds.onward n w k p hp hd
    have hrest : ∀ q, (step b t).slot? n w k = some q → q ≠ .unfetched →
        ∃ p', (ts.foldl step (step b t)).slot? n w k = some p' ∧ p' ≠ .unfetched ∧
          (p' ≠ q → w = [] ∧ ∃ child move, Task.add n child move ∈ ts) :=
      fun q hq hq' => ih (fun t' ht' => hshelf t' (List.mem_cons_of_mem _ ht'))
        (wellFormed_step t hb) (inKind_step ht hk) hq hq'
    cases hadvances with
    | stays =>
      obtain ⟨p', hp', hleft', hby⟩ := hrest p hq hleft
      refine ⟨p', hp', hleft', fun h => ?_⟩
      obtain ⟨hw, child, move, hin⟩ := hby h
      exact ⟨hw, child, move, List.mem_cons_of_mem _ hin⟩
    | departs => exact absurd rfl hleft
    | @adopts child move c _ hadd hc hkind hw =>
      obtain ⟨p', hp', hleft', -⟩ := hrest .fetched hq (by simp)
      exact ⟨p', hp', hleft', fun _ => ⟨hw, child, move, by rw [hadd]; exact List.mem_cons_self⟩⟩

/-- A run with its departures and its requests by hand. -/
inductive History : List Task → List Departure → List Event → Prop where
  | start : History [] [] []
  | task {ts : List Task} {ds es : List Departure} {hs : List Event} {t : Task}
      (h : History ts ds hs) (ht : FetchesOnce (run ts) t es) :
      History (ts ++ [t]) (ds ++ es) (hs ++ byHand (run ts) t)

theorem timesAsked_append (number : Nat) (es fs : List Event) :
    timesAsked number (es ++ fs) = timesAsked number es + timesAsked number fs :=
  List.countP_append

/-- A departure asks one source at most. -/
theorem timesAsked_requests (number : Nat) (d : Departure) :
    timesAsked number d.requests = if d.asks number then 1 else 0 := by
  obtain ⟨way, kind, source, path, served⟩ := d
  unfold Departure.requests Departure.asks
  cases served with
  | false => rfl
  | true =>
    cases source with
    | none => rfl
    | some m =>
      show timesAsked number [.asked m kind path] = _
      unfold timesAsked
      rw [List.countP_singleton]
      simp

theorem timesAsked_flatMap (number : Nat) (ds : List Departure) :
    timesAsked number (ds.flatMap Departure.requests) = ds.countP (Departure.asks number) := by
  induction ds with
  | nil => rfl
  | cons d ds ih =>
    rw [List.flatMap_cons, timesAsked_append, timesAsked_requests, ih, List.countP_cons, Nat.add_comm]

/-- **A source was asked as often as slots of entities bound to it departed while
it was alive**, apart from requests by hand. -/
theorem History.timesAsked {ts : List Task} {ds : List Departure} {hs : List Event}
    (h : History ts ds hs) (number : Nat) :
    timesAsked number (run ts).requests
      = ds.countP (Departure.asks number) + ListingMetadata.timesAsked number hs := by
  induction h with
  | start => rfl
  | @task ts ds es hs t h ht ih =>
    rw [run_append_singleton, ht.requests, timesAsked_append, timesAsked_append, ih,
      timesAsked_flatMap, List.countP_append, timesAsked_append]
    omega

/-- **Each slot is fetched once**, in every run with stores and documents: it goes
from `unfetched` to `fetched` or `failed` by one departure and never back, and a
source is asked at the departures of entities bound to it, while it is alive, and
by hand. -/
theorem slots_fetched_once (ts : List Task) (hshelf : ∀ name, Task.newShelf name ∉ ts) :
    ∃ ds hs, History ts ds hs ∧ ∀ number,
      timesAsked number (run ts).requests
        = ds.countP (Departure.asks number) + timesAsked number hs := by
  have hno : ∀ t ∈ ts, t.isShelf = false := by
    intro t ht
    cases t with
    | newShelf name => exact absurd ht (hshelf name)
    | _ => rfl
  have hhistory : ∃ ds hs, History ts ds hs := by
    -- on the run, last task first
    clear hshelf
    induction ts using List.reverseRecOn with
    | nil => exact ⟨[], [], .start⟩
    | append_singleton ts t ih =>
      have hbefore : ∀ t' ∈ ts, t'.isShelf = false :=
        fun t' ht' => hno t' (List.mem_append_left _ ht')
      obtain ⟨ds, hs, h⟩ := ih hbefore
      obtain ⟨es, hes⟩ := fetchesOnce_step
        (hno t (List.mem_append_right _ (List.mem_singleton_self t)))
        (all_wellFormed_run ts) (inKind_run hbefore)
      exact ⟨ds ++ es, hs ++ byHand (run ts) t, .task h hes⟩
  obtain ⟨ds, hs, h⟩ := hhistory
  exact ⟨ds, hs, h, h.timesAsked⟩

/-- A resource at a store that has nothing for it: asked twice for its classes, it
asks the store once. -/
def askingTwice : List Task :=
  [.newStore "store", .create "resource" .resource true (.source "store") [],
    .children "resource" .propertyClass, .children "resource" .propertyClass]

theorem askingTwice_fetched_once :
    (∀ name, Task.newShelf name ∉ askingTwice) ∧ timesAsked 0 (run askingTwice).requests = 1 ∧
      ∃ ds hs, History askingTwice ds hs ∧ ∀ number,
        timesAsked number (run askingTwice).requests
          = ds.countP (Departure.asks number) + timesAsked number hs := by
  have hshelf : ∀ name, Task.newShelf name ∉ askingTwice := by
    intro name
    unfold askingTwice
    simp
  have hasked : timesAsked 0 (run askingTwice).requests = 1 := by decide +kernel
  exact ⟨hshelf, hasked, slots_fetched_once askingTwice hshelf⟩

end ListingMetadata.Workbench
