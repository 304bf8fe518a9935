/-
  ListingMetadata.Proofs.Document.JsonRoundTrip
  ─────────────────────────────────────────────
  **DOCUMENTS READ BACK FROM THEIR JSON.**

  A document is read back from its own text, whatever its attributes hold.  Each
  level of children takes two levels of nesting, that of the list and that of the
  document in it, so 128 are enough for 60 levels.  Attributes come back in the order
  of their names, in which all documents keep them, those that are read as well as the
  snapshots of entities:

    • `ordered_ofJson`, `ordered_snapshot` — where documents come from,
    • `exact_toTree`     — a document as JSON has no numbers,
    • `ofDraft_draft`    — what is read of a spelling is the document,
    • `ofJson_toJson_of_levels_le` — the round trip.
-/
import ListingMetadata.Document.Reading
import ListingMetadata.Proofs.Calendar.Texts
import ListingMetadata.Proofs.Entity.Outline
import ListingMetadata.Proofs.Json.Spelling
import ListingMetadata.Proofs.Text.Named

namespace ListingMetadata.Document

open Json Text
open Calendar (exists_of_bind_ok)

/-! ## §1. Documents of a depth -/

mutual

/-- How deep children nest below a document: one that has none is not nested. -/
def levels : Document → Nat
  | mk _ _ cs => levelsBelow cs

/-- How deep documents nest as the children of another. -/
def levelsBelow : List Document → Nat
  | [] => 0
  | d :: ds => max (d.levels + 1) (levelsBelow ds)

end

mutual

/-- The attributes of the document and of all documents below it are kept in the order
of their names, no name twice. -/
def Ordered : Document → Prop
  | mk _ as cs => as.Sorted ∧ OrderedAll cs

/-- The attributes of all documents are kept in the order of their names. -/
def OrderedAll : List Document → Prop
  | [] => True
  | d :: ds => d.Ordered ∧ OrderedAll ds

end

/-! ## §2. Documents in order -/

theorem orderedAll_iff {ds : List Document} : OrderedAll ds ↔ ∀ d ∈ ds, d.Ordered := by
  induction ds with
  | nil =>
    constructor
    · intro _ d hd
      cases hd
    · intro _
      trivial
  | cons d ds ih => rw [OrderedAll, ih, List.forall_mem_cons]

/-- **A snapshot is ordered**, whatever the entity holds. -/
theorem ordered_snapshot (e : Entity) : e.snapshot.Ordered := by
  induction e using Entity.induct with
  | step h cs ih =>
    rw [Entity.snapshot_eq]
    refine ⟨Named.sorted_ofPairs _, orderedAll_iff.mpr fun d hd => ?_⟩
    obtain ⟨k, -, hd⟩ := List.mem_flatMap.mp hd
    obtain ⟨c, hc, rfl⟩ := List.mem_map.mp hd
    exact ih c (Entity.mem_resolved.mp hc).2.1

theorem sorted_attributesFrom {members : List (Lexeme String × Draft)} {sofar as : Named String}
    (h : sofar.Sorted) (hread : attributesFrom sofar members = .ok as) : as.Sorted := by
  induction members generalizing sofar with
  | nil =>
    cases hread
    exact h
  | cons m members ih =>
    obtain ⟨n, -, hread⟩ := exists_of_bind_ok hread
    obtain ⟨s, -, hread⟩ := exists_of_bind_ok hread
    exact ih (h.put n s) hread

/-- Attributes are read in order, in whatever order they stand. -/
theorem sorted_attributesOf {depth : Nat} {draft : Draft} {as : Named String}
    (hread : attributesOf depth draft = .ok as) : as.Sorted := by
  cases draft with
  | object members ending =>
    obtain ⟨_, -, hread⟩ := exists_of_bind_ok hread
    obtain ⟨as', has, hread⟩ := exists_of_bind_ok hread
    split at hread
    · cases hread
      exact sorted_attributesFrom List.Pairwise.nil has
    · cases hread
  | unnamed =>
    obtain ⟨_, -, hread⟩ := exists_of_bind_ok hread
    cases hread
  | _ => cases hread

/-- The members found so far are ordered. -/
structure Parts.Ordered (p : Parts) : Prop where
  attributes : ∀ as, p.attributes = some as → as.Sorted
  children : ∀ cs, p.children = some cs → OrderedAll cs

theorem Parts.ordered_none : Parts.none.Ordered where
  attributes as h := by cases h
  children cs h := by cases h

namespace Parts.Ordered

variable {p : Parts}

theorem withKind (h : p.Ordered) (k : Kind) : Parts.Ordered { p with kind := some k } where
  attributes := h.attributes
  children := h.children

theorem withAttributes (h : p.Ordered) {as : Named String} (has : as.Sorted) :
    Parts.Ordered { p with attributes := some as } where
  attributes := by
    rintro _ ⟨⟩
    exact has
  children := h.children

theorem withChildren (h : p.Ordered) {cs : List Document} (hcs : OrderedAll cs) :
    Parts.Ordered { p with children := some cs } where
  attributes := h.attributes
  children := by
    rintro _ ⟨⟩
    exact hcs

/-- Attributes and children that are left out are empty. -/
theorem document (h : p.Ordered) {d : Document} (hread : p.document = .ok d) : d.Ordered := by
  obtain ⟨k, as, cs⟩ := p
  cases k with
  | none => cases hread
  | some k =>
    cases hread
    constructor
    · cases as with
      | none => exact List.Pairwise.nil
      | some as => exact h.attributes as rfl
    · cases cs with
      | none => trivial
      | some cs => exact h.children cs rfl

end Parts.Ordered

mutual

/-- What is read of a draft is ordered. -/
theorem ordered_ofDraft : ∀ {draft : Draft} {depth : Nat} {d : Document},
    ofDraft depth draft = .ok d → d.Ordered
  | .object members ending, depth, d, hread => by
    obtain ⟨_, -, hread⟩ := exists_of_bind_ok hread
    obtain ⟨parts, hparts, hread⟩ := exists_of_bind_ok hread
    split at hread
    · cases hread
    · exact (ordered_ofMembers Parts.ordered_none hparts).document hread
  | .list items ending, depth, d, hread => by
    obtain ⟨_, -, hread⟩ := exists_of_bind_ok hread
    exact ordered_ofItems Parts.ordered_none hread
  | .unnamed, depth, d, hread => by
    obtain ⟨_, -, hread⟩ := exists_of_bind_ok hread
    cases hread
  | .absent, _, _, hread => by cases hread
  | .broken _, _, _, hread => by cases hread
  | .null, _, _, hread => by cases hread
  | .bool _, _, _, hread => by cases hread
  | .number _, _, _, hread => by cases hread
  | .text _, _, _, hread => by cases hread

/-- What is read of members is ordered, if what was found so far is. -/
theorem ordered_ofMembers : ∀ {members : List (Lexeme String × Draft)} {depth : Nat}
    {p parts : Parts}, p.Ordered → ofMembers depth p members = .ok parts → parts.Ordered
  | [], _, p, _, h, hread => by
    cases hread
    exact h
  | (name, value) :: rest, depth, p, parts, h, hread => by
    obtain ⟨n, -, hread⟩ := exists_of_bind_ok hread
    -- by the name of the member: the kind, the attributes, the children, another
    split at hread
    · split at hread
      · cases hread
      · obtain ⟨k, -, hread⟩ := exists_of_bind_ok hread
        exact ordered_ofMembers (h.withKind k) hread
    · split at hread
      · split at hread
        · cases hread
        · obtain ⟨as, has, hread⟩ := exists_of_bind_ok hread
          exact ordered_ofMembers (h.withAttributes (sorted_attributesOf has)) hread
      · split at hread
        · split at hread
          · cases hread
          · obtain ⟨cs, hcs, hread⟩ := exists_of_bind_ok hread
            exact ordered_ofMembers (h.withChildren (orderedAll_ofChildren hcs)) hread
        · split at hread
          · cases hread
          · exact ordered_ofMembers h hread

/-- What is read of the items of a list is ordered, if what was found so far is. -/
theorem ordered_ofItems : ∀ {items : List Draft} {depth place : Nat} {p : Parts}
    {ending : Ending} {d : Document},
    p.Ordered → ofItems depth place p items ending = .ok d → d.Ordered
  | [], _, place, p, ending, d, h, hread => by
    rw [ofItems] at hread
    split at hread
    · cases hread
    · split at hread
      · cases hread
      · exact h.document hread
  | value :: rest, depth, 0, p, ending, d, h, hread => by
    obtain ⟨k, -, hread⟩ := exists_of_bind_ok hread
    exact ordered_ofItems (h.withKind k) hread
  | value :: rest, depth, 1, p, ending, d, h, hread => by
    obtain ⟨as, has, hread⟩ := exists_of_bind_ok hread
    exact ordered_ofItems (h.withAttributes (sorted_attributesOf has)) hread
  | value :: rest, depth, 2, p, ending, d, h, hread => by
    obtain ⟨cs, hcs, hread⟩ := exists_of_bind_ok hread
    exact ordered_ofItems (h.withChildren (orderedAll_ofChildren hcs)) hread
  | value :: rest, depth, place + 3, p, ending, d, h, hread => by cases hread

/-- The children that are read are ordered. -/
theorem orderedAll_ofChildren : ∀ {draft : Draft} {depth : Nat} {ds : List Document},
    ofChildren depth draft = .ok ds → OrderedAll ds
  | .list items ending, depth, ds, hread => by
    obtain ⟨_, -, hread⟩ := exists_of_bind_ok hread
    obtain ⟨ds', hds, hread⟩ := exists_of_bind_ok hread
    split at hread
    · cases hread
    · cases hread
      exact orderedAll_ofDrafts hds
  | .object _ _, _, _, hread => by cases hread
  | .unnamed, _, _, hread => by cases hread
  | .absent, _, _, hread => by cases hread
  | .broken _, _, _, hread => by cases hread
  | .null, _, _, hread => by cases hread
  | .bool _, _, _, hread => by cases hread
  | .number _, _, _, hread => by cases hread
  | .text _, _, _, hread => by cases hread

/-- The documents that are read are ordered. -/
theorem orderedAll_ofDrafts : ∀ {drafts : List Draft} {depth : Nat} {ds : List Document},
    ofDrafts depth drafts = .ok ds → OrderedAll ds
  | [], _, _, hread => by
    cases hread
    trivial
  | draft :: drafts, depth, ds, hread => by
    obtain ⟨d, hd, hread⟩ := exists_of_bind_ok hread
    obtain ⟨ds', hds, hread⟩ := exists_of_bind_ok hread
    cases hread
    exact ⟨ordered_ofDraft hd, orderedAll_ofDrafts hds⟩

end

/-- **What is read of a text is ordered**, whatever the text. -/
theorem ordered_ofJson {text : String} {d : Document} (hread : ofJson text = .ok d) :
    d.Ordered := by
  obtain ⟨d', hd, hread⟩ := exists_of_bind_ok hread
  split at hread
  · cases hread
    exact ordered_ofDraft hd
  · cases hread

/-! ## §3. No numbers -/

theorem exact_attributeMembers (as : Named String) : ExactMembers (attributeMembers as) := by
  induction as with
  | nil => trivial
  | cons a as ih => exact ⟨trivial, ih⟩

mutual

/-- A document as JSON has no numbers. -/
theorem exact_toTree : ∀ d : Document, d.toTree.Exact
  | mk _ as [] => ⟨trivial, exact_attributeMembers as, trivial⟩
  | mk _ as (c :: cs) =>
    ⟨trivial, exact_attributeMembers as, ⟨exact_toTree c, exact_toTrees cs⟩, trivial⟩

/-- Documents as JSON have no numbers. -/
theorem exact_toTrees : ∀ ds : List Document, ExactItems (toTrees ds)
  | [] => trivial
  | d :: ds => ⟨exact_toTree d, exact_toTrees ds⟩

end

/-! ## §4. Reading members -/

/-- A kind is read by its type name. -/
theorem kindOf_typeName (depth : Nat) (k : Kind) :
    kindOf depth (Tree.text k.typeName).draft = .ok k := by
  cases k <;> rfl

theorem attributesFrom_drafts (sofar as : Named String) :
    attributesFrom sofar (memberDrafts (attributeMembers as))
      = .ok (as.foldl (fun m (n, s) => m.put n s) sofar) := by
  induction as generalizing sofar with
  | nil => rfl
  | cons a as ih => exact ih (sofar.put a.1 a.2)

/-- Sorted attributes are read as they are. -/
theorem attributesOf_draft {depth : Nat} (hdepth : 0 < depth) {as : Named String}
    (h : as.Sorted) :
    attributesOf (depth + 1) (Tree.object (attributeMembers as)).draft = .ok as := by
  rw [Tree.draft, attributesOf, enter_succ hdepth, attributesFrom_drafts]
  show Except.ok (Named.ofPairs as) = _
  rw [h.ofPairs_eq]

/-- Kind and attributes are the first two members. -/
theorem ofMembers_head {depth : Nat} (hdepth : 0 < depth) (k : Kind) {as : Named String}
    (h : as.Sorted) (rest : List (String × Tree)) :
    ofMembers (depth + 1) Parts.none (memberDrafts (("kind", .text k.typeName) ::
        ("attributes", .object (attributeMembers as)) :: rest))
      = ofMembers (depth + 1) ⟨some k, some as, none⟩ (memberDrafts rest) := by
  show (kindOf (depth + 1) (Tree.text k.typeName).draft >>= fun k =>
    ofMembers (depth + 1) ⟨some k, none, none⟩ (memberDrafts
      (("attributes", .object (attributeMembers as)) :: rest))) = _
  rw [kindOf_typeName]
  show (attributesOf (depth + 1) (Tree.object (attributeMembers as)).draft >>= fun as =>
    ofMembers (depth + 1) ⟨some k, some as, none⟩ (memberDrafts rest)) = _
  rw [attributesOf_draft hdepth h]
  rfl

/-! ## §5. Reading documents -/

theorem ofDraft_object {depth : Nat} (hdepth : 0 < depth) {ms : List (String × Tree)}
    {parts : Parts} (h : ofMembers depth Parts.none (memberDrafts ms) = .ok parts) :
    ofDraft (depth + 1) (Tree.object ms).draft = parts.document := by
  rw [Tree.draft, ofDraft, enter_succ hdepth]
  show (ofMembers depth Parts.none (memberDrafts ms) >>= fun parts => parts.document) = _
  rw [h]
  rfl

theorem ofChildren_list {depth : Nat} (hdepth : 0 < depth) {ts : List Tree} {ds : List Document}
    (h : ofDrafts depth (itemDrafts ts) = .ok ds) :
    ofChildren (depth + 1) (Tree.list ts).draft = .ok ds := by
  rw [Tree.draft, ofChildren, enter_succ hdepth]
  show (ofDrafts depth (itemDrafts ts) >>= fun ds => Except.ok ds) = _
  rw [h]
  rfl

mutual

/-- **What is read of a document as JSON is the document.**  It takes a level of nesting
for the document, one for its attributes, and two for each level of children. -/
theorem ofDraft_draft : ∀ {d : Document} {depth : Nat}, d.Ordered → 2 * d.levels + 3 ≤ depth →
    ofDraft depth d.toTree.draft = .ok d
  | mk k as [], depth + 2, ho, hd => by
    rw [levels, levelsBelow] at hd
    exact ofDraft_object (by omega) (ofMembers_head (by omega) k ho.1 [])
  | mk k as (c :: cs), depth + 2, ho, hd => by
    rw [levels] at hd
    -- one level is left for the list of the children, and one for each of them
    have hbelow : 1 ≤ levelsBelow (c :: cs) := by
      rw [levelsBelow]
      omega
    have hchildren : ofChildren (depth + 1) (Tree.list (toTrees (c :: cs))).draft = .ok (c :: cs) :=
      ofChildren_list (by omega) (ofDrafts_drafts ho.2 (by omega))
    have hmembers : ofMembers (depth + 1) Parts.none (memberDrafts [("kind", .text k.typeName),
        ("attributes", .object (attributeMembers as)), ("children", .list (toTrees (c :: cs)))])
          = .ok ⟨some k, some as, some (c :: cs)⟩ := by
      rw [ofMembers_head (by omega) k ho.1]
      show (ofChildren (depth + 1) (Tree.list (toTrees (c :: cs))).draft >>= fun cs =>
        Except.ok (Parts.mk (some k) (some as) (some cs))) = _
      rw [hchildren]
      rfl
    exact ofDraft_object (by omega) hmembers

/-- What is read of documents as JSON are the documents. -/
theorem ofDrafts_drafts : ∀ {ds : List Document} {depth : Nat}, OrderedAll ds →
    2 * levelsBelow ds + 1 ≤ depth → ofDrafts depth (itemDrafts (toTrees ds)) = .ok ds
  | [], _, _, _ => rfl
  | d :: ds, depth, ho, hd => by
    rw [levelsBelow] at hd
    rw [toTrees, itemDrafts, ofDrafts, ofDraft_draft ho.1 (by omega), ofDrafts_drafts ho.2 (by omega)]
    rfl

end

/-! ## §6. Reading texts -/

/-- **A document is read back from its text**, whatever its names and values hold, if its
children nest at most 60 levels deep. -/
theorem ofJson_toJson_of_levels_le {d : Document} (ho : d.Ordered) (hlevels : d.levels ≤ 60) :
    ofJson d.toJson = .ok d := by
  have hdraft : ofDraft depthLimit d.toTree.draft = .ok d :=
    ofDraft_draft ho (by rw [depthLimit]; omega)
  rw [ofJson, toJson, draftOf_renderIndented (exact_toTree d)]
  show (ofDraft depthLimit d.toTree.draft >>= fun d => Except.ok d) = _
  rw [hdraft]
  rfl

/-- A document with a chain of documents below it, all with the same attributes. -/
def chained (as : Named String) : Nat → Document
  | 0 => mk .table as []
  | n + 1 => mk .system as [chained as n]

theorem levels_chained (as : Named String) (n : Nat) : (chained as n).levels = n := by
  induction n with
  | zero => rfl
  | succ n ih =>
    show max ((chained as n).levels + 1) 0 = n + 1
    rw [ih]
    exact Nat.max_zero _

theorem ordered_chained {as : Named String} (h : as.Sorted) (n : Nat) : (chained as n).Ordered := by
  induction n with
  | zero => exact ⟨h, trivial⟩
  | succ n ih => exact ⟨h, ih, trivial⟩

/-- Names and values in need of escapes, from the whole of Unicode. -/
def awkward : Named String :=
  [("", "\u0000\u001f\u007f"), ("\"a\\", "line\nnext\ttab\r"), ("\x7b\x7d[],:", "null"), ("é", "\u2028"),
    ("🏠", "")]

theorem ofJson_toJson_chained :
    (chained awkward 60).Ordered ∧ (chained awkward 60).levels ≤ 60 ∧
      ofJson (chained awkward 60).toJson = .ok (chained awkward 60) := by
  have ho : (chained awkward 60).Ordered := ordered_chained (by unfold Named.Sorted; decide) 60
  have hlevels : (chained awkward 60).levels ≤ 60 := Nat.le_of_eq (levels_chained awkward 60)
  exact ⟨ho, hlevels, ofJson_toJson_of_levels_le ho hlevels⟩

end ListingMetadata.Document
