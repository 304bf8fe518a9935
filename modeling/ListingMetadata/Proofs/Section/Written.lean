/-
  ListingMetadata.Proofs.Section.Written
  ──────────────────────────────────────
  **AN OUTPUT IS WHAT IS WRITTEN FOR ITS PIECES.**

  The two forms are written by walks of their own: the compact one lists all
  entities of a section before it goes below them, the other goes below each
  entity before it comes to the next.  In both, what is written for the pieces
  at a spot and below it are the sections at the spot, and the entities written
  in them are those listed there and all that is resolved below them:

    • `text_pieces`      — the sections at a spot,
    • `toList_format`    — an output,
    • `everyone_pieces`  — the entities that are written.
-/
import ListingMetadata.Proofs.Section.Pieces
import Mathlib.Data.List.Perm.Basic

namespace ListingMetadata

/-! ## §1. An entity and all below it -/

namespace Entity

/-- An entity and all that is resolved below it. -/
def everyone : Entity → List Entity :=
  fold fun h results =>
    mk h (results.map Prod.fst)
      :: h.kind.childKinds.flatMap fun k => (resolvedResults h results k).flatten

theorem map_fst_foldAll {α : Type} (f : Head → List (Entity × α) → α) (cs : List Entity) :
    (foldAll f cs).map Prod.fst = cs := by
  rw [foldAll_eq_map, List.map_map]
  exact List.map_id cs

theorem everyone_eq (e : Entity) :
    e.everyone = e :: e.kind.childKinds.flatMap fun k => (e.resolved k).flatMap everyone := by
  unfold everyone
  rw [fold_eq]
  simp only [resolvedResults_foldAll, List.flatMap_def, map_fst_foldAll]
  cases e
  rfl

end Entity

/-! ## §2. Numbers of a section -/

/-- Going through numbers is going through what has them. -/
theorem flatMap_range_length {α β : Type} {l : List α} {f : Nat → List β} {g : α → List β}
    (h : ∀ i x, l[i]? = some x → f i = g x) : (List.range l.length).flatMap f = l.flatMap g := by
  induction l generalizing f with
  | nil => rfl
  | cons x l ih =>
    rw [List.length_cons, List.range_succ_eq_map, List.flatMap_cons, List.flatMap_map,
      List.flatMap_cons, h 0 x rfl, ih]
    intro i y hy
    exact h (i + 1) y hy

theorem flatten_filterMap {α β : Type} (f : α → Option (List β)) (l : List α) :
    (l.filterMap f).flatten = l.flatMap fun x => (f x).getD [] := by
  induction l with
  | nil => rfl
  | cons x l ih =>
    rw [List.flatMap_cons, ← ih]
    cases hx : f x with
    | none => simp [hx]
    | some y => simp [hx]

/-! ## §3. The text of the pieces -/

namespace Batch

/-- The section of a kind at a spot as the writers make it; nothing if there are
no entities. -/
def sectionText (b : Batch) (mode : Mode) (s : Spot) (k : Kind) : List Char :=
  ((Section.ofRecords? k (b.contextAt s)
      ((b.listed s k).map fun e => e.record (b.contextAt s))).map (Section.text mode)).getD []

/-- What is embedded in the record of an entity are the sections at its spot. -/
theorem embedded_record {b : Batch} {s : Spot} {k : Kind} {i : Nat} {e : Entity}
    (h : b.entity? ((k, i) :: s) = some e) (mode : Mode) :
    ((e.record (b.contextAt s)).embedded.map (Section.text mode)).flatten
      = (b.kinds ((k, i) :: s)).flatMap (b.sectionText mode ((k, i) :: s)) := by
  rw [Entity.record_eq, kinds_of_entity h]
  show ((List.filterMap _ _).map _).flatten = _
  rw [List.map_filterMap, flatten_filterMap]
  apply List.flatMap_congr
  intro j hj
  unfold sectionText
  rw [contextAt_of_entity h, listed_of_entity h hj]

section

variable {b : Batch} {s : Spot} {k : Kind} {below : Nat → List Piece}

theorem sectionText_of_ne (h : b.listed s k ≠ []) (mode : Mode) :
    b.sectionText mode s k
      = (Section.mk k (b.contextAt s)
          ((b.listed s k).map fun e => e.record (b.contextAt s))).text mode := by
  unfold sectionText
  cases hes : b.listed s k with
  | nil => exact absurd hes h
  | cons e es => rfl

theorem text_entity {p : Place} {i : Nat} {e : Entity} (mode : Mode)
    (h : b.entity? (p.seat i) = some e) :
    b.text mode (.entity p i) = b.entityText mode p e.head := by
  simp only [text, h]

/-- What is written for the entities of a section, one after the other. -/
theorem flatMap_entity (b : Batch) (mode : Mode) (p : Place) :
    ((List.range (b.listed p.above p.kind).length).flatMap fun i => b.text mode (.entity p i))
      = (b.listed p.above p.kind).flatMap fun e => b.entityText mode p e.head := by
  apply flatMap_range_length
  intro i e he
  exact text_entity mode he

/-- In compact form the header and the entities are what opens a section and its
rows. -/
theorem opening_append_rows (b : Batch) (p : Place) :
    b.openingText .compact p
        ++ ((b.listed p.above p.kind).flatMap fun e => b.entityText .compact p e.head)
      = Compact.opening p.kind (b.contextAt p.above)
        ++ Compact.rows p.kind (b.contextAt p.above)
          ((b.listed p.above p.kind).map Entity.head) := by
  unfold openingText entityText Compact.rows
  rw [Compact.opening_eq_tag]
  by_cases hk : p.kind = .system
  · simp [hk, List.flatMap_map]
  · simp only [if_neg hk, Compact.table, columnsAt, List.flatMap_map, List.append_assoc]

theorem compactEmbedded_eq (rs : List Record) : compactEmbedded rs = rs.flatMap Record.compact := by
  induction rs with
  | nil => rfl
  | cons r rs ih =>
    rw [List.flatMap_cons, ← ih]
    rfl

/-- A compact section, if what stands below its entities is what they embed. -/
theorem text_compact_place (hes : b.listed s k ≠ [])
    (h : ∀ i e, (b.listed s k)[i]? = some e → (below i).flatMap (b.text .compact)
      = ((e.record (b.contextAt s)).embedded.map (Section.text .compact)).flatten) :
    (Place.pieces .compact ⟨k, s⟩ (b.listed s k).length below).flatMap (b.text .compact)
      = b.sectionText .compact s k := by
  have hcount : (b.listed s k).length ≠ 0 := by simpa using hes
  have hembedded : (List.range (b.listed s k).length).flatMap
        (fun i => (below i).flatMap (b.text .compact))
      = compactEmbedded ((b.listed s k).map fun e => e.record (b.contextAt s)) := by
    rw [compactEmbedded_eq, List.flatMap_map]
    apply flatMap_range_length
    intro i e he
    rw [h i e he, Record.compact_eq]
  have hrows := flatMap_entity b .compact ⟨k, s⟩
  have hopening := opening_append_rows b ⟨k, s⟩
  rw [sectionText_of_ne hes]
  show _ = Compact.opening k (b.contextAt s) ++ Compact.rows k (b.contextAt s) _
    ++ compactEmbedded _ ++ Compact.closing k
  rw [Entity.map_head_record, ← hopening, ← hrows, ← hembedded]
  unfold Place.pieces
  rw [if_neg hcount]
  simp only [List.flatMap_cons, List.flatMap_append, List.flatMap_map, List.flatMap_assoc,
    List.flatMap_nil, List.append_nil, List.append_assoc]
  rfl

/-- A section as XML, likewise. -/
theorem text_standard_place (hes : b.listed s k ≠ [])
    (h : ∀ i e, (b.listed s k)[i]? = some e → (below i).flatMap (b.text .standard)
      = ((e.record (b.contextAt s)).embedded.map (Section.text .standard)).flatten) :
    (Place.pieces .standard ⟨k, s⟩ (b.listed s k).length below).flatMap (b.text .standard)
      = b.sectionText .standard s k := by
  have hcount : (b.listed s k).length ≠ 0 := by simpa using hes
  have hrecords : (List.range (b.listed s k).length).flatMap (fun i =>
        b.text .standard (.entity ⟨k, s⟩ i) ++ ((below i).flatMap (b.text .standard)
          ++ b.text .standard (.ending ⟨k, s⟩ i)))
      = standardRecords k (b.contextAt s)
          ((b.listed s k).map fun e => e.record (b.contextAt s)) := by
    rw [standardRecords_map]
    apply flatMap_range_length
    intro i e he
    have hentity : b.entity? (Place.seat ⟨k, s⟩ i) = some e := he
    have hbegin : b.text .standard (.entity ⟨k, s⟩ i)
        = Standard.openTag k.elementName ++ ['\n'] ++ Standard.cells (b.contextAt s) e.head :=
      text_entity .standard hentity
    have hend : b.text .standard (.ending ⟨k, s⟩ i)
        = Standard.closeTag k.elementName ++ ['\n'] := rfl
    rw [hbegin, hend, h i e he, standardSections_eq]
    simp only [List.append_assoc]
  rw [sectionText_of_ne hes]
  show _ = Standard.opening k (b.contextAt s) ++ standardRecords k (b.contextAt s) _
    ++ Compact.closing k
  rw [← hrecords, Standard.opening_eq_tag]
  unfold Place.pieces
  rw [if_neg hcount]
  simp only [List.flatMap_cons, List.flatMap_append, List.flatMap_assoc,
    List.flatMap_nil, List.append_nil, List.append_assoc]
  simp only [text, openingText, List.append_nil]

/-- A section in either form; nobody listed makes none. -/
theorem text_place {mode : Mode}
    (h : ∀ i e, (b.listed s k)[i]? = some e → (below i).flatMap (b.text mode)
      = ((e.record (b.contextAt s)).embedded.map (Section.text mode)).flatten) :
    (Place.pieces mode ⟨k, s⟩ (b.listed s k).length below).flatMap (b.text mode)
      = b.sectionText mode s k := by
  by_cases hes : b.listed s k = []
  · unfold Place.pieces sectionText
    rw [hes]
    rfl
  · cases mode with
    | compact => exact text_compact_place hes h
    | standard => exact text_standard_place hes h

end

/-- **What is written for the pieces at a spot and below it are the sections at
the spot.** -/
theorem text_pieces (b : Batch) (mode : Mode) (s : Spot) :
    (b.pieces mode s).flatMap (b.text mode) = (b.kinds s).flatMap (b.sectionText mode s) := by
  -- on the spots: what is embedded for an entity are the sections one spot down
  induction s using Batch.induct (b := b) with
  | bare s hs =>
    rw [pieces_of_kinds_nil hs, hs]
    rfl
  | step s ih =>
    rw [pieces_eq, List.flatMap_assoc]
    apply List.flatMap_congr
    intro k _
    apply text_place
    intro i e he
    rw [ih k i, embedded_record he]

theorem toList_format (b : Batch) (mode : Mode) :
    (format b.kind mode b.context b.entities).toList
      = (b.pieces mode []).flatMap (b.text mode) := by
  have hlisted : b.listed [] b.kind = b.entities.filter fun e => decide (e.kind = b.kind) :=
    if_pos rfl
  have hkinds : b.kinds [] = [b.kind] := rfl
  rw [text_pieces, hkinds, List.flatMap_singleton]
  have hsection : b.sectionText mode [] b.kind
      = ((Section.of? b.kind b.context b.entities).map (Section.text mode)).getD [] := by
    unfold sectionText Section.of?
    rw [hlisted]
    rfl
  rw [hsection]
  unfold format
  cases Section.of? b.kind b.context b.entities with
  | none => rfl
  | some s => exact String.toList_ofList

/-! ## §4. The entities that are written -/

/-- The entity that a piece is the row or the element of. -/
def written? (b : Batch) : Piece → Option Entity
  | .entity p i => b.entity? (p.seat i)
  | _ => none

section

variable {b : Batch} {s : Spot} {k : Kind} {below : Nat → List Piece}

/-- Rows that stand together, or each before what is embedded for it: the same
entities are written. -/
theorem written_place {mode : Mode} {p : Place} {count : Nat} :
    ((p.pieces mode count below).filterMap b.written?).Perm
      ((List.range count).flatMap fun i =>
        (b.entity? (p.seat i)).toList ++ (below i).filterMap b.written?) := by
  unfold Place.pieces
  split
  · rename_i hcount
    rw [hcount]
    exact List.Perm.nil
  · simp only [List.filterMap_eq_flatMap_toList]
    cases mode with
    | compact =>
      have hall := List.flatMap_append_perm (List.range count)
        (fun i => (b.entity? (p.seat i)).toList) fun i => (below i).flatMap fun m =>
          (b.written? m).toList
      simpa [written?, List.flatMap_map, List.flatMap_assoc] using hall
    | standard =>
      apply List.Perm.of_eq
      simp [written?, List.flatMap_assoc]

/-- Who is written in a section, if below each of its entities everyone else is. -/
theorem everyone_place {mode : Mode}
    (h : ∀ i e, (b.listed s k)[i]? = some e → ((below i).filterMap b.written?).Perm
      (e.kind.childKinds.flatMap fun j => (e.resolved j).flatMap Entity.everyone)) :
    ((Place.pieces mode ⟨k, s⟩ (b.listed s k).length below).filterMap b.written?).Perm
      ((b.listed s k).flatMap Entity.everyone) := by
  refine written_place.trans ?_
  -- number by number, what is looked up under the number in place of the entity
  have hnumber : ∀ i ∈ List.range (b.listed s k).length,
      ((b.entity? (Place.seat ⟨k, s⟩ i)).toList ++ (below i).filterMap b.written?).Perm
        (((b.listed s k)[i]?.toList).flatMap Entity.everyone) := by
    intro i hi
    have he := List.getElem?_eq_getElem (List.mem_range.mp hi)
    have hentity : b.entity? (Place.seat ⟨k, s⟩ i) = some _ := he
    rw [hentity, he, Option.toList_some, List.flatMap_singleton, Entity.everyone_eq]
    exact (h i _ he).cons _
  refine (List.Perm.flatMap_left _ hnumber).trans (.of_eq ?_)
  apply flatMap_range_length
  intro i e he
  rw [he, Option.toList_some, List.flatMap_singleton]

end

/-- **Of the sections at a spot everyone is written.** -/
theorem everyone_pieces (b : Batch) (mode : Mode) (s : Spot) :
    ((b.pieces mode s).filterMap b.written?).Perm
      ((b.kinds s).flatMap fun k => (b.listed s k).flatMap Entity.everyone) := by
  induction s using Batch.induct (b := b) with
  | bare s hs =>
    rw [pieces_of_kinds_nil hs, hs]
    exact List.Perm.nil
  | step s ih =>
    rw [pieces_eq, List.filterMap_flatMap]
    apply List.Perm.flatMap_left
    intro k _
    apply everyone_place
    intro i e he
    have hentity : b.entity? ((k, i) :: s) = some e := he
    have hbelow := ih k i
    rw [kinds_of_entity hentity] at hbelow
    refine hbelow.trans (.of_eq ?_)
    apply List.flatMap_congr
    intro j hj
    rw [listed_of_entity hentity hj]

end Batch

end ListingMetadata
