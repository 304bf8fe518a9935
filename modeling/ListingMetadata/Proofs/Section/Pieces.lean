/-
  ListingMetadata.Proofs.Section.Pieces
  ────────────────────────────────────
  **THE PIECES OF AN OUTPUT, EACH WITH ITS SECTION.**

  An output is cut into pieces: a section is opened, an entity of it is written,
  its element is ended where it has one, the section is closed.  In compact
  form all rows of a section stand before what is embedded for them; as XML
  what is embedded for an entity stands in its element:

      compact    opening  entity 0  entity 1  <below 0>  <below 1>  closing
      standard   opening  entity 0  <below 0>  ending 0  ...  closing

    • `Batch.text`      — what is written for a piece,
    • `Piece.step`       — where a piece may stand among the open tags,
    • `Batch.pieces`     — the pieces below a spot, one section at a time,
    • `stays_pieces`     — tags are closed where they were opened,
    • `filter_pieces`    — for each spot, the sections and entities that it has.
-/
import ListingMetadata.Proofs.Entity.Census
import ListingMetadata.Proofs.Section.Headers
import ListingMetadata.Proofs.Section.Places
import Mathlib.Data.List.Nodup

namespace ListingMetadata

/-! ## §1. Pieces and what is written for them -/

/-- A piece of an output: a section is opened, an entity is written by its number
in the section, its element is ended, the section is closed. -/
inductive Piece where
  | opening (p : Place)
  | entity (p : Place) (i : Nat)
  | ending (p : Place) (i : Nat)
  | closing (p : Place)
deriving DecidableEq, Repr

/-- The section that a piece belongs to. -/
def Piece.place : Piece → Place
  | opening p => p
  | entity p _ => p
  | ending p _ => p
  | closing p => p

namespace Batch

/-- The columns of a compact section are those of its first entity. -/
def columnsAt (b : Batch) (p : Place) : List Column :=
  Compact.columnsOf ((b.listed p.above p.kind).map Entity.head)

/-- The tag of a section with its header; in compact form then a line of column
names, but for systems. -/
def openingText (b : Batch) (mode : Mode) (p : Place) : List Char :=
  mode.tag p.kind ((b.contextAt p.above).attributes p.kind)
    ++ match mode with
      | .compact =>
        if p.kind = .system then [] else Compact.line "COLUMNS" ((b.columnsAt p).map Column.name)
      | .standard => []

/-- The row of an entity, the tag of a system, or the begin of an element with
the cells of the entity. -/
def entityText (b : Batch) (mode : Mode) (p : Place) (h : Head) : List Char :=
  match mode with
  | .compact =>
    if p.kind = .system then Compact.systemTag h
    else Compact.line "DATA" ((b.columnsAt p).map ((b.contextAt p.above).cell h))
  | .standard =>
    Standard.openTag p.kind.elementName ++ ['\n'] ++ Standard.cells (b.contextAt p.above) h

/-- What is written for a piece. -/
def text (b : Batch) (mode : Mode) : Piece → List Char
  | .opening p => b.openingText mode p
  | .entity p i =>
    match b.entity? (p.seat i) with
    | some e => b.entityText mode p e.head
    | none => []
  | .ending p _ => Standard.closeTag p.kind.elementName ++ ['\n']
  | .closing p => Compact.closing p.kind

end Batch

/-! ## §2. Where a piece may stand -/

/-- A tag that is open: of a section or of an entity's element. -/
inductive Frame where
  | section (p : Place)
  | element (p : Place) (i : Nat)
deriving DecidableEq, Repr

/-- The innermost open tag where sections are embedded for the entity of a spot:
the section of the entity in compact form, its element as XML, and none at the
top. -/
def Mode.holder (mode : Mode) : Spot → Option Frame
  | [] => none
  | (k, i) :: s =>
    match mode with
    | compact => some (.section ⟨k, s⟩)
    | standard => some (.element ⟨k, s⟩ i)

/-- The open tags after a piece, the innermost first, if it may stand there: a
section where its entity holds it, an entity and its end in their section. -/
def Piece.step (mode : Mode) (frames : List Frame) : Piece → Option (List Frame)
  | opening p =>
    if frames.head? = mode.holder p.above then some (.section p :: frames) else none
  | entity p i =>
    if frames.head? = some (.section p) then
      match mode with
      | .compact => some frames
      | .standard => some (.element p i :: frames)
    else none
  | ending p i => if frames.head? = some (.element p i) then some frames.tail else none
  | closing p => if frames.head? = some (.section p) then some frames.tail else none

/-! ## §3. Pieces in order -/

/-- The pieces of a section of some entities, with what is embedded for each of
them; no pieces for no entities. -/
def Place.pieces (mode : Mode) (p : Place) (count : Nat) (below : Nat → List Piece) : List Piece :=
  if count = 0 then []
  else
    .opening p ::
      ((match mode with
        | .compact =>
          (List.range count).map (Piece.entity p) ++ (List.range count).flatMap below
        | .standard =>
          (List.range count).flatMap fun i => Piece.entity p i :: (below i ++ [.ending p i]))
      ++ [.closing p])

/-- The pieces of the sections that are embedded for an entity at a spot. -/
def Entity.pieces (mode : Mode) : Entity → Spot → List Piece :=
  fold fun h results s =>
    h.kind.childKinds.flatMap fun k =>
      let belows := resolvedResults h results k
      Place.pieces mode ⟨k, s⟩ belows.length fun i =>
        match belows[i]? with
        | some below => below ((k, i) :: s)
        | none => []

namespace Batch

/-- The pieces of all sections at a spot and below it. -/
def pieces (b : Batch) (mode : Mode) (s : Spot) : List Piece :=
  (b.kinds s).flatMap fun k =>
    Place.pieces mode ⟨k, s⟩ (b.listed s k).length fun i =>
      match (b.listed s k)[i]? with
      | some e => e.pieces mode ((k, i) :: s)
      | none => []

theorem pieces_of_kinds_nil {b : Batch} {mode : Mode} {s : Spot} (h : b.kinds s = []) :
    b.pieces mode s = [] := by
  unfold pieces
  rw [h]
  rfl

theorem pieces_of_entity {b : Batch} {mode : Mode} {s : Spot} {e : Entity}
    (h : b.entity? s = some e) : b.pieces mode s = e.pieces mode s := by
  unfold pieces Entity.pieces
  rw [Entity.fold_eq, kinds_of_entity h]
  apply List.flatMap_congr
  intro k hk
  rw [listed_of_entity h hk, Entity.resolvedResults_foldAll]
  simp only [List.length_map, List.getElem?_map]
  congr 1
  funext i
  cases (e.resolved k)[i]? <;> rfl

/-- **The sections at a spot, each with what is embedded for its entities.** -/
theorem pieces_eq (b : Batch) (mode : Mode) (s : Spot) :
    b.pieces mode s
      = (b.kinds s).flatMap fun k =>
          Place.pieces mode ⟨k, s⟩ (b.listed s k).length fun i => b.pieces mode ((k, i) :: s) := by
  have hbelow : ∀ k i, b.pieces mode ((k, i) :: s)
      = match (b.listed s k)[i]? with
        | some e => e.pieces mode ((k, i) :: s)
        | none => [] := by
    intro k i
    cases h : (b.listed s k)[i]? with
    | none =>
      have hnone : b.entity? ((k, i) :: s) = none := h
      exact pieces_of_kinds_nil (kinds_of_none hnone)
    | some e => exact pieces_of_entity (s := (k, i) :: s) h
  simp only [hbelow]
  rfl

end Batch

/-! ## §4. Open tags -/

/-- Some pieces, written inside open tags, leave these tags open and no other. -/
def Stays (mode : Mode) (frames : List Frame) (ps : List Piece) : Prop :=
  ps.foldlM (Piece.step mode) frames = some frames

namespace Stays

variable {mode : Mode} {frames : List Frame}

theorem append {ps qs : List Piece} (hps : Stays mode frames ps) (hqs : Stays mode frames qs) :
    Stays mode frames (ps ++ qs) := by
  unfold Stays at *
  rw [List.foldlM_append, hps]
  exact hqs

theorem flatMap {α : Type} {l : List α} {f : α → List Piece}
    (h : ∀ x ∈ l, Stays mode frames (f x)) : Stays mode frames (l.flatMap f) := by
  induction l with
  | nil => rfl
  | cons x l ih =>
    rw [List.flatMap_cons]
    exact (h x List.mem_cons_self).append (ih fun y hy => h y (List.mem_cons_of_mem x hy))

/-- What is opened, kept open by what stands inside, and closed again. -/
theorem around {first last : Piece} {frame : Frame} {ps : List Piece}
    (hfirst : first.step mode frames = some (frame :: frames))
    (hps : Stays mode (frame :: frames) ps)
    (hlast : last.step mode (frame :: frames) = some frames) :
    Stays mode frames (first :: (ps ++ [last])) := by
  unfold Stays at *
  rw [List.foldlM_cons, hfirst]
  show (ps ++ [last]).foldlM (Piece.step mode) (frame :: frames) = some frames
  rw [List.foldlM_append, hps]
  show [last].foldlM (Piece.step mode) (frame :: frames) = some frames
  rw [List.foldlM_cons, hlast]
  rfl

/-- A section stays where it is opened, if what is embedded for each of its
entities does. -/
theorem place {p : Place} {count : Nat} {below : Nat → List Piece}
    (hframes : frames.head? = mode.holder p.above)
    (hbelow : ∀ i inner, inner.head? = mode.holder (p.seat i) → Stays mode inner (below i)) :
    Stays mode frames (p.pieces mode count below) := by
  have hopening : Piece.step mode frames (.opening p) = some (.section p :: frames) :=
    if_pos hframes
  have hclosing : Piece.step mode (.section p :: frames) (.closing p) = some frames := if_pos rfl
  unfold Place.pieces
  split
  · rfl
  · refine around hopening ?_ hclosing
    cases mode with
    | compact =>
      apply append
      · -- rows open nothing
        rw [List.map_eq_flatMap]
        apply flatMap
        intro i _
        show Stays .compact (.section p :: frames) [.entity p i]
        unfold Stays
        rw [List.foldlM_cons]
        simp [Piece.step]
      · exact flatMap fun i _ => hbelow i (.section p :: frames) rfl
    | standard =>
      apply flatMap
      intro i _
      have hbegin : Piece.step .standard (.section p :: frames) (.entity p i)
          = some (.element p i :: .section p :: frames) := if_pos rfl
      have hend : Piece.step .standard (.element p i :: .section p :: frames) (.ending p i)
          = some (.section p :: frames) := if_pos rfl
      exact around hbegin (hbelow i _ rfl) hend

end Stays

/-- **Inside the tag that holds it, all that is embedded for an entity leaves the
open tags as they were.** -/
theorem Batch.stays_pieces (b : Batch) (mode : Mode) (s : Spot) :
    ∀ frames : List Frame, frames.head? = mode.holder s → Stays mode frames (b.pieces mode s) := by
  induction s using Batch.induct (b := b) with
  | bare s hs =>
    intro frames _
    rw [pieces_of_kinds_nil hs]
    rfl
  | step s ih =>
    intro frames hframes
    rw [pieces_eq]
    apply Stays.flatMap
    intro k _
    exact Stays.place hframes fun i inner hinner => ih k i inner hinner

/-! ## §5. The pieces of one spot -/

/-- Of distinct elements one at most is the one that counts. -/
theorem flatMap_pick {α β : Type} [DecidableEq α] {l : List α} (hl : l.Nodup) (a : α)
    (out : List β) :
    (l.flatMap fun x => if x = a then out else []) = if a ∈ l then out else [] := by
  induction l with
  | nil => rfl
  | cons x l ih =>
    obtain ⟨hx, hl⟩ := List.nodup_cons.mp hl
    rw [List.flatMap_cons, ih hl]
    by_cases hxa : x = a
    · subst hxa
      simp [hx]
    · simp [hxa, Ne.symm hxa]

theorem eq_of_cons_suffix {α : Type} {x y : α} {s t : List α} (hx : x :: s <:+ t) (hy : y :: s <:+ t) :
    x = y := by
  have hsame : x :: s <:+ y :: s := List.suffix_of_suffix_length_le hx hy (Nat.le_refl _)
  exact (List.cons.inj (hsame.eq_of_length rfl)).1

/-- Between a spot and one further down stands an entity of the first. -/
theorem exists_cons_suffix {α : Type} {s t : List α} (hst : s <:+ t) (hne : s ≠ t) :
    ∃ x, x :: s <:+ t := by
  obtain ⟨r, rfl⟩ := hst
  rcases List.eq_nil_or_concat r with rfl | ⟨r, x, rfl⟩
  · exact absurd rfl hne
  · exact ⟨x, r, by simp⟩

namespace Place

variable {mode : Mode} {p : Place} {count : Nat} {below : Nat → List Piece} {q : Piece → Bool}

/-- Where the pieces of a section count, so do those of them below that do. -/
theorem filter_pieces_of_pos (hq : ∀ m : Piece, m.place = p → q m = true) :
    (p.pieces mode count below).filter q = p.pieces mode count fun i => (below i).filter q := by
  have hopening : q (.opening p) = true := hq _ rfl
  have hentity : ∀ i, q (.entity p i) = true := fun i => hq _ rfl
  have hending : ∀ i, q (.ending p i) = true := fun i => hq _ rfl
  have hclosing : q (.closing p) = true := hq _ rfl
  unfold pieces
  split
  · rfl
  · cases mode <;>
      simp [List.filter_flatMap, List.filter_map, Function.comp_def, hopening, hentity, hending,
        hclosing]

/-- Where they do not count, those below do. -/
theorem filter_pieces_of_neg (hq : ∀ m : Piece, m.place = p → q m = false) :
    (p.pieces mode count below).filter q
      = (List.range count).flatMap fun i => (below i).filter q := by
  have hopening : q (.opening p) = false := hq _ rfl
  have hentity : ∀ i, q (.entity p i) = false := fun i => hq _ rfl
  have hending : ∀ i, q (.ending p i) = false := fun i => hq _ rfl
  have hclosing : q (.closing p) = false := hq _ rfl
  unfold pieces
  split
  · rename_i hzero
    rw [hzero]
    rfl
  · cases mode <;>
      simp [List.filter_flatMap, List.filter_map, Function.comp_def, hopening, hentity, hending,
        hclosing]

end Place

namespace Batch

/-- The sections and entities of a spot alone, with nothing embedded. -/
def ownPieces (b : Batch) (mode : Mode) (s : Spot) : List Piece :=
  (b.kinds s).flatMap fun k => Place.pieces mode ⟨k, s⟩ (b.listed s k).length fun _ => []

theorem ownPieces_of_kinds_nil {b : Batch} {mode : Mode} {s : Spot} (h : b.kinds s = []) :
    b.ownPieces mode s = [] := by
  unfold ownPieces
  rw [h]
  rfl

/-- Of the entities at a spot one is on the way to a spot further down, if there
is anything at that spot. -/
theorem flatMap_way {b : Batch} {mode : Mode} {s t : Spot} {k₀ : Kind} {i₀ : Nat}
    (hway : (k₀, i₀) :: s <:+ t) :
    ((b.kinds s).flatMap fun k => (List.range (b.listed s k).length).flatMap fun i =>
        if (k, i) :: s <:+ t then b.ownPieces mode t else [])
      = b.ownPieces mode t := by
  have hone : ∀ k i, (k, i) :: s <:+ t ↔ k = k₀ ∧ i = i₀ := by
    intro k i
    constructor
    · intro h
      exact Prod.mk.inj (eq_of_cons_suffix h hway)
    · rintro ⟨rfl, rfl⟩
      exact hway
  have hkind : ∀ k ∈ b.kinds s,
      ((List.range (b.listed s k).length).flatMap fun i =>
          if (k, i) :: s <:+ t then b.ownPieces mode t else [])
        = if k = k₀ then
            if i₀ ∈ List.range (b.listed s k₀).length then b.ownPieces mode t else []
          else [] := by
    intro k _
    simp only [hone]
    by_cases hk : k = k₀
    · subst hk
      simp only [true_and]
      exact flatMap_pick List.nodup_range i₀ (b.ownPieces mode t)
    · simp [hk]
  rw [List.flatMap_congr hkind, flatMap_pick (b.nodup_kinds s)]
  cases he : b.entity? ((k₀, i₀) :: s) with
  | none =>
    rw [ownPieces_of_kinds_nil (kinds_of_suffix (kinds_of_none he) hway)]
    simp
  | some e =>
    have hlisted : (b.listed s k₀)[i₀]? = some e := he
    have hk : k₀ ∈ b.kinds s := mem_kinds_of_mem_listed (List.mem_of_getElem? hlisted)
    have hi : i₀ ∈ List.range (b.listed s k₀).length :=
      List.mem_range.mpr (List.getElem?_eq_some_iff.mp hlisted).1
    rw [if_pos hk, if_pos hi]

/-- **Of the pieces below a spot those of another are its own, if it is below.** -/
theorem filter_pieces (b : Batch) (mode : Mode) (t s : Spot) :
    (b.pieces mode s).filter (fun m => decide (m.place.above = t))
      = if s <:+ t then b.ownPieces mode t else [] := by
  induction s using Batch.induct (b := b) with
  | bare s hs =>
    rw [pieces_of_kinds_nil hs]
    split
    · rename_i hst
      exact (ownPieces_of_kinds_nil (kinds_of_suffix hs hst)).symm
    · rfl
  | step s ih =>
    rw [pieces_eq, List.filter_flatMap]
    by_cases hs : s = t
    · -- the sections at the spot itself count, and nothing below does
      subst hs
      rw [if_pos (List.suffix_refl s)]
      apply List.flatMap_congr
      intro k _
      rw [Place.filter_pieces_of_pos fun m hm => by simp [hm]]
      congr 1
      funext i
      rw [ih k i, if_neg]
      intro hsuffix
      have hlength := hsuffix.length_le
      rw [List.length_cons] at hlength
      omega
    · have hbelow : ∀ k ∈ b.kinds s,
          (Place.pieces mode ⟨k, s⟩ (b.listed s k).length fun i =>
              b.pieces mode ((k, i) :: s)).filter (fun m => decide (m.place.above = t))
            = (List.range (b.listed s k).length).flatMap fun i =>
                if (k, i) :: s <:+ t then b.ownPieces mode t else [] := by
        intro k _
        rw [Place.filter_pieces_of_neg fun m hm => by simp [hm, hs]]
        simp only [ih]
      rw [List.flatMap_congr hbelow]
      by_cases hst : s <:+ t
      · obtain ⟨⟨k, i⟩, hway⟩ := exists_cons_suffix hst hs
        rw [if_pos hst, flatMap_way hway]
      · rw [if_neg hst, List.flatMap_eq_nil_iff]
        intro k _
        rw [List.flatMap_eq_nil_iff]
        intro i _
        rw [if_neg]
        intro hsuffix
        exact hst ((List.suffix_cons _ s).trans hsuffix)

end Batch

end ListingMetadata
