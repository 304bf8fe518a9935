/-
  ListingMetadata.Proofs.Section.Once
  ───────────────────────────────────
  **EVERY RESOLVED ENTITY IS WRITTEN ONCE, IN BOTH FORMS.**

  The pieces of an output show what is in it and where: which sections it has,
  which entities are written in them, inside which tags they stand, and that
  there is nothing else and nothing twice.  The sections of the two forms are
  the same:

    • `opened_pieces`    — the sections that are opened, whatever the form,
    • `nodup_pieces`     — no piece comes twice,
    • `mem_pieces`       — the pieces that an output has,
    • `Batch.WrittenAs`  — what it is for pieces to be those of an output,
    • `written_once`     — every output, in either form.
-/
import ListingMetadata.Proofs.Section.Written

namespace ListingMetadata

/-! ## §1. The sections that are opened -/

/-- The section that a piece opens. -/
def Piece.opened? : Piece → Option Place
  | opening p => some p
  | _ => none

theorem Piece.opened?_eq_some {m : Piece} {p : Place} (h : m.opened? = some p) :
    m = .opening p := by
  cases m with
  | opening q =>
    cases h
    rfl
  | _ => cases h

namespace Batch

end Batch

/-! ## §2. No piece comes twice -/

/-- Lists without repetition whose elements tell which of them they are from make
one without repetition. -/
theorem nodup_flatMap_of_tag {α β : Type} {l : List α} {f : α → List β} (hl : l.Nodup)
    (tag : β → α) (htag : ∀ x ∈ l, ∀ y ∈ f x, tag y = x) (hf : ∀ x ∈ l, (f x).Nodup) :
    (l.flatMap f).Nodup := by
  rw [List.nodup_flatMap]
  refine ⟨hf, ?_⟩
  apply hl.imp_of_mem
  intro x y hx hy hne z hzx hzy
  exact hne ((htag x hx z hzx).symm.trans (htag y hy z hzy))

/-- The number that a piece has in its section. -/
def Piece.number : Piece → Nat
  | entity _ i => i
  | ending _ i => i
  | _ => 0

namespace Place

variable {mode : Mode} {p : Place} {count : Nat} {m : Piece}

/-- The pieces of a section with nothing embedded. -/
theorem mem_pieces_alone :
    m ∈ p.pieces mode count (fun _ => []) ↔
      (count ≠ 0 ∧ (m = .opening p ∨ m = .closing p)) ∨
        ∃ i < count, m = .entity p i ∨ (mode = .standard ∧ m = .ending p i) := by
  unfold pieces
  split
  · rename_i hcount
    simp [hcount]
  · rename_i hcount
    cases mode <;> cases m <;> simp [hcount, eq_comm]

theorem place_of_mem_alone (h : m ∈ p.pieces mode count fun _ => []) : m.place = p := by
  rcases mem_pieces_alone.mp h with ⟨-, rfl | rfl⟩ | ⟨i, -, rfl | ⟨-, rfl⟩⟩ <;> rfl

theorem nodup_pieces_alone (mode : Mode) (p : Place) (count : Nat) :
    (p.pieces mode count fun _ => []).Nodup := by
  unfold pieces
  split
  · exact List.nodup_nil
  · cases mode with
    | compact =>
      have hrows : ((List.range count).map (Piece.entity p)).Nodup :=
        List.nodup_range.map fun i j h => (Piece.entity.inj h).2
      have hnone : ((List.range count).flatMap fun _ => ([] : List Piece)) = [] := by simp
      simp [List.nodup_append, hrows, hnone]
    | standard =>
      have helements : ((List.range count).flatMap fun i =>
          [Piece.entity p i, .ending p i]).Nodup := by
        apply nodup_flatMap_of_tag List.nodup_range Piece.number
        · intro i _ m hm
          rcases List.mem_pair.mp hm with rfl | rfl <;> rfl
        · intro i _
          simp
      have hinner : ∀ m : Piece, ∀ i < count, m = .entity p i ∨ m = .ending p i →
          m ≠ .closing p := by
        rintro m i - (rfl | rfl) <;> simp
      simpa [List.nodup_append, helements] using hinner

end Place

namespace Batch

variable {b : Batch} {mode : Mode} {m : Piece}

theorem nodup_ownPieces (b : Batch) (mode : Mode) (s : Spot) : (b.ownPieces mode s).Nodup := by
  apply nodup_flatMap_of_tag (b.nodup_kinds s) fun m => m.place.kind
  · intro k _ m hm
    rw [Place.place_of_mem_alone hm]
  · intro k _
    exact Place.nodup_pieces_alone mode ⟨k, s⟩ _

/-- The pieces of a spot are its own. -/
theorem filter_top (b : Batch) (mode : Mode) (s : Spot) :
    (b.pieces mode []).filter (fun m => decide (m.place.above = s)) = b.ownPieces mode s := by
  rw [filter_pieces, if_pos List.nil_suffix]

/-- **No piece comes twice.** -/
theorem nodup_pieces (b : Batch) (mode : Mode) : (b.pieces mode []).Nodup := by
  rw [List.nodup_iff_count_le_one]
  intro m
  have hcount : ((b.pieces mode []).filter fun n => decide (n.place.above = m.place.above)).count m
      = (b.pieces mode []).count m := List.count_filter (by simp)
  rw [← hcount, filter_top]
  exact List.nodup_iff_count_le_one.mp (b.nodup_ownPieces mode m.place.above) m

/-- **The pieces of a section are those of the entities that it lists.** -/
theorem mem_pieces :
    m ∈ b.pieces mode [] ↔
      m ∈ m.place.pieces mode (b.listed m.place.above m.place.kind).length fun _ => [] := by
  have hown : m ∈ b.pieces mode [] ↔ m ∈ b.ownPieces mode m.place.above := by
    rw [← filter_top, List.mem_filter]
    simp
  rw [hown]
  unfold ownPieces
  rw [List.mem_flatMap]
  constructor
  · rintro ⟨k, -, hm⟩
    have hplace := Place.place_of_mem_alone hm
    rw [hplace]
    exact hm
  · intro hm
    refine ⟨m.place.kind, ?_, hm⟩
    -- a section with pieces lists somebody, so its kind is one of the spot
    cases hes : b.listed m.place.above m.place.kind with
    | nil =>
      rw [hes] at hm
      cases hm
    | cons e es => exact mem_kinds_of_mem_listed (e := e) (hes ▸ List.mem_cons_self)

/-! ## §3. Outputs -/

/-- Some pieces are those of an output of a batch. -/
structure WrittenAs (b : Batch) (mode : Mode) (ps : List Piece) : Prop where
  /-- The output is what is written for them, in their order. -/
  text : (format b.kind mode b.context b.entities).toList = ps.flatMap (b.text mode)
  /-- Tags are closed where they were opened, and a section stands in the tag that
  holds what is embedded for its entity. -/
  nested : Stays mode [] ps
  /-- None of them comes twice. -/
  once : ps.Nodup
  /-- A section is opened where somebody is listed, and only there. -/
  opened : ∀ p, Piece.opening p ∈ ps ↔ b.listed p.above p.kind ≠ []
  /-- In it each of those listed is written. -/
  entered : ∀ p i, Piece.entity p i ∈ ps ↔ i < (b.listed p.above p.kind).length
  /-- They are of the kind of the section, and were passed, at the top, or are
  resolved children of the entity that the section is embedded for. -/
  seated : ∀ p i, Piece.entity p i ∈ ps → ∃ e, b.entity? (p.seat i) = some e ∧ e.kind = p.kind ∧
    ((p.above = [] ∧ e ∈ b.entities) ∨
      ∃ d, b.entity? p.above = some d ∧ p.kind ∈ d.kind.childKinds ∧ e ∈ d.resolved p.kind)
  /-- The sections embedded for an entity come in the order of their kinds, each
  with its entities in their order. -/
  ordered : ∀ s, ps.filter (fun m => decide (m.place.above = s)) = b.ownPieces mode s
  /-- Written are those passed that are of the kind and all resolved below them. -/
  everyone : (ps.filterMap b.written?).Perm
    ((b.entities.filter fun e => decide (e.kind = b.kind)).flatMap Entity.everyone)

/-- The sections of an output by their kinds, the values in their headers and
their entities, in the order in which they are opened. -/
def sections (b : Batch) (mode : Mode) : List (Kind × List String × List Entity) :=
  ((b.pieces mode []).filterMap Piece.opened?).map fun p =>
    (p.kind, ((b.contextAt p.above).attributes p.kind).map Prod.snd, b.listed p.above p.kind)

theorem opening_mem_pieces {p : Place} :
    Piece.opening p ∈ b.pieces mode [] ↔ b.listed p.above p.kind ≠ [] := by
  rw [mem_pieces]
  show Piece.opening p ∈ p.pieces mode _ _ ↔ _
  rw [Place.mem_pieces_alone]
  simp [Piece.place]

theorem entity_mem_pieces {p : Place} {i : Nat} :
    Piece.entity p i ∈ b.pieces mode [] ↔ i < (b.listed p.above p.kind).length := by
  rw [mem_pieces]
  show Piece.entity p i ∈ p.pieces mode _ _ ↔ _
  rw [Place.mem_pieces_alone]
  simp [Piece.place]

theorem writtenAs_pieces (b : Batch) (mode : Mode) : b.WrittenAs mode (b.pieces mode []) where
  text := b.toList_format mode
  nested := b.stays_pieces mode [] [] rfl
  once := b.nodup_pieces mode
  opened _ := opening_mem_pieces
  entered _ _ := entity_mem_pieces
  seated p i h := by
    have hi := entity_mem_pieces.mp h
    have he := List.getElem?_eq_getElem hi
    have hmem := List.getElem_mem hi
    refine ⟨_, he, kind_of_mem_listed hmem, ?_⟩
    rcases mem_listed_cases hmem with ⟨hs, -, hpassed, -⟩ | hchild
    · exact Or.inl ⟨hs, hpassed⟩
    · exact Or.inr hchild
  ordered s := b.filter_top mode s
  everyone := by
    have hall := b.everyone_pieces mode []
    have hkinds : b.kinds [] = [b.kind] := rfl
    have hlisted : b.listed [] b.kind = b.entities.filter fun e => decide (e.kind = b.kind) :=
      if_pos rfl
    rw [hkinds, List.flatMap_singleton, hlisted] at hall
    exact hall

end Batch

end ListingMetadata
