/-
  ListingMetadata.Proofs.Section.Outline
  ──────────────────────────────────────
  **SECTIONS OF A TREE ARE THOSE OF ITS OUTLINE.**

  A record shows the attributes of an entity and embeds the sections of its
  children.  Neither its source nor how far its children are fetched is written
  anywhere, in either form.

    • `alike_record_outline` — the record of an outline is written as that of
      the tree,
    • `format_outline`       — so are all sections.
-/
import ListingMetadata.Proofs.Entity.Outline
import ListingMetadata.Section.Standard

namespace ListingMetadata

/-! ## §1. Rows and sections -/

/-- What is written of heads in compact form is written of their settled forms. -/
theorem Compact.rows_map_settled (kind : Kind) (c : Context) (heads : List Head) :
    Compact.rows kind c (heads.map Head.settled) = Compact.rows kind c heads := by
  unfold Compact.rows
  split
  · rw [List.flatMap_map]
    rfl
  · have hcolumns : Compact.columnsOf (heads.map Head.settled) = Compact.columnsOf heads := by
      cases heads <;> rfl
    unfold Compact.table
    rw [hcolumns]
    simp only [List.flatMap_map]
    rfl

theorem compactSections_eq (ss : List Section) :
    compactSections ss = (ss.map (Section.text .compact)).flatten := by
  induction ss with
  | nil => rfl
  | cons s ss ih =>
    unfold compactSections
    rw [ih]
    rfl

theorem standardSections_eq (ss : List Section) :
    standardSections ss = (ss.map (Section.text .standard)).flatten := by
  induction ss with
  | nil => rfl
  | cons s ss ih =>
    unfold standardSections
    rw [ih]
    rfl

namespace Record

/-- Records of alike heads whose embedded sections are written alike in either
form. -/
structure Alike (r r' : Record) : Prop where
  head : r.head.settled = r'.head.settled
  texts : ∀ mode, r.embedded.map (Section.text mode) = r'.embedded.map (Section.text mode)

theorem compact_eq (r : Record) :
    r.compact = (r.embedded.map (Section.text .compact)).flatten := by
  cases r with
  | mk h ss => exact compactSections_eq ss

theorem standard_eq (r : Record) (kind : Kind) (c : Context) :
    r.standard kind c
      = Standard.openTag kind.elementName ++ ['\n'] ++ Standard.cells c r.head.settled
        ++ (r.embedded.map (Section.text .standard)).flatten
        ++ Standard.closeTag kind.elementName ++ ['\n'] := by
  cases r with
  | mk h ss =>
    show Standard.openTag kind.elementName ++ ['\n'] ++ Standard.cells c h
      ++ standardSections ss ++ Standard.closeTag kind.elementName ++ ['\n'] = _
    rw [standardSections_eq]
    rfl

theorem Alike.compact {r r' : Record} (h : r.Alike r') : r.compact = r'.compact := by
  rw [compact_eq, compact_eq, h.texts]

theorem Alike.standard {r r' : Record} (h : r.Alike r') (kind : Kind) (c : Context) :
    r.standard kind c = r'.standard kind c := by
  rw [standard_eq, standard_eq, h.head, h.texts]

end Record

section Alike

variable {es : List Entity} {f g : Entity → Record}

theorem compactEmbedded_congr (h : ∀ e ∈ es, (f e).Alike (g e)) :
    compactEmbedded (es.map f) = compactEmbedded (es.map g) := by
  induction es with
  | nil => rfl
  | cons e es ih =>
    show (f e).compact ++ compactEmbedded (es.map f) = (g e).compact ++ compactEmbedded (es.map g)
    rw [(h e List.mem_cons_self).compact, ih fun d hd => h d (List.mem_cons_of_mem _ hd)]

theorem standardRecords_congr (h : ∀ e ∈ es, (f e).Alike (g e)) (kind : Kind) (c : Context) :
    standardRecords kind c (es.map f) = standardRecords kind c (es.map g) := by
  induction es with
  | nil => rfl
  | cons e es ih =>
    show (f e).standard kind c ++ standardRecords kind c (es.map f)
      = (g e).standard kind c ++ standardRecords kind c (es.map g)
    rw [(h e List.mem_cons_self).standard, ih fun d hd => h d (List.mem_cons_of_mem _ hd)]

/-- Sections of records that are written alike are written alike. -/
theorem text_ofRecords?_congr (h : ∀ e ∈ es, (f e).Alike (g e)) (mode : Mode) (kind : Kind)
    (c : Context) :
    (Section.ofRecords? kind c (es.map f)).map (Section.text mode)
      = (Section.ofRecords? kind c (es.map g)).map (Section.text mode) := by
  -- compact rows are made of all heads at once, so these are compared as lists
  have hheads : ((es.map f).map Record.head).map Head.settled
      = ((es.map g).map Record.head).map Head.settled := by
    rw [List.map_map, List.map_map, List.map_map, List.map_map]
    apply List.map_congr_left
    intro e he
    exact (h e he).head
  have hrows : Compact.rows kind c ((es.map f).map Record.head)
      = Compact.rows kind c ((es.map g).map Record.head) := by
    rw [← Compact.rows_map_settled, hheads, Compact.rows_map_settled]
  have hembedded := compactEmbedded_congr h
  have hrecords := standardRecords_congr h kind c
  cases es with
  | nil => rfl
  | cons e es =>
    cases mode with
    | compact =>
      show some (Compact.opening kind c ++ Compact.rows kind c (((e :: es).map f).map Record.head)
          ++ compactEmbedded ((e :: es).map f) ++ Compact.closing kind) = _
      rw [hrows, hembedded]
      rfl
    | standard =>
      show some (Standard.opening kind c ++ standardRecords kind c ((e :: es).map f)
          ++ Compact.closing kind) = _
      rw [hrecords]
      rfl

end Alike

/-! ## §2. Records of trees -/

namespace Entity

theorem record_eq (e : Entity) (c : Context) :
    e.record c
      = Record.mk e.head (e.kind.childKinds.filterMap fun k =>
          Section.ofRecords? k (c.nested e.head)
            ((e.resolved k).map fun d => d.record (c.nested e.head))) := by
  unfold record
  rw [fold_eq]
  simp only [resolvedResults_foldAll, List.map_map]
  rfl

/-- The sections embedded in the record of an outline are written as those of
the tree, if this is so for its children. -/
theorem text_embedded_outline {e : Entity}
    (h : ∀ k, ∀ d ∈ e.resolved k, ∀ c, (d.outline.record c).Alike (d.record c)) (mode : Mode)
    (c : Context) :
    (e.outline.record c).embedded.map (Section.text mode)
      = (e.record c).embedded.map (Section.text mode) := by
  rw [record_eq, record_eq]
  show (List.filterMap _ _).map _ = (List.filterMap _ _).map _
  rw [List.map_filterMap, List.map_filterMap, kind_outline]
  apply List.filterMap_congr
  intro k hk
  rw [resolved_outline hk, head_outline, List.map_map]
  exact text_ofRecords?_congr (fun d hd => h k d hd _) mode k _

/-- **A tree and its outline have records that are written alike.** -/
theorem alike_record_outline (e : Entity) :
    ∀ c, (e.outline.record c).Alike (e.record c) := by
  induction e using induct with
  | step h cs ih =>
    intro c
    -- the context of the children is made of kind and id, which the outline has
    have hbelow : ∀ k, ∀ d ∈ (mk h cs).resolved k, ∀ c, (d.outline.record c).Alike (d.record c) :=
      fun k d hd => ih d (mem_resolved.mp hd).2.1
    refine ⟨?_, fun mode => text_embedded_outline hbelow mode c⟩
    rw [record_eq, record_eq]
    show (mk h cs).outline.head.settled = h.settled
    rw [head_outline]
    rfl

/-- **Formatting a tree writes what formatting its outline writes.** -/
theorem format_outline (kind : Kind) (mode : Mode) (context : Context) (e : Entity) :
    format kind mode context [e.outline] = format kind mode context [e] := by
  have hsections : (Section.of? kind context [e.outline]).map (Section.text mode)
      = (Section.of? kind context [e]).map (Section.text mode) := by
    unfold Section.of?
    by_cases hk : e.kind = kind
    · have hself : [e].filter (fun d => decide (d.kind = kind)) = [e] := by simp [hk]
      have houtline : [e.outline].filter (fun d => decide (d.kind = kind)) = [e].map outline := by
        simp [hk]
      rw [hself, houtline, List.map_map]
      exact text_ofRecords?_congr (fun d _ => alike_record_outline d context) mode kind context
    · simp [hk]
  have hformat : ∀ d, format kind mode context [d]
      = (((Section.of? kind context [d]).map (Section.text mode)).map String.ofList).getD "" := by
    intro d
    unfold format
    cases Section.of? kind context [d] <;> rfl
  rw [hformat, hformat, hsections]

end Entity

end ListingMetadata
