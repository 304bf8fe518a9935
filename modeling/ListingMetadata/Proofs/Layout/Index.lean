/-
  ListingMetadata.Proofs.Layout.Index
  ───────────────────────────────────
  **THE INDEX OF A LAYOUT TELLS WHERE THE COLUMNS STAND.**

  A layout with an index changes as the layout without it does, and the index stays in
  line with the columns.  So, whatever was declared and given other types, each key has
  one place, and the column there is what was said of the name last:

    • `Sound.change`, `forget_change` — one change,
    • `Sound.find?`                   — looking up by the index,
    • `indexes_settled`               — all declarations and replaced types.
-/
import ListingMetadata.Layout.Indexed
import ListingMetadata.Proofs.Layout.Builtin

namespace ListingMetadata.Layout

open Text

namespace Indexed

/-! ## §1. Sound indexes -/

/-- The index holds the keys of the columns at their places, and nothing else. -/
def Sound (m : Indexed) : Prop :=
  ∀ key i, m.places.get? key = some i ↔ (keysOf m.strict m.columns)[i]? = some key

variable {m : Indexed}

theorem sound_empty (kind : Kind) (strict : Bool) : (empty kind strict).Sound := by
  intro key i
  constructor
  · intro h
    cases h
  · intro h
    cases h

theorem Sound.place?_eq_some_iff (h : m.Sound) {name : String} {i : Nat} :
    m.place? name = some i ↔ (keysOf m.strict m.columns)[i]? = some (nameKey m.strict name) :=
  h _ i

theorem Sound.place?_eq_none_iff (h : m.Sound) {name : String} :
    m.place? name = none ↔ nameKey m.strict name ∉ keysOf m.strict m.columns := by
  rw [Option.eq_none_iff_forall_not_mem, List.mem_iff_getElem?, not_exists]
  exact forall_congr' fun i => not_congr h.place?_eq_some_iff

/-- No key has two places. -/
theorem Sound.getElem?_iff (h : m.Sound) {key : String} {i : Nat}
    (hi : m.places.get? key = some i) (j : Nat) :
    (keysOf m.strict m.columns)[j]? = some key ↔ j = i := by
  rw [← h key j, hi, Option.some_inj, eq_comm]

theorem Sound.namesDiffer (h : m.Sound) : NamesDiffer m.strict m.columns := by
  show (keysOf m.strict m.columns).Nodup
  rw [List.nodup_iff_getElem?_ne_getElem?]
  -- two places of one key would both be the one that the index has for it
  intro i j hij hj heq
  obtain ⟨key, hkey⟩ : ∃ key, (keysOf m.strict m.columns)[j]? = some key :=
    ⟨_, List.getElem?_eq_getElem hj⟩
  have hi := (h.getElem?_iff ((h key j).mpr hkey) i).mp (heq.trans hkey)
  omega

/-! ## §2. One change -/

/-- What a declaration or another type does. -/
def change (m : Indexed) : Change → Indexed
  | .declared column => m.insert column
  | .retyped name type => m.replaceType name type

variable {ch : Change}

/-- A change at a place leaves the index alone. -/
theorem change_of_place {i : Nat} (h : m.place? ch.name = some i) :
    m.change ch = { m with columns := m.columns.modify i ch.on } := by
  cases ch with
  | declared column =>
    show m.insert column = _
    unfold insert
    rw [show m.place? column.name = some i from h]
    simp only [List.set_eq_modify]
    rfl
  | retyped name type =>
    show m.replaceType name type = _
    unfold replaceType
    rw [show m.place? name = some i from h]
    rfl

/-- A change at a name without a place adds a column and its place. -/
theorem change_of_new (h : m.place? ch.name = none) :
    m.change ch = { m with
      columns := m.columns ++ [ch.new]
      places := m.places.put (nameKey m.strict ch.name) m.columns.length } := by
  have hinsert : ∀ column, m.place? column.name = none → m.insert column = { m with
      columns := m.columns ++ [column]
      places := m.places.put (nameKey m.strict column.name) m.columns.length } := by
    intro column hnew
    unfold insert
    rw [hnew]
  cases ch with
  | declared column => exact hinsert column h
  | retyped name type =>
    show m.replaceType name type = _
    unfold replaceType
    rw [show m.place? name = none from h]
    exact hinsert (Column.optional name type) h

/-- **With a sound index a change is that of the layout.** -/
theorem forget_change (h : m.Sound) (ch : Change) : (m.change ch).forget = m.forget.change ch := by
  cases hp : m.place? ch.name with
  | some i =>
    rw [change_of_place hp]
    exact congrArg (Layout.mk m.kind m.strict)
      (Change.inColumns_of_place (h.getElem?_iff hp)).symm
  | none =>
    rw [change_of_new hp]
    exact congrArg (Layout.mk m.kind m.strict)
      (Change.inColumns_of_new (h.place?_eq_none_iff.mp hp)).symm

theorem strict_change (m : Indexed) (ch : Change) : (m.change ch).strict = m.strict := by
  cases hp : m.place? ch.name with
  | some i => rw [change_of_place hp]
  | none => rw [change_of_new hp]

/-- What stands in a list with one more element at the end. -/
theorem getElem?_concat_eq_some_iff {α : Type} {xs : List α} {x y : α} {i : Nat} :
    (xs ++ [x])[i]? = some y ↔ xs[i]? = some y ∨ i = xs.length ∧ y = x := by
  rcases Nat.lt_trichotomy i xs.length with hlt | rfl | hgt
  · rw [List.getElem?_append_left hlt, or_iff_left fun h => Nat.ne_of_lt hlt h.1]
  · simp [eq_comm]
  · have hend : (xs ++ [x])[i]? = none := List.getElem?_eq_none (by simp; omega)
    have hnone : xs[i]? = none := List.getElem?_eq_none (Nat.le_of_lt hgt)
    simp [hend, hnone, Nat.ne_of_gt hgt]

/-- **A change leaves the index sound.** -/
theorem Sound.change (h : m.Sound) (ch : Change) : (m.change ch).Sound := by
  -- which columns there are does not depend on the index, so their keys are known
  have hcolumns : (m.change ch).columns = ch.inColumns m.strict m.columns :=
    congrArg Layout.columns (forget_change h ch)
  unfold Sound
  rw [strict_change, hcolumns, Change.keysOf_inColumns]
  intro key i
  cases hp : m.place? ch.name with
  | some p =>
    -- the keys and their places are what they were
    rw [if_pos (List.mem_of_getElem? (h.place?_eq_some_iff.mp hp)), change_of_place hp]
    exact h key i
  | none =>
    have hnew := h.place?_eq_none_iff.mp hp
    have hlength : (keysOf m.strict m.columns).length = m.columns.length := List.length_map _
    rw [if_neg hnew, change_of_new hp]
    show (m.places.put _ _).get? key = some i ↔ _
    rw [getElem?_concat_eq_some_iff, hlength]
    by_cases hkey : key = nameKey m.strict ch.name
    · -- the new key stands at the end alone
      have hold : (keysOf m.strict m.columns)[i]? ≠ some (nameKey m.strict ch.name) :=
        fun hi => hnew (List.mem_of_getElem? hi)
      rw [hkey, Named.get?_put_self, Option.some_inj, or_iff_right hold, and_iff_left rfl, eq_comm]
    · rw [Named.get?_put_of_ne _ _ hkey, h key i, or_iff_left fun hi => hkey hi.2]

/-! ## §3. Looking up -/

/-- **The column at the place of a name is the one that the name leads to.** -/
theorem Sound.find? (h : m.Sound) (name : String) : m.find? name = m.forget.find? name := by
  unfold Indexed.find?
  cases hp : m.place? name with
  | none =>
    have hnone : m.forget.find? name = none := find?_eq_none_iff.mpr fun c hc hkey =>
      h.place?_eq_none_iff.mp hp (mem_keysOf.mpr ⟨c, hc, hkey⟩)
    rw [hnone]
    rfl
  | some i =>
    -- the column at the place has the key, and no other column has it
    obtain ⟨c, hc, hkey⟩ := getElem?_keysOf.mp (h.place?_eq_some_iff.mp hp)
    have hown : m.forget.find? c.name = some c :=
      find?_of_nodup h.namesDiffer (List.mem_of_getElem? hc)
    rw [← find?_congr (l := m.forget) hkey, hown]
    exact hc

/-! ## §4. All changes -/

/-- Declarations put in turn, with types replaced one after the other. -/
def settled (kind : Kind) (strict : Bool) (declarations : List Column)
    (types : List (String × ValueType)) : Indexed :=
  types.foldl (fun m (name, type) => m.replaceType name type) (build kind strict declarations)

theorem settled_eq_changed (kind : Kind) (strict : Bool) (declarations : List Column)
    (types : List (String × ValueType)) :
    settled kind strict declarations types
      = (changes declarations types).foldl change (empty kind strict) := by
  unfold settled changes build
  rw [List.foldl_append, List.foldl_map, List.foldl_map]
  rfl

/-- **Changes leave the index sound, and the layout is the one without an index.** -/
theorem foldl_change (h : m.Sound) (chs : List Change) :
    (chs.foldl change m).Sound ∧ (chs.foldl change m).forget = chs.foldl Layout.change m.forget := by
  induction chs generalizing m with
  | nil => exact ⟨h, rfl⟩
  | cons ch chs ih =>
    rw [List.foldl_cons, List.foldl_cons, ← forget_change h ch]
    exact ih (h.change ch)

end Indexed

/-- The layout of declarations and replaced types, and the index of its columns. -/
structure Indexes (m : Indexed) (l : Layout) (strict : Bool) (declarations : List Column)
    (types : List (String × ValueType)) : Prop where
  /-- The layout is the one that is kept without an index. -/
  layout : m.forget = l
  found : ∀ name, m.find? name = l.find? name
  /-- The index leads from exactly the keys of the columns to their places. -/
  places : ∀ key i, m.places.get? key = some i ↔
    ∃ c, l.columns[i]? = some c ∧ nameKey strict c.name = key
  /-- No two columns have one key. -/
  once : NamesDiffer strict l.columns
  /-- The columns stand in the order in which their keys were named first. -/
  order : l.columns.map (fun c => nameKey strict c.name)
    = firstKeys strict (mentioned declarations types)
  /-- A name leads to the place that was next when its key was named first. -/
  first : ∀ before name after, mentioned declarations types = before ++ name :: after →
    (∀ n ∈ before, nameKey strict n ≠ nameKey strict name) →
    m.place? name = some (firstKeys strict before).length ∧
      l.find? name = l.columns[(firstKeys strict before).length]?
  /-- A name is found if its key was named. -/
  named : ∀ name, (∃ c, l.find? name = some c) ↔
    ∃ n ∈ mentioned declarations types, nameKey strict n = nameKey strict name
  /-- What is found is what was said of the name last. -/
  last : ∀ name, l.find? name = latest strict declarations types name

/-- **The index and the columns of a layout hold together** through all declarations and
all replaced types, and tell what was said of each name last, where it was first named. -/
theorem indexes_settled (kind : Kind) (strict : Bool) (declarations : List Column)
    (types : List (String × ValueType)) :
    Indexes (Indexed.settled kind strict declarations types)
      (settled kind strict declarations types) strict declarations types := by
  obtain ⟨hsound, hforget⟩ := Indexed.foldl_change (Indexed.sound_empty kind strict)
    (changes declarations types)
  rw [← Indexed.settled_eq_changed] at hsound hforget
  have hlayout : (Indexed.settled kind strict declarations types).forget
      = settled kind strict declarations types :=
    hforget.trans (settled_eq_changed kind strict declarations types).symm
  have hstrict : (Indexed.settled kind strict declarations types).strict = strict :=
    (congrArg Layout.strict hlayout).trans (strict_settled kind strict declarations types)
  have hkeys := keysOf_settled kind strict declarations types
  have hcolumns : (Indexed.settled kind strict declarations types).columns
      = (settled kind strict declarations types).columns := congrArg Layout.columns hlayout
  refine ⟨hlayout, ?_, ?_, ?_, hkeys, ?_, declares_settled_iff kind strict declarations types,
    find?_settled kind strict declarations types⟩
  · intro name
    rw [hsound.find?, hlayout]
  · intro key i
    rw [hsound key i, hstrict, hcolumns]
    exact getElem?_keysOf
  · have hdiffer := hsound.namesDiffer
    rwa [hstrict, hcolumns] at hdiffer
  · intro before name after hsplit hfirst
    have hplace : (Indexed.settled kind strict declarations types).place? name
        = some (firstKeys strict before).length := by
      rw [hsound.place?_eq_some_iff, hstrict, hcolumns, hkeys, hsplit]
      exact getElem?_firstKeys strict hfirst
    refine ⟨hplace, ?_⟩
    rw [← hlayout, ← hsound.find?]
    unfold Indexed.find?
    rw [hplace]
    rfl

end ListingMetadata.Layout
