/-
  ListingMetadata.Proofs.Layout.Changes
  ─────────────────────────────────────
  **DECLARATIONS AND REPLACED TYPES, ONE AFTER THE OTHER.**

  A column is declared, or gets another type, where the first column of its key stands,
  and at the end if there is none.  So a layout has one column for each key that was ever
  named, in the order in which the keys first were, with what was said of it last:

      declared:   A  b  B₂  a₃  c        given a type:   C ↦ t,  d ↦ u
      lenient:    a₃  B₂  c(t)  d(u)
      strict:     A  b  B₂  a₃  c  C(t)  d(u)

    • `keysOf_settled` — which keys, and in which order,
    • `find?_settled`  — what each name leads to.
-/
import ListingMetadata.Proofs.Layout.Lookup
import ListingMetadata.Proofs.Text.Named
import Mathlib.Data.List.Induction

namespace ListingMetadata.Layout

/-! ## §1. The columns after a change -/

/-- The keys of columns. -/
def keysOf (strict : Bool) (columns : List Column) : List String :=
  columns.map fun c => nameKey strict c.name

theorem mem_keysOf {strict : Bool} {columns : List Column} {key : String} :
    key ∈ keysOf strict columns ↔ ∃ c ∈ columns, nameKey strict c.name = key :=
  List.mem_map

theorem getElem?_keysOf {strict : Bool} {columns : List Column} {key : String} {i : Nat} :
    (keysOf strict columns)[i]? = some key ↔
      ∃ c, columns[i]? = some c ∧ nameKey strict c.name = key := by
  unfold keysOf
  rw [List.getElem?_map, Option.map_eq_some_iff]

namespace Change

/-- A key that is new is the last. -/
theorem keysOf_inColumns (strict : Bool) (ch : Change) (cs : List Column) :
    keysOf strict (ch.inColumns strict cs)
      = if nameKey strict ch.name ∈ keysOf strict cs then keysOf strict cs
        else keysOf strict cs ++ [nameKey strict ch.name] := by
  induction cs with
  | nil =>
    show [nameKey strict ch.new.name] = _
    rw [ch.name_new]
    rfl
  | cons c cs ih =>
    unfold inColumns
    by_cases hc : nameKey strict c.name = nameKey strict ch.name
    · have hmem : nameKey strict ch.name ∈ keysOf strict (c :: cs) :=
        mem_keysOf.mpr ⟨c, List.mem_cons_self, hc⟩
      -- the column may have another name now, but not another key
      rw [if_pos hc, if_pos hmem]
      show nameKey strict (ch.on c).name :: keysOf strict cs = _
      rw [key_on hc, ← hc]
      rfl
    · have hmem : nameKey strict ch.name ∈ keysOf strict (c :: cs)
          ↔ nameKey strict ch.name ∈ keysOf strict cs := by
        show nameKey strict ch.name ∈ nameKey strict c.name :: keysOf strict cs ↔ _
        rw [List.mem_cons, or_iff_right (Ne.symm hc)]
      rw [if_neg hc]
      show nameKey strict c.name :: keysOf strict (ch.inColumns strict cs) = _
      rw [ih]
      simp only [hmem]
      split <;> rfl

variable {strict : Bool} {ch : Change} {cs : List Column}

/-- A column whose key is new goes to the end. -/
theorem inColumns_of_new (h : nameKey strict ch.name ∉ keysOf strict cs) :
    ch.inColumns strict cs = cs ++ [ch.new] := by
  induction cs with
  | nil => rfl
  | cons c cs ih =>
    obtain ⟨hc, hcs⟩ := not_or.mp (mt List.mem_cons.mpr h)
    unfold inColumns
    rw [if_neg (Ne.symm hc), ih hcs]
    rfl

/-- The column that has the key at one place alone changes there. -/
theorem inColumns_of_place {i : Nat}
    (h : ∀ j, (keysOf strict cs)[j]? = some (nameKey strict ch.name) ↔ j = i) :
    ch.inColumns strict cs = cs.modify i ch.on := by
  induction cs generalizing i with
  | nil =>
    have hi := (h i).mpr rfl
    cases hi
  | cons c cs ih =>
    unfold inColumns
    have hhead : nameKey strict c.name = nameKey strict ch.name ↔ 0 = i := by
      rw [← h 0]
      exact ⟨congrArg some, Option.some.inj⟩
    cases i with
    | zero => rw [if_pos (hhead.mpr rfl), List.modify_zero_cons]
    | succ i =>
      have hrest : ∀ j, (keysOf strict cs)[j]? = some (nameKey strict ch.name) ↔ j = i :=
        fun j => (h (j + 1)).trans Nat.succ_inj
      rw [if_neg (fun hc => absurd (hhead.mp hc) (Nat.succ_ne_zero i).symm),
        List.modify_succ_cons, ih hrest]

end Change

/-! ## §2. Declarations and replaced types -/

/-- The layout of declarations, with types replaced one after the other. -/
def settled (kind : Kind) (strict : Bool) (declarations : List Column)
    (types : List (String × ValueType)) : Layout :=
  types.foldl (fun l (name, type) => l.replaceType name type) (build kind strict declarations)

/-- The changes that these are. -/
def changes (declarations : List Column) (types : List (String × ValueType)) : List Change :=
  declarations.map .declared ++ types.map fun (name, type) => .retyped name type

/-- The names that they are about. -/
def mentioned (declarations : List Column) (types : List (String × ValueType)) : List String :=
  declarations.map Column.name ++ types.map Prod.fst

/-- The keys of names, each where it comes first. -/
def firstKeys (strict : Bool) (names : List String) : List String :=
  (names.map (nameKey strict)).eraseDups

variable (kind : Kind) (strict : Bool) (declarations : List Column)
  (types : List (String × ValueType))

theorem name_changes :
    (changes declarations types).map Change.name = mentioned declarations types := by
  unfold changes mentioned
  rw [List.map_append, List.map_map, List.map_map]
  rfl

theorem foldl_change_declared (columns : List Column) :
    (declarations.map Change.declared).foldl change ⟨kind, strict, columns⟩
      = ⟨kind, strict, declarations.foldl (fun cs c => placeColumn strict c cs) columns⟩ := by
  induction declarations generalizing columns with
  | nil => rfl
  | cons d ds ih =>
    have hfirst : change ⟨kind, strict, columns⟩ (.declared d)
        = ⟨kind, strict, placeColumn strict d columns⟩ :=
      congrArg (Layout.mk kind strict) (Change.inColumns_declared strict d columns)
    rw [List.map_cons, List.foldl_cons, hfirst, ih, List.foldl_cons]

theorem foldl_change_retyped (l : Layout) :
    (types.map fun (name, type) => Change.retyped name type).foldl change l
      = types.foldl (fun l (name, type) => l.replaceType name type) l := by
  rw [List.foldl_map]
  congr
  funext l r
  exact (replaceType_eq_change l r.1 r.2).symm

/-- **A layout comes about by changes**, whether of declarations or of types. -/
theorem settled_eq_changed :
    settled kind strict declarations types
      = (changes declarations types).foldl change ⟨kind, strict, []⟩ := by
  unfold changes
  rw [List.foldl_append, foldl_change_declared, foldl_change_retyped]
  rfl

/-! ## §3. The keys -/

theorem strict_foldl_change (chs : List Change) (l : Layout) :
    (chs.foldl change l).strict = l.strict := by
  induction chs generalizing l with
  | nil => rfl
  | cons ch chs ih => exact ih (l.change ch)

theorem keysOf_foldl_change (chs : List Change) :
    keysOf strict (chs.foldl change ⟨kind, strict, []⟩).columns
      = firstKeys strict (chs.map Change.name) := by
  -- one more change at the end names a key that was there, or puts it at the end
  induction chs using List.reverseRecOn with
  | nil => rfl
  | append_singleton chs ch ih =>
    have hstrict := strict_foldl_change chs ⟨kind, strict, []⟩
    rw [List.foldl_append, List.map_append]
    show keysOf strict (ch.inColumns (chs.foldl change ⟨kind, strict, []⟩).strict _) = _
    rw [hstrict, Change.keysOf_inColumns, ih]
    unfold firstKeys
    rw [List.map_append]
    show _ = (List.map (nameKey strict) (chs.map Change.name) ++ [nameKey strict ch.name]).eraseDups
    rw [Text.eraseDups_concat]
    simp only [List.mem_eraseDups]

/-- A key stands behind all that were named before it. -/
theorem getElem?_firstKeys {before after : List String} {name : String}
    (h : ∀ n ∈ before, nameKey strict n ≠ nameKey strict name) :
    (firstKeys strict (before ++ name :: after))[(firstKeys strict before).length]?
      = some (nameKey strict name) := by
  have hnew : nameKey strict name ∉ before.map (nameKey strict) := by
    intro hmem
    obtain ⟨n, hn, hkey⟩ := List.mem_map.mp hmem
    exact h n hn hkey
  unfold firstKeys
  rw [List.map_append, List.map_cons, List.eraseDups_append, List.getElem?_append_right le_rfl,
    Nat.sub_self]
  unfold List.removeAll
  rw [List.filter_cons_of_pos (by simpa using hnew), List.eraseDups_cons]
  rfl

/-- **The keys of a layout are those named**, each once, where it was named first. -/
theorem keysOf_settled :
    keysOf strict (settled kind strict declarations types).columns
      = firstKeys strict (mentioned declarations types) := by
  rw [settled_eq_changed, keysOf_foldl_change, name_changes]

theorem strict_settled : (settled kind strict declarations types).strict = strict := by
  rw [settled_eq_changed]
  exact strict_foldl_change _ _

/-- A name leads to a column if it was named, in some spelling of its key. -/
theorem declares_settled_iff (name : String) :
    (∃ c, (settled kind strict declarations types).find? name = some c) ↔
      ∃ n ∈ mentioned declarations types, nameKey strict n = nameKey strict name := by
  have hstrict := strict_settled kind strict declarations types
  have hfound : (∃ c, (settled kind strict declarations types).find? name = some c) ↔
      nameKey strict name ∈ keysOf strict (settled kind strict declarations types).columns := by
    rw [mem_keysOf]
    constructor
    · rintro ⟨c, hc⟩
      exact ⟨c, mem_of_find? hc, hstrict ▸ key_of_find? hc⟩
    · rintro ⟨c, hc, hkey⟩
      exact exists_find? hc (by rw [hstrict]; exact hkey)
  rw [hfound, keysOf_settled]
  unfold firstKeys
  rw [List.mem_eraseDups, List.mem_map]

/-! ## §4. What a name leads to -/

/-- What is said of one name. -/
def saidOf {α : Type} (strict : Bool) (nameOf : α → String) (said : List α) (name : String) :
    List α :=
  said.filter fun x => decide (nameKey strict (nameOf x) = nameKey strict name)

theorem saidOf_concat {α : Type} (nameOf : α → String) (said : List α) (x : α) (name : String) :
    saidOf strict nameOf (said ++ [x]) name
      = if nameKey strict name = nameKey strict (nameOf x)
        then saidOf strict nameOf said name ++ [x] else saidOf strict nameOf said name := by
  unfold saidOf
  rw [List.filter_append]
  by_cases h : nameKey strict name = nameKey strict (nameOf x)
  · rw [if_pos h, List.filter_cons_of_pos (by simp [h]), List.filter_nil]
  · rw [if_neg h, List.filter_cons_of_neg (by simp [Ne.symm h]), List.filter_nil, List.append_nil]

/-- What is said of a name last: the last declaration of its key, or else an optional
column of the first spelling that was given a type, with the type given last. -/
def latest (name : String) : Option Column :=
  let given := saidOf strict Prod.fst types name
  ((saidOf strict Column.name declarations name).getLast?.or
    (given.head?.map fun r => Column.optional r.1 r.2)).map fun c =>
      { c with type := (given.getLast?.map Prod.snd).getD c.type }

theorem find?_build (name : String) :
    (build kind strict declarations).find? name
      = (saidOf strict Column.name declarations name).getLast? := by
  -- on the declarations, the last one first: it decides for the names of its key
  induction declarations using List.reverseRecOn with
  | nil => rfl
  | append_singleton ds d ih =>
    have hlast : build kind strict (ds ++ [d]) = (build kind strict ds).change (.declared d) := by
      unfold build change
      rw [List.foldl_append, Change.inColumns_declared]
      rfl
    rw [hlast, find?_change, ih, saidOf_concat]
    show (if nameKey strict name = nameKey strict d.name then _ else _) = _
    split
    · rw [List.getLast?_concat]
      cases (saidOf strict Column.name ds name).getLast? <;> rfl
    · rfl

/-- **Each name leads to what was said of it last.** -/
theorem find?_settled (name : String) :
    (settled kind strict declarations types).find? name
      = latest strict declarations types name := by
  induction types using List.reverseRecOn with
  | nil =>
    show (build kind strict declarations).find? name = _
    rw [find?_build]
    show _ = ((saidOf strict Column.name declarations name).getLast?.or none).map id
    rw [Option.or_none, Option.map_id]
    rfl
  | append_singleton rs r ih =>
    have hlast : settled kind strict declarations (rs ++ [r])
        = (settled kind strict declarations rs).change (.retyped r.1 r.2) := by
      unfold settled
      rw [List.foldl_append]
      exact replaceType_eq_change _ _ _
    rw [hlast, find?_change, strict_settled, ih]
    unfold latest
    rw [saidOf_concat]
    show (if nameKey strict name = nameKey strict r.1 then _ else _) = _
    split
    · simp only [List.getLast?_concat, List.head?_append]
      -- a column that is there gets the type, otherwise this is the first spelling
      cases (saidOf strict Column.name declarations name).getLast? with
      | some c => rfl
      | none => cases (saidOf strict Prod.fst rs name).head? <;> rfl
    · rfl

end ListingMetadata.Layout
