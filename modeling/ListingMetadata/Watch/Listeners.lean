/-
  ListingMetadata.Watch.Listeners
  ───────────────────────────────
  **WHO IS TOLD OF A CHANGE.**

  Listeners are told in the order in which they were registered, each once: to
  register one again changes nothing.
-/

namespace ListingMetadata.Watch

/-- The registered listeners by name, in order. -/
abbrev Listeners := List String

namespace Listeners

/-- With one more listener, unless it is registered. -/
def add (ls : Listeners) (name : String) : Listeners :=
  if name ∈ ls then ls else ls ++ [name]

/-- Without a listener. -/
def remove (ls : Listeners) (name : String) : Listeners :=
  ls.filter fun l => decide (l ≠ name)

/-- Without a listener, and whether there is one less now. -/
def unregister (ls : Listeners) (name : String) : Bool × Listeners :=
  let rest := ls.remove name
  (decide (rest.length ≠ ls.length), rest)

/-- Others in their place, each once. -/
def ofNames (names : List String) : Listeners :=
  names.foldl add []

theorem mem_add {ls : Listeners} {name other : String} :
    other ∈ ls.add name ↔ other ∈ ls ∨ other = name := by
  unfold add
  by_cases h : name ∈ ls
  · simp only [h, if_true]
    exact ⟨Or.inl, fun h' => h'.elim id fun e => e ▸ h⟩
  · simp [h]

theorem nodup_add {ls : Listeners} (h : ls.Nodup) (name : String) : (ls.add name).Nodup := by
  unfold add
  by_cases hm : name ∈ ls
  · simpa [hm] using h
  · rw [if_neg hm, List.nodup_append]
    refine ⟨h, by simp, ?_⟩
    intro a ha b hb
    have hb' : b = name := by simpa using hb
    exact fun e => hm (by rw [← hb', ← e]; exact ha)

theorem nodup_remove {ls : Listeners} (h : ls.Nodup) (name : String) :
    (ls.remove name).Nodup :=
  h.filter _

theorem nodup_foldl_add (names : List String) {ls : Listeners} (h : ls.Nodup) :
    (names.foldl add ls).Nodup := by
  induction names generalizing ls with
  | nil => exact h
  | cons n ns ih => exact ih (nodup_add h n)

/-- No listener is registered twice. -/
theorem nodup_ofNames (names : List String) : (ofNames names).Nodup :=
  nodup_foldl_add names List.nodup_nil

end Listeners

end ListingMetadata.Watch
