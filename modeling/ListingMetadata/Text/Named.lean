/-
  ListingMetadata.Text.Named
  ──────────────────────────
  **THINGS BY NAME, IN THE ORDER OF THE NAMES.**

  Attributes are kept as pairs of a name and a thing, sorted by the code points
  of the names.  Looking up what was put needs no order:

      get? (put m n x) n  = some x
      get? (put m n x) n' = get? m n'      for another name n'
-/

namespace ListingMetadata.Text

/-- Pairs of a name and a thing. -/
abbrev Named (α : Type) := List (String × α)

namespace Named

variable {α : Type}

/-! ## §1. Operations -/

/-- The thing of a name. -/
def get? : Named α → String → Option α
  | [], _ => none
  | (m, x) :: rest, name => if m = name then some x else get? rest name

/-- The thing of a name replaced, or put at the place of the name. -/
def put : Named α → String → α → Named α
  | [], name, x => [(name, x)]
  | (m, y) :: rest, name, x =>
    if m = name then (name, x) :: rest
    else if name < m then (name, x) :: (m, y) :: rest
    else (m, y) :: put rest name x

/-- All but the thing of a name. -/
def drop (m : Named α) (name : String) : Named α :=
  m.filter fun (n, _) => decide (n ≠ name)

/-- The name has a thing. -/
def has (m : Named α) (name : String) : Bool :=
  (m.get? name).isSome

/-- Many pairs, a later one in the place of an earlier one. -/
def ofPairs (pairs : List (String × α)) : Named α :=
  pairs.foldl (fun m (n, x) => m.put n x) []

/-! ## §2. Looking up -/

theorem get?_put_self (m : Named α) (name : String) (x : α) :
    (m.put name x).get? name = some x := by
  induction m with
  | nil => simp [put, get?]
  | cons e rest ih =>
    obtain ⟨n, y⟩ := e
    by_cases h : n = name
    · simp [put, get?, h]
    · by_cases hl : name < n
      · simp [put, get?, h, hl]
      · simp [put, get?, h, hl, ih]

theorem get?_put_of_ne (m : Named α) {name other : String} (x : α) (h : other ≠ name) :
    (m.put name x).get? other = m.get? other := by
  induction m with
  | nil => simp [put, get?, Ne.symm h]
  | cons e rest ih =>
    obtain ⟨n, y⟩ := e
    by_cases hn : n = name
    · subst hn; simp [put, get?, Ne.symm h]
    · by_cases hl : name < n
      · simp [put, get?, hn, hl, Ne.symm h]
      · simp [put, get?, hn, hl, ih]

theorem get?_drop_self (m : Named α) (name : String) : (m.drop name).get? name = none := by
  induction m with
  | nil => rfl
  | cons e rest ih =>
    obtain ⟨n, y⟩ := e
    unfold drop at ih ⊢
    by_cases h : n = name
    · simpa [h] using ih
    · simpa [h, get?] using ih

theorem get?_drop_of_ne (m : Named α) {name other : String} (h : other ≠ name) :
    (m.drop name).get? other = m.get? other := by
  induction m with
  | nil => rfl
  | cons e rest ih =>
    obtain ⟨n, y⟩ := e
    unfold drop at ih ⊢
    by_cases hn : n = name
    · subst hn; simpa [get?, Ne.symm h] using ih
    · by_cases ho : n = other
      · subst ho; simp [get?, hn]
      · simpa [hn, ho, get?] using ih

example : Named.ofPairs [("b", 1), ("a", 2), ("b", 3)] = [("a", 2), ("b", 3)] := by decide

end Named

end ListingMetadata.Text
