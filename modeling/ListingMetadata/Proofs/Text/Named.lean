/-
  ListingMetadata.Proofs.Text.Named
  ─────────────────────────────────
  **PAIRS SORTED BY NAME.**

  However pairs are put, they stay sorted by name, no name twice.  So they are
  told by what is found under the names:

    • `Sorted.ext`        — sorted pairs under which the same is found are the same,
    • `get?_ofPairs`      — pairs of different names are found as they were,
    • `Sorted.ofPairs_eq` — sorted pairs put in turn are those pairs.

  A list without repetitions grows by what is new.
-/
import ListingMetadata.Text.Named
import Mathlib.Data.List.Basic
import Mathlib.Data.List.Induction
import Mathlib.Data.List.Nodup
import Mathlib.Data.String.Basic

namespace ListingMetadata.Text

/-- Of a list with one more element at the end, without repetitions. -/
theorem eraseDups_concat {α : Type} [DecidableEq α] (xs : List α) (x : α) :
    (xs ++ [x]).eraseDups = if x ∈ xs then xs.eraseDups else xs.eraseDups ++ [x] := by
  rw [List.eraseDups_append]
  by_cases hx : x ∈ xs
  · have hnone : [x].removeAll xs = [] := by simp [List.removeAll, hx]
    rw [if_pos hx, hnone, List.eraseDups_nil, List.append_nil]
  · have hall : [x].removeAll xs = [x] := by simp [List.removeAll, hx]
    rw [if_neg hx, hall]
    rfl

namespace Named

variable {α β : Type}

/-! ## §1. Looking up -/

theorem get?_append (m m' : Named α) (name : String) :
    get? (m ++ m') name = (m.get? name).or (m'.get? name) := by
  induction m with
  | nil => rfl
  | cons e m ih =>
    obtain ⟨n, x⟩ := e
    by_cases h : n = name
    · simp [get?, h]
    · simpa [get?, h] using ih

theorem get?_map (f : String → α → β) (m : Named α) (name : String) :
    get? (m.map fun (n, x) => (n, f n x)) name = (m.get? name).map (f name) := by
  induction m with
  | nil => rfl
  | cons e m ih =>
    obtain ⟨n, x⟩ := e
    by_cases h : n = name
    · subst h
      simp [get?]
    · simpa [get?, h] using ih

theorem get?_eq_none_iff {m : Named α} {name : String} :
    m.get? name = none ↔ name ∉ m.map Prod.fst := by
  induction m with
  | nil => simp [get?]
  | cons e m ih =>
    obtain ⟨n, x⟩ := e
    by_cases h : n = name
    · simp [get?, h]
    · simp [get?, h, ih, Ne.symm h]

/-- Under a name that comes once its own thing is found. -/
theorem get?_eq_some_iff {m : Named α} (h : (m.map Prod.fst).Nodup) {name : String} {x : α} :
    m.get? name = some x ↔ (name, x) ∈ m := by
  induction m with
  | nil => simp [get?]
  | cons e m ih =>
    obtain ⟨n, y⟩ := e
    obtain ⟨hnew, h⟩ := List.nodup_cons.mp h
    by_cases hn : n = name
    · subst hn
      have hx : (n, x) ∉ m := fun hm => hnew (List.mem_map.mpr ⟨_, hm, rfl⟩)
      simp [get?, hx, eq_comm]
    · simp [get?, hn, Ne.symm hn, ih h]

/-- Names with what they have, if they have something. -/
theorem get?_filterMap_names (f : String → Option α) (names : List String) (name : String) :
    get? (names.filterMap fun n => (f n).map fun x => (n, x)) name
      = if name ∈ names then f name else none := by
  induction names with
  | nil => rfl
  | cons n names ih =>
    by_cases hn : n = name
    · subst hn
      rw [if_pos List.mem_cons_self]
      cases hf : f n with
      | some x => simp [hf, get?]
      | none =>
        rw [List.filterMap_cons_none (by rw [hf]; rfl), ih, hf]
        exact ite_self none
    · have hmem : name ∈ n :: names ↔ name ∈ names := by simp [Ne.symm hn]
      simp only [hmem]
      rw [← ih]
      cases hf : f n with
      | some x => simp [hf, get?, hn]
      | none => simp [hf]

/-- Pairs of different names, each kept with what is made of its thing, if something
is. -/
theorem get?_filterMap {m : Named α} (h : (m.map Prod.fst).Nodup) (f : String → α → Option β)
    (name : String) :
    get? (m.filterMap fun (n, x) => (f n x).map fun y => (n, y)) name
      = (m.get? name).bind (f name) := by
  induction m with
  | nil => rfl
  | cons e m ih =>
    obtain ⟨n, x⟩ := e
    obtain ⟨hnew, h⟩ := List.nodup_cons.mp h
    by_cases hn : n = name
    · subst hn
      have hrest : get? m n = none := get?_eq_none_iff.mpr hnew
      cases hf : f n x with
      | some y => simp [hf, get?]
      | none =>
        rw [List.filterMap_cons_none (by simp [hf]), ih h, hrest]
        simp [get?, hf]
    · cases hf : f n x with
      | some y => simpa [hf, get?, hn] using ih h
      | none => simpa [hf, get?, hn] using ih h

theorem map_fst_filterMap_names_sublist (f : String → Option α) (names : List String) :
    ((names.filterMap fun n => (f n).map fun x => (n, x)).map Prod.fst).Sublist names := by
  induction names with
  | nil => exact List.Sublist.slnil
  | cons n names ih =>
    cases hf : f n with
    | some x => simpa [hf] using ih
    | none => simpa [hf] using ih.cons n

theorem map_fst_filterMap_sublist (f : String → α → Option β) (m : Named α) :
    ((m.filterMap fun (n, x) => (f n x).map fun y => (n, y)).map Prod.fst).Sublist
      (m.map Prod.fst) := by
  induction m with
  | nil => exact List.Sublist.slnil
  | cons e m ih =>
    obtain ⟨n, x⟩ := e
    cases hf : f n x with
    | some y => simpa [hf] using ih
    | none => simpa [hf] using ih.cons n

/-! ## §2. Sorted pairs -/

/-- Each name comes before all that follow it. -/
def Sorted (m : Named α) : Prop :=
  m.Pairwise fun a b => a.1 < b.1

theorem Sorted.nodup {m : Named α} (h : Sorted m) : (m.map Prod.fst).Nodup := by
  rw [List.Nodup, List.pairwise_map]
  exact h.imp fun hlt => ne_of_lt hlt

/-- **Sorted pairs are told by what is found under the names.** -/
theorem Sorted.ext {m m' : Named α} (h : Sorted m) (h' : Sorted m')
    (hget : ∀ name, m.get? name = m'.get? name) : m = m' := by
  have hperm : m.Perm m' := by
    refine (List.perm_ext_iff_of_nodup (List.Nodup.of_map _ h.nodup)
      (List.Nodup.of_map _ h'.nodup)).mpr ?_
    rintro ⟨name, x⟩
    rw [← get?_eq_some_iff h.nodup, ← get?_eq_some_iff h'.nodup, hget]
  exact hperm.eq_of_pairwise (fun _ _ _ _ hab hba => absurd hba (String.lt_asymm hab)) h h'

theorem Sorted.map {m : Named α} (h : Sorted m) (f : String → α → β) :
    Sorted (m.map fun (n, x) => (n, f n x)) :=
  List.pairwise_map.mpr h

/-- What is put last under a name is there. -/
theorem put_put (m : Named α) (name : String) (x y : α) :
    (m.put name x).put name y = m.put name y := by
  induction m with
  | nil => simp [put]
  | cons d m ih =>
    obtain ⟨n, z⟩ := d
    by_cases hn : n = name
    · simp [put, hn]
    · by_cases hl : name < n
      · simp [put, hn, hl]
      · simp [put, hn, hl, ih]

theorem mem_put {m : Named α} {name : String} {x : α} {e : String × α} (h : e ∈ m.put name x) :
    e = (name, x) ∨ e ∈ m := by
  induction m with
  | nil => exact .inl (List.mem_singleton.mp h)
  | cons d m ih =>
    obtain ⟨n, y⟩ := d
    rw [put] at h
    split at h
    · exact (List.mem_cons.mp h).imp_right (List.mem_cons_of_mem _)
    · split at h
      · exact List.mem_cons.mp h
      · obtain h | h := List.mem_cons.mp h
        · exact .inr (h ▸ List.mem_cons_self)
        · exact (ih h).imp_right (List.mem_cons_of_mem _)

theorem Sorted.put {m : Named α} (h : Sorted m) (name : String) (x : α) :
    Sorted (m.put name x) := by
  induction m with
  | nil => exact List.pairwise_singleton _ _
  | cons d m ih =>
    obtain ⟨n, y⟩ := d
    obtain ⟨hfirst, hrest⟩ := List.pairwise_cons.mp h
    rw [Named.put]
    split
    · rename_i hn
      exact List.pairwise_cons.mpr ⟨fun e he => hn ▸ hfirst e he, hrest⟩
    · rename_i hn
      split
      · rename_i hlt
        refine List.pairwise_cons.mpr ⟨fun e he => ?_, h⟩
        obtain rfl | he := List.mem_cons.mp he
        · exact hlt
        · exact String.lt_trans hlt (hfirst e he)
      · rename_i hge
        have hlt : n < name := lt_of_le_of_ne (not_lt.mp hge) hn
        refine List.pairwise_cons.mpr ⟨fun e he => ?_, ih hrest⟩
        obtain rfl | he := mem_put he
        · exact hlt
        · exact hfirst e he

theorem Sorted.foldl_put {m : Named α} (h : Sorted m) (pairs : List (String × α)) :
    Sorted (pairs.foldl (fun m (n, x) => m.put n x) m) := by
  induction pairs generalizing m with
  | nil => exact h
  | cons e pairs ih => exact ih (h.put e.1 e.2)

theorem sorted_ofPairs (pairs : List (String × α)) : Sorted (ofPairs pairs) :=
  Sorted.foldl_put List.Pairwise.nil pairs

/-! ## §3. Pairs of different names -/

theorem get?_foldl_put {pairs : List (String × α)} (h : (pairs.map Prod.fst).Nodup)
    (m : Named α) (name : String) :
    get? (pairs.foldl (fun m (n, x) => m.put n x) m) name
      = (get? pairs name).or (m.get? name) := by
  induction pairs generalizing m with
  | nil => rfl
  | cons e pairs ih =>
    obtain ⟨n, x⟩ := e
    obtain ⟨hnew, h⟩ := List.nodup_cons.mp h
    rw [List.foldl_cons, ih h]
    by_cases hn : n = name
    · subst hn
      rw [get?_put_self, get?_eq_none_iff.mpr hnew]
      simp [get?]
    · rw [get?_put_of_ne _ _ (Ne.symm hn)]
      simp [get?, hn]

/-- **Pairs of different names are found as they were.** -/
theorem get?_ofPairs {pairs : List (String × α)} (h : (pairs.map Prod.fst).Nodup)
    (name : String) : (ofPairs pairs).get? name = get? pairs name := by
  rw [ofPairs, get?_foldl_put h]
  exact Option.or_none

/-- A name that comes with one thing alone is found with it, however often it comes. -/
theorem get?_ofPairs_of_agree {pairs : List (String × α)} {name : String} {x : α}
    (hmem : (name, x) ∈ pairs) (hagree : ∀ y, (name, y) ∈ pairs → y = x) :
    (ofPairs pairs).get? name = some x := by
  -- the last pair decides
  induction pairs using List.reverseRecOn with
  | nil => cases hmem
  | append_singleton pairs e ih =>
    obtain ⟨n, y⟩ := e
    have hput : ofPairs (pairs ++ [(n, y)]) = (ofPairs pairs).put n y := by
      unfold ofPairs
      rw [List.foldl_append]
      rfl
    rw [hput]
    by_cases hn : n = name
    · subst hn
      rw [get?_put_self, hagree y (by simp)]
    · rw [get?_put_of_ne _ _ (Ne.symm hn)]
      apply ih
      · simpa [Ne.symm hn] using hmem
      · exact fun z hz => hagree z (List.mem_append_left _ hz)

/-- **Sorted pairs put in turn are those pairs.** -/
theorem Sorted.ofPairs_eq {m : Named α} (h : Sorted m) : ofPairs m = m :=
  (sorted_ofPairs m).ext h (get?_ofPairs h.nodup)

end Named

end ListingMetadata.Text
