/-
  ListingMetadata.Proofs.Watch.Calls
  ──────────────────────────────────
  **WHO IS REGISTERED AFTER WHICH CALLS.**

  A call adds a listener, removes one, or puts others in the place of all.
  Whatever calls were made, and however often they name one listener, it is
  registered if a call added it and no later one ended that, and the listeners
  stand in the order of the additions that made them registered:

      add a, add b, add a              →  a, b
      add a, add b, remove a, add a    →  b, a
      put b, a, b in the place of all  →  b, a

    • `standing_concat`, `madeAt_concat` — what one more call does,
    • `MadeAt.unique`                    — one addition made a listener registered,
    • `mem_afterCalls`, `ordered_afterCalls`
                                         — all calls, by induction from the last,
    • `registered_of_calls`              — both, each listener once,
    • `registered_afterCalls`            — and what a removal then tells.
-/
import Mathlib.Data.List.Basic
import Mathlib.Data.List.Induction
import ListingMetadata.Watch.Listeners

namespace ListingMetadata.Watch

/-! ## §1. Calls -/

/-- A call on the listeners. -/
inductive Call where
  | add (name : String)
  | remove (name : String)
  | replaceAll (names : List String)
deriving DecidableEq, Repr

namespace Call

/-- The listeners that a call adds, one after the other. -/
def additions : Call → List String
  | add name => [name]
  | remove _ => []
  | replaceAll names => names

/-- The call ends that a listener is registered; what the call adds itself comes
after that. -/
def Ends (name : String) : Call → Prop
  | add _ => False
  | remove other => other = name
  | replaceAll _ => True

end Call

/-- A call added the listener, and no later one ended that. -/
def Standing (calls : List Call) (name : String) : Prop :=
  ∃ before c after, calls = before ++ c :: after ∧ name ∈ c.additions ∧
    ∀ d ∈ after, ¬ d.Ends name

/-- The addition that made a listener registered that is so after all calls: how many
calls came before its call, and its place in that call. -/
def MadeAt (calls : List Call) (name : String) (moment : Nat × Nat) : Prop :=
  ∃ before c after, calls = before ++ c :: after ∧ name ∈ c.additions ∧
    (∀ d ∈ after, ¬ d.Ends name) ∧ (c.Ends name ∨ ¬ Standing before name) ∧
    moment = (before.length, c.additions.idxOf name)

/-- The first listener was made registered by an earlier call than the second, or in an
earlier place of one call. -/
def MadeEarlier (calls : List Call) (a b : String) : Prop :=
  ∃ m n, MadeAt calls a m ∧ MadeAt calls b n ∧ (m.1 < n.1 ∨ m.1 = n.1 ∧ m.2 < n.2)

/-! ## §2. One more call -/

/-- A place among calls with one more at the end is the end or a place before. -/
theorem exists_split_concat_iff {calls : List Call} {c : Call}
    {P : List Call → Call → List Call → Prop} :
    (∃ before d after, calls ++ [c] = before ++ d :: after ∧ P before d after) ↔
      P calls c [] ∨
        ∃ before d after, calls = before ++ d :: after ∧ P before d (after ++ [c]) := by
  constructor
  · rintro ⟨before, d, after, hsplit, h⟩
    rcases List.eq_nil_or_concat after with rfl | ⟨later, last, rfl⟩
    · obtain ⟨rfl, hlast⟩ := List.append_inj' hsplit rfl
      cases hlast
      exact Or.inl h
    · rw [List.concat_eq_append] at hsplit h
      have hsplit' : calls ++ [c] = (before ++ d :: later) ++ [last] := by
        rw [hsplit, List.append_assoc, List.cons_append]
      obtain ⟨rfl, hlast⟩ := List.append_inj' hsplit' rfl
      cases hlast
      exact Or.inr ⟨before, d, later, rfl, h⟩
  · rintro (h | ⟨before, d, after, rfl, h⟩)
    · exact ⟨calls, c, [], rfl, h⟩
    · exact ⟨before, d, after ++ [c], by rw [List.append_assoc, List.cons_append], h⟩

/-- **After one more call a listener is registered that it adds, or that was so before
and is not ended.** -/
theorem standing_concat {calls : List Call} {c : Call} {name : String} :
    Standing (calls ++ [c]) name ↔ name ∈ c.additions ∨ Standing calls name ∧ ¬ c.Ends name := by
  unfold Standing
  rw [exists_split_concat_iff]
  simp only [List.forall_mem_append, List.forall_mem_singleton, List.not_mem_nil, false_imp_iff,
    implies_true, and_true]
  constructor
  · rintro (h | ⟨before, d, after, hsplit, hadds, hafter, hc⟩)
    · exact Or.inl h
    · exact Or.inr ⟨⟨before, d, after, hsplit, hadds, hafter⟩, hc⟩
  · rintro (h | ⟨⟨before, d, after, hsplit, hadds, hafter⟩, hc⟩)
    · exact Or.inl h
    · exact Or.inr ⟨before, d, after, hsplit, hadds, hafter, hc⟩

/-- **One more call makes a listener registered if it adds it anew, and leaves alone what
made others so.** -/
theorem madeAt_concat {calls : List Call} {c : Call} {name : String} {moment : Nat × Nat} :
    MadeAt (calls ++ [c]) name moment ↔
      (name ∈ c.additions ∧ (c.Ends name ∨ ¬ Standing calls name) ∧
        moment = (calls.length, c.additions.idxOf name)) ∨
      MadeAt calls name moment ∧ ¬ c.Ends name := by
  unfold MadeAt
  rw [exists_split_concat_iff]
  simp only [List.forall_mem_append, List.forall_mem_singleton, List.not_mem_nil, false_imp_iff,
    implies_true, true_and]
  constructor
  · rintro (h | ⟨before, d, after, hsplit, hadds, ⟨hafter, hc⟩, hnew, hmoment⟩)
    · exact Or.inl h
    · exact Or.inr ⟨⟨before, d, after, hsplit, hadds, hafter, hnew, hmoment⟩, hc⟩
  · rintro (h | ⟨⟨before, d, after, hsplit, hadds, hafter, hnew, hmoment⟩, hc⟩)
    · exact Or.inl h
    · exact Or.inr ⟨before, d, after, hsplit, hadds, ⟨hafter, hc⟩, hnew, hmoment⟩

/-- Whom an addition made registered is so. -/
theorem MadeAt.standing {calls : List Call} {name : String} {moment : Nat × Nat}
    (h : MadeAt calls name moment) : Standing calls name := by
  obtain ⟨before, c, after, hsplit, hadds, hafter, -, -⟩ := h
  exact ⟨before, c, after, hsplit, hadds, hafter⟩

theorem not_standing_nil (name : String) : ¬ Standing [] name := by
  rintro ⟨before, c, after, hsplit, -⟩
  exact List.append_ne_nil_of_right_ne_nil before (List.cons_ne_nil c after) hsplit.symm

/-- Who is registered was made so. -/
theorem exists_madeAt {calls : List Call} {name : String} (h : Standing calls name) :
    ∃ moment, MadeAt calls name moment := by
  induction calls using List.reverseRecOn with
  | nil => exact absurd h (not_standing_nil name)
  | append_singleton calls c ih =>
    -- by this call, unless the listener was registered and is so still
    by_cases hkept : Standing calls name ∧ ¬ c.Ends name
    · obtain ⟨moment, hm⟩ := ih hkept.1
      exact ⟨moment, madeAt_concat.mpr (Or.inr ⟨hm, hkept.2⟩)⟩
    · have hadds : name ∈ c.additions := (standing_concat.mp h).resolve_right hkept
      refine ⟨_, madeAt_concat.mpr (Or.inl ⟨hadds, ?_, rfl⟩)⟩
      by_cases hc : c.Ends name
      · exact Or.inl hc
      · exact Or.inr fun hs => hkept ⟨hs, hc⟩

/-- **One addition made a listener registered.** -/
theorem MadeAt.unique {calls : List Call} {name : String} {m n : Nat × Nat}
    (hm : MadeAt calls name m) (hn : MadeAt calls name n) : m = n := by
  induction calls using List.reverseRecOn with
  | nil => exact absurd hm.standing (not_standing_nil name)
  | append_singleton calls c ih =>
    -- an addition anew and one that lasts exclude each other
    rcases madeAt_concat.mp hm with ⟨-, hnew, rfl⟩ | ⟨hm, hc⟩
    · rcases madeAt_concat.mp hn with ⟨-, -, rfl⟩ | ⟨hn, hc⟩
      · rfl
      · exact absurd hn.standing (hnew.resolve_left hc)
    · rcases madeAt_concat.mp hn with ⟨-, hnew, rfl⟩ | ⟨hn, -⟩
      · exact absurd hm.standing (hnew.resolve_left hc)
      · exact ih hm hn

theorem MadeEarlier.concat {calls : List Call} {c : Call} {a b : String}
    (h : MadeEarlier calls a b) (ha : ¬ c.Ends a) (hb : ¬ c.Ends b) :
    MadeEarlier (calls ++ [c]) a b := by
  obtain ⟨m, n, hm, hn, hlt⟩ := h
  exact ⟨m, n, madeAt_concat.mpr (Or.inr ⟨hm, ha⟩), madeAt_concat.mpr (Or.inr ⟨hn, hb⟩), hlt⟩

/-- Who is registered already was made so before any further call. -/
theorem MadeAt.lt_length {calls : List Call} {name : String} {moment : Nat × Nat}
    (h : MadeAt calls name moment) : moment.1 < calls.length := by
  obtain ⟨before, c, after, rfl, -, -, -, rfl⟩ := h
  rw [List.length_append, List.length_cons]
  omega

namespace Listeners

/-! ## §3. What single calls come to -/

theorem mem_foldl_add {names : List String} {ls : Listeners} {name : String} :
    name ∈ names.foldl add ls ↔ name ∈ ls ∨ name ∈ names := by
  induction names generalizing ls with
  | nil => simp
  | cons n ns ih =>
    rw [List.foldl_cons, ih, mem_add, List.mem_cons, or_assoc]

theorem mem_ofNames {names : List String} {name : String} : name ∈ ofNames names ↔ name ∈ names :=
  mem_foldl_add.trans (or_iff_right List.not_mem_nil)

/-- Listeners in the place of all stand in the order in which they come first. -/
theorem pairwise_ofNames (names : List String) :
    (ofNames names).Pairwise fun a b => names.idxOf a < names.idxOf b := by
  induction names using List.reverseRecOn with
  | nil => exact List.Pairwise.nil
  | append_singleton names n ih =>
    have hold : ∀ a ∈ ofNames names, (names ++ [n]).idxOf a = names.idxOf a :=
      fun a ha => List.idxOf_append_of_mem (mem_ofNames.mp ha)
    have hkept : (ofNames names).Pairwise
        fun a b => (names ++ [n]).idxOf a < (names ++ [n]).idxOf b := by
      refine ih.imp_of_mem ?_
      intro a b ha hb hab
      rwa [hold a ha, hold b hb]
    have hstep : ofNames (names ++ [n]) = (ofNames names).add n := by
      rw [ofNames, List.foldl_append]
      rfl
    rw [hstep, add]
    by_cases hn : n ∈ ofNames names
    · rwa [if_pos hn]
    · rw [if_neg hn, List.pairwise_append]
      refine ⟨hkept, List.pairwise_singleton _ _, ?_⟩
      intro a ha b hb
      obtain rfl := List.mem_singleton.mp hb
      have hlast : (names ++ [b]).idxOf b = names.length := by
        rw [List.idxOf_append_of_notMem fun h => hn (mem_ofNames.mpr h)]
        simp
      rw [hold a ha, hlast]
      exact List.idxOf_lt_length_of_mem (mem_ofNames.mp ha)

theorem mem_remove {ls : Listeners} {name other : String} :
    other ∈ ls.remove name ↔ other ∈ ls ∧ other ≠ name := by
  rw [remove, List.mem_filter, decide_eq_true_eq]

/-- **There is one less exactly if the listener was registered.** -/
theorem unregister_fst (ls : Listeners) (name : String) :
    (ls.unregister name).1 = decide (name ∈ ls) := by
  have hlength : (ls.remove name).length = ls.length ↔ name ∉ ls := by
    rw [remove, List.length_filter_eq_length_iff]
    simp only [decide_eq_true_eq]
    exact ⟨fun h hm => h name hm rfl, fun h a ha hn => h (hn ▸ ha)⟩
  show decide ((ls.remove name).length ≠ ls.length) = _
  rw [decide_eq_decide, ne_eq, hlength, not_not]

/-- Of listeners that are registered once each, that one alone is removed. -/
theorem unregister_snd {ls : Listeners} (h : ls.Nodup) (name : String) :
    (ls.unregister name).2 = ls.erase name := by
  rw [h.erase_eq_filter]
  show ls.remove name = _
  unfold remove
  apply List.filter_congr
  intro a _
  rw [bne, beq_eq_decide, decide_not]

/-! ## §4. All calls -/

/-- The listeners after a call. -/
def call (ls : Listeners) : Call → Listeners
  | .add name => ls.add name
  | .remove name => (ls.unregister name).2
  | .replaceAll names => ofNames names

/-- The listeners after calls. -/
def afterCalls (calls : List Call) : Listeners :=
  calls.foldl call []

theorem afterCalls_concat (calls : List Call) (c : Call) :
    afterCalls (calls ++ [c]) = (afterCalls calls).call c := by
  rw [afterCalls, List.foldl_append]
  rfl

theorem mem_call {ls : Listeners} {c : Call} {name : String} :
    name ∈ ls.call c ↔ name ∈ c.additions ∨ name ∈ ls ∧ ¬ c.Ends name := by
  cases c with
  | add other =>
    rw [call, mem_add, or_comm]
    simp [Call.additions, Call.Ends]
  | remove other =>
    show name ∈ ls.remove other ↔ _
    rw [mem_remove]
    simp [Call.additions, Call.Ends, eq_comm]
  | replaceAll names =>
    rw [call, mem_ofNames]
    simp [Call.additions, Call.Ends]

theorem nodup_call {ls : Listeners} (h : ls.Nodup) (c : Call) : (ls.call c).Nodup := by
  cases c with
  | add name => exact nodup_add h name
  | remove name => exact nodup_remove h name
  | replaceAll names => exact nodup_ofNames names

/-- **Who is registered after calls.** -/
theorem mem_afterCalls (calls : List Call) (name : String) :
    name ∈ afterCalls calls ↔ Standing calls name := by
  induction calls using List.reverseRecOn with
  | nil => exact iff_of_false List.not_mem_nil (not_standing_nil name)
  | append_singleton calls c ih => rw [afterCalls_concat, mem_call, standing_concat, ih]

theorem nodup_afterCalls (calls : List Call) : (afterCalls calls).Nodup := by
  induction calls using List.reverseRecOn with
  | nil => exact List.nodup_nil
  | append_singleton calls c ih =>
    rw [afterCalls_concat]
    exact nodup_call ih c

/-- **In which order.** -/
theorem ordered_afterCalls (calls : List Call) :
    (afterCalls calls).Pairwise (MadeEarlier calls) := by
  induction calls using List.reverseRecOn with
  | nil => exact List.Pairwise.nil
  | append_singleton calls c ih =>
    rw [afterCalls_concat]
    cases c with
    | add name =>
      have hkept : (afterCalls calls).Pairwise (MadeEarlier (calls ++ [.add name])) :=
        ih.imp fun h => h.concat not_false not_false
      rw [call, add]
      by_cases hn : name ∈ afterCalls calls
      · rwa [if_pos hn]
      · rw [if_neg hn, List.pairwise_append]
        refine ⟨hkept, List.pairwise_singleton _ _, ?_⟩
        intro a ha b hb
        obtain rfl := List.mem_singleton.mp hb
        -- whoever was registered before was made so by an earlier call
        obtain ⟨m, hm⟩ := exists_madeAt ((mem_afterCalls calls a).mp ha)
        have hnew : ¬ Standing calls b := fun h => hn ((mem_afterCalls calls b).mpr h)
        refine ⟨m, _, madeAt_concat.mpr (Or.inr ⟨hm, not_false⟩),
          madeAt_concat.mpr (Or.inl ⟨List.mem_singleton_self b, Or.inr hnew, rfl⟩), ?_⟩
        exact Or.inl hm.lt_length
    | remove name =>
      refine (ih.filter fun l => decide (l ≠ name)).imp_of_mem ?_
      intro a b ha hb hab
      exact hab.concat (Ne.symm (mem_remove.mp ha).2) (Ne.symm (mem_remove.mp hb).2)
    | replaceAll names =>
      refine (pairwise_ofNames names).imp_of_mem ?_
      intro a b ha hb hab
      have hmade : ∀ n ∈ ofNames names,
          MadeAt (calls ++ [.replaceAll names]) n (calls.length, names.idxOf n) :=
        fun n hn => madeAt_concat.mpr (Or.inl ⟨mem_ofNames.mp hn, Or.inl trivial, rfl⟩)
      exact ⟨_, _, hmade a ha, hmade b hb, Or.inr ⟨rfl, hab⟩⟩

/-- The listeners are those that calls leave registered, each once, in the order of the
additions that made them so. -/
structure Registered (ls : Listeners) (calls : List Call) : Prop where
  once : ls.Nodup
  mem : ∀ name, name ∈ ls ↔ Standing calls name
  made : ∀ name ∈ ls, ∃! moment, MadeAt calls name moment
  ordered : ls.Pairwise (MadeEarlier calls)

/-- The listeners after calls are those that the calls leave registered. -/
theorem registered_of_calls (calls : List Call) : (afterCalls calls).Registered calls where
  once := nodup_afterCalls calls
  mem := mem_afterCalls calls
  made := by
    intro name hname
    obtain ⟨moment, hm⟩ := exists_madeAt ((mem_afterCalls calls name).mp hname)
    exact ⟨moment, hm, fun other hother => hother.unique hm⟩
  ordered := ordered_afterCalls calls

/-- **The listeners after any calls** are those that the calls leave registered.  A
removal then tells whether the listener was among them, and removes it alone. -/
theorem registered_afterCalls (calls : List Call) :
    (afterCalls calls).Registered calls ∧
      ∀ name, ((afterCalls calls).unregister name).1 = decide (name ∈ afterCalls calls) ∧
        ((afterCalls calls).unregister name).2 = (afterCalls calls).erase name := by
  have hcalls := registered_of_calls calls
  refine ⟨hcalls, fun name => ?_⟩
  exact ⟨unregister_fst _ name, unregister_snd hcalls.once name⟩

example : afterCalls [.add "a", .add "b", .remove "a", .add "a", .add "b"] = ["b", "a"] := by
  decide
example : afterCalls [.add "c", .replaceAll ["b", "a", "b"]] = ["b", "a"] := by decide

end Listeners

end ListingMetadata.Watch
