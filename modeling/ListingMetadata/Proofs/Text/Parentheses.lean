/-
  ListingMetadata.Proofs.Text.Parentheses
  ───────────────────────────────────────
  **TEXTS AND THEIR OUTERMOST PARENTHESES.**

  A text is balanced when no prefix closes more parentheses than it opens and
  the whole closes all of them.  One pass over a text, counting how many
  parentheses are open, cuts it into what stands outside all of them and the
  groups that the outermost ones hold:

      NOT ((A) OR (B))   is   outside `NOT `, group `(A) OR (B)`

    • `Balanced.append`, `Balanced.group` — how balanced texts are put together,
    • `cut_nested`    — within a group a balanced text is passed over,
    • `spans_group`   — so the group is found with its content,
    • `spans_outside` — and so is a text between two groups.
-/
import Mathlib.Data.List.Infix

namespace ListingMetadata.Text

/-! ## §1. Balanced texts -/

/-- No prefix of a text closes more parentheses than it opens beyond some that
are open before it. -/
def ClosesWithin (opened : Nat) (cs : List Char) : Prop :=
  ∀ p, p <+: cs → p.count ')' ≤ opened + p.count '('

/-- No prefix closes more parentheses than it opens, and the whole closes all. -/
structure Balanced (cs : List Char) : Prop where
  closes : ClosesWithin 0 cs
  even : cs.count '(' = cs.count ')'

/-- A text without parentheses. -/
def Unbracketed (cs : List Char) : Prop :=
  '(' ∉ cs ∧ ')' ∉ cs

instance (cs : List Char) : Decidable (Unbracketed cs) :=
  inferInstanceAs (Decidable (_ ∧ _))

instance (opened : Nat) (cs : List Char) : Decidable (ClosesWithin opened cs) :=
  decidable_of_iff (∀ p ∈ cs.inits, p.count ')' ≤ opened + p.count '(') <| by
    simp only [List.mem_inits]
    rfl

instance (cs : List Char) : Decidable (Balanced cs) :=
  decidable_of_iff (ClosesWithin 0 cs ∧ cs.count '(' = cs.count ')')
    ⟨fun h => ⟨h.1, h.2⟩, fun h => ⟨h.closes, h.even⟩⟩

theorem count_cons_opening (cs : List Char) :
    ('(' :: cs).count '(' = cs.count '(' + 1 ∧ ('(' :: cs).count ')' = cs.count ')' :=
  ⟨List.count_cons_self, List.count_cons_of_ne (by decide)⟩

theorem count_cons_closing (cs : List Char) :
    (')' :: cs).count '(' = cs.count '(' ∧ (')' :: cs).count ')' = cs.count ')' + 1 :=
  ⟨List.count_cons_of_ne (by decide), List.count_cons_self⟩

theorem balanced_of_unbracketed {cs : List Char} (h : Unbracketed cs) : Balanced cs where
  closes p hp := by
    rw [List.count_eq_zero_of_not_mem fun hmem => h.2 (hp.subset hmem)]
    exact Nat.zero_le _
  even := by
    rw [List.count_eq_zero_of_not_mem h.1, List.count_eq_zero_of_not_mem h.2]

theorem balanced_nil : Balanced [] :=
  balanced_of_unbracketed ⟨List.not_mem_nil, List.not_mem_nil⟩

namespace Balanced

variable {s t : List Char}

theorem append (hs : Balanced s) (ht : Balanced t) : Balanced (s ++ t) where
  closes p hp := by
    rcases List.prefix_or_prefix_of_prefix hp (List.prefix_append s t) with hps | ⟨q, rfl⟩
    · exact hs.closes p hps
    · -- past the first text nothing is open, so the second counts for itself
      have hq := ht.closes q ((List.prefix_append_right_inj s).mp hp)
      have heven := hs.even
      rw [List.count_append, List.count_append]
      omega
  even := by
    rw [List.count_append, List.count_append, hs.even, ht.even]

/-- A balanced text in parentheses. -/
theorem group (ht : Balanced t) : Balanced ('(' :: (t ++ [')'])) where
  closes p hp := by
    rcases List.prefix_cons_iff.mp hp with rfl | ⟨q, rfl, hq⟩
    · exact Nat.zero_le _
    · have hopened : ('(' :: q).count '(' = q.count '(' + 1 := List.count_cons_self
      rw [(count_cons_opening q).1, (count_cons_opening q).2]
      rcases List.prefix_or_prefix_of_prefix hq (List.prefix_append t [')']) with hqt | ⟨r, rfl⟩
      · have hle := ht.closes q hqt
        omega
      · have hr := ((List.prefix_append_right_inj t).mp hq).sublist.count_le ')'
        have heven := ht.even
        rw [List.count_append, List.count_append]
        rw [List.count_singleton_self] at hr
        omega
  even := by
    have hopened : ('(' :: (t ++ [')'])).count '(' = t.count '(' + 1 := by simp
    have hclosed : ('(' :: (t ++ [')'])).count ')' = t.count ')' + 1 := by simp
    rw [hopened, hclosed, ht.even]

end Balanced

/-! ## §2. Behind one character -/

namespace ClosesWithin

variable {n : Nat} {cs : List Char}

/-- Behind an opening parenthesis one more may be closed. -/
theorem of_opening (h : ClosesWithin n ('(' :: cs)) : ClosesWithin (n + 1) cs := by
  intro p hp
  have hle := h ('(' :: p) ((List.prefix_cons_inj '(').mpr hp)
  rw [(count_cons_opening p).1, (count_cons_opening p).2] at hle
  omega

/-- A closing one needs one that is open, and behind it one less may be closed. -/
theorem of_closing (h : ClosesWithin n (')' :: cs)) : ∃ m, n = m + 1 ∧ ClosesWithin m cs := by
  have hle : ∀ p, p <+: cs → p.count ')' + 1 ≤ n + p.count '(' := by
    intro p hp
    have hle := h (')' :: p) ((List.prefix_cons_inj ')').mpr hp)
    rwa [(count_cons_closing p).1, (count_cons_closing p).2] at hle
  have hopen : 1 ≤ n := hle [] List.nil_prefix
  refine ⟨n - 1, by omega, fun p hp => ?_⟩
  have hp := hle p hp
  omega

theorem of_plain {c : Char} (hopen : c ≠ '(') (hclose : c ≠ ')')
    (h : ClosesWithin n (c :: cs)) : ClosesWithin n cs := by
  intro p hp
  have hle := h (c :: p) ((List.prefix_cons_inj c).mpr hp)
  rwa [List.count_cons_of_ne hopen, List.count_cons_of_ne hclose] at hle

end ClosesWithin

/-! ## §3. One pass over a text -/

/-- A stretch of a text, as the outermost parentheses cut it. -/
inductive Span where
  /-- Text outside all parentheses. -/
  | outside (cs : List Char)
  /-- What an outermost pair of parentheses holds. -/
  | group (cs : List Char)
deriving DecidableEq, Repr

/-- Text outside all parentheses before other stretches, unless there is none. -/
def Span.after : List Char → List Span → List Span
  | [], ss => ss
  | c :: cs, ss => outside (c :: cs) :: ss

/-- What was found, with characters before it. -/
def ahead (cs : List Char) (found : List Char × List Span) : List Char × List Span :=
  (cs ++ found.1, found.2)

/-- The characters up to the next outermost parenthesis, and the stretches from
there on; nothing if the parentheses do not match.  The number is that of the
parentheses that are open. -/
def cut : Nat → List Char → Option (List Char × List Span)
  | 0, [] => some ([], [])
  | _ + 1, [] => none
  | n, c :: cs =>
    if c = '(' then
      match n with
      | 0 => (cut 1 cs).map fun (inside, ss) => ([], Span.group inside :: ss)
      | n + 1 => (cut (n + 2) cs).map (ahead [c])
    else if c = ')' then
      match n with
      | 0 => none
      | 1 => (cut 0 cs).map fun (outside, ss) => ([], Span.after outside ss)
      | n + 2 => (cut (n + 1) cs).map (ahead [c])
    else (cut n cs).map (ahead [c])

/-- **The stretches of a text**, if its parentheses match. -/
def spans (cs : List Char) : Option (List Span) :=
  (cut 0 cs).map fun (outside, ss) => Span.after outside ss

/-! ## §4. Groups and what stands between them -/

theorem map_ahead_nil (found : Option (List Char × List Span)) : found.map (ahead []) = found := by
  show found.map id = found
  rw [Option.map_id, id]

theorem map_ahead_cons (c : Char) (cs : List Char) (found : Option (List Char × List Span)) :
    (found.map (ahead cs)).map (ahead [c]) = found.map (ahead (c :: cs)) := by
  rw [Option.map_map]
  rfl

theorem cut_plain {c : Char} (hopen : c ≠ '(') (hclose : c ≠ ')') (n : Nat) (cs : List Char) :
    cut n (c :: cs) = (cut n cs).map (ahead [c]) := by
  cases n <;> rw [cut, if_neg hopen, if_neg hclose]

/-- **Within parentheses a text is passed over that does not close them.** -/
theorem cut_nested {t : List Char} {n : Nat} (ht : ClosesWithin n t) (rest : List Char) :
    cut (n + 1) (t ++ rest)
      = (cut (n + t.count '(' - t.count ')' + 1) rest).map (ahead t) := by
  induction t generalizing n with
  | nil => exact (map_ahead_nil _).symm
  | cons c t ih =>
    rw [List.cons_append]
    -- what is open behind the first character is open before the others
    by_cases hopen : c = '('
    · subst hopen
      have hdepth : n + ('(' :: t).count '(' - ('(' :: t).count ')'
          = n + 1 + t.count '(' - t.count ')' := by
        rw [(count_cons_opening t).1, (count_cons_opening t).2]
        omega
      rw [cut, if_pos rfl]
      show (cut (n + 2) (t ++ rest)).map (ahead ['(']) = _
      rw [ih ht.of_opening, map_ahead_cons, hdepth]
    · by_cases hclose : c = ')'
      · subst hclose
        obtain ⟨m, rfl, hm⟩ := ht.of_closing
        have hdepth : m + 1 + (')' :: t).count '(' - (')' :: t).count ')'
            = m + t.count '(' - t.count ')' := by
          rw [(count_cons_closing t).1, (count_cons_closing t).2]
          omega
        rw [cut, if_neg hopen, if_pos rfl]
        show (cut (m + 1) (t ++ rest)).map (ahead [')']) = _
        rw [ih hm, map_ahead_cons, hdepth]
      · rw [cut_plain hopen hclose, ih (ht.of_plain hopen hclose), map_ahead_cons,
          List.count_cons_of_ne hopen, List.count_cons_of_ne hclose]

/-- **A balanced text in parentheses is a group**, whatever follows. -/
theorem spans_group {t : List Char} (ht : Balanced t) (rest : List Char) :
    spans ('(' :: (t ++ ')' :: rest)) = (spans rest).map (Span.group t :: ·) := by
  have hinside : cut 1 (t ++ ')' :: rest) = (cut 1 (')' :: rest)).map (ahead t) := by
    have h := cut_nested ht.closes (')' :: rest)
    rwa [ht.even, Nat.zero_add, Nat.zero_add, Nat.sub_self] at h
  have hclosing : cut 1 (')' :: rest)
      = (cut 0 rest).map fun (outside, ss) => ([], Span.after outside ss) := by
    rw [cut, if_neg (by decide), if_pos rfl]
  unfold spans
  rw [cut, if_pos rfl, hinside, hclosing]
  simp only [Option.map_map]
  congr 1
  funext found
  simp [ahead, Span.after]

theorem cut_unbracketed {s : List Char} (hs : Unbracketed s) (n : Nat) (rest : List Char) :
    cut n (s ++ rest) = (cut n rest).map (ahead s) := by
  induction s with
  | nil => exact (map_ahead_nil _).symm
  | cons c s ih =>
    obtain ⟨hopen, hclose⟩ := hs
    rw [List.mem_cons, not_or] at hopen hclose
    rw [List.cons_append, cut_plain (Ne.symm hopen.1) (Ne.symm hclose.1),
      ih ⟨hopen.2, hclose.2⟩, map_ahead_cons]

/-- **Text before a group stands outside all parentheses.** -/
theorem spans_outside {s : List Char} (hs : Unbracketed s) (hne : s ≠ []) (rest : List Char) :
    spans (s ++ '(' :: rest) = (spans ('(' :: rest)).map (Span.outside s :: ·) := by
  have hgroup : cut 0 ('(' :: rest)
      = (cut 1 rest).map fun (inside, ss) => ([], Span.group inside :: ss) := by
    rw [cut, if_pos rfl]
  have hafter : ∀ ss, Span.after s ss = Span.outside s :: ss := by
    intro ss
    cases s with
    | nil => exact absurd rfl hne
    | cons c s => rfl
  unfold spans
  rw [cut_unbracketed hs, hgroup]
  simp only [Option.map_map]
  congr 1
  funext found
  show Span.after (s ++ []) (Span.group found.1 :: found.2) = _
  rw [List.append_nil, hafter]
  rfl

example : spans "NOT ((A) OR (B))".toList
    = some [.outside "NOT ".toList, .group "(A) OR (B)".toList] := by decide

end ListingMetadata.Text
