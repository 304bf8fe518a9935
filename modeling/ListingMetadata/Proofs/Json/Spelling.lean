/-
  ListingMetadata.Proofs.Json.Spelling
  ────────────────────────────────────
  **JSON TEXTS AND THE VALUES THAT THEY SPELL.**

  A value can be spelled in many texts, which differ in the blanks between their
  parts.  Reading tells of any of them the value; that the numbers are whole and fit
  64 bits is all that it takes:

      {"a":[1,2]}      {"a": [1, 2]}      { "a" : [ 1 , 2 ] }

    • `Spells`               — a text spells a value,
    • `Spells.readDraft`     — what is read of a spelling, whatever follows,
    • `draftOf_of_spells`    — a spelling is read to its end,
    • `spells_compact`, `spells_indented` — both ways to write spell the value,
    • `tree_draft`           — the value is found again, down to a depth.
-/
import ListingMetadata.Json.Draft
import ListingMetadata.Proofs.Json.Lexemes

namespace ListingMetadata.Json

open ListingMetadata.Number

/-! ## §1. Blanks -/

/-- Only blanks. -/
def Blanks (cs : List Char) : Prop :=
  ∀ c ∈ cs, isJsonBlank c = true

theorem blanks_nil : Blanks [] := by
  intro c hc
  cases hc

theorem blanks_space : Blanks [' '] := by
  intro c hc
  rw [List.mem_singleton.mp hc]
  rfl

theorem blanks_newLine (level : Nat) : Blanks (newLine level) := by
  intro c hc
  rcases List.mem_cons.mp hc with rfl | hc
  · rfl
  · rw [List.eq_of_mem_replicate hc]
    rfl

theorem skipBlanks_cons {c : Char} (h : isJsonBlank c = false) (cs : List Char) :
    skipBlanks (c :: cs) = c :: cs :=
  List.dropWhile_cons_of_neg (by rw [h]; decide)

theorem skipBlanks_append {b : List Char} (hb : Blanks b) (cs : List Char) :
    skipBlanks (b ++ cs) = skipBlanks cs :=
  List.dropWhile_append_of_pos hb

/-- What is in front of an item or a member: blanks, and for all but the first a
comma. -/
def Separates : Bool → List Char → Prop
  | true, sep => Blanks sep
  | false, sep => ∃ b b', Blanks b ∧ Blanks b' ∧ sep = b ++ ',' :: b'

/-! ## §2. Spellings -/

/-- A whole number that 64 bits hold, with a sign or without. -/
def Fits (v : Int) : Prop :=
  -(maxInt + 1 : Nat) ≤ v ∧ v ≤ maxNat

mutual

/-- A text spells a value. -/
inductive Spells : List Char → Tree → Prop where
  | null : Spells Tree.null.scalar .null
  | bool (b : Bool) : Spells (Tree.bool b).scalar (.bool b)
  | whole {v : Int} (h : Fits v) : Spells (shown v) (.whole v)
  | text (s : String) : Spells (quotedText s) (.text s)
  | list {cs : List Char} {ts : List Tree} (h : SpellsItems true cs ts) :
      Spells ('[' :: cs) (.list ts)
  | object {cs : List Char} {ms : List (String × Tree)} (h : SpellsMembers true cs ms) :
      Spells ('{' :: cs) (.object ms)

/-- A text spells the items of a list and its end. -/
inductive SpellsItems : Bool → List Char → List Tree → Prop where
  | closed {first : Bool} {b : List Char} (hb : Blanks b) : SpellsItems first (b ++ [']']) []
  | item {first : Bool} {sep cs ds : List Char} {t : Tree} {ts : List Tree}
      (hsep : Separates first sep) (h : Spells cs t) (hrest : SpellsItems false ds ts) :
      SpellsItems first (sep ++ (cs ++ ds)) (t :: ts)

/-- A text spells the members of an object and its end. -/
inductive SpellsMembers : Bool → List Char → List (String × Tree) → Prop where
  | closed {first : Bool} {b : List Char} (hb : Blanks b) : SpellsMembers first (b ++ ['}']) []
  | member {first : Bool} {sep b b' cs ds : List Char} {name : String} {t : Tree}
      {ms : List (String × Tree)} (hsep : Separates first sep) (hb : Blanks b) (hb' : Blanks b')
      (h : Spells cs t) (hrest : SpellsMembers false ds ms) :
      SpellsMembers first (sep ++ (quotedText name ++ (b ++ ':' :: (b' ++ (cs ++ ds)))))
        ((name, t) :: ms)

end

/-! ## §3. First characters -/

theorem isJsonBlank_of_isDigit {c : Char} (h : c.isDigit = true) : isJsonBlank c = false := by
  unfold isJsonBlank
  simp only [Bool.or_eq_false_iff, beq_eq_false_iff_ne]
  refine ⟨⟨⟨?_, ?_⟩, ?_⟩, ?_⟩ <;> rintro rfl <;> exact absurd h (by decide)

theorem exists_shown_cons (v : Int) :
    ∃ c cs, shown v = c :: cs ∧ (c = '-' ∨ c.isDigit = true) := by
  unfold shown
  split
  · exact ⟨'-', _, rfl, .inl rfl⟩
  · obtain ⟨c, cs, hc⟩ := List.exists_cons_of_ne_nil (digits_ne_nil v.natAbs)
    have hdigit : c.isDigit = true := allDigits_digits v.natAbs c (by rw [hc]; exact List.mem_cons_self)
    exact ⟨c, cs, hc, .inr hdigit⟩

/-- A spelling begins neither with a blank nor with a closing bracket. -/
theorem Spells.exists_cons {cs : List Char} {t : Tree} (h : Spells cs t) :
    ∃ c cs', cs = c :: cs' ∧ isJsonBlank c = false ∧ c ≠ ']' := by
  cases h with
  | null => exact ⟨'n', _, rfl, by decide, by decide⟩
  | bool b =>
    cases b with
    | true => exact ⟨'t', _, rfl, by decide, by decide⟩
    | false => exact ⟨'f', _, rfl, by decide, by decide⟩
  | text s => exact ⟨'"', _, rfl, by decide, by decide⟩
  | list h => exact ⟨'[', _, rfl, by decide, by decide⟩
  | object h => exact ⟨'{', _, rfl, by decide, by decide⟩
  | @whole v hv =>
    obtain ⟨c, cs, hc, hfirst⟩ := exists_shown_cons v
    refine ⟨c, cs, hc, ?_⟩
    rcases hfirst with rfl | hdigit
    · decide
    · refine ⟨isJsonBlank_of_isDigit hdigit, ?_⟩
      rintro rfl
      exact absurd hdigit (by decide)

theorem stops_of_blank {c : Char} (h : isJsonBlank c = true) (cs : List Char) :
    Stops (c :: cs) := by
  unfold isJsonBlank at h
  simp only [Bool.or_eq_true, beq_iff_eq] at h
  rcases h with ((rfl | rfl) | rfl) | rfl <;> exact stops_cons_iff.mpr rfl

theorem stops_append {b : List Char} (hb : Blanks b) {cs : List Char} (h : Stops cs) :
    Stops (b ++ cs) := by
  cases b with
  | nil => exact h
  | cons c b => exact stops_of_blank (hb c List.mem_cons_self) _

theorem Separates.stops {sep : List Char} (h : Separates false sep) (cs : List Char) :
    Stops (sep ++ cs) := by
  obtain ⟨b, b', hb, -, rfl⟩ := h
  rw [List.append_assoc]
  exact stops_append hb (stops_cons_iff.mpr rfl)

/-- After an item stands nothing that goes on with a number. -/
theorem SpellsItems.stops {ds : List Char} {ts : List Tree} (h : SpellsItems false ds ts)
    (rest : List Char) : Stops (ds ++ rest) := by
  cases h with
  | closed hb =>
    rw [List.append_assoc]
    exact stops_append hb (stops_cons_iff.mpr rfl)
  | item hsep h hrest =>
    rw [List.append_assoc]
    exact hsep.stops _

/-- After a member stands nothing that goes on with a number. -/
theorem SpellsMembers.stops {ds : List Char} {ms : List (String × Tree)}
    (h : SpellsMembers false ds ms) (rest : List Char) : Stops (ds ++ rest) := by
  cases h with
  | closed hb =>
    rw [List.append_assoc]
    exact stops_append hb (stops_cons_iff.mpr rfl)
  | member hsep hb hb' h hrest =>
    rw [List.append_assoc]
    exact hsep.stops _

/-! ## §4. Drafts of values -/

mutual

/-- What is read of a spelling of a value. -/
def Tree.draft : Tree → Draft
  | .null => .null
  | .bool b => .bool b
  | .whole v => .number ⟨.ok (.whole v), none⟩
  | .fraction negative size => .number ⟨.ok (.fraction negative size), none⟩
  | .text s => .text ⟨.ok s, none⟩
  | .list items => .list (itemDrafts items) .closed
  | .object members => .object (memberDrafts members) .closed

/-- What is read of the items of a list. -/
def itemDrafts : List Tree → List Draft
  | [] => []
  | t :: ts => t.draft :: itemDrafts ts

/-- What is read of the members of an object. -/
def memberDrafts : List (String × Tree) → List (Lexeme String × Draft)
  | [] => []
  | (name, t) :: ms => (⟨.ok name, none⟩, t.draft) :: memberDrafts ms

end

/-! ## §5. Reading the parts -/

theorem readWord_self (letters rest : List Char) (meant : Draft) :
    readWord letters meant (letters ++ rest) = (meant, some rest) := by
  induction letters with
  | nil => rfl
  | cons l ls ih => exact (if_pos rfl).trans ih

theorem readDraft_digit {n : Nat} {c : Char} (h : c.isDigit = true) (cs : List Char) :
    readDraft (n + 1) (c :: cs)
      = (.number (numberLexeme false (c :: cs)).1, (numberLexeme false (c :: cs)).2) := by
  rw [readDraft, skipBlanks_cons (isJsonBlank_of_isDigit h)]
  -- a digit is none of the characters that other values begin with
  split <;> rename_i heq <;> cases heq
  case h_9 => exact if_pos h
  all_goals exact absurd h (by decide)

/-- **A whole number is read from its text**, if nothing goes on with it. -/
theorem readDraft_shown {v : Int} (h : Fits v) {n : Nat} {rest : List Char} (hrest : Stops rest) :
    readDraft (n + 1) (shown v ++ rest) = ((Tree.whole v).draft, some rest) := by
  obtain ⟨hlo, hhi⟩ := h
  unfold shown
  split
  · rename_i hneg
    have hvalue : -(v.natAbs : Int) = v := by omega
    show readDraft (n + 1) ('-' :: (digits v.natAbs ++ rest)) = _
    rw [readDraft, skipBlanks_cons (by decide)]
    simp only [numberLexeme_negative (n := v.natAbs) (by omega) (by omega) hrest, hvalue]
    rfl
  · rename_i hpos
    have hvalue : (v.natAbs : Int) = v := by omega
    obtain ⟨c, cs, hc⟩ := List.exists_cons_of_ne_nil (digits_ne_nil v.natAbs)
    have hdigit : c.isDigit = true :=
      allDigits_digits v.natAbs c (by rw [hc]; exact List.mem_cons_self)
    have hlexeme := numberLexeme_digits (n := v.natAbs) (by omega) hrest
    rw [hc] at hlexeme ⊢
    rw [List.cons_append] at hlexeme ⊢
    rw [readDraft_digit hdigit, hlexeme, hvalue]
    rfl

theorem readItems_blanks {b : List Char} (hb : Blanks b) (n : Nat) (first : Bool)
    (cs : List Char) : readItems n first (b ++ cs) = readItems n first cs := by
  cases n with
  | zero => rfl
  | succ n => rw [readItems, readItems, skipBlanks_append hb]

theorem readMembers_blanks {b : List Char} (hb : Blanks b) (n : Nat) (first : Bool)
    (cs : List Char) : readMembers n first (b ++ cs) = readMembers n first cs := by
  cases n with
  | zero => rfl
  | succ n => rw [readMembers, readMembers, skipBlanks_append hb]

/-- After what separates it an item is read. -/
theorem readItems_item {n : Nat} {first : Bool} {sep : List Char} (hsep : Separates first sep)
    {c : Char} (hblank : isJsonBlank c = false) (hend : c ≠ ']') (cs : List Char) :
    readItems (n + 1) first (sep ++ c :: cs) = readItem n (c :: cs) := by
  cases first with
  | true =>
    rw [readItems_blanks hsep, readItems, skipBlanks_cons hblank]
    split <;> rename_i heq <;> cases heq
    · exact absurd rfl hend
    · rfl
  | false =>
    obtain ⟨b, b', hb, hb', rfl⟩ := hsep
    rw [List.append_assoc, readItems_blanks hb, List.cons_append, readItems,
      skipBlanks_cons (by decide)]
    split <;> rename_i heq <;> cases heq
    rw [if_neg Bool.false_ne_true, if_pos rfl, skipBlanks_append hb', skipBlanks_cons hblank]
    split
    · rename_i heq
      cases heq
    · rename_i heq
      cases heq
      exact absurd rfl hend
    · rfl

/-- After what separates it a member is read. -/
theorem readMembers_member {n : Nat} {first : Bool} {sep : List Char}
    (hsep : Separates first sep) (cs : List Char) :
    readMembers (n + 1) first (sep ++ '"' :: cs) = readMember n cs := by
  cases first with
  | true =>
    rw [readMembers_blanks hsep]
    rfl
  | false =>
    obtain ⟨b, b', hb, hb', rfl⟩ := hsep
    rw [List.append_assoc, readMembers_blanks hb, List.cons_append, readMembers,
      skipBlanks_cons (by decide)]
    split <;> rename_i heq <;> cases heq
    rw [if_neg Bool.false_ne_true, if_pos rfl, skipBlanks_append hb']
    rfl

theorem readItem_of {n : Nat} {cs rest rest' : List Char} {d : Draft} {ds : List Draft}
    (h : readDraft n cs = (d, some rest))
    (hrest : readItems n false rest = (ds, .closed, some rest')) :
    readItem (n + 1) cs = (d :: ds, .closed, some rest') := by
  rw [readItem, h]
  dsimp only
  rw [hrest]

theorem readMember_of {n : Nat} {name : String} {b cs rest rest' : List Char} (hb : Blanks b)
    {d : Draft} {ms : List (Lexeme String × Draft)} (h : readDraft n cs = (d, some rest))
    (hrest : readMembers n false rest = (.object ms .closed, some rest')) :
    readMember (n + 1) (name.toList.flatMap escapedChar ++ '"' :: (b ++ ':' :: cs))
      = (.object ((⟨.ok name, none⟩, d) :: ms) .closed, some rest') := by
  rw [readMember, textLexeme_quoted]
  dsimp only
  rw [skipBlanks_append hb, skipBlanks_cons (by decide)]
  split
  · rename_i heq
    cases heq
  · rename_i heq
    cases heq
    rw [h]
    dsimp only
    rw [hrest]
  · rename_i hother
    exact absurd rfl (hother cs)

theorem readDraft_blanks {b : List Char} (hb : Blanks b) (n : Nat) (cs : List Char) :
    readDraft n (b ++ cs) = readDraft n cs := by
  cases n with
  | zero => rfl
  | succ n => rw [readDraft, readDraft, skipBlanks_append hb]

theorem readDraft_quoted (n : Nat) (s : String) (rest : List Char) :
    readDraft (n + 1) (quotedText s ++ rest) = ((Tree.text s).draft, some rest) := by
  have hlexeme := textLexeme_quoted s rest
  show (Draft.text (textLexeme (s.toList.flatMap escapedChar ++ ['"'] ++ rest)).1,
    (textLexeme (s.toList.flatMap escapedChar ++ ['"'] ++ rest)).2) = _
  rw [List.append_assoc, List.singleton_append, hlexeme]
  rfl

/-! ## §6. Reading spellings -/

theorem SpellsItems.length_pos {first : Bool} {cs : List Char} {ts : List Tree}
    (h : SpellsItems first cs ts) : 0 < cs.length := by
  cases h with
  | closed hb => simp
  | item hsep h hrest =>
    obtain ⟨c, cs', rfl, -, -⟩ := h.exists_cons
    simp only [List.length_append, List.length_cons]
    omega

theorem SpellsMembers.length_pos {first : Bool} {cs : List Char} {ms : List (String × Tree)}
    (h : SpellsMembers first cs ms) : 0 < cs.length := by
  cases h with
  | closed hb => simp
  | member hsep hb hb' h hrest =>
    simp only [List.length_append, List.length_cons]
    omega

mutual

/-- **What is read of a spelling**, whatever follows that does not go on with a
number.  Each character takes three steps at most. -/
theorem Spells.readDraft {cs : List Char} {t : Tree} (h : Spells cs t) {n : Nat}
    {rest : List Char} (hn : 3 * cs.length ≤ n) (hrest : Stops rest) :
    readDraft n (cs ++ rest) = (t.draft, some rest) := by
  have hpos : 0 < cs.length := by
    obtain ⟨c, cs', rfl, -, -⟩ := h.exists_cons
    simp
  obtain ⟨n, rfl⟩ := Nat.exists_eq_add_of_lt (show 0 < n by omega)
  rw [Nat.zero_add]
  cases h with
  | null => exact readWord_self ['u', 'l', 'l'] rest .null
  | bool b =>
    cases b with
    | true => exact readWord_self ['r', 'u', 'e'] rest (.bool true)
    | false => exact readWord_self ['a', 'l', 's', 'e'] rest (.bool false)
  | whole hv => exact readDraft_shown hv hrest
  | text s => exact readDraft_quoted n s rest
  | @list cs ts h =>
    have hitems : readItems n true (cs ++ rest) = (itemDrafts ts, .closed, some rest) :=
      h.readItems (by simp at hn; omega)
    show (Draft.list (readItems n true (cs ++ rest)).1 (readItems n true (cs ++ rest)).2.1,
      (readItems n true (cs ++ rest)).2.2) = _
    rw [hitems]
    rfl
  | @object cs ms h => exact h.readMembers (by simp at hn; omega)

/-- What is read of the items of a list and its end. -/
theorem SpellsItems.readItems {first : Bool} {cs : List Char} {ts : List Tree}
    (h : SpellsItems first cs ts) {n : Nat} {rest : List Char} (hn : 3 * cs.length ≤ n) :
    readItems n first (cs ++ rest) = (itemDrafts ts, .closed, some rest) := by
  cases h with
  | @closed first b hb =>
    obtain ⟨n, rfl⟩ := Nat.exists_eq_add_of_lt (show 0 < n by simp at hn; omega)
    rw [Nat.zero_add, List.append_assoc, readItems_blanks hb]
    rfl
  | @item first sep cs ds t ts hsep h hds =>
    obtain ⟨c, cs', hcs, hblank, hend⟩ := h.exists_cons
    have hpos := hds.length_pos
    have hcpos : 0 < cs.length := by simp [hcs]
    simp only [List.length_append] at hn
    obtain ⟨n, rfl⟩ := Nat.exists_eq_add_of_le (show 2 ≤ n by omega)
    have hitem : readDraft n (cs ++ (ds ++ rest)) = (t.draft, some (ds ++ rest)) :=
      h.readDraft (by omega) (hds.stops rest)
    have hmore : readItems n false (ds ++ rest) = (itemDrafts ts, .closed, some rest) :=
      hds.readItems (by omega)
    have hread := readItem_of hitem hmore
    rw [Nat.add_comm 2 n, List.append_assoc, List.append_assoc]
    rw [hcs, List.cons_append] at hread ⊢
    rw [readItems_item hsep hblank hend]
    exact hread

/-- What is read of the members of an object and its end. -/
theorem SpellsMembers.readMembers {first : Bool} {cs : List Char} {ms : List (String × Tree)}
    (h : SpellsMembers first cs ms) {n : Nat} {rest : List Char} (hn : 3 * cs.length ≤ n) :
    readMembers n first (cs ++ rest) = (.object (memberDrafts ms) .closed, some rest) := by
  cases h with
  | @closed first b hb =>
    obtain ⟨n, rfl⟩ := Nat.exists_eq_add_of_lt (show 0 < n by simp at hn; omega)
    rw [Nat.zero_add, List.append_assoc, readMembers_blanks hb]
    rfl
  | @member first sep b b' cs ds name t ms hsep hb hb' h hds =>
    have hpos := hds.length_pos
    have hquoted : 2 ≤ (quotedText name).length := by simp [quotedText]
    simp only [List.length_append, List.length_cons] at hn
    obtain ⟨n, rfl⟩ := Nat.exists_eq_add_of_le (show 2 ≤ n by omega)
    have hmember : readDraft n (b' ++ (cs ++ (ds ++ rest))) = (t.draft, some (ds ++ rest)) :=
      (readDraft_blanks hb' n _).trans (h.readDraft (by omega) (hds.stops rest))
    have hmore : readMembers n false (ds ++ rest) = (.object (memberDrafts ms) .closed, some rest) :=
      hds.readMembers (by omega)
    rw [Nat.add_comm 2 n]
    simp only [quotedText, List.append_assoc, List.cons_append, List.nil_append]
    exact (readMembers_member hsep _).trans (readMember_of hb hmember hmore)

end

/-- **A spelling is read to its end.** -/
theorem draftOf_of_spells {text : String} {t : Tree} (h : Spells text.toList t) :
    draftOf text = (t.draft, none) := by
  have hread : readDraft (3 * text.toList.length + 3) (text.toList ++ []) = (t.draft, some []) :=
    h.readDraft (by omega) trivial
  rw [List.append_nil] at hread
  unfold draftOf
  dsimp only
  rw [hread]
  rfl

/-! ## §7. Writing -/

mutual

/-- All numbers are whole and fit 64 bits. -/
def Tree.Exact : Tree → Prop
  | .null => True
  | .bool _ => True
  | .whole v => Fits v
  | .fraction _ _ => False
  | .text _ => True
  | .list items => ExactItems items
  | .object members => ExactMembers members

/-- All numbers of items are whole and fit 64 bits. -/
def ExactItems : List Tree → Prop
  | [] => True
  | t :: ts => t.Exact ∧ ExactItems ts

/-- All numbers of members are whole and fit 64 bits. -/
def ExactMembers : List (String × Tree) → Prop
  | [] => True
  | (_, t) :: ms => t.Exact ∧ ExactMembers ms

end

theorem exactItems_iff {ts : List Tree} : ExactItems ts ↔ ∀ t ∈ ts, t.Exact := by
  induction ts with
  | nil =>
    constructor
    · intro _ t ht
      cases ht
    · intro _
      trivial
  | cons t ts ih => rw [ExactItems, ih, List.forall_mem_cons]

/-- The comma alone. -/
theorem separates_comma (first : Bool) : Separates first (if first then [] else [',']) := by
  cases first with
  | true => exact blanks_nil
  | false => exact ⟨[], [], blanks_nil, blanks_nil, rfl⟩

/-- The comma and a new line. -/
theorem separates_newLine (level : Nat) : Separates false (',' :: newLine level) :=
  ⟨[], newLine level, blanks_nil, blanks_newLine level, rfl⟩

mutual

/-- **Written without blanks a value is spelled.** -/
theorem spells_compact : ∀ {t : Tree}, t.Exact → Spells t.compact t
  | .null, _ => .null
  | .bool b, _ => .bool b
  | .whole _, h => .whole h
  | .text s, _ => .text s
  | .list _, h => .list (spellsItems_compact true h)
  | .object _, h => .object (spellsMembers_compact true h)

/-- Items written without blanks. -/
theorem spellsItems_compact (first : Bool) :
    ∀ {ts : List Tree}, ExactItems ts → SpellsItems first (compactItems first ts ++ [']']) ts
  | [], _ => .closed blanks_nil
  | t :: ts, h => by
    rw [compactItems, List.append_assoc, List.append_assoc]
    exact .item (separates_comma first) (spells_compact h.1) (spellsItems_compact false h.2)

/-- Members written without blanks. -/
theorem spellsMembers_compact (first : Bool) :
    ∀ {ms : List (String × Tree)}, ExactMembers ms →
      SpellsMembers first (compactMembers first ms ++ ['}']) ms
  | [], _ => .closed blanks_nil
  | (name, t) :: ms, h => by
    rw [compactMembers]
    simp only [List.append_assoc]
    exact .member (separates_comma first) blanks_nil blanks_nil (spells_compact h.1)
      (spellsMembers_compact false h.2)

end

mutual

/-- **Written over several lines a value is spelled.** -/
theorem spells_indented (level : Nat) : ∀ {t : Tree}, t.Exact → Spells (t.indented level) t
  | .null, _ => .null
  | .bool b, _ => .bool b
  | .whole _, h => .whole h
  | .text s, _ => .text s
  | .list [], _ => .list (.closed blanks_nil)
  | .list (t :: ts), h => by
    have hseparates : Separates true (newLine (level + 1)) := blanks_newLine (level + 1)
    rw [Tree.indented]
    simp only [List.append_assoc]
    exact .list (.item hseparates (spells_indented (level + 1) h.1)
      (spellsItems_indented (level + 1) (blanks_newLine level) h.2))
  | .object [], _ => .object (.closed blanks_nil)
  | .object ((name, t) :: ms), h => by
    have hseparates : Separates true (newLine (level + 1)) := blanks_newLine (level + 1)
    rw [Tree.indented]
    simp only [List.append_assoc]
    exact .object (.member hseparates blanks_nil blanks_space (spells_indented (level + 1) h.1)
      (spellsMembers_indented (level + 1) (blanks_newLine level) h.2))

/-- Further items, a line for each. -/
theorem spellsItems_indented (level : Nat) {b : List Char} (hb : Blanks b) :
    ∀ {ts : List Tree}, ExactItems ts →
      SpellsItems false (indentedItems level ts ++ (b ++ [']'])) ts
  | [], _ => .closed hb
  | t :: ts, h => by
    rw [indentedItems, List.append_assoc, List.append_assoc]
    exact .item (separates_newLine level) (spells_indented level h.1)
      (spellsItems_indented level hb h.2)

/-- Further members, a line for each. -/
theorem spellsMembers_indented (level : Nat) {b : List Char} (hb : Blanks b) :
    ∀ {ms : List (String × Tree)}, ExactMembers ms →
      SpellsMembers false (indentedMembers level ms ++ (b ++ ['}'])) ms
  | [], _ => .closed hb
  | (name, t) :: ms, h => by
    rw [indentedMembers]
    simp only [List.append_assoc]
    exact .member (separates_newLine level) blanks_nil blanks_space (spells_indented level h.1)
      (spellsMembers_indented level hb h.2)

end

theorem draftOf_render {t : Tree} (h : t.Exact) : draftOf t.render = (t.draft, none) := by
  apply draftOf_of_spells
  rw [Tree.render, String.toList_ofList]
  exact spells_compact h

theorem draftOf_renderIndented {t : Tree} (h : t.Exact) :
    draftOf t.renderIndented = (t.draft, none) := by
  apply draftOf_of_spells
  rw [Tree.renderIndented, String.toList_ofList]
  exact spells_indented 0 h

/-! ## §8. Depth -/

mutual

/-- How many lists and objects stand within each other. -/
def Tree.nesting : Tree → Nat
  | .list items => nestingItems items + 1
  | .object members => nestingMembers members + 1
  | _ => 0

/-- The nesting of items: that of the deepest. -/
def nestingItems : List Tree → Nat
  | [] => 0
  | t :: ts => max t.nesting (nestingItems ts)

/-- The nesting of members: that of the deepest. -/
def nestingMembers : List (String × Tree) → Nat
  | [] => 0
  | (_, t) :: ms => max t.nesting (nestingMembers ms)

end

theorem enter_succ {depth : Nat} (h : 0 < depth) : enter (depth + 1) = .ok depth :=
  if_neg (by omega)

mutual

/-- **The value is found again**, if it does not go down to the depth. -/
theorem tree_draft : ∀ {t : Tree} {depth : Nat}, t.nesting < depth → t.draft.tree depth = .ok t
  | .null, _, _ => rfl
  | .bool _, _, _ => rfl
  | .whole _, _, _ => rfl
  | .fraction _ _, _, _ => rfl
  | .text _, _, _ => rfl
  | .list items, depth + 1, h => by
    have hitems : nestingItems items < depth := by
      rw [Tree.nesting] at h
      omega
    rw [Tree.draft, Draft.tree, enter_succ (by omega)]
    show (itemTrees depth (itemDrafts items) >>= fun ts => Except.ok (Tree.list ts)) = _
    rw [itemTrees_drafts hitems]
    rfl
  | .object members, depth + 1, h => by
    have hmembers : nestingMembers members < depth := by
      rw [Tree.nesting] at h
      omega
    rw [Tree.draft, Draft.tree, enter_succ (by omega)]
    show (memberTrees depth (memberDrafts members) >>= fun ms => Except.ok (Tree.object ms)) = _
    rw [memberTrees_drafts hmembers]
    rfl

/-- The items are found again. -/
theorem itemTrees_drafts : ∀ {ts : List Tree} {depth : Nat}, nestingItems ts < depth →
    itemTrees depth (itemDrafts ts) = .ok ts
  | [], _, _ => rfl
  | t :: ts, depth, h => by
    rw [nestingItems] at h
    rw [itemDrafts, itemTrees, tree_draft (by omega), itemTrees_drafts (by omega)]
    rfl

/-- The members are found again. -/
theorem memberTrees_drafts : ∀ {ms : List (String × Tree)} {depth : Nat},
    nestingMembers ms < depth → memberTrees depth (memberDrafts ms) = .ok ms
  | [], _, _ => rfl
  | (name, t) :: ms, depth, h => by
    rw [nestingMembers] at h
    rw [memberDrafts, memberTrees, tree_draft (by omega), memberTrees_drafts (by omega)]
    rfl

end

end ListingMetadata.Json
