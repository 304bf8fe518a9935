/-
  ListingMetadata.Proofs.Query.JsonRoundTrip
  ──────────────────────────────────────────
  **CLAUSES READ BACK FROM THEIR JSON.**

  A clause as JSON is an object that begins with the name of its form.  It is read
  twice over: the outermost object as a draft of which the form is taken out, the
  clauses inside of it as values.  Both readings come to the same fields, from which
  the clause is put together:

    • `clauseByName_members` — the fields of a clause, by induction on the clause,
    • `clauseOf_of_fields`   — a clause inside another,
    • `clauseOfDraft_draft`  — the outermost clause,
    • `ofJson_toJson_of_nesting_le` — the whole text.
-/
import ListingMetadata.Proofs.Json.Spelling
import ListingMetadata.Proofs.Query.Parts
import ListingMetadata.Query.Json

namespace ListingMetadata.Query

open Json Number

namespace Clause

/-! ## §1. Forms, members and literals -/

/-- The form of a clause. -/
def form : Clause → Form
  | raw _ => .raw
  | compare _ _ _ => .compare
  | between _ _ _ => .between
  | oneOf _ _ => .oneOf
  | startsWith _ _ => .startsWith
  | contains _ _ => .contains
  | isNull _ => .isNull
  | not _ => .not
  | composite _ _ => .composite

/-- The fields of a clause as members of an object. -/
def members : Clause → List (String × Tree)
  | raw sql => [textMember .sql sql]
  | compare column op value =>
    [textMember .column column, textMember .comparison op.sign, literalMember .value value]
  | between column low high =>
    [textMember .column column, literalMember .low low, literalMember .high high]
  | oneOf column values =>
    [textMember .column column, (Field.values.name, .list (values.map Literal.toTree))]
  | startsWith column start => [textMember .column column, textMember .start start]
  | contains column part => [textMember .column column, textMember .part part]
  | isNull column => [textMember .column column]
  | not clause => [(Field.clause.name, clause.toTree)]
  | composite op elements =>
    [textMember .junction op.keyword, (Field.elements.name, .list (toTrees elements))]

theorem toTree_eq (c : Clause) : c.toTree = taggedTree c.form c.members := by
  cases c <;> rfl

mutual

/-- The literals of a clause. -/
def literals : Clause → List Literal
  | compare _ _ value => [value]
  | between _ low high => [low, high]
  | oneOf _ values => values
  | not c => c.literals
  | composite _ cs => literalsAll cs
  | _ => []

/-- The literals of clauses. -/
def literalsAll : List Clause → List Literal
  | [] => []
  | c :: cs => c.literals ++ literalsAll cs

end

theorem literalsAll_eq (cs : List Clause) : literalsAll cs = cs.flatMap literals := by
  induction cs with
  | nil => rfl
  | cons c cs ih =>
    show c.literals ++ literalsAll cs = _
    rw [ih]
    rfl

end Clause

/-- A literal that 64 bits with a sign hold, if it is a number. -/
def Literal.Fits : Literal → Prop
  | .int v => IsInt v
  | _ => True

instance (v : Literal) : Decidable v.Fits :=
  match v with
  | .bool _ => inferInstanceAs (Decidable True)
  | .int v => inferInstanceAs (Decidable (-(maxInt + 1 : Nat) ≤ v ∧ v ≤ maxInt))
  | .text _ => inferInstanceAs (Decidable True)

/-- All numbers of a clause are numbers of 64 bits with a sign. -/
def Clause.Fits (c : Clause) : Prop :=
  ∀ v ∈ c.literals, v.Fits

instance (c : Clause) : Decidable c.Fits :=
  inferInstanceAs (Decidable (∀ v ∈ c.literals, v.Fits))

theorem Clause.fits_composite_iff {op : Junction} {cs : List Clause} :
    (Clause.composite op cs).Fits ↔ ∀ c ∈ cs, c.Fits := by
  show (∀ v ∈ Clause.literalsAll cs, v.Fits) ↔ _
  rw [Clause.literalsAll_eq]
  simp only [List.mem_flatMap]
  constructor
  · intro h c hc v hv
    exact h v ⟨c, hc, hv⟩
  · rintro h v ⟨c, hc, hv⟩
    exact h c hc v hv

/-! ## §2. Reading fields -/

theorem literalOf_toTree {v : Literal} (h : v.Fits) : literalOf v.toTree = .ok v := by
  cases v with
  | bool b => rfl
  | int v => exact if_pos h.2
  | text s => rfl

theorem literalsFrom_toTree {vs : List Literal} (h : ∀ v ∈ vs, v.Fits) :
    literalsFrom (vs.map Literal.toTree) = .ok vs := by
  induction vs with
  | nil => rfl
  | cons v vs ih =>
    rw [List.map_cons, literalsFrom, literalOf_toTree (h v List.mem_cons_self),
      ih fun w hw => h w (List.mem_cons_of_mem _ hw)]
    rfl

theorem choiceOf_sign (op : Comparison) : choiceOf comparisons (.text op.sign) = .ok op := by
  cases op <;> rfl

theorem choiceOf_keyword (op : Junction) : choiceOf junctions (.text op.keyword) = .ok op := by
  cases op <;> rfl

namespace Fields

/-- The next field is read, if it was not before, and then the rest. -/
theorem byName_cons {form : Form} {fs fs' : Fields} {name : String} {p : Part}
    {rest : List (String × Part)} {f : Field} {r : Except Fault Fields}
    (hf : (form.fields.find? fun f => decide (f.name = name)) = some f) (hnew : fs.has f = false)
    (h : fs.read p f = .ok fs') (hrest : fs'.byName form rest = r) :
    fs.byName form ((name, p) :: rest) = r := by
  rw [byName, hf]
  dsimp only
  rw [hnew, h]
  exact hrest

theorem read_text {fs : Fields} {p : Part} {s : String} {f : Field}
    (hf : f ∈ [Field.sql, .column, .start, .part]) (h : p.tree = .text s) :
    fs.read p f = .ok { fs with texts := (f, s) :: fs.texts } := by
  simp only [List.mem_cons, List.not_mem_nil, or_false] at hf
  rcases hf with rfl | rfl | rfl | rfl <;> simp only [read, h] <;> rfl

theorem read_literal {fs : Fields} {p : Part} {v : Literal} {f : Field}
    (hf : f ∈ [Field.value, .low, .high]) (h : literalOf p.tree = .ok v) :
    fs.read p f = .ok { fs with literals := (f, v) :: fs.literals } := by
  simp only [List.mem_cons, List.not_mem_nil, or_false] at hf
  rcases hf with rfl | rfl | rfl <;> rw [read, read.literal, h] <;> rfl

theorem read_comparison {fs : Fields} {p : Part} {op : Comparison}
    (h : choiceOf comparisons p.tree = .ok op) :
    fs.read p .comparison = .ok { fs with comparison := some op } := by
  rw [read, h]
  rfl

theorem read_junction {fs : Fields} {p : Part} {op : Junction}
    (h : choiceOf junctions p.tree = .ok op) :
    fs.read p .junction = .ok { fs with junction := some op } := by
  rw [read, h]
  rfl

theorem read_values {fs : Fields} {p : Part} {vs : List Literal}
    (h : literalsOf p.tree = .ok vs) :
    fs.read p .values = .ok { fs with values := some vs } := by
  rw [read, h]
  rfl

theorem read_clause {fs : Fields} {p : Part} {c : Clause} (h : p.clause () = .ok c) :
    fs.read p .clause = .ok { fs with clause := some c } := by
  rw [read, h]
  rfl

theorem read_elements {fs : Fields} {p : Part} {cs : List Clause} (h : p.clauses () = .ok cs) :
    fs.read p .elements = .ok { fs with elements := some cs } := by
  rw [read, h]
  rfl

end Fields

theorem clauseByName_of_fields {form : Form} {members : List (String × Part)} {fs : Fields}
    (h : Fields.empty.byName form members = .ok fs) :
    clauseByName form members = fs.clauseOf form := by
  rw [clauseByName, h]
  rfl

/-! ## §3. Reading clauses inside others -/

theorem formNamed_tag (f : Form) : formNamed f.tag = .ok f := by
  cases f <;> rfl

/-- The fields of a clause are not named as the form is. -/
theorem Clause.ne_tagName (c : Clause) : ∀ m ∈ c.members, m.1 ≠ tagName := by
  cases c <;> simp [members, textMember, literalMember, Field.name, tagName]

/-- The form is taken out of the members. -/
theorem splitForm_members {f : Form} {ms : List (String × Tree)} (h : ∀ m ∈ ms, m.1 ≠ tagName) :
    splitForm (some f) (memberParts ms) = .ok (f, memberParts ms) := by
  induction ms with
  | nil => rfl
  | cons m ms ih =>
    rw [memberParts, splitForm, if_neg (h m List.mem_cons_self),
      ih fun m' hm' => h m' (List.mem_cons_of_mem _ hm')]
    rfl

/-- A clause is read of its form and its fields. -/
theorem clauseOf_of_fields {c : Clause} (h : clauseByName c.form (memberParts c.members) = .ok c) :
    clauseOf c.toTree = .ok c := by
  have hform : formOf (.text c.form.tag) = .ok c.form := formNamed_tag c.form
  have hsplit : splitForm none (memberParts ((tagName, .text c.form.tag) :: c.members))
      = .ok (c.form, memberParts c.members) := by
    show (formOf (.text c.form.tag) >>= fun f => splitForm (some f) (memberParts c.members)) = _
    rw [hform]
    exact splitForm_members c.ne_tagName
  rw [Clause.toTree_eq, taggedTree, clauseOf, hsplit]
  exact h

theorem clausesFrom_toTrees {cs : List Clause} (h : ∀ c ∈ cs, clauseOf c.toTree = .ok c) :
    clausesFrom (toTrees cs) = .ok cs := by
  induction cs with
  | nil => rfl
  | cons c cs ih =>
    rw [toTrees, clausesFrom, h c List.mem_cons_self,
      ih fun d hd => h d (List.mem_cons_of_mem _ hd)]
    rfl

open Fields in
/-- **The fields of a clause are those that its form needs**, and what they hold is read
back. -/
theorem clauseByName_members (c : Clause) (h : c.Fits) :
    clauseByName c.form (memberParts c.members) = .ok c := by
  -- field by field; in the fields of the last two forms stand other clauses
  induction c using Clause.induct with
  | raw sql =>
    have hfields : empty.byName .raw (memberParts (Clause.raw sql).members)
        = .ok { empty with texts := [(.sql, sql)] } :=
      byName_cons rfl rfl (read_text (by decide) rfl) rfl
    exact clauseByName_of_fields hfields
  | isNull column =>
    have hfields : empty.byName .isNull (memberParts (Clause.isNull column).members)
        = .ok { empty with texts := [(.column, column)] } :=
      byName_cons rfl rfl (read_text (by decide) rfl) rfl
    exact clauseByName_of_fields hfields
  | startsWith column start =>
    have hfields : empty.byName .startsWith (memberParts (Clause.startsWith column start).members)
        = .ok { empty with texts := [(.start, start), (.column, column)] } :=
      byName_cons rfl rfl (read_text (by decide) rfl)
        (byName_cons rfl rfl (read_text (by decide) rfl) rfl)
    exact clauseByName_of_fields hfields
  | contains column part =>
    have hfields : empty.byName .contains (memberParts (Clause.contains column part).members)
        = .ok { empty with texts := [(.part, part), (.column, column)] } :=
      byName_cons rfl rfl (read_text (by decide) rfl)
        (byName_cons rfl rfl (read_text (by decide) rfl) rfl)
    exact clauseByName_of_fields hfields
  | compare column op value =>
    have hvalue : literalOf value.toTree = .ok value :=
      literalOf_toTree (h value List.mem_cons_self)
    have hfields : empty.byName .compare (memberParts (Clause.compare column op value).members)
        = .ok { empty with texts := [(.column, column)], literals := [(.value, value)],
                           comparison := some op } :=
      byName_cons rfl rfl (read_text (by decide) rfl)
        (byName_cons rfl rfl (read_comparison (choiceOf_sign op))
          (byName_cons rfl rfl (read_literal (by decide) hvalue) rfl))
    exact clauseByName_of_fields hfields
  | between column low high =>
    have hlow : literalOf low.toTree = .ok low := literalOf_toTree (h low List.mem_cons_self)
    have hhigh : literalOf high.toTree = .ok high :=
      literalOf_toTree (h high (List.mem_cons_of_mem _ List.mem_cons_self))
    have hfields : empty.byName .between (memberParts (Clause.between column low high).members)
        = .ok { empty with texts := [(.column, column)], literals := [(.high, high), (.low, low)] } :=
      byName_cons rfl rfl (read_text (by decide) rfl)
        (byName_cons rfl rfl (read_literal (by decide) hlow)
          (byName_cons rfl rfl (read_literal (by decide) hhigh) rfl))
    exact clauseByName_of_fields hfields
  | oneOf column values =>
    have hvalues : literalsOf (.list (values.map Literal.toTree)) = .ok values :=
      literalsFrom_toTree h
    have hfields : empty.byName .oneOf (memberParts (Clause.oneOf column values).members)
        = .ok { empty with texts := [(.column, column)], values := some values } :=
      byName_cons rfl rfl (read_text (by decide) rfl)
        (byName_cons rfl rfl (read_values hvalues) rfl)
    exact clauseByName_of_fields hfields
  | not c ih =>
    have hclause : clauseOf c.toTree = .ok c := clauseOf_of_fields (ih h)
    have hfields : empty.byName .not (memberParts (Clause.not c).members)
        = .ok { empty with clause := some c } :=
      byName_cons rfl rfl (read_clause hclause) rfl
    exact clauseByName_of_fields hfields
  | composite op cs ih =>
    have hfits := Clause.fits_composite_iff.mp h
    have helements : clausesOf (.list (toTrees cs)) = .ok cs :=
      clausesFrom_toTrees fun c hc => clauseOf_of_fields (ih c hc (hfits c hc))
    have hfields : empty.byName .composite (memberParts (Clause.composite op cs).members)
        = .ok { empty with junction := some op, elements := some cs } :=
      byName_cons rfl rfl (read_junction (choiceOf_keyword op))
        (byName_cons rfl rfl (read_elements helements) rfl)
    exact clauseByName_of_fields hfields

/-! ## §4. Whole numbers -/

theorem exact_literal {v : Literal} (h : v.Fits) : v.toTree.Exact := by
  cases v with
  | bool b => trivial
  | text s => trivial
  | int v =>
    have hmax : maxInt ≤ maxNat := by decide
    obtain ⟨hlo, hhi⟩ := h
    exact ⟨hlo, by omega⟩

theorem toTrees_eq (cs : List Clause) : toTrees cs = cs.map Clause.toTree := by
  induction cs with
  | nil => rfl
  | cons c cs ih =>
    rw [toTrees, ih]
    rfl

/-- A clause as JSON has no fractions. -/
theorem exact_toTree {c : Clause} (h : c.Fits) : c.toTree.Exact := by
  induction c using Clause.induct with
  | compare column op value =>
    exact ⟨trivial, trivial, trivial, exact_literal (h value List.mem_cons_self), trivial⟩
  | between column low high =>
    exact ⟨trivial, trivial, exact_literal (h low List.mem_cons_self),
      exact_literal (h high (List.mem_cons_of_mem _ List.mem_cons_self)), trivial⟩
  | oneOf column values =>
    have hvalues : ExactItems (values.map Literal.toTree) :=
      exactItems_iff.mpr (List.forall_mem_map.mpr fun v hv => exact_literal (h v hv))
    exact ⟨trivial, trivial, hvalues, trivial⟩
  | not c ih => exact ⟨trivial, ih h, trivial⟩
  | composite op cs ih =>
    have hfits := Clause.fits_composite_iff.mp h
    have helements : ExactItems (toTrees cs) := by
      rw [toTrees_eq, exactItems_iff]
      exact List.forall_mem_map.mpr fun c hc => ih c hc (hfits c hc)
    exact ⟨trivial, trivial, helements, trivial⟩
  | raw sql => exact ⟨trivial, trivial, trivial⟩
  | isNull column => exact ⟨trivial, trivial, trivial⟩
  | startsWith column start => exact ⟨trivial, trivial, trivial, trivial⟩
  | contains column part => exact ⟨trivial, trivial, trivial, trivial⟩

/-! ## §5. Reading texts -/

/-- The form is taken out of the members of a draft, the others are read as values. -/
theorem draftMembers_drafts {depth : Nat} {f : Form} {ms : List (String × Tree)}
    (h : ∀ m ∈ ms, m.1 ≠ tagName) (hdepth : nestingMembers ms < depth) :
    draftMembers depth (some f) (memberDrafts ms) .closed = .ok (f, ms) := by
  induction ms with
  | nil => rfl
  | cons m ms ih =>
    obtain ⟨name, t⟩ := m
    rw [nestingMembers] at hdepth
    have ht : t.draft.tree depth = .ok t := tree_draft (by omega)
    have hms := ih (fun m hm => h m (List.mem_cons_of_mem _ hm)) (by omega)
    have hname : name ≠ tagName := h (name, t) List.mem_cons_self
    rw [memberDrafts, draftMembers]
    show (if name = tagName then _ else _) = _
    rw [if_neg hname, ht]
    show (draftMembers depth (some f) (memberDrafts ms) .closed >>= fun r => _) = _
    rw [hms]
    rfl

/-- **What is read of a clause as JSON is the clause.** -/
theorem clauseOfDraft_draft {c : Clause} (h : c.Fits) {depth : Nat}
    (hdepth : c.toTree.nesting < depth) : clauseOfDraft depth c.toTree.draft = .ok c := by
  -- one level for the clause itself, the others for its fields
  obtain ⟨inside, rfl⟩ := Nat.exists_eq_add_of_lt (Nat.zero_lt_of_lt hdepth)
  have hnesting : nestingMembers c.members < inside := by
    rw [Clause.toTree_eq] at hdepth
    show nestingMembers c.members < inside
    have htree : (taggedTree c.form c.members).nesting = max 0 (nestingMembers c.members) + 1 := rfl
    omega
  have hmembers : draftMembers inside none
      (memberDrafts ((tagName, .text c.form.tag) :: c.members)) .closed = .ok (c.form, c.members) := by
    show (formNamed c.form.tag >>= fun f =>
      draftMembers inside (some f) (memberDrafts c.members) .closed) = _
    rw [formNamed_tag]
    exact draftMembers_drafts c.ne_tagName hnesting
  rw [Clause.toTree_eq, taggedTree, Tree.draft, clauseOfDraft, Nat.zero_add, enter_succ (by omega)]
  show (draftMembers inside none _ .closed >>= fun r => clauseByName r.1 (memberParts r.2)) = _
  rw [hmembers]
  exact clauseByName_members c h

/-- **A clause is read back from its text**, whatever its columns and literals are, if it
nests at most 127 objects and lists. -/
theorem Clause.ofJson_toJson_of_nesting_le {c : Clause} (h : c.Fits) (hnesting : c.toTree.nesting ≤ 127) :
    Clause.ofJson c.toJson = .ok c := by
  have hdraft : clauseOfDraft depthLimit c.toTree.draft = .ok c :=
    clauseOfDraft_draft h (by rw [depthLimit]; omega)
  rw [Clause.ofJson, Clause.toJson, draftOf_render (exact_toTree h)]
  show (clauseOfDraft depthLimit c.toTree.draft >>= fun c => Except.ok c) = _
  rw [hdraft]
  rfl

/-- All forms of clauses and literals in one, with texts in need of escapes. -/
def assorted : Clause :=
  .composite .or
    [.raw "a = \"b\\c\"", .compare "type" .ne (.int (-9223372036854775808)),
      .between "" (.int 9223372036854775807) (.bool true), .oneOf "🏠" [.text "1", .int 1, .bool false],
      .oneOf "none" [], .startsWith "\u0000" "50%\n", .contains "é" "\x7b\x7d", .isNull "\t",
      .not (.composite .and [])]

/-- The opposite of a clause, of that, and so on. -/
def opposite : Nat → Clause → Clause
  | 0, c => c
  | n + 1, c => .not (opposite n c)

theorem Clause.ofJson_toJson_opposite :
    (opposite 122 assorted).Fits ∧ (opposite 122 assorted).toTree.nesting ≤ 127 ∧
      Clause.ofJson (opposite 122 assorted).toJson = .ok (opposite 122 assorted) := by
  have hfits : (opposite 122 assorted).Fits := by decide +kernel
  have hnesting : (opposite 122 assorted).toTree.nesting ≤ 127 := by decide +kernel
  exact ⟨hfits, hnesting, Clause.ofJson_toJson_of_nesting_le hfits hnesting⟩

end ListingMetadata.Query
