/-
  ListingMetadata.Query.Json
  ──────────────────────────
  **CLAUSES AS JSON.**

  A clause is an object whose member `type` names its form, beside a member for
  each of its fields.  It may also be given as a list: the form, then the fields
  in their order.  A form is known before the fields are looked at, wherever it
  stands; the fields are then taken in the order of the text.
-/
import ListingMetadata.Json.Draft
import ListingMetadata.Query.Basic

namespace ListingMetadata.Query

open Json Number

/-! ## §1. Forms and fields -/

/-- The forms of clauses. -/
inductive Form where
  | raw
  | compare
  | between
  | oneOf
  | startsWith
  | contains
  | isNull
  | not
  | composite
deriving DecidableEq, Repr

namespace Form

/-- The forms in their order. -/
def all : List Form :=
  [raw, compare, between, oneOf, startsWith, contains, isNull, not, composite]

/-- The name of a form in a text. -/
def tag : Form → String
  | raw => "raw"
  | compare => "compare"
  | between => "between"
  | oneOf => "in"
  | startsWith => "starts_with"
  | contains => "contains"
  | isNull => "is_null"
  | not => "not"
  | composite => "composite"

/-- The name of a form in messages. -/
def title : Form → String
  | raw => "struct variant SqlClause::Raw"
  | compare => "struct variant SqlClause::Compare"
  | between => "struct variant SqlClause::Between"
  | oneOf => "struct variant SqlClause::In"
  | startsWith => "struct variant SqlClause::StartsWith"
  | contains => "struct variant SqlClause::Contains"
  | isNull => "struct variant SqlClause::IsNull"
  | not => "struct variant SqlClause::Not"
  | composite => "struct CompositeClause"

end Form

/-- The fields of clauses. -/
inductive Field where
  | sql
  | column
  | comparison
  | value
  | low
  | high
  | values
  | start
  | part
  | clause
  | junction
  | elements
deriving DecidableEq, Repr

/-- The name of a field in a text. -/
def Field.name : Field → String
  | .sql => "sql"
  | .column => "column"
  | .comparison => "op"
  | .value => "value"
  | .low => "low"
  | .high => "high"
  | .values => "values"
  | .start => "prefix"
  | .part => "text"
  | .clause => "clause"
  | .junction => "op"
  | .elements => "elements"

/-- The fields of a form in their order. -/
def Form.fields : Form → List Field
  | raw => [.sql]
  | compare => [.column, .comparison, .value]
  | between => [.column, .low, .high]
  | oneOf => [.column, .values]
  | startsWith => [.column, .start]
  | contains => [.column, .part]
  | isNull => [.column]
  | not => [.clause]
  | composite => [.junction, .elements]

/-! ## §2. Writing -/

/-- A literal as JSON. -/
def Literal.toTree : Literal → Tree
  | .bool b => .bool b
  | .int v => .whole v
  | .text s => .text s

/-- A text field. -/
def textMember (field : Field) (s : String) : String × Tree :=
  (field.name, .text s)

/-- A literal field. -/
def literalMember (field : Field) (v : Literal) : String × Tree :=
  (field.name, v.toTree)

/-- The name of the member that holds the form. -/
def tagName : String := "type"

/-- A clause of a form with fields. -/
def taggedTree (form : Form) (members : List (String × Tree)) : Tree :=
  .object ((tagName, .text form.tag) :: members)

mutual

/-- A clause as JSON. -/
def Clause.toTree : Clause → Tree
  | .raw sql => taggedTree .raw [textMember .sql sql]
  | .compare column op value =>
    taggedTree .compare
      [textMember .column column, textMember .comparison op.sign, literalMember .value value]
  | .between column low high =>
    taggedTree .between
      [textMember .column column, literalMember .low low, literalMember .high high]
  | .oneOf column values =>
    taggedTree .oneOf
      [textMember .column column, (Field.values.name, .list (values.map Literal.toTree))]
  | .startsWith column start =>
    taggedTree .startsWith [textMember .column column, textMember .start start]
  | .contains column part =>
    taggedTree .contains [textMember .column column, textMember .part part]
  | .isNull column => taggedTree .isNull [textMember .column column]
  | .not clause => taggedTree .not [(Field.clause.name, clause.toTree)]
  | .composite op elements =>
    taggedTree .composite
      [textMember .junction op.keyword, (Field.elements.name, .list (toTrees elements))]

/-- Clauses as JSON, one by one. -/
def toTrees : List Clause → List Tree
  | [] => []
  | c :: cs => c.toTree :: toTrees cs

end

/-- The text of a clause. -/
def Clause.toJson (c : Clause) : String :=
  c.toTree.render

/-! ## §3. Reading plain fields -/

/-- What a value is found to be. -/
def foundIn : Tree → Found
  | .null => .null
  | .bool b => .bool b
  | .whole v => .whole v
  | .fraction negative size => .fraction negative size
  | .text s => .text s
  | .list _ => .list
  | .object _ => .object

/-- The fault of a value of the wrong type. -/
def wrongTree (expected : String) (t : Tree) : Fault :=
  .mismatched (.wrongType (foundIn t) expected)

/-- A text. -/
def textOf : Tree → Except Fault String
  | .text s => .ok s
  | t => .error (wrongTree "a string" t)

/-- A literal: a truth value, a signed 64-bit integer or a text. -/
def literalOf : Tree → Except Fault Literal
  | .bool b => .ok (.bool b)
  | .text s => .ok (.text s)
  | .whole v =>
    if v ≤ maxInt then .ok (.int v) else .error (.mismatched (.noAlternative "SqlValue"))
  | _ => .error (.mismatched (.noAlternative "SqlValue"))

/-- The literals of values. -/
def literalsFrom : List Tree → Except Fault (List Literal)
  | [] => .ok []
  | t :: ts => do
    let v ← literalOf t
    let vs ← literalsFrom ts
    .ok (v :: vs)

/-- Literals. -/
def literalsOf : Tree → Except Fault (List Literal)
  | .list ts => literalsFrom ts
  | t => .error (wrongTree "a sequence" t)

/-- Nothing: `null`, or an object without members. -/
def nothingOf : Tree → Except Fault Unit
  | .null => .ok ()
  | .object [] => .ok ()
  | t => .error (wrongTree "unit" t)

/-- One of some names, alone or as the only member of an object. -/
def choiceOf {α : Type} (choices : List (String × α)) : Tree → Except Fault α
  | .text s => pick s
  | .object [(s, t)] => do
    let x ← pick s
    let _ ← nothingOf t
    .ok x
  | .object _ => .error (.mismatched (.wrongValue .object "map with a single key"))
  | t => .error (wrongTree "string or map" t)
where
  pick (s : String) : Except Fault α :=
    match choices.lookup s with
    | some x => .ok x
    | none => .error (.mismatched (.unknownVariant s (choices.map Prod.fst)))

/-- The comparisons by sign. -/
def comparisons : List (String × Comparison) :=
  [Comparison.eq, .ne, .lt, .le, .gt, .ge].map fun c => (c.sign, c)

/-- The junctions by keyword. -/
def junctions : List (String × Junction) :=
  [Junction.and, .or].map fun j => (j.keyword, j)

/-! ## §4. Collecting fields -/

/-- A member that may hold a clause or clauses; they are read when a field asks
for them. -/
structure Part where
  tree : Tree
  clause : Unit → Except Fault Clause
  clauses : Unit → Except Fault (List Clause)

/-- The fields read so far. -/
structure Fields where
  texts : List (Field × String)
  literals : List (Field × Literal)
  values : Option (List Literal)
  comparison : Option Comparison
  junction : Option Junction
  clause : Option Clause
  elements : Option (List Clause)

namespace Fields

/-- No fields yet. -/
def empty : Fields :=
  ⟨[], [], none, none, none, none, none⟩

/-- The field was read. -/
def has (fs : Fields) : Field → Bool
  | .values => fs.values.isSome
  | .comparison => fs.comparison.isSome
  | .junction => fs.junction.isSome
  | .clause => fs.clause.isSome
  | .elements => fs.elements.isSome
  | f => (fs.texts.lookup f).isSome || (fs.literals.lookup f).isSome

/-- With one more field. -/
def read (fs : Fields) (p : Part) : Field → Except Fault Fields
  | .comparison => do
    let op ← choiceOf comparisons p.tree
    .ok { fs with comparison := some op }
  | .junction => do
    let op ← choiceOf junctions p.tree
    .ok { fs with junction := some op }
  | .values => do
    let vs ← literalsOf p.tree
    .ok { fs with values := some vs }
  | .clause => do
    let c ← p.clause ()
    .ok { fs with clause := some c }
  | .elements => do
    let cs ← p.clauses ()
    .ok { fs with elements := some cs }
  | .value => literal fs p .value
  | .low => literal fs p .low
  | .high => literal fs p .high
  | f => do
    let s ← textOf p.tree
    .ok { fs with texts := (f, s) :: fs.texts }
where
  literal (fs : Fields) (p : Part) (f : Field) : Except Fault Fields := do
    let v ← literalOf p.tree
    .ok { fs with literals := (f, v) :: fs.literals }

/-- A field that has to be there. -/
def need {α : Type} (f : Field) : Option α → Except Fault α
  | some x => .ok x
  | none => .error (.mismatched (.missingField f.name))

/-- A text field that has to be there. -/
def text (fs : Fields) (f : Field) : Except Fault String :=
  need f (fs.texts.lookup f)

/-- A literal field that has to be there. -/
def literalAt (fs : Fields) (f : Field) : Except Fault Literal :=
  need f (fs.literals.lookup f)

/-- The clause of a form; the first field in order that is missing decides. -/
def clauseOf (fs : Fields) : Form → Except Fault Clause
  | .raw => do
    let sql ← fs.text .sql
    .ok (.raw sql)
  | .compare => do
    let column ← fs.text .column
    let op ← need .comparison fs.comparison
    let value ← fs.literalAt .value
    .ok (.compare column op value)
  | .between => do
    let column ← fs.text .column
    let low ← fs.literalAt .low
    let high ← fs.literalAt .high
    .ok (.between column low high)
  | .oneOf => do
    let column ← fs.text .column
    let values ← need .values fs.values
    .ok (.oneOf column values)
  | .startsWith => do
    let column ← fs.text .column
    let start ← fs.text .start
    .ok (.startsWith column start)
  | .contains => do
    let column ← fs.text .column
    let part ← fs.text .part
    .ok (.contains column part)
  | .isNull => do
    let column ← fs.text .column
    .ok (.isNull column)
  | .not => do
    let clause ← need .clause fs.clause
    .ok (.not clause)
  | .composite => do
    let op ← need .junction fs.junction
    .ok (.composite op (fs.elements.getD []))

/-- Fields given by name; names of no field are passed over. -/
def byName (form : Form) (fs : Fields) : List (String × Part) → Except Fault Fields
  | [] => .ok fs
  | (name, p) :: rest =>
    match form.fields.find? fun f => decide (f.name = name) with
    | none => byName form fs rest
    | some f =>
      if fs.has f then .error (.mismatched (.duplicateField name))
      else do
        let fs ← fs.read p f
        byName form fs rest

end Fields

/-- A number of elements. -/
def elementCount (n : Nat) : String :=
  showNat n ++ (if n = 1 then " element" else " elements")

/-- Fields given by place; `place` of the form's fields are read. -/
def fieldsByPlace (form : Form) (fs : Fields) (place : Nat) :
    List Field → List Part → Except Fault Fields
  | [], [] => .ok fs
  | [], more =>
    .error (.mismatched
      (.wrongLength (place + more.length) (elementCount place ++ " in sequence")))
  | [.elements], [] => .ok fs
  | _ :: _, [] =>
    .error (.mismatched
      (.wrongLength place (form.title ++ " with " ++ elementCount form.fields.length)))
  | f :: rest, p :: parts => do
    let fs ← fs.read p f
    fieldsByPlace form fs (place + 1) rest parts

/-- The clause of a form whose fields are given by name. -/
def clauseByName (form : Form) (members : List (String × Part)) : Except Fault Clause := do
  let fs ← Fields.empty.byName form members
  fs.clauseOf form

/-- The clause of a form whose fields are given by place. -/
def clauseByPlace (form : Form) (parts : List Part) : Except Fault Clause := do
  let fs ← fieldsByPlace form Fields.empty 0 form.fields parts
  fs.clauseOf form

/-! ## §5. Reading clauses inside a text that is read -/

/-- The form of a name. -/
def formNamed (name : String) : Except Fault Form := do
  let i ← variantIndex (Form.all.map Form.tag) name
  .ok (Form.all.getD i .raw)

/-- The form of a value: its name, or its number from 0. -/
def formOf : Tree → Except Fault Form
  | .text s => formNamed s
  | .whole v =>
    if v < 0 then .error (wrongTree "variant identifier" (.whole v))
    else
      match Form.all[v.toNat]? with
      | some form => .ok form
      | none => .error (.mismatched (.wrongValue (.whole v) "variant index 0 <= i < 9"))
  | t => .error (wrongTree "variant identifier" t)

/-- The form among members, and the members without it. -/
def splitForm (form : Option Form) : List (String × Part) →
    Except Fault (Form × List (String × Part))
  | [] =>
    match form with
    | some f => .ok (f, [])
    | none => .error (.mismatched (.missingField tagName))
  | (name, p) :: rest =>
    if name = tagName then
      if form.isSome then .error (.mismatched (.duplicateField tagName))
      else do
        let f ← formOf p.tree
        splitForm (some f) rest
    else do
      let (f, others) ← splitForm form rest
      .ok (f, (name, p) :: others)

/-- What a reader expects where a clause should be. -/
def expectedClause : String := "internally tagged enum SqlClause"

mutual

/-- The clause of a value. -/
def clauseOf : Tree → Except Fault Clause
  | .object members => do
    let (form, fields) ← splitForm none (memberParts members)
    clauseByName form fields
  | .list items =>
    match itemParts items with
    | [] => .error (.mismatched (.missingField tagName))
    | p :: parts => do
      let form ← formOf p.tree
      clauseByPlace form parts
  | t => .error (wrongTree expectedClause t)

/-- The clauses of a list. -/
def clausesOf : Tree → Except Fault (List Clause)
  | .list items => clausesFrom items
  | t => .error (wrongTree "a sequence" t)

/-- The clauses of values, one by one. -/
def clausesFrom : List Tree → Except Fault (List Clause)
  | [] => .ok []
  | t :: ts => do
    let c ← clauseOf t
    let cs ← clausesFrom ts
    .ok (c :: cs)

/-- The items of a list with what they may hold. -/
def itemParts : List Tree → List Part
  | [] => []
  | t :: ts => ⟨t, fun _ => clauseOf t, fun _ => clausesOf t⟩ :: itemParts ts

/-- The members of an object with what they may hold. -/
def memberParts : List (String × Tree) → List (String × Part)
  | [] => []
  | (name, t) :: ms =>
    (name, ⟨t, fun _ => clauseOf t, fun _ => clausesOf t⟩) :: memberParts ms

end

/-! ## §6. Reading a text -/

/-- The form of a draft, which is given by its name. -/
def formOfDraft (d : Draft) : Except Fault Form := do
  let name ← d.asText "variant identifier"
  formNamed name

/-- The form among the members of a draft, and the other members as values. -/
def draftMembers (depth : Nat) (form : Option Form) : List (Lexeme String × Draft) → Ending →
    Except Fault (Form × List (String × Tree))
  | [], ending =>
    match ending.objectFault with
    | some f => .error f
    | none =>
      match form with
      | some f => .ok (f, [])
      | none => .error (.mismatched (.missingField tagName))
  | (name, d) :: rest, ending => do
    let n ← name.value
    if n = tagName then
      if form.isSome then .error (.mismatched (.duplicateField tagName))
      else
        let f ← formOfDraft d
        draftMembers depth (some f) rest ending
    else
      let t ← d.tree depth
      let (f, others) ← draftMembers depth form rest ending
      .ok (f, (n, t) :: others)

/-- The clause of a draft. -/
def clauseOfDraft (depth : Nat) : Draft → Except Fault Clause
  | .object members ending => do
    let inside ← enter depth
    let (form, fields) ← draftMembers inside none members ending
    clauseByName form (memberParts fields)
  | .list [] ending => do
    let _ ← enter depth
    match ending.listFault with
    | some f => .error f
    | none => .error (.mismatched (.missingField tagName))
  | .list (d :: ds) ending => do
    let inside ← enter depth
    let form ← formOfDraft d
    let ts ← itemTrees inside ds
    match ending.listFault with
    | some f => .error f
    | none => clauseByPlace form (itemParts ts)
  | .unnamed => do
    let _ ← enter depth
    .error (.malformed .keyNotText)
  | d => .error (d.wrong expectedClause)

/-- The clause of a JSON text. -/
def Clause.ofJson (text : String) : Except Fault Clause := do
  let (draft, trailing) := draftOf text
  let c ← clauseOfDraft depthLimit draft
  match trailing with
  | none => .ok c
  | some f => .error f

end ListingMetadata.Query
