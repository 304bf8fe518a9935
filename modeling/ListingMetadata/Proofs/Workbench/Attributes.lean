/-
  ListingMetadata.Proofs.Workbench.Attributes
  ───────────────────────────────────────────
  **THE ATTRIBUTES OF AN ENTITY ARE A MAP.**

  In every state of a run, what is set under a name is read under all names of its
  attribute and under no other, what is refused leaves no trace, and what is removed is
  gone under those names alone.  Another type for a name leaves every value where it was
  read, but under further spellings of a name that it declares:

    • `mapOfNames_run` — setting, reading and removing,
    • `retyped_run`    — another type for a name.
-/
import ListingMetadata.Proofs.Entity.Naming
import ListingMetadata.Proofs.Entity.Outline
import ListingMetadata.Proofs.Workbench.Layouts
import ListingMetadata.Proofs.Workbench.Legible
import ListingMetadata.Proofs.Workbench.Requests

namespace ListingMetadata

theorem Entity.withHead_head (e : Entity) : e.withHead e.head = e := by
  cases e
  rfl

namespace Workbench

/-! ## §1. Outcomes -/

section Outcomes

variable {b : Workbench} {name : String} {e : Entity}

theorem outcome_setAttributeWith (he : b.entities.get? name = some e) (n x : String)
    (mode : Bool) :
    outcome (setAttributeWith name n x mode) b
      = match e.head.parsed n x mode with
        | .ok v =>
          let e' := e.withHead (e.head.keep (e.head.keptName n) v)
          (.ok e', b.keeping name e')
        | .error f => (.error (.failure (.parse f)), b) := by
  have hset : (e.setWith n x mode).value
      = ((e.head.parsed n x mode).map (e.head.keep (e.head.keptName n))).map e.withHead := by
    show ((e.head.setWith n x mode).value).map e.withHead = _
    rw [Head.value_setWith, Head.value_store]
  unfold setAttributeWith
  rw [outcome_entity_bind he]
  show outcome (orFail ((e.setWith n x mode).value.mapError Failure.parse) >>= fun e' => do
    keep name e'
    pure e') b = _
  rw [hset]
  cases e.head.parsed n x mode with
  | ok v => rfl
  | error f => rfl

theorem outcome_change (he : b.entities.get? name = some e) (f : Entity → Logged Event Entity) :
    outcome (change name f) b = (.ok (f e).value, b.keeping name (f e).value) := by
  unfold change
  rw [outcome_entity_bind he]
  rfl

theorem outcome_unsetAttribute (he : b.entities.get? name = some e) (n : String) :
    outcome (unsetAttribute name n) b = (.ok (e.head.value? n), b.keeping name (e.unset n)) := by
  unfold unsetAttribute
  rw [outcome_entity_bind he]
  rfl

theorem get?_keeping (b : Workbench) (name : String) (e : Entity) :
    (b.keeping name e).entities.get? name = some e :=
  Text.Named.get?_put_self _ _ _

end Outcomes

/-! ## §2. Setting, reading and removing -/

/-- What setting a text under a name, in a mode of the caller or of the entity, and
removing the name do to the values of a named entity. -/
structure MapOfNames (b : Workbench) (name : String) (e : Entity) (n x : String) (mode : Bool) :
    Prop where
  /-- What the text is under the name is read under all names of the attribute. -/
  stored : ∀ v, e.head.parsed n x mode = .ok v → ∃ e',
    answer (setAttributeWith name n x mode) b = .ok e' ∧
      (step b (.setAttributeWith name n x mode)).entities.get? name = some e' ∧
      e.head.Assigned n (some v) e'.head
  /-- A text that is refused changes nothing; the fault tells it and the declared name. -/
  refused : ∀ f, e.head.parsed n x mode = .error f →
    answer (setAttributeWith name n x mode) b = .error (.failure (.parse f)) ∧
      (step b (.setAttributeWith name n x mode)).entities.get? name = some e ∧
      f.text = x ∧ ∃ c, e.head.column? n = some c ∧ f.attributeName = c.name
  /-- The same in the mode of the entity, where nothing is told. -/
  set : ∀ v, e.head.parsed n x e.head.strict = .ok v → ∃ e',
    (step b (.setAttribute name n x)).entities.get? name = some e' ∧
      e.head.Assigned n (some v) e'.head
  dropped : ∀ f, e.head.parsed n x e.head.strict = .error f →
    (step b (.setAttribute name n x)).entities.get? name = some e
  /-- What is removed is told, and gone under all names of the attribute. -/
  removed : ∃ e',
    answer (unsetAttribute name n) b = .ok (e.head.value? n) ∧
      (step b (.unsetAttribute name n)).entities.get? name = some e' ∧
      e.head.Assigned n none e'.head

/-- **The attributes of each entity of a run are a map**, of which all names of one
attribute are one key. -/
theorem mapOfNames_run (ts : List Task) {name : String} {e : Entity}
    (he : (run ts).entities.get? name = some e) (n x : String) (mode : Bool) :
    MapOfNames (run ts) name e n x mode := by
  have hmode := (legible_run he).mode
  have hwith := outcome_setAttributeWith he n x mode
  have hset := outcome_change he fun e => e.set n x
  have hunset := outcome_unsetAttribute he n
  refine ⟨?_, ?_, ?_, ?_, ?_⟩
  · intro v hv
    rw [hv] at hwith
    refine ⟨_, congrArg Prod.fst hwith, ?_, Head.assigned_keep hmode n v⟩
    show (outcome (setAttributeWith name n x mode) (run ts)).2.entities.get? name = _
    rw [hwith]
    exact get?_keeping _ _ _
  · intro f hf
    rw [hf] at hwith
    refine ⟨congrArg Prod.fst hwith, ?_, Head.exists_of_parsed_error hf⟩
    show (outcome (setAttributeWith name n x mode) (run ts)).2.entities.get? name = _
    rw [hwith]
    exact he
  · intro v hv
    refine ⟨e.withHead (e.head.keep (e.head.keptName n) v), ?_, Head.assigned_keep hmode n v⟩
    show (outcome (setAttribute name n x) (run ts)).2.entities.get? name = _
    have hvalue : (e.set n x).value = e.withHead (e.head.keep (e.head.keptName n) v) :=
      congrArg e.withHead (Head.set_of_parsed hv)
    rw [setAttribute, hset, hvalue]
    exact get?_keeping _ _ _
  · intro f hf
    show (outcome (setAttribute name n x) (run ts)).2.entities.get? name = _
    have hvalue : (e.set n x).value = e :=
      (congrArg e.withHead (Head.set_of_refused hf)).trans e.withHead_head
    rw [setAttribute, hset, hvalue]
    exact get?_keeping _ _ _
  · refine ⟨e.unset n, congrArg Prod.fst hunset, ?_, Head.assigned_unset hmode n⟩
    show (outcome (unsetAttribute name n) (run ts)).2.entities.get? name = _
    rw [hunset]
    exact get?_keeping _ _ _

/-- A class with a note, read in lenient mode. -/
def notedClass : List Task :=
  [.create "c" .propertyClass false .plain [("ClassName", "RES"), ("X-Note", "on")]]

/-- The name of the class is set in another case; the note stays. -/
theorem mapOfNames_run_notedClass :
    ∃ e', (step (run notedClass) (.setAttributeWith "c" "classname" "COM" true)).entities.get? "c"
        = some e' ∧
      e'.head.value? "ClassName" = some (.text "COM") ∧
      e'.head.value? "X-Note" = some (.text "on") := by
  have hshown : ((run notedClass).entities.get? "c").map (fun e =>
      ((e.head.parsed "classname" "COM" true).toOption, e.head.value? "X-Note",
        decide (e.head.SameAttribute "classname" "ClassName"),
        decide (e.head.SameAttribute "classname" "X-Note")))
        = some (some (.text "COM"), some (.text "on"), true, false) := by decide +kernel
  obtain ⟨e, he, hshown⟩ := Option.map_eq_some_iff.mp hshown
  simp only [Prod.mk.injEq, decide_eq_true_eq, decide_eq_false_iff_not] at hshown
  obtain ⟨hparsed, hnote, hsame, hother⟩ := hshown
  have hv : e.head.parsed "classname" "COM" true = .ok (.text "COM") := by
    cases hp : e.head.parsed "classname" "COM" true with
    | ok v =>
      rw [hp] at hparsed
      exact congrArg Except.ok (Option.some.inj hparsed)
    | error f =>
      rw [hp] at hparsed
      cases hparsed
  obtain ⟨e', -, he', hassigned⟩ :=
    (mapOfNames_run notedClass he "classname" "COM" true).stored _ hv
  refine ⟨e', he', hassigned.same _ hsame, ?_⟩
  rw [hassigned.others _ hother, hnote]

/-! ## §3. Another type for a name -/

/-- **Another type for a name leaves values where they are read.**  Each name has the
value that it had, unless it is a further spelling of the name that the change declares:
where nothing was kept for such a spelling, it has the value of the name.  Each value
that was read under any other name is in the snapshot. -/
theorem retyped_run (ts : List Task) {name : String} {e : Entity}
    (he : (run ts).entities.get? name = some e) (n : String) (type : ValueType) :
    ∃ e', (run (ts ++ [.replaceType name n type])).entities.get? name = some e' ∧
      (∀ m, ¬ e.head.Respells n m → e'.head.value? m = e.head.value? m) ∧
      (∀ m, e.head.Respells n m → e.head.value? m = none →
        e'.head.value? m = e.head.value? n) ∧
      (∀ m v, ¬ e.head.Respells n m → e.head.value? m = some v →
        e'.snapshot.attributes.get? (e'.head.keptName m) = some (e'.head.wireText m v)) := by
  have hlegible := legible_run he
  have hafter : (run (ts ++ [.replaceType name n type])).entities.get? name
      = some (e.replaceType (run ts).next n type) := by
    rw [run_append_singleton]
    show (outcome (replaceType name n type) (run ts)).2.entities.get? name = _
    rw [outcome_replaceType he]
    exact Text.Named.get?_put_self _ _ _
  refine ⟨_, hafter, ?_, ?_, ?_⟩
  · intro m hm
    exact Head.value?_replaceType hlegible.mode hm
  · intro m hm _
    exact Head.value?_replaceType_of_respells hlegible.mode hm
  · intro m v hm hv
    have hread : (e.replaceType (run ts).next n type).head.value? m = some v :=
      (Head.value?_replaceType hlegible.mode hm).trans hv
    rw [Entity.snapshot_eq]
    exact Head.get?_wire (hlegible.replaceType _ n type) hread

/-- A note that gets a type is read and written as before, and read in lower case too. -/
theorem retyped_run_notedClass :
    ∃ e', (run (notedClass ++ [.replaceType "c" "X-Note" Catalog.text256])).entities.get? "c"
        = some e' ∧
      e'.head.value? "X-Note" = some (.text "on") ∧
      e'.head.value? "x-note" = some (.text "on") ∧
      e'.snapshot.attributes.get? (e'.head.keptName "X-Note")
        = some (e'.head.wireText "X-Note" (.text "on")) := by
  have hshown : ((run notedClass).entities.get? "c").map (fun e =>
      (e.head.value? "X-Note", e.head.value? "x-note",
        decide (e.head.Respells "X-Note" "X-Note"), decide (e.head.Respells "X-Note" "x-note")))
        = some (some (.text "on"), none, false, true) := by decide +kernel
  obtain ⟨e, he, hshown⟩ := Option.map_eq_some_iff.mp hshown
  simp only [Prod.mk.injEq, decide_eq_true_eq, decide_eq_false_iff_not] at hshown
  obtain ⟨hnote, hlower, hself, hspelling⟩ := hshown
  obtain ⟨e', he', hkept, hrespelled, hwritten⟩ :=
    retyped_run notedClass he "X-Note" Catalog.text256
  refine ⟨e', he', ?_, ?_, hwritten _ _ hself hnote⟩
  · rw [hkept _ hself, hnote]
  · rw [hrespelled _ hspelling hlower, hnote]

/-- So a name under which nothing was read before can have a value afterwards. -/
theorem lower_note_read_once_typed :
    ((run notedClass).entities.get? "c").map (fun e => e.head.value? "x-note") = some none ∧
      ((run (notedClass ++ [.replaceType "c" "X-Note" Catalog.text256])).entities.get? "c").map
        (fun e => e.head.value? "x-note") = some (some (.text "on")) := by
  constructor <;> decide +kernel

end Workbench

end ListingMetadata
