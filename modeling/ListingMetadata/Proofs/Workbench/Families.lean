/-
  ListingMetadata.Proofs.Workbench.Families
  ─────────────────────────────────────────
  **VALUES ARE ANSWERED BY THE FAMILIES OF THEIR TYPES.**

  Each type has a family, and what it reads is of the family, or a text that lenient
  reading keeps in its place.  So, until a type is replaced on an entity, the accessor of
  the declared family answers what is kept under a name:

      MaximumLength   " 12 "    ⟶  12         readInt    ⟶  12
      Searchable      "maybe"   ⟶  "maybe"    readBool   ⟶  false    (kept, of no family)

    • `answers_of_family`   — a value of the declared family,
    • `Legible.answersOwn`  — what is kept by a head that can be read by name,
    • `families_run`        — a whole run.
-/
import ListingMetadata.Proofs.Value.Families
import ListingMetadata.Proofs.Workbench.Legible

namespace ListingMetadata

/-! ## §1. Accessors -/

/-- The value is a text that the type keeps in the place of a number, a truth value or
a date. -/
def ValueType.Keeps (t : ValueType) (v : Value) : Prop :=
  t.family ≠ .text ∧ ∃ text, v = .text text ∧ t.parse text false = .ok (.text text)

namespace Head

variable {h : Head} {name : String} {c : Column} {v : Value}

/-- The accessor of the family of a value answers it, and has nothing to tell. -/
def Answers (h : Head) (name : String) : Value → Prop
  | .text s => h.readText name = pure (some s)
  | .int n => h.readInt name = pure n
  | .bool b => h.readBool name = pure b
  | .date d => h.readDate name = pure (some d)

theorem value?_of_column (hc : h.column? name = some c) :
    h.value? name = h.values.get? c.name := by
  unfold value? keptName
  rw [hc]
  rfl

theorem valueOf_of_family (hc : h.column? name = some c) (hv : h.value? name = some v)
    (hf : v.family = c.type.family) : h.valueOf v.family name = pure (some v) := by
  unfold valueOf
  rw [hc]
  simp only [hf, if_true]
  rw [← value?_of_column hc, hv]

/-- **A value of the declared family is answered by the accessor of the family.** -/
theorem answers_of_family (hc : h.column? name = some c) (hv : h.value? name = some v)
    (hf : v.family = c.type.family) : h.Answers name v := by
  have hvalue := valueOf_of_family hc hv hf
  cases v with
  | text s => exact congrArg (· >>= fun v => pure (v.bind Value.text?)) hvalue
  | int n => exact congrArg (· >>= fun v => pure ((v.bind Value.int?).getD 0)) hvalue
  | bool b => exact congrArg (· >>= fun v => pure ((v.bind Value.bool?).getD false)) hvalue
  | date d => exact congrArg (· >>= fun v => pure (v.bind Value.date?)) hvalue

/-- **The accessor of the declared family answers what is kept**, unless that is a text
in the place of another value. -/
theorem Legible.answersOwn (hl : h.Legible) (hu : h.UnchangedTypes)
    (hc : h.column? name = some c) (hv : h.value? name = some v) :
    v.family = c.type.family ∧ h.Answers name v ∨ c.type.Keeps v := by
  obtain ⟨text, strict, hread⟩ := hl.parsed hu name c v hc (value?_of_column hc ▸ hv)
  have hown : v.family = c.type.family → v.family = c.type.family ∧ h.Answers name v :=
    fun hf => ⟨hf, answers_of_family hc hv hf⟩
  obtain hs | ⟨rfl, -, hcoerced | ⟨-, rfl⟩⟩ := ValueType.parse_cases hread
  · exact Or.inl (hown (ValueType.family_of_strict hs))
  · exact Or.inl (hown (ValueType.family_of_coerce? hcoerced))
  · -- a text that is kept is of the family of texts, or of none
    by_cases hf : c.type.family = .text
    · exact Or.inl (hown hf.symm)
    · exact Or.inr ⟨hf, text, rfl, hread⟩

end Head

namespace Workbench

/-! ## §2. Runs -/

/-- **Values have the declared family.**  Each type reads each text as its family says.
So in every state of a run, on each entity of a tree whose types were not replaced, the
accessor of the declared family answers what is kept under a declared name, unless that
is a text in the place of another value. -/
theorem families_run :
    (∀ (t : ValueType) (text : String), t.ReadsFamily text) ∧
      ∀ (ts : List Task) (name : String) (e : Entity), (run ts).entities.get? name = some e →
        ∀ x, Entity.Within x e → x.head.UnchangedTypes →
          ∀ n c v, x.head.column? n = some c → x.head.value? n = some v →
            v.family = c.type.family ∧ x.head.Answers n v ∨ c.type.Keeps v := by
  refine ⟨ValueType.readsFamily, ?_⟩
  intro ts name e he x hx hu n c v hc hv
  have hlegible : x.head.Legible := (all_legible_run ts).named name e he x hx
  exact hlegible.answersOwn hu hc hv

/-- A field of which one text is read and one is kept as it stands. -/
def halfReadField : List Task :=
  [.create "f" .table false .plain [("MaximumLength", " 12 "), ("Searchable", "maybe")]]

/-- The number is answered under the name in another case; the other text is kept, and
strict reading refuses it. -/
theorem families_run_halfReadField :
    ∃ e, (run halfReadField).entities.get? "f" = some e ∧
      e.head.readInt "maximumlength" = pure 12 ∧
      ∃ c, e.head.column? "Searchable" = some c ∧ c.type.Keeps (.text "maybe") ∧
        ∃ f, c.type.parse "maybe" true = .error f := by
  have hshown : ((run halfReadField).entities.get? "f").map (fun e =>
      (e.head.layout.mark, e.head.value? "maximumlength", e.head.value? "Searchable",
        (e.head.column? "maximumlength").isSome,
        (e.head.column? "Searchable").map fun c => c.type.family))
        = some (.builtin, some (.int 12), some (.text "maybe"), true, some .boolean) := by
    decide +kernel
  obtain ⟨e, he, hshown⟩ := Option.map_eq_some_iff.mp hshown
  simp only [Prod.mk.injEq] at hshown
  obtain ⟨hmark, hnumber, htext, hlength, hsearchable⟩ := hshown
  have hu : e.head.UnchangedTypes := fun serial hchanged => by
    rw [hmark] at hchanged
    cases hchanged
  obtain ⟨c, hc⟩ := Option.isSome_iff_exists.mp hlength
  obtain ⟨d, hd, hfamily⟩ := Option.map_eq_some_iff.mp hsearchable
  obtain ⟨hreads, hanswered⟩ := families_run
  have hown := hanswered halfReadField "f" e he e (.here e) hu
  have hint : e.head.readInt "maximumlength" = pure 12 := by
    obtain ⟨-, hanswers⟩ | ⟨-, text, hkept, -⟩ := hown _ _ _ hc hnumber
    · exact hanswers
    · cases hkept
  have hkept : d.type.Keeps (.text "maybe") := by
    obtain ⟨hf, -⟩ | hkept := hown _ _ _ hd htext
    · rw [hfamily] at hf
      cases hf
    · exact hkept
  refine ⟨e, he, hint, d, hd, hkept, ?_⟩
  obtain ⟨hf, text, heq, hlenient⟩ := hkept
  cases heq
  exact ((hreads d.type "maybe").kept hf _ hlenient).2.1

end Workbench

end ListingMetadata
