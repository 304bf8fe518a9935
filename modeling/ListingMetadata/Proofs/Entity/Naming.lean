/-
  ListingMetadata.Proofs.Entity.Naming
  ────────────────────────────────────
  **WHICH NAMES STAND FOR ONE ATTRIBUTE.**

  An attribute that is declared has all the names that lead to its declaration, one that
  is not has its own name alone.  What is kept for one of its names is read under all of
  them and under no other, and goes to the wire under one:

      ClassName  classname  CLASSNAME   ⟶  ClassName      (declared, lenient)
      X-Note                            ⟶  X-Note         (not declared)

    • `keptName_eq_iff`     — names of one attribute are kept as one,
    • `assigned_keep`, `assigned_unset` — setting and removing,
    • `get?_wire`           — each value on the wire,
    • `value?_replaceType`  — another type for a name.
-/
import ListingMetadata.Proofs.Entity.Legible
import ListingMetadata.Proofs.Entity.Rereading

namespace ListingMetadata

open Text

/-- A text that is refused stands in the fault. -/
theorem ValueType.text_of_parse_error {t : ValueType} {text : String}
    {strict : Bool} {f : ParseFault} (hp : t.parse text strict = .error f) : f.text = text := by
  unfold ValueType.parse at hp
  cases hs : t.strict text with
  | ok v =>
    rw [hs] at hp
    cases hp
  | error reason =>
    rw [hs] at hp
    cases strict with
    | true =>
      cases hp
      rfl
    | false => cases hp

namespace Head

variable {h : Head} {n m : String}

/-! ## §1. Names of one attribute -/

/-- Two names stand for one attribute: they lead to one declaration, in the mode of the
head, or neither is declared and they are the same. -/
def SameAttribute (h : Head) (n m : String) : Prop :=
  (∃ c ∈ h.layout.layout.columns,
      nameKey h.strict c.name = nameKey h.strict n ∧ nameKey h.strict c.name = nameKey h.strict m) ∨
    ((∀ c ∈ h.layout.layout.columns, nameKey h.strict c.name ≠ nameKey h.strict n) ∧ n = m)

instance (h : Head) (n m : String) : Decidable (h.SameAttribute n m) :=
  inferInstanceAs (Decidable (_ ∨ _))

theorem keptName_of_column {c : Column} (hc : h.column? n = some c) : h.keptName n = c.name := by
  unfold keptName
  rw [hc]
  rfl

theorem keptName_of_undeclared (hc : h.column? n = none) : h.keptName n = n := by
  unfold keptName
  rw [hc]
  rfl

/-- The name under which a value is kept leads where the name of the value leads. -/
theorem column?_keptName (h : Head) (n : String) : h.column? (h.keptName n) = h.column? n := by
  cases hc : h.column? n with
  | some c =>
    rw [keptName_of_column hc]
    exact Layout.find?_self hc
  | none => rw [keptName_of_undeclared hc, hc]

/-- **Values are kept under one name exactly for the names of one attribute.** -/
theorem keptName_eq_iff (hmode : h.layout.layout.strict = h.strict) :
    h.keptName n = h.keptName m ↔ h.SameAttribute n m := by
  unfold SameAttribute
  rw [← hmode]
  constructor
  · intro hkept
    have hcolumn : h.column? n = h.column? m := by
      rw [← column?_keptName h n, hkept, column?_keptName]
    cases hn : h.column? n with
    | some c =>
      have hm : h.column? m = some c := hcolumn ▸ hn
      exact Or.inl ⟨c, Layout.mem_of_find? hn, Layout.key_of_find? hn, Layout.key_of_find? hm⟩
    | none =>
      have hm : h.column? m = none := hcolumn ▸ hn
      rw [keptName_of_undeclared hn, keptName_of_undeclared hm] at hkept
      exact Or.inr ⟨Layout.find?_eq_none_iff.mp hn, hkept⟩
  · rintro (⟨c, hc, hn, hm⟩ | ⟨-, rfl⟩)
    · have hcolumn : h.column? n = h.column? m := Layout.find?_congr (hn.symm.trans hm)
      have hdeclared : ∃ d, h.column? n = some d := Layout.exists_find? hc hn
      obtain ⟨d, hd⟩ := hdeclared
      rw [keptName_of_column hd, keptName_of_column (hcolumn ▸ hd)]
    · rfl

/-! ## §2. Setting and removing -/

/-- The second head has a value, or none, under all names of an attribute; under every
other name it has what the first has. -/
structure Assigned (h : Head) (n : String) (v : Option Value) (h' : Head) : Prop where
  same : ∀ m, h.SameAttribute n m → h'.value? m = v
  others : ∀ m, ¬ h.SameAttribute n m → h'.value? m = h.value? m

theorem assigned_keep (hmode : h.layout.layout.strict = h.strict) (n : String) (v : Value) :
    h.Assigned n (some v) (h.keep (h.keptName n) v) where
  same m hm := by
    show (h.values.put (h.keptName n) v).get? (h.keptName m) = some v
    rw [(keptName_eq_iff hmode).mpr hm, Named.get?_put_self]
  others m hm := Named.get?_put_of_ne _ _ fun he => hm ((keptName_eq_iff hmode).mp he.symm)

theorem assigned_unset (hmode : h.layout.layout.strict = h.strict) (n : String) :
    h.Assigned n none (h.unset n) where
  same m hm := by
    show (h.values.drop (h.keptName n)).get? (h.keptName m) = none
    rw [(keptName_eq_iff hmode).mpr hm, Named.get?_drop_self]
  others m hm := Named.get?_drop_of_ne _ fun he => hm ((keptName_eq_iff hmode).mp he.symm)

/-- What a text is under a name: the value that the declaration reads, or a fault of the
declared name; the text as it is if the name is not declared. -/
def parsed (h : Head) (name text : String) (strict : Bool) : Except ParseFault Value :=
  match h.column? name with
  | some c => (c.type.parse text strict).mapError fun f => { f with attributeName := c.name }
  | none => .ok (.text text)

theorem parsed_of_column {c : Column} (hc : h.column? n = some c) (text : String) (strict : Bool) :
    h.parsed n text strict
      = (c.type.parse text strict).mapError fun f => { f with attributeName := c.name } := by
  unfold parsed
  rw [hc]

theorem parsed_of_undeclared (hc : h.column? n = none) (text : String) (strict : Bool) :
    h.parsed n text strict = .ok (.text text) := by
  unfold parsed
  rw [hc]

/-- **A setting keeps what the text is under the name, or is refused.** -/
theorem value_store (h : Head) (name text : String) (strict : Bool) :
    (h.store name text strict).value
      = (h.parsed name text strict).map (h.keep (h.keptName name)) := by
  cases hc : h.column? name with
  | none =>
    rw [keptName_of_undeclared hc, parsed_of_undeclared hc]
    exact store_of_undeclared hc text strict
  | some c =>
    rw [keptName_of_column hc, parsed_of_column hc]
    cases hp : c.type.parse text strict with
    | ok v => exact store_of_column hc hp
    | error f =>
      unfold store
      rw [hc]
      simp only [Logged.value_bind, ValueType.value_read, hp]
      rfl

/-- A setting in the mode of the entity keeps what the text is there. -/
theorem set_of_parsed {name text : String} {v : Value} (hv : h.parsed name text h.strict = .ok v) :
    (h.set name text).value = h.keep (h.keptName name) v := by
  apply set_of_store
  rw [value_store, hv]
  rfl

/-- A setting that is refused changes nothing. -/
theorem set_of_refused {name text : String} {f : ParseFault}
    (hf : h.parsed name text h.strict = .error f) : (h.set name text).value = h := by
  obtain hs | hs := set_cases h name text
  · rw [value_store, hf] at hs
    cases hs
  · exact hs

/-- **A text is refused for a declared name alone, and the fault tells both.** -/
theorem exists_of_parsed_error {name text : String} {strict : Bool} {f : ParseFault}
    (hf : h.parsed name text strict = .error f) :
    f.text = text ∧ ∃ c, h.column? name = some c ∧ f.attributeName = c.name := by
  cases hc : h.column? name with
  | none =>
    rw [parsed_of_undeclared hc] at hf
    cases hf
  | some c =>
    rw [parsed_of_column hc] at hf
    cases hp : c.type.parse text strict with
    | ok v =>
      rw [hp] at hf
      cases hf
    | error g =>
      rw [hp] at hf
      cases hf
      have htext : g.text = text := ValueType.text_of_parse_error hp
      exact ⟨htext, c, rfl, rfl⟩

/-! ## §3. The wire -/

theorem mem_extras {name text : String} (he : (name, text) ∈ h.extras) :
    h.column? name = none ∧ ∃ v, (name, v) ∈ h.values ∧ v.text? = some text := by
  obtain ⟨⟨key, v⟩, hv, hshown⟩ := List.mem_filterMap.mp he
  cases hd : h.layout.layout.declares key with
  | true => simp [hd] at hshown
  | false =>
    simp only [hd, Bool.false_eq_true, if_false] at hshown
    obtain ⟨s, hs, heq⟩ := Option.map_eq_some_iff.mp hshown
    cases heq
    exact ⟨Layout.declares_eq_false_iff.mp hd, v, hv, hs⟩

/-- **Each value that is read under a name is on the wire**, under the name that it is
kept by. -/
theorem get?_wire (hl : h.Legible) {v : Value} (hv : h.value? m = some v) :
    h.wire.get? (h.keptName m) = some (h.wireText m v) := by
  unfold wire wireText
  cases hc : h.column? m with
  | some c =>
    have hself : h.column? c.name = some c := Layout.find?_self hc
    have htext : h.text? c.name = some (c.type.render v) := by
      rw [value?, keptName_of_column hc] at hv
      unfold text?
      simp only [hself, hv, Option.map_some]
    rw [keptName_of_column hc]
    apply Named.get?_ofPairs_of_agree
    · apply List.mem_append_left
      rw [List.mem_filterMap]
      exact ⟨c.name, List.mem_map.mpr ⟨c, Layout.mem_of_find? hc, rfl⟩, by rw [htext]; rfl⟩
    · intro s hs
      rcases List.mem_append.mp hs with hknown | hextra
      · obtain ⟨name, -, hshown⟩ := List.mem_filterMap.mp hknown
        obtain ⟨s', hs', heq⟩ := Option.map_eq_some_iff.mp hshown
        cases heq
        exact Option.some.inj (hs'.symm.trans htext)
      · -- what is extra is not declared
        have hnone := (mem_extras hextra).1
        rw [hself] at hnone
        cases hnone
  | none =>
    rw [value?, keptName_of_undeclared hc] at hv
    obtain ⟨s, rfl⟩ := hl.texts m v hv hc
    have hmem : (m, Value.text s) ∈ h.values := (Named.get?_eq_some_iff hl.sorted.nodup).mp hv
    have hdeclares : h.layout.layout.declares m = false := Layout.declares_eq_false_iff.mpr hc
    rw [keptName_of_undeclared hc]
    apply Named.get?_ofPairs_of_agree
    · apply List.mem_append_right
      refine List.mem_filterMap.mpr ⟨_, hmem, ?_⟩
      simp [hdeclares, Value.text?, Value.labelled]
    · intro s' hs'
      rcases List.mem_append.mp hs' with hknown | hextra
      · -- what is known is declared
        obtain ⟨name, hname, hshown⟩ := List.mem_filterMap.mp hknown
        obtain ⟨_, _, heq⟩ := Option.map_eq_some_iff.mp hshown
        cases heq
        obtain ⟨c, hcolumn, hcname⟩ := List.mem_map.mp hname
        exact absurd (by rw [hcname]) (Layout.find?_eq_none_iff.mp hc c hcolumn)
      · obtain ⟨-, w, hw, hws⟩ := mem_extras hextra
        have hwv := (Named.get?_eq_some_iff hl.sorted.nodup).mpr hw
        rw [hv] at hwv
        cases hwv
        exact (Option.some.inj hws).symm

/-! ## §4. Another type for a name -/

/-- The second name is a further spelling of the first, once this is declared: the mode
is lenient, the first is not declared so far, and they differ in ASCII case alone. -/
def Respells (h : Head) (n m : String) : Prop :=
  h.strict = false ∧ h.column? n = none ∧ m ≠ n ∧ lowered m = lowered n

instance (h : Head) (n m : String) : Decidable (h.Respells n m) :=
  inferInstanceAs (Decidable (_ ∧ _))

variable {serial : Nat} {type : ValueType}

theorem column?_replaceType (hmode : h.layout.layout.strict = h.strict) :
    (h.replaceType serial n type).column? m
      = if nameKey h.strict m = nameKey h.strict n then some (h.layout.layout.retyped n type)
        else h.column? m := by
  rw [← hmode]
  exact Layout.find?_replaceType h.layout.layout n type m

/-- A further spelling of the name is kept as the name. -/
theorem keptName_replaceType_of_respells (hmode : h.layout.layout.strict = h.strict)
    (hm : h.Respells n m) : (h.replaceType serial n type).keptName m = h.keptName n := by
  obtain ⟨hstrict, hn, -, hcase⟩ := hm
  have hkey : nameKey h.strict m = nameKey h.strict n := by
    rw [hstrict]
    exact hcase
  have hcolumn : (h.replaceType serial n type).column? m = _ := column?_replaceType hmode
  rw [if_pos hkey] at hcolumn
  rw [keptName_of_column hcolumn, Layout.name_retyped]
  rfl

/-- Every other name is kept as before. -/
theorem keptName_replaceType (hmode : h.layout.layout.strict = h.strict)
    (hm : ¬ h.Respells n m) : (h.replaceType serial n type).keptName m = h.keptName m := by
  have hcolumn : (h.replaceType serial n type).column? m = _ := column?_replaceType hmode
  by_cases hkey : nameKey h.strict m = nameKey h.strict n
  · rw [if_pos hkey] at hcolumn
    rw [keptName_of_column hcolumn, Layout.name_retyped]
    show h.keptName n = h.keptName m
    rw [keptName_eq_iff hmode]
    cases hn : h.column? n with
    | some c =>
      have hc := Layout.key_of_find? hn
      rw [hmode] at hc
      exact Or.inl ⟨c, Layout.mem_of_find? hn, hc, hc.trans hkey.symm⟩
    | none =>
      -- a name that is declared now has no further spelling
      have hne := Layout.find?_eq_none_iff.mp hn
      rw [hmode] at hne
      refine Or.inr ⟨hne, ?_⟩
      cases hstrict : h.strict with
      | true =>
        rw [hstrict] at hkey
        exact hkey.symm
      | false =>
        rw [hstrict] at hkey
        by_contra hnm
        exact hm ⟨hstrict, hn, Ne.symm hnm, hkey⟩
  · rw [if_neg hkey] at hcolumn
    unfold keptName
    rw [hcolumn]

/-- **What another type for a name does to reading.**  Every name has the value that it
had, but a further spelling of the name, which now has the value of the name. -/
theorem value?_replaceType (hmode : h.layout.layout.strict = h.strict)
    (hm : ¬ h.Respells n m) : (h.replaceType serial n type).value? m = h.value? m := by
  unfold value?
  rw [keptName_replaceType hmode hm]
  rfl

theorem value?_replaceType_of_respells (hmode : h.layout.layout.strict = h.strict)
    (hm : h.Respells n m) : (h.replaceType serial n type).value? m = h.value? n := by
  unfold value?
  rw [keptName_replaceType_of_respells hmode hm]
  rfl

end Head

end ListingMetadata
