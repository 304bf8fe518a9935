/-
  ListingMetadata.Proofs.Section.SystemTag
  ────────────────────────────────────────
  **WHEN THE TAG OF A SYSTEM IS READ BACK.**

  In the compact form a system is a tag of quoted attributes, then its comments
  between a tag and its end, if it has any.  A reader takes each attribute up to the
  next quote, and the comments up to the first end of comments:

      <SYSTEM SystemID="CRT" SystemDescription="The "best" system"/>
                        ‾‾‾                     ‾‾‾‾

  Nothing is escaped, so what is read is what was written unless that holds the text
  at which the reader stops:

    • `ReadsTag.unique`      — a tag is read in one way,
    • `readsPairs_pairs`     — the attributes that are read back,
    • `readsBack_systemTag`  — the tag of a system and its comments,
    • `systems_readBack_iff` — the systems of a section.
-/
import ListingMetadata.Proofs.Entity.StrictlyRead
import ListingMetadata.Proofs.Section.Pairs
import ListingMetadata.Proofs.Text.Splitting
import ListingMetadata.Proofs.Value.Characters

namespace ListingMetadata

open Text

namespace Compact

/-! ## §1. Reading tags -/

/-- A name and a value between quotes, at the beginning of a text after a blank, and
what follows them. -/
def readPair : List Char → Option ((String × String) × List Char)
  | ' ' :: text => do
    let (name, text) ← text.dropInfix? ['=', '"']
    let (value, text) ← text.dropInfix? ['"']
    some ((String.ofList name, String.ofList value), text)
  | _ => none

/-- The pairs up to the end of a tag, and what follows it. -/
inductive ReadsPairs : List Char → List (String × String) → List Char → Prop where
  | done (rest : List Char) : ReadsPairs ('/' :: '>' :: rest) [] rest
  | next {text text' rest : List Char} {p : String × String} {ps : List (String × String)}
      (h : readPair text = some (p, text')) (hs : ReadsPairs text' ps rest) :
      ReadsPairs text (p :: ps) rest

/-- A tag of a name is at the beginning of a text, with these attributes. -/
def ReadsTag (name : String) (text : List Char) (ps : List (String × String))
    (rest : List Char) : Prop :=
  ∃ inner, text = '<' :: (name.toList ++ inner) ∧ ReadsPairs inner ps rest

/-- The text between the first opening and the first closing after it. -/
def between? (opening closing : String) (text : List Char) : Option String := do
  let (_, text) ← text.dropInfix? opening.toList
  let (inner, _) ← text.dropInfix? closing.toList
  some (String.ofList inner)

/-- **A tag is read in one way.** -/
theorem ReadsPairs.unique {text rest rest' : List Char} {ps ps' : List (String × String)}
    (h : ReadsPairs text ps rest) (h' : ReadsPairs text ps' rest') : ps = ps' ∧ rest = rest' := by
  induction h generalizing ps' with
  | done rest =>
    cases h' with
    | done => exact ⟨rfl, rfl⟩
    | next hread => cases hread
  | next hread _ ih =>
    cases h' with
    | done => cases hread
    | next hread' hs' =>
      rw [hread] at hread'
      cases hread'
      obtain ⟨hps, hrest⟩ := ih hs'
      exact ⟨by rw [hps], hrest⟩

theorem ReadsTag.unique {name : String} {text rest rest' : List Char}
    {ps ps' : List (String × String)} (h : ReadsTag name text ps rest)
    (h' : ReadsTag name text ps' rest') : ps = ps' ∧ rest = rest' := by
  obtain ⟨inner, htext, hs⟩ := h
  obtain ⟨inner', htext', hs'⟩ := h'
  rw [htext, List.cons.injEq, List.append_cancel_left_eq] at htext'
  rw [htext'.2] at hs
  exact hs.unique hs'

/-! ## §2. What is read, and what is read back -/

/-- The value of a pair that is read holds no quote. -/
theorem notMem_of_readPair {text rest : List Char} {p : String × String}
    (h : readPair text = some (p, rest)) : '"' ∉ p.2.toList := by
  unfold readPair at h
  split at h
  · obtain ⟨⟨name, text⟩, -, h⟩ := Option.bind_eq_some_iff.mp h
    obtain ⟨⟨value, text'⟩, hvalue, h⟩ := Option.bind_eq_some_iff.mp h
    cases h
    have hfree := not_isInfix_of_dropInfix? (List.cons_ne_nil '"' []) hvalue
    rw [String.toList_ofList]
    intro hquote
    exact hfree ((List.singleton_infix_iff _ _).mpr hquote)
  · cases h

theorem ReadsPairs.notMem {text rest : List Char} {ps : List (String × String)}
    (h : ReadsPairs text ps rest) : ∀ p ∈ ps, '"' ∉ p.2.toList := by
  induction h with
  | done => exact List.forall_mem_nil _
  | next hread _ ih => exact List.forall_mem_cons.mpr ⟨notMem_of_readPair hread, ih⟩

/-- **A pair is read back** if its value holds no quote. -/
theorem readPair_pair {name value : String} (hn : '=' ∉ name.toList) (hv : '"' ∉ value.toList)
    (rest : List Char) : readPair (pair name value ++ rest) = some ((name, value), rest) := by
  have hname : ¬ ['=', '"'] <:+: name.toList := fun h => hn (h.subset List.mem_cons_self)
  have hvalue : ¬ ['"'] <:+: value.toList := fun h => hv (h.subset List.mem_cons_self)
  have htext : pair name value ++ rest
      = ' ' :: (name.toList ++ ['=', '"'] ++ (value.toList ++ ['"'] ++ rest)) := by
    unfold pair
    simp
  rw [htext]
  unfold readPair
  simp only [dropInfix?_append rfl (by decide) hname, dropInfix?_append rfl (by decide) hvalue,
    Option.bind_eq_bind, Option.bind_some, String.ofList_toList]

/-- **So are all pairs of a tag.** -/
theorem readsPairs_pairs {ps : List (String × String)}
    (hps : ∀ p ∈ ps, '=' ∉ p.1.toList ∧ '"' ∉ p.2.toList) (rest : List Char) :
    ReadsPairs ((ps.flatMap fun p => pair p.1 p.2) ++ '/' :: '>' :: rest) ps rest := by
  induction ps with
  | nil => exact .done rest
  | cons p ps ih =>
    obtain ⟨⟨hname, hvalue⟩, hps⟩ := List.forall_mem_cons.mp hps
    rw [List.flatMap_cons, List.append_assoc]
    exact .next (readPair_pair hname hvalue _) (ih hps)

/-- What is read between two texts does not hold the second. -/
theorem not_isInfix_of_between? {opening closing s : String} {text : List Char}
    (hne : closing.toList ≠ []) (h : between? opening closing text = some s) :
    ¬ closing.toList <:+: s.toList := by
  obtain ⟨⟨before, text'⟩, -, h⟩ := Option.bind_eq_some_iff.mp h
  obtain ⟨⟨inner, after⟩, hinner, h⟩ := Option.bind_eq_some_iff.mp h
  cases h
  rw [String.toList_ofList]
  exact not_isInfix_of_dropInfix? hne hinner

end Compact

/-! ## §3. The tag of a system -/

namespace Compact

/-- The attributes in the tag of a system: those of them that it has. -/
def systemPairs (h : Head) : List (String × String) :=
  ["SystemID", "SystemDescription", "TimeZoneOffset"].filterMap fun name =>
    (h.text? name).map fun text => (name, text)

/-- The comments of a system, if it has any, on a line of their own. -/
def commentsLine (h : Head) : List Char :=
  match h.text? "Comments" with
  | some comments => "<COMMENTS>".toList ++ comments.toList ++ "</COMMENTS>\n".toList
  | none => []

/-- The text begins with a tag that has the attributes of the system and no other, and
the comments of the system, if it has any, follow it. -/
def ReadsBack (h : Head) (text : List Char) : Prop :=
  ∃ rest, ReadsTag "SYSTEM" text (systemPairs h) rest ∧
    ∀ comments, h.text? "Comments" = some comments →
      between? "<COMMENTS>" "</COMMENTS>" rest = some comments

/-- Neither the description of a system nor its comments hold what ends them. -/
structure EndsNothing (h : Head) : Prop where
  description : ∀ s, h.text? "SystemDescription" = some s → '"' ∉ s.toList
  comments : ∀ s, h.text? "Comments" = some s → ¬ "</COMMENTS>".toList <:+: s.toList

theorem mem_systemPairs {h : Head} {p : String × String} :
    p ∈ systemPairs h ↔
      p.1 ∈ ["SystemID", "SystemDescription", "TimeZoneOffset"] ∧ h.text? p.1 = some p.2 := by
  unfold systemPairs
  rw [List.mem_filterMap]
  constructor
  · rintro ⟨name, hname, hp⟩
    obtain ⟨text, htext, rfl⟩ := Option.map_eq_some_iff.mp hp
    exact ⟨hname, htext⟩
  · rintro ⟨hname, htext⟩
    exact ⟨p.1, hname, by rw [htext]; rfl⟩

/-- What is read back ends nowhere before its end. -/
theorem ReadsBack.endsNothing {h : Head} {text : List Char} (hr : ReadsBack h text) :
    EndsNothing h := by
  obtain ⟨rest, ⟨inner, -, hpairs⟩, hcomments⟩ := hr
  refine ⟨?_, ?_⟩
  · intro s hs
    have hmem : ("SystemDescription", s) ∈ systemPairs h := mem_systemPairs.mpr ⟨by simp, hs⟩
    exact hpairs.notMem _ hmem
  · intro s hs
    have hne : "</COMMENTS>".toList ≠ [] := by decide
    exact not_isInfix_of_between? hne (hcomments s hs)

section Written

variable {h : Head}

/-- The tag of a system with an id and a description is made of its attributes. -/
theorem systemTag_eq (hid : (h.text? "SystemID").isSome)
    (hdescription : (h.text? "SystemDescription").isSome) (rest : List Char) :
    systemTag h ++ rest
      = '<' :: ("SYSTEM".toList ++ (((systemPairs h).flatMap fun p => pair p.1 p.2)
        ++ '/' :: '>' :: ('\n' :: (commentsLine h ++ rest)))) := by
  obtain ⟨id, hid⟩ := Option.isSome_iff_exists.mp hid
  obtain ⟨description, hdescription⟩ := Option.isSome_iff_exists.mp hdescription
  have hcomments : systemTag h = "<SYSTEM".toList ++ pair "SystemID" id
      ++ pair "SystemDescription" description
      ++ (match h.text? "TimeZoneOffset" with
        | some zone => pair "TimeZoneOffset" zone
        | none => [])
      ++ ['/', '>', '\n'] ++ commentsLine h := by
    unfold systemTag commentsLine
    rw [hid, hdescription]
    rfl
  rw [hcomments]
  unfold systemPairs
  cases hzone : h.text? "TimeZoneOffset" with
  | none => simp [hid, hdescription, hzone]
  | some zone => simp [hid, hdescription, hzone]

theorem between?_commentsLine {comments : String} (hc : h.text? "Comments" = some comments)
    (hfree : ¬ "</COMMENTS>".toList <:+: comments.toList) (rest : List Char) :
    between? "<COMMENTS>" "</COMMENTS>" ('\n' :: (commentsLine h ++ rest)) = some comments := by
  have hline : '\n' :: (commentsLine h ++ rest)
      = ['\n'] ++ "<COMMENTS>".toList
        ++ (comments.toList ++ "</COMMENTS>".toList ++ '\n' :: rest) := by
    unfold commentsLine
    rw [hc]
    simp
  have hopening : "<COMMENTS>".toList = '<' :: ['C', 'O', 'M', 'M', 'E', 'N', 'T', 'S', '>'] := by
    decide
  have hclosing : "</COMMENTS>".toList
      = '<' :: ['/', 'C', 'O', 'M', 'M', 'E', 'N', 'T', 'S', '>'] := by decide
  have hbefore : ¬ "<COMMENTS>".toList <:+: ['\n'] := by decide
  unfold between?
  rw [hline, dropInfix?_append hopening (by decide) hbefore, Option.bind_eq_bind, Option.bind_some]
  simp only [dropInfix?_append hclosing (by decide) hfree, Option.bind_some, String.ofList_toList]

/-- **A system is read back** if nothing that it has ends before its end. -/
theorem readsBack_systemTag (hid : (h.text? "SystemID").isSome)
    (hdescription : (h.text? "SystemDescription").isSome)
    (hvalues : ∀ p ∈ systemPairs h, '"' ∉ p.2.toList)
    (hcomments : ∀ s, h.text? "Comments" = some s → ¬ "</COMMENTS>".toList <:+: s.toList)
    (rest : List Char) : ReadsBack h (systemTag h ++ rest) := by
  have hnames : ∀ name ∈ ["SystemID", "SystemDescription", "TimeZoneOffset"],
      '=' ∉ name.toList := by decide
  have hpairs : ∀ p ∈ systemPairs h, '=' ∉ p.1.toList ∧ '"' ∉ p.2.toList :=
    fun p hp => ⟨hnames _ (mem_systemPairs.mp hp).1, hvalues p hp⟩
  rw [systemTag_eq hid hdescription rest]
  refine ⟨'\n' :: (commentsLine h ++ rest), ⟨_, rfl, readsPairs_pairs hpairs _⟩, ?_⟩
  intro comments hc
  exact between?_commentsLine hc (hcomments comments hc) rest

end Written

end Compact

/-! ## §4. Systems that were read strictly -/

/-- No letter, digit or zone is a quote. -/
theorem ValueType.notMem_render_of_strict {t : ValueType} {text : String} {v : Value}
    (hg : t.grammar = .alphanum ∨ t.grammar = .timeZone) (h : t.strict text = .ok v) :
    '"' ∉ (t.render v).toList := by
  intro hquote
  rcases hg with hg | hg
  · obtain ⟨rfl, hall⟩ := allowed_of_strict (by rw [hg]; rfl) h
    exact absurd (hall _ hquote) (by decide)
  · unfold strict at h
    simp only [hg] at h
    split at h
    · rename_i hzone
      cases h
      exact absurd (ofFigures_of_isZoneText hzone _ hquote) (by decide)
    · cases h

/-- What is shown under the name of a built-in column was read strictly. -/
theorem Head.StrictlyRead.exists_strict {h : Head} (hs : h.StrictlyRead) {column : Column}
    (hc : column ∈ h.kind.builtinColumns) {s : String} (ht : h.text? column.name = some s) :
    ∃ text v, column.type.strict text = .ok v ∧ s = column.type.render v := by
  unfold Head.text? at ht
  rw [hs.column?_eq hc] at ht
  obtain ⟨v, hv, rfl⟩ := Option.map_eq_some_iff.mp ht
  obtain ⟨text, htext⟩ := hs.values column hc v hv
  exact ⟨text, v, htext, rfl⟩

/-- Of the attributes in the tag of a system only the description may hold a quote. -/
theorem Compact.notMem_systemPairs {h : Head} (hk : h.kind = .system) (hs : h.StrictlyRead)
    (hdescription : ∀ s, h.text? "SystemDescription" = some s → '"' ∉ s.toList) :
    ∀ p ∈ systemPairs h, '"' ∉ p.2.toList := by
  have hplain : ∀ name s, (∃ column ∈ Kind.system.builtinColumns, column.name = name ∧
      (column.type.grammar = .alphanum ∨ column.type.grammar = .timeZone)) →
      h.text? name = some s → '"' ∉ s.toList := by
    rintro name s ⟨column, hcolumn, rfl, hg⟩ hshown
    rw [← hk] at hcolumn
    obtain ⟨text, v, hread, rfl⟩ := hs.exists_strict hcolumn hshown
    exact ValueType.notMem_render_of_strict hg hread
  rintro ⟨name, s⟩ hp
  obtain ⟨hname, hshown⟩ := mem_systemPairs.mp hp
  simp only [List.mem_cons, List.not_mem_nil, or_false] at hname
  rcases hname with rfl | rfl | rfl
  · exact hplain "SystemID" s (by decide +kernel) hshown
  · exact hdescription s hshown
  · exact hplain "TimeZoneOffset" s (by decide +kernel) hshown

/-- **A system in a section is read back exactly when its description holds no quote
and its comments hold no end of comments.** -/
theorem systems_readBack_iff (c : Context) {before after : List Entity} {e : Entity}
    (hof : ∀ d ∈ before ++ e :: after, d.kind = .system) (hread : e.head.StrictlyRead)
    (hid : (e.head.text? "SystemID").isSome)
    (hdescription : (e.head.text? "SystemDescription").isSome) :
    ∃ text, (format .system .compact c (before ++ e :: after)).toList
        = Compact.opening .system c
          ++ before.flatMap (fun d => Compact.systemTag d.head) ++ text ∧
      (Compact.ReadsBack e.head text ↔ Compact.EndsNothing e.head) := by
  have hne : before ++ e :: after ≠ [] := by simp
  refine ⟨Compact.systemTag e.head
    ++ ((after.flatMap fun d => Compact.systemTag d.head)
      ++ compactEmbedded ((before ++ e :: after).map fun d => d.record c)
      ++ Compact.closing .system), ?_, ?_⟩
  · rw [toList_format_compact hne hof]
    unfold Compact.rows
    rw [if_pos rfl, List.flatMap_map]
    simp only [List.flatMap_append, List.flatMap_cons, List.append_assoc]
  · constructor
    · exact fun h => h.endsNothing
    · intro h
      have hkind : e.head.kind = .system := hof e (by simp)
      exact Compact.readsBack_systemTag hid hdescription
        (Compact.notMem_systemPairs hkind hread h.description) h.comments _

/-- A strict system of some description and comments. -/
def crtSystem (description comments : String) : Entity :=
  ((Entity.plain .system true).setAll [("SystemID", "CRT"), ("SystemDescription", description),
    ("TimeZoneOffset", "-06:00"), ("Comments", comments)]).value

theorem strictlyRead_crtSystem (description comments : String) :
    (crtSystem description comments).kind = .system ∧
      (crtSystem description comments).head.StrictlyRead := by
  unfold crtSystem
  exact Head.strictlyRead_plain_setAll .system _

/-- A system with markup, apostrophes and line breaks. -/
def markedUpSystem : Entity :=
  crtSystem "Listings & 'more' <all/>" "<COMMENTS>\nNone\n"

/-- A system with quotes in its description. -/
def quotedSystem : Entity :=
  crtSystem "The \"best\" system" "None"

/-- The marked up system is read back, also after the other one. -/
theorem markedUpSystem_readBack :
    (∀ d ∈ [quotedSystem] ++ [markedUpSystem], d.kind = .system) ∧
      markedUpSystem.head.StrictlyRead ∧
      (markedUpSystem.head.text? "SystemID").isSome ∧
      (markedUpSystem.head.text? "SystemDescription").isSome ∧
      ∃ text, (format .system .compact summerOutput ([quotedSystem] ++ [markedUpSystem])).toList
          = Compact.opening .system summerOutput
            ++ [quotedSystem].flatMap (fun d => Compact.systemTag d.head) ++ text ∧
        Compact.ReadsBack markedUpSystem.head text := by
  have hof : ∀ d ∈ [quotedSystem] ++ [markedUpSystem], d.kind = .system := by
    intro d hd
    simp only [List.mem_append, List.mem_singleton] at hd
    rcases hd with rfl | rfl
    · exact (strictlyRead_crtSystem _ _).1
    · exact (strictlyRead_crtSystem _ _).1
  have hread : markedUpSystem.head.StrictlyRead := (strictlyRead_crtSystem _ _).2
  have hid : (markedUpSystem.head.text? "SystemID").isSome := by decide +kernel
  have hdescription : markedUpSystem.head.text? "SystemDescription"
      = some "Listings & 'more' <all/>" := by decide +kernel
  have hcomments : markedUpSystem.head.text? "Comments" = some "<COMMENTS>\nNone\n" := by
    decide +kernel
  have hends : Compact.EndsNothing markedUpSystem.head := by
    refine ⟨?_, ?_⟩
    · intro s hs
      rw [hdescription] at hs
      cases hs
      decide
    · intro s hs
      rw [hcomments] at hs
      cases hs
      decide
  have hsome : (markedUpSystem.head.text? "SystemDescription").isSome := by
    rw [hdescription]
    rfl
  obtain ⟨text, htext, hiff⟩ := systems_readBack_iff summerOutput hof hread hid hsome
  exact ⟨hof, hread, hid, hsome, text, htext, hiff.mpr hends⟩

/-- **A quote in a description, which strict reading takes, ends the attribute.** -/
theorem quotedSystem_not_readBack :
    quotedSystem.kind = .system ∧ quotedSystem.head.StrictlyRead ∧
      quotedSystem.head.text? "SystemID" = some "CRT" ∧
      quotedSystem.head.text? "SystemDescription" = some "The \"best\" system" ∧
      ∀ text, (format .system .compact summerOutput [quotedSystem]).toList
          = Compact.opening .system summerOutput ++ text →
        ¬ Compact.ReadsBack quotedSystem.head text := by
  obtain ⟨hkind, hread⟩ := strictlyRead_crtSystem "The \"best\" system" "None"
  obtain ⟨hid, hdescription⟩ : quotedSystem.head.text? "SystemID" = some "CRT" ∧
      quotedSystem.head.text? "SystemDescription" = some "The \"best\" system" := by
    decide +kernel
  refine ⟨hkind, hread, hid, hdescription, ?_⟩
  intro text _ hback
  have hfree := hback.endsNothing.description _ hdescription
  exact absurd hfree (by decide)

end ListingMetadata
