/-
  ListingMetadata.Proofs.Document.Locality
  ────────────────────────────────────────
  **WHERE IDS HAVE NO COLON, TRAILS TELL NODES APART.**

  In a document of permitted kinds whose ids have no colon and do not repeat
  among siblings, what is filed under a trail comes from one node alone.  So a
  request below a node finds in the files of the whole document what it finds
  in those of the node:

    • `filed_indexedAll_self`  — at a node: its children of the kind,
    • `filed_indexedAll_child` — below a child: what the child has filed.
-/
import ListingMetadata.Proofs.Document.Filing
import ListingMetadata.Proofs.Kind.Hierarchy

namespace ListingMetadata.Document

/-! ## §1. Texts that go on from a text -/

/-- The second text is the first, or goes on from it after a colon. -/
def Onward (p q : String) : Prop :=
  q = p ∨ ∃ r, q = p ++ ":" ++ r

theorem Onward.ne {p a q : String} (h : Onward (p ++ ":" ++ a) q) : q ≠ p := by
  intro hq
  have hone : (":" : String).length = 1 := rfl
  rcases h with h | ⟨r, h⟩ <;>
  · have hlen := congrArg String.length (hq.symm.trans h)
    simp only [String.length_append] at hlen
    omega

theorem Onward.of_child {p a q : String} (h : Onward (p ++ ":" ++ a) q) : Onward p q := by
  right
  rcases h with h | ⟨r, h⟩
  · exact ⟨a, h⟩
  · refine ⟨a ++ ":" ++ r, ?_⟩
    rw [h]
    simp only [String.append_assoc]

/-- Up to the next colon stands the id that a text goes on with. -/
theorem Onward.takeWhile {p a q : String} (ha : ':' ∉ a.toList)
    (h : Onward (p ++ ":" ++ a) q) :
    (q.toList.drop (p.toList.length + 1)).takeWhile (fun c => decide (c ≠ ':')) = a.toList := by
  have hall : ∀ c ∈ a.toList, decide (c ≠ ':') = true := by
    intro c hc
    exact decide_eq_true fun he => ha (he ▸ hc)
  have hdrop : ∀ rest : List Char,
      (p.toList ++ ':' :: (a.toList ++ rest)).drop (p.toList.length + 1) = a.toList ++ rest := by
    intro rest
    rw [List.drop_append]
    simp
  rcases h with h | ⟨r, h⟩
  · have hq : q.toList = p.toList ++ ':' :: (a.toList ++ []) := by rw [h]; simp
    rw [hq, hdrop, List.takeWhile_append_of_pos hall]
    simp
  · have hq : q.toList = p.toList ++ ':' :: (a.toList ++ ':' :: r.toList) := by rw [h]; simp
    rw [hq, hdrop, List.takeWhile_append_of_pos hall]
    simp

/-- **Ids without a colon are read off a text that goes on from them.** -/
theorem Onward.id_unique {p a b q : String} (ha : ':' ∉ a.toList) (hb : ':' ∉ b.toList)
    (h : Onward (p ++ ":" ++ a) q) (h' : Onward (p ++ ":" ++ b) q) : a = b := by
  rw [← String.toList_inj, ← h.takeWhile ha, ← h'.takeWhile hb]

/-! ## §2. Orderly documents -/

/-- The first document is the second or a node of it. -/
inductive Within : Document → Document → Prop where
  | here (d : Document) : Within d d
  | down {n c d : Document} : c ∈ d.children → Within n c → Within n d

theorem Trail.within {strict : Bool} {p q : String} {d n : Document}
    (h : Trail strict p d q n) : Within n d := by
  induction h with
  | here p d => exact .here d
  | down hc _ ih => exact .down hc ih

/-- Every node may stand where it stands, no id has a colon, and siblings of a
kind share no id but the empty one. -/
structure Orderly (strict : Bool) (d : Document) : Prop where
  permitted : ∀ n, Within n d → ∀ c ∈ n.children, n.kind.permits c.kind = true
  colonless : ∀ n, Within n d → ':' ∉ (n.idIn strict).toList
  distinct : ∀ n, Within n d → n.children.Pairwise fun a b =>
    a.kind = b.kind → a.idIn strict = b.idIn strict → a.idIn strict = ""

namespace Orderly

variable {strict : Bool} {d : Document}

/-- The children of an orderly document are orderly. -/
theorem child (h : Orderly strict d) {c : Document} (hc : c ∈ d.children) :
    Orderly strict c where
  permitted n hn := h.permitted n (.down hc hn)
  colonless n hn := h.colonless n (.down hc hn)
  distinct n hn := h.distinct n (.down hc hn)

/-- An orderly document is one whose root is in order and whose children are
orderly. -/
theorem of_children (hp : ∀ c ∈ d.children, d.kind.permits c.kind = true)
    (hc : ':' ∉ (d.idIn strict).toList)
    (hd : d.children.Pairwise fun a b =>
      a.kind = b.kind → a.idIn strict = b.idIn strict → a.idIn strict = "")
    (h : ∀ c ∈ d.children, Orderly strict c) : Orderly strict d where
  permitted n hn := by
    cases hn with
    | here => exact hp
    | down hm hn => exact (h _ hm).permitted n hn
  colonless n hn := by
    cases hn with
    | here => exact hc
    | down hm hn => exact (h _ hm).colonless n hn
  distinct n hn := by
    cases hn with
    | here => exact hd
    | down hm hn => exact (h _ hm).distinct n hn

theorem mem_childKinds (h : Orderly strict d) {c : Document} (hc : c ∈ d.children) :
    c.kind ∈ d.kind.childKinds :=
  Kind.permits_iff.mp (h.permitted d (.here d) c hc)

theorem over_of_trail (h : Orderly strict d) {p q : String} {n : Document}
    (ht : Trail strict p d q n) : Kind.Over d.kind n.kind := by
  induction ht with
  | here p d => exact .refl _
  | down hc _ ih => exact (ih (h.child hc)).parent (h.mem_childKinds hc)

/-- What is filed below a node has a trail that goes on from that of the node,
and a kind below that of the node. -/
theorem of_mem_indexedAll (h : Orderly strict d) {p : String} {r : Request} {x : Document}
    (hx : (r, x) ∈ (indexedAll strict p d.children).value) :
    Onward p r.path ∧ Kind.Over d.kind r.kind := by
  obtain ⟨n, ht, hn, hk⟩ := (mem_indexedAll d).mp hx
  have hpermitted := h.permitted n ht.within x hn
  refine ⟨ht.eq_or_append, ?_⟩
  rw [← hk]
  exact (h.over_of_trail ht).child (Kind.permits_iff.mp hpermitted)

end Orderly

mutual

/-- Whether a document is orderly. -/
def inOrder (strict : Bool) : Document → Bool
  | mk k as cs =>
    decide (∀ c ∈ cs, k.permits c.kind = true) &&
      decide (':' ∉ ((mk k as cs).idIn strict).toList) &&
      decide (cs.Pairwise fun a b =>
        a.kind = b.kind → a.idIn strict = b.idIn strict → a.idIn strict = "") &&
      allInOrder strict cs

/-- Whether documents are orderly, each for itself. -/
def allInOrder (strict : Bool) : List Document → Bool
  | [] => true
  | c :: cs => c.inOrder strict && allInOrder strict cs

end

theorem allInOrder_iff {strict : Bool} {cs : List Document} :
    allInOrder strict cs = true ↔ ∀ c ∈ cs, c.inOrder strict = true := by
  induction cs with
  | nil => simp [allInOrder]
  | cons c cs ih =>
    unfold allInOrder
    rw [Bool.and_eq_true, ih, List.forall_mem_cons]

theorem inOrder_iff {strict : Bool} (d : Document) :
    d.inOrder strict = true ↔ Orderly strict d := by
  induction d using induct with
  | step d ih =>
    have hchildren : allInOrder strict d.children = true ↔
        ∀ c ∈ d.children, Orderly strict c := by
      rw [allInOrder_iff]
      exact forall₂_congr ih
    obtain ⟨k, as, cs⟩ := d
    unfold inOrder
    rw [Bool.and_eq_true, Bool.and_eq_true, Bool.and_eq_true, decide_eq_true_eq,
      decide_eq_true_eq, decide_eq_true_eq]
    constructor
    · rintro ⟨⟨⟨hpermitted, hcolonless⟩, hdistinct⟩, hcs⟩
      exact .of_children hpermitted hcolonless hdistinct (hchildren.mp hcs)
    · intro h
      have hself := Within.here (mk k as cs)
      exact ⟨⟨⟨h.permitted _ hself, h.colonless _ hself⟩, h.distinct _ hself⟩,
        hchildren.mpr fun c hc => h.child hc⟩

instance (strict : Bool) (d : Document) : Decidable (Orderly strict d) :=
  decidable_of_iff (d.inOrder strict = true) (inOrder_iff d)

/-! ## §3. What is filed under a trail -/

theorem filed_append {α : Type} (entries more : List (Request × α)) (r : Request) :
    filed (entries ++ more) r = filed entries r ++ filed more r := by
  unfold filed
  rw [List.filter_append, List.map_append]

theorem filed_eq_nil {α : Type} {entries : List (Request × α)} {r : Request}
    (h : ∀ x, (r, x) ∉ entries) : filed entries r = [] := by
  rw [List.eq_nil_iff_forall_not_mem]
  intro x hx
  exact h x (mem_filed.mp hx)

theorem value_indexedAll_append (strict : Bool) (p : String) (ds es : List Document) :
    (indexedAll strict p (ds ++ es)).value
      = (indexedAll strict p ds).value ++ (indexedAll strict p es).value := by
  induction ds with
  | nil => rfl
  | cons d ds ih =>
    rw [List.cons_append, value_indexedAll_cons, value_indexedAll_cons, ih, List.append_assoc _ _
      (indexedAll strict p es).value]

/-- Under the trail of a node its own children are filed, and nothing else. -/
theorem filed_indexedAll_self (strict : Bool) (p : String) (k : Kind) (ds : List Document) :
    filed (indexedAll strict p ds).value ⟨k, p⟩ = ds.filter fun c => decide (c.kind = k) := by
  induction ds with
  | nil => rfl
  | cons d ds ih =>
    -- trails below a child are longer
    have hbelow : filed (indexedAll strict (p ++ ":" ++ d.idIn strict) d.children).value ⟨k, p⟩
        = [] := by
      apply filed_eq_nil
      intro x hx
      obtain ⟨n, ht, -, -⟩ := (mem_indexedAll d).mp hx
      exact Onward.ne ht.eq_or_append rfl
    rw [value_indexedAll_cons, filed_append, filed_append, hbelow, ih, List.append_nil]
    unfold filed
    by_cases hk : d.kind = k
    · simp [hk]
    · simp [hk]

/-- **Below a child that has an id, what the document has filed is what the child
has filed.** -/
theorem filed_indexedAll_child {strict : Bool} {d c : Document} (h : Orderly strict d)
    (hc : c ∈ d.children) (hid : c.idIn strict ≠ "") {p q : String} {k : Kind}
    (hq : Onward (p ++ ":" ++ c.idIn strict) q) (hk : Kind.Over c.kind k) :
    filed (indexedAll strict p d.children).value ⟨k, q⟩
      = filed (indexedAll strict (p ++ ":" ++ c.idIn strict) c.children).value ⟨k, q⟩ := by
  -- no other sibling has filed anything under the trail
  have other : ∀ b ∈ d.children, (b.kind = c.kind → b.idIn strict ≠ c.idIn strict) →
      ∀ x, (⟨k, q⟩, x) ∉ (indexedAll strict (p ++ ":" ++ b.idIn strict) b.children).value := by
    intro b hb hne x hx
    obtain ⟨hqb, hkb⟩ := (h.child hb).of_mem_indexedAll hx
    have hid := hqb.id_unique (h.colonless b (.down hb (.here b)))
      (h.colonless c (.down hc (.here c))) hq
    exact hne (hkb.eq_of_siblings hk (h.mem_childKinds hb) (h.mem_childKinds hc)) hid
  have others : ∀ bs : List Document, (∀ b ∈ bs, b ∈ d.children ∧
      (b.kind = c.kind → b.idIn strict ≠ c.idIn strict)) →
      filed (indexedAll strict p bs).value ⟨k, q⟩ = [] := by
    intro bs hbs
    apply filed_eq_nil
    intro x hx
    obtain ⟨b, hb, he | hx⟩ := mem_indexedAll_iff.mp hx
    · exact hq.ne (congrArg (fun e => e.1.path) he)
    · exact other b (hbs b hb).1 (hbs b hb).2 x hx
  -- what is left is the child itself, between siblings that file nothing there
  obtain ⟨before, after, hsplit⟩ := List.append_of_mem hc
  have hdistinct := h.distinct d (.here d)
  rw [hsplit, List.pairwise_append, List.pairwise_cons] at hdistinct
  obtain ⟨-, ⟨hafter, -⟩, hbefore⟩ := hdistinct
  have hfirst : filed (indexedAll strict p before).value ⟨k, q⟩ = [] := by
    apply others
    intro b hb
    refine ⟨by rw [hsplit]; exact List.mem_append_left _ hb, fun hk hi => hid ?_⟩
    rw [← hi]
    exact hbefore b hb c List.mem_cons_self hk hi
  have hlast : filed (indexedAll strict p after).value ⟨k, q⟩ = [] := by
    apply others
    intro b hb
    refine ⟨by rw [hsplit]; exact List.mem_append_right _ (List.mem_cons_of_mem _ hb),
      fun hk hi => hid ?_⟩
    exact hafter b hb hk.symm hi.symm
  have hown : filed [((⟨c.kind, p⟩ : Request), c)] ⟨k, q⟩ = [] := by
    apply filed_eq_nil
    intro x hx
    have he := List.mem_singleton.mp hx
    exact hq.ne (congrArg (fun e => e.1.path) he)
  rw [hsplit, value_indexedAll_append, value_indexedAll_cons, filed_append, filed_append,
    filed_append, hfirst, hown, hlast, List.nil_append, List.nil_append, List.append_nil]

end ListingMetadata.Document
