/-
  ListingMetadata.Query.Basic
  ───────────────────────────
  **QUERY CLAUSES.**

  A clause is a predicate on listings: a comparison, a membership, a match of
  texts, or a combination of clauses.  Literals are texts, 64-bit integers or
  truth values; columns and raw clauses are taken as they are.
-/
import ListingMetadata.Number.Integer

namespace ListingMetadata.Query

open Number

/-! ## §1. Literals and operators -/

/-- A literal of a clause. -/
inductive Literal where
  | bool (b : Bool)
  | int (v : Int)
  | text (s : String)
deriving DecidableEq, Repr

/-- How several clauses are combined. -/
inductive Junction where
  | and
  | or
deriving DecidableEq, Repr

/-- The keyword of a junction. -/
def Junction.keyword : Junction → String
  | .and => "AND"
  | .or => "OR"

/-- How a column is compared. -/
inductive Comparison where
  | eq
  | ne
  | lt
  | le
  | gt
  | ge
deriving DecidableEq, Repr

/-- The sign of a comparison. -/
def Comparison.sign : Comparison → String
  | .eq => "="
  | .ne => "<>"
  | .lt => "<"
  | .le => "<="
  | .gt => ">"
  | .ge => ">="

/-! ## §2. Clauses -/

/-- A clause. -/
inductive Clause where
  /-- Text that stands as it is. -/
  | raw (sql : String)
  | compare (column : String) (op : Comparison) (value : Literal)
  | between (column : String) (low high : Literal)
  /-- One of some values; of none, nothing matches. -/
  | oneOf (column : String) (values : List Literal)
  | startsWith (column start : String)
  | contains (column part : String)
  | isNull (column : String)
  | not (clause : Clause)
  | composite (op : Junction) (elements : List Clause)
deriving Repr

namespace Clause

/-- The column equals a value. -/
def equals (column : String) (value : Literal) : Clause :=
  compare column .eq value

/-- Both of two clauses. -/
def bothOf (left right : Clause) : Clause :=
  composite .and [left, right]

/-- Either of two clauses. -/
def eitherOf (left right : Clause) : Clause :=
  composite .or [left, right]

/-! ## §3. Equality -/

mutual

/-- The clauses agree in everything. -/
def same : Clause → Clause → Bool
  | raw s, raw s' => decide (s = s')
  | compare c o v, compare c' o' v' => decide (c = c') && decide (o = o') && decide (v = v')
  | between c l h, between c' l' h' => decide (c = c') && decide (l = l') && decide (h = h')
  | oneOf c vs, oneOf c' vs' => decide (c = c') && decide (vs = vs')
  | startsWith c s, startsWith c' s' => decide (c = c') && decide (s = s')
  | contains c s, contains c' s' => decide (c = c') && decide (s = s')
  | isNull c, isNull c' => decide (c = c')
  | not c, not c' => c.same c'
  | composite o cs, composite o' cs' => decide (o = o') && sameAll cs cs'
  | _, _ => false

/-- The clauses agree one by one. -/
def sameAll : List Clause → List Clause → Bool
  | [], [] => true
  | c :: cs, d :: ds => c.same d && sameAll cs ds
  | _, _ => false

end

mutual

theorem eq_of_same : ∀ c d : Clause, c.same d = true → c = d
  | raw _, d, h => by cases d <;> simp_all [same]
  | compare _ _ _, d, h => by cases d <;> simp_all [same]
  | between _ _ _, d, h => by cases d <;> simp_all [same]
  | oneOf _ _, d, h => by cases d <;> simp_all [same]
  | startsWith _ _, d, h => by cases d <;> simp_all [same]
  | contains _ _, d, h => by cases d <;> simp_all [same]
  | isNull _, d, h => by cases d <;> simp_all [same]
  | not c, d, h => by
    cases d with
    | not d => rw [eq_of_same c d (by simpa [same] using h)]
    | _ => simp [same] at h
  | composite o cs, d, h => by
    cases d with
    | composite o' ds =>
      simp only [same, Bool.and_eq_true, decide_eq_true_eq] at h
      rw [h.1, eq_of_sameAll cs ds h.2]
    | _ => simp [same] at h

theorem eq_of_sameAll : ∀ cs ds : List Clause, sameAll cs ds = true → cs = ds
  | [], [], _ => rfl
  | c :: cs, d :: ds, h => by
    simp only [sameAll, Bool.and_eq_true] at h
    rw [eq_of_same c d h.1, eq_of_sameAll cs ds h.2]
  | [], _ :: _, h => by simp [sameAll] at h
  | _ :: _, [], h => by simp [sameAll] at h

end

mutual

theorem same_self : ∀ c : Clause, c.same c = true
  | raw _ => by simp [same]
  | compare _ _ _ => by simp [same]
  | between _ _ _ => by simp [same]
  | oneOf _ _ => by simp [same]
  | startsWith _ _ => by simp [same]
  | contains _ _ => by simp [same]
  | isNull _ => by simp [same]
  | not c => by simp [same, same_self c]
  | composite _ cs => by simp [same, sameAll_self cs]

theorem sameAll_self : ∀ cs : List Clause, sameAll cs cs = true
  | [] => rfl
  | c :: cs => by simp [sameAll, same_self c, sameAll_self cs]

end

instance : DecidableEq Clause := fun c d =>
  if h : c.same d = true then isTrue (eq_of_same c d h)
  else isFalse fun he => h (he ▸ same_self d)

end Clause

end ListingMetadata.Query
