/-! Kinds: how a value is classified without looking inside it, and what becomes of values of
different kinds that stand in one list. -/
namespace GoShape

/-- The types without parts. -/
inductive Scalar
  | any
  | bool
  | string
  | timestamp
  | int
  | int64
  | float64
  deriving DecidableEq, Repr

/-- The kind of a value or of a type. -/
inductive Kind
  | scalar (s : Scalar)
  | slice
  | struct
  deriving DecidableEq, Repr

namespace Kind

def isInteger (k : Kind) : Bool := k = .scalar .int || k = .scalar .int64

/-- The kind of two neighbours: equal kinds stay, an integer beside a float is a float, and all
else is anything. -/
def unify (a b : Kind) : Kind :=
  if a = b then a
  else if a.isInteger ∧ b = .scalar .float64 then .scalar .float64
  else if a = .scalar .float64 ∧ b.isInteger then .scalar .float64
  else .scalar .any

/-- The kind of a list whose first part has the kind `k`. Once it is anything it stays so. -/
def unifyAll (k : Kind) : List Kind → Kind
  | [] => k
  | l :: ls => if unify k l = .scalar .any then .scalar .any else unifyAll (unify k l) ls

/-- The kind that all the elements of a list share; the empty list has none. -/
def common : List Kind → Option Kind
  | [] => none
  | k :: ks => some (unifyAll k ks)

@[simp] theorem unify_self (k : Kind) : unify k k = k := by simp [unify]

theorem unify_any (k : Kind) : unify (.scalar .any) k = .scalar .any := by
  rcases k with (_ | _ | _ | _ | _ | _ | _) | _ | _ <;> rfl

theorem foldl_unify_any (ks : List Kind) : ks.foldl unify (.scalar .any) = .scalar .any := by
  induction ks with
  | nil => rfl
  | cons k ks ih => rw [List.foldl_cons, unify_any, ih]

/-- Stopping early loses nothing. -/
theorem unifyAll_eq_foldl (k : Kind) (ks : List Kind) : unifyAll k ks = ks.foldl unify k := by
  induction ks generalizing k with
  | nil => rfl
  | cons l ls ih =>
    simp only [unifyAll, List.foldl_cons]
    split
    · rename_i h; rw [h, foldl_unify_any]
    · exact ih _

end Kind
end GoShape
