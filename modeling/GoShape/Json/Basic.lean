import GoShape.Json.Number

/-! JSON values. An object is the list of its members, in the order in which their keys
first appear. -/
namespace GoShape

/-- A JSON value. -/
inductive Json
  | null
  | bool (b : Bool)
  | number (n : Json.Number)
  | string (s : String)
  | array (items : List Json)
  | object (members : List (String × Json))

namespace Json

/-- Set the member of a key: a key met before keeps its place and takes the new value. -/
def setMember {α : Type} (key : String) (value : α) : List (String × α) → List (String × α)
  | [] => [(key, value)]
  | (k, v) :: rest =>
    if k = key then (k, value) :: rest else (k, v) :: setMember key value rest

/-- The keys do not depend on the values, and only a new key is added, at the end. -/
theorem keys_setMember {α : Type} (key : String) (value : α) (ms : List (String × α)) :
    (setMember key value ms).map Prod.fst =
      if key ∈ ms.map Prod.fst then ms.map Prod.fst else ms.map Prod.fst ++ [key] := by
  induction ms with
  | nil => simp [setMember]
  | cons m ms ih =>
    obtain ⟨k, v⟩ := m
    by_cases h : k = key
    · simp [setMember, h]
    · simp only [setMember, if_neg h, List.map_cons, ih, List.mem_cons, Ne.symm h, false_or]
      split <;> simp

/-- Setting members one after the other leaves the keys distinct. -/
theorem nodup_setMember {α : Type} (key : String) (value : α) (ms : List (String × α))
    (h : (ms.map Prod.fst).Nodup) : ((setMember key value ms).map Prod.fst).Nodup := by
  rw [keys_setMember]
  split
  · exact h
  · rename_i hk
    simp only [List.nodup_append, h, List.nodup_cons, List.not_mem_nil, not_false_eq_true,
      List.nodup_nil, and_self, List.mem_singleton, true_and]
    rintro a ha b rfl rfl
    exact hk ha

end Json
end GoShape
