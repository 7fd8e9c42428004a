import GoShape.Conversion
import GoShape.Proofs.Parts

/-! Samples of one shape. Two values that differ only in the numbers, strings and booleans they hold,
and not in the kinds of these, have one type, and their texts one declaration: nothing of the data
itself shows in what is declared. -/
namespace GoShape

namespace Json

mutual

/-- One shape: as many items, the same keys in the same order, and for the values without parts the
same sort, numbers and strings also of one kind. -/
def sameShape : Json → Json → Bool
  | .null, .null => true
  | .bool _, .bool _ => true
  | .number n, .number m => kind (.number n) = kind (.number m)
  | .string s, .string t => kind (.string s) = kind (.string t)
  | .array items, .array others => sameItems items others
  | .object ms, .object others => sameMembers ms others
  | _, _ => false

def sameItems : List Json → List Json → Bool
  | [], [] => true
  | v :: items, w :: others => sameShape v w && sameItems items others
  | _, _ => false

def sameMembers : List (String × Json) → List (String × Json) → Bool
  | [], [] => true
  | (k, v) :: ms, (l, w) :: others => k == l && sameShape v w && sameMembers ms others
  | _, _ => false

end

/-- The value has the type of every value of its shape. -/
def TypedByShape (v : Json) : Prop := ∀ w, v.sameShape w → v.type = w.type

theorem map_type_of_sameItems {items others : List Json} (h : ∀ v ∈ items, v.TypedByShape)
    (hsame : sameItems items others) : items.map type = others.map type := by
  induction items generalizing others with
  | nil =>
    cases others with
    | nil => rfl
    | cons w others => simp [sameItems] at hsame
  | cons v items ih =>
    cases others with
    | nil => simp [sameItems] at hsame
    | cons w others =>
      simp only [sameItems, Bool.and_eq_true] at hsame
      have hv := h v (by simp) w hsame.1
      have hitems := ih (fun v hv => h v (by simp [hv])) hsame.2
      rw [List.map_cons, List.map_cons, hv, hitems]

theorem memberFields_of_sameMembers {ms others : List (String × Json)}
    (h : ∀ m ∈ ms, m.2.TypedByShape) (hsame : sameMembers ms others) :
    memberFields ms = memberFields others := by
  induction ms generalizing others with
  | nil =>
    cases others with
    | nil => rfl
    | cons n others => simp [sameMembers] at hsame
  | cons m ms ih =>
    obtain ⟨k, v⟩ := m
    cases others with
    | nil => simp [sameMembers] at hsame
    | cons n others =>
      obtain ⟨l, w⟩ := n
      simp only [sameMembers, Bool.and_eq_true, beq_iff_eq] at hsame
      obtain ⟨⟨rfl, hvalue⟩, hmembers⟩ := hsame
      have hv := h (k, v) (by simp) w hvalue
      have hms := ih (fun m hm => h m (by simp [hm])) hmembers
      simp only [memberFields, hv, hms]

theorem typedByShape (v : Json) : v.TypedByShape := by
  induction v using Json.induction with
  | null =>
    intro w hsame
    cases w <;> simp [sameShape] at hsame
    rfl
  | bool b =>
    intro w hsame
    cases w <;> simp [sameShape] at hsame
    rfl
  | number n =>
    intro w hsame
    cases w <;> simp [sameShape] at hsame
    simpa [kind, type] using hsame
  | string s =>
    intro w hsame
    cases w <;> simp [sameShape] at hsame
    simpa [kind, type] using hsame
  | array items ih =>
    intro w hsame
    cases w <;> simp only [sameShape, Bool.false_eq_true] at hsame
    rw [type_array, type_array, elementType, elementType, map_type_of_sameItems ih hsame]
  | object ms ih =>
    intro w hsame
    cases w <;> simp only [sameShape, Bool.false_eq_true] at hsame
    rw [type, type, memberFields_of_sameMembers ih hsame]

end Json

open Json in
/-- Values of one shape have one type, and samples whose values, once the texts are marked, have one
shape are all converted, to one declaration for one name and with one report. -/
theorem declare_eq_of_sameShape :
    (∀ v w : Json, v.sameShape w → v.type = w.type) ∧
    ∀ text text' v w typeName, parse (forceFractional text) = .ok v →
      parse (forceFractional text') = .ok w → v.sameShape w →
        attempt text ⟨typeName, none⟩ = attempt text' ⟨typeName, none⟩ ∧
          ∃ go, declare text ⟨typeName, none⟩ = .ok go ∧ declare text' ⟨typeName, none⟩ = .ok go := by
  refine ⟨typedByShape, ?_⟩
  intro text text' v w typeName hv hw hsame
  have htype := typedByShape v w hsame
  rw [declare, declare, attempt_of_parse rfl hv, attempt_of_parse rfl hw, htype]
  exact ⟨rfl, _, rfl, rfl⟩

open Json in
/-- Different data under the same keys, in lists of objects and of lists. -/
theorem declare_eq_of_sameShape_sample :
    attempt "[\x7b\"a\":[[7],[0.5]]\x7d,\x7b\"b\":\"x\"\x7d]" ⟨some "t", none⟩ =
      attempt "[\x7b\"a\":[[3],[2.0]]\x7d, \x7b\"b\":\"\"\x7d]" ⟨some "t", none⟩ := by
  let value (n d m : Digit) (s : String) : Json :=
    .array [.object [("a", .array [.array [.number ⟨false, [n], [], none⟩],
      .array [.number ⟨false, [d], [m], none⟩]])], .object [("b", .string s)]]
  exact (declare_eq_of_sameShape.2 _ _ (value 7 0 5 "x") (value 3 2 1 "") (some "t")
    rfl rfl (by decide +kernel)).1

end GoShape
