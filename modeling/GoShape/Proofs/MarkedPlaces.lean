import GoShape.Proofs.Guarded.Steps
import GoShape.Proofs.Marking

/-! Marking place by place. Every character stays at its place and begins at its byte, and the only
ones that change are the zeros right behind a point. So a marked text has no such zero, and a text may
be marked part by part wherever it is not cut in front of one. -/
namespace GoShape

open Guarded

/-- A zero stands at this place, and right in front of it a point. -/
def ZeroBehindPoint (cs : List Char) : Nat → Prop
  | 0 => False
  | i + 1 => cs[i]? = some '.' ∧ cs[i + 1]? = some '0'

instance (cs : List Char) : ∀ i, Decidable (ZeroBehindPoint cs i)
  | 0 => inferInstanceAs (Decidable False)
  | _ + 1 => inferInstanceAs (Decidable (_ ∧ _))

theorem zeroBehindPoint_succ {cs : List Char} {i : Nat} :
    ZeroBehindPoint cs (i + 1) ↔ cs[i]? = some '.' ∧ cs[i + 1]? = some '0' := Iff.rfl

/-- A zero behind a point is the second of two characters that stand together. -/
theorem infix_iff_exists_zeroBehindPoint {cs : List Char} :
    ['.', '0'] <:+: cs ↔ ∃ i, ZeroBehindPoint cs i := by
  constructor
  · rintro ⟨xs, ys, rfl⟩
    exact ⟨xs.length + 1, by simp [zeroBehindPoint_succ]⟩
  · rintro ⟨_ | i, h⟩
    · exact h.elim
    · obtain ⟨hpoint, hzero⟩ := zeroBehindPoint_succ.mp h
      obtain ⟨hlt, -⟩ := List.getElem?_eq_some_iff.mp hzero
      have hlength : ['.', '0'].length = 2 := rfl
      refine List.infix_iff_getElem?.mpr ⟨i, by omega, fun k hk => ?_⟩
      obtain rfl | rfl : k = 0 ∨ k = 1 := by omega
      · simpa using hpoint
      · simpa [Nat.add_comm] using hzero

/-! ### A marked text -/

/-- The characters of a marked text, of which the first may stand behind another one. -/
theorem getElem?_markFrom (c : Char) (cs : List Char) (i : Nat) :
    (markFrom (c = '.') cs)[i]? =
      if ZeroBehindPoint (c :: cs) (i + 1) then some '1' else cs[i]? := by
  induction cs generalizing c i with
  | nil => simp [markFrom, zeroBehindPoint_succ]
  | cons d cs ih =>
    cases i with
    | zero =>
      by_cases h : c = '.' ∧ d = '0' <;> simp [markFrom, zeroBehindPoint_succ, h]
    | succ i => exact ih d i

theorem getElem?_markFractions (cs : List Char) (i : Nat) :
    (markFractions cs)[i]? = if ZeroBehindPoint cs i then some '1' else cs[i]? := by
  -- A text of its own is marked as it is behind a blank.
  have h := getElem?_markFrom ' ' cs i
  have hplace : ZeroBehindPoint (' ' :: cs) (i + 1) ↔ ZeroBehindPoint cs i := by
    cases i with
    | zero => simp [ZeroBehindPoint]
    | succ i => exact Iff.rfl
  simp only [hplace] at h
  rw [markFractions_eq]
  exact h

theorem getElem?_markFractions_ne_iff {cs : List Char} {i : Nat} :
    (markFractions cs)[i]? ≠ cs[i]? ↔ ZeroBehindPoint cs i := by
  rw [getElem?_markFractions]
  split
  · next h =>
    cases i with
    | zero => exact h.elim
    | succ i => simp [(zeroBehindPoint_succ.mp h).2, h]
  · next h => simp [h]

theorem not_zeroBehindPoint_markFractions (cs : List Char) (i : Nat) :
    ¬ ZeroBehindPoint (markFractions cs) i := by
  cases i with
  | zero => exact id
  | succ i =>
    rw [zeroBehindPoint_succ, getElem?_markFractions, getElem?_markFractions]
    rintro ⟨hpoint, hzero⟩
    have hpoint : cs[i]? = some '.' := by
      split at hpoint
      · cases hpoint
      · exact hpoint
    split at hzero
    · cases hzero
    · next h => exact h ⟨hpoint, hzero⟩

theorem not_infix_markFractions (cs : List Char) : ¬ ['.', '0'] <:+: markFractions cs := by
  rw [infix_iff_exists_zeroBehindPoint]
  rintro ⟨i, hi⟩
  exact not_zeroBehindPoint_markFractions cs i hi

/-- Marking leaves the texts as they are that have nothing to be marked. -/
theorem markFractions_eq_self_iff {cs : List Char} :
    markFractions cs = cs ↔ ¬ ['.', '0'] <:+: cs := by
  constructor
  · intro h
    rw [← h]
    exact not_infix_markFractions cs
  · intro h
    rw [infix_iff_exists_zeroBehindPoint, not_exists] at h
    apply List.ext_getElem?
    intro i
    rw [getElem?_markFractions, if_neg (h i)]

theorem forceFractional_forceFractional (t : String) :
    forceFractional (forceFractional t) = forceFractional t := by
  rw [← String.toList_inj, toList_forceFractional, toList_forceFractional]
  exact markFractions_eq_self_iff.mpr (not_infix_markFractions t.toList)

/-! ### Parts of a text -/

/-- How a part is marked depends on the end of the part in front of it. -/
theorem markFrom_append (behind : Bool) (xs ys : List Char) :
    markFrom behind (xs ++ ys) =
      markFrom behind xs ++ markFrom (xs.getLast?.elim behind fun c => c = '.') ys := by
  induction xs generalizing behind with
  | nil => rfl
  | cons c cs ih =>
    have hlast : ((c :: cs).getLast?.elim behind fun c => decide (c = '.')) =
        cs.getLast?.elim (decide (c = '.')) fun c => decide (c = '.') := by
      rw [List.getLast?_cons]
      cases cs.getLast? <;> rfl
    rw [List.cons_append, markFrom, markFrom, ih, hlast, List.cons_append]

theorem markFrom_eq_markFrom_false_iff {behind : Bool} {cs : List Char} :
    markFrom behind cs = markFrom false cs ↔ ¬ (behind ∧ cs.head? = some '0') := by
  cases cs with
  | nil => simp [markFrom]
  | cons c cs =>
    by_cases h : behind ∧ c = '0'
    · obtain ⟨rfl, rfl⟩ := h
      simp [markFrom]
    · simp [markFrom, h]

/-- The parts of a text are marked on their own unless a point ends the one and a zero begins the
other. -/
theorem markFractions_append_iff {xs ys : List Char} :
    markFractions (xs ++ ys) = markFractions xs ++ markFractions ys ↔
      ¬ (xs.getLast? = some '.' ∧ ys.head? = some '0') := by
  rw [markFractions_eq, markFractions_eq, markFractions_eq, markFrom_append,
    List.append_cancel_left_eq, markFrom_eq_markFrom_false_iff]
  cases xs.getLast? <;> simp

theorem forceFractional_append_iff {a b : String} :
    forceFractional (a ++ b) = forceFractional a ++ forceFractional b ↔
      ¬ (a.toList.getLast? = some '.' ∧ b.toList.head? = some '0') := by
  rw [← markFractions_append_iff, ← String.toList_inj, String.toList_append, toList_forceFractional,
    toList_forceFractional, toList_forceFractional, String.toList_append]

/-! ### Bytes -/

/-- What comes of a one and of a zero alike, at least behind a point, comes alike of a character and
of its mark. -/
theorem apply_marked {α : Type} {f : Char → α} {behind : Bool}
    (hf : behind = true → f '1' = f '0') (c : Char) :
    f (if behind ∧ c = '0' then '1' else c) = f c := by
  by_cases h : behind = true ∧ c = '0'
  · obtain ⟨hbehind, rfl⟩ := h
    rw [if_pos ⟨hbehind, rfl⟩, hf hbehind]
  · rw [if_neg h]

theorem utf8Size_marked (behind : Bool) (c : Char) :
    (if behind ∧ c = '0' then '1' else c).utf8Size = c.utf8Size :=
  apply_marked (fun _ => rfl) c

theorem byteLength_take_markFrom (behind : Bool) (cs : List Char) (i : Nat) :
    byteLength ((markFrom behind cs).take i) = byteLength (cs.take i) := by
  induction cs generalizing behind i with
  | nil => rfl
  | cons c cs ih =>
    cases i with
    | zero => rfl
    | succ i =>
      rw [markFrom, List.take_succ_cons, List.take_succ_cons, byteLength_cons, byteLength_cons,
        utf8Size_marked, ih]

theorem byteLength_take_forceFractional (t : String) (i : Nat) :
    byteLength ((forceFractional t).toList.take i) = byteLength (t.toList.take i) := by
  rw [toList_forceFractional, markFractions_eq, byteLength_take_markFrom]

theorem length_forceFractional (t : String) : (forceFractional t).length = t.length := by
  rw [← String.length_toList, toList_forceFractional, length_markFractions, String.length_toList]

theorem utf8ByteSize_forceFractional (t : String) :
    (forceFractional t).utf8ByteSize = t.utf8ByteSize := by
  have h := byteLength_take_forceFractional t t.length
  have hlength : (forceFractional t).toList.length = t.length := by
    rw [String.length_toList, length_forceFractional]
  rw [List.take_of_length_le (Nat.le_of_eq hlength),
    List.take_of_length_le (Nat.le_of_eq String.length_toList)] at h
  simpa only [byteLength, String.ofList_toList] using h

/-- A marked text has as many characters as the text, and as many bytes; each of its characters
begins at the byte where it did. It differs from the text exactly where a zero stands right behind a
point, and has a one there. No such zero is left, and so marking it again changes nothing. Two texts
are marked together as they are one by one, except if their seam is in front of such a zero. -/
theorem forceFractional_places (t : String) :
    (forceFractional t).length = t.length ∧ (forceFractional t).utf8ByteSize = t.utf8ByteSize ∧
    (∀ i, byteLength ((forceFractional t).toList.take i) = byteLength (t.toList.take i)) ∧
    (∀ i, (forceFractional t).toList[i]? =
      if ZeroBehindPoint t.toList i then some '1' else t.toList[i]?) ∧
    (∀ i, (forceFractional t).toList[i]? ≠ t.toList[i]? ↔ ZeroBehindPoint t.toList i) ∧
    ¬ ['.', '0'] <:+: (forceFractional t).toList ∧
    forceFractional (forceFractional t) = forceFractional t ∧
    ∀ a b : String, forceFractional (a ++ b) = forceFractional a ++ forceFractional b ↔
      ¬ (a.toList.getLast? = some '.' ∧ b.toList.head? = some '0') := by
  refine ⟨length_forceFractional t, utf8ByteSize_forceFractional t,
    byteLength_take_forceFractional t, ?_, ?_, ?_, forceFractional_forceFractional t,
    fun a b => forceFractional_append_iff⟩
  · intro i
    rw [toList_forceFractional, getElem?_markFractions]
  · intro i
    rw [toList_forceFractional, getElem?_markFractions_ne_iff]
  · rw [toList_forceFractional]
    exact not_infix_markFractions t.toList

/-- A number that is cut behind its point is not marked. -/
example : forceFractional ("2." ++ "0") = "2.1" ∧
    forceFractional "2." ++ forceFractional "0" = "2.0" := by decide +kernel

/-! ### Conversions -/

theorem exceeded?_forceFractional (text : String) (o : Options) :
    exceeded? (forceFractional text) o = exceeded? text o := by
  rw [exceeded?, utf8ByteSize_forceFractional, exceeded?]

/-- A sample that was marked beforehand is converted like the sample itself. -/
theorem attempt_forceFractional (text : String) (o : Options) :
    attempt (forceFractional text) o = attempt text o := by
  simp only [attempt, exceeded?_forceFractional, utf8ByteSize_forceFractional, sampleType,
    forceFractional_forceFractional]

end GoShape
