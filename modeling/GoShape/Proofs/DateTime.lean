import GoShape.Fractional
import GoShape.Inference
import GoShape.Proofs.Exported
import Mathlib.Data.List.Forall2
import Mathlib.Data.List.TakeWhile

/-! Timestamps by their form. The search takes all the digits of a fraction at once and looks for an
offset behind them, and it begins at every place of the text: so it finds a date with its time and
offset wherever there is one. No digit counts for more than any other, so a text with other digits in
the same places is searched alike, a marked one too. -/
namespace GoShape.Timestamp

/-- The text has a digit for each `D` of the form, and is the same elsewhere. -/
def Fits (form : String) (cs : List Char) : Prop :=
  List.Forall₂ (fun m c => if m = 'D' then c.isDigit else c = m) form.toList cs

/-- A point with one or more digits, or nothing. -/
def IsFraction (cs : List Char) : Prop :=
  cs = [] ∨ ∃ ds, ds ≠ [] ∧ (∀ d ∈ ds, d.isDigit) ∧ cs = '.' :: ds

/-- A `Z`, or hours and minutes behind a sign. -/
def IsOffset (cs : List Char) : Prop :=
  cs = ['Z'] ∨ ∃ sign clock, (sign = '+' ∨ sign = '-') ∧ Fits "DD:DD" clock ∧ cs = sign :: clock

/-- A date, the time to the second or to a fraction of it, and an offset. -/
def IsDateTime (cs : List Char) : Prop :=
  ∃ time fraction offset, cs = time ++ (fraction ++ offset) ∧ Fits "DDDD-DD-DDTDD:DD:DD" time ∧
    IsFraction fraction ∧ IsOffset offset

/-- A date with its time and offset stands somewhere in the text. -/
def HoldsDateTime (s : String) : Prop := ∃ pre m post, s = pre ++ m ++ post ∧ IsDateTime m.toList

/-! ### Fixed patterns -/

theorem isSome_ofChar?_eq (c : Char) : (Digit.ofChar? c).isSome = c.isDigit := by
  rw [Bool.eq_iff_iff, isSome_ofChar?_iff, Char.isDigit, Bool.and_eq_true, decide_eq_true_eq,
    decide_eq_true_eq, ge_iff_le, UInt32.le_iff_toNat_le, UInt32.le_iff_toNat_le]
  exact Iff.rfl

/-- The pattern of a form. -/
def marksOf (form : String) : List Mark :=
  form.toList.map fun m => if m = 'D' then .digit else .exactly m

theorem fits_iff {form : String} {cs : List Char} :
    Fits form cs ↔ List.Forall₂ (fun m c => m.accepts c) (marksOf form) cs := by
  have hmark : ∀ m c : Char, (if m = 'D' then c.isDigit = true else c = m) ↔
      (if m = 'D' then Mark.digit else .exactly m).accepts c := by
    intro m c
    by_cases hm : m = 'D'
    · simp [hm, Mark.accepts, isSome_ofChar?_eq]
    · simp [hm, Mark.accepts]
  simp only [Fits, marksOf, List.forall₂_map_left_iff, hmark]

/-- A text that begins with a pattern, and what it has behind it. -/
theorem after?_eq_some_iff {ms : List Mark} {cs rest : List Char} :
    after? ms cs = some rest ↔
      ∃ front, cs = front ++ rest ∧ List.Forall₂ (fun m c => m.accepts c) ms front := by
  induction ms generalizing cs with
  | nil => simp [after?]
  | cons m ms ih =>
    cases cs with
    | nil => simp [after?, List.forall₂_cons_left_iff]
    | cons c cs =>
      simp only [after?, List.forall₂_cons_left_iff, Option.ite_none_right_eq_some, ih]
      constructor
      · rintro ⟨hc, front, rfl, hfront⟩
        exact ⟨c :: front, rfl, c, front, hc, hfront, rfl⟩
      · rintro ⟨_, hcs, d, front, hd, hfront, rfl⟩
        obtain ⟨rfl, rfl⟩ := List.cons_eq_cons.mp hcs
        exact ⟨hd, front, rfl, hfront⟩

theorem after?_marksOf {form : String} {cs rest : List Char} :
    after? (marksOf form) cs = some rest ↔ ∃ front, cs = front ++ rest ∧ Fits form front := by
  simp only [after?_eq_some_iff, fits_iff]

theorem dateTime_eq : dateTime = marksOf "DDDD-DD-DDTDD:DD:DD" := by decide

theorem clock_eq : clock = marksOf "DD:DD" := by decide

/-! ### Fraction and offset -/

theorem beginsWithOffset_iff {cs : List Char} :
    beginsWithOffset cs ↔ ∃ offset rest, cs = offset ++ rest ∧ IsOffset offset := by
  cases cs with
  | nil =>
    refine iff_of_false nofun ?_
    rintro ⟨offset, rest, hnil, rfl | ⟨sign, clock, -, -, rfl⟩⟩ <;> cases hnil
  | cons c cs =>
    simp only [beginsWithOffset, Bool.or_eq_true, Bool.and_eq_true, beq_iff_eq, clock_eq,
      Option.isSome_iff_exists, after?_marksOf]
    constructor
    · rintro (rfl | ⟨hsign, rest, clock, rfl, hclock⟩)
      · exact ⟨['Z'], cs, rfl, .inl rfl⟩
      · exact ⟨c :: clock, rest, rfl, .inr ⟨c, clock, hsign, hclock, rfl⟩⟩
    · rintro ⟨_, rest, hcs, rfl | ⟨sign, clock, hsign, hclock, rfl⟩⟩
      · exact .inl (List.cons_eq_cons.mp hcs).1
      · obtain ⟨rfl, rfl⟩ := List.cons_eq_cons.mp hcs
        exact .inr ⟨hsign, rest, clock, rfl, hclock⟩

theorem IsOffset.exists_cons {offset : List Char} (h : IsOffset offset) :
    ∃ c cs, offset = c :: cs ∧ c ≠ '.' ∧ c.isDigit = false := by
  rcases h with rfl | ⟨sign, clock, rfl | rfl, -, rfl⟩
  · exact ⟨'Z', [], rfl, by decide⟩
  · exact ⟨'+', clock, rfl, by decide⟩
  · exact ⟨'-', clock, rfl, by decide⟩

theorem exists_fraction {cs rest : List Char} (h : afterFraction? cs = some rest) :
    ∃ fraction, cs = fraction ++ rest ∧ IsFraction fraction := by
  unfold afterFraction? at h
  split at h
  · rename_i d cs
    rw [Option.ite_none_right_eq_some, Option.some.injEq] at h
    obtain ⟨hd, rfl⟩ := h
    simp only [isSome_ofChar?_eq] at hd ⊢
    refine ⟨'.' :: d :: cs.takeWhile Char.isDigit, ?_, .inr ⟨_, by simp, ?_, rfl⟩⟩
    · rw [List.cons_append, List.cons_append, List.takeWhile_append_dropWhile]
    · intro e he
      rcases List.mem_cons.mp he with rfl | he
      · exact hd
      · exact List.mem_takeWhile_imp he
  · cases h
  · obtain rfl := Option.some.inj h
    exact ⟨[], rfl, .inl rfl⟩

/-- The digits of a fraction end where the offset begins. -/
theorem afterFraction?_append {fraction offset rest : List Char} (hf : IsFraction fraction)
    (ho : IsOffset offset) : afterFraction? (fraction ++ (offset ++ rest)) = some (offset ++ rest) := by
  obtain ⟨c, cs, rfl, hpoint, hdigit⟩ := ho.exists_cons
  rcases hf with rfl | ⟨ds, hne, hds, rfl⟩
  · simp [afterFraction?, hpoint]
  · obtain ⟨d, ds, rfl⟩ := List.exists_cons_of_ne_nil hne
    have hd : d.isDigit := hds d (by simp)
    have hall : ∀ e ∈ ds, e.isDigit := fun e he => hds e (by simp [he])
    simp only [List.cons_append, afterFraction?, isSome_ofChar?_eq, hd, if_true,
      List.dropWhile_append_of_pos hall, List.dropWhile_cons, hdigit, Bool.false_eq_true, if_false]

/-! ### The search -/

theorem begins_iff {cs : List Char} :
    begins cs ↔ ∃ m rest, cs = m ++ rest ∧ IsDateTime m := by
  have hsteps : begins cs ↔ ∃ r rest, after? dateTime cs = some r ∧ afterFraction? r = some rest ∧
      beginsWithOffset rest := by
    unfold begins
    cases hr : after? dateTime cs with
    | none => simp
    | some r => cases hrest : afterFraction? r <;> simp [hrest]
  rw [hsteps]
  constructor
  · rintro ⟨r, rest, hr, hrest, hbegins⟩
    rw [dateTime_eq, after?_marksOf] at hr
    obtain ⟨time, rfl, htime⟩ := hr
    obtain ⟨fraction, rfl, hfraction⟩ := exists_fraction hrest
    obtain ⟨offset, rest, rfl, hoffset⟩ := beginsWithOffset_iff.mp hbegins
    exact ⟨time ++ (fraction ++ offset), rest, by simp only [List.append_assoc],
      time, fraction, offset, rfl, htime, hfraction, hoffset⟩
  · rintro ⟨_, rest, rfl, time, fraction, offset, rfl, htime, hfraction, hoffset⟩
    refine ⟨fraction ++ (offset ++ rest), offset ++ rest, ?_, afterFraction?_append hfraction hoffset,
      beginsWithOffset_iff.mpr ⟨offset, rest, rfl, hoffset⟩⟩
    rw [dateTime_eq, after?_marksOf]
    exact ⟨time, by simp only [List.append_assoc], htime⟩

theorem occurs_iff {cs : List Char} :
    occurs cs ↔ ∃ front rest, cs = front ++ rest ∧ begins rest := by
  induction cs with
  | nil =>
    refine iff_of_false nofun ?_
    rintro ⟨front, rest, hnil, hbegins⟩
    obtain ⟨-, rfl⟩ := List.append_eq_nil_iff.mp hnil.symm
    cases hbegins
  | cons c cs ih =>
    rw [occurs, Bool.or_eq_true, ih]
    constructor
    · rintro (hbegins | ⟨front, rest, rfl, hbegins⟩)
      · exact ⟨[], c :: cs, rfl, hbegins⟩
      · exact ⟨c :: front, rest, rfl, hbegins⟩
    · rintro ⟨front, rest, hcs, hbegins⟩
      cases front with
      | nil =>
        obtain rfl : c :: cs = rest := hcs
        exact .inl hbegins
      | cons d front => exact .inr ⟨front, rest, (List.cons_eq_cons.mp hcs).2, hbegins⟩

theorem occurs_toList_iff {s : String} : occurs s.toList ↔ HoldsDateTime s := by
  rw [occurs_iff]
  constructor
  · rintro ⟨pre, rest, hs, hbegins⟩
    obtain ⟨m, post, rfl, hm⟩ := begins_iff.mp hbegins
    refine ⟨String.ofList pre, String.ofList m, String.ofList post, ?_, by rwa [String.toList_ofList]⟩
    rw [← String.toList_inj, hs]
    simp
  · rintro ⟨pre, m, post, rfl, hm⟩
    exact ⟨pre.toList, m.toList ++ post.toList, by simp, begins_iff.mpr ⟨_, _, rfl, hm⟩⟩

/-! ### Digits all alike -/

/-- The same digit for every digit. -/
def blur (c : Char) : Char := if c.isDigit then '0' else c

theorem isDigit_blur (c : Char) : (blur c).isDigit = c.isDigit := by
  by_cases h : c.isDigit
  · simp [blur, h]
  · simp [blur, h]

theorem blur_eq_iff {c d : Char} (hd : d.isDigit = false) : blur c = d ↔ c = d := by
  by_cases h : c.isDigit
  · have hne : '0' ≠ d := by
      rintro rfl
      cases hd
    have hne' : c ≠ d := by
      rintro rfl
      cases h.symm.trans hd
    simp [blur, h, hne, hne']
  · simp [blur, h]

/-- The mark asks for no digit of its own. -/
def Mark.isBlurred : Mark → Bool
  | .digit => true
  | .exactly d => !d.isDigit

theorem Mark.accepts_blur {m : Mark} (h : m.isBlurred) (c : Char) : m.accepts (blur c) = m.accepts c := by
  cases m with
  | digit => simp only [accepts, isSome_ofChar?_eq, isDigit_blur]
  | exactly d =>
    have hd : d.isDigit = false := by simpa [isBlurred] using h
    rw [accepts, accepts, Bool.eq_iff_iff, beq_iff_eq, beq_iff_eq, blur_eq_iff hd]

theorem after?_map_blur {ms : List Mark} (h : ms.all Mark.isBlurred) (cs : List Char) :
    after? ms (cs.map blur) = (after? ms cs).map (List.map blur) := by
  induction ms generalizing cs with
  | nil => rfl
  | cons m ms ih =>
    rw [List.all_cons, Bool.and_eq_true] at h
    cases cs with
    | nil => rfl
    | cons c cs =>
      rw [List.map_cons, after?, after?, Mark.accepts_blur h.1, ih h.2]
      split <;> rfl

theorem beginsWithOffset_map_blur (cs : List Char) :
    beginsWithOffset (cs.map blur) = beginsWithOffset cs := by
  cases cs with
  | nil => rfl
  | cons c cs =>
    have hsame : ∀ d : Char, d.isDigit = false → (blur c == d) = (c == d) := by
      intro d hd
      rw [Bool.eq_iff_iff, beq_iff_eq, beq_iff_eq, blur_eq_iff hd]
    rw [List.map_cons, beginsWithOffset, beginsWithOffset, after?_map_blur (by decide),
      hsame 'Z' (by decide), hsame '+' (by decide), hsame '-' (by decide), Option.isSome_map]

theorem afterFraction?_map_blur (cs : List Char) :
    afterFraction? (cs.map blur) = (afterFraction? cs).map (List.map blur) := by
  have hdigit : (fun c => (Digit.ofChar? c).isSome) ∘ blur = fun c => (Digit.ofChar? c).isSome := by
    funext c
    simp only [Function.comp_apply, isSome_ofChar?_eq, isDigit_blur]
  cases cs with
  | nil => rfl
  | cons c cs =>
    by_cases hc : c = '.'
    · subst hc
      cases cs with
      | nil => rfl
      | cons d cs =>
        have hpoint : blur '.' = '.' := rfl
        have hd : (Digit.ofChar? (blur d)).isSome = (Digit.ofChar? d).isSome := congrFun hdigit d
        rw [List.map_cons, List.map_cons, hpoint, afterFraction?, afterFraction?, hd, List.dropWhile_map,
          hdigit]
        split <;> rfl
    · have hblur : blur c ≠ '.' := fun h => hc ((blur_eq_iff (by decide)).mp h)
      simp [afterFraction?, hc, hblur]

theorem begins_map_blur (cs : List Char) : begins (cs.map blur) = begins cs := by
  rw [begins, begins, after?_map_blur (by decide)]
  cases after? dateTime cs with
  | none => rfl
  | some r =>
    rw [Option.map_some, Option.bind_some, Option.bind_some, afterFraction?_map_blur]
    cases afterFraction? r with
    | none => rfl
    | some rest => exact beginsWithOffset_map_blur rest

theorem occurs_map_blur (cs : List Char) : occurs (cs.map blur) = occurs cs := by
  induction cs with
  | nil => rfl
  | cons c cs ih => rw [occurs, ← begins_map_blur (c :: cs), ← ih, List.map_cons, occurs]

/-- Marking puts a digit in the place of a digit. -/
theorem map_blur_markFractions (cs : List Char) : (markFractions cs).map blur = cs.map blur := by
  fun_induction markFractions cs with
  | case1 cs ih =>
    rw [List.map_cons, List.map_cons, ih]
    rfl
  | case2 c cs _ ih => rw [List.map_cons, ih, List.map_cons]
  | case3 => rfl

theorem occurs_forceFractional (s : String) :
    occurs (forceFractional s).toList = occurs s.toList := by
  rw [toList_forceFractional, ← occurs_map_blur, map_blur_markFractions, occurs_map_blur]

end GoShape.Timestamp

namespace GoShape

open Timestamp in
/-- A string is a timestamp exactly if a date with its time and offset stands somewhere in it, and else
it is a string like any other. Marking its fractions changes nothing of that. -/
theorem kind_string_eq_timestamp_iff (s : String) :
    (Json.kind (.string s) = .scalar .timestamp ↔ HoldsDateTime s) ∧
    (Json.kind (.string s) = .scalar .string ↔ ¬ HoldsDateTime s) ∧
    Json.kind (.string (forceFractional s)) = Json.kind (.string s) := by
  simp only [Json.kind, Scalar.ofString, occurs_forceFractional, ← occurs_toList_iff]
  by_cases h : occurs s.toList <;> simp [h]

end GoShape
