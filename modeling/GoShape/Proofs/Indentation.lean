import GoShape.Proofs.TypeParts
import GoShape.Proofs.TypeText

/-! Types at different depths. In the text of a struct each line break is followed by the tabs of its
line, one for each struct around it. So a type that stands deeper has more tabs behind its line breaks,
as many as there are more structs around it, and otherwise the same text. -/
namespace GoShape

/-- Characters with `k` more tabs behind each line break. -/
def deepen (k : Nat) (cs : List Char) : List Char :=
  cs.flatMap fun c => if c = '\n' then '\n' :: List.replicate k '\t' else [c]

/-- A text with `k` more tabs behind each line break, and nothing else changed. -/
def indentLines (k : Nat) (s : String) : String := String.ofList (deepen k s.toList)

/-- No line is broken by a name or a key. -/
def Unbroken (fs : List (Field GoType)) : Prop :=
  ∀ f ∈ fs, '\n' ∉ f.name.toList ∧ '\n' ∉ f.key.toList

variable (k : Nat)

theorem deepen_append (xs ys : List Char) : deepen k (xs ++ ys) = deepen k xs ++ deepen k ys :=
  List.flatMap_append

theorem deepen_break_cons (cs : List Char) :
    deepen k ('\n' :: cs) = '\n' :: (List.replicate k '\t' ++ deepen k cs) := by
  simp [deepen]

theorem deepen_cons {c : Char} (hc : c ≠ '\n') (cs : List Char) :
    deepen k (c :: cs) = c :: deepen k cs := by
  simp [deepen, hc]

theorem deepen_of_not_mem {cs : List Char} (h : '\n' ∉ cs) : deepen k cs = cs := by
  induction cs with
  | nil => rfl
  | cons c cs ih =>
    rw [List.mem_cons, not_or] at h
    rw [deepen_cons k (Ne.symm h.1), ih h.2]

theorem deepen_tabs (d : Nat) : deepen k (List.replicate d '\t') = List.replicate d '\t' :=
  deepen_of_not_mem k fun h => absurd (List.eq_of_mem_replicate h) (by decide)

theorem replicate_tabs_add (d : Nat) :
    List.replicate (d + k) '\t' = List.replicate k '\t' ++ List.replicate d '\t' := by
  rw [List.replicate_append_replicate, Nat.add_comm]

theorem break_not_mem_fieldTag {key : String} (h : '\n' ∉ key.toList) (optional : Bool) :
    '\n' ∉ (fieldTag key optional).toList := by
  cases optional <;> simp [FieldTag.toList_fieldTag, FieldTag.value, h]

namespace GoType

variable {k} {d : Nat}

/-- A line of a struct. -/
theorem deepen_line {f : Field GoType} (hname : '\n' ∉ f.name.toList) (hkey : '\n' ∉ f.key.toList)
    (htype : (f.type.text (d + k)).toList = deepen k (f.type.text d).toList) (rest : List Char) :
    deepen k (f.name.toList ++ ' ' :: ((f.type.text d).toList ++ ' ' ::
        ((fieldTag f.key f.optional).toList ++ '\n' :: rest))) =
      f.name.toList ++ ' ' :: ((f.type.text (d + k)).toList ++ ' ' ::
        ((fieldTag f.key f.optional).toList ++ '\n' :: (List.replicate k '\t' ++ deepen k rest))) := by
  have hspace : ' ' ≠ '\n' := by decide
  have htag := break_not_mem_fieldTag hkey f.optional
  rw [deepen_append, deepen_of_not_mem k hname, deepen_cons k hspace, deepen_append, ← htype,
    deepen_cons k hspace, deepen_append, deepen_of_not_mem k htag, deepen_break_cons]

/-- The lines of a struct with more tabs in front of each of them. The tabs in front of a line are those
behind the break before it, so they are counted from in front of the first line to behind the last. -/
theorem deepen_fieldLines {fs : List (Field GoType)} (hfs : Unbroken fs)
    (htypes : ∀ f ∈ fs, (f.type.text (d + k)).toList = deepen k (f.type.text d).toList) :
    List.replicate k '\t' ++ deepen k (fieldLines d fs).toList =
      (fieldLines (d + k) fs).toList ++ List.replicate k '\t' := by
  induction fs with
  | nil => simp [fieldLines, deepen]
  | cons f fs ih =>
    obtain ⟨hname, hkey⟩ := hfs f (by simp)
    have hrest := ih (fun g hg => hfs g (by simp [hg])) fun g hg => htypes g (by simp [hg])
    rw [toList_fieldLines_cons, toList_fieldLines_cons, deepen_append, deepen_tabs,
      deepen_line hname hkey (htypes f (by simp)), hrest, replicate_tabs_add]
    simp only [List.append_assoc, List.cons_append]

theorem toList_text_add (t : GoType) (ht : t.EveryStruct Unbroken) (d k : Nat) :
    (t.text (d + k)).toList = deepen k (t.text d).toList := by
  induction t using GoType.induction generalizing d with
  | scalar s =>
    have hbreak : '\n' ∉ s.text.toList := by cases s <;> decide
    exact (deepen_of_not_mem k hbreak).symm
  | slice t ih =>
    rw [toList_text_slice, toList_text_slice, deepen_cons k (by decide), deepen_cons k (by decide),
      ih (everyStruct_slice.mp ht)]
  | struct fs ih =>
    obtain ⟨hfs, htypes⟩ := everyStruct_struct.mp ht
    have hlines := deepen_fieldLines hfs fun f hf => ih f hf (htypes f hf) (d + 1)
    have hopen : deepen k "struct \x7b\n".toList = "struct \x7b\n".toList ++ List.replicate k '\t' := by
      simp [deepen]
    have hclose : deepen k ['\x7d'] = ['\x7d'] := deepen_of_not_mem k (by decide)
    calc ((struct fs).text (d + k)).toList
      _ = "struct \x7b\n".toList ++ (((fieldLines (d + 1 + k) fs).toList ++ List.replicate k '\t') ++
          (List.replicate d '\t' ++ ['\x7d'])) := by
        rw [toList_text_struct, replicate_tabs_add, Nat.add_right_comm]
        simp only [List.append_assoc]
      _ = deepen k ((struct fs).text d).toList := by
        rw [← hlines, toList_text_struct, deepen_append, hopen, deepen_append, deepen_append,
          deepen_tabs, hclose]
        simp only [List.append_assoc]

/-- The text of a type that stands `k` structs deeper is the same with `k` more tabs behind each line
break, as long as the breaks in it are those between its lines. -/
theorem text_add_depth (t : GoType) (ht : t.EveryStruct Unbroken) (d k : Nat) :
    t.text (d + k) = indentLines k (t.text d) := by
  rw [indentLines, ← toList_text_add t ht, String.ofList_toList]

/-- A struct in a list in a struct, two structs deeper. -/
theorem text_add_depth_sample :
    let inner : GoType := .struct [.ofKey "b" (.scalar .int) false]
    let outer : GoType := .struct [.ofKey "a" (.slice inner) true]
    outer.EveryStruct Unbroken ∧ outer.text 3 = indentLines 2
      "struct \x7b\n\t\tA []struct \x7b\n\t\t\tB int `json:\"b\"`\n\t\t\x7d `json:\"a,omitempty\"`\n\t\x7d" := by
  intro inner outer
  have hinner : inner.EveryStruct Unbroken := by
    rw [everyStruct_struct, List.forall_mem_singleton]
    exact ⟨by simp only [Unbroken, List.forall_mem_singleton]; decide +kernel, everyStruct_scalar _⟩
  have houter : outer.EveryStruct Unbroken := by
    rw [everyStruct_struct, List.forall_mem_singleton]
    exact ⟨by simp only [Unbroken, List.forall_mem_singleton]; decide +kernel,
      everyStruct_slice.mpr hinner⟩
  refine ⟨houter, (text_add_depth outer houter 1 2).trans (congrArg (indentLines 2) ?_)⟩
  decide +kernel

end GoType
end GoShape
