import GoShape.Declaration
import Mathlib.Data.List.TakeWhile

/-! Field tags, read back. A tag holds its key as it is, so a key can be read back as far as the form
of a tag allows: a quote ends the text of a tag, a comma ends the key in it, and a backtick ends the
literal. -/
namespace GoShape

/-- A text between two backticks that holds no other. -/
def IsRawLiteral (text : String) : Prop :=
  ∃ inside, text.toList = '\x60' :: (inside ++ ['\x60']) ∧ '\x60' ∉ inside

namespace FieldTag

/-- The text between the quotes of a tag: the key up to the first comma, and whether `omitempty`
stands behind that comma. -/
def readValue (value : List Char) : String × Bool :=
  (String.ofList (value.takeWhile (· != ',')),
    value.dropWhile (· != ',') == ",omitempty".toList)

/-- The key and the flag of the tag at the beginning of a text; its next quote ends it. -/
def read? : List Char → Option (String × Bool)
  | '\x60' :: 'j' :: 's' :: 'o' :: 'n' :: ':' :: '"' :: cs =>
    if '"' ∈ cs then some (readValue (cs.takeWhile (· != '"'))) else none
  | _ => none

/-- The text between the quotes of a tag. -/
def value (key : String) (optional : Bool) : List Char :=
  key.toList ++ if optional then ",omitempty".toList else []

theorem toList_fieldTag (key : String) (optional : Bool) :
    (fieldTag key optional).toList = "`json:\"".toList ++ (value key optional ++ ['"', '\x60']) := by
  cases optional <;> simp [fieldTag, value]

section

variable {c : Char} {cs : List Char}

theorem takeWhile_append (h : c ∉ cs) (rest : List Char) :
    (cs ++ rest).takeWhile (· != c) = cs ++ rest.takeWhile (· != c) :=
  List.takeWhile_append_of_pos fun _ hd => by simpa using ne_of_mem_of_not_mem hd h

theorem dropWhile_append (h : c ∉ cs) (rest : List Char) :
    (cs ++ rest).dropWhile (· != c) = rest.dropWhile (· != c) :=
  List.dropWhile_append_of_pos fun _ hd => by simpa using ne_of_mem_of_not_mem hd h

theorem not_mem_takeWhile (c : Char) (cs : List Char) : c ∉ cs.takeWhile (· != c) := by
  intro h
  simpa using List.mem_takeWhile_imp h

end

theorem readValue_value {key : String} (h : ',' ∉ key.toList) (optional : Bool) :
    readValue (value key optional) = (key, optional) := by
  rw [readValue, value, takeWhile_append h, dropWhile_append h]
  cases optional <;> simp

/-- Whatever stands behind a tag, a key without quotes and commas is read back from it. -/
theorem read?_fieldTag_append {key : String} (hquote : '"' ∉ key.toList) (hcomma : ',' ∉ key.toList)
    (optional : Bool) (rest : List Char) :
    read? ((fieldTag key optional).toList ++ rest) = some (key, optional) := by
  have hvalue : '"' ∉ value key optional := by
    cases optional <;> simp [value, hquote]
  have hread : read? ((fieldTag key optional).toList ++ rest) = some
      (readValue ((value key optional ++ '"' :: '\x60' :: rest).takeWhile (· != '"'))) := by
    rw [toList_fieldTag]
    simp [read?]
  rw [hread, takeWhile_append hvalue]
  simpa using readValue_value hcomma optional

/-- A key that is read from any text has neither a quote nor a comma. -/
theorem not_mem_of_read? {cs : List Char} {key : String} {optional : Bool}
    (h : read? cs = some (key, optional)) : '"' ∉ key.toList ∧ ',' ∉ key.toList := by
  unfold read? at h
  split at h
  · rename_i cs
    split at h
    · obtain ⟨rfl, -⟩ := Prod.mk.inj (Option.some.inj h)
      rw [String.toList_ofList]
      refine ⟨fun hquote => ?_, not_mem_takeWhile ',' _⟩
      exact not_mem_takeWhile '"' cs ((List.takeWhile_prefix _).subset hquote)
    · cases h
  · cases h

theorem read?_fieldTag_iff {key : String} {optional : Bool} :
    read? (fieldTag key optional).toList = some (key, optional) ↔
      '"' ∉ key.toList ∧ ',' ∉ key.toList := by
  refine ⟨not_mem_of_read?, fun h => ?_⟩
  simpa using read?_fieldTag_append h.1 h.2 optional []

theorem isRawLiteral_fieldTag_iff {key : String} {optional : Bool} :
    IsRawLiteral (fieldTag key optional) ↔ '\x60' ∉ key.toList := by
  let inside := "json:\"".toList ++ (value key optional ++ ['"'])
  have htag : (fieldTag key optional).toList = '\x60' :: (inside ++ ['\x60']) := by
    rw [toList_fieldTag]
    simp [inside]
  have hmem : '\x60' ∉ inside ↔ '\x60' ∉ key.toList := by
    cases optional <;> simp [inside, value]
  rw [← hmem]
  constructor
  · rintro ⟨other, hother, hnot⟩
    have hsame := List.append_cancel_right (List.cons_eq_cons.mp (htag.symm.trans hother)).2
    rwa [hsame]
  · exact fun h => ⟨inside, htag, h⟩

end FieldTag

/-- A tag is one raw literal exactly if its key has no backtick, and key and flag are read back from
it exactly if the key has neither a quote nor a comma. -/
theorem fieldTag_carries_iff (key : String) (optional : Bool) :
    (IsRawLiteral (fieldTag key optional) ↔ '\x60' ∉ key.toList) ∧
    (FieldTag.read? (fieldTag key optional).toList = some (key, optional) ↔
      '"' ∉ key.toList ∧ ',' ∉ key.toList) :=
  ⟨FieldTag.isRawLiteral_fieldTag_iff, FieldTag.read?_fieldTag_iff⟩

/-- A backtick ends the literal early, a quote ends the text of the tag, and a comma ends the key:
the tags of an optional `a` and of `a,omitempty` are the same. -/
theorem fieldTag_not_carried :
    ¬ IsRawLiteral (fieldTag "a`b" false) ∧
    FieldTag.read? (fieldTag "a\"b" false).toList = some ("a", false) ∧
    FieldTag.read? (fieldTag "a,omitempty" false).toList = some ("a", true) :=
  ⟨fun h => absurd (FieldTag.isRawLiteral_fieldTag_iff.mp h) (by decide), by decide +kernel,
    by decide +kernel⟩

end GoShape
