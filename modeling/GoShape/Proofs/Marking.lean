import GoShape.Conversion
import GoShape.Proofs.Grammar

/-! Marking texts of the grammar. The change of single characters is a change of the tree: the first
fraction digit of a number, and in strings and keys the zeros that follow a point. A marked text is
derived by the grammar again, from the same tokens in the same places. -/
namespace GoShape

/-- Marking with the knowledge whether the text follows a point. -/
def markFrom (behind : Bool) : List Char → List Char
  | [] => []
  | c :: cs => (if behind ∧ c = '0' then '1' else c) :: markFrom (c = '.') cs

theorem markFractions_eq (cs : List Char) : markFractions cs = markFrom false cs := by
  fun_induction markFractions cs with
  | case1 cs ih => simp [markFrom, ih]
  | case2 c cs h ih =>
    simp only [markFrom, Bool.false_eq_true, false_and, if_false, ih, List.cons.injEq, true_and]
    by_cases hc : c = '.'
    · subst hc
      cases cs with
      | nil => rfl
      | cons c cs =>
        have hzero : c ≠ '0' := fun e => h cs rfl (by rw [e])
        simp [markFrom, hzero]
    · simp [hc]
  | case3 => rfl

/-- What is marked may be marked again. -/
theorem markFrom_markFrom_append (behind : Bool) (xs ys : List Char) :
    markFrom behind (markFrom behind xs ++ ys) = markFrom behind (xs ++ ys) := by
  induction xs generalizing behind with
  | nil => rfl
  | cons c cs ih =>
    by_cases h : behind = true ∧ c = '0'
    · obtain ⟨rfl, rfl⟩ := h
      simpa [markFrom] using ih false
    · simp [markFrom, h, ih]

/-- A zero and a one are marked alike behind a point. -/
theorem markFrom_append_point (behind : Bool) (xs ys : List Char) :
    markFrom behind (xs ++ '.' :: '0' :: ys) = markFrom behind (xs ++ '.' :: '1' :: ys) := by
  induction xs generalizing behind with
  | nil => simp [markFrom]
  | cons c cs ih => simp [markFrom, ih]

theorem point_mem_markFrom {behind : Bool} {cs : List Char} :
    '.' ∈ markFrom behind cs ↔ '.' ∈ cs := by
  induction cs generalizing behind with
  | nil => simp [markFrom]
  | cons c cs ih =>
    by_cases h : behind = true ∧ c = '0'
    · obtain ⟨rfl, rfl⟩ := h
      simp [markFrom, ih]
    · simp [markFrom, h, ih]

/-- The text `xs` is marked as `xs'`, and what follows it is marked on its own. -/
def Marks (xs xs' : List Char) : Prop :=
  ∀ ys, markFrom false (xs ++ ys) = xs' ++ markFrom false ys

namespace Marks

variable {xs xs' zs zs' : List Char}

theorem nil : Marks [] [] := fun _ => rfl

theorem append (h : Marks xs xs') (h' : Marks zs zs') : Marks (xs ++ zs) (xs' ++ zs') := by
  intro ys
  rw [List.append_assoc, h, h', List.append_assoc]

theorem cons {c : Char} (hc : c ≠ '.') (h : Marks xs xs') : Marks (c :: xs) (c :: xs') := by
  intro ys
  simp [markFrom, hc, h ys]

/-- A text without a point stays as it is. -/
theorem of_forall (h : ∀ c ∈ xs, c ≠ '.') : Marks xs xs := by
  induction xs with
  | nil => exact nil
  | cons c cs ih => exact cons (h c (by simp)) (ih fun c hc => h c (by simp [hc]))

end Marks

namespace Json.Syntax

theorem marks_blanks (b : Blanks) : Marks b.chars b.chars := by
  apply Marks.of_forall
  rintro c hc rfl
  exact absurd (b.blank _ hc) (by decide)

/-! ### Numbers -/

/-- A one for a zero. -/
def markDigit (d : Digit) : Digit := ⟨if d.val = 0 then 1 else d.val, by split <;> omega⟩

def markDigits : List Digit → List Digit
  | [] => []
  | d :: ds => markDigit d :: ds

def Literal.mark (l : Literal) : Literal := { l with fraction := markDigits l.fraction }

theorem digit_ne_point (d : Digit) : d.toChar ≠ '.' := by
  revert d
  decide

theorem marks_digits (ds : List Digit) : Marks (ds.map Digit.toChar) (ds.map Digit.toChar) := by
  apply Marks.of_forall
  intro c hc
  obtain ⟨d, -, rfl⟩ := List.mem_map.mp hc
  exact digit_ne_point d

theorem marks_fraction (ds : List Digit) :
    Marks (fractionChars ds) (fractionChars (markDigits ds)) := by
  cases ds with
  | nil => exact Marks.nil
  | cons d ds =>
    have hd : (if d.toChar = '0' then '1' else d.toChar) = (markDigit d).toChar := by
      revert d
      decide
    intro ys
    simp [fractionChars, markDigits, markFrom, hd, digit_ne_point d, marks_digits ds ys]

theorem marks_power (p : Power) : Marks p.chars p.chars := by
  obtain ⟨capital, sign, ds, hds⟩ := p
  have hsign : Marks (sign.elim [] fun negative => [if negative then '-' else '+'])
      (sign.elim [] fun negative => [if negative then '-' else '+']) := by
    apply Marks.of_forall
    cases sign with
    | none => simp
    | some negative => cases negative <;> simp
  have hmark : (if capital then 'E' else 'e') ≠ '.' := by cases capital <;> decide
  exact Marks.cons hmark (hsign.append (marks_digits ds))

theorem marks_literal (l : Literal) : Marks l.chars l.mark.chars := by
  obtain ⟨negative, first, more, fraction, power, hzero⟩ := l
  have hsign : Marks (if negative then ['-'] else []) (if negative then ['-'] else []) := by
    apply Marks.of_forall
    cases negative <;> simp
  have hpower : Marks (power.elim [] Power.chars) (power.elim [] Power.chars) := by
    cases power with
    | none => exact Marks.nil
    | some p => exact marks_power p
  refine hsign.append (Marks.cons (digit_ne_point first) ?_)
  exact ((marks_digits more).append (marks_fraction fraction)).append hpower

/-! ### Strings -/

/-- Marking the pieces of a string; a point that is written as an escape does not count. -/
def markPieces (behind : Bool) : List Piece → List Piece
  | [] => []
  | .plain c h :: ps =>
    (if behind ∧ c = '0' then .plain '1' (by decide) else .plain c h) :: markPieces (c = '.') ps
  | p :: ps => p :: markPieces false ps

theorem hex_ne_point (h : Hex) : h.val ≠ '.' := by
  obtain ⟨c, hc⟩ := h
  rintro rfl
  exact absurd hc (by decide)

/-- A string behind its opening quote, and what follows it. -/
theorem markFrom_pieces (behind : Bool) (ps : List Piece) (ys : List Char) :
    markFrom behind (piecesChars ps ++ ys) =
      piecesChars (markPieces behind ps) ++ markFrom false ys := by
  induction ps generalizing behind with
  | nil => simp [piecesChars, markPieces, markFrom]
  | cons p ps ih =>
    cases p with
    | plain c hc =>
      by_cases h : behind = true ∧ c = '0'
      · obtain ⟨rfl, rfl⟩ := h
        simp [markPieces, piecesChars_cons, Piece.chars, markFrom, ih]
      · simp [markPieces, piecesChars_cons, Piece.chars, markFrom, ih, h]
    | escape c m hm =>
      have hc : c ≠ '.' := by
        rintro rfl
        cases hm
      simp [markPieces, piecesChars_cons, Piece.chars, markFrom, hc, ih]
    | code a b c d =>
      simp [markPieces, piecesChars_cons, Piece.chars, markFrom, hex_ne_point, ih]

theorem marks_pieces (ps : List Piece) :
    Marks (piecesChars ps) (piecesChars (markPieces false ps)) :=
  markFrom_pieces false ps

/-! ### Trees -/

def markKey (key : Spaced (List Piece)) : Spaced (List Piece) :=
  { key with inside := markPieces false key.inside }

namespace Tree

mutual

def mark : Tree → Tree
  | .null => .null
  | .bool b => .bool b
  | .number l => .number l.mark
  | .string ps => .string (markPieces false ps)
  | .array blanks items => .array blanks (markItems items)
  | .object blanks members => .object blanks (markMembers members)

def markItems : List (Spaced Tree) → List (Spaced Tree)
  | [] => []
  | ⟨before, t, after⟩ :: items => ⟨before, mark t, after⟩ :: markItems items

def markMembers : List (Spaced (List Piece) × Spaced Tree) →
    List (Spaced (List Piece) × Spaced Tree)
  | [] => []
  | (key, ⟨before, t, after⟩) :: members =>
    (markKey key, ⟨before, mark t, after⟩) :: markMembers members

end

end Tree

theorem marks_items (items : List (Spaced Tree))
    (h : ∀ x ∈ items, Marks x.inside.chars x.inside.mark.chars) {lead : List Char}
    (hlead : Marks lead lead) :
    Marks (Tree.itemsChars lead items) (Tree.itemsChars lead (Tree.markItems items)) := by
  induction items generalizing lead with
  | nil =>
    simp only [Tree.markItems, Tree.itemsChars]
    exact Marks.nil
  | cons x items ih =>
    obtain ⟨before, t, after⟩ := x
    have ht := h ⟨before, t, after⟩ (by simp)
    have hcomma : Marks [','] [','] := Marks.of_forall (by simp)
    simp only [Tree.markItems, Tree.itemsChars]
    exact (((hlead.append (marks_blanks before)).append ht).append (marks_blanks after)).append
      (ih (fun x hx => h x (by simp [hx])) hcomma)

theorem marks_members (members : List (Spaced (List Piece) × Spaced Tree))
    (h : ∀ m ∈ members, Marks m.2.inside.chars m.2.inside.mark.chars) {lead : List Char}
    (hlead : Marks lead lead) :
    Marks (Tree.membersChars lead members) (Tree.membersChars lead (Tree.markMembers members)) := by
  induction members generalizing lead with
  | nil =>
    simp only [Tree.markMembers, Tree.membersChars]
    exact Marks.nil
  | cons m members ih =>
    obtain ⟨key, before, t, after⟩ := m
    have ht := h (key, ⟨before, t, after⟩) (by simp)
    have hcomma : Marks [','] [','] := Marks.of_forall (by simp)
    have hkey := Marks.cons (by decide : '"' ≠ '.') (marks_pieces key.inside)
    have hbefore := Marks.cons (by decide : ':' ≠ '.') (marks_blanks before)
    have hrest := ih (fun m hm => h m (by simp [hm])) hcomma
    simp only [Tree.markMembers, Tree.membersChars]
    exact ((((((hlead.append (marks_blanks key.before)).append hkey).append
      (marks_blanks key.after)).append hbefore).append ht).append (marks_blanks after)).append hrest

theorem marks_tree (t : Tree) : Marks t.chars t.mark.chars := by
  induction t using Tree.induction with
  | null => simp only [Tree.mark, Tree.chars]; exact Marks.of_forall (by simp)
  | bool b => cases b <;> simp only [Tree.mark, Tree.chars] <;> exact Marks.of_forall (by simp)
  | number l =>
    simp only [Tree.mark, Tree.chars]
    exact marks_literal l
  | string ps =>
    simp only [Tree.mark, Tree.chars]
    exact Marks.cons (by decide) (marks_pieces ps)
  | array blanks items ih =>
    have hclose : Marks [']'] [']'] := Marks.of_forall (by simp)
    simp only [Tree.mark, Tree.chars]
    exact Marks.cons (by decide)
      (((marks_blanks blanks).append (marks_items items ih Marks.nil)).append hclose)
  | object blanks members ih =>
    have hclose : Marks ['}'] ['}'] := Marks.of_forall (by simp)
    simp only [Tree.mark, Tree.chars]
    exact Marks.cons (by decide)
      (((marks_blanks blanks).append (marks_members members ih Marks.nil)).append hclose)

/-- The marked text of a tree is the text of the marked tree. -/
theorem forceFractional_documentChars (d : Spaced Tree) :
    forceFractional (String.ofList (documentChars d)) =
      String.ofList (documentChars { d with inside := d.inside.mark }) := by
  have h := (((marks_blanks d.before).append (marks_tree d.inside)).append (marks_blanks d.after)) []
  simp only [markFrom, List.append_nil] at h
  rw [forceFractional, String.toList_ofList, markFractions_eq]
  exact congrArg String.ofList h

end Json.Syntax

/-- The type of a sample is the type of the value of the marked tree. -/
theorem toOption_sampleType (d : Json.Syntax.Spaced Json.Syntax.Tree) :
    (sampleType (String.ofList (Json.Syntax.documentChars d))).toOption =
      (d.inside.mark.value? Json.Document.maxDepth).map Json.type := by
  have h := Json.toOption_parse { d with inside := d.inside.mark }
  rw [← Json.Syntax.forceFractional_documentChars] at h
  rw [sampleType, ← h]
  cases Json.parse (forceFractional (String.ofList (Json.Syntax.documentChars d))) <;> rfl

theorem sampleType_of_value? {d : Json.Syntax.Spaced Json.Syntax.Tree} {v : Json}
    (h : d.inside.mark.value? Json.Document.maxDepth = some v) :
    sampleType (String.ofList (Json.Syntax.documentChars d)) = .ok v.type := by
  have hs := toOption_sampleType d
  rw [h] at hs
  cases ht : sampleType (String.ofList (Json.Syntax.documentChars d)) with
  | error e => rw [ht] at hs; cases hs
  | ok t =>
    rw [ht] at hs
    exact congrArg Except.ok (Option.some.inj hs)

/-- Without a limit on its size, a sample that has a type has a declaration. -/
theorem declare_of_sampleType {text : String} {t : GoType} (h : sampleType text = .ok t)
    (typeName : Option String) : declare text ⟨typeName, none⟩ =
      .ok (declaration (Options.rootName ⟨typeName, none⟩) t) := by
  simp [declare, attempt, exceeded?, h]

end GoShape
