import GoShape.Conversion
import GoShape.Json.Printer
import GoShape.Proofs.Keys

/-! Printed texts read back. A string that is printed in quotes is made of plain characters and
escapes that stand for its characters again, and an object of strings whose keys are distinct, printed
with a line for each member, is read as the object it was. -/
namespace GoShape

namespace Json.Syntax

/-! ### Strings -/

theorem hexDigit?_digitChar {n : Nat} (h : n < 16) : hexDigit? (Nat.digitChar n) = some n := by
  have hall : ∀ n : Fin 16, hexDigit? (Nat.digitChar n) = some n.val := by decide
  exact hall ⟨n, h⟩

/-- The digit of a number below sixteen. -/
def Hex.ofNat (n : Nat) (h : n < 16) : Hex :=
  ⟨Nat.digitChar n, by rw [hexDigit?_digitChar h]; rfl⟩

theorem Hex.value_ofNat {n : Nat} (h : n < 16) : (Hex.ofNat n h).value = n := by
  simp [Hex.value, Hex.ofNat, hexDigit?_digitChar h]

/-- Every character is printed as a piece that stands for it. -/
theorem exists_piece (c : Char) :
    ∃ p : Piece, p.chars = escape c ∧ ∀ ps, decode? (p :: ps) = (decode? ps).map (c :: ·) := by
  unfold escape
  split_ifs with hquote hslash hb hf hn hr ht hlow
  · exact ⟨.escape '"' c (by rw [hquote]; rfl), rfl, fun _ => rfl⟩
  · exact ⟨.escape '\\' c (by rw [hslash]; rfl), rfl, fun _ => rfl⟩
  · exact ⟨.escape 'b' c (by rw [hb]; rfl), rfl, fun _ => rfl⟩
  · exact ⟨.escape 'f' c (by rw [hf]; rfl), rfl, fun _ => rfl⟩
  · exact ⟨.escape 'n' c (by rw [hn]; rfl), rfl, fun _ => rfl⟩
  · exact ⟨.escape 'r' c (by rw [hr]; rfl), rfl, fun _ => rfl⟩
  · exact ⟨.escape 't' c (by rw [ht]; rfl), rfl, fun _ => rfl⟩
  · have hhigh : c.toNat / 16 < 16 := by omega
    have hrest : c.toNat % 16 < 16 := by omega
    refine ⟨.code (.ofNat 0 (by decide)) (.ofNat 0 (by decide)) (.ofNat _ hhigh) (.ofNat _ hrest),
      rfl, fun ps => ?_⟩
    have hcode : codeOf (.ofNat 0 (by decide)) (.ofNat 0 (by decide)) (.ofNat _ hhigh)
        (.ofNat _ hrest) = c.toNat := by
      simp only [codeOf, Hex.value_ofNat]
      omega
    -- A control character is far below the surrogates, so its code stands alone.
    have htrailing : Quoted.isTrailing c.toNat = false := by
      simp only [Quoted.isTrailing, Bool.and_eq_false_iff, decide_eq_false_iff_not]
      omega
    have hleading : Quoted.isLeading c.toNat = false := by
      simp only [Quoted.isLeading, Bool.and_eq_false_iff, decide_eq_false_iff_not]
      omega
    rw [decode?.eq_def]
    simp [hcode, htrailing, hleading]
  · exact ⟨.plain c ⟨hquote, hslash, by omega⟩, rfl, fun _ => rfl⟩

theorem exists_pieces (cs : List Char) :
    ∃ ps, piecesChars ps = cs.flatMap escape ++ ['"'] ∧ decode? ps = some cs := by
  induction cs with
  | nil => exact ⟨[], rfl, rfl⟩
  | cons c cs ih =>
    obtain ⟨ps, hchars, hdecode⟩ := ih
    obtain ⟨p, hp, hmeans⟩ := exists_piece c
    refine ⟨p :: ps, ?_, ?_⟩
    · rw [piecesChars_cons, hp, hchars, List.flatMap_cons, List.append_assoc]
    · rw [hmeans, hdecode]
      rfl

/-- A string in its quotes stands for itself. -/
theorem exists_quoted (s : String) :
    ∃ ps, '"' :: piecesChars ps = (quote s).toList ∧ text? ps = some s := by
  obtain ⟨ps, hchars, hdecode⟩ := exists_pieces s.toList
  refine ⟨ps, ?_, ?_⟩
  · rw [hchars, quote, String.toList_ofList, List.cons_append]
  · rw [text?, hdecode]
    simp

/-! ### Objects of strings -/

/-- Members that are strings. -/
def ofTexts (ms : List (String × String)) : List (String × Json) :=
  ms.map fun m => (m.1, .string m.2)

def Blanks.line (depth : Nat) : Blanks where
  chars := (newLine depth).toList
  blank := by
    intro c hc
    rw [newLine, String.toList_ofList, List.mem_cons, List.mem_replicate] at hc
    rcases hc with rfl | ⟨-, rfl⟩ <;> decide

def Blanks.space : Blanks := ⟨[' '], by simp [isBlank]⟩

/-- The members of an object as they are printed; the line behind the last one belongs to the bracket. -/
def memberLines (m : String × String) (ms : List (String × String)) : String :=
  newLine 1 ++ quote m.1 ++ ": " ++ quote m.2 ++ prettyMembers 1 (ofTexts ms) ++ newLine 0

theorem exists_members (m : String × String) (ms : List (String × String)) (depth : Nat) :
    ∃ members, (∀ lead, Tree.membersChars lead members = lead ++ (memberLines m ms).toList) ∧
      Tree.memberValues? depth members = some (ofTexts (m :: ms)) ∧ firstKey? members = some m.1 := by
  induction ms generalizing m with
  | nil =>
    obtain ⟨ks, hkchars, hktext⟩ := exists_quoted m.1
    obtain ⟨ps, hpchars, hptext⟩ := exists_quoted m.2
    refine ⟨[(⟨.line 1, ks, .none⟩, ⟨.space, .string ps, .line 0⟩)], fun lead => ?_, ?_, hktext⟩
    · simp [Tree.membersChars, Tree.chars, memberLines, ofTexts, prettyMembers, ← hkchars, ← hpchars,
        Blanks.line, Blanks.space, Blanks.none]
    · simp [Tree.memberValues?, Tree.value?, hktext, hptext, ofTexts]
  | cons m' ms ih =>
    obtain ⟨ks, hkchars, hktext⟩ := exists_quoted m.1
    obtain ⟨ps, hpchars, hptext⟩ := exists_quoted m.2
    obtain ⟨members, hchars, hvalues, -⟩ := ih m'
    refine ⟨(⟨.line 1, ks, .none⟩, ⟨.space, .string ps, .none⟩) :: members, fun lead => ?_, ?_,
      hktext⟩
    · rw [Tree.membersChars, hchars]
      simp [Tree.chars, memberLines, ofTexts, prettyMembers, pretty, ← hkchars, ← hpchars,
        Blanks.line, Blanks.space, Blanks.none]
    · simp [Tree.memberValues?, Tree.value?, hktext, hptext, hvalues, ofTexts]

theorem pretty_ofTexts (m : String × String) (ms : List (String × String)) :
    (Json.object (ofTexts (m :: ms))).pretty 0 = "\x7b" ++ memberLines m ms ++ "\x7d" := by
  simp only [ofTexts, List.map_cons, pretty, memberLines, String.append_assoc]

/-- An object of strings is read back, with the line end behind it. -/
theorem parse_pretty_ofTexts {m : String × String} {ms : List (String × String)}
    (hfirst : m.1 ≠ Document.numeralKey) (hkeys : ((m :: ms).map Prod.fst).Nodup) :
    parse ((Json.object (ofTexts (m :: ms))).pretty 0 ++ "\n") = .ok (.object (ofTexts (m :: ms))) := by
  obtain ⟨members, hchars, hvalues, hkey⟩ := exists_members m ms 126
  let d : Spaced Tree := ⟨.none, .object .none members, .line 0⟩
  have htext : String.ofList (documentChars d) = (Json.object (ofTexts (m :: ms))).pretty 0 ++ "\n" := by
    apply String.toList_inj.mp
    rw [pretty_ofTexts]
    simp [d, documentChars, Tree.chars, hchars, Blanks.none, Blanks.line, newLine]
  have hvalue : d.inside.value? Document.maxDepth = some (.object (ofTexts (m :: ms))) := by
    have hnumber : ¬ firstKey? members = some Document.numeralKey := by simp [hkey, hfirst]
    have hset : setMembers [] (ofTexts (m :: ms)) = ofTexts (m :: ms) := by
      apply setMembers_of_nodup
      rw [List.nil_append, ofTexts, List.map_map]
      exact hkeys
    show Tree.value? (126 + 1) d.inside = _
    simp [d, Tree.value?, hnumber, hvalues, hset]
  have hparse := toOption_parse d
  rw [htext, hvalue] at hparse
  cases h : parse ((Json.object (ofTexts (m :: ms))).pretty 0 ++ "\n") with
  | error e => rw [h] at hparse; cases hparse
  | ok v => rw [h] at hparse; exact congrArg Except.ok (Option.some.inj hparse)

end Json.Syntax

open Json.Syntax in
theorem Conversion.toJson_eq (c : Conversion) :
    c.toJson = .object (ofTexts (("go", c.go) :: (c.error.map fun e => ("error", e)).toList)) := by
  obtain ⟨go, _ | e⟩ := c <;> rfl

/-- The outcome of a conversion is read back from its text, whatever its declaration or its message
says. -/
theorem Conversion.parse_pretty_toJson (c : Conversion) :
    Json.parse (c.toJson.pretty 0 ++ "\n") = .ok c.toJson := by
  have hfirst : "go" ≠ Json.Document.numeralKey := by decide
  rw [c.toJson_eq]
  refine Json.Syntax.parse_pretty_ofTexts hfirst ?_
  cases c.error <;> simp

end GoShape
