import GoShape.Proofs.Syntax
import Mathlib.Tactic.SplitIfs

/-! The readers of numbers and of strings on the texts of the grammar. A number is read to its last
digit and ends before the next token; a string is read to its closing quote, or is refused on the
way, exactly if it has no characters to stand for. -/
namespace GoShape.Json

/-- Read characters for as long as the token goes on. -/
def Reading.scan {σ α : Type} (step : σ → Char → Reading σ α) (s : σ) : List Char → Reading σ α
  | [] => .more s
  | c :: cs =>
    match step s c with
    | .more s' => scan step s' cs
    | r => r

namespace Reading

variable {σ α : Type} {step : σ → Char → Reading σ α} {s s' : σ}

theorem scan_cons_eq_more_iff {x : Char} {xs : List Char} :
    scan step s (x :: xs) = .more s' ↔ ∃ t, step s x = .more t ∧ scan step t xs = .more s' := by
  rw [scan]
  cases step s x <;> simp

theorem scan_cons_eq_fault_iff {x : Char} {xs : List Char} {e : Fault} :
    scan step s (x :: xs) = .fault e ↔
      step s x = .fault e ∨ ∃ t, step s x = .more t ∧ scan step t xs = .fault e := by
  rw [scan]
  cases step s x <;> simp

theorem scan_append {xs : List Char} (h : scan step s xs = .more s') (ys : List Char) :
    scan step s (xs ++ ys) = scan step s' ys := by
  induction xs generalizing s with
  | nil => cases h; rfl
  | cons x xs ih =>
    obtain ⟨t, hx, ht⟩ := scan_cons_eq_more_iff.mp h
    simp only [List.cons_append, scan, hx]
    exact ih ht

theorem scan_append_fault {xs : List Char} {e : Fault} (h : scan step s xs = .fault e)
    (ys : List Char) : scan step s (xs ++ ys) = .fault e := by
  induction xs generalizing s with
  | nil => cases h
  | cons x xs ih =>
    apply scan_cons_eq_fault_iff.mpr
    apply (scan_cons_eq_fault_iff.mp h).imp_right
    rintro ⟨t, hx, ht⟩
    exact ⟨t, hx, ih ht⟩

end Reading

/-- A character that may stand behind a token: a blank, a comma or a closing bracket. -/
def endsToken (c : Char) : Bool := isBlank c || c == ',' || c == ']' || c == '}'

theorem endsToken_iff {c : Char} :
    endsToken c ↔ c = ' ' ∨ c = '\n' ∨ c = '\t' ∨ c = '\r' ∨ c = ',' ∨ c = ']' ∨ c = '}' := by
  simp [endsToken, isBlank, or_assoc]

namespace Numeral
open Reading Syntax

/-- Digits are taken in one after the other, in every phase in which a digit leads back to the
phase. -/
theorem scan_digits {f : List Digit → Numeral}
    (h : ∀ ds d, step (f ds) d.toChar = .more (f (d :: ds))) (acc ds : List Digit) :
    scan step (f acc) (ds.map Digit.toChar) = .more (f (ds.reverse ++ acc)) := by
  induction ds generalizing acc with
  | nil => rfl
  | cons d ds ih =>
    rw [List.map_cons, scan, h]
    simp only [ih, List.reverse_cons, List.append_assoc, List.singleton_append]

theorem scan_whole (n : Numeral) (h : n.phase = .whole) (ds : List Digit) :
    scan step n (ds.map Digit.toChar) = .more { n with whole := ds.reverse ++ n.whole } := by
  apply scan_digits (f := fun whole => { n with whole := whole })
  intro ds d
  simp [step, h, Digit.ofChar?_toChar]

theorem scan_fraction (n : Numeral) (h : n.phase = .fraction) (ds : List Digit) :
    scan step n (ds.map Digit.toChar) = .more { n with fraction := ds.reverse ++ n.fraction } := by
  apply scan_digits (f := fun fraction => { n with fraction := fraction })
  intro ds d
  simp [step, h, Digit.ofChar?_toChar]

theorem scan_exponent (n : Numeral) (h : n.phase = .exponent) (ds : List Digit) :
    scan step n (ds.map Digit.toChar) = .more { n with exponent := ds.reverse ++ n.exponent } := by
  apply scan_digits (f := fun exponent => { n with exponent := exponent })
  intro ds d
  simp [step, h, Digit.ofChar?_toChar]

/-- The whole digits behind the first one; there are none behind a zero. -/
theorem scan_more (negative : Bool) (d : Digit) (ds : List Digit) (h : d = 0 → ds = []) :
    scan step ((signed negative).first d) (ds.map Digit.toChar) =
      .more { (signed negative).first d with whole := ds.reverse ++ [d] } := by
  by_cases hd : d = 0
  · rw [h hd]
    rfl
  · exact scan_whole _ (by simp [first, hd]) ds

theorem scan_fractionChars (n : Numeral) (h : n.phase = .zero ∨ n.phase = .whole)
    (hn : n.fraction = []) (ds : List Digit) :
    scan step n (fractionChars ds) = .more { n with
      phase := if ds.isEmpty then n.phase else .fraction, fraction := ds.reverse } := by
  cases ds with
  | nil =>
    obtain ⟨phase, negative, whole, fraction, shrinks, exponent⟩ := n
    obtain rfl : fraction = [] := hn
    rfl
  | cons d ds =>
    have hpoint : n.step '.' = .more { n with phase := .point } := by
      rcases h with h | h <;> simp [step, h, afterWhole, show Digit.ofChar? '.' = none by decide]
    simp only [fractionChars, List.isEmpty_cons, Bool.false_eq_true, if_false, List.map_cons, scan,
      hpoint]
    simp only [step, Digit.ofChar?_toChar]
    rw [scan_fraction _ rfl]
    simp

theorem step_mark (n : Numeral) (h : n.phase = .zero ∨ n.phase = .whole ∨ n.phase = .fraction)
    (capital : Bool) : n.step (if capital then 'E' else 'e') = .more { n with phase := .mark } := by
  have hd : Digit.ofChar? (if capital then 'E' else 'e') = none := by cases capital <;> decide
  rcases h with h | h | h <;> cases capital <;>
    simp [step, h, afterWhole, afterFraction, show Digit.ofChar? 'E' = none by decide,
      show Digit.ofChar? 'e' = none by decide]

/-- The digits of a power, of which there is at least one. -/
theorem scan_powerDigits (n : Numeral) (h : n.phase = .mark ∨ n.phase = .markSign)
    (ds : List Digit) (hds : ds ≠ []) :
    scan step n (ds.map Digit.toChar) =
      .more { n with phase := .exponent, exponent := ds.reverse } := by
  obtain ⟨d, ds, rfl⟩ := List.exists_cons_of_ne_nil hds
  have hstep : n.step d.toChar = .more { n with phase := .exponent, exponent := [d] } := by
    rcases h with h | h <;> simp [step, h, Digit.ofChar?_toChar]
  simp only [List.map_cons, scan, hstep]
  rw [scan_exponent _ rfl]
  simp

theorem scan_power (n : Numeral) (h : n.phase = .zero ∨ n.phase = .whole ∨ n.phase = .fraction)
    (hs : n.shrinks = false) (p : Power) :
    scan step n p.chars = .more { n with
      phase := .exponent, shrinks := p.sign = some true, exponent := p.digits.reverse } := by
  simp only [Power.chars, List.cons_append, scan, step_mark n h]
  obtain ⟨capital, sign, ds, hds⟩ := p
  cases sign with
  | none =>
    simp only [Option.elim_none, List.nil_append]
    rw [scan_powerDigits _ (.inl rfl) ds hds]
    simp [hs]
  | some negative =>
    have hsign : ({ n with phase := .mark } : Numeral).step (if negative then '-' else '+') =
        .more { n with phase := .markSign, shrinks := negative } := by
      cases negative <;> rfl
    simp only [Option.elim_some, List.cons_append, List.nil_append, scan, hsign]
    rw [scan_powerDigits _ (.inr rfl) ds hds]
    simp

/-- A number of the grammar is read to its end, and its parts are taken in. -/
theorem scan_literal (l : Literal) :
    ∃ n, scan step ((signed l.negative).first l.first) l.tailChars = .more n ∧ n.complete ∧
      n.value = l.number := by
  obtain ⟨negative, first, more, ds, power, hzero⟩ := l
  -- behind the whole digits, then behind the fraction
  let n₁ : Numeral := { (signed negative).first first with whole := more.reverse ++ [first] }
  let n₂ : Numeral :=
    { n₁ with phase := if ds.isEmpty then n₁.phase else .fraction, fraction := ds.reverse }
  have hphase₁ : n₁.phase = .zero ∨ n₁.phase = .whole := by
    simp only [n₁, Numeral.first]
    split_ifs <;> simp
  have hphase₂ : n₂.phase = .zero ∨ n₂.phase = .whole ∨ n₂.phase = .fraction := by
    simp only [n₂]
    split_ifs
    · rcases hphase₁ with h | h <;> simp [h]
    · simp
  have hscan : scan step ((signed negative).first first)
      (more.map Digit.toChar ++ fractionChars ds) = .more n₂ := by
    rw [scan_append (scan_more negative first more hzero)]
    exact scan_fractionChars n₁ hphase₁ rfl ds
  simp only [Literal.tailChars, Literal.number]
  rw [scan_append hscan]
  cases power with
  | none =>
    refine ⟨n₂, rfl, ?_, ?_⟩
    · rcases hphase₂ with h | h | h <;> simp [complete, h]
    · simp [n₂, n₁, value, Numeral.first, signed]
  | some p =>
    refine ⟨_, scan_power n₂ hphase₂ rfl p, by simp [complete], ?_⟩
    simp [n₂, n₁, value, Numeral.first, signed, Power.exponent, p.digits_ne_nil]

/-- Behind its last digit a number ends before the next token. -/
theorem step_endsToken {n : Numeral} (h : n.complete) {c : Char} (hc : endsToken c) :
    n.step c = .before n.value := by
  have hd : Digit.ofChar? c = none ∧ c ≠ '.' ∧ c ≠ 'e' ∧ c ≠ 'E' := by
    rcases endsToken_iff.mp hc with rfl | rfl | rfl | rfl | rfl | rfl | rfl <;> decide
  obtain ⟨hd, hp, he, hE⟩ := hd
  simp only [complete, Bool.or_eq_true, decide_eq_true_eq] at h
  rcases h with ((h | h) | h) | h <;> simp [step, h, hd, afterWhole, afterFraction, hp, he, hE]

end Numeral

namespace Syntax.Hex

theorem utf8Size_val (h : Hex) : h.val.utf8Size = 1 := by
  obtain ⟨c, hc⟩ := h
  have hle : c.toNat ≤ 127 := by
    unfold hexDigit? at hc
    split_ifs at hc with h₁ h₂ h₃
    · exact Nat.le_trans h₁.2 (by decide)
    · exact Nat.le_trans h₂.2 (by decide)
    · exact Nat.le_trans h₃.2 (by decide)
    · cases hc
  exact Char.utf8Size_eq_one_iff.mpr (UInt32.le_iff_toNat_le.mpr hle)

theorem hexDigit?_val (h : Hex) : hexDigit? h.val = some h.value := by
  simp [Hex.value]

end Syntax.Hex

namespace Quoted
open Reading Syntax

/-- What a code means does not depend on how it was read. -/
theorem accept_phase (q : Quoted) (phase : Phase) (lead : Option Nat) (code : Nat) :
    accept { q with phase := phase } lead code = accept q lead code := rfl

/-- The four digits of a code are taken in together. -/
theorem scan_code (q : Quoted) (lead : Option Nat) (a b c d : Hex) :
    scan step { q with phase := .code lead .start } [a.val, b.val, c.val, d.val] =
      q.accept lead (codeOf a b c d) := by
  have hwindow : ∀ (n k : Nat) (h : Hex), n < 3 → HexWindow.step ⟨n, some k⟩ h.val =
      .more ⟨n + 1, some (16 * k + h.value)⟩ := by
    intro n k h hn
    have hlt : n + 1 < 4 := by omega
    simp [HexWindow.step, h.utf8Size_val, h.hexDigit?_val, hlt]
  have hlast : ∀ (k : Nat) (h : Hex), HexWindow.step ⟨3, some k⟩ h.val =
      .last (16 * k + h.value) := by
    intro k h
    simp [HexWindow.step, h.utf8Size_val, h.hexDigit?_val]
  simp only [scan, step, HexWindow.start, hwindow 0 0 a (by omega), hwindow 1 _ b (by omega),
    hwindow 2 _ c (by omega), hlast]
  simp only [Nat.mul_zero, Nat.zero_add]
  rw [accept_phase]
  unfold codeOf
  split
  · rename_i h
    exact h.symm
  · rfl

/-- Half of a surrogate pair is refused unless the code of the other half follows at once. -/
theorem scan_secondEscape_fault (q : Quoted) (n : Nat) (ps : List Piece)
    (h : ∀ a b c d ps', ps = .code a b c d :: ps' → Quoted.isTrailing (codeOf a b c d) = false) :
    ∃ e, scan step { q with phase := .secondEscape n } (piecesChars ps) = .fault e := by
  cases ps with
  | nil => exact ⟨_, rfl⟩
  | cons p ps =>
    simp only [piecesChars, List.flatMap_cons, List.append_assoc]
    cases p with
    | plain c hc =>
      refine ⟨.here .unfinishedSurrogate 1, ?_⟩
      simp [Piece.chars, scan, step, hc.2.1]
    | escape c d hd =>
      have hu : c ≠ 'u' := by
        rintro rfl
        cases hd
      refine ⟨.here .unfinishedSurrogate 1, ?_⟩
      simp [Piece.chars, scan, step, hu]
    | code a b c d =>
      refine ⟨.here .loneSurrogate 1, ?_⟩
      have hscan : scan step { q with phase := .code (some n) .start }
          [a.val, b.val, c.val, d.val] = .fault (.here .loneSurrogate 1) := by
        rw [scan_code]
        simp [accept, h a b c d ps rfl]
      exact scan_append_fault hscan _

/-- What the reader makes of a string that stands for the characters `result`, or for none. -/
def Reads (ps : List Piece) (result : Option (List Char)) : Prop :=
  ∀ chars, match result with
    | some cs =>
      scan step ⟨.plain, chars⟩ (ps.flatMap Piece.chars) = .more ⟨.plain, cs.reverse ++ chars⟩
    | none => ∃ e, scan step ⟨.plain, chars⟩ (piecesChars ps) = .fault e

theorem Reads.append (ps : List Piece) {qs : List Piece} {c : Char} {result : Option (List Char)}
    (hp : ∀ chars, scan step ⟨.plain, chars⟩ (ps.flatMap Piece.chars) = .more ⟨.plain, c :: chars⟩)
    (hq : Reads qs result) : Reads (ps ++ qs) (result.map (c :: ·)) := by
  intro chars
  have h := hq (c :: chars)
  cases result with
  | none =>
    obtain ⟨e, he⟩ := h
    refine ⟨e, ?_⟩
    rw [piecesChars, List.flatMap_append, List.append_assoc, scan_append (hp chars)]
    exact he
  | some cs =>
    simp only [Option.map_some, List.flatMap_append]
    rw [scan_append (hp chars), h]
    simp

theorem Reads.fault (ps qs : List Piece)
    (h : ∀ chars, ∃ e, scan step ⟨.plain, chars⟩ (ps.flatMap Piece.chars) = .fault e) :
    Reads (ps ++ qs) none := by
  intro chars
  obtain ⟨e, he⟩ := h chars
  refine ⟨e, ?_⟩
  rw [piecesChars, List.flatMap_append, List.append_assoc]
  exact scan_append_fault he _

theorem scan_codePiece (chars : List Char) (a b c d : Hex) :
    scan step ⟨.plain, chars⟩ (Piece.code a b c d).chars =
      accept ⟨.plain, chars⟩ none (codeOf a b c d) :=
  scan_code ⟨.plain, chars⟩ none a b c d

/-- The first half of a surrogate pair waits for the second. -/
theorem scan_lead {a b c d : Hex} (ht : ¬ isTrailing (codeOf a b c d))
    (hl : isLeading (codeOf a b c d)) (chars : List Char) : scan step ⟨.plain, chars⟩ (Piece.code a b c d).chars =
      .more ⟨.secondEscape (codeOf a b c d), chars⟩ := by
  simp [scan_codePiece, accept, ht, hl]

theorem scan_trail {a b c d : Hex} {n : Nat} (ht : isTrailing (codeOf a b c d))
    (chars : List Char) :
    scan step ⟨.secondEscape n, chars⟩ ([Piece.code a b c d].flatMap Piece.chars) =
      .more ⟨.plain, pair n (codeOf a b c d) :: chars⟩ := by
  have h := scan_code ⟨.plain, chars⟩ (some n) a b c d
  simp only [accept, ht, if_true, push] at h
  exact h

theorem reads_lone {a b c d : Hex} {ps : List Piece} (ht : ¬ isTrailing (codeOf a b c d))
    (hl : isLeading (codeOf a b c d))
    (h : ∀ a b c d ps', ps = .code a b c d :: ps' → isTrailing (codeOf a b c d) = false) :
    Reads (.code a b c d :: ps) none := by
  intro chars
  obtain ⟨e, he⟩ := scan_secondEscape_fault ⟨.plain, chars⟩ (codeOf a b c d) ps h
  refine ⟨e, ?_⟩
  rw [piecesChars, List.flatMap_cons, List.append_assoc, scan_append (scan_lead ht hl chars)]
  exact he

/-- A string is read to its closing quote if it has characters to stand for, and is refused on the
way if it has none. -/
theorem reads_decode? (ps : List Piece) : Reads ps (decode? ps) := by
  fun_induction decode? ps with
  | case1 => intro chars; rfl
  | case2 c hc ps ih =>
    refine Reads.append [.plain c hc] (fun chars => ?_) ih
    have hn : ¬ c.toNat < 0x20 := by omega
    simp [Piece.chars, scan, step, hc.1, hc.2.1, hn, push]
  | case3 c d hd ps ih =>
    have hu : c ≠ 'u' := by
      rintro rfl
      cases hd
    refine Reads.append [.escape c d hd] (fun chars => ?_) ih
    simp [Piece.chars, scan, step, hu, hd, push]
  | case4 a b c d ps ht =>
    refine Reads.fault [.code a b c d] ps (fun chars => ⟨.here .loneSurrogate 1, ?_⟩)
    simp [scan_codePiece, accept, ht]
  | case5 a b c d ht hl a' b' c' d' ps ht' ih =>
    refine Reads.append [.code a b c d, .code a' b' c' d'] (fun chars => ?_) ih
    rw [List.flatMap_cons, scan_append (scan_lead ht hl chars)]
    exact scan_trail ht' chars
  | case6 a b c d ht hl a' b' c' d' ps ht' =>
    apply reads_lone ht hl
    rintro _ _ _ _ _ ⟨⟩
    simpa using ht'
  | case7 a b c d ps ht hl hps =>
    exact reads_lone ht hl fun _ _ _ _ _ h => absurd h (hps _ _ _ _ _)
  | case8 a b c d ps ht hl ih =>
    refine Reads.append [.code a b c d] (fun chars => ?_) ih
    simp [scan_codePiece, accept, ht, hl, push]

theorem scan_text {ps : List Piece} {s : String} (h : text? ps = some s) :
    ∃ q, scan step start (ps.flatMap Piece.chars) = .more q ∧ q.step '"' = .last s := by
  obtain ⟨cs, hcs, rfl⟩ := Option.map_eq_some_iff.mp h
  have hread := reads_decode? ps []
  rw [hcs] at hread
  exact ⟨_, hread, by simp [step, value]⟩

theorem scan_text_fault {ps : List Piece} (h : text? ps = none) :
    ∃ e, scan step start (piecesChars ps) = .fault e := by
  have hread := reads_decode? ps []
  rw [Option.map_eq_none_iff.mp h] at hread
  exact hread

end Quoted
end GoShape.Json
