import GoShape.Proofs.Scanning

/-! The reader of documents on single tokens. Blanks change nothing, and a token of the grammar is
taken in by its own reader, with what is open around it left alone. -/
namespace GoShape.Json

namespace Document
open Syntax Reading

/-- The state behind a piece of text, if nothing is wrong with it so far. -/
def feed (s : State) : List Char → Option State
  | [] => some s
  | c :: cs => (step s c).toOption.bind (feed · cs)

theorem feed_append (s : State) (xs ys : List Char) :
    feed s (xs ++ ys) = (feed s xs).bind (feed · ys) := by
  induction xs generalizing s with
  | nil => rfl
  | cons x xs ih =>
    simp only [feed, List.cons_append]
    cases step s x with
    | ok s' => exact ih s'
    | error e => rfl

theorem toOption_run (s : State) (p : Position) (cs : List Char) :
    (run s p cs).toOption = (feed s cs).bind fun s' => (finish s').toOption := by
  induction cs generalizing s p with
  | nil => simp only [run, feed, Option.bind]; cases finish s <;> rfl
  | cons c cs ih =>
    simp only [run, feed]
    cases step s c with
    | ok s' => exact ih s' _
    | error e => rfl

theorem feed_blanks (g : Gap) (b : Blanks) (cs : List Char) :
    feed (.gap g) (b.chars ++ cs) = feed (.gap g) cs := by
  obtain ⟨bs, hb⟩ := b
  induction bs with
  | nil => rfl
  | cons c bs ih =>
    have hc : isBlank c := hb c (by simp)
    simp only [List.cons_append, feed, step, stepGap, hc, if_true]
    exact ih fun c hc => hb c (by simp [hc])

/-- A character between two tokens that is not blank. -/
theorem feed_place {c : Char} (hc : isBlank c = false) (stack : List Frame) (place : Place)
    (cs : List Char) : feed (.gap ⟨stack, place⟩) (c :: cs) =
      (stepPlace stack c place).toOption.bind (feed · cs) := by
  simp [feed, step, stepGap, hc]

/-- The reader of a token inside the machine. -/
structure Carries {σ α : Type} (tokenStep : σ → Char → Reading σ α) (embed : σ → State) : Prop where
  more : ∀ s c s', tokenStep s c = .more s' → step (embed s) c = .ok (embed s')
  fault : ∀ s c e, tokenStep s c = .fault e → step (embed s) c = .error e

namespace Carries

variable {σ α : Type} {tokenStep : σ → Char → Reading σ α} {embed : σ → State}

theorem feed_scan (hc : Carries tokenStep embed) {s s' : σ} {xs : List Char}
    (h : scan tokenStep s xs = .more s') : feed (embed s) xs = some (embed s') := by
  induction xs generalizing s with
  | nil => cases h; rfl
  | cons x xs ih =>
    obtain ⟨t, hx, ht⟩ := scan_cons_eq_more_iff.mp h
    rw [feed, hc.more s x t hx]
    exact ih ht

theorem feed_fault (hc : Carries tokenStep embed) {s : σ} {xs : List Char} {e : Fault}
    (h : scan tokenStep s xs = .fault e) : feed (embed s) xs = none := by
  induction xs generalizing s with
  | nil => cases h
  | cons x xs ih =>
    rcases scan_cons_eq_fault_iff.mp h with hx | ⟨t, hx, ht⟩
    · rw [feed, hc.fault s x e hx]
      rfl
    · rw [feed, hc.more s x t hx]
      exact ih ht

end Carries

theorem step_text (stack : List Frame) (q : Quoted) (c : Char) :
    step (.atom stack (.text q)) c = match q.step c with
      | .more q' => .ok (.atom stack (.text q'))
      | .last s => close stack (.string s)
      | .before s => (deliver 0 stack (.string s)).bind (stepGap · c)
      | .fault e => .error e := by
  simp only [step, Atom.step]
  cases q.step c <;> rfl

theorem step_number (stack : List Frame) (n : Numeral) (c : Char) :
    step (.atom stack (.number n)) c = match n.step c with
      | .more n' => .ok (.atom stack (.number n'))
      | .last m => close stack (.number m)
      | .before m => (deliver 0 stack (.number m)).bind (stepGap · c)
      | .fault e => .error e := by
  simp only [step, Atom.step]
  cases n.step c <;> rfl

theorem carries_text (stack : List Frame) :
    Carries Quoted.step fun q => .atom stack (.text q) :=
  ⟨fun q c q' h => by rw [step_text, h], fun q c e h => by rw [step_text, h]⟩

theorem carries_number (stack : List Frame) :
    Carries Numeral.step fun n => .atom stack (.number n) :=
  ⟨fun n c n' h => by rw [step_number, h], fun n c e h => by rw [step_number, h]⟩

theorem carries_key (stack : List Frame) (members : List (String × Json)) :
    Carries Quoted.step fun q => .key stack members q :=
  ⟨fun q c q' h => by simp only [step, h], fun q c e h => by simp only [step, h]⟩

/-- A string behind its opening quote. -/
theorem feed_text (stack : List Frame) (ps : List Piece) :
    feed (.atom stack (.text .start)) (piecesChars ps) =
      (text? ps).bind fun s => (close stack (.string s)).toOption := by
  cases h : text? ps with
  | none =>
    obtain ⟨e, he⟩ := Quoted.scan_text_fault h
    exact (carries_text stack).feed_fault he
  | some s =>
    obtain ⟨q, hscan, hlast⟩ := Quoted.scan_text h
    rw [piecesChars, feed_append, (carries_text stack).feed_scan hscan]
    simp only [Option.bind_some, feed, step_text, hlast]
    cases close stack (.string s) <;> rfl

/-- A key behind its opening quote. -/
theorem feed_key (stack : List Frame) (members : List (String × Json)) (ps : List Piece) :
    feed (.key stack members .start) (piecesChars ps) =
      (text? ps).map fun k => .gap ⟨stack, afterKey members k⟩ := by
  cases h : text? ps with
  | none =>
    obtain ⟨e, he⟩ := Quoted.scan_text_fault h
    exact (carries_key stack members).feed_fault he
  | some k =>
    obtain ⟨q, hscan, hlast⟩ := Quoted.scan_text h
    rw [piecesChars, feed_append, (carries_key stack members).feed_scan hscan]
    simp only [Option.bind_some, feed, step, hlast]
    rfl

/-- A word behind its first letter. -/
theorem feed_word (stack : List Frame) (next : Char) (rest : List Char) (v : Json) :
    feed (.atom stack (.word next rest v)) (next :: rest) = (close stack v).toOption := by
  induction rest generalizing next with
  | nil =>
    simp only [feed, step, Atom.step, if_true]
    cases close stack v <;> rfl
  | cons c cs ih =>
    rw [feed]
    simp only [step, Atom.step, if_true]
    exact ih c

theorem feed_null (stack : List Frame) :
    feed (.gap ⟨stack, .value⟩) Tree.null.chars = (close stack .null).toOption := by
  rw [Tree.chars]
  exact feed_word stack 'u' ['l', 'l'] .null

theorem feed_bool (stack : List Frame) (b : Bool) :
    feed (.gap ⟨stack, .value⟩) (Tree.bool b).chars = (close stack (.bool b)).toOption := by
  cases b with
  | false =>
    rw [Tree.chars]
    exact feed_word stack 'a' ['l', 's', 'e'] (.bool false)
  | true =>
    rw [Tree.chars]
    exact feed_word stack 'r' ['u', 'e'] (.bool true)

theorem feed_string (stack : List Frame) (ps : List Piece) :
    feed (.gap ⟨stack, .value⟩) (Tree.string ps).chars =
      (text? ps).bind fun s => (close stack (.string s)).toOption := by
  rw [Tree.chars, ← feed_text]
  rfl

theorem begin?_digit (d : Digit) :
    Atom.begin? d.toChar = some (.number ((Numeral.signed false).first d)) := by
  have hother : d.toChar ≠ 'n' ∧ d.toChar ≠ 't' ∧ d.toChar ≠ 'f' ∧ d.toChar ≠ '"' ∧
      d.toChar ≠ '-' := by
    revert d
    decide
  simp [Atom.begin?, Numeral.begin?, hother, Digit.ofChar?_toChar]

theorem begin_atom {c : Char} {a : Atom} (h : Atom.begin? c = some a) (stack : List Frame) :
    begin stack c = .ok (.atom stack a) := by
  unfold begin
  rw [h]

theorem isBlank_digit (d : Digit) : isBlank d.toChar = false := by
  revert d
  decide

/-- A number is read to its last digit. -/
theorem feed_literal (stack : List Frame) (l : Literal) :
    ∃ n : Numeral, n.complete ∧ n.value = l.number ∧
      feed (.gap ⟨stack, .value⟩) l.chars = some (.atom stack (.number n)) := by
  obtain ⟨n, hscan, hcomplete, hvalue⟩ := Numeral.scan_literal l
  refine ⟨n, hcomplete, hvalue, ?_⟩
  have hfirst : feed (.gap ⟨stack, .value⟩) l.chars =
      feed (.atom stack (.number ((Numeral.signed l.negative).first l.first))) l.tailChars := by
    unfold Literal.chars
    cases l.negative with
    | false =>
      simp only [Bool.false_eq_true, if_false, List.nil_append]
      rw [feed_place (isBlank_digit l.first), stepPlace, begin_atom (begin?_digit l.first)]
      rfl
    | true =>
      have hdigit : (Numeral.signed true).step l.first.toChar =
          .more ((Numeral.signed true).first l.first) := by
        simp [Numeral.step, Numeral.signed, Digit.ofChar?_toChar]
      have hsign : feed (.gap ⟨stack, .value⟩) ['-'] =
          some (.atom stack (.number (Numeral.signed true))) := rfl
      simp only [if_true]
      rw [feed_append, hsign, Option.bind_some, feed, step_number, hdigit]
      rfl
  rw [hfirst]
  exact (carries_number stack).feed_scan hscan

end Document
end GoShape.Json
