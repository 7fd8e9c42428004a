import GoShape.Proofs.Outline
import GoShape.Proofs.Parts

/-! What is refused in a marked text. The reader steps through a text and through the marked text at
once, in states with one outline. Where a one stands for a zero both follow a point, and behind a
point the two lead to one outline. -/
namespace GoShape.Json

/-! ### A point in a token -/

/-- A point leads a token to where a one and a zero are alike, or ends it, or is at fault. It is
never the last character of a token. -/
inductive Reading.Pointed {σ τ α : Type} (step : σ → Char → Reading σ α) (f : σ → τ) :
    Reading σ α → Prop
  | more {s : σ} (h : Reading.Onward f (step s '1') (step s '0')) : Pointed step f (.more s)
  | before (v : α) : Pointed step f (.before v)
  | fault (e : Fault) : Pointed step f (.fault e)

/-- What a point does to a token it does to the token inside a larger one. -/
theorem Reading.Pointed.map {σ σ' τ τ' α α' : Type} {step : σ → Char → Reading σ α} {f : σ → τ}
    {step' : σ' → Char → Reading σ' α'} {f' : σ' → τ'} {r : Reading σ α} {i : σ → σ'} {j : α → α'}
    (h : Reading.Pointed step f r) (hstep : ∀ s c, step' (i s) c = (step s c).map i j)
    (hf : ∀ s s', f s = f s' → f' (i s) = f' (i s')) :
    Reading.Pointed step' f' (r.map i j) := by
  cases h with
  | more h =>
    refine .more ?_
    rw [hstep, hstep]
    obtain ⟨s, s', hs, hs', hss⟩ | ⟨e, he, he'⟩ := h
    · rw [hs, hs']
      exact .inl ⟨i s, i s', rfl, rfl, hf s s' hss⟩
    · rw [he, he']
      exact .inr ⟨e, rfl, rfl⟩
  | before v => exact .before (j v)
  | fault e => exact .fault e

theorem Numeral.pointed_step (n : Numeral) : Reading.Pointed step outline (n.step '.') := by
  have hdigit : Digit.ofChar? '.' = none := by decide
  cases hn : n.phase
  case zero | whole =>
    simp only [step, hn, hdigit, afterWhole, if_true]
    exact .more (onward_point rfl)
  case fraction | exponent =>
    have hend : n.step '.' = .before n.value := by simp [step, hn, hdigit, afterFraction]
    rw [hend]
    exact .before _
  all_goals
    have hfault : n.step '.' = .fault (.here .invalidNumber 1) := by simp [step, hn, hdigit]
    rw [hfault]
    exact .fault _

theorem HexWindow.step_of_none {w : HexWindow} (h : w.code = none) (c : Char) :
    w.step c = if w.bytes + c.utf8Size < 4 then .more ⟨w.bytes + c.utf8Size, none⟩
      else .fault (.here .invalidEscape (4 - w.bytes)) := by
  simp [step, h]

/-- A point is no digit of an escape. -/
theorem HexWindow.step_point (w : HexWindow) :
    w.step '.' = if w.bytes + 1 < 4 then .more ⟨w.bytes + 1, none⟩
      else .fault (.here .invalidEscape (4 - w.bytes)) := by
  have hdigit : hexDigit? '.' = none := by decide
  have hsize : '.'.utf8Size = 1 := by decide
  simp [step, hdigit, hsize]

namespace Quoted

theorem onward_push_point (q : Quoted) :
    Reading.Onward outline ((q.push '.').step '1') ((q.push '.').step '0') := by
  have hmark := markFrom_append_point false q.chars.reverse []
  refine .inl ⟨(q.push '.').push '1', (q.push '.').push '0', rfl, rfl, ?_⟩
  simp [outline, push, markFractions_eq, hmark]

/-- An escape with a point in it is at fault behind its four bytes, whatever they are. -/
theorem onward_code {q : Quoted} {lead : Option Nat} {w : HexWindow} (hq : q.phase = .code lead w)
    (hw : w.code = none) : Reading.Onward outline (q.step '1') (q.step '0') := by
  have hsize : '0'.utf8Size = 1 ∧ '1'.utf8Size = 1 := by decide
  simp only [step, hq, HexWindow.step_of_none hw, hsize]
  split_ifs
  · exact .inl ⟨_, _, rfl, rfl, rfl⟩
  · exact .inr ⟨_, rfl, rfl⟩

theorem pointed_step (q : Quoted) : Reading.Pointed step outline (q.step '.') := by
  cases hq : q.phase with
  | plain =>
    have hstep : q.step '.' = .more (q.push '.') := by
      simp only [step, hq]
      rfl
    rw [hstep]
    exact .more (onward_push_point q)
  | code lead w =>
    simp only [step, hq, HexWindow.step_point]
    by_cases h : w.bytes + 1 < 4
    · simp only [if_pos h]
      exact .more (onward_code rfl rfl)
    · simp only [if_neg h]
      exact .fault _
  | escape =>
    have hfault : q.step '.' = .fault (.here .invalidEscape 1) := by simp [step, hq, escaped?]
    rw [hfault]
    exact .fault _
  | secondEscape lead | secondMark lead =>
    have hfault : q.step '.' = .fault (.here .unfinishedSurrogate 1) := by simp [step, hq]
    rw [hfault]
    exact .fault _

end Quoted

namespace Atom

/-- No letter that is to come is a point. -/
def Pointless : Atom → Prop
  | .word next rest _ => '.' ∉ next :: rest
  | _ => True

theorem pointless_begin? {c : Char} {a : Atom} (h : begin? c = some a) : a.Pointless := by
  unfold begin? at h
  split at h
  · cases h
    simp [Pointless]
  · cases h
    simp [Pointless]
  · cases h
    simp [Pointless]
  · cases h
    exact trivial
  · obtain ⟨n, -, rfl⟩ := Option.map_eq_some_iff.mp h
    exact trivial

theorem pointless_step {a a' : Atom} {c : Char} (ha : a.Pointless) (h : a.step c = .more a') :
    a'.Pointless := by
  cases a with
  | word next rest v =>
    simp only [step] at h
    split_ifs at h
    cases rest with
    | nil => cases h
    | cons w ws =>
      cases h
      exact fun hmem => ha (List.mem_cons_of_mem _ hmem)
  | number n =>
    simp only [step] at h
    cases hn : n.step c <;> simp only [hn, Reading.map, reduceCtorEq] at h
    cases h
    exact trivial
  | text q =>
    simp only [step] at h
    cases hq : q.step c <;> simp only [hq, Reading.map, reduceCtorEq] at h
    cases h
    exact trivial

theorem pointed_step {a : Atom} (ha : a.Pointless) :
    Reading.Pointed step outline (a.step '.') := by
  cases a with
  | word next rest v =>
    have hnext : '.' ≠ next := by
      rintro rfl
      exact ha List.mem_cons_self
    simp only [step, if_neg hnext]
    exact .fault _
  | number n => exact n.pointed_step.map (fun _ _ => rfl) fun _ _ => congrArg Atom.number
  | text q => exact q.pointed_step.map (fun _ _ => rfl) fun _ _ => congrArg Atom.text

end Atom

namespace Document

/-! ### A point in a document -/

/-- A one and a zero lead to one outline, or to the same fault. -/
def State.Indifferent (s : State) : Prop :=
  tell State.outline (step s '1') = tell State.outline (step s '0')

theorem indifferent_atom {a : Atom} (h : Reading.Onward Atom.outline (a.step '1') (a.step '0'))
    (stack : List Frame) : State.Indifferent (.atom stack a) := by
  unfold State.Indifferent
  obtain ⟨b, b', hb, hb', hbb⟩ | ⟨e, he, he'⟩ := h
  · simp only [step, hb, hb', tell, State.outline, hbb]
  · simp only [step, he, he']

theorem indifferent_key {q : Quoted} (h : Reading.Onward Quoted.outline (q.step '1') (q.step '0'))
    (stack : List Frame) (members : List (String × Json)) :
    State.Indifferent (.key stack members q) := by
  unfold State.Indifferent
  obtain ⟨r, r', hr, hr', hrr⟩ | ⟨e, he, he'⟩ := h
  · simp only [step, hr, hr', tell, State.outline, hrr]
  · simp only [step, he, he']

/-- Behind a key there is a colon, and no digit of any kind. -/
theorem indifferent_afterKey (stack : List Frame) (members : List (String × Json)) (k : String) :
    State.Indifferent (.gap ⟨stack, afterKey members k⟩) := by
  unfold afterKey
  split_ifs <;> rfl

/-- No point stands between two tokens. -/
theorem stepGap_point (g : Gap) (s : State) : stepGap g '.' ≠ .ok s := by
  have hbegin (stack : List Frame) : begin stack '.' = .error (.here .expectedValue 1) := rfl
  have hblank : isBlank '.' = false := by decide
  obtain ⟨stack, place⟩ := g
  cases place <;> simp [stepGap, hblank, stepPlace, hbegin]

/-- A token that has ended before a character is delivered, and then the character is read. -/
theorem exists_stepGap_of_bind {x : Except Fault Gap} {c : Char} {s : State}
    (h : x.bind (stepGap · c) = .ok s) : ∃ g, stepGap g c = .ok s := by
  cases x with
  | error e => cases h
  | ok g => exact ⟨g, h⟩

/-- No letter that is to come in a word is a point. -/
def State.Pointless : State → Prop
  | .atom _ a => a.Pointless
  | _ => True

theorem indifferent_of_step_point {s s' : State} (hs : s.Pointless) (h : step s '.' = .ok s') :
    s'.Indifferent := by
  cases s with
  | gap g => exact absurd h (stepGap_point g s')
  | atom stack a =>
    have ha := Atom.pointed_step hs
    simp only [step] at h
    generalize a.step '.' = r at ha h
    cases ha with
    | more honward =>
      cases h
      exact indifferent_atom honward stack
    | before v =>
      obtain ⟨g, hg⟩ := exists_stepGap_of_bind h
      exact absurd hg (stepGap_point g s')
    | fault e => cases h
  | key stack members q =>
    have hq := q.pointed_step
    simp only [step] at h
    generalize q.step '.' = r at hq h
    cases hq with
    | more honward =>
      cases h
      exact indifferent_key honward stack members
    | before k =>
      cases h
      exact indifferent_afterKey stack members k
    | fault e => cases h

/-! ### Words -/

theorem pointless_close {stack : List Frame} {v : Json} {s : State} (h : close stack v = .ok s) :
    s.Pointless := by
  obtain ⟨g, -, rfl⟩ := eq_gap_of_map h
  exact trivial

theorem pointless_begin {stack : List Frame} {c : Char} {s : State} (h : begin stack c = .ok s) :
    s.Pointless := by
  have henter {place : Place} (h : enter stack place = .ok s) : s.Pointless := by
    unfold enter at h
    split_ifs at h
    cases h
    exact trivial
  have hnumeral {rest : List Frame} {v : Json} (h : (numeralOf 0 rest v).map .gap = .ok s) :
      s.Pointless := by
    obtain ⟨g, -, rfl⟩ := eq_gap_of_map h
    exact trivial
  unfold begin at h
  split at h
  · rename_i a ha
    cases h
    exact Atom.pointless_begin? ha
  · split at h
    · exact hnumeral h
    · exact hnumeral h
    · exact henter h
    · exact henter h
    · cases h

theorem pointless_stepGap {g : Gap} {c : Char} {s : State} (h : stepGap g c = .ok s) :
    s.Pointless := by
  obtain ⟨stack, place⟩ := g
  unfold stepGap at h
  split_ifs at h
  · cases h
    exact trivial
  · cases place <;> simp only [stepPlace] at h <;> (try split_ifs at h) <;>
      first
      | exact pointless_close h
      | exact pointless_begin h
      | (cases h; done)
      | (cases h; exact trivial)

theorem pointless_step {s s' : State} {c : Char} (hs : s.Pointless) (h : step s c = .ok s') :
    s'.Pointless := by
  cases s with
  | gap g => exact pointless_stepGap h
  | atom stack a =>
    simp only [step] at h
    cases ha : a.step c with
    | more a' =>
      rw [ha] at h
      cases h
      exact Atom.pointless_step hs ha
    | last v =>
      rw [ha] at h
      exact pointless_close h
    | before v =>
      rw [ha] at h
      obtain ⟨g, hg⟩ := exists_stepGap_of_bind h
      exact pointless_stepGap hg
    | fault e => rw [ha] at h; cases h
  | key stack members q =>
    simp only [step] at h
    cases hq : q.step c <;> rw [hq] at h <;> cases h <;> exact trivial

end Document

/-! ### Runs -/

/-- What is reported of a text that is refused: the message, and the place that it names. -/
def refusal? {α : Type} : Except ReadError α → Option (String × Position)
  | .ok _ => none
  | .error e => some (e.message, e.position)

theorem refusal?_eq {α β : Type} {e e' : ReadError} (hcause : e.cause.message = e'.cause.message)
    (hposition : e.position = e'.position) :
    refusal? (.error e : Except ReadError α) = refusal? (.error e' : Except ReadError β) := by
  simp only [refusal?, ReadError.message, hcause, hposition]

theorem Fault.told_eq {e e' : Fault} (h : e.told = e'.told) :
    (∃ cause cause' bytes, e = .here cause bytes ∧ e' = .here cause' bytes ∧
      cause.message = cause'.message) ∨
    ∃ error error', e = .inside error ∧ e' = .inside error' ∧
      error.cause.message = error'.cause.message ∧ error.position = error'.position := by
  cases e with
  | here cause bytes =>
    cases e' with
    | here cause' bytes' =>
      simp only [told, Prod.mk.injEq, Sum.inl.injEq] at h
      obtain ⟨hcause, rfl⟩ := h
      exact .inl ⟨cause, cause', bytes, rfl, rfl, hcause⟩
    | inside error' => cases congrArg Prod.snd h
  | inside error =>
    cases e' with
    | here cause' bytes' => cases congrArg Prod.snd h
    | inside error' =>
      simp only [told, Prod.mk.injEq, Sum.inr.injEq] at h
      exact .inr ⟨error, error', rfl, rfl, h⟩

/-- Of faults of which the same is told the same is reported, at a character and at its mark. -/
theorem refusal?_locate {α : Type} {e e' : Fault} (h : e.told = e'.told) (behind : Bool)
    (p : Position) (c : Char) :
    refusal? (.error (e.locate p (if behind ∧ c = '0' then '1' else c)) : Except ReadError α) =
      refusal? (.error (e'.locate p c) : Except ReadError α) := by
  obtain ⟨cause, cause', bytes, rfl, rfl, hcause⟩ | ⟨error, error', rfl, rfl, herror⟩ :=
    Fault.told_eq h
  · exact refusal?_eq hcause (Position.within_marked behind p c bytes)
  · exact refusal?_eq herror.1 herror.2

theorem refusal?_locateEnd {α : Type} {e e' : Fault} (h : e.told = e'.told) (p : Position) :
    refusal? (.error (e.locateEnd p) : Except ReadError α) =
      refusal? (.error (e'.locateEnd p) : Except ReadError α) := by
  obtain ⟨cause, cause', bytes, rfl, rfl, hcause⟩ | ⟨error, error', rfl, rfl, herror⟩ :=
    Fault.told_eq h
  · exact refusal?_eq hcause rfl
  · exact refusal?_eq herror.1 herror.2

namespace Document

/-- States of one outline step alike, where only one of the two texts is marked. -/
theorem step_marked {s s' : State} (h : s.outline = s'.outline) {behind : Bool}
    (hbehind : behind = true → s.Indifferent) (c : Char) :
    tell State.outline (step s (if behind ∧ c = '0' then '1' else c)) =
      tell State.outline (step s' c) := by
  have hmark := apply_marked (f := fun c => tell State.outline (step s c)) hbehind c
  exact hmark.trans (step_congr h c)

theorem refusal?_run {s s' : State} (h : s.outline = s'.outline) (hs : s.Pointless) {behind : Bool}
    (hbehind : behind = true → s.Indifferent) (p : Position) (cs : List Char) :
    refusal? (run s p (markFrom behind cs)) = refusal? (run s' p cs) := by
  induction cs generalizing s s' behind p with
  | nil =>
    have hfinish := finish_congr h
    simp only [markFrom, run]
    cases hr : finish s <;> cases hr' : finish s' <;>
      simp only [hr, hr', tell, reduceCtorEq, Except.error.injEq] at hfinish
    case ok.ok v v' => rfl
    case error.error e e' => exact refusal?_locateEnd hfinish p
  | cons c cs ih =>
    have hstep := step_marked h hbehind c
    simp only [markFrom, run, Position.past_marked]
    cases hr : step s (if behind ∧ c = '0' then '1' else c) <;> cases hr' : step s' c <;>
      simp only [hr, hr', tell, reduceCtorEq, Except.ok.injEq, Except.error.injEq] at hstep
    case ok.ok t t' =>
      refine ih hstep (pointless_step hs hr) ?_ _
      intro hc
      obtain rfl := of_decide_eq_true hc
      exact indifferent_of_step_point hs (by simpa using hr)
    case error.error e e' => exact refusal?_locate hstep behind p c

end Document

/-- Marking changes neither whether a text is accepted nor what is reported if it is refused. -/
theorem refusal?_parse_forceFractional (text : String) :
    refusal? (parse (forceFractional text)) = refusal? (parse text) := by
  rw [parse, parse, toList_forceFractional, markFractions_eq]
  exact Document.refusal?_run (s := Document.start) rfl trivial (by simp) .start text.toList

end GoShape.Json

namespace GoShape

open Json

/-- A text and the marked text are both accepted or both refused, with one message that names one
place. So the error of a conversion, which reads the marked text, is the one of the text that was
given. -/
theorem refusal?_forceFractional (text : String) :
    refusal? (parse (forceFractional text)) = refusal? (parse text) ∧
      ∀ options : Options, (convert text options).error =
        match exceeded? text options with
        | some limit => some (ConvertError.tooLarge text.utf8ByteSize limit).message
        | none => (refusal? (parse text)).map Prod.fst := by
  have h := refusal?_parse_forceFractional text
  refine ⟨h, fun options => ?_⟩
  rw [convert, declare, attempt]
  cases exceeded? text options with
  | some limit => rfl
  | none =>
    rw [← h, sampleType]
    cases parse (forceFractional text) <;> rfl

example : refusal? (parse (forceFractional "[1.0, .0]")) =
    some ("expected value at line 1 column 7", ⟨1, 7⟩) := by decide +kernel

end GoShape
