import GoShape.Proofs.MarkedPlaces

/-! What the rest of a reading depends on. A token that is being read, and all that is open around it,
have an outline: the fraction digits of a number count by their number, a string counts as it is
marked, and the parts of lists and objects do not count. A step leads from states with one outline to
states with one outline, or to faults of which the same is told. -/
namespace GoShape.Json

/-- The same place stands behind a character and behind the mark that is written for it. -/
theorem Position.within_marked (behind : Bool) (p : Position) (c : Char) (bytes : Nat) :
    p.within (if behind ∧ c = '0' then '1' else c) bytes = p.within c bytes :=
  apply_marked (f := fun c => p.within c bytes) (fun _ => rfl) c

theorem Position.past_marked (behind : Bool) (p : Position) (c : Char) :
    p.past (if behind ∧ c = '0' then '1' else c) = p.past c := by
  rw [Position.past, utf8Size_marked, Position.within_marked, Position.past]

/-- Two readings go on to one outline, or meet the same fault. -/
def Reading.Onward {σ τ α : Type} (f : σ → τ) (r r' : Reading σ α) : Prop :=
  (∃ s s', r = .more s ∧ r' = .more s' ∧ f s = f s') ∨ ∃ e, r = .fault e ∧ r' = .fault e

theorem Reading.Onward.map_eq {σ τ α β : Type} {f : σ → τ} {r r' : Reading σ α}
    (h : Reading.Onward f r r') (g : α → β) : r.map f g = r'.map f g := by
  obtain ⟨s, s', rfl, rfl, hs⟩ | ⟨e, rfl, rfl⟩ := h
  · exact congrArg Reading.more hs
  · rfl

/-! ### Numbers -/

/-- So many digits, whatever they are. -/
def outlineDigits (ds : List Digit) : List Digit := ds.map fun _ => ⟨0, by decide⟩

theorem outlineDigits_outlineDigits (ds : List Digit) :
    outlineDigits (outlineDigits ds) = outlineDigits ds := by
  rw [outlineDigits, outlineDigits, List.map_map]
  rfl

theorem outlineDigits_reverse (ds : List Digit) :
    outlineDigits ds.reverse = (outlineDigits ds).reverse :=
  List.map_reverse

def Number.outline (n : Number) : Number := { n with fraction := outlineDigits n.fraction }

theorem Number.outline_outline (n : Number) : n.outline.outline = n.outline := by
  simp only [Number.outline, outlineDigits_outlineDigits]

/-- A number is described by its integer, and a number with a fraction has none. -/
theorem Number.signedWord?_outline (n : Number) : n.outline.signedWord? = n.signedWord? := by
  obtain ⟨negative, whole, fraction, exponent⟩ := n
  cases fraction <;> rfl

namespace Numeral

def outline (n : Numeral) : Numeral := { n with fraction := outlineDigits n.fraction }

theorem phase_of_outline {n n' : Numeral} (h : n.outline = n'.outline) : n.phase = n'.phase := by
  have hphase := congrArg phase h
  exact hphase

theorem value_outline (n : Numeral) : n.outline.value = n.value.outline := by
  simp only [outline, value, Number.outline, outlineDigits_reverse]
  rfl

/-- The outline of what a step leads to. -/
def outlineReading : Reading Numeral Number → Reading Numeral Number :=
  Reading.map outline Number.outline

theorem outlineReading_value (n : Numeral) :
    outlineReading (.before n.outline.value) = outlineReading (.before n.value) := by
  simp only [outlineReading, Reading.map, value_outline, Number.outline_outline]

/-- A number goes on to the same outline if as many fraction digits are read as before. -/
theorem outlineReading_more {n n' : Numeral} (h : n.outline = n'.outline) :
    outlineReading (.more n) = outlineReading (.more n') :=
  congrArg Reading.more h

theorem outline_phase (n : Numeral) (phase : Phase) :
    outline { n.outline with phase := phase } = outline { n with phase := phase } := by
  simp only [outline, outlineDigits_outlineDigits]

theorem afterWhole_outline (n : Numeral) (c : Char) :
    outlineReading (n.outline.afterWhole c) = outlineReading (n.afterWhole c) := by
  unfold afterWhole
  split_ifs
  · exact outlineReading_more (n.outline_phase .point)
  · exact outlineReading_more (n.outline_phase .mark)
  · exact outlineReading_value n

theorem afterFraction_outline (n : Numeral) (c : Char) :
    outlineReading (n.outline.afterFraction c) = outlineReading (n.afterFraction c) := by
  unfold afterFraction
  split_ifs
  · exact outlineReading_more (n.outline_phase .mark)
  · exact outlineReading_value n

theorem step_outline (n : Numeral) (c : Char) :
    outlineReading (n.outline.step c) = outlineReading (n.step c) := by
  have hphase : n.outline.phase = n.phase := rfl
  have hdigits (d : Digit) (ds : List Digit) :
      outlineDigits (d :: outlineDigits ds) = outlineDigits (d :: ds) :=
    congrArg (List.cons _) (outlineDigits_outlineDigits ds)
  unfold step
  rw [hphase]
  split
  -- where no digit follows, the phases that may end have lemmas of their own
  case h_9 | h_10 => exact afterWhole_outline n c
  case h_11 => exact afterFraction_outline n c
  case h_12 => exact outlineReading_value n
  case h_13 =>
    split_ifs
    · refine outlineReading_more ?_
      simp only [outline, outlineDigits_outlineDigits]
    · rfl
  all_goals
    simp only [outlineReading, Reading.map, outline, first, hdigits, outlineDigits_outlineDigits]

theorem finish_outline (n : Numeral) :
    n.outline.finish.map Number.outline = n.finish.map Number.outline := by
  have hcomplete : n.outline.complete = n.complete := rfl
  unfold finish
  rw [hcomplete]
  split_ifs
  · simp [Except.map, value_outline, Number.outline_outline]
  · rfl

theorem onward_point {n : Numeral} (hn : n.phase = .point) :
    Reading.Onward outline (n.step '1') (n.step '0') := by
  have hdigit (d : Digit) (c : Char) (hc : Digit.ofChar? c = some d) :
      n.step c = .more { n with phase := .fraction, fraction := [d] } := by
    simp only [step, hn, hc]
  exact .inl ⟨_, _, hdigit 1 '1' (by decide), hdigit 0 '0' (by decide), rfl⟩

theorem phase_of_step_point {n n' : Numeral} (h : n.step '.' = .more n') : n'.phase = .point := by
  have hdigit : Digit.ofChar? '.' = none := by decide
  cases hn : n.phase
  case zero | whole =>
    simp only [step, hn, hdigit, afterWhole, if_true] at h
    cases h
    rfl
  all_goals simp [step, hn, hdigit, afterFraction] at h

/-- Numbers of one outline lead on to one outline, where only one of the two texts is marked. -/
theorem step_marked {n n' : Numeral} (h : n.outline = n'.outline) {behind : Bool}
    (hbehind : behind = true → n.phase = .point) (c : Char) :
    outlineReading (n.step (if behind ∧ c = '0' then '1' else c)) = outlineReading (n'.step c) := by
  have hsame : outlineReading (n.step c) = outlineReading (n'.step c) := by
    rw [← step_outline n c, h, step_outline n' c]
  have hmark := apply_marked (f := fun c => outlineReading (n.step c))
    (fun hb => (onward_point (hbehind hb)).map_eq Number.outline) c
  exact hmark.trans hsame

theorem stopAt_marked (taken : Bool) (p : Position) (c : Char) (behind : Bool) (rest : List Char) :
    stopAt taken p (if behind ∧ c = '0' then '1' else c) (markFrom (c = '.') rest) =
      stopAt taken p c rest := by
  cases rest <;>
    simp only [stopAt, markFrom, Position.within_marked, Position.past_marked, utf8Size_marked]

/-- A number is read alike from a text and from the marked text, up to its outline. -/
theorem readOn_markFrom {n n' : Numeral} (h : n.outline = n'.outline) {behind : Bool}
    (hbehind : behind = true → n.phase = .point) (p : Position) (cs : List Char) :
    (n.readOn p (markFrom behind cs)).map Number.outline =
      (n'.readOn p cs).map Number.outline := by
  induction cs generalizing n n' behind p with
  | nil =>
    have hfinish : n.finish.map Number.outline = n'.finish.map Number.outline := by
      rw [← finish_outline n, h, finish_outline n']
    have hmap (x : Except Cause Number) :
        (x.mapError fun cause => (⟨cause, p⟩ : ReadError)).map Number.outline =
          (x.map Number.outline).mapError fun cause => ⟨cause, p⟩ := by
      cases x <;> rfl
    rw [markFrom, readOn, readOn, hmap, hmap, hfinish]
  | cons c cs ih =>
    have hstep := step_marked h hbehind c
    have htakes : n.takesWrong = n'.takesWrong := by
      rw [takesWrong, takesWrong, phase_of_outline h]
    have hpoint {m : Numeral} (hm : n.step (if behind ∧ c = '0' then '1' else c) = .more m) :
        decide (c = '.') = true → m.phase = .point := by
      intro hc
      obtain rfl := of_decide_eq_true hc
      exact phase_of_step_point (by simpa using hm)
    simp only [markFrom, readOn, Position.past_marked, Position.within_marked]
    cases hr : n.step (if behind ∧ c = '0' then '1' else c) <;> cases hr' : n'.step c <;>
      simp only [hr, hr', outlineReading, Reading.map, reduceCtorEq] at hstep
    case more.more m m' => exact ih (Reading.more.inj hstep) (hpoint hr) _
    case last.last => rfl
    case before.before => rfl
    case fault.fault => rw [htakes, stopAt_marked]

theorem ofText_forceFractional (s : String) :
    (ofText (forceFractional s)).map Number.outline = (ofText s).map Number.outline := by
  rw [ofText, toList_forceFractional, markFractions_eq, ofText]
  cases s.toList with
  | nil => rfl
  | cons c cs =>
    simp only [markFrom, Bool.false_eq_true, false_and, if_false]
    cases hc : begin? c with
    | none => rfl
    | some n =>
      refine readOn_markFrom rfl ?_ _ cs
      intro h
      obtain rfl := of_decide_eq_true h
      have hnone : begin? '.' = none := by decide
      rw [hnone] at hc
      cases hc

end Numeral

/-! ### Strings -/

namespace Quoted

/-- The characters of a string that is being read, marked as if the string ended here. -/
def outline (q : Quoted) : Quoted := { q with chars := (markFractions q.chars.reverse).reverse }

theorem outline_outline (q : Quoted) : q.outline.outline = q.outline := by
  have h := markFrom_markFrom_append false q.chars.reverse []
  simp only [List.append_nil, ← markFractions_eq] at h
  simp [outline, h]

theorem value_outline (q : Quoted) : q.outline.value = forceFractional q.value := by
  simp [outline, value, forceFractional]

theorem outline_push (q : Quoted) (c : Char) : (q.outline.push c).outline = (q.push c).outline := by
  have h := markFrom_markFrom_append false q.chars.reverse [c]
  simp only [← markFractions_eq] at h
  simp [outline, push, h]

def outlineReading : Reading Quoted String → Reading Quoted String :=
  Reading.map outline forceFractional

theorem outlineReading_phase (q : Quoted) (phase : Phase) :
    outlineReading (.more { q.outline with phase := phase }) =
      outlineReading (.more { q with phase := phase }) :=
  congrArg Reading.more (outline_outline { q with phase := phase })

theorem outlineReading_push (q : Quoted) (c : Char) :
    outlineReading (.more (q.outline.push c)) = outlineReading (.more (q.push c)) :=
  congrArg Reading.more (outline_push q c)

theorem accept_outline (q : Quoted) (lead : Option Nat) (code : Nat) :
    outlineReading (q.outline.accept lead code) = outlineReading (q.accept lead code) := by
  cases lead with
  | some l =>
    simp only [accept]
    split_ifs
    · exact outlineReading_push q (pair l code)
    · rfl
  | none =>
    simp only [accept]
    split_ifs
    · rfl
    · exact outlineReading_phase q (.secondEscape code)
    · exact outlineReading_push q (Char.ofNat code)

theorem step_outline (q : Quoted) (c : Char) :
    outlineReading (q.outline.step c) = outlineReading (q.step c) := by
  have hq : q.outline.phase = q.phase := rfl
  unfold step
  rw [hq]
  split
  case h_1 =>
    split_ifs
    · simp only [outlineReading, Reading.map, value_outline, forceFractional_forceFractional]
    · exact outlineReading_phase q .escape
    · rfl
    · exact outlineReading_push q c
  case h_2 =>
    split_ifs
    · exact outlineReading_phase q (.code none .start)
    · cases escaped? c with
      | some e => exact outlineReading_push q e
      | none => rfl
  case h_3 lead w _ =>
    cases w.step c with
    | more w' => exact outlineReading_phase q (.code lead w')
    | last n => exact accept_outline q lead n
    | before n => exact accept_outline q lead n
    | fault e => rfl
  case h_4 lead _ =>
    split_ifs
    · exact outlineReading_phase q (.secondMark lead)
    · rfl
  case h_5 lead _ =>
    split_ifs
    · exact outlineReading_phase q (.code (some lead) .start)
    · rfl

end Quoted

/-! ### Values and what is open around them -/

/-- A string is the marked one, and a list or an object is without its parts. -/
def outline : Json → Json
  | .number n => .number n.outline
  | .string s => .string (forceFractional s)
  | .array _ => .array []
  | .object _ => .object []
  | v => v

theorem outline_outline (v : Json) : v.outline.outline = v.outline := by
  cases v <;> simp [outline, Number.outline_outline, forceFractional_forceFractional]

/-- Only of a string more is shown than its outline. -/
theorem described_outline {v : Json} (h : ∀ s, v ≠ .string s) :
    v.outline.described = v.described := by
  cases v with
  | string s => exact absurd rfl (h s)
  | number n => simp only [outline, described, Number.signedWord?_outline]
  | _ => rfl

def Atom.outline : Atom → Atom
  | .word next rest v => .word next rest v.outline
  | .number n => .number n.outline
  | .text q => .text q.outline

def Atom.outlineReading : Reading Atom Json → Reading Atom Json :=
  Reading.map outline Json.outline

theorem Atom.step_outline (a : Atom) (c : Char) :
    outlineReading (a.outline.step c) = outlineReading (a.step c) := by
  have hnumber (r : Reading Numeral Number) : outlineReading (r.map .number .number) =
      (Numeral.outlineReading r).map .number .number := by
    cases r <;> rfl
  have htext (r : Reading Quoted String) : outlineReading (r.map .text .string) =
      (Quoted.outlineReading r).map .text .string := by
    cases r <;> rfl
  cases a with
  | word next rest v =>
    simp only [outline, step]
    split_ifs
    · cases rest <;> simp only [outlineReading, Reading.map, outline, Json.outline_outline]
    · rfl
  | number n => simp only [outline, step, hnumber, Numeral.step_outline]
  | text q => simp only [outline, step, htext, Quoted.step_outline]

theorem Atom.finish_outline (a : Atom) :
    a.outline.finish.map Json.outline = a.finish.map Json.outline := by
  have hnumber (x : Except Cause Number) :
      (x.map Json.number).map Json.outline = (x.map Number.outline).map Json.number := by
    cases x <;> rfl
  cases a with
  | number n => simp only [outline, finish, hnumber, Numeral.finish_outline]
  | word next rest v => rfl
  | text q => rfl

/-- Whether there is a member. -/
def outlineMembers (members : List (String × Json)) : List (String × Json) :=
  if members.isEmpty then [] else [("", .null)]

def Frame.outline : Frame → Frame
  | .list _ => .list []
  | .object _ _ => .object [] ""
  | .numeral => .numeral

theorem isEmpty_outlineMembers (members : List (String × Json)) :
    (outlineMembers members).isEmpty = members.isEmpty := by
  cases members <;> rfl

theorem outlineMembers_outlineMembers (members : List (String × Json)) :
    outlineMembers (outlineMembers members) = outlineMembers members := by
  cases members <;> rfl

theorem outlineMembers_setMember (key : String) (v : Json) (members : List (String × Json)) :
    outlineMembers (setMember key v members) = [("", .null)] := by
  cases members with
  | nil => rfl
  | cons m members =>
    simp only [setMember]
    split_ifs <;> rfl

theorem map_outline_outline (stack : List Frame) :
    (stack.map Frame.outline).map Frame.outline = stack.map Frame.outline := by
  rw [List.map_map]
  congr 1
  funext frame
  cases frame <;> rfl

/-- What is told of a fault: the message and where the fault lies. -/
def Fault.told : Fault → String × (Nat ⊕ Position)
  | .here cause bytes => (cause.message, .inl bytes)
  | .inside error => (error.cause.message, .inr error.position)

/-- An outcome up to what is told of a fault. -/
def tell {α β : Type} (f : α → β) : Except Fault α → Except (String × (Nat ⊕ Position)) β
  | .ok a => .ok (f a)
  | .error e => .error e.told

/-- What goes on alike after two outcomes that are alike. -/
theorem tell_bind {α α' γ γ' : Type} {f : α → α'} {x y : Except Fault α} {g : γ → γ'}
    {k : α → Except Fault γ} (h : tell f x = tell f y)
    (hk : ∀ a b, f a = f b → tell g (k a) = tell g (k b)) :
    tell g (x.bind k) = tell g (y.bind k) := by
  cases x with
  | error e =>
    cases y with
    | error e' => exact congrArg Except.error (Except.error.inj h)
    | ok b => cases h
  | ok a =>
    cases y with
    | error e' => cases h
    | ok b => exact hk a b (Except.ok.inj h)

namespace Document

def Place.outline : Place → Place
  | .afterItem _ => .afterItem []
  | .nextItem _ => .nextItem []
  | .colon _ _ => .colon [] ""
  | .afterMember members => .afterMember (outlineMembers members)
  | .nextMember members => .nextMember (outlineMembers members)
  | .numeralEnd n => .numeralEnd n.outline
  | .done _ => .done .null
  | place => place

def Gap.outline (g : Gap) : Gap := ⟨g.stack.map Frame.outline, g.place.outline⟩

def State.outline : State → State
  | .gap g => .gap g.outline
  | .atom stack a => .atom (stack.map Frame.outline) a.outline
  | .key stack members q => .key (stack.map Frame.outline) (outlineMembers members) q.outline

theorem Place.outline_outline (place : Place) : place.outline.outline = place.outline := by
  cases place <;> simp [outline, outlineMembers_outlineMembers, Number.outline_outline]

theorem Gap.outline_outline (g : Gap) : g.outline.outline = g.outline := by
  simp only [outline, map_outline_outline, Place.outline_outline]

theorem message_wrongType (found : Json) (wanted : String) :
    (Cause.wrongType found wanted).message =
      "invalid type: " ++ found.described ++ ", expected " ++ wanted :=
  rfl

theorem numeralOf_of_ne_string {v : Json} (h : ∀ s, v ≠ .string s) (bytes : Nat)
    (stack : List Frame) : numeralOf bytes stack v =
      .error (.here (.wrongType v "string containing a number") bytes) := by
  cases v with
  | string s => exact absurd rfl (h s)
  | _ => rfl

theorem numeralOf_outline (bytes : Nat) (stack : List Frame) (v : Json) :
    tell Gap.outline (numeralOf bytes (stack.map Frame.outline) v.outline) =
      tell Gap.outline (numeralOf bytes stack v) := by
  have hother (h : ∀ s, v ≠ .string s) (h' : ∀ s, v.outline ≠ .string s) :
      tell Gap.outline (numeralOf bytes (stack.map Frame.outline) v.outline) =
        tell Gap.outline (numeralOf bytes stack v) := by
    simp only [numeralOf_of_ne_string h, numeralOf_of_ne_string h', tell, Fault.told,
      message_wrongType, described_outline h]
  cases v with
  | string s =>
    have h := Numeral.ofText_forceFractional s
    simp only [Json.outline, numeralOf]
    cases hs : Numeral.ofText s <;> cases hs' : Numeral.ofText (forceFractional s) <;>
      simp only [hs, hs', Except.map, reduceCtorEq, Except.ok.injEq, Except.error.injEq] at h
    case ok.ok n n' =>
      simp only [tell, Gap.outline, map_outline_outline, Place.outline, h]
    case error.error e e' => rw [h]
  | _ => exact hother (by simp) (by simp [Json.outline])

theorem deliver_outline (bytes : Nat) (stack : List Frame) (v : Json) :
    tell Gap.outline (deliver bytes (stack.map Frame.outline) v.outline) =
      tell Gap.outline (deliver bytes stack v) := by
  cases stack with
  | nil => rfl
  | cons frame rest =>
    cases frame with
    | list items =>
      simp only [List.map_cons, Frame.outline, deliver, tell, Gap.outline, map_outline_outline,
        Place.outline]
    | object members key =>
      simp only [List.map_cons, Frame.outline, deliver, tell, Gap.outline, map_outline_outline,
        Place.outline, outlineMembers_setMember]
    | numeral => exact numeralOf_outline bytes rest v

theorem deliver_congr {stack stack' : List Frame} {v v' : Json}
    (hstack : stack.map Frame.outline = stack'.map Frame.outline) (hv : v.outline = v'.outline)
    (bytes : Nat) :
    tell Gap.outline (deliver bytes stack v) = tell Gap.outline (deliver bytes stack' v') := by
  rw [← deliver_outline, hstack, hv, deliver_outline]

theorem tell_map_gap (x : Except Fault Gap) :
    tell State.outline (x.map .gap) = (tell Gap.outline x).map .gap := by
  cases x <;> rfl

theorem close_congr {stack stack' : List Frame} {v v' : Json}
    (hstack : stack.map Frame.outline = stack'.map Frame.outline) (hv : v.outline = v'.outline) :
    tell State.outline (close stack v) = tell State.outline (close stack' v') := by
  simp only [close, tell_map_gap, deliver_congr hstack hv]

theorem enter_outline (stack : List Frame) (place : Place) :
    tell State.outline (enter (stack.map Frame.outline) place) =
      tell State.outline (enter stack place) := by
  unfold enter
  rw [List.length_map]
  split_ifs
  · simp only [tell, State.outline, Gap.outline, map_outline_outline]
  · rfl

/-- A bracket opens a list or an object, where no text of a number is wanted. -/
theorem begin_bracket_outline {c : Char} {place : Place} {v : Json} (hv : v.outline = v)
    (hnumeral : ∀ rest, begin (.numeral :: rest) c = (numeralOf 0 rest v).map .gap)
    (hordinary : ∀ stack, Ordinary stack → begin stack c = enter stack place)
    (stack : List Frame) :
    tell State.outline (begin (stack.map Frame.outline) c) =
      tell State.outline (begin stack c) := by
  have henter (h : Ordinary stack) (h' : Ordinary (stack.map Frame.outline)) :
      tell State.outline (begin (stack.map Frame.outline) c) =
        tell State.outline (begin stack c) := by
    rw [hordinary _ h, hordinary _ h', enter_outline]
  cases stack with
  | nil => rfl
  | cons frame rest =>
    cases frame with
    | list items => exact henter trivial trivial
    | object members key => exact henter trivial trivial
    | numeral =>
      have h := numeralOf_outline 0 rest v
      rw [hv] at h
      rw [List.map_cons, Frame.outline, hnumeral, hnumeral, tell_map_gap, tell_map_gap, h]

theorem begin_outline (stack : List Frame) (c : Char) :
    tell State.outline (begin (stack.map Frame.outline) c) =
      tell State.outline (begin stack c) := by
  by_cases hlist : c = '['
  · subst hlist
    have hordinary (stack : List Frame) (h : Ordinary stack) := h.begin_bracket.1
    exact begin_bracket_outline (v := .array []) rfl (fun _ => rfl) hordinary stack
  by_cases hobject : c = '{'
  · subst hobject
    have hordinary (stack : List Frame) (h : Ordinary stack) := h.begin_bracket.2
    exact begin_bracket_outline (v := .object []) rfl (fun _ => rfl) hordinary stack
  cases ha : Atom.begin? c with
  | some a =>
    simp only [begin_atom ha, tell, State.outline, map_outline_outline]
  | none =>
    have hnone (stack : List Frame) : begin stack c = .error (.here .expectedValue 1) := by
      simp only [begin, ha]
      split
      · exact absurd rfl hlist
      · exact absurd rfl hobject
      · exact absurd rfl hlist
      · exact absurd rfl hobject
      · rfl
    rw [hnone, hnone]

/-- The key of a number that is written as an object has no point, and so no other key is marked as
this one. -/
theorem forceFractional_eq_numeralKey {k : String} :
    forceFractional k = numeralKey ↔ k = numeralKey := by
  constructor
  · intro h
    have hmarked : '.' ∉ markFrom false k.toList := by
      rw [← markFractions_eq, ← toList_forceFractional, h]
      decide
    have hnone : ¬ ['.', '0'] <:+: k.toList := fun hmark =>
      hmarked (point_mem_markFrom.mpr (hmark.subset (by simp)))
    rw [← h, ← String.toList_inj, toList_forceFractional, markFractions_eq_self_iff.mpr hnone]
  · rintro rfl
    decide

theorem afterKey_outline {k k' : String} (h : forceFractional k = forceFractional k')
    (members : List (String × Json)) :
    (afterKey (outlineMembers members) k).outline = (afterKey members k').outline := by
  have hkey : (k == numeralKey) = (k' == numeralKey) := by
    rw [Bool.eq_iff_iff, beq_iff_eq, beq_iff_eq, ← forceFractional_eq_numeralKey, h,
      forceFractional_eq_numeralKey]
  unfold afterKey
  rw [isEmpty_outlineMembers, hkey]
  split_ifs <;> rfl

theorem stepPlace_outline (stack : List Frame) (c : Char) (place : Place) :
    tell State.outline (stepPlace (stack.map Frame.outline) c place.outline) =
      tell State.outline (stepPlace stack c place) := by
  have hgap (stack stack' : List Frame) (place place' : Place)
      (hstack : stack.map Frame.outline = stack'.map Frame.outline)
      (hplace : place.outline = place'.outline) :
      tell State.outline (.ok (.gap ⟨stack, place⟩)) =
        tell State.outline (.ok (.gap ⟨stack', place'⟩)) := by
    simp only [tell, State.outline, Gap.outline, hstack, hplace]
  have hstack := map_outline_outline stack
  cases place with
  | value => exact begin_outline stack c
  | listStart =>
    simp only [Place.outline, stepPlace]
    split_ifs
    · exact close_congr hstack rfl
    · exact begin_outline (.list [] :: stack) c
  | afterItem items =>
    simp only [Place.outline, stepPlace]
    split_ifs
    · exact hgap _ _ _ _ hstack rfl
    · exact close_congr hstack rfl
    · rfl
  | nextItem items =>
    simp only [Place.outline, stepPlace]
    split_ifs
    · rfl
    · exact begin_outline (.list items :: stack) c
  | objectStart =>
    simp only [Place.outline, stepPlace]
    split_ifs
    · simp only [tell, State.outline, hstack]
    · exact close_congr hstack rfl
    · rfl
  | colon members key =>
    simp only [Place.outline, stepPlace]
    split_ifs
    · refine hgap _ _ _ _ ?_ rfl
      exact map_outline_outline (.object members key :: stack)
    · rfl
  | afterMember members =>
    simp only [Place.outline, stepPlace]
    split_ifs
    · refine hgap _ _ _ _ hstack ?_
      simp only [Place.outline, outlineMembers_outlineMembers]
    · exact close_congr hstack rfl
    · rfl
  | nextMember members =>
    simp only [Place.outline, stepPlace]
    split_ifs
    · simp only [tell, State.outline, hstack, outlineMembers_outlineMembers]
    · rfl
    · rfl
  | numeralColon =>
    simp only [Place.outline, stepPlace]
    split_ifs
    · refine hgap _ _ _ _ ?_ rfl
      exact map_outline_outline (.numeral :: stack)
    · rfl
  | numeralEnd n =>
    simp only [Place.outline, stepPlace]
    split_ifs
    · exact close_congr hstack (congrArg Json.number n.outline_outline)
    · rfl
    · rfl
  | done v => rfl

theorem stepGap_outline (g : Gap) (c : Char) :
    tell State.outline (stepGap g.outline c) = tell State.outline (stepGap g c) := by
  unfold stepGap
  split_ifs
  · simp only [tell, State.outline, Gap.outline_outline]
  · exact stepPlace_outline g.stack c g.place

theorem stepGap_congr {g g' : Gap} (h : g.outline = g'.outline) (c : Char) :
    tell State.outline (stepGap g c) = tell State.outline (stepGap g' c) := by
  rw [← stepGap_outline, h, stepGap_outline]

/-- One step from the outline of a state and one from the state itself come out alike. -/
theorem step_outline (s : State) (c : Char) :
    tell State.outline (step s.outline c) = tell State.outline (step s c) := by
  have hstack (stack : List Frame) := map_outline_outline stack
  cases s with
  | gap g => exact stepGap_outline g c
  | atom stack a =>
    have h := Atom.step_outline a c
    simp only [State.outline, step]
    cases hr : a.step c <;> cases hr' : a.outline.step c <;>
      simp only [hr, hr', Atom.outlineReading, Reading.map, reduceCtorEq] at h
    case more.more b b' =>
      simp only [tell, State.outline, hstack, Reading.more.inj h]
    case last.last v v' => exact close_congr (hstack stack) (Reading.last.inj h)
    case before.before v v' =>
      have hdeliver := deliver_congr (hstack stack) (Reading.before.inj h) 0
      exact tell_bind hdeliver fun _ _ h => stepGap_congr h c
    case fault.fault e e' => rw [Reading.fault.inj h]
  | key stack members q =>
    have h := Quoted.step_outline q c
    simp only [State.outline, step]
    cases hr : q.step c <;> cases hr' : q.outline.step c <;>
      simp only [hr, hr', Quoted.outlineReading, Reading.map, reduceCtorEq] at h
    case more.more q' q'' =>
      simp only [tell, State.outline, hstack, outlineMembers_outlineMembers, Reading.more.inj h]
    case last.last k k' =>
      simp only [tell, State.outline, Gap.outline, hstack, afterKey_outline (Reading.last.inj h)]
    case before.before k k' =>
      simp only [tell, State.outline, Gap.outline, hstack, afterKey_outline (Reading.before.inj h)]
    case fault.fault e e' => rw [Reading.fault.inj h]

/-- States with one outline step alike. -/
theorem step_congr {s s' : State} (h : s.outline = s'.outline) (c : Char) :
    tell State.outline (step s c) = tell State.outline (step s' c) := by
  rw [← step_outline, h, step_outline]

theorem finishGap_congr {g g' : Gap} (h : g.outline = g'.outline) :
    tell (fun _ => ()) ((finishPlace g.place).mapError (.here · 0)) =
      tell (fun _ => ()) ((finishPlace g'.place).mapError (.here · 0)) := by
  have houtline (place : Place) :
      tell (fun _ => ()) ((finishPlace place).mapError (.here · 0)) =
        tell (fun _ => ()) ((finishPlace place.outline).mapError (.here · 0)) := by
    cases place <;> rfl
  have hplace : g.place.outline = g'.place.outline := congrArg Gap.place h
  rw [houtline, hplace, ← houtline]

theorem finish_outline (s : State) :
    tell (fun _ => ()) (finish s.outline) = tell (fun _ => ()) (finish s) := by
  cases s with
  | gap g => exact finishGap_congr (Gap.outline_outline g)
  | atom stack a =>
    have h := Atom.finish_outline a
    simp only [State.outline, finish]
    cases hr : a.finish <;> cases hr' : a.outline.finish <;>
      simp only [hr, hr', Except.map, reduceCtorEq, Except.ok.injEq, Except.error.injEq] at h
    case ok.ok v v' =>
      exact tell_bind (deliver_congr (map_outline_outline stack) h 0) fun _ _ h => finishGap_congr h
    case error.error e e' => rw [h]
  | key stack members q => rfl

theorem finish_congr {s s' : State} (h : s.outline = s'.outline) :
    tell (fun _ => ()) (finish s) = tell (fun _ => ()) (finish s') := by
  rw [← finish_outline, h, finish_outline]

end Document

end GoShape.Json
