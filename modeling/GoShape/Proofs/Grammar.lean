import GoShape.Proofs.Tokens

/-! The reader of documents on the texts of the grammar. A text is read exactly if its tree has a
value, and then as that value: nothing that the grammar derives is refused but for the brackets that
are nested too deep, the halves of surrogate pairs and the objects that promise a number, and the
blanks make no difference. -/
namespace GoShape.Json

namespace Document
open Syntax Reading

/-! ### The end of a value -/

/-- Values are wanted here, and not the text of a number. -/
def Ordinary : List Frame → Prop
  | .numeral :: _ => False
  | _ => True

theorem Ordinary.deliver {stack : List Frame} (h : Ordinary stack) (v : Json) :
    ∃ g, ∀ bytes, deliver bytes stack v = .ok g := by
  cases stack with
  | nil => exact ⟨_, fun _ => rfl⟩
  | cons frame rest =>
    cases frame with
    | list items => exact ⟨_, fun _ => rfl⟩
    | object members key => exact ⟨_, fun _ => rfl⟩
    | numeral => exact h.elim

/-- A state in which a value has ended at a place, as far as what follows can tell. -/
structure Settles (s : State) (g : Gap) : Prop where
  finish : finish s = finish (.gap g)
  step : ∀ c, endsToken c → step s c = step (.gap g) c

theorem Settles.refl (g : Gap) : Settles (.gap g) g := ⟨rfl, fun _ _ => rfl⟩

theorem settles_number {stack : List Frame} {n : Numeral} {g : Gap} (hn : n.complete)
    (hg : deliver 0 stack (.number n.value) = .ok g) : Settles (.atom stack (.number n)) g where
  finish := by
    simp [Document.finish, Atom.finish, Numeral.finish, hn, hg, Except.map, Except.bind]
  step c hc := by
    rw [step_number, Numeral.step_endsToken hn hc]
    simp only [hg]
    rfl

theorem endsToken_blank {c : Char} (h : isBlank c) : endsToken c := by
  simp [endsToken, h]

/-- What stands behind a value may have blanks in front of it. -/
theorem Settles.feed {s : State} {g : Gap} (h : Settles s g) (b : Blanks) {c : Char}
    (hc : endsToken c) (cs : List Char) :
    Document.feed s (b.chars ++ c :: cs) = Document.feed (.gap g) (c :: cs) := by
  rw [← feed_blanks g b]
  obtain ⟨bs, hb⟩ := b
  cases bs with
  | nil => simp only [List.nil_append, Document.feed, h.step c hc]
  | cons x bs =>
    have hx : endsToken x := endsToken_blank (hb x (by simp))
    simp only [List.cons_append, Document.feed, h.step x hx]

theorem Settles.feed_finish {s : State} {g : Gap} (h : Settles s g) (b : Blanks) :
    ((Document.feed s b.chars).bind fun s' => (Document.finish s').toOption) =
      (Document.finish (.gap g)).toOption := by
  have hblanks := feed_blanks g b []
  rw [List.append_nil] at hblanks
  obtain ⟨bs, hb⟩ := b
  cases bs with
  | nil => simp only [Document.feed, Option.bind_some, h.finish]
  | cons x bs =>
    have hx : endsToken x := endsToken_blank (hb x (by simp))
    have hfeed : Document.feed s (x :: bs) = Document.feed (.gap g) (x :: bs) := by
      simp only [Document.feed, h.step x hx]
    rw [hfeed, hblanks]
    rfl

/-- What the machine makes of the text of a value `result`, or of a text without a value. -/
def Outcome (s : State) (stack : List Frame) (cs : List Char) : Option Json → Prop
  | some v => ∃ s' g, feed s cs = some s' ∧ deliver 0 stack v = .ok g ∧ Settles s' g
  | none => feed s cs = none

namespace Outcome

variable {s : State} {stack : List Frame} {cs : List Char} {result : Option Json}

theorem of_close (hstack : Ordinary stack)
    (h : feed s cs = result.bind fun v => (close stack v).toOption) :
    Outcome s stack cs result := by
  cases result with
  | none => exact h
  | some v =>
    obtain ⟨g, hg⟩ := hstack.deliver v
    rw [Option.bind_some, close, hg 1] at h
    exact ⟨.gap g, g, h, hg 0, .refl g⟩

theorem feed (h : Outcome s stack cs result) (b : Blanks) {c : Char} (hc : endsToken c)
    (rest : List Char) : Document.feed s (cs ++ (b.chars ++ c :: rest)) =
      result.bind fun v => (deliver 0 stack v).toOption.bind fun g =>
        Document.feed (.gap g) (c :: rest) := by
  rw [feed_append]
  cases result with
  | none =>
    obtain h : Document.feed s cs = none := h
    rw [h]
    rfl
  | some v =>
    obtain ⟨s', g, hs, hg, hsettles⟩ := h
    rw [hs, Option.bind_some, hsettles.feed b hc, Option.bind_some, hg]
    rfl

theorem finish (h : Outcome s stack cs result) (b : Blanks) :
    ((Document.feed s (cs ++ b.chars)).bind fun s' => (Document.finish s').toOption) =
      result.bind fun v => (deliver 0 stack v).toOption.bind fun g =>
        (Document.finish (.gap g)).toOption := by
  rw [feed_append]
  cases result with
  | none =>
    obtain h : Document.feed s cs = none := h
    rw [h]
    rfl
  | some v =>
    obtain ⟨s', g, hs, hg, hsettles⟩ := h
    rw [hs, Option.bind_some, hsettles.feed_finish b, Option.bind_some, hg]
    rfl

end Outcome

/-- A tree is read as its value, or refused, wherever it stands. -/
def ReadsTree (t : Tree) : Prop :=
  ∀ stack depth, Ordinary stack → stack.length + depth = maxDepth →
    Outcome (.gap ⟨stack, .value⟩) stack t.chars (t.value? depth)

theorem readsTree_null : ReadsTree .null := by
  intro stack depth hstack _
  apply Outcome.of_close hstack
  rw [feed_null, Tree.value?]
  rfl

theorem readsTree_bool (b : Bool) : ReadsTree (.bool b) := by
  intro stack depth hstack _
  apply Outcome.of_close hstack
  rw [feed_bool, Tree.value?]
  rfl

theorem readsTree_number (l : Literal) : ReadsTree (.number l) := by
  intro stack depth hstack _
  obtain ⟨n, hcomplete, hvalue, hfeed⟩ := feed_literal stack l
  obtain ⟨g, hg⟩ := hstack.deliver (.number l.number)
  have hsettles : Settles (.atom stack (.number n)) g :=
    settles_number hcomplete (by rw [hvalue]; exact hg 0)
  simp only [Tree.chars, Tree.value?]
  exact ⟨_, g, hfeed, hg 0, hsettles⟩

theorem readsTree_string (ps : List Piece) : ReadsTree (.string ps) := by
  intro stack depth hstack _
  apply Outcome.of_close hstack
  rw [feed_string, Tree.value?, Option.bind_map]
  rfl

/-! ### Lists -/

theorem Ordinary.begin_bracket {stack : List Frame} (h : Ordinary stack) :
    begin stack '[' = enter stack .listStart ∧ begin stack '{' = enter stack .objectStart := by
  cases stack with
  | nil => exact ⟨rfl, rfl⟩
  | cons frame rest =>
    cases frame with
    | list items => exact ⟨rfl, rfl⟩
    | object members key => exact ⟨rfl, rfl⟩
    | numeral => exact h.elim

/-- An opening bracket, of which `depth` more may be open. -/
theorem feed_bracket {stack : List Frame} {depth : Nat} {c : Char} {place : Place}
    (hbegin : begin stack c = enter stack place) (hc : isBlank c = false)
    (hdepth : stack.length + depth = maxDepth) (cs : List Char) :
    feed (.gap ⟨stack, .value⟩) (c :: cs) =
      if depth = 0 then none else feed (.gap ⟨stack, place⟩) cs := by
  rw [feed_place hc, stepPlace, hbegin, enter]
  by_cases h : depth = 0
  · rw [if_neg (by omega), if_pos h]
    rfl
  · rw [if_pos (by omega), if_neg h]
    rfl

theorem Tree.chars_eq_cons (t : Tree) :
    ∃ c cs, t.chars = c :: cs ∧ isBlank c = false ∧ c ≠ ']' := by
  cases t with
  | null => exact ⟨'n', ['u', 'l', 'l'], by simp only [Tree.chars], by decide, by decide⟩
  | bool b =>
    cases b with
    | false => exact ⟨'f', ['a', 'l', 's', 'e'], by simp only [Tree.chars], by decide, by decide⟩
    | true => exact ⟨'t', ['r', 'u', 'e'], by simp only [Tree.chars], by decide, by decide⟩
  | number l =>
    simp only [Tree.chars, Literal.chars]
    cases l.negative with
    | false =>
      have hbracket : ∀ d : Digit, d.toChar ≠ ']' := by decide
      exact ⟨_, _, rfl, isBlank_digit l.first, hbracket l.first⟩
    | true => exact ⟨'-', _, rfl, by decide, by decide⟩
  | string ps => exact ⟨'"', piecesChars ps, by simp only [Tree.chars], by decide, by decide⟩
  | array b items => exact ⟨'[', _, by simp only [Tree.chars]; rfl, by decide, by decide⟩
  | object b members => exact ⟨'{', _, by simp only [Tree.chars]; rfl, by decide, by decide⟩

theorem itemsChars_eq_cons (items : List (Spaced Tree)) :
    ∃ c cs, Tree.itemsChars [','] items ++ [']'] = c :: cs ∧ endsToken c := by
  cases items with
  | nil => exact ⟨']', [], by simp only [Tree.itemsChars, List.nil_append], by decide⟩
  | cons x items =>
    obtain ⟨before, t, after⟩ := x
    exact ⟨',', _, by simp only [Tree.itemsChars, List.cons_append]; rfl, by decide⟩

/-- One item at a place where an item may begin, up to the next comma or the closing bracket. -/
theorem feed_item {stack : List Frame} {depth : Nat} {place : Place} {acc : List Json}
    (hplace : ∀ c, c ≠ ']' → stepPlace stack c place = begin (.list acc :: stack) c)
    (hdepth : stack.length + 1 + depth = maxDepth) (x : Spaced Tree) (hx : ReadsTree x.inside)
    (items : List (Spaced Tree)) :
    feed (.gap ⟨stack, place⟩) (x.before.chars ++ (x.inside.chars ++ (x.after.chars ++
        (Tree.itemsChars [','] items ++ [']'])))) =
      (x.inside.value? depth).bind fun v =>
        feed (.gap ⟨stack, .afterItem (v :: acc)⟩) (Tree.itemsChars [','] items ++ [']']) := by
  obtain ⟨before, t, after⟩ := x
  obtain ⟨c, cs, hchars, hblank, hbracket⟩ := Tree.chars_eq_cons t
  obtain ⟨c', cs', hrest, hends⟩ := itemsChars_eq_cons items
  have hstart : feed (.gap ⟨stack, place⟩) (t.chars ++ (after.chars ++ c' :: cs')) =
      feed (.gap ⟨.list acc :: stack, .value⟩) (t.chars ++ (after.chars ++ c' :: cs')) := by
    rw [hchars, List.cons_append, feed_place hblank, feed_place hblank, hplace c hbracket]
    rfl
  have hread := hx (.list acc :: stack) depth trivial hdepth
  rw [hrest, feed_blanks, hstart, hread.feed after hends]
  rfl

theorem feed_items (stack : List Frame) {depth : Nat} (hdepth : stack.length + 1 + depth = maxDepth)
    (items : List (Spaced Tree)) (h : ∀ x ∈ items, ReadsTree x.inside) (acc : List Json) :
    feed (.gap ⟨stack, .afterItem acc⟩) (Tree.itemsChars [','] items ++ [']']) =
      (Tree.itemValues? depth items).bind fun vs =>
        (close stack (.array (acc.reverse ++ vs))).toOption := by
  induction items generalizing acc with
  | nil =>
    simp only [Tree.itemsChars, Tree.itemValues?, List.nil_append, Option.bind_some,
      List.append_nil]
    rw [feed_place (by decide)]
    simp only [stepPlace]
    cases close stack (.array acc.reverse) <;> rfl
  | cons x items ih =>
    have hcomma : feed (.gap ⟨stack, .afterItem acc⟩) [','] = some (.gap ⟨stack, .nextItem acc⟩) :=
      rfl
    have hplace : ∀ c, c ≠ ']' → stepPlace stack c (.nextItem acc) = begin (.list acc :: stack) c :=
      fun c hc => by simp [stepPlace, hc]
    simp only [Tree.itemsChars, Tree.itemValues?, List.append_assoc]
    rw [feed_append, hcomma, Option.bind_some,
      feed_item hplace hdepth x (h x (by simp)) items]
    simp only [ih (fun y hy => h y (by simp [hy])), Option.bind_assoc, Option.bind_map,
      Function.comp_def, List.reverse_cons, List.append_assoc, List.singleton_append]

theorem readsTree_array (b : Blanks) (items : List (Spaced Tree))
    (h : ∀ x ∈ items, ReadsTree x.inside) : ReadsTree (.array b items) := by
  intro stack depth hstack hdepth
  apply Outcome.of_close hstack
  simp only [Tree.chars, List.append_assoc]
  rw [feed_bracket hstack.begin_bracket.1 (by decide) hdepth]
  cases depth with
  | zero => simp [Tree.value?]
  | succ depth =>
    have hdeep : stack.length + 1 + depth = maxDepth := by omega
    rw [if_neg (by omega), feed_blanks]
    simp only [Tree.value?]
    cases items with
    | nil =>
      simp only [Tree.itemsChars, Tree.itemValues?, List.nil_append, Option.map_some,
        Option.bind_some]
      rw [feed_place (by decide)]
      simp only [stepPlace]
      cases close stack (.array []) <;> rfl
    | cons x items =>
      have hplace : ∀ c, c ≠ ']' → stepPlace stack c .listStart = begin (.list [] :: stack) c :=
        fun c hc => by simp [stepPlace, hc]
      simp only [Tree.itemsChars, Tree.itemValues?, List.append_assoc, List.nil_append]
      rw [feed_item hplace hdeep x (h x (by simp)) items]
      simp only [feed_items stack hdeep items (fun y hy => h y (by simp [hy])), Option.bind_assoc,
        Option.bind_map, Option.map_bind, Function.comp_def, List.reverse_cons, List.reverse_nil,
        List.nil_append, List.singleton_append]

/-! ### Objects -/

theorem membersChars_eq_cons (members : List (Spaced (List Piece) × Spaced Tree)) :
    ∃ c cs, Tree.membersChars [','] members ++ ['}'] = c :: cs ∧ endsToken c := by
  cases members with
  | nil => exact ⟨'}', [], by simp only [Tree.membersChars, List.nil_append], by decide⟩
  | cons m members =>
    obtain ⟨key, before, t, after⟩ := m
    exact ⟨',', _, by simp only [Tree.membersChars, List.cons_append]; rfl, by decide⟩

/-- A key up to the colon. -/
theorem feed_memberKey {stack : List Frame} {place : Place} {acc : List (String × Json)}
    (hplace : stepPlace stack '"' place = .ok (.key stack acc .start)) (key : Spaced (List Piece))
    (cs : List Char) :
    feed (.gap ⟨stack, place⟩) (key.before.chars ++ '"' :: (piecesChars key.inside ++
        (key.after.chars ++ cs))) =
      (text? key.inside).bind fun k => feed (.gap ⟨stack, afterKey acc k⟩) cs := by
  have hquote : ∀ cs, feed (.gap ⟨stack, place⟩) ('"' :: cs) = feed (.key stack acc .start) cs := by
    intro cs
    rw [feed_place (by decide), hplace]
    rfl
  rw [feed_blanks, hquote, feed_append, feed_key, Option.bind_map]
  simp only [Function.comp_def, feed_blanks]

/-- One member behind its colon, up to the next comma or the closing bracket. -/
theorem feed_memberValue {stack : List Frame} {depth : Nat} (acc : List (String × Json))
    (k : String) (hdepth : stack.length + 1 + depth = maxDepth) (x : Spaced Tree)
    (hx : ReadsTree x.inside) (members : List (Spaced (List Piece) × Spaced Tree)) :
    feed (.gap ⟨stack, .colon acc k⟩) (':' :: (x.before.chars ++ (x.inside.chars ++
        (x.after.chars ++ (Tree.membersChars [','] members ++ ['}']))))) =
      (x.inside.value? depth).bind fun v => feed (.gap ⟨stack, .afterMember (setMember k v acc)⟩)
        (Tree.membersChars [','] members ++ ['}']) := by
  obtain ⟨before, t, after⟩ := x
  obtain ⟨c, cs, hrest, hends⟩ := membersChars_eq_cons members
  have hcolon : ∀ cs, feed (.gap ⟨stack, .colon acc k⟩) (':' :: cs) =
      feed (.gap ⟨.object acc k :: stack, .value⟩) cs := fun _ => rfl
  have hread := hx (.object acc k :: stack) depth trivial hdepth
  rw [hrest, hcolon, feed_blanks, hread.feed after hends]
  rfl

theorem setMember_ne_nil (k : String) (v : Json) (ms : List (String × Json)) :
    setMember k v ms ≠ [] := by
  cases ms with
  | nil => simp [setMember]
  | cons m ms =>
    simp only [setMember]
    split <;> simp

theorem afterKey_of_ne_nil {ms : List (String × Json)} (h : ms ≠ []) (k : String) :
    afterKey ms k = .colon ms k := by
  simp [afterKey, h]

theorem feed_members (stack : List Frame) {depth : Nat}
    (hdepth : stack.length + 1 + depth = maxDepth)
    (members : List (Spaced (List Piece) × Spaced Tree))
    (h : ∀ m ∈ members, ReadsTree m.2.inside) (acc : List (String × Json)) (hacc : acc ≠ []) :
    feed (.gap ⟨stack, .afterMember acc⟩) (Tree.membersChars [','] members ++ ['}']) =
      (Tree.memberValues? depth members).bind fun ms =>
        (close stack (.object (setMembers acc ms))).toOption := by
  induction members generalizing acc with
  | nil =>
    simp only [Tree.membersChars, Tree.memberValues?, List.nil_append, Option.bind_some,
      setMembers, List.foldl_nil]
    rw [feed_place (by decide)]
    simp only [stepPlace]
    cases close stack (.object acc) <;> rfl
  | cons m members ih =>
    obtain ⟨key, x⟩ := m
    have hcomma : ∀ cs, feed (.gap ⟨stack, .afterMember acc⟩) (',' :: cs) =
      feed (.gap ⟨stack, .nextMember acc⟩) cs := fun _ => rfl
    simp only [Tree.membersChars, Tree.memberValues?, List.append_assoc, List.cons_append,
      List.nil_append]
    rw [hcomma, feed_memberKey rfl]
    simp only [afterKey_of_ne_nil hacc]
    simp only [feed_memberValue acc _ hdepth x (h (key, x) (by simp)) members]
    simp only [ih (fun m hm => h m (by simp [hm])) _ (setMember_ne_nil _ _ acc),
      Option.bind_assoc, Option.bind_map, Function.comp_def, setMembers, List.foldl_cons]

/-- Only a string is the text of a number. -/
theorem feed_quotedNumber (stack : List Frame) (t : Tree) (b : Blanks) {c : Char}
    (hc : endsToken c) (cs : List Char) :
    feed (.gap ⟨.numeral :: stack, .value⟩) (t.chars ++ (b.chars ++ c :: cs)) =
      t.quotedNumber?.bind fun n => feed (.gap ⟨stack, .numeralEnd n⟩) (c :: cs) := by
  rw [feed_append]
  cases t with
  | null =>
    rw [feed_null]
    rfl
  | bool b =>
    rw [feed_bool]
    rfl
  | number l =>
    obtain ⟨n, hcomplete, hvalue, hfeed⟩ := feed_literal (.numeral :: stack) l
    have hstop : ∀ x cs, endsToken x →
        feed (.atom (.numeral :: stack) (.number n)) (x :: cs) = none := by
      intro x cs hx
      rw [feed, step_number, Numeral.step_endsToken hcomplete hx]
      rfl
    rw [Tree.chars, hfeed, Option.bind_some]
    obtain ⟨bs, hb⟩ := b
    cases bs with
    | nil => exact hstop c cs hc
    | cons x bs => exact hstop x _ (endsToken_blank (hb x (by simp)))
  | string ps =>
    rw [feed_string, Option.bind_assoc, Tree.quotedNumber?, Option.bind_assoc]
    congr 1
    funext s
    simp only [close, deliver, numeralOf]
    cases Numeral.ofText s with
    | error e => rfl
    | ok n => exact feed_blanks ⟨stack, .numeralEnd n⟩ b (c :: cs)
  | array blanks items =>
    rw [Tree.chars]
    rfl
  | object blanks members =>
    rw [Tree.chars]
    rfl

/-- An object that promises a number has the text of one under its one key. -/
theorem feed_heldNumber (stack : List Frame) (x : Spaced Tree)
    (key : Spaced (List Piece)) (members : List (Spaced (List Piece) × Spaced Tree)) :
    feed (.gap ⟨stack, .numeralColon⟩) (':' :: (x.before.chars ++ (x.inside.chars ++
        (x.after.chars ++ (Tree.membersChars [','] members ++ ['}']))))) =
      (heldNumber? ((key, x) :: members)).bind fun n => (close stack (.number n)).toOption := by
  obtain ⟨before, t, after⟩ := x
  obtain ⟨c, cs, hrest, hends⟩ := membersChars_eq_cons members
  have hcolon : ∀ cs, feed (.gap ⟨stack, .numeralColon⟩) (':' :: cs) =
      feed (.gap ⟨.numeral :: stack, .value⟩) cs := fun _ => rfl
  rw [hrest, hcolon, feed_blanks, feed_quotedNumber stack t after hends, ← hrest]
  cases members with
  | nil =>
    simp only [Tree.membersChars, heldNumber?, List.nil_append]
    congr 1
    funext n
    rw [feed_place (by decide)]
    simp only [stepPlace]
    cases close stack (.number n) <;> rfl
  | cons m members =>
    obtain ⟨key', x'⟩ := m
    simp only [Tree.membersChars, heldNumber?, List.append_assoc, List.cons_append,
      List.nil_append, Option.bind_none]
    rw [Option.bind_eq_none_iff]
    exact fun n _ => rfl

theorem readsTree_object (b : Blanks) (members : List (Spaced (List Piece) × Spaced Tree))
    (h : ∀ m ∈ members, ReadsTree m.2.inside) : ReadsTree (.object b members) := by
  intro stack depth hstack hdepth
  apply Outcome.of_close hstack
  simp only [Tree.chars, List.append_assoc]
  rw [feed_bracket hstack.begin_bracket.2 (by decide) hdepth]
  cases depth with
  | zero => simp [Tree.value?]
  | succ depth =>
    have hdeep : stack.length + 1 + depth = maxDepth := by omega
    rw [if_neg (by omega), feed_blanks]
    simp only [Tree.value?]
    cases members with
    | nil =>
      simp only [Tree.membersChars, Tree.memberValues?, List.nil_append, firstKey?, reduceCtorEq,
        if_false, Option.map_some, Option.bind_some]
      rw [feed_place (by decide)]
      simp only [stepPlace]
      change (close stack (.object [])).toOption.bind _ = (close stack (.object [])).toOption
      cases close stack (.object []) <;> rfl
    | cons m members =>
      obtain ⟨key, x⟩ := m
      simp only [Tree.membersChars, Tree.memberValues?, List.append_assoc, List.cons_append,
        List.nil_append, firstKey?]
      rw [feed_memberKey rfl]
      rcases Option.eq_none_or_eq_some (text? key.inside) with hk | ⟨k, hk⟩
      · simp [hk]
      simp only [hk, Option.bind_some, Option.some_inj]
      by_cases hspecial : k = numeralKey
      · rw [if_pos hspecial, hspecial, Option.bind_map]
        exact feed_heldNumber stack x key members
      · have hcolon : afterKey [] k = .colon [] k := by simp [afterKey, hspecial]
        rw [if_neg hspecial, hcolon, feed_memberValue [] k hdeep x (h (key, x) (by simp))]
        simp only [feed_members stack hdeep members (fun m hm => h m (by simp [hm])) _
          (setMember_ne_nil _ _ []), Option.bind_assoc, Option.bind_map, Option.map_bind,
          Option.map_map, Function.comp_def, setMembers, List.foldl_cons]

/-- Every text of the grammar is read as the value of its tree, or refused if it has none. -/
theorem readsTree (t : Tree) : ReadsTree t :=
  t.induction readsTree_null readsTree_bool readsTree_number readsTree_string readsTree_array
    readsTree_object

end Document

theorem toOption_parse (d : Syntax.Spaced Syntax.Tree) :
    (parse (String.ofList (Syntax.documentChars d))).toOption =
      d.inside.value? Document.maxDepth := by
  have hread := Document.readsTree d.inside [] Document.maxDepth trivial (by simp)
  rw [parse, Document.toOption_run, String.toList_ofList, Syntax.documentChars, List.append_assoc,
    Document.start, Document.feed_blanks, hread.finish]
  cases d.inside.value? Document.maxDepth <;> rfl

end GoShape.Json
