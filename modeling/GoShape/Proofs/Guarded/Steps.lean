import GoShape.Kind

/-! Steps that may have no result: an entry behind the end of a list, a difference below zero, a text
that is cut inside a character. What a guarded step gives carries the reason why it was allowed. -/
namespace GoShape.Guarded

/-- Why a step has no result. -/
inductive Panic
  /-- A kind of lists or structs, where only a type without parts can be made of the kind. -/
  | structural (k : Kind)
  | outOfRange (index length : Nat)
  | belowZero
  /-- A text is cut behind its end or inside a character. -/
  | badCut
  deriving DecidableEq, Repr

@[simp] theorem ok_bind {ε α β : Type} (a : α) (f : α → Except ε β) : (Except.ok a >>= f) = f a := rfl

@[simp] theorem pure_eq_ok {ε α : Type} (a : α) : (pure a : Except ε α) = .ok a := rfl

/-- The entry of a list at a place. -/
def nth {α : Type} (l : List α) (i : Nat) : Except Panic { a : α // a ∈ l } :=
  if h : i < l.length then .ok ⟨l[i], List.getElem_mem h⟩ else .error (.outOfRange i l.length)

def difference (m n : Nat) : Except Panic Nat := if n ≤ m then .ok (m - n) else .error .belowZero

theorem nth_of_lt {α : Type} {l : List α} {i : Nat} (h : i < l.length) :
    nth l i = .ok ⟨l[i], List.getElem_mem h⟩ :=
  dif_pos h

theorem mapM_eq_ok {α β : Type} {f : α → Except Panic β} {g : α → β} {l : List α}
    (h : ∀ a, f a = .ok (g a)) : l.mapM f = .ok (l.map g) := by
  induction l with
  | nil => rfl
  | cons a l ih => simp [List.mapM_cons, h a, ih]

theorem mapM_attach_eq_ok {α β : Type} {l : List α} {f : { a // a ∈ l } → Except Panic β} {g : α → β}
    (h : ∀ a, f a = .ok (g a.val)) : l.attach.mapM f = .ok (l.map g) := by
  rw [mapM_eq_ok h, List.attach_map_val]

/-! ### Texts by their bytes -/

/-- The bytes of a text. -/
def byteLength (cs : List Char) : Nat := (String.ofList cs).utf8ByteSize

@[simp] theorem byteLength_nil : byteLength [] = 0 := rfl

@[simp] theorem byteLength_cons (c : Char) (cs : List Char) :
    byteLength (c :: cs) = c.utf8Size + byteLength cs := by
  simp [byteLength, String.ofList_cons, String.utf8ByteSize_append]

theorem byteLength_singleton (c : Char) : byteLength [c] = c.utf8Size := by simp

/-- A text in two parts, the first of which has `offset` bytes. -/
structure Cut (cs : List Char) (offset : Nat) where
  before : List Char
  behind : List Char
  whole : before ++ behind = cs
  bytes : byteLength before = offset

/-- Cut a text at a byte. -/
def cut : (offset : Nat) → (cs : List Char) → Except Panic (Cut cs offset)
  | 0, cs => .ok ⟨[], cs, rfl, rfl⟩
  | _ + 1, [] => .error .badCut
  | n + 1, c :: cs =>
    if h : c.utf8Size ≤ n + 1 then
      (cut (n + 1 - c.utf8Size) cs).map fun p =>
        ⟨c :: p.before, p.behind, by rw [List.cons_append, p.whole],
          by rw [byteLength_cons, p.bytes, Nat.add_sub_cancel' h]⟩
    else .error .badCut

theorem Cut.length_behind_lt {cs : List Char} {offset : Nat} (p : Cut cs offset) (h : 0 < offset) :
    p.behind.length < cs.length := by
  obtain ⟨before, behind, rfl, rfl⟩ := p
  cases before with
  | nil => simp at h
  | cons c before =>
    simp only [List.length_append, List.length_cons]
    omega

/-- A text can be cut behind every character. -/
theorem cut_append {xs ys cs : List Char} {offset : Nat} (hcs : xs ++ ys = cs)
    (hoffset : byteLength xs = offset) : cut offset cs = .ok ⟨xs, ys, hcs, hoffset⟩ := by
  induction xs generalizing cs offset with
  | nil =>
    subst hcs hoffset
    cases ys <;> rfl
  | cons c xs ih =>
    have hpos := c.utf8Size_pos
    subst hcs
    rw [byteLength_cons] at hoffset
    obtain ⟨n, rfl⟩ : ∃ n, offset = n + 1 := ⟨offset - 1, by omega⟩
    have hle : c.utf8Size ≤ n + 1 := by omega
    simp only [List.cons_append, cut, dif_pos hle]
    rw [ih rfl (by omega)]
    rfl

example : cut 1 ['é'] = .error .badCut := rfl

/-- The place in bytes of the first character with a property. -/
def findByte? (p : Char → Bool) : List Char → Option Nat
  | [] => none
  | c :: cs => if p c then some 0 else (findByte? p cs).map (c.utf8Size + ·)

/-- Without such a character, the place behind the end: the bytes in front of it. -/
theorem getD_findByte? (p : Char → Bool) (cs : List Char) :
    (findByte? (fun c => !p c) cs).getD (byteLength cs) = byteLength (cs.takeWhile p) := by
  induction cs with
  | nil => rfl
  | cons c cs ih =>
    cases hc : p c with
    | false => simp [findByte?, hc]
    | true =>
      simp only [findByte?, hc, Bool.not_true, Bool.false_eq_true, if_false, List.takeWhile_cons,
        if_true, byteLength_cons, ← ih]
      cases findByte? (fun c => !p c) cs <;> rfl

end GoShape.Guarded
