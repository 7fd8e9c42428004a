import GoShape.Conversion
import Mathlib.Data.List.TakeWhile
import Mathlib.Tactic.SplitIfs

/-! The kind of a list against the order of its elements. The kinds are taken from left to right, and
the outcome is read off the list as a whole: one kind throughout, or numbers of which those before
the first float agree, or else anything. So the order counts for one sort of list only, the numbers
among which there are integers of both sizes and a float. -/
namespace GoShape
namespace Kind

/-- An integer or a float. -/
def isNumber (k : Kind) : Bool := k.isInteger || k = .scalar .float64

/-- The part of a list before its first float. -/
def beforeFloat (ks : List Kind) : List Kind := ks.takeWhile (· ≠ .scalar .float64)

/-- Numbers only, and among them integers of both sizes and a float. -/
structure Mixed (ks : List Kind) : Prop where
  numbers : ∀ k ∈ ks, k.isNumber
  int : .scalar .int ∈ ks
  int64 : .scalar .int64 ∈ ks
  float : .scalar .float64 ∈ ks

theorem isNumber_iff {k : Kind} :
    k.isNumber ↔ k = .scalar .int ∨ k = .scalar .int64 ∨ k = .scalar .float64 := by
  simp [isNumber, isInteger, or_assoc]

@[simp] theorem isNumber_float : isNumber (.scalar .float64) := rfl

/-- Two kinds give a third one, neither a float nor anything, only if both are that kind. -/
theorem unify_eq_iff {k l m : Kind} (ha : m ≠ .scalar .any) (hf : m ≠ .scalar .float64) :
    unify k l = m ↔ k = m ∧ l = m := by
  unfold unify
  split_ifs with h
  · subst h
    simp
  all_goals
    constructor
    · intro hm
      first | exact absurd hm.symm hf | exact absurd hm.symm ha
    · rintro ⟨rfl, rfl⟩
      exact absurd rfl h

/-- Two different kinds give a float if they are numbers and one of them is a float. -/
theorem unify_of_ne {k l : Kind} (h : k ≠ l) :
    unify k l = if k.isNumber ∧ l.isNumber ∧ (k = .scalar .float64 ∨ l = .scalar .float64) then
      .scalar .float64 else .scalar .any := by
  rcases k with (_ | _ | _ | _ | _ | _ | _) | _ | _ <;>
    rcases l with (_ | _ | _ | _ | _ | _ | _) | _ | _ <;> first | rfl | exact absurd rfl h

@[simp] theorem beforeFloat_float (ks : List Kind) : beforeFloat (.scalar .float64 :: ks) = [] := by
  simp [beforeFloat]

theorem beforeFloat_cons {k : Kind} (h : k ≠ .scalar .float64) (ks : List Kind) :
    beforeFloat (k :: ks) = k :: beforeFloat ks := by
  simp [beforeFloat, h]

/-- Numbers with a float among them, those before the first float all integers of one size. -/
structure Widens (ks : List Kind) : Prop where
  numbers : ∀ k ∈ ks, k.isNumber
  float : .scalar .float64 ∈ ks
  agree : ∀ k ∈ beforeFloat ks, ∀ l ∈ beforeFloat ks, k = l

theorem widens_float_cons (ks : List Kind) :
    Widens (.scalar .float64 :: ks) ↔ ∀ k ∈ ks, k.isNumber := by
  constructor
  · intro h k hk
    exact h.numbers k (by simp [hk])
  · intro h
    exact ⟨by simpa using h, by simp, by simp⟩

/-- The first two elements of a list may be replaced by what they give together. -/
theorem widens_unify_cons (k l : Kind) (ks : List Kind) :
    Widens (unify k l :: ks) ↔ Widens (k :: l :: ks) := by
  by_cases hkl : k = l
  · subst hkl
    rw [unify_self]
    by_cases hk : k = .scalar .float64
    · simp [hk, widens_float_cons]
    · constructor <;> rintro ⟨hn, hf, he⟩ <;>
        exact ⟨by simpa using hn, by simpa using hf, by simpa [beforeFloat_cons hk] using he⟩
  · rw [unify_of_ne hkl]
    split_ifs with h
    · obtain ⟨hk, hl, rfl | rfl⟩ := h
      · simp [widens_float_cons, hl]
      · constructor
        · intro hw
          refine ⟨?_, by simp, by simp [beforeFloat_cons hkl]⟩
          simpa [hk] using (widens_float_cons ks).mp hw
        · intro hw
          exact (widens_float_cons ks).mpr fun m hm => hw.numbers m (by simp [hm])
    · constructor
      · intro hw
        exact absurd (hw.numbers _ List.mem_cons_self) (by decide)
      · intro hw
        have hk := hw.numbers k (by simp)
        have hl := hw.numbers l (by simp)
        have hkf : k ≠ .scalar .float64 := fun e => h ⟨hk, hl, .inl e⟩
        have hlf : l ≠ .scalar .float64 := fun e => h ⟨hk, hl, .inr e⟩
        have he := hw.agree
        rw [beforeFloat_cons hkf, beforeFloat_cons hlf] at he
        exact absurd (he k (by simp) l (by simp)) hkl

/-- What a list agrees on, if it is neither a float nor anything: all the elements are of that
kind. -/
theorem common_eq_some_iff {ks : List Kind} {m : Kind} (ha : m ≠ .scalar .any)
    (hf : m ≠ .scalar .float64) : common ks = some m ↔ ks ≠ [] ∧ ∀ k ∈ ks, k = m := by
  cases ks with
  | nil => simp [common]
  | cons k ks =>
    simp only [common, unifyAll_eq_foldl, Option.some.injEq, ne_eq, List.cons_ne_nil,
      not_false_eq_true, true_and]
    induction ks generalizing k with
    | nil => simp
    | cons l ks ih => rw [List.foldl_cons, ih]; simp [unify_eq_iff ha hf, and_assoc]

theorem common_eq_float_iff (ks : List Kind) :
    common ks = some (.scalar .float64) ↔ Widens ks := by
  cases ks with
  | nil => exact ⟨nofun, fun h => absurd h.float (by simp)⟩
  | cons k ks =>
    simp only [common, unifyAll_eq_foldl, Option.some.injEq]
    induction ks generalizing k with
    | nil =>
      constructor
      · rintro rfl
        exact (widens_float_cons []).mpr (by simp)
      · intro h
        exact (List.mem_singleton.mp h.float).symm
    | cons l ks ih => rw [List.foldl_cons, ih, widens_unify_cons]

/-- A list agrees on anything if it gives no float and no kind but this one is that of all. -/
theorem common_eq_any_iff {ks : List Kind} (h : ks ≠ []) :
    common ks = some (.scalar .any) ↔
      ¬ Widens ks ∧ ∀ m, (∀ k ∈ ks, k = m) → m = .scalar .any := by
  obtain ⟨k, ks, rfl⟩ := List.exists_cons_of_ne_nil h
  obtain ⟨n, hn⟩ : ∃ n, common (k :: ks) = some n := ⟨_, rfl⟩
  rw [← common_eq_float_iff]
  constructor
  · intro ha
    refine ⟨by simp [ha], fun m hm => ?_⟩
    by_contra hne
    by_cases hf : m = .scalar .float64
    · have hw : Widens (k :: ks) := by
        obtain rfl : k = .scalar .float64 := (hm k (by simp)).trans hf
        exact (widens_float_cons ks).mpr fun l hl => by simp [hm l (by simp [hl]), hf]
      rw [(common_eq_float_iff _).mpr hw] at ha
      cases ha
    · rw [(common_eq_some_iff hne hf).mpr ⟨h, hm⟩] at ha
      exact hne (Option.some.inj ha)
  · rintro ⟨hf, hall⟩
    rw [hn] at hf ⊢
    by_contra hne
    have hna : n ≠ .scalar .any := fun e => hne (by rw [e])
    have hnf : n ≠ .scalar .float64 := fun e => hf (by rw [e])
    exact hna (hall n ((common_eq_some_iff hna hnf).mp hn).2)

theorem Mixed.of_perm {ks ls : List Kind} (hp : ks.Perm ls) (h : Mixed ks) : Mixed ls :=
  ⟨fun k hk => h.numbers k (hp.mem_iff.mpr hk), hp.mem_iff.mp h.int, hp.mem_iff.mp h.int64,
    hp.mem_iff.mp h.float⟩

/-- Two different integers beside a float make a list mixed. -/
theorem mixed_of_ne {ks : List Kind} {k l : Kind} (hn : ∀ k ∈ ks, k.isNumber)
    (hf : .scalar .float64 ∈ ks) (hk : k ∈ ks) (hl : l ∈ ks) (hkf : k ≠ .scalar .float64)
    (hlf : l ≠ .scalar .float64) (hne : k ≠ l) : Mixed ks := by
  rcases isNumber_iff.mp (hn k hk) with rfl | rfl | rfl <;>
    rcases isNumber_iff.mp (hn l hl) with rfl | rfl | rfl <;>
    first | exact absurd rfl ‹_› | exact ⟨hn, hk, hl, hf⟩ | exact ⟨hn, hl, hk, hf⟩

theorem mem_of_mem_beforeFloat {ks : List Kind} {k : Kind} (h : k ∈ beforeFloat ks) :
    k ∈ ks ∧ k ≠ .scalar .float64 := by
  have hk := List.mem_takeWhile_imp h
  exact ⟨(List.takeWhile_sublist _).subset h, by simpa using hk⟩

theorem common_of_perm {ks ls : List Kind} {m : Kind} (hp : ks.Perm ls) (hm : ¬ Mixed ks)
    (ha : m ≠ .scalar .any) (h : common ks = some m) : common ls = some m := by
  by_cases hf : m = .scalar .float64
  · subst hf
    have hw := (common_eq_float_iff ks).mp h
    apply (common_eq_float_iff ls).mpr
    refine ⟨fun k hk => hw.numbers k (hp.mem_iff.mpr hk), hp.mem_iff.mp hw.float, ?_⟩
    intro k hk l hl
    by_contra hne
    obtain ⟨hk, hkf⟩ := mem_of_mem_beforeFloat hk
    obtain ⟨hl, hlf⟩ := mem_of_mem_beforeFloat hl
    exact hm (mixed_of_ne hw.numbers hw.float (hp.mem_iff.mpr hk) (hp.mem_iff.mpr hl) hkf hlf hne)
  · rw [common_eq_some_iff ha hf] at h ⊢
    obtain ⟨hne, he⟩ := h
    refine ⟨?_, fun k hk => he k (hp.mem_iff.mpr hk)⟩
    rintro rfl
    exact hne hp.eq_nil

/-- Unless a list is mixed, what it agrees on does not depend on its order. -/
theorem common_perm {ks ls : List Kind} (hp : ks.Perm ls) (hm : ¬ Mixed ks) :
    common ks = common ls := by
  have hm' : ¬ Mixed ls := fun h => hm (h.of_perm hp.symm)
  cases hk : common ks with
  | none =>
    cases ks with
    | nil => rw [hp.symm.eq_nil]; rfl
    | cons k ks => cases hk
  | some m =>
    by_cases ha : m = .scalar .any
    · subst ha
      cases hl : common ls with
      | none =>
        cases ls with
        | nil => rw [hp.eq_nil] at hk; cases hk
        | cons l ls => cases hl
      | some n =>
        by_cases hn : n = .scalar .any
        · rw [hn]
        · rw [← hk, common_of_perm hp.symm hm' hn hl]
    · exact (common_of_perm hp hm ha hk).symm

/-- Behind a float there are only numbers, and the list agrees on a float. -/
theorem Mixed.common_float_cons {ks : List Kind} (h : Mixed (.scalar .float64 :: ks)) :
    common (.scalar .float64 :: ks) = some (.scalar .float64) :=
  (common_eq_float_iff _).mpr ((widens_float_cons ks).mpr fun k hk => h.numbers k (by simp [hk]))

/-- Behind two integers of different sizes nothing can be agreed on. -/
theorem common_int_int64_cons (ks : List Kind) :
    common (.scalar .int :: .scalar .int64 :: ks) = some (.scalar .any) := by
  simp only [common, unifyAll_eq_foldl, List.foldl_cons]
  exact congrArg some (foldl_unify_any ks)

end Kind

namespace Json

/-- A number is an integer of either size or a float. -/
theorem Number.scalar_number (n : Number) :
    n.scalar = .int ∨ n.scalar = .int64 ∨ n.scalar = .float64 := by
  have hint : ∀ i, Scalar.ofInteger i = .int ∨ Scalar.ofInteger i = .int64 := by
    intro i
    unfold Scalar.ofInteger
    split_ifs <;> simp
  unfold scalar
  split
  · exact (hint _).imp_right .inl
  · split
    · exact (hint _).imp_right .inl
    · exact .inr (.inr rfl)

theorem isNumber_kind_iff {v : Json} : v.kind.isNumber ↔ ∃ n, v = .number n := by
  cases v with
  | number n =>
    have hn : (kind (.number n)).isNumber := by
      rcases n.scalar_number with h | h | h <;> simp [kind, h, Kind.isNumber, Kind.isInteger]
    simp [hn]
  | string s =>
    have hs : ¬ (kind (.string s)).isNumber := by
      simp only [kind, Scalar.ofString]
      split_ifs <;> decide
    simp [hs]
  | _ => simp [kind, Kind.isNumber, Kind.isInteger]

/-- A value without parts. -/
def IsFlat (v : Json) : Prop := ∃ s, v.kind = .scalar s

/-- The type of the elements follows from their kind, but for the fields of structs and for the
elements of lists. -/
theorem elementType_eq (items : List Json) :
    elementType items = match commonKind items with
      | none => .scalar .any
      | some (.scalar s) => .scalar s
      | some .struct => .struct (mergedFields items)
      | some .slice => (items.map type).headD (.scalar .any) := by
  rw [elementType, GoType.common, commonKind_types]
  rfl

/-- All the elements have the kind on which they agree, if it is a kind with parts. -/
theorem kind_of_commonKind {items : List Json} {k : Kind} (h : commonKind items = some k)
    (hk : ∀ s, k ≠ .scalar s) : items ≠ [] ∧ ∀ v ∈ items, v.kind = k := by
  have hi := (Kind.common_eq_some_iff (hk _) (hk _)).mp h
  simpa using hi

/-- Values without parts agree on a kind without parts. -/
theorem commonKind_flat {items : List Json} {k : Kind} (hflat : ∀ v ∈ items, v.IsFlat)
    (h : commonKind items = some k) : ∃ s, k = .scalar s := by
  by_contra hn
  have hk : ∀ s, k ≠ .scalar s := fun s e => hn ⟨s, e⟩
  obtain ⟨hne, hall⟩ := kind_of_commonKind h hk
  obtain ⟨v, hv⟩ := List.exists_mem_of_ne_nil items hne
  obtain ⟨s, hs⟩ := hflat v hv
  exact hk s ((hall v hv).symm.trans hs)

theorem elementType_flat {items items' : List Json} (hflat : ∀ v ∈ items, v.IsFlat)
    (h : commonKind items' = commonKind items) : elementType items' = elementType items := by
  rw [elementType_eq, elementType_eq, h]
  cases hk : commonKind items with
  | none => rfl
  | some k =>
    obtain ⟨s, rfl⟩ := commonKind_flat hflat hk
    rfl

/-- A value of a given kind may be taken to the front of a list. -/
theorem exists_perm_cons {items : List Json} {k : Kind} (h : k ∈ items.map kind) :
    ∃ v rest, v.kind = k ∧ items.Perm (v :: rest) := by
  obtain ⟨v, hv, rfl⟩ := List.mem_map.mp h
  obtain ⟨s, t, rfl⟩ := List.append_of_mem hv
  exact ⟨v, s ++ t, rfl, List.perm_middle⟩

/-- A mixed list agrees on a float in one order and on nothing in another. -/
theorem exists_perm_of_mixed {items : List Json} (h : Kind.Mixed (items.map kind)) :
    (∃ items', items.Perm items' ∧ commonKind items' = some (.scalar .float64)) ∧
      ∃ items', items.Perm items' ∧ commonKind items' = some (.scalar .any) := by
  constructor
  · obtain ⟨v, rest, hv, hp⟩ := exists_perm_cons h.float
    have hm := h.of_perm (hp.map kind)
    rw [List.map_cons, hv] at hm
    refine ⟨v :: rest, hp, ?_⟩
    rw [commonKind, List.map_cons, hv]
    exact hm.common_float_cons
  · obtain ⟨v, rest, hv, hp⟩ := exists_perm_cons h.int
    have hw : .scalar .int64 ∈ rest.map kind := by
      have hm := (h.of_perm (hp.map kind)).int64
      rw [List.map_cons, hv, List.mem_cons] at hm
      exact hm.resolve_left (by decide)
    obtain ⟨w, rest', hw, hp'⟩ := exists_perm_cons hw
    refine ⟨v :: w :: rest', hp.trans (hp'.cons v), ?_⟩
    rw [commonKind, List.map_cons, List.map_cons, hv, hw]
    exact Kind.common_int_int64_cons _

/-- The kind of a list is the same in every order unless the list is mixed, and then it is not. For
values without parts the order counts neither for the type of the list nor for the declaration of a
sample that holds it. -/
theorem commonKind_perm_iff (items : List Json) :
    ((∀ items', items.Perm items' → commonKind items' = commonKind items) ↔
      ¬ Kind.Mixed (items.map kind)) ∧
    (¬ Kind.Mixed (items.map kind) → (∀ v ∈ items, v.IsFlat) → ∀ items', items.Perm items' →
      type (.array items') = type (.array items) ∧
      ∀ typeName text text', parse (forceFractional text) = .ok (.array items) →
        parse (forceFractional text') = .ok (.array items') →
        convert text' ⟨typeName, none⟩ = convert text ⟨typeName, none⟩) := by
  have hperm : ¬ Kind.Mixed (items.map kind) →
      ∀ items', items.Perm items' → commonKind items' = commonKind items :=
    fun hm items' hp => (Kind.common_perm (hp.map kind) hm).symm
  refine ⟨⟨?_, hperm⟩, ?_⟩
  · intro h hm
    obtain ⟨⟨ls, hl, hlf⟩, ms, hms, hma⟩ := exists_perm_of_mixed hm
    have he := (h ls hl).trans (h ms hms).symm
    rw [hlf, hma] at he
    exact absurd he (by decide)
  · intro hm hflat items' hp
    have ht : type (.array items') = type (.array items) := by
      rw [type_array, type_array, elementType_flat hflat (hperm hm items' hp)]
    refine ⟨ht, ?_⟩
    intro typeName text text' h h'
    have hs : sampleType text' = sampleType text := by
      rw [sampleType, sampleType, h, h']
      exact congrArg Except.ok ht
    simp [convert, declare, attempt, exceeded?, hs]

/-- `[1, 2.5, 3.0]` and `[3.0, 1, 2.5]` are declared alike. -/
theorem commonKind_perm_iff_sample :
    convert "[3.0, 1, 2.5]" ⟨none, none⟩ = convert "[1, 2.5, 3.0]" ⟨none, none⟩ ∧
      commonKind [.number ⟨false, [3], [1], none⟩, .number ⟨false, [1], [], none⟩,
        .number ⟨false, [2], [5], none⟩] = some (.scalar .float64) := by
  have hm : ¬ Kind.Mixed (List.map kind [.number ⟨false, [1], [], none⟩,
      .number ⟨false, [2], [5], none⟩, .number ⟨false, [3], [1], none⟩]) :=
    fun h => absurd h.int64 (by decide +kernel)
  have hflat : ∀ v ∈ [Json.number ⟨false, [1], [], none⟩, .number ⟨false, [2], [5], none⟩,
      .number ⟨false, [3], [1], none⟩], v.IsFlat := by
    simp [IsFlat, kind]
  have hp : [Json.number ⟨false, [1], [], none⟩, .number ⟨false, [2], [5], none⟩,
      .number ⟨false, [3], [1], none⟩].Perm [.number ⟨false, [3], [1], none⟩,
      .number ⟨false, [1], [], none⟩, .number ⟨false, [2], [5], none⟩] :=
    show ([_, _] ++ [_]).Perm ([_] ++ [_, _]) from List.perm_append_comm
  obtain ⟨hiff, himp⟩ := commonKind_perm_iff _
  refine ⟨(himp hm hflat _ hp).2 none _ _ rfl rfl, ?_⟩
  rw [hiff.mpr hm _ hp]
  decide +kernel

/-- The integers of `[1, 2.5, 3000000000]` meet the float one by one, and those of
`[1, 3000000000, 2.5]` meet each other first. -/
theorem commonKind_ne_of_perm :
    [Json.number ⟨false, [1], [], none⟩, .number ⟨false, [2], [5], none⟩,
      .number ⟨false, [3, 0, 0, 0, 0, 0, 0, 0, 0, 0], [], none⟩].Perm
      [.number ⟨false, [1], [], none⟩, .number ⟨false, [3, 0, 0, 0, 0, 0, 0, 0, 0, 0], [], none⟩,
        .number ⟨false, [2], [5], none⟩] ∧
    commonKind [.number ⟨false, [1], [], none⟩, .number ⟨false, [2], [5], none⟩,
      .number ⟨false, [3, 0, 0, 0, 0, 0, 0, 0, 0, 0], [], none⟩] ≠
      commonKind [.number ⟨false, [1], [], none⟩,
        .number ⟨false, [3, 0, 0, 0, 0, 0, 0, 0, 0, 0], [], none⟩,
        .number ⟨false, [2], [5], none⟩] :=
  ⟨(List.Perm.swap _ _ _).cons _, by decide +kernel⟩

/-- The kind of the elements of a list is what they give from left to right, with no stop before the
end, and is told from the list as a whole. It is one that is neither a float nor anything if all of
them are of this kind, a float if they are numbers of which those before the first float are of one
kind, and there is such a float, and anything in every other case. -/
theorem commonKind_cons_iff (v : Json) (items : List Json) :
    commonKind (v :: items) = some ((items.map kind).foldl Kind.unify v.kind) ∧
    (∀ k, k ≠ .scalar .any → k ≠ .scalar .float64 →
      (commonKind (v :: items) = some k ↔ ∀ u ∈ v :: items, u.kind = k)) ∧
    (commonKind (v :: items) = some (.scalar .float64) ↔ Kind.Widens ((v :: items).map kind)) ∧
    (commonKind (v :: items) = some (.scalar .any) ↔ ¬ Kind.Widens ((v :: items).map kind) ∧
      ∀ k, (∀ u ∈ v :: items, u.kind = k) → k = .scalar .any) := by
  have hne : (v :: items).map kind ≠ [] := by simp
  have hall : ∀ k, (∀ l ∈ (v :: items).map kind, l = k) ↔ ∀ u ∈ v :: items, u.kind = k :=
    fun k => List.forall_mem_map
  refine ⟨?_, fun k ha hf => ?_, Kind.common_eq_float_iff _, ?_⟩
  · rw [commonKind, List.map_cons, Kind.common, Kind.unifyAll_eq_foldl]
  · rw [commonKind, Kind.common_eq_some_iff ha hf, hall]
    exact and_iff_right hne
  · simp only [commonKind, Kind.common_eq_any_iff hne, hall]

/-- Booleans agree on their kind, and integers of two sizes that come one after the other in front of
a float agree on nothing. -/
theorem commonKind_cons_iff_sample :
    commonKind [.bool true, .bool false] = some (.scalar .bool) ∧
    ¬ Kind.Widens (List.map kind [.number ⟨false, [1], [], none⟩,
      .number ⟨false, [3, 0, 0, 0, 0, 0, 0, 0, 0, 0], [], none⟩, .number ⟨false, [2], [5], none⟩]) := by
  obtain ⟨-, hkind, -, -⟩ := commonKind_cons_iff (.bool true) [.bool false]
  obtain ⟨-, -, hfloat, -⟩ := commonKind_cons_iff (.number ⟨false, [1], [], none⟩)
    [.number ⟨false, [3, 0, 0, 0, 0, 0, 0, 0, 0, 0], [], none⟩, .number ⟨false, [2], [5], none⟩]
  refine ⟨(hkind (.scalar .bool) (by decide) (by decide)).mpr (by simp [kind]), ?_⟩
  rw [← hfloat]
  decide +kernel

end Json
end GoShape
