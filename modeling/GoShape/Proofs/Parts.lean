import GoShape.Json.Document
import Mathlib.Tactic.SplitIfs

/-! What stands inside a value, and the one thing that holds of all objects that are read: no key
occurs twice. The reader has it in every state for whatever is open or finished. -/
namespace GoShape.Json

/-- Induction over values, with the parts of a list or an object taken together. -/
theorem induction {P : Json → Prop} (null : P .null) (bool : ∀ b, P (.bool b))
    (number : ∀ n, P (.number n)) (string : ∀ s, P (.string s))
    (array : ∀ items, (∀ v ∈ items, P v) → P (.array items))
    (object : ∀ ms, (∀ m ∈ ms, P m.2) → P (.object ms)) : ∀ v, P v
  | .null => null
  | .bool b => bool b
  | .number n => number n
  | .string s => string s
  | .array items =>
    array items fun v _ => Json.induction null bool number string array object v
  | .object ms =>
    object ms fun m _ => Json.induction null bool number string array object m.2
termination_by v => v
decreasing_by
  · have hv := List.sizeOf_lt_of_mem ‹v ∈ items›
    simp only [Json.array.sizeOf_spec]
    omega
  · have hm := List.sizeOf_lt_of_mem ‹m ∈ ms›
    obtain ⟨key, v⟩ := m
    simp only [Prod.mk.sizeOf_spec, Json.object.sizeOf_spec] at hm ⊢
    omega

/-- A value is a part of another one, at any depth, or the value itself. -/
inductive Inside : Json → Json → Prop
  | refl (v : Json) : Inside v v
  | item {u v : Json} {items : List Json} : v ∈ items → Inside u v → Inside u (.array items)
  | member {u : Json} {m : String × Json} {ms : List (String × Json)} :
    m ∈ ms → Inside u m.2 → Inside u (.object ms)

/-- No object inside a value has a key twice. -/
def DistinctKeys (v : Json) : Prop := ∀ ms, Inside (.object ms) v → (ms.map Prod.fst).Nodup

theorem distinctKeys_flat {v : Json} (ha : ∀ items, v ≠ .array items) (ho : ∀ ms, v ≠ .object ms) :
    v.DistinctKeys := by
  intro ms h
  cases h with
  | refl => exact absurd rfl (ho ms)
  | item => exact absurd rfl (ha _)
  | member => exact absurd rfl (ho _)

theorem distinctKeys_array {items : List Json} :
    DistinctKeys (.array items) ↔ ∀ v ∈ items, v.DistinctKeys := by
  constructor
  · exact fun h v hv ms hms => h ms (.item hv hms)
  · intro h ms hms
    cases hms with
    | item hv hms => exact h _ hv ms hms

theorem distinctKeys_object {ms : List (String × Json)} :
    DistinctKeys (.object ms) ↔ (ms.map Prod.fst).Nodup ∧ ∀ m ∈ ms, m.2.DistinctKeys := by
  constructor
  · exact fun h => ⟨h ms (.refl _), fun m hm ms' hms => h ms' (.member hm hms)⟩
  · rintro ⟨hnodup, h⟩ ms' hms
    cases hms with
    | refl => exact hnodup
    | member hm hms => exact h _ hm ms' hms

theorem mem_setMember {key : String} {v : Json} {ms : List (String × Json)} {m : String × Json}
    (h : m ∈ setMember key v ms) : m = (key, v) ∨ m ∈ ms := by
  induction ms with
  | nil => simpa [setMember] using h
  | cons n ms ih =>
    simp only [setMember] at h
    split_ifs at h with hk
    · rcases List.mem_cons.mp h with rfl | h
      · exact .inl (by rw [hk])
      · exact .inr (by simp [h])
    · rcases List.mem_cons.mp h with rfl | h
      · exact .inr (by simp)
      · exact (ih h).imp_right (List.mem_cons_of_mem _)

theorem distinctKeys_setMember {key : String} {v : Json} {ms : List (String × Json)}
    (hms : DistinctKeys (.object ms)) (hv : v.DistinctKeys) :
    DistinctKeys (.object (setMember key v ms)) := by
  rw [distinctKeys_object] at hms ⊢
  refine ⟨nodup_setMember key v ms hms.1, ?_⟩
  intro m hm
  rcases mem_setMember hm with rfl | hm
  · exact hv
  · exact hms.2 m hm

/-! ### The reader -/

def Frame.Distinct : Frame → Prop
  | .list items => DistinctKeys (.array items)
  | .object members _ => DistinctKeys (.object members)
  | .numeral => True

/-- Only words carry the value that they stand for. -/
def Atom.Distinct : Atom → Prop
  | .word _ _ v => v.DistinctKeys
  | _ => True

namespace Document

def Place.Distinct : Place → Prop
  | .afterItem items | .nextItem items => DistinctKeys (.array items)
  | .colon members _ | .afterMember members | .nextMember members => DistinctKeys (.object members)
  | .done v => v.DistinctKeys
  | _ => True

structure Gap.Distinct (g : Gap) : Prop where
  stack : ∀ f ∈ g.stack, f.Distinct
  place : g.place.Distinct

def State.Distinct : State → Prop
  | .gap g => g.Distinct
  | .atom stack a => (∀ f ∈ stack, f.Distinct) ∧ a.Distinct
  | .key stack members _ => (∀ f ∈ stack, f.Distinct) ∧ DistinctKeys (.object members)

theorem distinct_numeralOf {bytes : Nat} {stack : List Frame} {v : Json} {g : Gap}
    (hstack : ∀ f ∈ stack, f.Distinct) (h : numeralOf bytes stack v = .ok g) : g.Distinct := by
  unfold numeralOf at h
  split at h
  · split at h
    · cases h
      exact ⟨hstack, trivial⟩
    · cases h
  · cases h

theorem distinct_deliver {bytes : Nat} {stack : List Frame} {v : Json} {g : Gap}
    (hstack : ∀ f ∈ stack, f.Distinct) (hv : v.DistinctKeys) (h : deliver bytes stack v = .ok g) :
    g.Distinct := by
  cases stack with
  | nil =>
    cases h
    exact ⟨hstack, hv⟩
  | cons frame rest =>
    have hframe := hstack frame (by simp)
    have hrest : ∀ f ∈ rest, f.Distinct := fun f hf => hstack f (by simp [hf])
    cases frame with
    | list items =>
      cases h
      refine ⟨hrest, distinctKeys_array.mpr ?_⟩
      intro u hu
      rcases List.mem_cons.mp hu with rfl | hu
      · exact hv
      · exact distinctKeys_array.mp hframe u hu
    | object members key =>
      cases h
      exact ⟨hrest, distinctKeys_setMember hframe hv⟩
    | numeral => exact distinct_numeralOf hrest h

theorem eq_gap_of_map {x : Except Fault Gap} {s : State} (h : x.map .gap = .ok s) :
    ∃ g, x = .ok g ∧ s = .gap g := by
  cases x with
  | error e => cases h
  | ok g =>
    cases h
    exact ⟨g, rfl, rfl⟩

theorem distinct_close {stack : List Frame} {v : Json} {s : State}
    (hstack : ∀ f ∈ stack, f.Distinct) (hv : v.DistinctKeys) (h : close stack v = .ok s) :
    s.Distinct := by
  obtain ⟨g, hg, rfl⟩ := eq_gap_of_map h
  exact distinct_deliver hstack hv hg

theorem distinct_begin? {c : Char} {a : Atom} (h : Atom.begin? c = some a) : a.Distinct := by
  unfold Atom.begin? at h
  split at h
  · cases h; exact distinctKeys_flat nofun nofun
  · cases h; exact distinctKeys_flat nofun nofun
  · cases h; exact distinctKeys_flat nofun nofun
  · cases h; exact trivial
  · obtain ⟨n, -, rfl⟩ := Option.map_eq_some_iff.mp h
    exact trivial

theorem distinct_enter {stack : List Frame} {place : Place} {s : State}
    (hstack : ∀ f ∈ stack, f.Distinct) (hplace : place.Distinct)
    (h : enter stack place = .ok s) : s.Distinct := by
  unfold enter at h
  split at h
  · cases h
    exact ⟨hstack, hplace⟩
  · cases h

theorem distinct_begin {stack : List Frame} {c : Char} {s : State}
    (hstack : ∀ f ∈ stack, f.Distinct) (h : begin stack c = .ok s) : s.Distinct := by
  have hrest : ∀ {f rest}, stack = f :: rest → ∀ f ∈ rest, f.Distinct := by
    rintro f rest rfl f hf
    exact hstack f (by simp [hf])
  unfold begin at h
  split at h
  · rename_i a ha
    cases h
    exact ⟨hstack, distinct_begin? ha⟩
  · split at h
    · obtain ⟨g, hg, rfl⟩ := eq_gap_of_map h
      exact distinct_numeralOf (hrest rfl) hg
    · obtain ⟨g, hg, rfl⟩ := eq_gap_of_map h
      exact distinct_numeralOf (hrest rfl) hg
    · refine distinct_enter hstack ?_ h
      trivial
    · refine distinct_enter hstack ?_ h
      trivial
    · cases h

theorem distinct_stepPlace {stack : List Frame} {c : Char} {place : Place} {s : State}
    (hstack : ∀ f ∈ stack, f.Distinct) (hplace : place.Distinct)
    (h : stepPlace stack c place = .ok s) : s.Distinct := by
  have hcons : ∀ f : Frame, f.Distinct → ∀ g ∈ f :: stack, g.Distinct := by
    intro f hf g hg
    rcases List.mem_cons.mp hg with rfl | hg
    · exact hf
    · exact hstack g hg
  have hnil : DistinctKeys (.array []) := distinctKeys_array.mpr (by simp)
  have hempty : DistinctKeys (.object []) := distinctKeys_object.mpr (by simp)
  cases place with
  | value => exact distinct_begin hstack h
  | listStart =>
    simp only [stepPlace] at h
    split_ifs at h
    · exact distinct_close hstack hnil h
    · exact distinct_begin (hcons (.list []) hnil) h
  | afterItem items =>
    simp only [stepPlace] at h
    split_ifs at h
    · cases h
      exact ⟨hstack, hplace⟩
    · refine distinct_close hstack (distinctKeys_array.mpr ?_) h
      exact fun v hv => distinctKeys_array.mp hplace v (List.mem_reverse.mp hv)
  | nextItem items =>
    simp only [stepPlace] at h
    split_ifs at h
    exact distinct_begin (hcons (.list items) hplace) h
  | objectStart =>
    simp only [stepPlace] at h
    split_ifs at h
    · cases h
      exact ⟨hstack, hempty⟩
    · exact distinct_close hstack hempty h
  | colon members key =>
    simp only [stepPlace] at h
    split_ifs at h
    cases h
    exact ⟨hcons (.object members key) hplace, trivial⟩
  | afterMember members =>
    simp only [stepPlace] at h
    split_ifs at h
    · cases h
      exact ⟨hstack, hplace⟩
    · exact distinct_close hstack hplace h
  | nextMember members =>
    simp only [stepPlace] at h
    split_ifs at h
    cases h
    exact ⟨hstack, hplace⟩
  | numeralColon =>
    simp only [stepPlace] at h
    split_ifs at h
    cases h
    exact ⟨hcons .numeral trivial, trivial⟩
  | numeralEnd n =>
    simp only [stepPlace] at h
    split_ifs at h
    have hn : DistinctKeys (.number n) := distinctKeys_flat nofun nofun
    exact distinct_close hstack hn h
  | done v => cases h

theorem distinct_stepGap {g : Gap} {c : Char} {s : State} (hg : g.Distinct)
    (h : stepGap g c = .ok s) : s.Distinct := by
  unfold stepGap at h
  split_ifs at h
  · cases h
    exact hg
  · exact distinct_stepPlace hg.stack hg.place h

/-- What a token is read as has no parts. -/
theorem distinct_atomStep {a : Atom} {c : Char} (ha : a.Distinct) :
    match a.step c with
    | .more a' => a'.Distinct
    | .last v | .before v => v.DistinctKeys
    | .fault _ => True := by
  cases a with
  | word next rest v =>
    simp only [Atom.step]
    split_ifs
    · cases rest <;> exact ha
    · trivial
  | number n =>
    simp only [Atom.step]
    cases n.step c <;> first | exact trivial | exact distinctKeys_flat nofun nofun
  | text q =>
    simp only [Atom.step]
    cases q.step c <;> first | exact trivial | exact distinctKeys_flat nofun nofun

theorem distinct_step {s s' : State} {c : Char} (hs : s.Distinct) (h : step s c = .ok s') :
    s'.Distinct := by
  cases s with
  | gap g => exact distinct_stepGap hs h
  | atom stack a =>
    obtain ⟨hstack, ha⟩ := hs
    have hread := distinct_atomStep (c := c) ha
    simp only [step] at h
    split at h
    · rename_i a' hstep
      rw [hstep] at hread
      cases h
      exact ⟨hstack, hread⟩
    · rename_i v hstep
      rw [hstep] at hread
      exact distinct_close hstack hread h
    · rename_i v hstep
      rw [hstep] at hread
      cases hg : deliver 0 stack v with
      | error e => rw [hg] at h; cases h
      | ok g =>
        rw [hg] at h
        exact distinct_stepGap (distinct_deliver hstack hread hg) h
    · cases h
  | key stack members q =>
    obtain ⟨hstack, hmembers⟩ := hs
    have hplace : ∀ k, (afterKey members k).Distinct := by
      intro k
      unfold afterKey
      split_ifs
      · trivial
      · exact hmembers
    simp only [step] at h
    split at h
    · cases h
      exact ⟨hstack, hmembers⟩
    · cases h
      exact ⟨hstack, hplace _⟩
    · cases h
      exact ⟨hstack, hplace _⟩
    · cases h

theorem distinct_finish {s : State} {v : Json} (hs : s.Distinct) (h : finish s = .ok v) :
    v.DistinctKeys := by
  have hdone : ∀ {g : Gap}, g.Distinct →
      (finishPlace g.place).mapError (Fault.here · 0) = .ok v → v.DistinctKeys := by
    rintro ⟨stack, place⟩ hg hv
    cases place with
    | done w =>
      cases hv
      exact hg.place
    | _ => cases hv
  cases s with
  | gap g => exact hdone hs h
  | atom stack a =>
    cases a with
    | number n =>
      simp only [finish, Atom.finish] at h
      cases hn : n.finish with
      | error e => rw [hn] at h; cases h
      | ok m =>
        have hm : DistinctKeys (.number m) := distinctKeys_flat nofun nofun
        cases hg : deliver 0 stack (.number m) with
        | error e => simp [hn, hg, Except.map, Except.bind] at h
        | ok g =>
          simp only [hn, hg, Except.map, Except.bind] at h
          exact hdone (distinct_deliver hs.1 hm hg) h
    | _ => cases h
  | key stack members q => cases h

/-- The invariant holds in every state of a run, and so of its value. -/
theorem distinct_run {s : State} {p : Position} {cs : List Char} {v : Json} (hs : s.Distinct)
    (h : run s p cs = .ok v) : v.DistinctKeys := by
  induction cs generalizing s p with
  | nil =>
    rw [run] at h
    cases hf : finish s with
    | error e => rw [hf] at h; cases h
    | ok w =>
      rw [hf] at h
      cases h
      exact distinct_finish hs hf
  | cons c cs ih =>
    rw [run] at h
    split at h
    · rename_i s' hstep
      exact ih (distinct_step hs hstep) h
    · cases h

end Document

/-- No object that is read has a key twice. -/
theorem distinctKeys_of_parse {text : String} {v : Json} (h : parse text = .ok v) :
    v.DistinctKeys :=
  Document.distinct_run (s := Document.start) ⟨by simp, trivial⟩ h

end GoShape.Json
