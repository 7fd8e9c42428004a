import GoShape.Proofs.Guarded.Names
import GoShape.Proofs.Tally
import Std.Data.HashMap.Lemmas

/-! Types with guarded steps. A type is made of a kind only where the kind has no parts, the first
element of a list is read by its place, and the keys of objects are counted in slots that a table
finds again. All these steps have a result, for every value. -/
namespace GoShape

namespace Tally

variable {τ : Type}

/-- A key that was met before is counted where it was first met. -/
theorem meet_of_idxOf? {key : String} (type : τ) {ts : List (Tally τ)} {i : Nat}
    (h : (ts.map Tally.key).idxOf? key = some i) :
    ∃ hi : i < ts.length, meet key type ts = ts.set i { ts[i] with count := ts[i].count + 1 } := by
  induction ts generalizing i with
  | nil => simp at h
  | cons t ts ih =>
    rw [List.map_cons, List.idxOf?_cons] at h
    by_cases ht : t.key = key
    · obtain rfl : 0 = i := by simpa [ht] using h
      exact ⟨Nat.zero_lt_succ _, by simp [meet, ht]⟩
    · obtain ⟨j, hj, rfl⟩ : ∃ j, (ts.map Tally.key).idxOf? key = some j ∧ j + 1 = i := by
        simpa [ht] using h
      obtain ⟨hlt, hmeet⟩ := ih hj
      exact ⟨Nat.succ_lt_succ hlt, by simp [meet, ht, hmeet]⟩

/-- A tally of other things. -/
def map {σ : Type} (f : τ → σ) (t : Tally τ) : Tally σ := ⟨t.key, f t.type, t.count⟩

theorem meet_map {σ : Type} (f : τ → σ) (key : String) (type : τ) (ts : List (Tally τ)) :
    meet key (f type) (ts.map (Tally.map f)) = (meet key type ts).map (Tally.map f) := by
  induction ts with
  | nil => rfl
  | cons t ts ih =>
    by_cases ht : t.key = key
    · simp [meet, map, ht]
    · simpa [meet, map, ht] using ih

end Tally

namespace Guarded

/-! ### Slots -/

/-- The keys that were met with the value each was first met with, and the place of each key. -/
structure Slots where
  seen : List (Tally Json)
  index : Std.HashMap String Nat

namespace Slots

def empty : Slots := ⟨[], ∅⟩

/-- Meet a key with a value. -/
def meet (s : Slots) (key : String) (v : Json) : Except Panic Slots :=
  match s.index[key]? with
  | some slot => do
    let t ← nth s.seen slot
    return { s with seen := s.seen.set slot { t.val with count := t.val.count + 1 } }
  | none => .ok ⟨s.seen ++ [⟨key, v, 1⟩], s.index.insert key s.seen.length⟩

/-- The table has the place of every key that was met, and of no other. -/
def InStep (s : Slots) : Prop := ∀ key, s.index[key]? = (s.seen.map Tally.key).idxOf? key

theorem inStep_empty : empty.InStep := fun key => by simp [empty]

theorem InStep.push {s : Slots} (h : s.InStep) {key : String} (v : Json)
    (hkey : key ∉ s.seen.map Tally.key) :
    InStep ⟨s.seen ++ [⟨key, v, 1⟩], s.index.insert key s.seen.length⟩ := by
  intro k
  have happend : (s.seen.map Tally.key ++ [key]).findIdx? (· == k) = _ := List.findIdx?_append
  by_cases hk : key = k
  · subst hk
    have hnone : (s.seen.map Tally.key).findIdx? (· == key) = none := List.idxOf?_eq_none_iff.mpr hkey
    rw [hnone] at happend
    simp [List.idxOf?, happend]
  · rw [Std.HashMap.getElem?_insert, if_neg (by simpa using hk), h k]
    simp [hk, List.idxOf?, happend]

/-- The place in the table is the place of a slot, so meeting a key has a result. -/
theorem InStep.meet {s : Slots} (h : s.InStep) (key : String) (v : Json) :
    ∃ s', s.meet key v = .ok s' ∧ s'.InStep ∧ s'.seen = Tally.meet key v s.seen := by
  cases hslot : s.index[key]? with
  | some slot =>
    have hidx : (s.seen.map Tally.key).idxOf? key = some slot := (h key).symm.trans hslot
    have hmem : key ∈ s.seen.map Tally.key := by
      by_contra hnot
      rw [List.idxOf?_eq_none_iff.mpr hnot] at hidx
      cases hidx
    obtain ⟨hlt, hmeet⟩ := Tally.meet_of_idxOf? v hidx
    have hkeys := Tally.keys_meet key v s.seen
    rw [if_pos hmem, hmeet] at hkeys
    refine ⟨⟨_, s.index⟩, ?_, fun k => ?_, hmeet.symm⟩
    · simp only [Slots.meet, hslot, nth_of_lt hlt, ok_bind, pure_eq_ok]
    · exact (h k).trans (congrArg (List.idxOf? k) hkeys.symm)
  | none =>
    have hmem : key ∉ s.seen.map Tally.key := List.idxOf?_eq_none_iff.mp ((h key).symm.trans hslot)
    exact ⟨_, by simp only [Slots.meet, hslot], h.push v hmem, (Tally.meet_of_not_mem v hmem).symm⟩

end Slots

/-- The members of an object; no other value has any. -/
def members : Json → List (String × Json)
  | .object ms => ms
  | _ => []

/-- Meet all the members of the objects in a list. -/
def collect (items : List Json) : Except Panic Slots :=
  (items.flatMap members).foldlM (fun s m => s.meet m.1 m.2) .empty

/-- The members that were met, each key once. -/
def tallies (ms : List (String × Json)) : List (Tally Json) :=
  ms.foldl (fun ts m => Tally.meet m.1 m.2 ts) []

theorem tallies_append_singleton (ms : List (String × Json)) (m : String × Json) :
    tallies (ms ++ [m]) = Tally.meet m.1 m.2 (tallies ms) := by
  simp [tallies]

theorem foldlM_meet (ms : List (String × Json)) :
    ∃ s, ms.foldlM (fun s m => s.meet m.1 m.2) Slots.empty = .ok s ∧ s.InStep ∧
      s.seen = tallies ms := by
  induction ms using List.reverseRecOn with
  | nil => exact ⟨.empty, rfl, Slots.inStep_empty, rfl⟩
  | append_singleton ms m ih =>
    obtain ⟨s, hrun, hstep, hseen⟩ := ih
    obtain ⟨s', hmeet, hstep', hseen'⟩ := hstep.meet m.1 m.2
    refine ⟨s', ?_, hstep', ?_⟩
    · simp [List.foldlM_append, hrun, hmeet]
    · rw [hseen', hseen, tallies_append_singleton]

/-- The table never leads behind the slots. -/
theorem collect_eq (items : List Json) :
    ∃ s, collect items = .ok s ∧ s.seen = tallies (items.flatMap members) := by
  obtain ⟨s, hrun, -, hseen⟩ := foldlM_meet (items.flatMap members)
  exact ⟨s, hrun, hseen⟩

theorem mem_meet {key : String} {v : Json} {ts : List (Tally Json)} {t : Tally Json}
    (h : t ∈ Tally.meet key v ts) : t.type = v ∨ ∃ t' ∈ ts, t'.type = t.type := by
  induction ts with
  | nil => exact .inl (by simp_all [Tally.meet])
  | cons t' ts ih =>
    rw [Tally.meet] at h
    split at h
    · rcases List.mem_cons.mp h with rfl | h
      · exact .inr ⟨t', by simp⟩
      · exact .inr ⟨t, by simp [h]⟩
    · rcases List.mem_cons.mp h with rfl | h
      · exact .inr ⟨t, by simp⟩
      · rcases ih h with hnew | ⟨t'', hold, htype⟩
        · exact .inl hnew
        · exact .inr ⟨t'', by simp [hold], htype⟩

/-- Every slot holds the value of a member. -/
theorem mem_tallies {ms : List (String × Json)} {t : Tally Json} (h : t ∈ tallies ms) :
    ∃ m ∈ ms, m.2 = t.type := by
  induction ms using List.reverseRecOn generalizing t with
  | nil => cases h
  | append_singleton ms m ih =>
    rw [tallies_append_singleton] at h
    rcases mem_meet h with hnew | ⟨t', hold, htype⟩
    · exact ⟨m, by simp, hnew.symm⟩
    · obtain ⟨m', hm', htype'⟩ := ih hold
      exact ⟨m', by simp [hm'], htype'.trans htype⟩

theorem sizeOf_lt_of_mem_members {v : Json} {m : String × Json} (h : m ∈ members v) :
    sizeOf m.2 < sizeOf v := by
  cases v with
  | object ms =>
    have hlt : sizeOf m < sizeOf ms := List.sizeOf_lt_of_mem h
    obtain ⟨key, w⟩ := m
    simp only [Prod.mk.sizeOf_spec, Json.object.sizeOf_spec] at hlt ⊢
    omega
  | _ => cases h

theorem sizeOf_lt_of_mem_seen {items : List Json} {s : Slots} (hs : collect items = .ok s)
    {t : Tally Json} (ht : t ∈ s.seen) : sizeOf t.type < sizeOf items := by
  obtain ⟨s', hs', hseen⟩ := collect_eq items
  obtain rfl : s' = s := Except.ok.inj (hs'.symm.trans hs)
  rw [hseen] at ht
  obtain ⟨m, hm, htype⟩ := mem_tallies ht
  obtain ⟨v, hv, hmv⟩ := List.mem_flatMap.mp hm
  rw [← htype]
  exact (sizeOf_lt_of_mem_members hmv).trans (List.sizeOf_lt_of_mem hv)

/-! ### Types -/

/-- The type that a kind without parts stands for. -/
def lift : Kind → Except Panic GoType
  | .scalar s => .ok (.scalar s)
  | k => .error (.structural k)

def field (key : String) (type : GoType) (optional : Bool) : Except Panic (Field GoType) := do
  let name ← format key
  return ⟨name, key, type, optional⟩

mutual

/-- The type of a value. -/
def type (v : Json) : Except Panic GoType :=
  match v with
  | .array items => do
    let element ← elementType items
    return .slice element
  | .object ms => do
    let fields ← ms.attach.mapM fun m => do
      let t ← type m.val.2
      field m.val.1 t false
    return .struct fields
  | flat => lift flat.kind
termination_by sizeOf v
decreasing_by
  · decreasing_tactic
  · exact sizeOf_lt_of_mem_members m.2

/-- The type of the elements of a list. -/
def elementType (items : List Json) : Except Panic GoType :=
  match Json.commonKind items with
  | none => .ok (.scalar .any)
  | some .struct =>
    match _ : collect items with
    | .error e => .error e
    | .ok s => do
      let fields ← s.seen.attach.mapM fun t => do
        let u ← type t.val.type
        field t.val.key u (t.val.count < items.length)
      return .struct fields
  | some .slice => do
    let first ← nth items 0
    type first
  | some k => lift k
termination_by sizeOf items
decreasing_by
  · exact sizeOf_lt_of_mem_seen ‹collect items = .ok s› t.2
  · exact List.sizeOf_lt_of_mem first.2

end

theorem field_eq (key : String) (type : GoType) (optional : Bool) :
    field key type optional = .ok (.ofKey key type optional) := by
  rw [field, format_eq]
  rfl

theorem fields_type (v : Json) :
    v.type.fields = (members v).map fun m => .ofKey m.1 m.2.type false := by
  cases v with
  | object ms => simp [members, Json.type, GoType.fields, Json.memberFields_eq_map]
  | _ => rfl

/-- The slots hold what the tallies of the types say, once their values are typed. -/
theorem ofFields_types (items : List Json) :
    Tally.ofFields ((items.map Json.type).flatMap GoType.fields) =
      (tallies (items.flatMap members)).map (Tally.map Json.type) := by
  have hfields : (items.map Json.type).flatMap GoType.fields =
      (items.flatMap members).map fun m => .ofKey m.1 m.2.type false := by
    simp only [List.flatMap_map, List.map_flatMap, fields_type]
  rw [hfields]
  induction items.flatMap members using List.reverseRecOn with
  | nil => rfl
  | append_singleton ms m ih =>
    rw [List.map_append, List.map_singleton, Tally.ofFields_append_singleton, ih,
      tallies_append_singleton, ← Tally.meet_map]
    rfl

/-- The slots are what the tallies say, so once their values are typed they are the merged fields. -/
theorem map_seen {items : List Json} {s : Slots} (hs : collect items = .ok s) :
    (s.seen.map fun t => Tally.field items.length (t.map Json.type)) = Json.mergedFields items := by
  obtain ⟨s', hs', hseen⟩ := collect_eq items
  obtain rfl : s' = s := Except.ok.inj (hs'.symm.trans hs)
  simp only [Json.mergedFields, GoType.merge, ofFields_types, hseen, List.length_map, List.map_map]
  rfl

theorem mapM_seen {items : List Json} {s : Slots} (hs : collect items = .ok s)
    (h : ∀ v, sizeOf v < sizeOf items → type v = .ok v.type) :
    (s.seen.attach.mapM fun t => do
      let u ← type t.val.type
      field t.val.key u (t.val.count < items.length)) = .ok (Json.mergedFields items) := by
  have htypes (t : { t // t ∈ s.seen }) : (do
      let u ← type t.val.type
      field t.val.key u (t.val.count < items.length)) =
      .ok (Tally.field items.length (t.val.map Json.type)) := by
    rw [h _ (sizeOf_lt_of_mem_seen hs t.2)]
    exact field_eq _ _ _
  have hrun := mapM_attach_eq_ok (l := s.seen)
    (g := fun t : Tally Json => Tally.field items.length (t.map Json.type)) htypes
  rw [hrun, map_seen hs]

theorem elementType_eq {items : List Json}
    (h : ∀ v, sizeOf v < sizeOf items → type v = .ok v.type) :
    elementType items = .ok (Json.elementType items) := by
  rw [elementType, Json.elementType, GoType.common, Json.commonKind_types]
  cases hk : Json.commonKind items with
  | none => rfl
  | some k =>
    cases k with
    | scalar s => rfl
    | slice =>
      cases items with
      | nil => cases hk
      | cons v items => exact h v (List.sizeOf_lt_of_mem (by simp))
    | struct =>
      simp only
      split
      · rename_i e he
        obtain ⟨s, hs, -⟩ := collect_eq items
        cases he.symm.trans hs
      · rename_i s hs
        rw [mapM_seen hs h]
        rfl

/-- Every value has a type: no kind with parts is taken for one without, no first element is read
from an empty list, and no slot is behind the last. -/
theorem type_eq (v : Json) : type v = .ok v.type := by
  -- By size: a list looks at the members of its items at once, which are not its direct parts.
  induction hn : sizeOf v using Nat.strong_induction_on generalizing v with
  | _ n ih =>
    subst hn
    cases v with
    | array items =>
      have hsmaller (w : Json) (hw : sizeOf w < sizeOf items) : type w = .ok w.type := by
        have hlt : sizeOf items < sizeOf (Json.array items) := by simp
        exact ih _ (hw.trans hlt) w rfl
      rw [type, elementType_eq hsmaller, Json.type_array]
      rfl
    | object ms =>
      have hfields (m : { m // m ∈ ms }) : (do
          let t ← type m.val.2
          field m.val.1 t false) = .ok (.ofKey m.val.1 m.val.2.type false) := by
        have hlt : sizeOf m.val.2 < sizeOf (Json.object ms) := sizeOf_lt_of_mem_members m.2
        rw [ih _ hlt _ rfl]
        exact field_eq _ _ _
      rw [type, mapM_attach_eq_ok (g := fun m => .ofKey m.1 m.2.type false) hfields, Json.type,
        Json.memberFields_eq_map]
      rfl
    | _ => rw [type] <;> first | rfl | simp

/-- The fields of all the objects in a list, made of the slots. -/
def mergedFields (items : List Json) : Except Panic (List (Field GoType)) := do
  let s ← collect items
  s.seen.mapM fun t => do
    let u ← type t.type
    field t.key u (t.count < items.length)

theorem mergedFields_eq (items : List Json) : mergedFields items = .ok (Json.mergedFields items) := by
  obtain ⟨s, hs, -⟩ := collect_eq items
  have htypes (t : Tally Json) : (do
      let u ← type t.type
      field t.key u (t.count < items.length)) =
      .ok (Tally.field items.length (t.map Json.type)) := by
    rw [type_eq]
    exact field_eq _ _ _
  rw [mergedFields, hs, ok_bind, mapM_eq_ok htypes, map_seen hs]

end Guarded
end GoShape
