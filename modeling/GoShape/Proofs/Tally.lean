import GoShape.Inference
import Mathlib.Data.List.Induction
import Mathlib.Data.List.Nodup
import Mathlib.Tactic.SplitIfs

/-! Counting keys. The tallies of a list of fields have every key once, with the type of its first
field and the number of its fields, and so have the fields that structs are merged into. -/
namespace GoShape

namespace Tally

variable {τ : Type}

/-- The tally of a key. -/
def lookup? (ts : List (Tally τ)) (key : String) : Option (Tally τ) :=
  ts.find? fun t => t.key == key

theorem lookup?_meet (key : String) (type : τ) (ts : List (Tally τ)) (k : String) :
    lookup? (meet key type ts) k =
      if k = key then
        some (((lookup? ts key).map fun t => { t with count := t.count + 1 }).getD ⟨key, type, 1⟩)
      else lookup? ts k := by
  induction ts with
  | nil =>
    by_cases hk : k = key
    · simp [lookup?, meet, hk]
    · simp [lookup?, meet, hk, Ne.symm hk]
  | cons t ts ih =>
    unfold lookup? at ih ⊢
    by_cases ht : t.key = key
    · by_cases hk : k = key
      · simp [meet, ht, hk]
      · simp [meet, ht, hk, Ne.symm hk]
    · by_cases hk : k = key
      · subst hk
        simpa [meet, ht] using ih
      · by_cases htk : t.key = k
        · simp [meet, htk, hk]
        · simpa [meet, ht, htk, hk] using ih

theorem keys_meet (key : String) (type : τ) (ts : List (Tally τ)) :
    (meet key type ts).map Tally.key =
      if key ∈ ts.map Tally.key then ts.map Tally.key else ts.map Tally.key ++ [key] := by
  induction ts with
  | nil => simp [meet]
  | cons t ts ih =>
    by_cases h : t.key = key
    · simp [meet, h]
    · simp only [meet, if_neg h, List.map_cons, ih, List.mem_cons, Ne.symm h, false_or]
      split <;> simp

theorem meet_of_not_mem {key : String} (type : τ) {ts : List (Tally τ)}
    (h : key ∉ ts.map Tally.key) : meet key type ts = ts ++ [⟨key, type, 1⟩] := by
  induction ts with
  | nil => rfl
  | cons t ts ih =>
    rw [List.map_cons, List.mem_cons, not_or] at h
    simp [meet, Ne.symm h.1, ih h.2]

theorem ofFields_append_singleton (fields : List (Field τ)) (f : Field τ) :
    ofFields (fields ++ [f]) = meet f.key f.type (ofFields fields) := by
  simp [ofFields]

theorem nodup_ofFields (fields : List (Field τ)) : ((ofFields fields).map Tally.key).Nodup := by
  induction fields using List.reverseRecOn with
  | nil => exact List.nodup_nil
  | append_singleton fields f ih =>
    rw [ofFields_append_singleton, keys_meet]
    split_ifs with h
    · exact ih
    · refine List.nodup_append.mpr ⟨ih, List.nodup_singleton _, ?_⟩
      rintro k hk l hl rfl
      exact h (List.mem_singleton.mp hl ▸ hk)

/-- A key has the type of its first field and the number of all its fields. -/
theorem lookup?_ofFields (fields : List (Field τ)) (k : String) :
    lookup? (ofFields fields) k = (Field.lookup? fields k).map fun f =>
      ⟨k, f.type, fields.countP fun f => f.key = k⟩ := by
  induction fields using List.reverseRecOn with
  | nil => rfl
  | append_singleton fields f ih =>
    rw [ofFields_append_singleton, lookup?_meet]
    unfold Field.lookup? at ih ⊢
    by_cases hk : k = f.key
    · subst hk
      rw [if_pos rfl, ih]
      cases h : fields.find? fun g => g.key == f.key with
      | none =>
        have hzero : (fields.countP fun g => g.key = f.key) = 0 := by
          rw [List.countP_eq_zero]
          simpa using h
        simp [List.find?_append, List.countP_append, h, hzero]
      | some g => simp [List.find?_append, List.countP_append, h]
    · rw [if_neg hk, ih]
      simp [List.find?_append, List.countP_append, Ne.symm hk]

end Tally

namespace Field

variable {τ : Type}

@[simp] theorem key_ofKey (key : String) (type : τ) (optional : Bool) :
    (Field.ofKey key type optional).key = key := rfl

@[simp] theorem optional_ofKey (key : String) (type : τ) (optional : Bool) :
    (Field.ofKey key type optional).optional = optional := rfl

/-- Where no key is repeated, a field is the first one of its key. -/
theorem lookup?_of_mem {fields : List (Field τ)} (h : (fields.map Field.key).Nodup) {f : Field τ}
    (hf : f ∈ fields) : lookup? fields f.key = some f := by
  induction fields with
  | nil => cases hf
  | cons g fields ih =>
    rw [List.map_cons, List.nodup_cons] at h
    rcases List.mem_cons.mp hf with rfl | hf
    · simp [lookup?]
    · have hne : g.key ≠ f.key := fun e => h.1 (e ▸ List.mem_map_of_mem hf)
      simpa [lookup?, hne] using ih h.2 hf

end Field

namespace GoType

theorem nodup_merge (elements : List GoType) : ((merge elements).map Field.key).Nodup := by
  have h := Tally.nodup_ofFields (elements.flatMap fields)
  rwa [merge, List.map_map]

/-- The field of a key in the merged struct. -/
theorem lookup?_merge (elements : List GoType) (k : String) :
    Field.lookup? (merge elements) k =
      (Field.lookup? (elements.flatMap fields) k).map fun f => .ofKey k f.type
        ((elements.flatMap fields).countP (fun f => f.key = k) < elements.length) := by
  have h := Tally.lookup?_ofFields (elements.flatMap fields) k
  rw [merge, Field.lookup?, List.find?_map]
  have hkey : ((fun f : Field GoType => f.key == k) ∘ Tally.field elements.length) =
      fun t => t.key == k := rfl
  rw [hkey, ← Tally.lookup?, h, Option.map_map]
  rfl

end GoType
end GoShape
