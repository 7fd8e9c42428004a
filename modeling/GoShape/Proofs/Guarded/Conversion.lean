import GoShape.Conversion
import GoShape.Proofs.Guarded.Types

/-! Conversions with guarded steps. An error is the fault of the size or of the syntax of a sample, and
behind these every step has a result. A conversion reports one event, that of its outcome. -/
namespace GoShape

namespace Guarded

/-- A computation that reports events and may have no result. -/
abbrev Reporting := StateT (List Event) (Except Panic)

def emit (e : Event) : Reporting Unit := modify fun log => log ++ [e]

/-- The declaration for a sample of any size. -/
def infer (text : String) (o : Options) : Reporting (Except ConvertError String) :=
  match Json.parse (forceFractional text) with
  | .error e => do
    emit (.malformed e)
    return .error (.malformed e)
  | .ok v => do
    let t ← type v
    let name ← rootName o
    emit (.inferred name t.kind t.topLevelFields)
    return .ok (declaration name t)

/-- The declaration for a sample or the reason why there is none. -/
def attempt (text : String) (o : Options) : Reporting (Except ConvertError String) :=
  match o.maxInputBytes with
  | some limit =>
    if limit < text.utf8ByteSize then do
      emit (.overLimit text.utf8ByteSize limit)
      return .error (.tooLarge text.utf8ByteSize limit)
    else infer text o
  | none => infer text o

end Guarded

/-- A conversion ends with a result and an event: its steps all have a result when they are guarded,
and then nothing else is reported. -/
structure Ends (text : String) (o : Options) (result : Except ConvertError String) (event : Event) :
    Prop where
  plain : attempt text o = (result, event)
  guarded : ∀ log, (Guarded.attempt text o).run log = .ok (result, log ++ [event])

theorem ends_of_exceeds {text : String} {o : Options} {k : Nat} (hk : o.maxInputBytes = some k)
    (h : k < text.utf8ByteSize) :
    Ends text o (.error (.tooLarge text.utf8ByteSize k)) (.overLimit text.utf8ByteSize k) := by
  have hexceeded : exceeded? text o = some k := by simp [exceeded?, hk, Option.filter_some, h]
  refine ⟨attempt_of_exceeded hexceeded, fun log => ?_⟩
  rw [Guarded.attempt, hk]
  simp only [if_pos h]
  rfl

theorem exceeded?_eq_none {text : String} {o : Options}
    (h : ∀ k, o.maxInputBytes = some k → text.utf8ByteSize ≤ k) : exceeded? text o = none := by
  simpa [exceeded?, Option.filter_eq_none_iff] using h

theorem guarded_attempt_eq_infer {text : String} {o : Options}
    (h : ∀ k, o.maxInputBytes = some k → text.utf8ByteSize ≤ k) :
    Guarded.attempt text o = Guarded.infer text o := by
  rw [Guarded.attempt]
  cases hk : o.maxInputBytes with
  | none => rfl
  | some k => exact if_neg (Nat.not_lt.mpr (h k hk))

theorem ends_of_malformed {text : String} {o : Options} {e : Json.ReadError}
    (h : ∀ k, o.maxInputBytes = some k → text.utf8ByteSize ≤ k)
    (he : Json.parse (forceFractional text) = .error e) :
    Ends text o (.error (.malformed e)) (.malformed e) := by
  refine ⟨attempt_of_malformed (exceeded?_eq_none h) he, fun log => ?_⟩
  rw [guarded_attempt_eq_infer h, Guarded.infer, he]
  rfl

theorem ends_of_parse {text : String} {o : Options} {v : Json}
    (h : ∀ k, o.maxInputBytes = some k → text.utf8ByteSize ≤ k)
    (hv : Json.parse (forceFractional text) = .ok v) :
    Ends text o (.ok (declaration o.rootName v.type))
      (.inferred o.rootName v.type.kind v.type.topLevelFields) := by
  refine ⟨attempt_of_parse (exceeded?_eq_none h) hv, fun log => ?_⟩
  rw [guarded_attempt_eq_infer h, Guarded.infer, hv]
  simp only [Guarded.type_eq, Guarded.rootName_eq]
  rfl

/-- Without a declaration there is a message, and never both. -/
theorem convert_go_eq_empty_iff (text : String) (o : Options) :
    (convert text o).go = "" ↔ (convert text o).error.isSome := by
  unfold convert declare attempt
  cases exceeded? text o with
  | some limit => simp [Conversion.ofResult]
  | none =>
    cases sampleType text with
    | error e => simp [Conversion.ofResult]
    | ok t => simp [Conversion.ofResult, declaration]

/-- A sample over the limit is refused whatever it says; any other sample is refused if it does not
parse, and otherwise declared. Each time that is the only event, and no guarded step fails. -/
theorem attempt_outcome (text : String) (o : Options) :
    (∀ k, o.maxInputBytes = some k → k < text.utf8ByteSize →
      Ends text o (.error (.tooLarge text.utf8ByteSize k)) (.overLimit text.utf8ByteSize k)) ∧
    ((∀ k, o.maxInputBytes = some k → text.utf8ByteSize ≤ k) →
      (∀ e, Json.parse (forceFractional text) = .error e →
        Ends text o (.error (.malformed e)) (.malformed e)) ∧
      ∀ v, Json.parse (forceFractional text) = .ok v → ∃ body,
        Ends text o (.ok ("type " ++ o.rootName ++ " " ++ body))
          (.inferred o.rootName v.type.kind v.type.topLevelFields)) ∧
    ((convert text o).go = "" ↔ (convert text o).error.isSome) := by
  refine ⟨fun k hk h => ends_of_exceeds hk h, fun h => ⟨fun e he => ends_of_malformed h he, ?_⟩,
    convert_go_eq_empty_iff text o⟩
  intro v hv
  exact ⟨v.type.text 0, ends_of_parse h hv⟩

/-- All three outcomes; the sample over the limit would not parse either. -/
theorem attempt_outcome_samples :
    Ends "[" ⟨none, some 0⟩ (.error (.tooLarge 1 0)) (.overLimit 1 0) ∧
    (∃ e, Ends "[" ⟨none, some 1⟩ (.error (.malformed e)) (.malformed e)) ∧
    ∃ body, Ends "[\x7b\"1a\":[2]\x7d]" ⟨some "user_id", some 100⟩
      (.ok ("type " ++ "UserID" ++ " " ++ body)) (.inferred "UserID" .slice 1) := by
  let value : Json := .array [.object [("1a", .array [.number ⟨false, [2], [], none⟩])]]
  have hname : Options.rootName ⟨some "user_id", some 100⟩ = "UserID" := by decide +kernel
  have hmalformed : ∃ e, Json.parse (forceFractional "[") = .error e := ⟨_, rfl⟩
  obtain ⟨e, he⟩ := hmalformed
  obtain ⟨-, hshort, -⟩ := attempt_outcome "[" ⟨none, some 1⟩
  obtain ⟨-, hvalid, -⟩ := attempt_outcome "[\x7b\"1a\":[2]\x7d]" ⟨some "user_id", some 100⟩
  obtain ⟨body, hbody⟩ := (hvalid (by rintro _ ⟨⟩; decide)).2 value rfl
  rw [hname] at hbody
  exact ⟨(attempt_outcome "[" ⟨none, some 0⟩).1 0 rfl (by decide),
    ⟨e, (hshort (by rintro _ ⟨⟩; decide)).1 e he⟩, body, hbody⟩

end GoShape
