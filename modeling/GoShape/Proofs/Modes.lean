import GoShape.Proofs.Arguments
import GoShape.Proofs.Files
import GoShape.Proofs.Printing
import GoShape.Proofs.Runs

/-! The ways to run the program. A run that prints an object and a run that prints the declaration
itself tell the same of a sample, and a run that writes a file writes what it would have printed. -/
namespace GoShape.Command

variable {σ : Type} [FileSystem σ] {s : Invocation} {args : List String} {files : σ}
  {input : Except FileError ByteArray}

theorem Invocation.text_readFailure (s : Invocation) (e : FileError) :
    (s.readFailure e).text =
      "Error: " ++ (match s.input with
        | some path => "Failed to read file: " ++ path
        | none => "Failed to read from stdin") ++ "\n\nCaused by:\n    " ++ e.message ++ "\n" := by
  unfold readFailure
  cases s.input <;> rfl

theorem Invocation.text_convertFailure (e : ConvertError) :
    (convertFailure e).text =
      "Error: Failed to convert JSON to Go\n\nCaused by:\n    " ++ e.message ++ "\n" := by
  have hcontext : "Error: " ++ "Failed to convert JSON to Go" ++ "\n\nCaused by:\n    " =
      "Error: Failed to convert JSON to Go\n\nCaused by:\n    " := by decide +kernel
  rw [Failure.text, convertFailure, hcontext]

section

variable (hargs : Request.ofArguments args = .run s) {text : String}
  (h : s.sample files input = .ok text)

include hargs h

/-- A run that prints an object does not fail. -/
theorem outcome_json (hjson : s.json = true) (hout : s.output = none) :
    (outcome args files input).exitCode = 0 ∧
      (outcome args files input).stdout = (convert text s.options).toJson.pretty 0 ++ "\n" := by
  have hrender : s.render (declare text s.options) =
      .ok ((convert text s.options).toJson.pretty 0) := by
    rw [Invocation.render, if_pos hjson]
    rfl
  rw [outcome_printed hargs h hrender hout]
  exact ⟨rfl, rfl⟩

/-- A run that prints the declaration itself. -/
theorem outcome_declared (hjson : s.json = false) (hout : s.output = none) {go : String}
    (hgo : declare text s.options = .ok go) :
    outcome args files input = ⟨0, go ++ "\n", (s.respond text).1.map .entry, files⟩ := by
  refine outcome_printed hargs h ?_ hout
  simp [Invocation.render, hjson, hgo, Except.mapError]

/-- Without a declaration, a run that does not print an object fails. -/
theorem outcome_refused (hjson : s.json = false) {e : ConvertError}
    (he : declare text s.options = .error e) :
    outcome args files input = .failed files
      [s.readEntry text, .ofEvent (attempt text s.options).2] (Invocation.convertFailure e) := by
  have hrender : s.render (declare text s.options) = .error (Invocation.convertFailure e) := by
    simp [Invocation.render, hjson, he, Except.mapError]
  rw [outcome_of_render_error hargs h hrender, Invocation.respond_fst, he]
  simp [hjson]

theorem declared_iff (hjson : s.json = false) (hout : s.output = none) (go : String) :
    (outcome args files input).exitCode = 0 ∧ (outcome args files input).stdout = go ++ "\n" ↔
      convert text s.options = ⟨go, none⟩ := by
  rw [convert]
  cases hresult : declare text s.options with
  | ok go' => simp [outcome_declared hargs h hjson hout hresult, Conversion.ofResult]
  | error e => simp [outcome_refused hargs h hjson hresult, Conversion.ofResult, Outcome.failed]

theorem refused_iff (hjson : s.json = false) (hout : s.output = none) (message : String)
    (filter : Filter) (time : String) :
    (outcome args files input).exitCode = 1 ∧ (outcome args files input).stderr filter time =
        filter.log [s.readEntry text, .ofEvent (attempt text s.options).2] time ++
          "Error: Failed to convert JSON to Go\n\nCaused by:\n    " ++ message ++ "\n" ↔
      convert text s.options = ⟨"", some message⟩ := by
  rw [convert]
  cases hresult : declare text s.options with
  | ok go => simp [outcome_declared hargs h hjson hout hresult, Conversion.ofResult]
  | error e =>
    rw [outcome_refused hargs h hjson hresult, Outcome.stderr_failed, Invocation.text_convertFailure]
    simp [Conversion.ofResult, Outcome.failed, String.append_assoc]

end

/-- A run that prints something, sent to a file instead. -/
theorem outcome_output {filedArgs : List String} {path : String} {files' : σ} (hout : s.output = none)
    (hargs : Request.ofArguments args = .run s)
    (hfiled : Request.ofArguments filedArgs = .run { s with output := some path })
    (hcode : (outcome args files input).exitCode = 0)
    (hwrite : FileSystem.write files path (outcome args files input).stdout.toUTF8 = .ok files') :
    (outcome filedArgs files input).exitCode = 0 ∧ (outcome filedArgs files input).stdout = "" ∧
      (outcome filedArgs files input).files = files' := by
  cases h : s.sample files input with
  | error e =>
    rw [outcome_of_sample_error hargs h] at hcode
    cases hcode
  | ok text =>
    cases hrender : s.render (declare text s.options) with
    | error f =>
      rw [outcome_of_render_error hargs h hrender] at hcode
      cases hcode
    | ok out =>
      rw [outcome_printed hargs h hrender hout] at hwrite
      rw [outcome_written hfiled h hrender rfl hwrite]
      exact ⟨rfl, rfl, rfl⟩

end GoShape.Command
