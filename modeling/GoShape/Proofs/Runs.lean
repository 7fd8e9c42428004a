import GoShape.Command.Session
import Mathlib.Data.List.Basic

/-! What a run leaves behind, in each of the ways it may go: its sample cannot be read, there is nothing
to put out, the text is printed, the file is written, or the file cannot be written. -/
namespace GoShape.Command

variable {σ : Type} [FileSystem σ] {s : Invocation} {files : σ}
  {input : Except FileError ByteArray}

theorem Program.run_fail (f : Failure) (w : World σ) :
    (fail f).run w = (1, w.report [.failure f]) := by
  simp [fail]

namespace Invocation

open Program

/-- The sample of a run. -/
def sample (s : Invocation) (files : σ) (input : Except FileError ByteArray) :
    Except FileError String :=
  (match s.input with
    | some path => FileSystem.read files path
    | none => input).bind textOf

theorem run_fetch (s : Invocation) (w : World σ) :
    s.fetch.run w = (s.sample w.files w.input, w) := by
  unfold fetch sample
  cases s.input <;> simp

theorem run_execute_of_sample_error {w : World σ} {e : FileError}
    (h : s.sample w.files w.input = .error e) :
    s.execute.run w = (1, w.report [.failure (s.readFailure e)]) := by
  rw [execute, run_bind, run_fetch, h]
  exact run_fail _ _

/-- Behind a sample that is read, a run does what it responds. -/
theorem run_execute_of_sample {w : World σ} {text : String}
    (h : s.sample w.files w.input = .ok text) :
    s.execute.run w =
      (match s.render (declare text s.options) with
        | .ok out => s.store (out ++ "\n")
        | .error f => fail f).run (w.report ((s.respond text).1.map .entry)) := by
  have hrespond : (s.respond text).2 = (s.render (declare text s.options)).map (· ++ "\n") := rfl
  rw [execute, run_bind, run_fetch, h]
  simp only
  generalize s.respond text = r at hrespond
  obtain ⟨entries, result⟩ := r
  obtain rfl : result = _ := hrespond
  simp only [run_bind, run_reports]
  cases s.render (declare text s.options) <;> rfl

/-- The entries of a run up to its output. -/
theorem respond_fst (s : Invocation) (text : String) : (s.respond text).1 =
    [s.readEntry text, .ofEvent (attempt text s.options).2] ++
      match declare text s.options with
      | .ok _ => []
      | .error e => if s.json then [failedEntry e] else [] := by
  unfold declare respond
  generalize attempt text s.options = answer
  obtain ⟨result, event⟩ := answer
  cases result <;> rfl

theorem run_store_of_none {text : String} {w : World σ} (hout : s.output = none) :
    (s.store text).run w = (0, { w with stdout := w.stdout ++ text }) := by
  simp [store, hout]

theorem run_store_of_ok {text path : String} {w : World σ} {files' : σ} (hout : s.output = some path)
    (h : FileSystem.write w.files path text.toUTF8 = .ok files') :
    (s.store text).run w = (0, { w with files := files' }.report [.entry (wroteEntry path)]) := by
  simp only [store, hout, run_bind, run_writeFile_of_ok h, run_report, run_pure]

theorem run_store_of_error {text path : String} {w : World σ} {e : FileError}
    (hout : s.output = some path) (h : FileSystem.write w.files path text.toUTF8 = .error e) :
    (s.store text).run w = (1, w.report [.failure (writeFailure path e)]) := by
  simp only [store, hout, run_bind, run_writeFile_of_error h, run_fail]

end Invocation

/-! ### Outcomes -/

/-- A run that fails after some entries puts nothing out. -/
def Outcome.failed (files : σ) (entries : List Entry) (f : Failure) : Outcome σ :=
  ⟨1, "", entries.map .entry ++ [.failure f], files⟩

/-- The lines of the entries that are wanted. -/
def Filter.log (filter : Filter) (entries : List Entry) (time : String) : String :=
  String.join ((entries.filter filter.wants).map fun e => e.text time ++ "\n")

omit [FileSystem σ] in
theorem Outcome.stderr_failed (files : σ) (entries : List Entry) (f : Failure) (filter : Filter)
    (time : String) :
    (Outcome.failed files entries f).stderr filter time = filter.log entries time ++ f.text := by
  have hentries : (entries.map Report.entry).filter filter.shows =
      (entries.filter filter.wants).map .entry := by
    rw [List.filter_map]
    rfl
  have hfailure : [Report.failure f].filter filter.shows = [.failure f] := rfl
  rw [stderr, failed, List.filter_append, hentries, hfailure, List.map_append, List.map_map,
    String.join_append]
  simp [Filter.log, Report.text, Function.comp_def]

variable {args : List String}

theorem outcome_of_ofArguments (hargs : Request.ofArguments args = .run s) :
    outcome args files input = .ofRun (s.execute.run (.start files input fun _ => true)) := by
  rw [outcome, program, hargs]

theorem outcome_of_sample_error (hargs : Request.ofArguments args = .run s) {e : FileError}
    (h : s.sample files input = .error e) :
    outcome args files input = .failed files [] (s.readFailure e) := by
  rw [outcome_of_ofArguments hargs, Invocation.run_execute_of_sample_error h]
  rfl

section

variable (hargs : Request.ofArguments args = .run s) {text : String}
  (h : s.sample files input = .ok text)

include hargs h

/-- A run with nothing to put out fails. -/
theorem outcome_of_render_error {f : Failure} (hrender : s.render (declare text s.options) = .error f) :
    outcome args files input = .failed files (s.respond text).1 f := by
  rw [outcome_of_ofArguments hargs, Invocation.run_execute_of_sample h, hrender]
  simp [Program.run_fail, Outcome.ofRun, Outcome.failed, World.report, World.start]

/-- A run with something to put out stores it, after its entries. -/
theorem outcome_of_render {out : String} (hrender : s.render (declare text s.options) = .ok out) :
    outcome args files input = .ofRun ((s.store (out ++ "\n")).run
      ((World.start files input fun _ => true).report ((s.respond text).1.map .entry))) := by
  rw [outcome_of_ofArguments hargs, Invocation.run_execute_of_sample h, hrender]

theorem outcome_printed {out : String} (hrender : s.render (declare text s.options) = .ok out)
    (hout : s.output = none) :
    outcome args files input = ⟨0, out ++ "\n", (s.respond text).1.map .entry, files⟩ := by
  rw [outcome_of_render hargs h hrender, Invocation.run_store_of_none hout]
  simp [Outcome.ofRun, World.report, World.start]

theorem outcome_written {out path : String} {files' : σ}
    (hrender : s.render (declare text s.options) = .ok out) (hout : s.output = some path)
    (hwrite : FileSystem.write files path (out ++ "\n").toUTF8 = .ok files') :
    outcome args files input =
      ⟨0, "", ((s.respond text).1 ++ [Invocation.wroteEntry path]).map .entry, files'⟩ := by
  rw [outcome_of_render hargs h hrender, Invocation.run_store_of_ok hout hwrite]
  simp [Outcome.ofRun, World.report, World.start]

theorem outcome_unwritten {out path : String} {e : FileError}
    (hrender : s.render (declare text s.options) = .ok out) (hout : s.output = some path)
    (hwrite : FileSystem.write files path (out ++ "\n").toUTF8 = .error e) :
    outcome args files input =
      .failed files (s.respond text).1 (Invocation.writeFailure path e) := by
  rw [outcome_of_render hargs h hrender, Invocation.run_store_of_error hout hwrite]
  simp [Outcome.ofRun, Outcome.failed, World.report, World.start]

end

end GoShape.Command
