import GoShape.Command.Files
import GoShape.Command.Log
import GoShape.Command.Usage

/-! A program as the calls that it makes to the system it runs on. What it does next depends on the
answers alone, so the same program runs on any system that answers. -/
namespace GoShape.Command

/-- Why a run fails: what it was doing, and what stood in the way. -/
structure Failure where
  doing : String
  cause : String
  deriving DecidableEq, Repr

def Failure.text (f : Failure) : String :=
  "Error: " ++ f.doing ++ "\n\nCaused by:\n    " ++ f.cause ++ "\n"

/-- A piece of what a run reports. -/
inductive Report
  | entry (e : Entry)
  | failure (f : Failure)
  | usage (e : UsageError)
  deriving DecidableEq, Repr

def Report.text (time : String) : Report → String
  | .entry e => e.text time ++ "\n"
  | .failure f => f.text
  | .usage e => e.text

/-- Entries are shown if they are wanted, and anything else always is. -/
def Filter.shows (f : Filter) : Report → Bool
  | .entry e => f.wants e
  | _ => true

/-- What a program may ask a system to do. -/
inductive Call
  | readFile (path : String)
  | readInput
  | writeFile (path : String) (bytes : ByteArray)
  | print (text : String)
  | report (r : Report)

/-- What a system answers. -/
abbrev Call.Answer : Call → Type
  | .readFile _ => Except FileError ByteArray
  | .readInput => Except FileError ByteArray
  | .writeFile .. => Except FileError Unit
  | .print _ => Unit
  | .report _ => Unit

/-- A program is done, or makes a call and goes on with the answer. -/
inductive Program (α : Type)
  | done (a : α)
  | call (c : Call) (next : c.Answer → Program α)

/-- A system with its files, what stands on its input, and which reports it shows; and what a program
has put out there. -/
structure World (σ : Type) where
  files : σ
  input : Except FileError ByteArray
  shows : Report → Bool
  stdout : String
  stderr : List Report

namespace World

variable {σ : Type}

/-- A system before anything is put out. -/
def start (files : σ) (input : Except FileError ByteArray) (shows : Report → Bool) : World σ :=
  ⟨files, input, shows, "", []⟩

def report (w : World σ) (rs : List Report) : World σ :=
  { w with stderr := w.stderr ++ rs.filter w.shows }

theorem report_report (w : World σ) (rs rs' : List Report) :
    (w.report rs).report rs' = w.report (rs ++ rs') := by
  simp [report]

end World

/-- The answer of a system to a call, and what becomes of the system. -/
def Call.answer {σ : Type} [FileSystem σ] (w : World σ) : (c : Call) → c.Answer × World σ
  | .readFile path => (FileSystem.read w.files path, w)
  | .readInput => (w.input, w)
  | .writeFile path bytes =>
    match FileSystem.write w.files path bytes with
    | .ok files => (.ok (), { w with files := files })
    | .error e => (.error e, w)
  | .print text => ((), { w with stdout := w.stdout ++ text })
  | .report r => ((), w.report [r])

namespace Program

variable {α β σ : Type}

def bind : Program α → (α → Program β) → Program β
  | .done a, f => f a
  | .call c next, f => .call c fun answer => (next answer).bind f

instance : Monad Program where
  pure := .done
  bind := bind

def readFile (path : String) : Program (Except FileError ByteArray) := .call (.readFile path) .done

def readInput : Program (Except FileError ByteArray) := .call .readInput .done

def writeFile (path : String) (bytes : ByteArray) : Program (Except FileError Unit) :=
  .call (.writeFile path bytes) .done

def print (text : String) : Program Unit := .call (.print text) .done

def report (r : Report) : Program Unit := .call (.report r) .done

variable [FileSystem σ]

/-- Run a program to its end. -/
def run : Program α → World σ → α × World σ
  | .done a, w => (a, w)
  | .call c next, w =>
    let (answer, w) := c.answer w
    (next answer).run w

@[simp] theorem run_pure (a : α) (w : World σ) : (pure a : Program α).run w = (a, w) := rfl

@[simp] theorem run_bind (p : Program α) (f : α → Program β) (w : World σ) :
    (p >>= f).run w = (f (p.run w).1).run (p.run w).2 := by
  induction p generalizing w with
  | done a => rfl
  | call c next ih => exact ih (c.answer w).1 (c.answer w).2

@[simp] theorem run_readFile (path : String) (w : World σ) :
    (readFile path).run w = (FileSystem.read w.files path, w) := rfl

@[simp] theorem run_readInput (w : World σ) : readInput.run w = (w.input, w) := rfl

theorem run_writeFile_of_ok {path : String} {bytes : ByteArray} {w : World σ} {files : σ}
    (h : FileSystem.write w.files path bytes = .ok files) :
    (writeFile path bytes).run w = (.ok (), { w with files := files }) := by
  simp only [writeFile, run, Call.answer, h]

theorem run_writeFile_of_error {path : String} {bytes : ByteArray} {w : World σ} {e : FileError}
    (h : FileSystem.write w.files path bytes = .error e) :
    (writeFile path bytes).run w = (.error e, w) := by
  simp only [writeFile, run, Call.answer, h]

@[simp] theorem run_print (text : String) (w : World σ) :
    (print text).run w = ((), { w with stdout := w.stdout ++ text }) := rfl

@[simp] theorem run_report (r : Report) (w : World σ) :
    (report r).run w = ((), w.report [r]) := rfl

theorem run_reports (entries : List Entry) (w : World σ) :
    (entries.forM fun e => report (.entry e)).run w = ((), w.report (entries.map .entry)) := by
  induction entries generalizing w with
  | nil => simp [World.report]
  | cons e entries ih =>
    simp only [List.forM_eq_forM] at ih ⊢
    simp [ih, World.report_report]

end Program
end GoShape.Command
