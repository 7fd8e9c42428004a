import GoShape.Command.Disk
import GoShape.Command.Program
import GoShape.Json.Printer

/-! A run of the program: it reads a sample, converts it, and prints or writes the result. -/
namespace GoShape.Command
namespace Invocation

/-- What a run does when its sample cannot be read. -/
def readFailure (s : Invocation) (e : FileError) : Failure :=
  match s.input with
  | some path => ⟨"Failed to read file: " ++ path, e.message⟩
  | none => ⟨"Failed to read from stdin", e.message⟩

def writeFailure (path : String) (e : FileError) : Failure :=
  ⟨"Failed to write file: " ++ path, e.message⟩

def convertFailure (e : ConvertError) : Failure := ⟨"Failed to convert JSON to Go", e.message⟩

def readEntry (s : Invocation) (sample : String) : Entry :=
  .ofProgram .debug "read input"
    [("bytes", toString sample.utf8ByteSize),
     ("input", match s.input with
      | some path => "Some(" ++ Text.literal path ++ ")"
      | none => "None")]

def failedEntry (e : ConvertError) : Entry :=
  .ofProgram .warn "conversion failed" [("error", e.message)]

def wroteEntry (path : String) : Entry :=
  .ofProgram .debug "wrote declaration" [("path", Text.literal path)]

/-- The text that a run puts out for the result of its conversion. As JSON, an error is a result
like any other. -/
def render (s : Invocation) (result : Except ConvertError String) : Except Failure String :=
  if s.json then .ok ((Conversion.ofResult result).toJson.pretty 0)
  else result.mapError convertFailure

/-- The entries of a run up to its output, and the output with the line end behind it. -/
def respond (s : Invocation) (sample : String) : List Entry × Except Failure String :=
  let (result, event) := attempt sample s.options
  let failed := match result with
    | .error e => if s.json then [failedEntry e] else []
    | .ok _ => []
  (s.readEntry sample :: .ofEvent event :: failed, (s.render result).map (· ++ "\n"))

end Invocation

open Program

/-- End with a failure. -/
def fail (f : Failure) : Program UInt32 := do
  report (.failure f)
  return 1

namespace Invocation

/-- Read the sample of a run. -/
def fetch (s : Invocation) : Program (Except FileError String) := do
  let bytes ← match s.input with
    | some path => readFile path
    | none => readInput
  return bytes.bind textOf

/-- Put out the text of a run. -/
def store (s : Invocation) (text : String) : Program UInt32 := do
  match s.output with
  | none =>
    print text
    return 0
  | some path =>
    match ← writeFile path text.toUTF8 with
    | .ok () =>
      report (.entry (wroteEntry path))
      return 0
    | .error e => fail (writeFailure path e)

def execute (s : Invocation) : Program UInt32 := do
  match ← s.fetch with
  | .error e => fail (s.readFailure e)
  | .ok sample =>
    let (entries, result) := s.respond sample
    entries.forM fun e => report (.entry e)
    match result with
    | .ok text => s.store text
    | .error f => fail f

end Invocation

/-- The program with its arguments; it leaves its exit code. -/
def program (args : List String) : Program UInt32 :=
  match Request.ofArguments args with
  | .run s => s.execute
  | .version => do
    print versionText
    return 0
  | .help => do
    print helpText
    return 0
  | .refuse e => do
    report (.usage e)
    return 2

/-- What a run leaves behind. -/
structure Outcome (σ : Type) where
  exitCode : UInt32
  stdout : String
  reports : List Report
  files : σ

namespace Outcome

variable {σ : Type}

def ofRun : UInt32 × World σ → Outcome σ
  | (code, w) => ⟨code, w.stdout, w.stderr, w.files⟩

/-- The text of the reports that are shown. -/
def stderr (o : Outcome σ) (filter : Filter) (time : String) : String :=
  String.join ((o.reports.filter filter.shows).map (Report.text time))

/-- What a run on a disk leaves in the working folder. -/
def folder (o : Outcome Disk) : Folder := o.files.workingFolder

end Outcome

/-- What the program with its arguments leaves behind, with all that it reports. -/
def outcome {σ : Type} [FileSystem σ] (args : List String) (files : σ)
    (input : Except FileError ByteArray) : Outcome σ :=
  .ofRun ((program args).run (.start files input fun _ => true))

/-- A run in a folder on a disk of its own. -/
def run (args : List String) (folder : Folder) (stdin : ByteArray) : Outcome Disk :=
  outcome args folder.disk (.ok stdin)

end GoShape.Command
