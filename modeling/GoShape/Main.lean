import Std.Time.DateTime.Timestamp
import GoShape.Command.Clock
import GoShape.Command.Session

/-! The program on a real system: files, streams and the clock. -/
namespace GoShape.Command

/-- A code of the system, which some calls give with a minus sign. -/
def isCode (n : Nat) (code : UInt32) : Bool := code.toNat == n || code.toNat + n == Nat.pow 2 32

def FileError.ofSystem : IO.Error → FileError
  | .noFileOrDirectory .. => .missing
  | .permissionDenied .. => .denied
  | .inappropriateType _ code _ => if isCode 20 code then .notFolder else .isFolder
  | .invalidArgument _ code text => if isCode 36 code then .nameTooLong else .other text
  | e => .other (toString e)

/-- What an action gives, or what stood in the way of it. -/
def caught {α : Type} (action : IO α) : IO (Except FileError α) := do
  try return .ok (← action)
  catch e => return .error (.ofSystem e)

/-- Read a stream to its end. -/
partial def readAll (stream : IO.FS.Stream) (bytes : ByteArray) : IO ByteArray := do
  let more ← stream.read 65536
  if more.isEmpty then return bytes else readAll stream (bytes ++ more)

def now : IO String := do
  return Clock.text ((← Std.Time.Timestamp.now).toNanosecondsSinceUnixEpoch.val / 1000).toNat

/-- The answer of the real system to a call. -/
def Call.perform (filter : Filter) : (c : Call) → IO c.Answer
  | .readFile path => caught (IO.FS.readBinFile path)
  | .readInput => caught do readAll (← IO.getStdin) .empty
  | .writeFile path bytes => caught (IO.FS.writeBinFile path bytes)
  | .print text => IO.print text
  | .report r => do
    if filter.shows r then IO.eprint (r.text (← now))

def Program.perform {α : Type} (filter : Filter) : Program α → IO α
  | .done a => return a
  | .call c next => do
    let answer ← c.perform filter
    (next answer).perform filter

end GoShape.Command

open GoShape.Command in
def main (args : List String) : IO UInt32 := do
  (program args).perform (.ofVariable (← IO.getEnv "RUST_LOG"))
