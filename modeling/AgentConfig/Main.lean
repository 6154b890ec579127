import AgentConfig.CommandLine.Run
import Std.Time

namespace AgentConfig

/-- Variables as the system lists them, each with its value after an equals sign and a zero byte at its end. -/
def environmentOf (bytes : List UInt8) : Environment :=
  (Text.pieces 0 bytes).filterMap fun entry =>
    match Text.readUtf8 entry with
    | .error _ => none
    | .ok s => (Text.divide? '=' s).map fun (name, value) => (String.ofList name, String.ofList value)

/-- What stands at a path outside. -/
def probe (path : String) : IO (Option Entry) := do
  try
    return some (.file (← IO.FS.readBinFile path).toList)
  catch
    | .noFileOrDirectory .. => return none
    | .inappropriateType .. => return some .folder
    | e => throw e

/-- The disk with all that stands on the way of a path. -/
def survey (disk : Disk) (path : String) : IO Disk := do
  let mut disk := disk
  let mut place := disk.start path
  let mut way := if path.toList.head? = some '/' then "/" else ""
  for name in Disk.pathNames path do
    if name = "" ∨ name = "." then continue
    way := way ++ name
    if name = ".." then place := place.dropLast
    else
      place := place ++ [name]
      if let some entry ← probe way then disk := disk.put place entry
    way := way ++ "/"
  return disk

def BuildCommand.paths (c : BuildCommand) : List String :=
  [c.config, c.previous, c.output].filterMap given?

/-- Brings the file at a path to what the disk holds there. -/
def settle (before after : Disk) (path : String) : IO Unit := do
  if let .ok place := before.target path then
    if let some (.file bytes) := after.entryAt place then
      if before.entryAt place ≠ some (.file bytes) then
        IO.FS.writeBinFile path ⟨bytes.toArray⟩

def Notice.print (notice : Notice) : IO Unit := do
  match notice with
  | .log _ =>
    let time ← Std.Time.PlainDateTime.now
    IO.eprintln (time.format "uuuu-MM-dd HH:mm:ss,SSS" ++ " " ++ notice.text)
  | _ => IO.eprintln notice.text

end AgentConfig

open AgentConfig in
def main (words : List String) : IO UInt32 := do
  let env := environmentOf (← IO.FS.readBinFile "/proc/self/environ").toList
  let paths := match Request.ofStrings words with
    | .ok (.build c) => c.paths
    | _ => []
  let home := Disk.pathNames (toString (← IO.currentDir))
  let before ← paths.foldlM survey (Disk.blank (home.filter (· ≠ "")))
  let outcome := CommandLine.run env before words
  paths.forM (settle before outcome.disk)
  IO.print outcome.output
  outcome.notices.forM (·.print)
  match outcome.ending with
  | .exit code => return code.toUInt32
  | .brokenOff f =>
    IO.eprintln f.message
    return 1
