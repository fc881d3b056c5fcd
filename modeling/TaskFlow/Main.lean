import TaskFlow.Client.Run
import TaskFlow.Manager.Server

namespace TaskFlow.Main

def bytesOf (bs : ByteArray) : Text.Bytes := bs.toList

def arrayOf (bs : Text.Bytes) : ByteArray := ⟨bs.toArray⟩

/-- The file system with some files of the disk in it; files that cannot be read are left out. -/
def load (paths : List String) : IO FileSystem := do
  let here := FileSystem.namesOf (← IO.currentDir).toString
  paths.foldlM
    (fun fs (path : String) => do
      let .ok content ← (IO.FS.readBinFile path).toBaseIO | return fs
      return (fs.write path (bytesOf content)).1)
    { workingFolder := here }

def pathOf (location : Location) : String := "/" ++ "/".intercalate location

/-- Brings the disk up to date: files that are gone are removed, and those that have changed are
written. -/
def store (before after : FileSystem) : IO Unit := do
  for (location, _) in before.files do
    if (after.node? location).isNone then IO.FS.removeFile (pathOf location)
  for (location, content) in after.changed before do
    if 1 < location.length then IO.FS.createDirAll (pathOf location.dropLast)
    IO.FS.writeBinFile (pathOf location) (arrayOf content)

def exitCode : ExitStatus → UInt32
  | .code n => .ofNat n
  | .signal n => .ofNat (128 + n)

/-- Runs the assignment on the input. Files that match patterns have to be named. -/
def worker (paths : List String) : IO UInt32 := do
  let input := bytesOf (← (← IO.getStdin).readBinToEnd)
  let named := ((Worker.assignment input).toOption.map (·.job.inputs)).getD []
  let before ← load (named ++ paths)
  let trace := Worker.process input before {}
  trace.messages.forM fun m => IO.print m.line
  store before trace.files
  return exitCode trace.exit

def client (args : List String) : IO UInt32 := do
  match Client.Command.parse args with
  | .error .help =>
    IO.println (", ".intercalate (Client.Command.signatures.map (·.1)))
    return 0
  | .error .wrong =>
    IO.eprintln (", ".intercalate (Client.Command.signatures.map (·.1)))
    return 2
  | .ok c =>
    let before ← load c.inputs
    let (_, effect) := Client.run (fun _ => .error ⟨"error sending request", []⟩) before c
    IO.print effect.output
    store before effect.files
    match effect.failure? with
    | none => return 0
    | some f =>
      IO.eprint f.text
      return 1

def settingNames : List String :=
  ["MAX_CONCURRENCY", "WORKER_BIN", "SPOOL_DIR", "CANCEL_GRACE_MS", "SHUTDOWN_TIMEOUT_SECS",
    "MEMORY_SAMPLE_MS", "CACHE_MAX_BYTES", "TASK_TTL_SECS", "SWEEP_INTERVAL_SECS", "TMPDIR",
    "BIND_ADDR"]

def environment : IO Environment :=
  settingNames.filterMapM fun name => do
    return (← IO.getEnv name).map fun value => (name, Text.utf8 value)

/-- The request in a line: a method, a path and perhaps a JSON body, with spaces between them. -/
def requestOf (line : String) : Http.Request :=
  let cs := (Text.trim line).toList
  let word (cs : List Char) : String × List Char :=
    (.ofList (cs.takeWhile (· ≠ ' ')), (cs.dropWhile (· ≠ ' ')).drop 1)
  let (method, rest) := word cs
  let (path, body) := word rest
  { method, path, contentType := some "application/json", body := .ofList body }

/-- Answers the requests in the lines of the input, each with a line, until the input ends. -/
partial def serve (input : IO.FS.Stream) (s : Service) (began count : Nat) : IO Unit := do
  let line ← input.getLine
  let time := (← IO.monoMsNow) - began
  let t := s.sleep (time - s.clock)
  if line.isEmpty then store s.manager.files t.shutdown.1.manager.files
  else
    let (t, r) := Server.serve t .worker ("task-" ++ toString count) (requestOf line)
    store s.manager.files t.manager.files
    IO.println (Http.statusText r.status ++ " " ++ r.body)
    serve input t began (count + 1)

/-- Serves the web interface on the standard input and output; its clock starts with it. Jobs find
the files that are named. -/
def manager (paths : List String) : IO UInt32 := do
  match Server.start (← environment) (← load paths) ⟨0, 0⟩ with
  | .error (_, f) =>
    IO.eprint f.text
    return 1
  | .ok s =>
    serve (← IO.getStdin) s (← IO.monoMsNow) 1
    return 0

end TaskFlow.Main

def main : List String → IO UInt32
  | "worker" :: paths => TaskFlow.Main.worker paths
  | "client" :: args => TaskFlow.Main.client args
  | "manager" :: paths => TaskFlow.Main.manager paths
  | _ => do
    IO.eprintln "worker, client, manager"
    return 2
