import ScoreRelay.Daemon
import ScoreRelay.Ident
import ScoreRelay.Json.Printer
import ScoreRelay.Tcp
import ScoreRelay.Time.Unix
import Std.Time.DateTime.Timestamp

/-! The agent as a program. Control lines come in on standard input, and replies go out on standard
output; whoever listens on the socket the arguments name passes the lines of a connection on. -/
namespace ScoreRelay.Main

def usage : String := "usage: score-relay [--config FILE] [--socket PATH]"

/-- The time now, as seconds since 1970 and nanoseconds. -/
def clock : IO (Int × Nat) := do
  let now ← Std.Time.Timestamp.now
  let nanos : Int := now.toNanosecondsSinceUnixEpoch.val
  return (nanos / 1000000000, (nanos % 1000000000).toNat)

/-- A source of identifiers that begins at the time now. -/
def identSource : IO Ident.Source := do
  let (seconds, nanos) ← clock
  let random ← IO.getRandomBytes 7
  return ⟨seconds.toNat * 1000 + nanos / 1000000, random.toList.foldl (fun n b => n * 256 + b.toNat) 0⟩

/-- The bytes of a file, if it can be read. -/
def contents (path : String) : IO (Option (List UInt8)) := do
  try
    let bytes ← IO.FS.readBinFile path
    return some bytes.toList
  catch _ => return none

/-- Write the replies of a connection, each as one line. -/
def send (replies : List (String × Reply)) (ids : Ident.Source) : IO Ident.Source := do
  let stdout ← IO.getStdout
  let mut ids := ids
  for (type, reply) in replies do
    let (id, next) := ids.next Ident.messageTag
    ids := next
    let (seconds, nanos) ← clock
    match Time.Timestamp.ofUnix? seconds nanos with
    | some now =>
      let e : Envelope := ⟨id, type, now, reply.json⟩
      stdout.putStrLn e.json.text
      stdout.flush
    | none => pure ()
  return ids

/-- The next line of input with its end; empty once the input ends or is no longer text. -/
def nextLine : IO String := do
  try (← IO.getStdin).getLine
  catch _ => return ""

/-- Answer lines until the input ends. -/
partial def loop (a : Agent Tcp.Table) (ids : Ident.Source) : IO Unit := do
  let line ← nextLine
  if line.isEmpty then return ()
  let (replies, a) := Daemon.serveBytes Tcp.binder a line.toUTF8.toList
  let ids ← send replies ids
  loop a ids

end ScoreRelay.Main

open ScoreRelay in
def main (args : List String) : IO UInt32 := do
  match Daemon.parse {} args with
  | .help =>
    IO.println Main.usage
    return 0
  | .invalid =>
    IO.eprintln Main.usage
    return 2
  | .run options =>
    let found ← match options.config with
      | some path => Main.contents path
      | none => pure none
    match Daemon.loadConfig (fun _ => found) options.config with
    | .error e =>
      IO.eprintln ("Error: " ++ e.message)
      return 1
    | .ok config =>
      let ids ← Main.identSource
      let names := Ident.Source.take Ident.cacheTag config.cacheTypes.length ids
      let fresh := Agent.fresh config (fun k => names.getD k "") (Tcp.Table.ofConfig config)
      let (_, a) := fresh.start Tcp.binder
      Main.loop a { ids with count := ids.count + names.length }
      return 0
