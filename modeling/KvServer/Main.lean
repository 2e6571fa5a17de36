import KvServer.Options.Arguments
import KvServer.Server

/-!
# The program

Reads the options and serves one client, whose requests come from standard input and whose replies go
to standard output. Active expiry runs between requests. Time is counted from the start of the
program's monotonic clock, which deadlines, being relative, cannot tell from the time of day.
-/

namespace KvServer.Program

/-- A short account of the options. -/
def usage : String :=
  "Usage: [OPTIONS]\n\nOptions:\n" ++
    String.join (OptionName.all.map fun name => "  --" ++ name.text ++ " <VALUE>\n") ++
    "  --help\n  --version\n"

/-- Executes one request at the present moment and writes the reply. -/
def answer (server : Server) (arguments : List Bytes) (output : IO.FS.Stream) : IO Server := do
  let connection : Connection := ⟨.ofSource ⟨[], .closed⟩, server.store, server.stats, #[]⟩
  let connection := connection.respond server.now arguments
  output.write ⟨connection.sent⟩
  output.flush
  return { server with store := connection.store, stats := connection.stats }

/-- Lets the server catch up with the clock. -/
def catchUp (server : Server) : IO Server := do
  let elapsed := (← IO.monoMsNow) - server.clock.timer
  return server.advance (fun _ => .inOrder) elapsed

/-- Answers requests until the input ends or holds something that is no request. A request that is
cut short is read again from its first byte when more input has come. -/
partial def loop (server : Server) (unread : Bytes) (ended : Bool) (input output : IO.FS.Stream) :
    IO (Option ConnectionError) := do
  match Reader.request (.ofSource (.ofBytes unread .closed)) with
  | .ok arguments rest =>
    let server ← answer (← catchUp server) arguments output
    loop server rest.source.bytes ended input output
  | .error error _ =>
    if ended || !error.isDisconnect then return Connection.errorOf? error
    let chunk ← input.read 4096
    loop server (unread ++ chunk.toList) chunk.isEmpty input output

def serve (options : Options) : IO UInt32 := do
  let began ← IO.monoMsNow
  let server := (Server.new options.policy ⟨began, began⟩).launched
  let server := { server with stats := server.stats.opened }
  match ← loop server [] false (← IO.getStdin) (← IO.getStdout) with
  | none => return 0
  | some error =>
    IO.eprintln error.message
    return 1

def run (arguments : List String) : IO UInt32 := do
  match Options.ofArguments arguments with
  | .ok options => serve options
  | .error .helpRequested =>
    IO.print usage
    return 0
  | .error .versionRequested =>
    IO.println Options.version
    return 0
  | .error error =>
    IO.eprintln ("error: " ++ error.message?.getD "unexpected argument")
    return 2

end KvServer.Program

def main (arguments : List String) : IO UInt32 :=
  KvServer.Program.run arguments
