/-
  Stepwise/Cli/Serve.lean
  =======================
  **The command that serves: its usage, and what it makes of its arguments.**

  A request for help is answered wherever it stands among the arguments.  Any other
  command line either gives the settings of a server or is refused with the reason and
  the usage.
-/
import Stepwise.Cli.Exit
import Stepwise.Server.Options

namespace Stepwise

namespace Cli

namespace Serve

def usage (program : Text) : Text :=
  unlines
    ["Paced Execution Server".toList,
     [],
     "USAGE:".toList,
     "    ".toList ++ program ++ " [listen_addr] [OPTIONS]".toList,
     [],
     "ARGS:".toList,
     "    [listen_addr]    Local address to bind (default ".toList
      ++ Address.text ({} : Server.Options).listen ++ ")".toList,
     [],
     "OPTIONS:".toList,
     "    --delay <secs>           Initial pause between steps (default 0.15)".toList,
     "    --max-delay <secs>       Upper bound for client delays (default 10)".toList,
     "    --max-steps <n>          Instructions per run, 0 for unlimited (default 100000)".toList,
     "    --max-stack <n>          Maximum stack depth (default 1000)".toList,
     "    --input-timeout <secs>   How long a read waits for input (default 60)".toList,
     "    --run-timeout <secs>     Wall-clock budget per run (default 300)".toList,
     "    --max-frame <bytes>      Largest accepted frame (default 65536)".toList,
     "    --seed-input             Push a random value in 1..=100 before each run".toList,
     "    --log-level <level>      debug, info, warn or error (default info)".toList,
     "    -h, --help               Print this help message".toList,
     [],
     "ENVIRONMENT:".toList,
     "    ".toList ++ levelVariable
      ++ "    Minimum log level, overridden by --log-level".toList,
     [],
     "EXAMPLES:".toList,
     "    # Serve on the default address".toList,
     "    ".toList ++ program,
     [],
     "    # Serve on all interfaces with fast playback and seeded input".toList,
     "    ".toList ++ program ++ " 0.0.0.0:7000 --delay 0.05 --seed-input".toList]

def asksHelp (argument : Text) : Bool :=
  argument == "--help".toList || argument == "-h".toList

def prepare (program : Text) (arguments : List Text) (environment : Option Text) :
    Except Exit Server.Options :=
  if arguments.any asksHelp then
    .error { code := 0, screen := Screen.warnLine {} (usage program) }
  else
    match Server.Options.ofArguments arguments environment with
    | .ok options => .ok options
    | .error e =>
      let screen := Screen.warnLine {} (e.message ++ ['\n'])
      .error { code := 1, screen := screen.warnLine (usage program) }

end Serve

end Cli

end Stepwise
