import MxLang.Text.Basic

/-!
# Usage and help

The forms in which the tool and its commands are called, and the texts that explain them.
-/

namespace MxLang.CommandLine

/-- The version of the tool. -/
def version : Text := "0.1.0".toList

/-- The lines one under another, each with a line feed. -/
def block (lines : List String) : Text :=
  lines.flatMap fun l => l.toList ++ ['\n']

/-- Who is called: the tool itself or one of its commands. -/
inductive Form
  | tool
  | compile
  | run
  | exec
  | disasm
deriving DecidableEq, Repr

namespace Form

/-- The commands, in the order in which they are listed. -/
def commands : List Form :=
  [compile, run, exec, disasm]

/-- The word for a command. -/
def word : Form → Text
  | tool => "mexico".toList
  | compile => "compile".toList
  | run => "run".toList
  | exec => "exec".toList
  | disasm => "disasm".toList

/-- The words with which a form is called. -/
def title : Form → Text
  | tool => tool.word
  | f => tool.word ++ ' ' :: f.word

/-- How the form is called. -/
def usage : Form → Text
  | tool => block ["usage: mexico [-h] [--version] [-v] <command> ..."]
  | compile => block
    ["usage: mexico compile [-h] [-o ZONEFILE] [--base-domain DOMAIN]",
      "                      [--serial YYYYMMDDHH]",
      "                      SOURCE"]
  | run => block
    ["usage: mexico run [-h] [--domain DOMAIN] [--timeout SECONDS] [--max-steps N]",
      "                  [--dump-state]",
      "                  [ZONEFILE]"]
  | exec => block ["usage: mexico exec [-h] [--max-steps N] [--dump-state] SOURCE"]
  | disasm => block
    ["usage: mexico disasm [-h] [--domain DOMAIN] [--timeout SECONDS] [ZONEFILE]"]

/-- What the help says after the usage. -/
def explanation : Form → Text
  | tool => block
    ["",
      "mexico — an esolang whose programs live in DNS MX records.",
      "",
      "Compiles mexico assembly to zone files and runs programs",
      "read back from them.",
      "",
      "options:",
      "  -h, --help     show this help message and exit",
      "  --version      show program's version number and exit",
      "  -v, --verbose  Increase verbosity (-v info, -vv debug and trace).",
      "",
      "commands:",
      "  <command>",
      "    compile      Compile mexico assembly to a zone file.",
      "    run          Run the program published in a zone file or in live DNS.",
      "    exec         Compile and run a source file in memory.",
      "    disasm       Print the decoded program listing of a zone file or domain.",
      "",
      "examples:",
      "  mexico compile hello.mexico -o hello.zone",
      "  mexico run hello.zone",
      "  mexico exec hello.mexico --max-steps 100000",
      "  mexico disasm hello.zone",
      "  mexico run --domain hello.example.org"]
  | compile => block
    ["",
      "positional arguments:",
      "  SOURCE                Path to the .mexico source.",
      "",
      "options:",
      "  -h, --help            show this help message and exit",
      "  -o ZONEFILE, --output ZONEFILE",
      "                        Output zone file (\"-\" or omit for stdout).",
      "  --base-domain DOMAIN  Domain owning the records (default: mexico.invalid).",
      "  --serial YYYYMMDDHH   SOA serial (default: current hour)."]
  | run => block
    ["",
      "positional arguments:",
      "  ZONEFILE           Path to the zone file (omit to query DNS for --domain).",
      "",
      "options:",
      "  -h, --help         show this help message and exit",
      "  --domain DOMAIN    Only use MX records owned by DOMAIN (default: all).",
      "                     Without a zone file DOMAIN is resolved in live DNS.",
      "  --timeout SECONDS  Give up a live DNS lookup after SECONDS (default:",
      "                     resolver's).",
      "",
      "runtime tuning:",
      "  --max-steps N      Abort after N executed instructions (default: unlimited).",
      "  --dump-state       Print tape and stack to stderr when the program stops."]
  | exec => block
    ["",
      "positional arguments:",
      "  SOURCE         Path to the .mexico source.",
      "",
      "options:",
      "  -h, --help     show this help message and exit",
      "",
      "runtime tuning:",
      "  --max-steps N  Abort after N executed instructions (default: unlimited).",
      "  --dump-state   Print tape and stack to stderr when the program stops."]
  | disasm => block
    ["",
      "positional arguments:",
      "  ZONEFILE           Path to the zone file (omit to query DNS for --domain).",
      "",
      "options:",
      "  -h, --help         show this help message and exit",
      "  --domain DOMAIN    Only use MX records owned by DOMAIN (default: all).",
      "                     Without a zone file DOMAIN is resolved in live DNS.",
      "  --timeout SECONDS  Give up a live DNS lookup after SECONDS (default:",
      "                     resolver's)."]

/-- The whole help of a form. -/
def help (f : Form) : Text :=
  f.usage ++ f.explanation

end Form

/-- What is printed for the version. -/
def versionText : Text :=
  Form.tool.word ++ ' ' :: version ++ ['\n']

end MxLang.CommandLine
