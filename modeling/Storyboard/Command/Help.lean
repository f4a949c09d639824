/-!
# Help

The texts that explain the command.

## Main definitions

* `usage` — how the command is called.
* `help` — the full explanation.
-/

namespace Storyboard.Command

/-- How the command is called. -/
def usage : String :=
  "usage: screenflow [-h] [-o OUTPUT] [--format \x7btxt,png\x7d] [--font FONT]\n" ++
  "                  [--no-shadow] [--check] [-v]\n" ++
  "                  input\n"

/-- The full explanation of the command. -/
def help : String :=
  usage ++
  "\n" ++
  "Render screen flow notation as a text or PNG diagram.\n" ++
  "\n" ++
  "positional arguments:\n" ++
  "  input                 Flow notation file, or '-' to read standard input\n" ++
  "\n" ++
  "options:\n" ++
  "  -h, --help            show this help message and exit\n" ++
  "  -o OUTPUT, --output OUTPUT\n" ++
  "                        Output file. Text output goes to stdout when omitted.\n" ++
  "  --format \x7btxt,png\x7d    Output format (default: from the output suffix, else\n" ++
  "                        txt)\n" ++
  "  --font FONT           Font file or name for PNG output\n" ++
  "  --no-shadow           Draw text cards without shadows\n" ++
  "  --check               Report duplicate screen names, undefined targets and\n" ++
  "                        unreachable screens on stderr; exit 1 if any are found\n" ++
  "  -v, --verbose         Log skipped lines and render details\n"

end Storyboard.Command
