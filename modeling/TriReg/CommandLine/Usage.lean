import TriReg.Text.Padding

namespace TriReg.CommandLine

/-- The name that the program is called by. -/
def programName : String := "asmrun"

def versionText : String := programName ++ " 0.1.0\n"

/-- The lines that show how the program is called. -/
def usageLines : List String :=
  ["usage: asmrun [-h] [--stack-size STACK_SIZE] [--no-check] [--check-only]",
    "              [--listing] [--trace] [--verbose] [--log-dir LOG_DIR]",
    "              [--version]",
    "              input"]

def helpLines : List String :=
  usageLines ++
    ["",
    "Run an asmvm assembly program",
    "",
    "positional arguments:",
    "  input                 Input program file",
    "",
    "options:",
    "  -h, --help            show this help message and exit",
    "  --stack-size STACK_SIZE",
    "                        Number of stack slots (default: 64)",
    "  --no-check            Skip the static call/jump terminator check",
    "  --check-only          Load and check the program, then exit",
    "  --listing             Print the parsed program listing before running",
    "  --trace               Print an instruction trace after the run",
    "  --verbose, -v         Log progress to stderr",
    "  --log-dir LOG_DIR     Also write a DEBUG log file into this directory",
    "  --version             show program's version number and exit"]

/-- Lines as a text, each with a line feed at its end. -/
def textOfLines (lines : List String) : String := String.join (lines.map (· ++ "\n"))

end TriReg.CommandLine
