/-!
# Help

The two help texts: the full one, with a paragraph for every option, and the brief one, with a line.
-/

namespace ChipEight.Command

/-- The full help text. -/
def helpText : String :=
  String.intercalate "\n"
    [ "CHIP-8 virtual machine.",
      "",
      "Keys 1-4, Q-R, A-F, Z-V map to CHIP-8 keys. Escape is used to exit the emulator.",
      "",
      "Usage: chip8 [OPTIONS] <ROM_PATH>",
      "",
      "Arguments:",
      "  <ROM_PATH>",
      "          Path to the CHIP-8 ROM file",
      "",
      "Options:",
      "      --cpu-hz <CPU_HZ>",
      "          Instructions executed per second",
      "          ",
      "          [default: 700]",
      "",
      "      --seed <SEED>",
      "          Seed for the random number opcode",
      "",
      "      --headless <FRAMES>",
      "          Run this many 60Hz frames without a window, then print the display",
      "",
      "      --scale <SCALE>",
      "          Window scale factor",
      "          ",
      "          [default: 10]",
      "",
      "  -h, --help",
      "          Print help (see a summary with '-h')",
      "" ]

/-- The brief help text. -/
def briefHelpText : String :=
  String.intercalate "\n"
    [ "CHIP-8 virtual machine",
      "",
      "Usage: chip8 [OPTIONS] <ROM_PATH>",
      "",
      "Arguments:",
      "  <ROM_PATH>  Path to the CHIP-8 ROM file",
      "",
      "Options:",
      "      --cpu-hz <CPU_HZ>    Instructions executed per second [default: 700]",
      "      --seed <SEED>        Seed for the random number opcode",
      "      --headless <FRAMES>  Run this many 60Hz frames without a window, then print the display",
      "      --scale <SCALE>      Window scale factor [default: 10]",
      "  -h, --help               Print help (see more with '--help')",
      "" ]

end ChipEight.Command
