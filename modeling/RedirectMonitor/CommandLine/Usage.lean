/-
The texts that explain the command line, set for a terminal of eighty columns, and what a
misuse writes.
-/

import RedirectMonitor.CommandLine

namespace RedirectMonitor.CommandLine

/-- The name of the program. -/
def programName : String := "cpumap-top"

/-- Lines, each with a line feed at its end. -/
def lines (texts : List String) : String := String.join (texts.map (· ++ "\n"))

/-- How the program is called. -/
def usage : String := lines
  ["usage: cpumap-top [-h] [--map-dir MAP_DIR] [-s INTERVAL] [--targets TARGETS]",
   "                  [--bpftool BPFTOOL] [--read-timeout READ_TIMEOUT] [--tui]",
   "                  [-D]"]

/-- What each switch is for. -/
def switchHelp : String := lines
  ["options:",
   "  -h, --help            show this help message and exit",
   "  --map-dir MAP_DIR     Directory with the pinned counter maps (default:",
   "                        /sys/fs/bpf/xdp_redirect_cpu)",
   "  -s INTERVAL, --sec INTERVAL",
   "                        Seconds between reports (default: 2)",
   "  --targets TARGETS     Redirect targets configured in the XDP program",
   "                        (default: 12)",
   "  --bpftool BPFTOOL     bpftool binary used to read the maps",
   "  --read-timeout READ_TIMEOUT",
   "                        Timeout in seconds for each map read (default: none)",
   "  --tui                 Show a live table instead of printing reports",
   "  -D, --debug           Enable debug logging"]

/-- The whole help. -/
def help : String :=
  usage ++ "\n" ++ lines
    ["Per-CPU statistics for an XDP redirect pipeline using a cpumap"] ++ "\n" ++ switchHelp

/-- What a misuse writes to the error output. -/
def Misuse.report (misuse : Misuse) : String :=
  usage ++ programName ++ ": error: " ++ .ofList misuse.message ++ "\n"

end RedirectMonitor.CommandLine
