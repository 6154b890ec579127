namespace AgentConfig

/-- A program started in place of a subcommand, with its words. -/
structure Call where
  program : String
  words : List String
  deriving DecidableEq

namespace Call

/-- Each subcommand is a program of its own, whose name has underscores for dashes. The words after the
subcommand are handed on as they are. -/
def ofStrings? : List String → Option Call
  | [] => none
  | subcommand :: words =>
    let name := subcommand.toList.map fun c => if c = '-' then '_' else c
    some { program := "mongo_automation.cli." ++ String.ofList name, words }

/-- The command line that starts the program. -/
def line (c : Call) : List String :=
  "-m" :: c.program :: c.words

/-- What is said when no subcommand is named. -/
def usage : String :=
  "Usage: mongoctl <subcommand> [args...]"

/-- The exit code when no subcommand is named. -/
def usageCode : Nat := 1

end Call
end AgentConfig
