import AgentConfig.CommandLine.Arguments

namespace AgentConfig

def BuildCommand.usage : List String := [
  "usage: build_config [-h] [--config CONFIG] [--previous PREVIOUS]",
  "                    [--output OUTPUT] [--format \x7bjson,yaml\x7d]",
  "                    [--log-level LOG_LEVEL]"]

def BuildCommand.help : List String :=
  usage ++ [
    "",
    "Build a MongoDB replica-set automation config.",
    "",
    "options:",
    "  -h, --help            show this help message and exit",
    "  --config CONFIG       YAML file with deployment settings.",
    "  --previous PREVIOUS   Previously deployed automation config (JSON or YAML).",
    "  --output OUTPUT       Write the result here instead of stdout.",
    "  --format \x7bjson,yaml\x7d",
    "  --log-level LOG_LEVEL"]

def UsageError.report (e : UsageError) : List String :=
  BuildCommand.usage ++ [s!"build_config: error: {e.message}"]

end AgentConfig
