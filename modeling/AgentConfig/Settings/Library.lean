import AgentConfig.Runtime

namespace AgentConfig

/-- The variables of an environment in order. -/
abbrev Environment := List (String × String)

namespace Settings

/-- A setting that is given: its key and its value. -/
abbrev Given := List (String × Value)

/-- Options that stand among the settings and say how variables are looked up. -/
def lookupOptions : List String :=
  ["_case_sensitive", "_env_prefix", "_env_ignore_empty"]

/-- Options of the settings library that stand among the settings too. They ask for other sources, such as further
files or a command line, or for other ways to take variables apart. -/
def libraryOptions : List String :=
  ["_nested_model_default_partial_update", "_env_prefix_target", "_env_file", "_env_file_encoding",
    "_env_nested_delimiter", "_env_nested_max_split", "_env_parse_none_str", "_env_parse_enums", "_cli_prog_name",
    "_cli_parse_args", "_cli_settings_source", "_cli_parse_none_str", "_cli_hide_none_type", "_cli_avoid_json",
    "_cli_enforce_required", "_cli_use_class_docs_for_groups", "_cli_exit_on_error", "_cli_prefix",
    "_cli_flag_prefix_char", "_cli_implicit_flags", "_cli_ignore_unknown_args", "_cli_kebab_case", "_cli_shortcuts",
    "_secrets_dir", "_build_sources"]

/-- How the library puts an end to everything instead of finding settings: with a message, which a run reports or not,
and after what it has put out by then. -/
structure Halt where
  message : String
  output : String
  isReported : Bool
  deriving DecidableEq

/-- What the library finds for the settings: keys with their values, and whether among the keys there is half of a
surrogate pair. -/
structure Findings where
  given : Given
  broken : Bool

end Settings

/-- What comes of the options that are up to the settings library, given the environment and all that stands in the
deployment file: nothing, an end, or other findings. The library may look at other files too, so it is another one in
every process. -/
class SettingsLibrary where
  consult : Environment → Settings.Findings → Option (Except Settings.Halt Settings.Findings)

/-- A library that passes over these options. -/
instance SettingsLibrary.silent : SettingsLibrary where
  consult _ _ := none

end AgentConfig
