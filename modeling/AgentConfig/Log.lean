namespace AgentConfig

inductive LogLevel where
  | debug
  | info
  | error
  deriving DecidableEq

def LogLevel.word : LogLevel → String
  | debug => "DEBUG"
  | info => "INFO"
  | error => "ERROR"

/-- How urgent records of a level are. -/
def LogLevel.weight : LogLevel → Nat
  | debug => 10
  | info => 20
  | error => 40

/-- The part of the program that a record comes from. -/
inductive LogSource where
  | builder
  | scram
  | command
  deriving DecidableEq

def LogSource.name : LogSource → String
  | builder => "mongo_automation.automation.builder"
  | scram => "mongo_automation.auth.scram"
  | command => "mongo_automation.cli.build_config"

/-- The least weight of the records that are shown, by its name. -/
def logThreshold? : String → Option Nat
  | "CRITICAL" | "FATAL" => some 50
  | "ERROR" => some 40
  | "WARNING" | "WARN" => some 30
  | "INFO" => some 20
  | "DEBUG" => some 10
  | "NOTSET" => some 0
  | _ => none

structure LogRecord where
  level : LogLevel
  source : LogSource
  text : String
  deriving DecidableEq

/-- The record on a line of its own, without the time. -/
def LogRecord.line (r : LogRecord) : String :=
  s!"{r.level.word} {r.source.name}: {r.text}"

end AgentConfig
