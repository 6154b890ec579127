import AgentConfig.Document.Auth
import AgentConfig.Log

namespace AgentConfig

/-- Why authentication could not be turned on. -/
inductive EnableError where
  /-- The credentials do not do. -/
  | credentials (message : String) (mechanism : Option String)
  /-- A caller's own policy says no. -/
  | policy (message : String)
  deriving DecidableEq

def EnableError.message : EnableError → String
  | credentials message _ | policy message => message

/-- Derives the authentication that a deployment should have from a baseline, and tells the log. -/
structure Enabler where
  enable : Auth → Except EnableError Auth × List LogRecord

namespace Enabler

/-- Leaves authentication as it is. -/
def unchanged : Enabler where
  enable auth := (.ok auth, [])

/-- Gives the same authentication whatever the baseline. -/
def always (auth : Auth) : Enabler where
  enable _ := (.ok auth, [])

/-- Refuses with a message of the caller's own. -/
def refusing (message : String) : Enabler where
  enable _ := (.error (.policy message), [])

end Enabler
end AgentConfig
