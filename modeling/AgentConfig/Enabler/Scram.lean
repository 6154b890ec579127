import AgentConfig.Enabler.Basic
import AgentConfig.Schema.Shape
import AgentConfig.Text.Base64
import AgentConfig.Text.Quoted

namespace AgentConfig

/-- The secrets that a deployment keeps: the contents of its key file and the password of its agent. -/
structure Credentials where
  key : String
  password : String
  deriving DecidableEq

namespace Credentials

def shape : Shape Credentials :=
  .record "ScramCredentials"
    (.cons (.plain "key") (.text false) none <|
     .cons (.plain "password") (.text false) none <|
     .nil)
    { split := fun x => (x.key, x.password, ())
      join := fun (key, password, _) => { key, password }
      join_split := fun _ => rfl
      split_join := fun _ => rfl }

/-- How many random bytes a key takes, and how many a password. A server accepts 6 to 1024 characters
in a key file. -/
def keyBytes : Nat := 756

def passwordBytes : Nat := 32

/-- Credentials from random bytes. -/
def ofBytes (key password : List UInt8) : Credentials where
  key := String.ofList (Text.base64 key)
  password := String.ofList (Text.base64Url password)

end Credentials

/-- Authentication by SCRAM with fixed secrets. -/
structure Scram where
  key : String
  password : String
  user : String := "mms-automation"
  mechanism : String := "SCRAM-SHA-256"
  deriving DecidableEq

namespace Scram

def ofCredentials (c : Credentials) : Scram where
  key := c.key
  password := c.password

/-- Where the agent keeps the key file. -/
def keyFile : String := "/var/lib/mongodb-mms-automation/authentication/keyfile"

def keyFileWindows : String := "%SystemDrive%\\MMSAutomation\\versions\\keyfile"

/-- Authentication turned on for the agent and the deployment. The users stay as they are. -/
def enabled (s : Scram) (auth : Auth) : Auth :=
  { auth with
    disabled := false
    authoritative := false
    agentMechanisms := [s.mechanism]
    agentMechanism := s.mechanism
    deploymentMechanisms := [s.mechanism]
    agentUser := s.user
    key := .text s.key
    keyFile := keyFile
    keyFileWindows := keyFileWindows
    agentPassword := s.password }

def enable (s : Scram) (auth : Auth) : Except EnableError Auth × List LogRecord :=
  if s.key.isEmpty then
    (.error (.credentials "SCRAM requires keyfile contents, none were provided." (some s.mechanism)), [])
  else if s.password.isEmpty then
    (.error (.credentials "SCRAM requires an automation agent password, none was provided." (some s.mechanism)), [])
  else
    let text := s!"Enabling {s.mechanism} for automation user {Text.quoted s.user}"
    (.ok (s.enabled auth), [{ level := .debug, source := .scram, text }])

def enabler (s : Scram) : Enabler where
  enable := s.enable

end Scram
end AgentConfig
