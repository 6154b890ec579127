import AgentConfig.Builder.Basic
import AgentConfig.Enabler.Scram

namespace AgentConfig

/-- How authentication is turned on. -/
inductive AuthMode where
  | none
  | scram
  deriving DecidableEq

namespace AuthMode

def word : AuthMode → String
  | none => "none"
  | scram => "scram"

def choices : Choices AuthMode where
  all := [none, scram]
  word := word
  mem_all a := by cases a <;> simp
  word_injective a b := by cases a <;> cases b <;> simp [word]

def shape : Shape AuthMode :=
  .choice choices

end AuthMode

/-- The parameters of one deployment of a replica set. -/
structure Settings where
  name : String := "mongodb"
  members : Int := 3
  domain : String := "mongodb-svc.default.svc.cluster.local"
  topology : Topology := .replicaSet
  compatibility : String := "4.4"
  version : String := "4.4.0"
  caFile : String := ""
  keyFile : String := ""
  tlsMode : TlsMode := .disabled
  authMode : AuthMode := .none
  scramKey : String := ""
  scramPassword : String := ""
  releases : List Release := []
  logLevel : String := "INFO"

namespace Settings

/-- Texts may be given as numbers, so that `4.4` need not be quoted. -/
def shape : Shape Settings :=
  .record "ReplicaSetSettings"
    (.cons (.plain "name") (.text true) (some "mongodb") <|
     .cons (.plain "members") .int (some 3) <|
     .cons (.plain "domain") (.text true) (some "mongodb-svc.default.svc.cluster.local") <|
     .cons (.plain "topology") Topology.shape (some .replicaSet) <|
     .cons (.plain "fcv") (.text true) (some "4.4") <|
     .cons (.plain "version") (.text true) (some "4.4.0") <|
     .cons (.plain "tls_ca_file") (.text true) (some "") <|
     .cons (.plain "tls_cert_key_file") (.text true) (some "") <|
     .cons (.plain "tls_mode") TlsMode.shape (some .disabled) <|
     .cons (.plain "auth_mode") AuthMode.shape (some .none) <|
     .cons (.plain "scram_key") (.text true) (some "") <|
     .cons (.plain "scram_password") (.text true) (some "") <|
     .cons (.plain "versions") (.list Release.shape) (some []) <|
     .cons (.plain "log_level") (.text true) (some "INFO") <|
     .nil)
    { split := fun x =>
        (x.name, x.members, x.domain, x.topology, x.compatibility, x.version, x.caFile, x.keyFile, x.tlsMode,
          x.authMode, x.scramKey, x.scramPassword, x.releases, x.logLevel, ())
      join := fun (name, members, domain, topology, compatibility, version, caFile, keyFile, tlsMode,
          authMode, scramKey, scramPassword, releases, logLevel, _) =>
        { name, members, domain, topology, compatibility, version, caFile, keyFile, tlsMode,
          authMode, scramKey, scramPassword, releases, logLevel }
      join_split := fun _ => rfl
      split_join := fun _ => rfl }

/-- The names of the settings, in order. -/
def names : List String :=
  match shape with
  | .record _ fields _ => fields.labels.map (·.name)
  | _ => []

/-- The enabler that the settings ask for. -/
def enabler (s : Settings) : Enabler :=
  match s.authMode with
  | .none => .unchanged
  | .scram => Scram.enabler { key := s.scramKey, password := s.scramPassword }

/-- A fresh builder with the parameters of the settings. -/
def builder (s : Settings) (enabler : Enabler) (previous : Document) : Builder where
  enabler := enabler
  topology := s.topology
  members := s.members
  domain := s.domain
  name := s.name
  compatibility := s.compatibility
  version := s.version
  previous := previous
  caFile := s.caFile
  keyFile := s.keyFile
  tlsMode := s.tlsMode.word
  catalog := s.releases.map Release.listed

/-- Builds the next document after `previous`. -/
def deploy (s : Settings) (previous : Document) : Attempt :=
  (s.builder s.enabler previous).build

end Settings
end AgentConfig
