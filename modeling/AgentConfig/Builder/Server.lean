import AgentConfig.Document.Server
import AgentConfig.Document.ReplicaSet
import AgentConfig.Schema.Read

namespace AgentConfig

/-- The name of the server at some place of a replica set. -/
def serverName (replicaSet : String) (index : Int) : String :=
  s!"{replicaSet}-{index}"

/-- The full name of the host that the server runs on. -/
def serverHost (replicaSet : String) (index : Int) (domain : String) : String :=
  s!"{serverName replicaSet index}.{domain}"

/-- A choice about a server. The mode of TLS is a word that may turn out to be none. -/
inductive ServerOption where
  | compatibility (version : String)
  | tls (caFile keyFile mode : String)
  deriving DecidableEq

namespace Server

def withTls (p : Server) (tls : ServerTls) : Server :=
  { p with arguments := { p.arguments with network := { p.arguments.network with tls := some tls } } }

/-- A server before any choice about it. -/
def base (name hostname version replicaSet : String) : Server where
  name := name
  hostname := hostname
  version := version
  arguments := { replication := { replicaSet } }

def apply (p : Server) : ServerOption → Except Invalid Server
  | .compatibility version => .ok { p with compatibility := version }
  | .tls caFile keyFile mode =>
    match TlsMode.choices.read (.text mode) with
    | .ok mode => .ok (p.withTls { mode, caFile, keyFile, allowWithoutCertificates := true })
    | .error problems =>
      .error { title := ServerTls.shape.title, problems := problems.map (·.within (.key "mode")) }

/-- Makes the choices in order. Connections without a certificate stay allowed, so that members from
before the certificates can join. -/
def applyAll (p : Server) : List ServerOption → Except Invalid Server
  | [] => .ok p
  | option :: rest => do (← p.apply option).applyAll rest

def create (name hostname version replicaSet : String) (options : List ServerOption) : Except Invalid Server :=
  (base name hostname version replicaSet).applyAll options

/-- The server as a member of its replica set. -/
def member (p : Server) (id : Int) : Member where
  id := id
  host := p.name

end Server
end AgentConfig
