import AgentConfig.Document.Auth
import AgentConfig.Document.Catalog
import AgentConfig.Document.Server
import AgentConfig.Document.ReplicaSet

namespace AgentConfig

/-- Settings of the agent itself: where it puts its downloads. -/
structure AgentOptions where
  downloadBase : String := ""
  deriving DecidableEq

def AgentOptions.shape : Shape AgentOptions :=
  .record "Options"
    (.cons (.aliased "download_base" "downloadBase") (.text false) (some "") .nil)
    { split := fun x => (x.downloadBase, ())
      join := fun (downloadBase, _) => { downloadBase }
      join_split := fun _ => rfl
      split_join := fun _ => rfl }

/-- The whole configuration that an agent is given. It acts on a document only if its version is
higher than that of the one before. -/
structure Document where
  version : Int := 0
  servers : List Server := []
  replicaSets : List ReplicaSet := []
  auth : Auth := {}
  tls : AgentTls := {}
  catalog : List Release := []
  options : AgentOptions := {}

namespace Document

def shape : Shape Document :=
  .record "AutomationConfig"
    (.cons (.plain "version") .int (some 0) <|
     .cons (.plain "processes") (.list Server.shape) (some []) <|
     .cons (.aliased "replica_sets" "replicaSets") (.list ReplicaSet.shape) (some []) <|
     .cons (.plain "auth") Auth.shape (some {}) <|
     .cons (.plain "ssl") AgentTls.shape (some {}) <|
     .cons (.aliased "versions" "mongoDbVersions") (.list Release.shape) (some []) <|
     .cons (.plain "options") AgentOptions.shape (some {}) <|
     .nil)
    { split := fun x => (x.version, x.servers, x.replicaSets, x.auth, x.tls, x.catalog, x.options, ())
      join := fun (version, servers, replicaSets, auth, tls, catalog, options, _) =>
        { version, servers, replicaSets, auth, tls, catalog, options }
      join_split := fun _ => rfl
      split_join := fun _ => rfl }

def empty : Document := {}

end Document

/-- A shape together with the type of its data. -/
structure Described where
  Carrier : Type
  shape : Shape Carrier

/-- Every record that a document consists of. -/
def Described.all : List Described :=
  [⟨_, ServerTls.shape⟩, ⟨_, Network.shape⟩, ⟨_, EngineTuning.shape⟩, ⟨_, StorageEngine.shape⟩,
    ⟨_, Storage.shape⟩, ⟨_, Replication.shape⟩, ⟨_, Arguments.shape⟩, ⟨_, LogTarget.shape⟩,
    ⟨_, Server.shape⟩, ⟨_, Member.shape⟩, ⟨_, ReplicaSet.shape⟩, ⟨_, Role.shape⟩, ⟨_, User.shape⟩,
    ⟨_, Auth.shape⟩, ⟨_, AgentTls.shape⟩, ⟨_, AgentOptions.shape⟩, ⟨_, Build.shape⟩,
    ⟨_, Release.shape⟩, ⟨_, Document.shape⟩]

def Described.named? (title : String) : Option Described :=
  all.find? (·.shape.title == title)

end AgentConfig
