import AgentConfig.Document.Tls

namespace AgentConfig

/-- The kinds of server that the agent manages. -/
inductive ServerKind where
  | server
  deriving DecidableEq

namespace ServerKind

def word : ServerKind → String
  | server => "mongod"

def choices : Choices ServerKind where
  all := [server]
  word := word
  mem_all a := by cases a; simp
  word_injective a b _ := by cases a; cases b; rfl

def shape : Shape ServerKind :=
  .choice choices

end ServerKind

/-- How a server is reached over the network. Without `tls` its connections are not encrypted. -/
structure Network where
  port : Int := 27017
  tls : Option ServerTls := none

def Network.shape : Shape Network :=
  .record "Net"
    (.cons (.plain "port") .int (some 27017) <|
     .cons (Label.plain "ssl").omitted (.nullable ServerTls.shape) (some none) <|
     .nil)
    { split := fun x => (x.port, x.tls, ())
      join := fun (port, tls, _) => { port, tls }
      join_split := fun _ => rfl
      split_join := fun _ => rfl }

/-- Tuning of the storage engine: the size of its cache in gigabytes. -/
structure EngineTuning where
  cacheSize : Binary64 := .one

def EngineTuning.shape : Shape EngineTuning :=
  .record "EngineConfig"
    (.cons (.aliased "cache_size_gb" "cacheSizeGB") .float (some .one) .nil)
    { split := fun x => (x.cacheSize, ())
      join := fun (cacheSize, _) => { cacheSize }
      join_split := fun _ => rfl
      split_join := fun _ => rfl }

structure StorageEngine where
  tuning : EngineTuning := {}

def StorageEngine.shape : Shape StorageEngine :=
  .record "WiredTiger"
    (.cons (.aliased "engine_config" "engineConfig") EngineTuning.shape (some {}) .nil)
    { split := fun x => (x.tuning, ())
      join := fun (tuning, _) => { tuning }
      join_split := fun _ => rfl
      split_join := fun _ => rfl }

/-- Where a server keeps its data. -/
structure Storage where
  path : String := "/data"
  engine : StorageEngine := {}

def Storage.shape : Shape Storage :=
  .record "Storage"
    (.cons (.aliased "db_path" "dbPath") (.text false) (some "/data") <|
     .cons (.aliased "wired_tiger" "wiredTiger") StorageEngine.shape (some {}) <|
     .nil)
    { split := fun x => (x.path, x.engine, ())
      join := fun (path, engine, _) => { path, engine }
      join_split := fun _ => rfl
      split_join := fun _ => rfl }

/-- The replica set that a server joins. -/
structure Replication where
  replicaSet : String := ""

def Replication.shape : Shape Replication :=
  .record "Replication"
    (.cons (.aliased "repl_set_name" "replSetName") (.text false) (some "") .nil)
    { split := fun x => (x.replicaSet, ())
      join := fun (replicaSet, _) => { replicaSet }
      join_split := fun _ => rfl
      split_join := fun _ => rfl }

/-- What a server is started with. -/
structure Arguments where
  network : Network := {}
  storage : Storage := {}
  replication : Replication := {}

def Arguments.shape : Shape Arguments :=
  .record "Args26"
    (.cons (.plain "net") Network.shape (some {}) <|
     .cons (.plain "storage") Storage.shape (some {}) <|
     .cons (.plain "replication") Replication.shape (some {}) <|
     .nil)
    { split := fun x => (x.network, x.storage, x.replication, ())
      join := fun (network, storage, replication, _) => { network, storage, replication }
      join_split := fun _ => rfl
      split_join := fun _ => rfl }

/-- Where a server writes its log. -/
structure LogTarget where
  destination : String := "file"
  path : String := "/var/log/mongodb-mms-automation/mongodb.log"

def LogTarget.shape : Shape LogTarget :=
  .record "SystemLog"
    (.cons (.plain "destination") (.text false) (some "file") <|
     .cons (.plain "path") (.text false) (some "/var/log/mongodb-mms-automation/mongodb.log") <|
     .nil)
    { split := fun x => (x.destination, x.path, ())
      join := fun (destination, path, _) => { destination, path }
      join_split := fun _ => rfl
      split_join := fun _ => rfl }

/-- One server that the agent runs. -/
structure Server where
  name : String
  hostname : String
  arguments : Arguments := {}
  compatibility : String := ""
  kind : ServerKind := .server
  version : String := ""
  authSchema : Int := 5
  log : LogTarget := {}

def Server.shape : Shape Server :=
  .record "Process"
    (.cons (.plain "name") (.text false) none <|
     .cons (.plain "hostname") (.text false) none <|
     .cons (.plain "args2_6") Arguments.shape (some {}) <|
     .cons (.aliased "feature_compatibility_version" "featureCompatibilityVersion") (.text false) (some "") <|
     .cons (.aliased "process_type" "processType") ServerKind.shape (some .server) <|
     .cons (.plain "version") (.text false) (some "") <|
     .cons (.aliased "auth_schema_version" "authSchemaVersion") .int (some 5) <|
     .cons (.aliased "system_log" "systemLog") LogTarget.shape (some {}) <|
     .nil)
    { split := fun x =>
        (x.name, x.hostname, x.arguments, x.compatibility, x.kind, x.version, x.authSchema, x.log, ())
      join := fun (name, hostname, arguments, compatibility, kind, version, authSchema, log, _) =>
        { name, hostname, arguments, compatibility, kind, version, authSchema, log }
      join_split := fun _ => rfl
      split_join := fun _ => rfl }

end AgentConfig
