import AgentConfig.Schema.Shape

namespace AgentConfig

/-- The part that a server, given by its name, has in a replica set. -/
structure Member where
  id : Int
  host : String
  priority : Int := 1
  arbiterOnly : Bool := false
  votes : Int := 1
  deriving DecidableEq

def Member.shape : Shape Member :=
  .record "ReplicaSetMember"
    (.cons (.aliased "id" "_id") .int none <|
     .cons (.plain "host") (.text false) none <|
     .cons (.plain "priority") .int (some 1) <|
     .cons (.aliased "arbiter_only" "arbiterOnly") .bool (some false) <|
     .cons (.plain "votes") .int (some 1) <|
     .nil)
    { split := fun x => (x.id, x.host, x.priority, x.arbiterOnly, x.votes, ())
      join := fun (id, host, priority, arbiterOnly, votes, _) => { id, host, priority, arbiterOnly, votes }
      join_split := fun _ => rfl
      split_join := fun _ => rfl }

/-- A replica set, its members and the version of the protocol they speak. -/
structure ReplicaSet where
  name : String
  members : List Member := []
  protocol : String := "1"
  deriving DecidableEq

def ReplicaSet.shape : Shape ReplicaSet :=
  .record "ReplicaSet"
    (.cons (.aliased "id" "_id") (.text false) none <|
     .cons (.plain "members") (.list Member.shape) (some []) <|
     .cons (.aliased "protocol_version" "protocolVersion") (.text false) (some "1") <|
     .nil)
    { split := fun x => (x.name, x.members, x.protocol, ())
      join := fun (name, members, protocol, _) => { name, members, protocol }
      join_split := fun _ => rfl
      split_join := fun _ => rfl }

end AgentConfig
