import AgentConfig.Schema.Shape

namespace AgentConfig

/-- What a user may do on a database. -/
structure Role where
  role : String
  database : String
  deriving DecidableEq

def Role.shape : Shape Role :=
  .record "Role"
    (.cons (.plain "role") (.text false) none <|
     .cons (.plain "db") (.text false) none <|
     .nil)
    { split := fun x => (x.role, x.database, ())
      join := fun (role, database, _) => { role, database }
      join_split := fun _ => rfl
      split_join := fun _ => rfl }

/-- A database user that the agent keeps in place. -/
structure User where
  mechanisms : List String := []
  roles : List Role := []
  name : String
  database : String
  restrictions : List String := []
  deriving DecidableEq

def User.shape : Shape User :=
  .record "MongoDBUser"
    (.cons (.plain "mechanisms") (.list (.text false)) (some []) <|
     .cons (.plain "roles") (.list Role.shape) (some []) <|
     .cons (.aliased "username" "user") (.text false) none <|
     .cons (.aliased "database" "db") (.text false) none <|
     .cons (.aliased "authentication_restrictions" "authenticationRestrictions") (.list (.text false)) (some []) <|
     .nil)
    { split := fun x => (x.mechanisms, x.roles, x.name, x.database, x.restrictions, ())
      join := fun (mechanisms, roles, name, database, restrictions, _) =>
        { mechanisms, roles, name, database, restrictions }
      join_split := fun _ => rfl
      split_join := fun _ => rfl }

/-- Authentication of the whole deployment. The users are always written out; what concerns the agent
is left out as long as it is empty. -/
structure Auth where
  users : List User := []
  disabled : Bool := false
  authoritative : Bool := false
  agentMechanisms : List String := []
  agentMechanism : String := ""
  deploymentMechanisms : List String := []
  agentUser : String := ""
  key : Secret := .text ""
  keyFile : String := ""
  keyFileWindows : String := ""
  agentPassword : String := ""
  deriving DecidableEq

namespace Auth

def shape : Shape Auth :=
  .record "Auth"
    (.cons (.aliased "users" "usersWanted") (.list User.shape) (some []) <|
     .cons (.plain "disabled") .bool (some false) <|
     .cons (.aliased "authoritative_set" "authoritativeSet") .bool (some false) <|
     .cons (Label.aliased "auto_auth_mechanisms" "autoAuthMechanisms").omitted (.list (.text false)) (some []) <|
     .cons (Label.aliased "auto_auth_mechanism" "autoAuthMechanism").omitted (.text false) (some "") <|
     .cons (Label.aliased "deployment_auth_mechanisms" "deploymentAuthMechanisms").omitted (.list (.text false))
       (some []) <|
     .cons (Label.aliased "auto_user" "autoUser").omitted (.text false) (some "") <|
     .cons (Label.plain "key").omitted .secret (some (.text "")) <|
     .cons (Label.plain "keyfile").omitted (.text false) (some "") <|
     .cons (Label.aliased "keyfile_windows" "keyfileWindows").omitted (.text false) (some "") <|
     .cons (Label.aliased "auto_pwd" "autoPwd").omitted (.text false) (some "") <|
     .nil)
    { split := fun x =>
        (x.users, x.disabled, x.authoritative, x.agentMechanisms, x.agentMechanism, x.deploymentMechanisms,
          x.agentUser, x.key, x.keyFile, x.keyFileWindows, x.agentPassword, ())
      join := fun (users, disabled, authoritative, agentMechanisms, agentMechanism, deploymentMechanisms,
          agentUser, key, keyFile, keyFileWindows, agentPassword, _) =>
        { users, disabled, authoritative, agentMechanisms, agentMechanism, deploymentMechanisms,
          agentUser, key, keyFile, keyFileWindows, agentPassword }
      join_split := fun _ => rfl
      split_join := fun _ => rfl }

/-- No users and no authentication: what every build starts from. -/
def baseline : Auth where
  disabled := true

end Auth
end AgentConfig
