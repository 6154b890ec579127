import AgentConfig.Builder.Basic

namespace AgentConfig.Builder

/-- What a caller asks of a builder. -/
inductive Request where
  | setEnabler (enabler : Enabler)
  | setTopology (word : String)
  | setMembers (members : Int)
  | setDomain (domain : String)
  | setName (name : String)
  | setCompatibility (version : String)
  | setVersion (version : String)
  | setPrevious (d : Document)
  | setTls (caFile keyFile mode : String)
  | addRelease (r : Release)
  | isTlsEnabled
  | build

/-- What the caller is told. -/
inductive Reply where
  | accepted
  | rejected (message : String)
  | flag (on : Bool)
  | attempted (outcome : Except BuildError Document) (log : List LogRecord)

/-- A builder in use, and the documents that were handed out. -/
structure Session where
  builder : Builder := {}
  built : List Document := []

namespace Session

/-- A builder that nothing was asked of yet. -/
def fresh : Session := {}

def accept (s : Session) (b : Builder) : Session × Reply :=
  ({ s with builder := b }, .accepted)

def step (s : Session) : Request → Session × Reply
  | .setEnabler enabler => s.accept (s.builder.setEnabler enabler)
  | .setTopology word =>
    match s.builder.setTopology word with
    | .ok b => s.accept b
    | .error message => (s, .rejected message)
  | .setMembers members => s.accept { s.builder with members }
  | .setDomain domain => s.accept { s.builder with domain }
  | .setName name => s.accept { s.builder with name }
  | .setCompatibility version => s.accept { s.builder with compatibility := version }
  | .setVersion version => s.accept { s.builder with version }
  | .setPrevious d => s.accept { s.builder with previous := d }
  | .setTls caFile keyFile mode => s.accept (s.builder.setTls caFile keyFile mode)
  | .addRelease r => s.accept (s.builder.addRelease r)
  | .isTlsEnabled => (s, .flag s.builder.isTlsEnabled)
  | .build =>
    let attempt := s.builder.build
    ({ builder := attempt.builder, built := s.built ++ attempt.outcome.toOption.toList },
      .attempted attempt.outcome attempt.log)

/-- The session after some requests. -/
def after (s : Session) (requests : List Request) : Session :=
  requests.foldl (fun s r => (s.step r).1) s

end Session
end AgentConfig.Builder
