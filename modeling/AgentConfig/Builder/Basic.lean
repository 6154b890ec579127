import AgentConfig.Builder.Server
import AgentConfig.Document.Text
import AgentConfig.Enabler.Basic

namespace AgentConfig

/-- The shapes of deployment that a builder knows. -/
inductive Topology where
  | replicaSet
  deriving DecidableEq

namespace Topology

def word : Topology → String
  | replicaSet => "ReplicaSet"

def choices : Choices Topology where
  all := [replicaSet]
  word := word
  mem_all a := by cases a; simp
  word_injective a b _ := by cases a; cases b; rfl

def shape : Shape Topology :=
  .choice choices

def ofWord? (s : String) : Option Topology :=
  choices.all.find? (·.word == s)

end Topology

/-- Why a build gave no document. -/
inductive BuildError where
  | consumed
  | noEnabler
  | invalid (e : Invalid)
  | enabler (e : EnableError)
  | write (e : WriteError)
  deriving DecidableEq

def BuildError.message : BuildError → String
  | consumed => "This builder already produced an automation config; create a new one."
  | noEnabler => "No AuthEnabler configured on the builder."
  | invalid e => e.message
  | enabler e => e.message
  | write e => e.message

/-- The parameters of one document. They are not checked before the document is built, and a builder
gives no second document. -/
structure Builder where
  enabler : Option Enabler := none
  topology : Topology := .replicaSet
  members : Int := 0
  domain : String := ""
  name : String := ""
  compatibility : String := ""
  version : String := ""
  previous : Document := {}
  caFile : String := ""
  keyFile : String := ""
  tlsMode : String := TlsMode.disabled.word
  catalog : List Release := []
  consumed : Bool := false

/-- What comes of an attempt to build: the document or an error, what was logged on the way, and the
builder afterwards. -/
structure Attempt where
  outcome : Except BuildError Document
  log : List LogRecord
  builder : Builder

namespace Builder

/-- Where the agent puts its downloads. -/
def downloadBase : String := "/var/lib/mongodb-mms-automation"

def setEnabler (b : Builder) (enabler : Enabler) : Builder :=
  { b with enabler := some enabler }

/-- Only the word of a topology is taken. -/
def setTopology (b : Builder) (word : String) : Except String Builder :=
  match Topology.ofWord? word with
  | some topology => .ok { b with topology }
  | none => .error s!"{Text.quoted word} is not a valid Topology"

def setTls (b : Builder) (caFile keyFile mode : String) : Builder :=
  { b with caFile, keyFile, tlsMode := mode }

/-- Adds a release to the catalog. Modules that are not given are none. -/
def addRelease (b : Builder) (r : Release) : Builder :=
  { b with catalog := b.catalog ++ [r.listed] }

/-- TLS is on only with both files and a mode other than disabled. -/
def isTlsEnabled (b : Builder) : Bool :=
  b.caFile != "" && b.keyFile != "" && b.tlsMode != TlsMode.disabled.word

def serverOptions (b : Builder) : List ServerOption :=
  .compatibility b.compatibility :: (if b.isTlsEnabled then [.tls b.caFile b.keyFile b.tlsMode] else [])

/-- The server at some place. -/
def server (b : Builder) (index : Nat) : Except Invalid Server :=
  Server.create (serverName b.name index) (serverHost b.name index b.domain) b.version b.name b.serverOptions

/-- One server for each member, in order. -/
def servers (b : Builder) : Except Invalid (List Server) :=
  (List.range b.members.toNat).mapM b.server

/-- The document that the parameters describe, with the version of the one before. -/
def assemble (b : Builder) (servers : List Server) (auth : Auth) : Document where
  version := b.previous.version
  servers := servers
  replicaSets := [{
    name := b.name
    members := servers.zipIdx.map fun (p, i) => p.member i }]
  auth := auth
  tls := { caFile := if b.isTlsEnabled then b.caFile else "" }
  catalog := b.catalog
  options := { downloadBase }

def builderRecord (level : LogLevel) (text : String) : LogRecord :=
  { level, source := .builder, text }

def derivedRecord (b : Builder) (servers : List Server) : LogRecord :=
  builderRecord .debug (s!"Derived {servers.length} processes for {b.topology.word} {Text.quoted b.name}: " ++
    Text.quotedList (servers.map (·.hostname)))

def refusedRecord (b : Builder) (e : EnableError) : LogRecord :=
  builderRecord .error s!"AuthEnabler failed for {Text.quoted b.name}: {e.message}"

def changedRecord (b : Builder) (d : Document) : LogRecord :=
  builderRecord .info s!"Automation config for {Text.quoted b.name} changed, version {b.previous.version} -> {d.version}"

def unchangedRecord (b : Builder) (d : Document) : LogRecord :=
  builderRecord .info s!"Automation config for {Text.quoted b.name} unchanged at version {d.version}"

/-- Gives the document the next version if it differs from the one before. -/
def settle (b : Builder) (d : Document) : Except WriteError (Document × LogRecord) := do
  let before ← b.previous.canonical
  let after ← d.canonical
  if before = after then .ok (d, b.unchangedRecord d)
  else
    let d := { d with version := d.version + 1 }
    .ok (d, b.changedRecord d)

/-- Builds the document. The enabler gets the baseline, and only a document uses the builder up. -/
def build (b : Builder) : Attempt :=
  let fail (e : BuildError) (log : List LogRecord) : Attempt := { outcome := .error e, log, builder := b }
  if b.consumed then fail .consumed []
  else
    match b.enabler with
    | none => fail .noEnabler []
    | some enabler =>
      match b.servers with
      | .error e => fail (.invalid e) []
      | .ok servers =>
        let derived := b.derivedRecord servers
        match enabler.enable .baseline with
        | (.error e, log) => fail (.enabler e) (derived :: log ++ [b.refusedRecord e])
        | (.ok auth, log) =>
          match b.settle (b.assemble servers auth) with
          | .error e => fail (.write e) (derived :: log)
          | .ok (d, final) =>
            { outcome := .ok d, log := derived :: log ++ [final], builder := { b with consumed := true } }

end Builder
end AgentConfig
