import AgentConfig.Proofs.Builder.Independence
import AgentConfig.Proofs.Document.Sound
import AgentConfig.Proofs.Schema.Field

namespace AgentConfig

/-- The server with its connections not encrypted. -/
def Server.unencrypted (p : Server) : Server :=
  { p with arguments := { p.arguments with network := { p.arguments.network with tls := none } } }

theorem AgentTls.write_document (x : AgentTls) : AgentTls.shape.write .document x =
    some (.record ((if x.caFile = "" then [] else [("CAFilePath", .text x.caFile)]) ++
      [("clientCertificateMode", .text x.certificates.word)])) := by
  by_cases empty : x.caFile = ""
  · simp [AgentTls.shape, Shape.write, Fields.write, Label.omitted, Label.aliased, Label.key, CertificateMode.shape,
      CertificateMode.choices, Tree.isEmpty, empty]
  · simp [AgentTls.shape, Shape.write, Fields.write, Label.omitted, Label.aliased, Label.key, CertificateMode.shape,
      CertificateMode.choices, Tree.isEmpty, empty]

/-- What is written for the way in which a server is reached: without encryption there is no entry for it. -/
theorem Network.write_document (x : Network) : Network.shape.write .document x =
    some (.record (("port", .int x.port) :: x.tls.toList.map fun tls =>
      ("ssl", .record [("mode", .text tls.mode.word), ("CAFile", .text tls.caFile), ("PEMKeyFile", .text tls.keyFile),
        ("allowConnectionsWithoutCertificates", .bool tls.allowWithoutCertificates)]))) := by
  obtain ⟨port, tls⟩ := x
  cases tls <;> rfl

/-- The network of a server stands where it belongs in what is written for the server. -/
theorem Server.at?_network {p : Server} {t : Tree} (written : Server.shape.write .document p = some t) :
    t.at? ["args2_6", "net"] = Network.shape.write .document p.arguments.network := by
  have arguments : (⟨_, .plain "args2_6", Arguments.shape, some {}, p.arguments⟩ : Field) ∈ Server.shape.filled p :=
    .tail _ (.tail _ (.head _))
  have network : (⟨_, .plain "net", Network.shape, some {}, p.arguments.network⟩ : Field) ∈
      Arguments.shape.filled p.arguments := .head _
  obtain ⟨u, inside, -⟩ := Shape.exists_at? Server.sound written arguments
  have way : t.at? ["args2_6"] = some u := (Shape.at?_kept Server.sound written arguments rfl).trans inside
  rw [Tree.at?_cons way]
  exact Shape.at?_kept Arguments.sound inside network rfl

namespace Document

theorem at?_tls {d : Document} {t : Tree} (written : shape.write .document d = some t) :
    t.at? ["ssl"] = AgentTls.shape.write .document d.tls := by
  have field : (⟨_, .plain "ssl", AgentTls.shape, some {}, d.tls⟩ : Field) ∈ shape.filled d :=
    .tail _ (.tail _ (.tail _ (.tail _ (.head _))))
  exact Shape.at?_kept sound written field rfl

theorem at?_servers {d : Document} {t : Tree} (written : shape.write .document d = some t) :
    ∃ items, t.at? ["processes"] = some (.list items) ∧
      allSome (d.servers.map (Server.shape.write .document)) = some items := by
  have field : (⟨_, .plain "processes", .list Server.shape, some [], d.servers⟩ : Field) ∈ shape.filled d :=
    .tail _ (.head _)
  obtain ⟨u, inside, -⟩ := Shape.exists_at? sound written field
  obtain ⟨items, all, rfl⟩ := Option.map_eq_some_iff.mp inside
  exact ⟨items, (Shape.at?_kept sound written field rfl).trans inside, all⟩

/-- The document with nothing encrypted. -/
def unencrypted (d : Document) : Document :=
  { d with servers := d.servers.map Server.unencrypted, tls := { d.tls with caFile := "" } }

theorem content_unencrypted (d : Document) : d.unencrypted.content = d.content.unencrypted :=
  rfl

theorem content_settled {p : Prop} [Decidable p] (d : Document) (version : Int) :
    (if p then d else { d with version }).content = d.content := by
  split_ifs <;> rfl

end Document

/-- A text that is read as an alternative is its word. -/
theorem Choices.word_of_read {α : Type} {choices : Choices α} {s : String} {a : α}
    (read : choices.read (.text s) = .ok a) : choices.word a = s := by
  rw [Choices.read_text] at read
  split at read
  · next b found =>
    obtain rfl : b = a := Except.ok.inj read
    have same := List.find?_some found
    exact beq_iff_eq.mp same
  · contradiction

namespace Builder

variable {b : Builder} {d : Document} {t : Tree} {naming : Naming}

/-- The encryption that all servers have, if any. Its mode may turn out to be none. -/
def encryption (b : Builder) : Except Invalid (Option ServerTls) :=
  if b.isTlsEnabled then
    match TlsMode.choices.read (.text b.tlsMode) with
    | .ok mode => .ok (some { mode, caFile := b.caFile, keyFile := b.keyFile, allowWithoutCertificates := true })
    | .error problems =>
      .error { title := ServerTls.shape.title, problems := problems.map (·.within (.key "mode")) }
  else .ok none

/-- The server at some place, encrypted in some way. -/
def serverWith (b : Builder) (tls : Option ServerTls) (index : Nat) : Server where
  name := serverName b.name index
  hostname := serverHost b.name index b.domain
  arguments := { network := { tls }, replication := { replicaSet := b.name } }
  compatibility := b.compatibility
  version := b.version

theorem server_eq (b : Builder) (index : Nat) : b.server index = b.encryption.map (b.serverWith · index) := by
  unfold server serverOptions encryption
  split_ifs with on
  · cases read : TlsMode.choices.read (.text b.tlsMode) <;>
      simp [Server.create, Server.applyAll, Server.apply, Server.base, Server.withTls, read, bind, Except.bind,
        Except.map, serverWith]
  · simp [Server.create, Server.applyAll, Server.apply, Server.base, bind, Except.bind, Except.map, serverWith]

/-- Servers are encrypted alike. Without members nothing can be wrong with their encryption. -/
theorem servers_eq (b : Builder) : b.servers =
    if b.members ≤ 0 then .ok []
    else b.encryption.map fun tls => (List.range b.members.toNat).map (b.serverWith tls) := by
  have each : b.server = fun index => b.encryption.map (b.serverWith · index) := funext b.server_eq
  rw [servers, each]
  split_ifs with none
  · rw [Int.toNat_of_nonpos none]
    rfl
  · cases b.encryption with
    | ok tls => exact List.mapM_pure
    | error e =>
      obtain ⟨count, members⟩ : ∃ count, b.members.toNat = count + 1 := ⟨b.members.toNat - 1, by omega⟩
      rw [members, List.range_succ_eq_map, List.mapM_cons]
      rfl

theorem encryption_eq_ok {tls : Option ServerTls} : b.encryption = .ok tls ↔
    if b.isTlsEnabled then ∃ mode : TlsMode, mode.word = b.tlsMode ∧
      tls = some { mode, caFile := b.caFile, keyFile := b.keyFile, allowWithoutCertificates := true }
    else tls = none := by
  unfold encryption
  split_ifs with on
  · cases read : TlsMode.choices.read (.text b.tlsMode) with
    | ok mode =>
      have word : mode.word = b.tlsMode := TlsMode.choices.word_of_read read
      simp only [Except.ok.injEq]
      constructor
      · rintro rfl
        exact ⟨mode, word, rfl⟩
      · rintro ⟨mode', word', rfl⟩
        rw [TlsMode.choices.word_injective mode mode' (word.trans word'.symm)]
    | error problems =>
      simp only [reduceCtorEq, false_iff, not_exists, not_and]
      rintro mode word -
      have again : TlsMode.choices.read (.text mode.word) = .ok mode := TlsMode.choices.read_word mode
      rw [word, read] at again
      contradiction
  · simp [eq_comm]

variable {servers : List Server} {auth : Auth}

/-- Where TLS is off the same servers come out, but for their encryption. -/
theorem servers_of_disabled {off : Builder} (same : off.serverWith none = b.serverWith none)
    (members : off.members = b.members) (disabled : off.isTlsEnabled = false) (made : b.servers = .ok servers) :
    off.servers = .ok (servers.map Server.unencrypted) := by
  have plain : off.encryption = .ok none := encryption_eq_ok.mpr (by simp [disabled])
  rw [servers_eq] at made ⊢
  rw [members, plain]
  split_ifs at made ⊢ with few
  · obtain rfl := Except.ok.inj made
    rfl
  · obtain ⟨tls, -, rfl⟩ := map_eq_ok made
    rw [List.map_map]
    simp only [Except.map, same]
    rfl

/-- The rest of a document does not depend on TLS. -/
theorem unencrypted_assemble {caFile keyFile mode : String}
    (disabled : (b.setTls caFile keyFile mode).isTlsEnabled = false) :
    (b.assemble servers auth).unencrypted =
      (b.setTls caFile keyFile mode).assemble (servers.map Server.unencrypted) auth := by
  have members : ((servers.map Server.unencrypted).zipIdx.map fun p => p.1.member (p.2 : Nat)) =
      servers.zipIdx.map fun p => p.1.member (p.2 : Nat) := by
    rw [List.zipIdx_map, List.map_map]
    rfl
  simp only [assemble, disabled, Bool.false_eq_true, if_false, members]
  rfl

/-- A build with TLS off succeeds where one with TLS on does, with the same content but for the encryption. -/
theorem exists_build_disabled {caFile keyFile mode : String} (built : b.build.outcome = .ok d)
    (disabled : (b.setTls caFile keyFile mode).isTlsEnabled = false) :
    ∃ e, (b.setTls caFile keyFile mode).build.outcome = .ok e ∧ e.content = d.unencrypted.content := by
  obtain ⟨fresh, enabler, servers, auth, before, after, given, made, enabled, first, second, rfl⟩ := build_eq_ok.mp built
  have known : auth.key ≠ .foreign := Document.key_ne_foreign_of_canonical second
  have off : (b.setTls caFile keyFile mode).servers = .ok (servers.map Server.unencrypted) :=
    servers_of_disabled (b := b) rfl rfl disabled made
  obtain ⟨after', second'⟩ : ∃ text, ((b.setTls caFile keyFile mode).assemble (servers.map Server.unencrypted)
      auth).canonical = .ok text := Document.exists_canonical known
  refine ⟨_, build_eq_ok.mpr ⟨fresh, enabler, _, auth, before, after', given, off, enabled, first, second', rfl⟩, ?_⟩
  rw [Document.content_unencrypted, Document.content_settled, Document.content_settled, ← unencrypted_assemble disabled]
  rfl

theorem caFile_ne_empty (on : b.isTlsEnabled) : b.caFile ≠ "" := by
  simp only [isTlsEnabled, Bool.and_eq_true, bne_iff_ne] at on
  exact on.1.1

/-- How many servers there are, and how each of them is reached. -/
theorem networks_of_servers (made : b.servers = .ok servers) : servers.length = b.members.toNat ∧
    ∀ p ∈ servers, ∃ tls, b.encryption = .ok tls ∧ p.arguments.network = { tls } := by
  rw [servers_eq] at made
  split_ifs at made with few
  · obtain rfl := Except.ok.inj made
    exact ⟨(Int.toNat_of_nonpos few).symm, by simp⟩
  · obtain ⟨tls, same, rfl⟩ := map_eq_ok made
    refine ⟨by simp, fun p member => ?_⟩
    obtain ⟨index, -, rfl⟩ := List.mem_map.mp member
    exact ⟨tls, same, rfl⟩

/-- TLS is all or nothing. Where it is on, the agent and every server have all there is to it, and where it is off, none
of them has anything. The rest of the document is as if it were off. -/
theorem tls_all_or_nothing (built : b.build.outcome = .ok d) :
    ∃ t servers, d.canonical = .ok (Json.write none t) ∧
      t.at? ["ssl"] = some (.record ((if b.isTlsEnabled then [("CAFilePath", .text b.caFile)] else []) ++
        [("clientCertificateMode", .text "OPTIONAL")])) ∧
      t.at? ["processes"] = some (.list servers) ∧ servers.length = b.members.toNat ∧
      (∀ server ∈ servers, server.at? ["args2_6", "net"] = some (.record (("port", .int 27017) ::
        if b.isTlsEnabled then
          [("ssl", .record [("mode", .text b.tlsMode), ("CAFile", .text b.caFile), ("PEMKeyFile", .text b.keyFile),
            ("allowConnectionsWithoutCertificates", .bool true)])]
        else []))) ∧
      ∀ caFile keyFile mode, (b.setTls caFile keyFile mode).isTlsEnabled = false →
        ∃ e, (b.setTls caFile keyFile mode).build.outcome = .ok e ∧ e.content = d.unencrypted.content := by
  obtain ⟨fresh, enabler, servers, auth, before, after, given, made, enabled, first, second, settled⟩ := build_eq_ok.mp built
  obtain ⟨text, written⟩ : ∃ text, d.canonical = .ok text := by
    rw [settled]
    split_ifs
    · exact ⟨after, second⟩
    · exact Document.canonical_with_version second _
  obtain ⟨t, tree, rfl⟩ := Shape.toJson_eq_some (Document.canonical_eq_ok.mp written)
  have content : d.content = (b.assemble servers auth).content := by rw [settled, Document.content_settled]
  have tls : d.tls = { caFile := if b.isTlsEnabled then b.caFile else "" } := congrArg Document.tls content
  have same : d.servers = servers := congrArg Document.servers content
  obtain ⟨items, listed, all⟩ := Document.at?_servers tree
  obtain ⟨count, networks⟩ := networks_of_servers made
  rw [same] at all
  refine ⟨t, items, written, ?_, listed, ?_, fun item member => ?_,
    fun caFile keyFile mode => exists_build_disabled built⟩
  · rw [Document.at?_tls tree, tls, AgentTls.write_document]
    by_cases on : b.isTlsEnabled
    · simp [on, caFile_ne_empty on, CertificateMode.word]
    · simp [on, CertificateMode.word]
  · rw [← count]
    simpa using (congrArg List.length (allSome_eq_some all)).symm
  · obtain ⟨p, among, one⟩ := exists_of_mem_allSome all member
    obtain ⟨tls, encrypted, network⟩ := networks p among
    rw [Server.at?_network one, network, Network.write_document]
    have described := encryption_eq_ok.mp encrypted
    split_ifs at described ⊢
    · obtain ⟨mode, word, rfl⟩ := described
      simp [word]
    · rw [described]
      rfl

/-- The encrypted builder, and the same without the file of a certificate for its servers. -/
theorem tls_all_or_nothing_encrypted : ∃ d t server, encrypted.build.outcome = .ok d ∧
    d.canonical = .ok (Json.write none t) ∧ t.at? ["processes"] = some (.list [server]) ∧
    t.at? ["ssl"] = some (.record [("CAFilePath", .text "/ca"), ("clientCertificateMode", .text "OPTIONAL")]) ∧
    server.at? ["args2_6", "net"] = some (.record [("port", .int 27017), ("ssl", .record [("mode", .text "requireSSL"),
      ("CAFile", .text "/ca"), ("PEMKeyFile", .text "/pem"), ("allowConnectionsWithoutCertificates", .bool true)])]) ∧
    (encrypted.setTls "/ca" "" "requireSSL").isTlsEnabled = false ∧
    ∃ e, (encrypted.setTls "/ca" "" "requireSSL").build.outcome = .ok e ∧ e.content = d.unencrypted.content := by
  have empty : ∃ text, encrypted.previous.canonical = .ok text := Document.exists_canonical (by decide)
  obtain ⟨d, built⟩ : ∃ d, encrypted.build.outcome = .ok d := exists_build_encrypted empty
  have on : encrypted.isTlsEnabled = true := by decide
  have disabled : (encrypted.setTls "/ca" "" "requireSSL").isTlsEnabled = false := by decide
  obtain ⟨t, servers, written, agent, listed, count, networks, off⟩ := tls_all_or_nothing built
  obtain ⟨server, rfl⟩ := List.length_eq_one_iff.mp count
  have network := networks server (List.mem_singleton_self _)
  rw [if_pos on] at agent network
  exact ⟨d, t, server, built, written, listed, agent, network, disabled, off "/ca" "" "requireSSL" disabled⟩

end Builder
end AgentConfig
