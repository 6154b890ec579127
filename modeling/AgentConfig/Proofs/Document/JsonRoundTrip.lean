import AgentConfig.Proofs.Document.Canonical

namespace AgentConfig

namespace Document

variable {d : Document} {indent : Json.Indent} {text : String}

theorem shallow : shape.depth ≤ Json.depthLimit := by
  decide

theorem toJson_eq_ok : d.toJson indent = .ok text ↔ shape.toJson .document indent d = some text := by
  unfold toJson
  cases shape.toJson .document indent d <;> simp

theorem toJson_eq_ok_of_write {t : Tree} (written : shape.write .document d = some t) (indent : Json.Indent) :
    d.toJson indent = .ok (Json.write indent t) :=
  toJson_eq_ok.mpr (by rw [Shape.toJson, written]; rfl)

/-- A document of which nothing but the version is given. -/
theorem meets_version {demands : Demands} {n : Int} (int : demands.int n) (secret : demands.secret (.text "")) :
    shape.Meets demands { version := n } := by
  have none : ∀ {α : Type} (item : Shape α), (Shape.list item).Meets demands [] := fun _ _ member => by
    simp at member
  have auth : Auth.shape.Meets demands {} :=
    ⟨none _, trivial, trivial, none _, trivial, none _, trivial, secret, trivial, trivial, trivial, trivial⟩
  exact ⟨int, none _, none _, auth, ⟨trivial, trivial, trivial⟩, none _, ⟨trivial, trivial⟩, trivial⟩

/-- Storing data as JSON loses nothing. -/
theorem json_round_trip :
    (∀ record ∈ Described.all, ∀ a, record.shape.Meets .storable a → ∀ naming indent, ∃ text,
      record.shape.toJson naming indent a = some text ∧ record.shape.ofJson text = .ok a ∧ record.shape.equal a a) ∧
    (∀ d : Document, shape.Meets .storable d → ∀ indent, ∃ text,
      d.toJson indent = .ok text ∧ ofJson text = .ok d) ∧
    (∀ record ∈ Described.all, ∀ a b, record.shape.Meets .storable a → record.shape.Meets .storable b →
      record.shape.canonical a = record.shape.canonical b → a = b) ∧
    ∀ d : Document, ∀ server ∈ d.servers, ¬ server.cacheSize.isFinite → ∀ indent,
      (d.auth.key ≠ .foreign → ∃ text, d.toJson indent = .ok text) ∧
      ∀ text, d.toJson indent = .ok text → ∃ e, ofJson text = .error e := by
  refine ⟨fun record member a meets naming indent => ?_, fun d meets indent => ?_, fun record member a b meets meets' same => ?_,
    fun d server member infinite indent => ⟨fun known => ?_, fun text written => ?_⟩⟩
  · obtain ⟨text, written, back⟩ := Shape.ofJson_toJson (Described.sound record member)
      (Described.shallow record member) meets naming indent
    exact ⟨text, written, back, record.shape.equal_self meets⟩
  · obtain ⟨text, written, back⟩ := Shape.ofJson_toJson sound shallow meets .document indent
    exact ⟨text, toJson_eq_ok.mpr written, back⟩
  · have written := record.shape.write_isSome (fun _ clean => clean) .document meets
    exact Shape.canonical_injective (Described.sound record member) (Shape.finite_of_storable meets)
      (Shape.finite_of_storable meets') (Option.isSome_iff_exists.mpr written) same
  · obtain ⟨t, written⟩ := shape.write_isSome (fun _ clean => clean) .document (meets_written known)
    exact ⟨Json.write indent t, toJson_eq_ok.mpr (by rw [Shape.toJson, written]; rfl)⟩
  · exact Shape.ofJson_toJson_infinite sound shallow (fun finite => infinite (finite_iff.mp finite _ member))
      (toJson_eq_ok.mp written)

/-- A server with texts that need escapes, a negative zero and encryption. -/
def specimenServer : Server where
  name := "\"a\\\n\u0001"
  hostname := "é😀"
  arguments :=
    { network := { tls := some { mode := .require } },
      storage := { engine := { tuning := { cacheSize := .zero true } } } }

def specimen (version : Int) : Document where
  version := version
  servers := [specimenServer]

/-- A server whose cache has no size. -/
def boundlessServer : Server :=
  { specimenServer with arguments := { storage := { engine := { tuning := { cacheSize := .nan } } } } }

theorem specimenServer_storable : Server.shape.Meets .storable specimenServer := by
  have port : Demands.storable.int 27017 := by simp only [Demands.storable]; decide
  have authSchema : Demands.storable.int 5 := by simp only [Demands.storable]; decide
  have tls : ∀ tls ∈ specimenServer.arguments.network.tls, ServerTls.shape.Meets .storable tls := fun _ _ =>
    ⟨trivial, trivial, trivial, trivial, trivial⟩
  have storage : Storage.shape.Meets .storable specimenServer.arguments.storage :=
    ⟨trivial, ⟨⟨(rfl : (Binary64.zero true).isFinite = true), trivial⟩, trivial⟩, trivial⟩
  exact ⟨trivial, trivial, ⟨⟨port, tls, trivial⟩, storage, ⟨trivial, trivial⟩, trivial⟩, trivial, trivial, trivial,
    authSchema, ⟨trivial, trivial, trivial⟩, trivial⟩

theorem specimen_storable {version : Int} (short : Demands.storable.int version) :
    shape.Meets .storable (specimen version) := by
  have servers : ∀ server ∈ (specimen version).servers, Server.shape.Meets .storable server := fun server member => by
    obtain rfl : server = specimenServer := List.mem_singleton.mp member
    exact specimenServer_storable
  have rest := meets_version short (by simp [Demands.storable] : Demands.storable.secret (.text ""))
  exact ⟨short, servers, rest.2.2⟩

theorem json_round_trip_specimen :
    (⟨_, Server.shape⟩ ∈ Described.all ∧ Server.shape.Meets .storable specimenServer ∧ ∃ text,
      Server.shape.toJson .program (some 0) specimenServer = some text ∧ Server.shape.ofJson text = .ok specimenServer ∧
      Server.shape.equal specimenServer specimenServer) ∧
    (shape.Meets .storable (specimen (-42)) ∧ ∃ text,
      (specimen (-42)).toJson (some 2) = .ok text ∧ ofJson text = .ok (specimen (-42))) ∧
    shape.canonical (specimen (-42)) ≠ shape.canonical (specimen (-43)) ∧
    ¬ boundlessServer.cacheSize.isFinite ∧
    (∃ text, toJson none { servers := [boundlessServer] } = .ok text) ∧
    ∀ text, toJson none { servers := [boundlessServer] } = .ok text → ∃ e, ofJson text = .error e := by
  have member : ⟨_, Server.shape⟩ ∈ Described.all := by simp [Described.all]
  have document : ⟨_, shape⟩ ∈ Described.all := by simp [Described.all]
  have first : shape.Meets .storable (specimen (-42)) := specimen_storable (by simp only [Demands.storable]; decide)
  have second : shape.Meets .storable (specimen (-43)) := specimen_storable (by simp only [Demands.storable]; decide)
  obtain ⟨records, documents, injective, refused⟩ := json_round_trip
  refine ⟨⟨member, specimenServer_storable, records _ member _ specimenServer_storable .program (some 0)⟩,
    ⟨first, documents _ first (some 2)⟩, fun same => ?_, ?_⟩
  · exact absurd (congrArg Document.version (injective _ document _ _ first second same)) (by decide)
  have infinite : ¬ boundlessServer.cacheSize.isFinite := by decide
  obtain ⟨written, refused⟩ :=
    refused { servers := [boundlessServer] } boundlessServer (List.mem_singleton_self _) infinite none
  exact ⟨infinite, written (by decide), refused⟩

end Document
end AgentConfig
