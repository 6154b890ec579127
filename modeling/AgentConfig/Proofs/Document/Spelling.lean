import AgentConfig.Builder.Basic
import AgentConfig.Proofs.Document.Canonical
import AgentConfig.Proofs.Json.Dense
import AgentConfig.Proofs.Schema.Respelled

namespace AgentConfig

namespace Shape

variable {α : Type} {shape : Shape α} {text text' : String} {t u : Tree}

/-- One accepted text in place of another: with other white space, or with data that are spelled another way at any
number of places. -/
inductive SpelledAlike (shape : Shape α) : String → String → Prop
  | space {text text' : String} {t u : Tree} (read : Json.read text = .ok t) (read' : Json.read text' = .ok u)
      (same : Json.unspaced text = Json.unspaced text') : SpelledAlike shape text text'
  | data {text text' : String} {t u : Tree} (read : Json.read text = .ok t) (read' : Json.read text' = .ok u)
      (alike : Relation.EqvGen shape.Respelled t u) : SpelledAlike shape text text'

theorem toOption_ofJson (read : Json.read text = .ok t) :
    (shape.ofJson text).toOption = (shape.read .json (.ofTree t)).toOption := by
  rw [ofJson, read]
  exact toOption_check ..

/-- However often data are respelled, they are read as before. -/
theorem toOption_read_alike (sound : shape.Sound) (alike : Relation.EqvGen shape.Respelled t u) :
    (shape.read .json (.ofTree t)).toOption = (shape.read .json (.ofTree u)).toOption :=
  (eq_equivalence.comap fun t => (shape.read .json (.ofTree t)).toOption).eqvGen_iff.mp
    (alike.mono fun _ _ respelled => respelled.toOption_read sound)

theorem SpelledAlike.toOption_ofJson (sound : shape.Sound) (alike : shape.SpelledAlike text text') :
    (shape.ofJson text).toOption = (shape.ofJson text').toOption := by
  cases alike with
  | space read read' same =>
    have again := Json.read_unspaced read
    rw [same, Json.read_unspaced read'] at again
    rw [Shape.toOption_ofJson read, Shape.toOption_ofJson read', Except.ok.inj again]
  | data read read' alike =>
    rw [Shape.toOption_ofJson read, Shape.toOption_ofJson read', toOption_read_alike sound alike]

theorem toOption_ofJson_alike (sound : shape.Sound) (alike : Relation.EqvGen shape.SpelledAlike text text') :
    (shape.ofJson text).toOption = (shape.ofJson text').toOption :=
  (eq_equivalence.comap fun text => (shape.ofJson text).toOption).eqvGen_iff.mp
    (alike.mono fun _ _ alike => alike.toOption_ofJson sound)

end Shape

namespace Document

variable {d : Document} {text text' : String}

theorem usual_written : shape.UsualMeets .written := by
  simp [shape, Server.shape, Arguments.shape, Network.shape, ServerTls.shape, TlsMode.shape, Storage.shape,
    StorageEngine.shape, EngineTuning.shape, Replication.shape, LogTarget.shape, ServerKind.shape, ReplicaSet.shape,
    Member.shape, Auth.shape, User.shape, Role.shape, AgentTls.shape, CertificateMode.shape, AgentOptions.shape,
    Release.shape, Build.shape, Shape.UsualMeets, Fields.UsualMeets, Shape.Meets, Fields.Meets, Demands.written]

/-- What is read from JSON can be written. -/
theorem exists_canonical_of_ofJson (read : ofJson text = .ok d) : ∃ bytes, d.canonical = .ok bytes := by
  rw [ofJson, Shape.ofJson] at read
  cases found : Json.read text with
  | error e => simp [found] at read
  | ok t =>
    rw [found] at read
    exact exists_canonical_of_meets
      (shape.meets_of_read usual_written (fun leaf _ => Demands.accepts_written _ leaf) (Shape.check_eq_ok.mp read))

/-- How a document is spelled makes no difference: texts that are spelled alike are both refused, or both are accepted,
as documents with one canonical text, behind which every build comes to the same. -/
theorem spelling_irrelevant (alike : Relation.EqvGen shape.SpelledAlike text text') :
    (∃ e e', ofJson text = .error e ∧ ofJson text' = .error e') ∨
    ∃ d d' bytes, ofJson text = .ok d ∧ ofJson text' = .ok d' ∧ d.canonical = .ok bytes ∧ d'.canonical = .ok bytes ∧
      ∀ b : Builder, ({ b with previous := d }).build.outcome = ({ b with previous := d' }).build.outcome := by
  have same : (ofJson text).toOption = (ofJson text').toOption := Shape.toOption_ofJson_alike sound alike
  cases first : ofJson text with
  | error e =>
    cases second : ofJson text' with
    | error e' => exact .inl ⟨e, e', rfl, rfl⟩
    | ok d' => simp [first, second, Except.toOption] at same
  | ok d =>
    cases second : ofJson text' with
    | error e' => simp [first, second, Except.toOption] at same
    | ok d' =>
      obtain rfl : d = d' := by simpa [first, second, Except.toOption] using same
      obtain ⟨bytes, canonical⟩ := exists_canonical_of_ofJson first
      exact .inr ⟨d, d, bytes, rfl, rfl, canonical, canonical, fun b => rfl⟩

/-- A server as it is written. -/
def plainServer : List (String × Tree) :=
  [("name", .text "a"), ("hostname", .text "b")]

/-- The same server with its entries in another order and with arguments that are as usual. -/
def freeServer : List (String × Tree) :=
  plainServer.reverse ++ [("args2_6", .record [("net", .record [("ssl", .null)])])]

/-- The entries of a document with one server. -/
def withServer (server : Tree) (auth rest : List (String × Tree)) : List (String × Tree) :=
  ("version", .int 3) :: ("processes", .list [server]) :: ("auth", .record auth) :: rest

def plainData : Tree :=
  .record (withServer (.record plainServer) [] [("mongoDbVersions", .list [])])

/-- The same data with entries in another order, a foreign key, the name of a field, and an empty list that need not be
there. -/
def freeData : Tree :=
  .record (withServer (.record freeServer) [("autoAuthMechanisms", .list [])]
    [("versions", .list []), ("note", .bool true)]).reverse

theorem freeServer_alike : Relation.EqvGen Server.shape.Respelled (.record plainServer) (.record freeServer) := by
  have absent : (Label.plain "args2_6").Absent (plainServer.reverse ++ []) := by
    simp [plainServer, Label.Absent, Label.Has, Label.plain]
  refine .trans _ _ _ (.rel _ _ (.order _ (.entries (by decide) plainServer.reverse_perm.symm))) (.rel _ _ ?_)
  exact .usual plainServer.reverse [] (.tail _ _ _ (.tail _ _ _ (.head _))) (.inl rfl) absent rfl

theorem freeData_alike : Relation.EqvGen shape.Respelled plainData freeData := by
  let data (server : Tree) (auth rest : List (String × Tree)) : Tree := .record (withServer server auth rest)
  have servers : ∀ rest, Relation.EqvGen shape.Respelled (data (.record plainServer) [] rest)
      (data (.record freeServer) [] rest) := fun rest => by
    refine ((Relation.EqvGen.is_equivalence shape.Respelled).comap fun server => data server [] rest).eqvGen_iff.mp
      (freeServer_alike.mono fun t u inside => .rel _ _ ?_)
    exact .field [("version", .int 3)] (("auth", .record []) :: rest) (.tail _ _ _ (.head _)) (.inl rfl) (.item [] [] inside)
  have mechanisms : ∀ server rest, shape.Respelled (data server [] rest)
      (data server [("autoAuthMechanisms", .list [])] rest) := fun server rest => by
    have written : (Shape.list (.text false)).write .document [] = some (.list []) := rfl
    have absent : (Label.aliased "auto_auth_mechanisms" "autoAuthMechanisms").omitted.Absent ([] ++ []) := by
      simp [Label.Absent]
    exact .field [("version", .int 3), ("processes", .list [server])] rest (.tail _ _ _ (.tail _ _ _ (.tail _ _ _ (.head _))))
      (.inl rfl) (.empty [] [] (.tail _ _ _ (.tail _ _ _ (.tail _ _ _ (.head _)))) rfl (.inl rfl) absent written rfl)
  have name : ∀ server auth, shape.Respelled (data server auth [("mongoDbVersions", .list [])])
      (data server auth [("versions", .list [])]) := fun server auth => by
    have absent : (Label.aliased "versions" "mongoDbVersions").Absent (withServer server auth [] ++ []) := by
      simp [withServer, Label.Absent, Label.Has, Label.aliased]
    exact @Shape.Respelled.name _ _ _ _ _ _ (.list []) (withServer server auth []) [] (by simp [Fields.labels]) absent
  have note : ∀ server auth, shape.Respelled (data server auth [("versions", .list [])])
      (data server auth [("versions", .list []), ("note", .bool true)]) := fun server auth =>
    .foreign (.bool true) (withServer server auth [("versions", .list [])]) []
      (by simp [Fields.labels, Label.Has, Label.plain, Label.aliased])
  have order : shape.Respelled (data (.record freeServer) [("autoAuthMechanisms", .list [])]
    [("versions", .list []), ("note", .bool true)]) freeData :=
    .order _ (.entries (by decide) (List.reverse_perm _).symm)
  exact .trans _ _ _ (servers _) (.trans _ _ _ (.rel _ _ (mechanisms _ _)) (.trans _ _ _ (.rel _ _ (name _ _))
    (.trans _ _ _ (.rel _ _ (note _ _)) (.rel _ _ order))))

theorem read_write_few {t : Tree} (few : t.leaves ⊆ [.null, .bool true, .int 3, .text "a", .text "b"])
    (shallow : t.depth ≤ Json.depthLimit) (indent : Json.Indent) : Json.read (Json.write indent t) = .ok t := by
  refine Json.read_write (fun x member => ?_) ?_ shallow indent
  · simpa using few member
  · rintro ⟨n, member, long⟩
    obtain rfl : n = 3 := by simpa using few member
    exact absurd long (by decide)

theorem spelling_irrelevant_free :
    Relation.EqvGen shape.SpelledAlike (Json.write none plainData) (Json.write (some 2) freeData) ∧
    ∃ d d' bytes, ofJson (Json.write none plainData) = .ok d ∧ d.version = 3 ∧
      ofJson (Json.write (some 2) freeData) = .ok d' ∧ d.canonical = .ok bytes ∧ d'.canonical = .ok bytes := by
  have plain : ∀ indent, Json.read (Json.write indent plainData) = .ok plainData :=
    read_write_few (by simp [plainData, withServer, plainServer, Tree.leaves, Tree.itemLeaves, Tree.entryLeaves]) (by decide)
  have free : ∀ indent, Json.read (Json.write indent freeData) = .ok freeData :=
    read_write_few (by simp [freeData, withServer, freeServer, plainServer, Tree.leaves, Tree.itemLeaves, Tree.entryLeaves])
      (by decide)
  have space : shape.SpelledAlike (Json.write none plainData) (Json.write (some 2) plainData) :=
    .space (plain none) (plain (some 2)) (by decide +kernel)
  have data : shape.SpelledAlike (Json.write (some 2) plainData) (Json.write (some 2) freeData) :=
    .data (plain (some 2)) (free (some 2)) freeData_alike
  have alike := Relation.EqvGen.trans _ _ _ (.rel _ _ space) (.rel _ _ data)
  have accepted : ∃ d, ofJson (Json.write none plainData) = .ok d ∧ d.version = 3 := by
    rw [ofJson, Shape.ofJson, plain none]
    exact ⟨_, rfl, rfl⟩
  obtain ⟨d, read, version⟩ := accepted
  refine ⟨alike, ?_⟩
  rcases spelling_irrelevant alike with ⟨e, e', refused, -⟩ | ⟨d, d', bytes, first, second, canonical, canonical', -⟩
  · exact absurd (read.symm.trans refused) (by simp)
  · obtain rfl := Except.ok.inj (read.symm.trans first)
    exact ⟨_, d', bytes, first, version, second, canonical, canonical'⟩

end Document
end AgentConfig
