import AgentConfig.Proofs.CommandLine.Redeploy

namespace AgentConfig

variable {env : Environment} {disk : Disk} {c : BuildCommand} {d : Document} {weight : Nat} {notices : List Notice}
  {place : Place} {left : List UInt8} {words : List String}

theorem Outcome.output_fail (f : Failure) : (Outcome.fail f notices disk).output = f.output := by
  unfold fail
  split_ifs <;> rfl

theorem Outcome.disk_fail (f : Failure) : (Outcome.fail f notices disk).disk = disk := by
  unfold fail
  split_ifs <;> rfl

/-- Nothing but the settings library puts something out before a failure. -/
theorem Failure.output_cases (f : Failure) :
    f.output = "" ∨ ∃ halt, f = .settings (.halted halt) ∧ f.output = halt.output := by
  unfold output
  split
  · exact .inr ⟨_, rfl, rfl⟩
  · exact .inl rfl

namespace BuildCommand

/-- What a run has done that ends well. -/
def Delivered (c : BuildCommand) (d : Document) (disk : Disk) (o : Outcome) : Prop :=
  match given? c.output with
  | none => d.render c.format = .ok o.output ∧ o.disk = disk
  | some path =>
    o.output = "" ∧ ∃ place text, disk.target path = .ok place ∧ d.render (.ofPath path) = .ok text ∧
      o.disk = disk.put place (.file (Text.utf8 text.toList)) ∧ o.disk.read path = .ok (Text.utf8 text.toList)

theorem delivered_of_exit (ended : (c.deliver d weight notices disk).ending = .exit 0) :
    c.Delivered d disk (c.deliver d weight notices disk) := by
  unfold Delivered
  rcases c.deliver_cases d weight notices disk with
    ⟨unnamed, ⟨text, rendered, delivered⟩ | ⟨e, -, delivered⟩⟩ |
    ⟨path, disk', named, ⟨stored, delivered⟩ | ⟨e, -, delivered⟩⟩ <;> rw [delivered] at ended ⊢
  · rw [unnamed]
    exact ⟨rendered, rfl⟩
  · exact absurd ended (Outcome.ending_fail_ne _)
  · rw [named]
    obtain ⟨place, text, target, written, -, rfl⟩ := Document.store_eq_ok.mp stored
    exact ⟨rfl, place, text, target, written, rfl, Disk.read_put_self target⟩
  · exact absurd ended (Outcome.ending_fail_ne _)

variable [Runtime] [SettingsLibrary]

theorem settings_of_prepare_halted {halt : Settings.Halt} (failed : c.prepare env disk = .error (.settings (.halted halt))) :
    c.settings env disk = .error (.settings (.halted halt)) := by
  rcases prepare_eq_error.mp failed with settings | ⟨s, -, threshold | ⟨weight, -, baseline⟩⟩
  · exact settings
  · unfold BuildCommand.threshold at threshold
    dsimp only at threshold
    split at threshold <;> simp at threshold
  · unfold BuildCommand.baseline at baseline
    split at baseline
    · contradiction
    · split at baseline <;> simp at baseline

theorem asksLibrary_of_halted {halt : Settings.Halt} (failed : c.settings env disk = .error (.settings (.halted halt))) :
    c.AsksLibrary disk := by
  cases given : c.config with
  | none =>
    rw [settings_of_none given] at failed
    obtain ⟨e, refused, same⟩ := mapError_eq_error failed
    obtain rfl := Failure.settings.inj same
    obtain ⟨entry, member, -⟩ := Settings.ofEntries_halted refused
    exact absurd member List.not_mem_nil
  | some path =>
    cases read : disk.readText path with
    | error e =>
      rw [settings_of_unread given read] at failed
      exact absurd (Except.error.inj failed) nofun
    | ok text =>
      rw [settings_of_config given read] at failed
      obtain ⟨e, refused, same⟩ := mapError_eq_error failed
      obtain rfl := Failure.settings.inj same
      exact ⟨path, text, given, read, Settings.asksLibrary_of_halted refused⟩

/-- A built document that its file does not get whole, the place of the file and what the file is left with: nothing if
an integer has too many digits for YAML, or as much of the text as a file holds. -/
def Spoils (c : BuildCommand) (env : Environment) (disk : Disk) (place : Place) (left : List UInt8) : Prop :=
  ∃ path d, given? c.output = some path ∧ disk.target path = .ok place ∧ c.document? env disk = some d ∧
    ((Format.ofPath path = .yaml ∧ d.TooLong ∧ left = []) ∨
      ∃ text, d.render (.ofPath path) = .ok text ∧ Disk.sizeLimit < (Text.utf8 text.toList).length ∧
        left = (Text.utf8 text.toList).take Disk.sizeLimit)

/-- The document of a command is one that settings describe, so only its integers may keep it from being rendered. -/
theorem render_document?_eq_error {format : Format} {e : WriteError} (built : c.document? env disk = some d) :
    d.render format = .error e ↔ format = .yaml ∧ e = .tooManyDigits ∧ d.TooLong := by
  obtain ⟨s, _, _, -, deployed⟩ := document?_eq_some.mp built
  obtain ⟨-, _, _, -, -, rfl⟩ := Settings.deploy_eq_ok.mp deployed
  exact Settings.render_document_eq_error

/-- A delivery that does not end well puts out nothing, and has left the disk as it was or spoiled the file. -/
theorem spoils_of_failed (built : c.document? env disk = some d)
    (failed : (c.deliver d weight notices disk).ending ≠ .exit 0) :
    let o := c.deliver d weight notices disk
    o.output = "" ∧
      (o.disk = disk ∨ ∃ place left, c.Spoils env disk place left ∧ o.disk = disk.put place (.file left)) := by
  rcases c.deliver_cases d weight notices disk with
    ⟨-, ⟨text, -, delivered⟩ | ⟨e, -, delivered⟩⟩ |
    ⟨path, disk', named, ⟨-, delivered⟩ | ⟨e, stored, delivered⟩⟩ <;> rw [delivered] at failed ⊢
  · exact absurd rfl failed
  · exact ⟨Outcome.output_fail _, .inl (Outcome.disk_fail _)⟩
  · exact absurd rfl failed
  · refine ⟨Outcome.output_fail _, ?_⟩
    rw [Outcome.disk_fail]
    rcases Document.store_eq_error.mp stored with ⟨fault, -, same, -⟩ | ⟨place, target, emptied | cut⟩
    · exact .inl same
    · obtain ⟨w, refused, same, -⟩ := emptied
      obtain ⟨format, -, long⟩ := (render_document?_eq_error built).mp refused
      exact .inr ⟨place, [], ⟨path, d, named, target, built, .inl ⟨format, long, rfl⟩⟩, same⟩
    · obtain ⟨text, written, large, same, -⟩ := cut
      exact .inr ⟨place, _, ⟨path, d, named, target, built, .inr ⟨text, written, large, rfl⟩⟩, same⟩

/-- Where a file is bound to be spoiled it is, and the failure is reported. -/
theorem deliver_of_spoils (built : c.document? env disk = some d) (spoils : c.Spoils env disk place left) :
    (c.deliver d weight notices disk).ending = .exit 1 ∧
      (c.deliver d weight notices disk).disk = disk.put place (.file left) := by
  obtain ⟨path, d', named, target, built', why⟩ := spoils
  obtain rfl : d = d' := Option.some.inj (built.symm.trans built')
  have stored : ∃ e, d.store disk path = (disk.put place (.file left), .error e) := by
    rcases why with ⟨format, long, rfl⟩ | ⟨text, written, large, rfl⟩
    · have refused := (render_document?_eq_error built).mpr ⟨format, rfl, long⟩
      exact ⟨_, Document.store_eq_error.mpr (.inr ⟨place, target, .inl ⟨_, refused, rfl, rfl⟩⟩)⟩
    · exact ⟨_, Document.store_eq_error.mpr (.inr ⟨place, target, .inr ⟨text, written, large, rfl, rfl⟩⟩)⟩
  obtain ⟨e, stored⟩ := stored
  simp only [deliver, named, stored]
  exact ⟨rfl, Outcome.disk_fail _⟩

theorem run_of_spoils (spoils : c.Spoils env disk place left) :
    (c.run env disk).ending = .exit 1 ∧ (c.run env disk).disk = disk.put place (.file left) := by
  rcases c.run_cases env disk with ⟨none, -⟩ | ⟨d, weight, notices, built, ran⟩
  · obtain ⟨_, d, -, -, built, -⟩ := spoils
    exact absurd (none.symm.trans built) (by simp)
  · rw [ran]
    exact deliver_of_spoils built spoils

end BuildCommand

namespace CommandLine

/-- A run that ends well has put the document where it was to go, and changed nothing else. Any other run puts out
nothing, unless the settings library is asked and does so, and leaves the disk as it was, unless the file has been opened
and then does not get the document whole: the file is lost then. -/
theorem run_all_or_nothing [Runtime] [SettingsLibrary] (env : Environment) (disk : Disk)
    (accepted : Request.ofStrings words = .ok (.build c)) :
    let o := run env disk words
    (o.ending = .exit 0 → ∃ d, c.document? env disk = some d ∧ c.Delivered d disk o) ∧
    (o.ending ≠ .exit 0 →
      (o.output = "" ∨ ∃ halt, c.settings env disk = .error (.settings (.halted halt)) ∧ c.AsksLibrary disk ∧
        o.output = halt.output) ∧
      ((∀ place left, ¬ c.Spoils env disk place left) → o.disk = disk)) ∧
    ∀ place left, c.Spoils env disk place left → o.ending = .exit 1 ∧ o.disk = disk.put place (.file left) := by
  intro o
  simp only [o, run_build accepted]
  refine ⟨fun ended => ?_, fun failed => ?_, fun place left => BuildCommand.run_of_spoils⟩
  · rcases c.run_cases env disk with ⟨-, f, notices, ran, -⟩ | ⟨d, weight, notices, built, ran⟩ <;> rw [ran] at ended ⊢
    · exact absurd ended (Outcome.ending_fail_ne f)
    · exact ⟨d, built, BuildCommand.delivered_of_exit ended⟩
  · rcases c.run_cases env disk with ⟨-, f, notices, ran, why⟩ | ⟨d, weight, notices, built, ran⟩ <;> rw [ran] at failed ⊢
    · refine ⟨?_, fun _ => Outcome.disk_fail f⟩
      rw [Outcome.output_fail]
      obtain silent | ⟨halt, rfl, loud⟩ := f.output_cases
      · exact .inl silent
      · obtain prepared | ⟨e, same⟩ := why
        · have settings := BuildCommand.settings_of_prepare_halted prepared
          exact .inr ⟨halt, settings, BuildCommand.asksLibrary_of_halted settings, loud⟩
        · contradiction
    · obtain ⟨silent, same | ⟨place, left, spoils, -⟩⟩ := BuildCommand.spoils_of_failed built failed
      · exact ⟨.inl silent, fun _ => same⟩
      · exact ⟨.inl silent, fun none => absurd spoils (none place left)⟩

/-- A file that is to be replaced. -/
def oldDisk : Disk :=
  (Disk.blank []).put ["b.yaml"] (.file (Text.utf8 "old".toList))

/-- Next to the old file, a document of which only the version is given. -/
def versionDisk (n : Int) : Disk :=
  oldDisk.put ["a.json"] (.file (Text.utf8 (Json.write none (.record [("version", .int n)])).toList))

/-- The command that builds on the document and replaces the old file. -/
def replacing : BuildCommand where
  previous := some "a.json"
  output := some "b.yaml"
  logLevel := some "ERROR"

variable {n : Int}

theorem target_old : oldDisk.target "a.json" = .ok ["a.json"] := by
  decide

theorem target_versionDisk : (versionDisk n).target "b.yaml" = .ok ["b.yaml"] := by
  have still : oldDisk.entryAt ["a.json"] ≠ some .folder := by decide
  have leads : oldDisk.find "b.yaml" = .ok ["b.yaml"] := by decide
  refine Disk.target_eq_ok.mpr ⟨by decide, Disk.find_put still leads, ?_⟩
  rw [versionDisk, Disk.put_entryAt_ne _ (by decide)]
  decide

theorem load_versionDisk [Runtime] (short : IsShort n) : Document.load (versionDisk n) "a.json" = .ok { version := n } := by
  have clean : ∀ c ∈ (Json.write none (.record [("version", .int n)])).toList, c ≠ '\r' := by
    simpa [Json.write] using (Json.carries_writeAt none 0 (.record [("version", .int n)])).clean
  have text := Disk.readText_put_self target_old clean
  have read : Json.read (Json.write none (.record [("version", .int n)])) = .ok (.record [("version", .int n)]) := by
    refine Json.read_write ?_ ?_ ?_ none
    · simp [Json.AllFinite, Tree.leaves, Tree.entryLeaves]
    · simpa [Json.HoldsLong, Tree.leaves, Tree.entryLeaves, IsShort] using short
    · simp [Tree.depth, Tree.entryDepth, Json.depthLimit]
  have parsed : Document.parse .json (some "a.json") (Json.write none (.record [("version", .int n)])) =
      .ok { version := n } := by
    rw [Document.parse, Document.ofText, Document.ofJson, Shape.ofJson, read]
    rfl
  have format : Format.ofPath "a.json" = .json := by decide
  rw [String.ofList_toList] at text
  rw [Document.load, versionDisk, Disk.holds_put_self target_old, if_pos rfl, text, format]
  simp only [parsed]

theorem prepare_replacing (short : IsShort n) :
    replacing.prepare [] (versionDisk n) = .ok ({}, 40, { version := n }) := by
  refine BuildCommand.prepare_eq_ok.mpr ⟨rfl, by decide, ?_⟩
  have given : BuildCommand.given? (some "a.json") = some "a.json" := by decide
  simp only [BuildCommand.baseline, replacing, given, load_versionDisk short]

/-- The document after the last version that can be written as YAML is built, and the old file is lost. -/
theorem spoils_versionDisk (short : IsShort n) (long : digitLimit < (decimalDigits (n + 1).natAbs).length) :
    replacing.Spoils [] (versionDisk n) ["b.yaml"] [] := by
  have deployed : (({} : Settings).deploy { version := n }).outcome = .ok (({} : Settings).document (n + 1)) :=
    Settings.deploy_first (fun scram => by contradiction) (Document.finite_iff.mpr fun server member => by simp at member)
      (by simp) rfl
  have built := BuildCommand.document?_eq_some.mpr ⟨_, _, _, prepare_replacing short, deployed⟩
  have format : Format.ofPath "b.yaml" = .yaml := by decide
  exact ⟨"b.yaml", _, by decide, target_versionDisk, built, .inl ⟨format, .inl long, rfl⟩⟩

/-- The greatest version that can be read. -/
def greatestVersion : Nat :=
  10 ^ digitLimit - 1

theorem spoils_greatest : replacing.Spoils [] (versionDisk greatestVersion) ["b.yaml"] [] := by
  have positive : 0 < 10 ^ digitLimit := Nat.pow_pos (by decide)
  have next : greatestVersion + 1 = 10 ^ digitLimit := Nat.sub_add_cancel positive
  refine spoils_versionDisk (isShort_natCast (by omega)) ?_
  have digits : ((greatestVersion : Int) + 1).natAbs = 10 ^ digitLimit := by omega
  rw [digits, length_decimalDigits_pow]
  exact Nat.lt_succ_self _

def replacingWords : List String :=
  ["--previous", "a.json", "--output", "b.yaml", "--log-level", "ERROR"]

theorem request_replacing : Request.ofStrings replacingWords = .ok (.build replacing) := by
  decide

/-- A run that fails has emptied the file that it was to replace. -/
theorem replaced_by_nothing :
    Request.ofStrings replacingWords = .ok (.build replacing) ∧
    (versionDisk greatestVersion).read "b.yaml" = .ok (Text.utf8 "old".toList) ∧
    (run [] (versionDisk greatestVersion) replacingWords).ending = .exit 1 ∧
    (run [] (versionDisk greatestVersion) replacingWords).disk.read "b.yaml" = .ok [] := by
  have old : (versionDisk greatestVersion).read "b.yaml" = .ok (Text.utf8 "old".toList) := by
    have still : oldDisk.entryAt ["a.json"] ≠ some .folder := by decide
    have leads : oldDisk.find "b.yaml" = .ok ["b.yaml"] := by decide
    have kept : oldDisk.entryAt ["b.yaml"] = some (.file (Text.utf8 "old".toList)) := Disk.put_entryAt_self ..
    rw [Disk.read, versionDisk, Disk.find_put still leads]
    simp only [Disk.put_entryAt_ne _ (show ["b.yaml"] ≠ ["a.json"] by decide), kept]
  obtain ⟨ended, left⟩ := BuildCommand.run_of_spoils spoils_greatest
  rw [run_build request_replacing, left]
  exact ⟨request_replacing, old, ended, Disk.read_put_self target_versionDisk⟩

/-- A deployment that ends well, and one that loses the file. -/
theorem run_all_or_nothing_both :
    (Request.ofStrings deploying = .ok (.build (.redeploying (some "/c.yaml") "/a.yaml")) ∧
      (run [] quotedDisk deploying).ending = .exit 0 ∧
      (BuildCommand.redeploying (some "/c.yaml") "/a.yaml").Delivered (quotedSettings.document 1) quotedDisk
        (run [] quotedDisk deploying)) ∧
    Request.ofStrings replacingWords = .ok (.build replacing) ∧
    replacing.Spoils [] (versionDisk greatestVersion) ["b.yaml"] [] ∧
    (run [] (versionDisk greatestVersion) replacingWords).ending = .exit 1 ∧
    (run [] (versionDisk greatestVersion) replacingWords).output = "" ∧
    (run [] (versionDisk greatestVersion) replacingWords).disk = (versionDisk greatestVersion).put ["b.yaml"] (.file []) := by
  obtain ⟨well, -, -⟩ := run_all_or_nothing [] quotedDisk request_deploying
  obtain ⟨ended', built'⟩ := run_quoted
  obtain ⟨d, built, delivered⟩ := well ended'
  obtain rfl := Option.some.inj (built'.symm.trans built)
  obtain ⟨-, failed, spoiled⟩ := run_all_or_nothing [] (versionDisk greatestVersion) request_replacing
  obtain ⟨ended, left⟩ := spoiled _ _ spoils_greatest
  have silent : (run [] (versionDisk greatestVersion) replacingWords).output = "" := by
    obtain silent | ⟨_, -, ⟨_, _, given, -⟩, -⟩ := (failed (by rw [ended]; decide)).1
    · exact silent
    · exact absurd given nofun
  exact ⟨⟨request_deploying, ended', delivered⟩, request_replacing, spoils_greatest, ended, silent, left⟩

end CommandLine
end AgentConfig
