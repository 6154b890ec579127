import AgentConfig.Schema.Shape

namespace AgentConfig

/-- One download of a release. Modules that are not given differ from no modules until the build
enters the catalog of a document. -/
structure Build where
  platform : String := ""
  url : String := ""
  gitVersion : String := ""
  architecture : String := ""
  flavor : String := ""
  minOsVersion : String := ""
  maxOsVersion : String := ""
  modules : Option (List String) := none
  deriving DecidableEq

def Build.shape : Shape Build :=
  .record "BuildConfig"
    (.cons (.plain "platform") (.text false) (some "") <|
     .cons (.plain "url") (.text false) (some "") <|
     .cons (.aliased "git_version" "gitVersion") (.text false) (some "") <|
     .cons (.plain "architecture") (.text false) (some "") <|
     .cons (.plain "flavor") (.text false) (some "") <|
     .cons (.aliased "min_os_version" "minOsVersion") (.text false) (some "") <|
     .cons (.aliased "max_os_version" "maxOsVersion") (.text false) (some "") <|
     .cons (.plain "modules") (.nullable (.list (.text false))) (some none) <|
     .nil)
    { split := fun x =>
        (x.platform, x.url, x.gitVersion, x.architecture, x.flavor, x.minOsVersion, x.maxOsVersion, x.modules, ())
      join := fun (platform, url, gitVersion, architecture, flavor, minOsVersion, maxOsVersion, modules, _) =>
        { platform, url, gitVersion, architecture, flavor, minOsVersion, maxOsVersion, modules }
      join_split := fun _ => rfl
      split_join := fun _ => rfl }

/-- A release in the catalog, with the builds that the agent may download. -/
structure Release where
  name : String
  builds : List Build := []
  deriving DecidableEq

namespace Release

def shape : Shape Release :=
  .record "MongoDbVersionConfig"
    (.cons (.plain "name") (.text false) none <|
     .cons (.plain "builds") (.list Build.shape) (some []) <|
     .nil)
    { split := fun x => (x.name, x.builds, ())
      join := fun (name, builds, _) => { name, builds }
      join_split := fun _ => rfl
      split_join := fun _ => rfl }

/-- The release with no modules wherever modules are not given. -/
def listed (r : Release) : Release :=
  { r with builds := r.builds.map fun b => { b with modules := some (b.modules.getD []) } }

end Release
end AgentConfig
