import AgentConfig.Proofs.Builder.Encryption

namespace AgentConfig

theorem reverse_serverName (name : String) (index : Nat) :
    (serverName name index).toList.reverse = (decimalDigits index).reverse ++ '-' :: name.toList.reverse := by
  have texts : (serverName name index).toList = name.toList ++ '-' :: decimalDigits index := by
    change (s!"{name}-{index}").toList = _
    simp only [toString, String.toList_append]
    simp [Nat.repr, decimalDigits]
  simp [texts]

/-- Read from its end, the name of a server is its index up to the last dash, and then the name of the replica set. -/
theorem serverName_inj {name name' : String} {i j : Nat} :
    serverName name i = serverName name' j ↔ name = name' ∧ i = j := by
  refine ⟨fun same => ?_, fun ⟨names, indices⟩ => by rw [names, indices]⟩
  -- The name may hold dashes and digits of its own, but the index holds no dash.
  have cut : ∀ (name : String) (index : Nat),
      (serverName name index).toList.reverse.takeWhile isDigit = (decimalDigits index).reverse ∧
      (serverName name index).toList.reverse.dropWhile isDigit = '-' :: name.toList.reverse := fun name index => by
    rw [reverse_serverName]
    refine takeWhile_append_of_all ?_ (by simp [isDigit])
    rw [List.all_reverse]
    exact all_isDigit_decimalDigits index
  obtain ⟨digits, front⟩ := cut name i
  rw [same, (cut name' j).1, List.reverse_inj] at digits
  rw [same, (cut name' j).2, List.cons.injEq, List.reverse_inj, String.toList_inj] at front
  refine ⟨front.2.symm, ?_⟩
  rw [← natOfDigits_decimalDigits i, ← digits, natOfDigits_decimalDigits]

theorem serverHost_inj {name domain : String} {i j : Nat} :
    serverHost name i domain = serverHost name j domain ↔ i = j := by
  refine ⟨fun same => ?_, fun same => by rw [same]⟩
  have texts := congrArg String.toList same
  simp only [serverHost, toString, String.toList_append, List.append_cancel_right_eq, String.toList_inj] at texts
  exact (serverName_inj.mp texts).2

namespace Builder

variable {b : Builder} {d e : Document} {servers : List Server} {auth : Auth} {tls : Option ServerTls}

/-- The servers differ in nothing but what their places make of their names. -/
theorem exists_servers_eq (made : b.servers = .ok servers) :
    ∃ tls, servers = (List.range b.members.toNat).map (b.serverWith tls) := by
  rw [servers_eq] at made
  split_ifs at made with few
  · obtain rfl := Except.ok.inj made
    exact ⟨none, by rw [Int.toNat_of_nonpos few]; rfl⟩
  · obtain ⟨tls, -, same⟩ := map_eq_ok made
    exact ⟨tls, same.symm⟩

theorem replicaSets_assemble (tls : Option ServerTls) (count : Nat) (auth : Auth) :
    (b.assemble ((List.range count).map (b.serverWith tls)) auth).replicaSets =
      [{ name := b.name
         members := (List.range count).map fun (i : Nat) => { id := i, host := serverName b.name i } }] := by
  have members : (((List.range count).map (b.serverWith tls)).zipIdx.map fun p => p.1.member (p.2 : Nat)) =
      (List.range count).map fun (i : Nat) => { id := (i : Int), host := serverName b.name i } := by
    apply List.ext_getElem <;> simp [Server.member, serverWith]
  simp only [assemble, members]

/-- What a build makes of the parameters, whatever was deployed before. -/
theorem content_of_built (built : b.build.outcome = .ok d) :
    ∃ enabler servers auth, b.enabler = some enabler ∧ b.servers = .ok servers ∧
      (enabler.enable .baseline).1 = .ok auth ∧ d.content = b.draft servers auth := by
  obtain ⟨-, enabler, servers, auth, before, after, given, made, enabled, -, -, rfl⟩ := build_eq_ok.mp built
  exact ⟨enabler, servers, auth, given, made, enabled, Document.content_settled _ _⟩

/-- The servers and the replica set of a document that was built. -/
theorem lists_of_built (built : b.build.outcome = .ok d) :
    ∃ tls, d.servers = (List.range b.members.toNat).map (b.serverWith tls) ∧
      d.replicaSets = [{
        name := b.name
        members := (List.range b.members.toNat).map fun (i : Nat) => { id := i, host := serverName b.name i } }] := by
  obtain ⟨-, servers, auth, -, made, -, content⟩ := content_of_built built
  obtain ⟨tls, rfl⟩ := exists_servers_eq made
  exact ⟨tls, congrArg Document.servers content,
    (congrArg Document.replicaSets content).trans (replicaSets_assemble tls _ auth)⟩

end Builder

/-- A document describes one replica set, with a server of its own for each member. -/
structure Document.Arranged (d : Document) (set : ReplicaSet) (domain : String) : Prop where
  only : d.replicaSets = [set]
  paired : set.members.length = d.servers.length
  server {i : Nat} {p : Server} (place : d.servers[i]? = some p) : p.name = s!"{set.name}-{i}" ∧
    p.hostname = s!"{p.name}.{domain}" ∧ p.arguments.replication.replicaSet = set.name
  member {i : Nat} {p : Server} {m : Member} (place : d.servers[i]? = some p) (place' : set.members[i]? = some m) :
    m.id = i ∧ m.host = p.name
  names : (d.servers.map (·.name)).Nodup
  hosts : (d.servers.map (·.hostname)).Nodup
  ids : (set.members.map (·.id)).Nodup

namespace Builder

variable {b : Builder} {d e : Document} {servers : List Server} {auth : Auth} {tls : Option ServerTls}

theorem getElem?_map_range {α : Type} {f : Nat → α} {count i : Nat} {a : α} :
    ((List.range count).map f)[i]? = some a ↔ i < count ∧ f i = a := by
  simp [List.getElem?_eq_some_iff]

theorem arranged_of_lists {set : ReplicaSet} {count : Nat}
    (servers : d.servers = (List.range count).map (b.serverWith tls)) (only : d.replicaSets = [set])
    (name : set.name = b.name)
    (members : set.members = (List.range count).map fun (i : Nat) => { id := i, host := serverName b.name i }) :
    d.Arranged set b.domain where
  only := only
  paired := by rw [servers, members, List.length_map, List.length_map]
  server place := by
    rw [servers] at place
    obtain ⟨-, rfl⟩ := getElem?_map_range.mp place
    rw [name]
    exact ⟨rfl, rfl, rfl⟩
  member place place' := by
    rw [servers] at place
    rw [members] at place'
    obtain ⟨-, rfl⟩ := getElem?_map_range.mp place
    obtain ⟨-, rfl⟩ := getElem?_map_range.mp place'
    exact ⟨rfl, rfl⟩
  names := by
    rw [servers, List.map_map]
    exact List.nodup_range.map fun i j same => (serverName_inj.mp same).2
  hosts := by
    rw [servers, List.map_map]
    exact List.nodup_range.map fun i j same => serverHost_inj.mp same
  ids := by
    rw [members, List.map_map]
    exact List.nodup_range.map fun i j same => Int.ofNat_inj.mp same

/-- Every document that is built describes one replica set under the given name, with as many servers as there are to be
members. Names of servers tell the replica set and the place, so that two replica sets never share one. -/
theorem topology_of_build (built : b.build.outcome = .ok d) :
    (∃ set, set.name = b.name ∧ (d.servers.length : Int) = max b.members 0 ∧ d.Arranged set b.domain) ∧
    (∀ (name name' : String) (i j : Int), 0 ≤ i → 0 ≤ j →
      (serverName name i = serverName name' j ↔ name = name' ∧ i = j)) ∧
    ∀ (other : Builder) (e : Document), other.build.outcome = .ok e → other.name ≠ b.name →
      (d.servers.map (·.name)).Disjoint (e.servers.map (·.name)) := by
  obtain ⟨tls, servers, sets⟩ := lists_of_built built
  refine ⟨⟨_, rfl, ?_, arranged_of_lists servers sets rfl rfl⟩, fun name name' i j first second => ?_,
    fun other e built' apart => ?_⟩
  · rw [servers, List.length_map, List.length_range, Int.toNat_eq_max]
  · obtain ⟨i, rfl⟩ := Int.eq_ofNat_of_zero_le first
    obtain ⟨j, rfl⟩ := Int.eq_ofNat_of_zero_le second
    rw [serverName_inj, Int.ofNat_inj]
  · obtain ⟨tls', servers', -⟩ := lists_of_built built'
    rw [servers, servers', List.map_map, List.map_map]
    intro name here there
    obtain ⟨i, -, rfl⟩ := List.mem_map.mp here
    obtain ⟨j, -, same⟩ := List.mem_map.mp there
    exact apart (serverName_inj.mp same).1

-- With indices below zero the sign of one name is the dash of the other.
example : serverName "rs" (-1) = serverName "rs-" 1 := by
  decide

/-- A replica set whose name ends like the name of a server. -/
def dashed : Builder :=
  { encrypted with members := 3, domain := "1.d", name := "rs-0" }

theorem exists_build_dashed (members : Int) (name : String) :
    ∃ d, ({ dashed with members, name } : Builder).build.outcome = .ok d := by
  obtain ⟨before, written⟩ : ∃ text, dashed.previous.canonical = .ok text := Document.exists_canonical (by decide)
  obtain ⟨servers, made⟩ : ∃ servers, ({ dashed with members, name } : Builder).servers = .ok servers := by
    rw [servers_eq]
    split_ifs <;> exact ⟨_, rfl⟩
  exact exists_build rfl rfl made rfl written (by simp [Scram.enabled])

theorem topology_of_dashed : ∃ d e set, dashed.build.outcome = .ok d ∧
    ({ dashed with name := "rs" } : Builder).build.outcome = .ok e ∧ set.name = "rs-0" ∧ d.servers.length = 3 ∧
    d.Arranged set "1.d" ∧ (d.servers.map (·.name)).Disjoint (e.servers.map (·.name)) := by
  obtain ⟨d, built⟩ := exists_build_dashed 3 "rs-0"
  obtain ⟨e, built'⟩ := exists_build_dashed 3 "rs"
  obtain ⟨⟨set, name, count, arranged⟩, -, disjoint⟩ := topology_of_build (b := dashed) built
  exact ⟨d, e, set, built, built', name, Int.ofNat_inj.mp count, arranged, disjoint _ e built' (by decide)⟩

theorem servers_of_fewer {n m : Int} (fewer : n ≤ m) (made : { b with members := m }.servers = .ok servers) :
    { b with members := n }.servers = .ok (servers.take n.toNat) := by
  rw [servers_eq] at made ⊢
  dsimp only at made ⊢
  by_cases none : n ≤ 0
  · rw [if_pos none, Int.toNat_of_nonpos none, List.take_zero]
  · rw [if_neg (by omega)] at made
    rw [if_neg none]
    obtain ⟨tls, encrypted, rfl⟩ := map_eq_ok made
    change b.encryption = _ at encrypted
    change b.encryption.map _ = _
    rw [encrypted, ← List.map_take, List.take_range, min_eq_left (by omega)]
    rfl

theorem assemble_take (b : Builder) (servers : List Server) (auth : Auth) (count : Nat) :
    ∃ set, (b.assemble servers auth).replicaSets = [set] ∧ b.assemble (servers.take count) auth =
      { b.assemble servers auth with
        servers := servers.take count
        replicaSets := [{ set with members := set.members.take count }] } := by
  refine ⟨_, rfl, ?_⟩
  have members : (servers.take count).zipIdx.map (fun p => p.1.member (p.2 : Nat)) =
      (servers.zipIdx.map fun p => p.1.member (p.2 : Nat)).take count := by
    apply List.ext_getElem <;> simp
  simp only [assemble, members]

/-- Where a replica set can be built, so can one of fewer members, and it consists of the first of them. -/
theorem scaling_keeps_members {n m : Int} (fewer : n ≤ m)
    (large : ({ b with members := m } : Builder).build.outcome = .ok e) :
    ∃ d set, ({ b with members := n } : Builder).build.outcome = .ok d ∧ e.replicaSets = [set] ∧
      d = { e with
        version := d.version
        servers := e.servers.take n.toNat
        replicaSets := [{ set with members := set.members.take n.toNat }] } := by
  obtain ⟨fresh, enabler, servers, auth, before, after, given, made, enabled, first, second, settled⟩ :=
    build_eq_ok.mp large
  have known : auth.key ≠ .foreign := Document.key_ne_foreign_of_canonical second
  have made' := servers_of_fewer fewer made
  obtain ⟨d, small⟩ := exists_build (b := { b with members := n }) fresh given made' enabled first known
  obtain ⟨enabler', servers', auth', given', made'', enabled', content⟩ := content_of_built small
  obtain rfl := Option.some.inj (given.symm.trans given')
  obtain rfl := Except.ok.inj (made'.symm.trans made'')
  obtain rfl := Except.ok.inj (enabled.symm.trans enabled')
  obtain ⟨set, only, taken⟩ := assemble_take { b with members := m } servers auth n.toNat
  have larger : e.content = ({ b with members := m } : Builder).draft servers auth := by
    rw [settled, Document.content_settled]
    rfl
  have parts : d.content = { e.content with
      servers := e.content.servers.take n.toNat
      replicaSets := [{ set with members := set.members.take n.toNat }] } := by
    rw [content, larger]
    exact congrArg Document.content taken
  refine ⟨d, set, small, (congrArg Document.replicaSets larger).trans only, ?_⟩
  exact congrArg (fun c : Document => { c with version := d.version }) parts

theorem scaling_keeps_members_dashed : ∃ d e set, ({ dashed with members := 2 } : Builder).build.outcome = .ok d ∧
    dashed.build.outcome = .ok e ∧ e.replicaSets = [set] ∧
    d = { e with
      version := d.version
      servers := e.servers.take 2
      replicaSets := [{ set with members := set.members.take 2 }] } := by
  obtain ⟨e, large⟩ := exists_build_dashed 3 "rs-0"
  obtain ⟨d, set, small, only, same⟩ := scaling_keeps_members (b := dashed) (n := 2) (m := 3) (by decide) large
  exact ⟨d, e, set, small, large, only, same⟩

end Builder
end AgentConfig
