import FabricCommon.CaServices
import FabricCommon.DirectoryBelow
import FabricCommon.GateText

namespace FabricCommon

/-- One token of `path.resolve`. -/
def resolvePart (dir : Path) (part : Text) : Path :=
  if part = [] ∨ part = ['.'] then dir
  else if part = ['.', '.'] then dir.dropLast
  else dir ++ [String.ofList part]

def resolve (base : Path) (token : String) : Path :=
  (token.toList.splitOn '/').foldl resolvePart
    (if token.toList.head? = some '/' then [] else base)

/-- A name that is one part of a path. -/
structure IsPathPart (name : String) : Prop where
  noSlash : '/' ∉ name.toList
  some_name : name.toList ≠ []
  notDot : name.toList ≠ ['.']
  notDots : name.toList ≠ ['.', '.']

/-- A node or user of an organisation, as a `CryptoPath` is constructed for it. -/
structure CryptoNode where
  type : MSPType
  name : String
  org : String
  noSlash : '/' ∉ name.toList
  some_name : name.toList ≠ []
  org_part : IsPathPart org

/-- The organisation that the files of an organisation are of. -/
structure CryptoOrg where
  type : NodeType
  org : String
  org_part : IsPathPart org

def NodeType.organizations : NodeType → String
  | .orderer => "ordererOrganizations"
  | .peer => "peerOrganizations"

def MSPType.nodeType : MSPType → NodeType
  | .node type => type
  | .user type => type

/-- The directory of `orderers()`, `peers()`, `ordererUsers()` and `peerUsers()`. -/
def MSPType.directory : MSPType → String
  | .node .orderer => "orderers"
  | .node .peer => "peers"
  | .user _ => "users"

namespace CryptoNode

variable (n : CryptoNode)

def hostName : String :=
  match n.type with
  | .node _ => n.name ++ "." ++ n.org
  | .user _ => n.name ++ "@" ++ n.org

/-- The directory that `MSP` and `tlsDir` are in. -/
def dir (root : Path) : Path :=
  resolve (resolve (resolve (resolve root n.type.nodeType.organizations) n.org) n.type.directory)
    n.hostName

/-- `cryptoExistLocal` in the whole tree. -/
def cryptoExistLocal (root : Path) (p : CryptoPath) (s : NodeDir) :
    Except CryptoPath.CryptoError (Option (Path × Path)) :=
  if (s.read (n.dir root ++ p.signcerts)).isNone then .ok none
  else if s.dirs.contains (n.dir root ++ CryptoPath.keystore) then
    match (findKeyFiles s (n.dir root ++ CryptoPath.keystore)).head? with
    | none => .ok none
    | some file =>
      .ok (if (s.read file).isSome then some (file, n.dir root ++ p.signcerts) else none)
  else .error (.ENOENT (n.dir root ++ CryptoPath.keystore))

/-- What is found below the directory of the node, by its place in the tree. -/
def located (root : Path) : Except CryptoPath.CryptoError (Option (Path × Path)) →
    Except CryptoPath.CryptoError (Option (Path × Path))
  | .error (.ENOENT dir) => .error (.ENOENT (n.dir root ++ dir))
  | .ok found => .ok (found.map fun pair => (n.dir root ++ pair.1, n.dir root ++ pair.2))

end CryptoNode

namespace CryptoOrg

variable (o : CryptoOrg)

def dir (root : Path) : Path := resolve (resolve root o.type.organizations) o.org

def caCert : Path := ["ca", "ca." ++ o.org ++ "-cert.pem"]
def tlscaCert : Path := ["tlsca", "tlsca." ++ o.org ++ "-cert.pem"]
def cacerts : Path := ["msp", "cacerts", "ca." ++ o.org ++ "-cert.pem"]
def tlscacerts : Path := ["msp", "tlscacerts", "tlsca." ++ o.org ++ "-cert.pem"]
def admincerts (userHostName : String) : Path := ["msp", "admincerts", userHostName ++ "-cert.pem"]

/-- `OrgFile` as a side effect. -/
def OrgFile (userHostName : String) : List CryptoAction :=
  [.ensureDir [], .ensureDir o.caCert.dropLast, .ensureDir (admincerts userHostName).dropLast,
    .ensureDir o.cacerts.dropLast, .ensureDir o.tlscacerts.dropLast, .ensureDir ["msp"],
    .ensureDir o.tlscaCert.dropLast]

def toOrgAdmin (userHostName : String) (NodeOU : Bool) : List CryptoAction :=
  o.OrgFile userHostName ++ outputFileSync o.cacerts ++ outputFileSync o.caCert ++
    outputFileSync (admincerts userHostName) ++
    if NodeOU then [.writeFile ["config.yaml"]] else []

def toOrgTLS (userHostName : String) : List CryptoAction :=
  o.OrgFile userHostName ++ outputFileSync o.tlscaCert ++ outputFileSync o.tlscacerts

end CryptoOrg

/-- An action in the tree, done or failed. -/
inductive TreeEvent
  | node (n : CryptoNode) (action : CryptoAction) (failed : Option Bool)
  | org (o : CryptoOrg) (userHostName : String) (action : CryptoAction)
    (does : action ∈ o.toOrgAdmin userHostName true ++ o.toOrgTLS userHostName)
    (failed : Option Bool)

/-- An action with what becomes of it. -/
def attempted (s : NodeDir) (action : CryptoAction) : Option Bool → NodeDir
  | none => action.perform s
  | some truncates => action.fail s truncates

namespace TreeEvent

def step (root : Path) (s : NodeDir) : TreeEvent → NodeDir
  | node n action failed => attempted s (action.within (n.dir root)) failed
  | org o _ action _ failed => attempted s (action.within (o.dir root)) failed

def own (n : CryptoNode) : TreeEvent → Option (CryptoAction × Option Bool)
  | node n' action failed =>
    if n'.type = n.type ∧ n'.name = n.name ∧ n'.org = n.org then some (action, failed) else none
  | org _ _ _ _ _ => none

end TreeEvent

section

variable {root base : Path} {n n' : CryptoNode}

theorem resolve_part {name : String} (h : IsPathPart name) :
    resolve base name = base ++ [name] := by
  have relative : name.toList.head? ≠ some '/' := fun first =>
    h.noSlash (List.mem_of_head? first)
  rw [resolve, List.splitOn_eq_singleton h.noSlash, if_neg relative, List.foldl_cons,
    List.foldl_nil, resolvePart, if_neg (not_or.mpr ⟨h.some_name, h.notDot⟩), if_neg h.notDots,
    String.ofList_toList]

theorem NodeType.organizations_part (type : NodeType) : IsPathPart type.organizations := by
  cases type with
  | orderer => exact ⟨by decide, by decide, by decide, by decide⟩
  | peer => exact ⟨by decide, by decide, by decide, by decide⟩

theorem MSPType.directory_part (type : MSPType) : IsPathPart type.directory := by
  cases type with
  | node type =>
    cases type with
    | orderer => exact ⟨by decide, by decide, by decide, by decide⟩
    | peer => exact ⟨by decide, by decide, by decide, by decide⟩
  | user type =>
    have users : IsPathPart "users" := ⟨by decide, by decide, by decide, by decide⟩
    exact users

/-- Two names with something in between are three characters at least. -/
theorem isPathPart_joined {name org between : String} (noSlash : '/' ∉ name.toList)
    (some_name : name.toList ≠ []) (clear : '/' ∉ between.toList)
    (some_between : between.toList ≠ []) (org_part : IsPathPart org) :
    IsPathPart (name ++ between ++ org) := by
  have long : 3 ≤ (name ++ between ++ org).toList.length := by
    have first := List.length_pos_iff.mpr some_name
    have second := List.length_pos_iff.mpr some_between
    have third := List.length_pos_iff.mpr org_part.some_name
    simp only [String.toList_append, List.length_append]
    omega
  refine ⟨?_, ?_, ?_, ?_⟩
  · simp [noSlash, clear, org_part.noSlash]
  · intro short
    simp [short] at long
  · intro short
    simp [short] at long
  · intro short
    simp [short] at long

theorem CryptoNode.hostName_part (n : CryptoNode) : IsPathPart n.hostName := by
  unfold hostName
  split
  next => exact isPathPart_joined n.noSlash n.some_name (by decide) (by decide) n.org_part
  next => exact isPathPart_joined n.noSlash n.some_name (by decide) (by decide) n.org_part

theorem CryptoNode.dir_eq (n : CryptoNode) (root : Path) :
    n.dir root = root ++ [n.type.nodeType.organizations, n.org, n.type.directory, n.hostName] := by
  rw [dir, resolve_part (NodeType.organizations_part _), resolve_part n.org_part,
    resolve_part (MSPType.directory_part _), resolve_part n.hostName_part]
  simp

theorem CryptoOrg.dir_eq (o : CryptoOrg) (root : Path) :
    o.dir root = root ++ [o.type.organizations, o.org] := by
  rw [dir, resolve_part (NodeType.organizations_part _), resolve_part o.org_part]
  simp

/-- Different nodes have different directories. -/
theorem CryptoNode.dir_inj (same : n.dir root = n'.dir root) :
    n.type = n'.type ∧ n.name = n'.name ∧ n.org = n'.org := by
  rw [n.dir_eq, n'.dir_eq] at same
  have parts := List.append_cancel_left same
  simp only [List.cons.injEq, and_true] at parts
  obtain ⟨organizations, org, directory, hostName⟩ := parts
  obtain ⟨type, name, org', _, _, _⟩ := n
  obtain ⟨type', name', org'', _, _, _⟩ := n'
  simp only at organizations org directory hostName ⊢
  subst org
  have types : type = type' := by
    cases type <;> cases type' <;> rename_i t t' <;> cases t <;> cases t' <;>
      simp_all [MSPType.directory, MSPType.nodeType, NodeType.organizations]
  subst types
  refine ⟨rfl, ?_, rfl⟩
  cases type with
  | node t => simpa [CryptoNode.hostName, ← String.toList_inj] using hostName
  | user t => simpa [CryptoNode.hostName, ← String.toList_inj] using hostName

/-- No path in the directory of one node is in that of another. -/
theorem node_outside (other : ¬ (n'.type = n.type ∧ n'.name = n.name ∧ n'.org = n.org))
    (rel : Path) : ¬ n.dir root <+: n'.dir root ++ rel := by
  rintro ⟨rest, same⟩
  have lengths : (n.dir root).length = (n'.dir root).length := by
    rw [n.dir_eq, n'.dir_eq]
    simp
  exact other (CryptoNode.dir_inj (List.append_inj_left same lengths).symm)

/-- The files of an organisation are in none of the directories of its nodes. -/
theorem org_outside {o : CryptoOrg} {rel : Path}
    (apart : ∀ type : MSPType, rel.head? ≠ some type.directory) :
    ¬ n.dir root <+: o.dir root ++ rel := by
  rintro ⟨rest, same⟩
  rw [n.dir_eq, o.dir_eq, List.append_assoc, List.append_assoc] at same
  have parts := List.append_cancel_left same
  simp only [List.cons_append, List.nil_append, List.cons.injEq] at parts
  exact apart n.type (by rw [← parts.2.2, List.head?_cons])

/-- An action on a path that is in none of the directories of the nodes. -/
def CryptoAction.Apart (action : CryptoAction) : Prop :=
  ∃ rel, (action = .ensureDir rel ∨ action = .writeFile rel) ∧
    ∀ type : MSPType, rel.head? ≠ some type.directory

theorem org_action_apart {o : CryptoOrg} {userHostName : String} {action : CryptoAction}
    (does : action ∈ o.toOrgAdmin userHostName true ++ o.toOrgTLS userHostName) :
    action.Apart := by
  have named : ∀ (name : String) (rest : Path), name ∈ ["ca", "tlsca", "msp", "config.yaml"] →
      ∀ type : MSPType, (name :: rest).head? ≠ some type.directory := by
    intro name rest mem type
    rw [List.head?_cons, ne_eq, Option.some.injEq]
    rintro rfl
    revert mem
    rcases type with (_ | _) | _
    · exact (by decide : "orderers" ∉ ["ca", "tlsca", "msp", "config.yaml"])
    · exact (by decide : "peers" ∉ ["ca", "tlsca", "msp", "config.yaml"])
    · exact (by decide : "users" ∉ ["ca", "tlsca", "msp", "config.yaml"])
  have above : (CryptoAction.ensureDir []).Apart := ⟨[], .inl rfl, fun type => by simp⟩
  have ensured : ∀ (name : String) (rest : Path), name ∈ ["ca", "tlsca", "msp", "config.yaml"] →
      (CryptoAction.ensureDir (name :: rest)).Apart :=
    fun name rest mem => ⟨name :: rest, .inl rfl, named name rest mem⟩
  have written : ∀ (name : String) (rest : Path), name ∈ ["ca", "tlsca", "msp", "config.yaml"] →
      (CryptoAction.writeFile (name :: rest)).Apart :=
    fun name rest mem => ⟨name :: rest, .inr rfl, named name rest mem⟩
  have file : ∀ (name dir : String) (rest : Path), name ∈ ["ca", "tlsca", "msp", "config.yaml"] →
      ∀ action ∈ outputFileSync (name :: dir :: rest), action.Apart := by
    intro name dir rest mem
    simp only [outputFileSync, List.forall_mem_cons, List.dropLast_cons_cons]
    exact ⟨ensured _ _ mem, written _ _ mem, by simp⟩
  have resolved : ∀ action ∈ o.OrgFile userHostName, action.Apart := by
    simp only [CryptoOrg.OrgFile, List.forall_mem_cons]
    exact ⟨above, ensured _ _ (by decide), ensured _ _ (by decide), ensured _ _ (by decide),
      ensured _ _ (by decide), ensured _ _ (by decide), ensured _ _ (by decide), by simp⟩
  revert action
  simp only [CryptoOrg.toOrgAdmin, CryptoOrg.toOrgTLS, List.forall_mem_append, if_true,
    List.forall_mem_singleton]
  exact ⟨⟨⟨⟨⟨resolved, file _ _ _ (by decide)⟩, file _ _ _ (by decide)⟩, file _ _ _ (by decide)⟩,
    written _ _ (by decide)⟩, ⟨resolved, file _ _ _ (by decide)⟩, file _ _ _ (by decide)⟩

theorem attempted_below (dir : Path) (s : NodeDir) (action : CryptoAction) (failed : Option Bool) :
    (attempted s (action.within dir) failed).below dir = attempted (s.below dir) action failed := by
  cases failed with
  | none => exact below_perform dir s action
  | some truncates => exact below_fail dir s action truncates

theorem attempted_outside {dir path : Path} {s : NodeDir} {action : CryptoAction}
    (does : action = .ensureDir path ∨ action = .writeFile path) (outside : ¬ dir <+: path)
    (failed : Option Bool) : (attempted s action failed).below dir = s.below dir := by
  rcases does with rfl | rfl
  · cases failed with
    | none => exact below_ensureDir_outside outside
    | some truncates => rfl
  · cases failed with
    | none => exact below_write_outside outside
    | some truncates =>
      cases truncates with
      | true => exact below_write_outside outside
      | false => rfl

theorem step_below (root : Path) (n : CryptoNode) (s : NodeDir) (event : TreeEvent) :
    (event.step root s).below (n.dir root) =
      (event.own n).elim (s.below (n.dir root))
        fun x => attempted (s.below (n.dir root)) x.1 x.2 := by
  cases event with
  | node n' action failed =>
    by_cases same : n'.type = n.type ∧ n'.name = n.name ∧ n'.org = n.org
    · have dirs : n'.dir root = n.dir root := by
        rw [n.dir_eq, n'.dir_eq]
        simp only [CryptoNode.hostName, same]
      simp only [TreeEvent.step, TreeEvent.own, if_pos same, dirs]
      exact attempted_below (n.dir root) s action failed
    · simp only [TreeEvent.step, TreeEvent.own, if_neg same]
      cases action with
      | ensureDir path => exact attempted_outside (.inl rfl) (node_outside same path) failed
      | request request => cases failed <;> rfl
      | writeFile path => exact attempted_outside (.inr rfl) (node_outside same path) failed
  | org o userHostName action does failed =>
    obtain ⟨rel, acts, apart⟩ := org_action_apart does
    simp only [TreeEvent.step, TreeEvent.own]
    have outside : ¬ n.dir root <+: o.dir root ++ rel := org_outside apart
    rcases acts with rfl | rfl
    · exact attempted_outside (.inl rfl) outside failed
    · exact attempted_outside (.inr rfl) outside failed

/-- Of a run of the whole tree, a node sees its own actions. -/
theorem run_below (root : Path) (n : CryptoNode) (events : List TreeEvent) (s : NodeDir) :
    (events.foldl (TreeEvent.step root) s).below (n.dir root) =
      (events.filterMap (TreeEvent.own n)).foldl (fun s x => attempted s x.1 x.2)
        (s.below (n.dir root)) := by
  induction events generalizing s with
  | nil => rfl
  | cons event events ih =>
    rw [List.foldl_cons, ih, step_below]
    cases own : event.own n with
    | none => rw [List.filterMap_cons_none own, Option.elim_none]
    | some x => rw [List.filterMap_cons_some own, List.foldl_cons, Option.elim_some]

/-- In the whole tree `cryptoExistLocal` reads what is in the directory of the node. -/
theorem cryptoExistLocal_below (root : Path) (n : CryptoNode) (p : CryptoPath) (s : NodeDir) :
    n.cryptoExistLocal root p s =
      n.located root (p.cryptoExistLocal (s.below (n.dir root))) := by
  simp only [CryptoNode.cryptoExistLocal, CryptoPath.cryptoExistLocal, CryptoPath.MSPKeystore,
    ← read_below, findKeyFiles_below, List.contains_iff_mem, ← mem_dirs_below, List.head?_map]
  by_cases signed : ((s.below (n.dir root)).read p.signcerts).isNone = true
  · simp [CryptoNode.located, signed]
  · by_cases keyed : CryptoPath.keystore ∈ (s.below (n.dir root)).dirs
    · cases first : (findKeyFiles (s.below (n.dir root)) CryptoPath.keystore).head? with
      | none => simp [CryptoNode.located, signed, keyed]
      | some file =>
        by_cases there : ((s.below (n.dir root)).read file).isSome = true
        · simp [CryptoNode.located, signed, keyed, there, ← read_below]
        · simp [CryptoNode.located, signed, keyed, there, ← read_below]
    · simp [CryptoNode.located, signed, keyed]

/-- Whatever the nodes, users and organisations do in one crypto directory, in any order and with
any of it failing, `cryptoExistLocal` finds of a node what its own actions alone have left. -/
theorem cryptoExistLocal_isolated (root : Path) (n : CryptoNode) (p : CryptoPath)
    (events : List TreeEvent) (s : NodeDir) :
    n.cryptoExistLocal root p (events.foldl (TreeEvent.step root) s) =
      n.located root (p.cryptoExistLocal ((events.filterMap (TreeEvent.own n)).foldl
        (fun s x => attempted s x.1 x.2) (s.below (n.dir root)))) := by
  rw [cryptoExistLocal_below, run_below]

end

def icdd : CryptoOrg := ⟨.orderer, "icdd", ⟨by decide, by decide, by decide, by decide⟩⟩

def orderer0 : CryptoNode :=
  ⟨.node .orderer, "orderer0", "icdd", by decide, by decide, icdd.org_part⟩

def orderer1 : CryptoNode :=
  ⟨.node .orderer, "orderer1", "icdd", by decide, by decide, icdd.org_part⟩

/-- The crypto of the first node is made; a write of the second node is cut short, and the
organisation makes a directory. -/
def icddEvents : List TreeEvent :=
  (CaCryptoGen.generate ⟨"icdd", "orderer0.icdd", "Admin@icdd"⟩ false).map
      (.node orderer0 · none) ++
    [.node orderer1 (.writeFile CryptoPath.privateKey) (some true),
      .org icdd "Admin@icdd" (.ensureDir ["msp"]) (by decide) none]

theorem cryptoExistLocal_isolated_icdd :
    orderer0.cryptoExistLocal ["crypto"] ⟨"icdd", "orderer0.icdd", "Admin@icdd"⟩
        (icddEvents.foldl (TreeEvent.step ["crypto"]) ⟨[], []⟩) =
      .ok (some
        (["crypto", "ordererOrganizations", "icdd", "orderers", "orderer0.icdd", "msp", "keystore",
            "priv_sk"],
          ["crypto", "ordererOrganizations", "icdd", "orderers", "orderer0.icdd", "msp",
            "signcerts", "orderer0.icdd-cert.pem"])) := by
  rw [cryptoExistLocal_isolated]
  decide +kernel

end FabricCommon
