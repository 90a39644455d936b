import FabricCommon.CollectionConfig
import FabricCommon.GateTable
import FabricCommon.PanicRun
import Mathlib.Data.Set.Insert

namespace FabricCommon

/-- An entry of a standard `collections_config.json`. -/
structure StandardItem where
  name : Text
  policy : Text
  requiredPeerCount : Nat
  maxPeerCount : Option Nat
  blockToLive : Option Nat
  memberOnlyRead : Option Bool
  memberOnlyWrite : Option Bool

namespace SideDB

/-- The organisations of an item are read off the identities of its policy. -/
def fromItem (item : StandardItem) : Except JsError StaticCollectionConfig :=
  match FromString item.policy with
  | .error err => .error err
  | .ok envelope => .ok (buildCollectionConfig item.name
    { identities := envelope.identities.map MSPPrincipal.msp_identifier
      required_peer_count := item.requiredPeerCount
      maximum_peer_count := item.maxPeerCount
      block_to_live := item.blockToLive
      member_only_write := item.memberOnlyWrite
      member_only_read := item.memberOnlyRead
      endorsementPolicy := none
      endorsement_policy := none })

def FromStandard (json : List StandardItem) : Except JsError (List StaticCollectionConfig) :=
  json.mapM fromItem

end SideDB

/-- The principals that a set of signers stands for: any role of an MSP is also its member. -/
def principalsOf (signers : Set (Text × Role)) : Set MSPPrincipal :=
  {principal | ∃ m r, (m, r) ∈ signers ∧
    (principal = buildMSPPrincipal (MSPRoleTypeInverse r) m ∨
      principal = buildMSPPrincipal (MSPRoleTypeInverse .member) m)}

namespace SignaturePolicyEnvelope

def SatisfiedBy (envelope : SignaturePolicyEnvelope) (signers : Set (Text × Role)) : Prop :=
  envelope.Satisfied (principalsOf signers)

def Equivalent (envelope envelope' : SignaturePolicyEnvelope) : Prop :=
  ∀ signers, envelope.SatisfiedBy signers ↔ envelope'.SatisfiedBy signers

/-- The policy is an OR over members of its own organisations: somebody has to sign, and one member
of any organisation that it names is enough. -/
def OrOverMembers (envelope : SignaturePolicyEnvelope) : Prop :=
  ¬ envelope.SatisfiedBy ∅ ∧
    ∀ identity ∈ envelope.identities, envelope.SatisfiedBy {(identity.msp_identifier, .member)}

end SignaturePolicyEnvelope

open SignaturePolicyEnvelope

section

variable {envelope : SignaturePolicyEnvelope} {signers signers' : Set (Text × Role)}

theorem satisfied_mono {S T : Set MSPPrincipal} (sub : S ⊆ T) (h : envelope.Satisfied S) :
    envelope.Satisfied T := by
  refine h.mono ?_
  intro index hi
  obtain ⟨principal, hp, found⟩ := hi
  exact ⟨principal, sub hp, found⟩

/-- With no principal of the identities signing, it is as if nobody signed. -/
theorem satisfied_of_disjoint {S : Set MSPPrincipal}
    (apart : ∀ principal ∈ envelope.identities, principal ∉ S) (h : envelope.Satisfied S) :
    envelope.Satisfied ∅ := by
  refine h.mono ?_
  intro index hi
  obtain ⟨principal, hp, found⟩ := hi
  exact absurd hp (apart principal (List.mem_of_getElem? found))

theorem member_mem_principalsOf {m : Text} {r : Role} (h : (m, r) ∈ signers) :
    buildMSPPrincipal 0 m ∈ principalsOf signers := ⟨m, r, h, Or.inr rfl⟩

theorem mem_principalsOf_signed {principal : MSPPrincipal} (h : principal ∈ principalsOf signers) :
    ∃ r, (principal.msp_identifier, r) ∈ signers := by
  obtain ⟨m, r, hs, rfl | rfl⟩ := h
  · exact ⟨r, hs⟩
  · exact ⟨r, hs⟩

theorem memberOrgsPolicy_identity {orgs : List Text} {index : Nat} {principal : MSPPrincipal} :
    (SideDB.memberOrgsPolicy orgs).identities[index]? = some principal ↔
      ∃ m, orgs[index]? = some m ∧ principal = buildMSPPrincipal 0 m := by
  simp only [SideDB.memberOrgsPolicy, List.getElem?_map, Option.map_eq_some_iff]
  exact exists_congr fun m => and_congr_right fun _ => eq_comm

theorem memberOrgsPolicy_satisfiedBy {orgs : List Text} :
    (SideDB.memberOrgsPolicy orgs).SatisfiedBy signers ↔ ∃ m ∈ orgs, ∃ r, (m, r) ∈ signers := by
  have rule : (SideDB.memberOrgsPolicy orgs).rule.tree =
      .atLeast 1 ((List.range orgs.length).map ThresholdTree.leaf) := by
    simp [SideDB.memberOrgsPolicy, buildSignaturePolicy, buildNOutOf, SignaturePolicy.tree,
      trees_eq_map, Function.comp_def]
  simp only [SatisfiedBy, Satisfied, rule, ThresholdTree.sat_atLeast_one, List.mem_map,
    List.mem_range, exists_exists_and_eq_and, ThresholdTree.sat_leaf, Set.mem_ofPred_eq,
    memberOrgsPolicy_identity]
  constructor
  · intro h
    obtain ⟨index, _, principal, hp, m, hm, rfl⟩ := h
    exact ⟨m, List.mem_of_getElem? hm, mem_principalsOf_signed hp⟩
  · intro h
    obtain ⟨m, hm, r, hr⟩ := h
    obtain ⟨index, bound, at_index⟩ := List.mem_iff_getElem.mp hm
    have found : orgs[index]? = some m := List.getElem?_eq_some_iff.mpr ⟨bound, at_index⟩
    exact ⟨index, bound, _, member_mem_principalsOf hr, m, found, rfl⟩

/-- The policy built from the organisations of a policy is equivalent to it exactly when it was an
OR over members. -/
theorem memberOrgsPolicy_equivalent_iff :
    (SideDB.memberOrgsPolicy (envelope.identities.map MSPPrincipal.msp_identifier)).Equivalent
      envelope ↔ envelope.OrOverMembers := by
  simp only [Equivalent, memberOrgsPolicy_satisfiedBy, List.mem_map, exists_exists_and_eq_and]
  constructor
  · intro h
    refine ⟨fun satisfied => ?_, fun identity hi => ?_⟩
    · obtain ⟨identity, _, r, signed⟩ := (h ∅).mpr satisfied
      exact signed
    · exact (h _).mp ⟨identity, hi, .member, rfl⟩
  · intro h signers
    obtain ⟨needed, enough⟩ := h
    constructor
    · intro signed
      obtain ⟨identity, hi, r, hr⟩ := signed
      refine satisfied_mono ?_ (enough identity hi)
      intro principal hp
      obtain ⟨m, r', single, eq⟩ := hp
      obtain ⟨rfl, rfl⟩ := Prod.mk.inj (Set.mem_singleton_iff.mp single)
      have member : principal = buildMSPPrincipal 0 identity.msp_identifier := eq.elim id id
      rw [member]
      exact member_mem_principalsOf hr
    · intro satisfied
      by_contra unsigned
      have nobody : envelope.Satisfied ∅ := by
        refine satisfied_of_disjoint (fun principal hi hp => unsigned ?_) satisfied
        exact ⟨principal, hi, mem_principalsOf_signed hp⟩
      exact needed (satisfied_mono (Set.empty_subset _) nobody)

end

namespace SideDB

theorem fromItem_eq_ok {item : StandardItem} {config : StaticCollectionConfig}
    (h : fromItem item = .ok config) : ∃ envelope, FromString item.policy = .ok envelope ∧
      config.member_orgs_policy =
        memberOrgsPolicy (envelope.identities.map MSPPrincipal.msp_identifier) := by
  unfold fromItem at h
  split at h
  next => cases h
  next envelope accepted =>
    cases Except.ok.inj h
    exact ⟨envelope, accepted, rfl⟩

theorem fromItem_returns (item : StandardItem) {envelope : SignaturePolicyEnvelope}
    (h : FromString item.policy = .ok envelope) : ∃ config, fromItem item = .ok config := by
  simp only [fromItem, h]
  exact ⟨_, rfl⟩

theorem FromStandard_returns {json : List StandardItem}
    (h : ∀ item ∈ json, ∃ envelope, FromString item.policy = .ok envelope) :
    ∃ configs, FromStandard json = .ok configs := by
  simp only [FromStandard, PanicRun.mapM_eq_ok]
  induction json with
  | nil => exact ⟨[], .nil⟩
  | cons item json ih =>
    obtain ⟨envelope, accepted⟩ := h item List.mem_cons_self
    obtain ⟨config, built⟩ := fromItem_returns item accepted
    obtain ⟨configs, rest⟩ := ih fun item' hi => h item' (List.mem_cons_of_mem item hi)
    exact ⟨config :: configs, .cons built rest⟩

theorem FromStandard_fails {json : List StandardItem} {item : StandardItem} {err : JsError}
    (hi : item ∈ json) (h : FromString item.policy = .error err) :
    ∃ err', FromStandard json = .error err' := by
  cases translated : FromStandard json with
  | error err' => exact ⟨err', rfl⟩
  | ok configs =>
    obtain ⟨config, _, made⟩ := ListRules.exists_related_of_forall₂
      (PanicRun.mapM_eq_ok.mp translated) hi
    obtain ⟨envelope, accepted, _⟩ := fromItem_eq_ok made
    rw [h] at accepted
    cases accepted

end SideDB

/-- What the translation of a standard file promises: each policy of the result is the one of the
file, and a policy that no OR over members expresses is refused. -/
def PreservesMembership (json : List StandardItem) : Prop :=
  (∀ configs, SideDB.FromStandard json = .ok configs →
    List.Forall₂ (fun item config => ∀ envelope, FromString item.policy = .ok envelope →
      config.member_orgs_policy.Equivalent envelope) json configs) ∧
    ∀ item ∈ json, ∀ envelope, FromString item.policy = .ok envelope →
      (¬ ∃ orgs : List Text, ∀ signers, envelope.SatisfiedBy signers ↔
        ∃ m ∈ orgs, ∃ r, (m, r) ∈ signers) →
      ∃ err, SideDB.FromStandard json = .error err

theorem orOver_of_equivalent {item : StandardItem} {config : StaticCollectionConfig}
    {envelope : SignaturePolicyEnvelope} (made : SideDB.fromItem item = .ok config)
    (parsed : FromString item.policy = .ok envelope)
    (same : config.member_orgs_policy.Equivalent envelope) : envelope.OrOverMembers := by
  obtain ⟨envelope', parsed', policy⟩ := SideDB.fromItem_eq_ok made
  cases Except.ok.inj (parsed.symm.trans parsed')
  rw [policy] at same
  exact memberOrgsPolicy_equivalent_iff.mp same

theorem FromStandard_preserves_membership_iff (json : List StandardItem) :
    PreservesMembership json ↔
      (∃ item ∈ json, ∃ err, FromString item.policy = .error err) ∨
        ∀ item ∈ json, ∀ envelope, FromString item.policy = .ok envelope →
          envelope.OrOverMembers := by
  constructor
  · intro h
    obtain ⟨equivalent, _⟩ := h
    by_cases rejected : ∃ item ∈ json, ∃ err, FromString item.policy = .error err
    · exact Or.inl rejected
    · right
      have accepted : ∀ item ∈ json, ∃ envelope, FromString item.policy = .ok envelope := by
        intro item hi
        cases parsed : FromString item.policy with
        | error err => exact absurd ⟨item, hi, err, parsed⟩ rejected
        | ok envelope => exact ⟨envelope, rfl⟩
      obtain ⟨configs, translated⟩ := SideDB.FromStandard_returns accepted
      have built := PanicRun.mapM_eq_ok.mp translated
      intro item hi envelope parsed
      have both := List.Forall₂.mp (fun _ _ made same => And.intro made same) built
        (equivalent configs translated)
      obtain ⟨config, _, made, same⟩ := ListRules.exists_related_of_forall₂ both hi
      exact orOver_of_equivalent made parsed (same envelope parsed)
  · intro h
    rcases h with rejected | orOver
    · obtain ⟨item, hi, err, parsed⟩ := rejected
      have failed := SideDB.FromStandard_fails hi parsed
      refine ⟨fun configs translated => ?_, fun _ _ _ _ _ => failed⟩
      obtain ⟨err', raised⟩ := failed
      rw [raised] at translated
      cases translated
    · refine ⟨fun configs translated => ?_, fun item hi envelope parsed inexpressible => ?_⟩
      · refine ListRules.forall₂_imp_mem (PanicRun.mapM_eq_ok.mp translated) ?_
        intro item hi config made envelope parsed
        obtain ⟨envelope', parsed', policy⟩ := SideDB.fromItem_eq_ok made
        cases Except.ok.inj (parsed.symm.trans parsed')
        rw [policy, memberOrgsPolicy_equivalent_iff]
        exact orOver item hi envelope parsed
      · refine absurd ⟨envelope.identities.map MSPPrincipal.msp_identifier, ?_⟩ inexpressible
        intro signers
        rw [← memberOrgsPolicy_satisfiedBy]
        exact (memberOrgsPolicy_equivalent_iff.mpr (orOver item hi envelope parsed) signers).symm

/-- A collection that needs a member of both organisations is handed to either of them. -/
theorem FromStandard_widens_and : ¬ PreservesMembership
    [⟨['c'], "AND('A.member','B.member')".toList, 0, none, none, none, none⟩] := by
  intro h
  have parsed : FromString "AND('A.member','B.member')".toList =
      .ok ⟨0, .n_out_of 2 [.signed_by 0, .signed_by 1], [⟨0, ['A']⟩, ⟨0, ['B']⟩]⟩ := rfl
  obtain ⟨config, made⟩ := SideDB.fromItem_returns
    ⟨['c'], "AND('A.member','B.member')".toList, 0, none, none, none, none⟩ parsed
  have translated : SideDB.FromStandard
      [⟨['c'], "AND('A.member','B.member')".toList, 0, none, none, none, none⟩] =
        .ok [config] := PanicRun.mapM_eq_ok.mpr (.cons made .nil)
  cases h.1 [config] translated with
  | cons same _ =>
    have single := (orOver_of_equivalent made parsed (same _ parsed)).2 ⟨0, ['A']⟩ (by simp)
    have both := ThresholdTree.sat_atLeast_length.mp
      (show ThresholdTree.Sat _ (.atLeast [ThresholdTree.leaf 0, .leaf 1].length _) from single)
    obtain ⟨principal, signed, second⟩ := ThresholdTree.sat_leaf.mp (both (.leaf 1) (by simp))
    obtain ⟨r, other⟩ := mem_principalsOf_signed signed
    cases Option.some.inj second
    simp at other

end FabricCommon
