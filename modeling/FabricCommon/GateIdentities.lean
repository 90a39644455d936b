import FabricCommon.GateTable
import Mathlib.Data.List.Nodup
import Mathlib.Data.List.Induction

namespace FabricCommon

mutual
/-- The role clauses of an expression, in the order in which they are parsed. -/
def GateExpr.clauses : GateExpr → List (Text × Role)
  | .role m r => [(m, r)]
  | .gate _ items => GateExpr.clausesOf items
def GateExpr.clausesOf : List GateExpr → List (Text × Role)
  | [] => []
  | e :: es => e.clauses ++ GateExpr.clausesOf es
end

mutual
/-- The `signed_by` indices of a rule tree, from left to right. -/
def SignaturePolicy.leaves : SignaturePolicy → List Nat
  | .unset => []
  | .signed_by index => [index]
  | .n_out_of _ rules => SignaturePolicy.leavesOf rules
def SignaturePolicy.leavesOf : List SignaturePolicy → List Nat
  | [] => []
  | rule :: rules => rule.leaves ++ SignaturePolicy.leavesOf rules
end

def principalOf (clause : Text × Role) : MSPPrincipal :=
  buildMSPPrincipal (MSPRoleTypeInverse clause.2) clause.1

theorem MSPRoleTypeInverse_inj {r r' : Role} (h : MSPRoleTypeInverse r = MSPRoleTypeInverse r') :
    r = r' := by
  cases r <;> cases r' <;> first | rfl | exact absurd h (by decide)

theorem principalOf_inj {c c' : Text × Role} (h : principalOf c = principalOf c') : c = c' := by
  obtain ⟨hr, hm⟩ := MSPPrincipal.mk.inj h
  exact Prod.ext hm (MSPRoleTypeInverse_inj hr)

/-- The table after the clauses `cs`: each clause where it was first parsed, and a key for each of
them that names its place. -/
structure ParseState.Lists (st : ParseState) (cs : List (Text × Role)) : Prop where
  identities : st.identities = cs.eraseDups.map principalOf
  lookup : ∀ m r, st.identitiesIndexMap.lookup (identityKey m r) =
    if (m, r) ∈ cs then some (cs.eraseDups.idxOf (m, r)) else none

theorem eraseDups_grows (cs ds : List (Text × Role)) :
    cs.eraseDups <+: (cs ++ ds).eraseDups := by
  rw [List.eraseDups_append]
  exact List.prefix_append _ _

theorem eraseDups_concat_of_mem {cs : List (Text × Role)} {c : Text × Role} (h : c ∈ cs) :
    (cs ++ [c]).eraseDups = cs.eraseDups := by
  simp [List.eraseDups_append, List.removeAll, h]

theorem eraseDups_concat_of_notMem {cs : List (Text × Role)} {c : Text × Role} (h : c ∉ cs) :
    (cs ++ [c]).eraseDups = cs.eraseDups ++ [c] := by
  simp [List.eraseDups_append, List.removeAll, h, List.eraseDups_cons]

theorem idxOf_eraseDups_append {cs : List (Text × Role)} {c : Text × Role} (h : c ∈ cs)
    (ds : List (Text × Role)) :
    (cs ++ ds).eraseDups.idxOf c = cs.eraseDups.idxOf c :=
  ((eraseDups_grows cs ds).idxOf_eq_of_mem (List.mem_eraseDups.mpr h)).symm

theorem nodup_eraseDups (cs : List (Text × Role)) : cs.eraseDups.Nodup := by
  induction cs using List.reverseRecOn with
  | nil => simp
  | append_singleton cs c ih =>
    by_cases h : c ∈ cs
    · rwa [eraseDups_concat_of_mem h]
    · rw [eraseDups_concat_of_notMem h]
      refine List.nodup_append.mpr ⟨ih, List.nodup_singleton c, ?_⟩
      intro a ha b hb
      have hbc : b = c := List.mem_singleton.mp hb
      have hac : a ∈ cs := List.mem_eraseDups.mp ha
      intro hab
      exact h (hbc ▸ hab ▸ hac)

theorem parseRoleClause_lists {st : ParseState} {cs : List (Text × Role)} (lists : st.Lists cs)
    (m : Text) (r : Role) :
    (parseRoleClause m r st).2.Lists (cs ++ [(m, r)]) ∧
      (parseRoleClause m r st).1.leaves = [(cs ++ [(m, r)]).eraseDups.idxOf (m, r)] := by
  have found := lists.lookup m r
  by_cases h : (m, r) ∈ cs
  · rw [if_pos h] at found
    simp only [parseRoleClause, found, eraseDups_concat_of_mem h]
    refine ⟨⟨?_, ?_⟩, rfl⟩
    · rw [eraseDups_concat_of_mem h, lists.identities]
    · intro m' r'
      rw [eraseDups_concat_of_mem h, lists.lookup]
      have same : (m', r') ∈ cs ++ [(m, r)] ↔ (m', r') ∈ cs := by
        rw [List.mem_append, List.mem_singleton]
        exact ⟨fun hc => hc.elim id fun eq => eq ▸ h, Or.inl⟩
      simp only [same]
  · rw [if_neg h] at found
    have fresh : (m, r) ∉ cs.eraseDups := fun hc => h (List.mem_eraseDups.mp hc)
    have last : (cs.eraseDups ++ [(m, r)]).idxOf (m, r) = cs.eraseDups.length := by
      rw [List.idxOf_append_of_notMem fresh, List.idxOf_cons_self, Nat.add_zero]
    have place : st.identities.length = cs.eraseDups.length := by
      rw [lists.identities, List.length_map]
    simp only [parseRoleClause, found, eraseDups_concat_of_notMem h, last, place]
    refine ⟨⟨?_, ?_⟩, rfl⟩
    · rw [eraseDups_concat_of_notMem h, lists.identities, List.map_append]
      rfl
    · intro m' r'
      rw [List.lookup_cons]
      by_cases eq : (m', r') = (m, r)
      · obtain ⟨rfl, rfl⟩ := Prod.mk.inj eq
        simp [eraseDups_concat_of_notMem h, last]
      · have key : (identityKey m' r' == identityKey m r) = false := by
          refine beq_eq_false_iff_ne.mpr fun hk => eq ?_
          obtain ⟨hm, hr⟩ := identityKey_inj hk
          rw [hm, hr]
        simp only [key, lists.lookup, List.mem_append, List.mem_singleton, eq, or_false]
        by_cases old : (m', r') ∈ cs
        · rw [if_pos old, if_pos old, idxOf_eraseDups_append old]
        · rw [if_neg old, if_neg old]

/-- Compiling an expression lists its clauses behind those listed before, and each leaf carries the
place of its clause in the table. -/
theorem compile_lists (e : GateExpr) : ∀ (st : ParseState) (cs : List (Text × Role)), st.Lists cs →
    (compile e st).2.Lists (cs ++ e.clauses) ∧
      (compile e st).1.leaves = e.clauses.map ((cs ++ e.clauses).eraseDups.idxOf ·) := by
  induction e using GateExpr.induction with
  | role m r =>
    intro st cs lists
    simpa only [compile, GateExpr.clauses, List.map_cons, List.map_nil] using
      parseRoleClause_lists lists m r
  | gate g items ih =>
    have all : ∀ (st : ParseState) (cs : List (Text × Role)), st.Lists cs →
        (compileItems items st).2.Lists (cs ++ GateExpr.clausesOf items) ∧
          SignaturePolicy.leavesOf (compileItems items st).1 =
            (GateExpr.clausesOf items).map
              ((cs ++ GateExpr.clausesOf items).eraseDups.idxOf ·) := by
      clear g
      induction items with
      | nil =>
        intro st cs lists
        simpa [compileItems, GateExpr.clausesOf, SignaturePolicy.leavesOf] using lists
      | cons e es ihes =>
        intro st cs lists
        obtain ⟨first, l1⟩ := ih e List.mem_cons_self st cs lists
        obtain ⟨rest, l2⟩ := ihes (fun e' he' => ih e' (List.mem_cons_of_mem e he')) _ _ first
        have kept : e.clauses.map ((cs ++ e.clauses).eraseDups.idxOf ·) =
            e.clauses.map ((cs ++ e.clauses ++ GateExpr.clausesOf es).eraseDups.idxOf ·) := by
          refine List.map_congr_left fun c hc => (idxOf_eraseDups_append ?_ _).symm
          exact List.mem_append_right cs hc
        simp only [compileItems, GateExpr.clausesOf, SignaturePolicy.leavesOf, List.map_append,
          l1, l2, kept]
        rw [List.append_assoc] at rest
        exact ⟨rest, by rw [List.append_assoc]⟩
    intro st cs lists
    simpa only [compile, GateExpr.clauses, SignaturePolicy.leaves] using all st cs lists

theorem empty_lists : ParseState.Lists ⟨[], []⟩ [] where
  identities := rfl
  lookup _ _ := rfl

theorem envelopeOf_lists (e : GateExpr) :
    (envelopeOf e).identities = e.clauses.eraseDups.map principalOf ∧
      (envelopeOf e).rule.leaves = e.clauses.map (e.clauses.eraseDups.idxOf ·) := by
  obtain ⟨lists, leaves⟩ := compile_lists e _ _ empty_lists
  exact ⟨lists.identities, leaves⟩

/-- The clauses that `FromString` parses from a text, in order, with the mspid and the role that
the pattern captures in each. -/
def clausesIn (policyString : Text) : List (Text × Role) :=
  match matchGateClause policyString with
  | none => []
  | some (gate, subClause) => (readBody gate subClause).clauses

theorem FromString_clausesIn {text : Text} {env : SignaturePolicyEnvelope}
    (h : FromString text = .ok env) : ∃ e, clausesIn text = e.clauses ∧ env = envelopeOf e := by
  obtain ⟨g, body, rfl, hb, rfl⟩ := FromString_eq_ok.mp h
  have matched : matchGateClause (gateClause g body) = some (g, body) :=
    matchGateClause_eq_some.mpr ⟨rfl, hb⟩
  exact ⟨readBody g body, by simp only [clausesIn, matched], rfl⟩

/-- The identity table of an accepted text lists each pair of mspid and role once, where it was
first parsed; the leaves are the clauses, in order, and each carries the place of its own pair. -/
theorem FromString_identity_table {text : Text} {env : SignaturePolicyEnvelope}
    (h : FromString text = .ok env) :
    env.identities = (clausesIn text).eraseDups.map principalOf ∧
      env.identities.Nodup ∧
      (∀ index ∈ env.rule.leaves, index < env.identities.length) ∧
      (∀ index < env.identities.length, index ∈ env.rule.leaves) ∧
      env.rule.leaves.length = (clausesIn text).length ∧
      ∀ (j k : Nat) (c c' : Text × Role), (clausesIn text)[j]? = some c →
        (clausesIn text)[k]? = some c' →
        (env.rule.leaves[j]? = env.rule.leaves[k]? ↔ c.1 = c'.1 ∧ c.2 = c'.2) := by
  obtain ⟨e, clauses, rfl⟩ := FromString_clausesIn h
  obtain ⟨identities, leaves⟩ := envelopeOf_lists e
  have nodup := nodup_eraseDups e.clauses
  rw [clauses, identities, leaves, List.length_map]
  refine ⟨rfl, nodup.map fun c c' => principalOf_inj, ?_, ?_, List.length_map _, ?_⟩
  · intro index hi
    obtain ⟨c, hc, rfl⟩ := List.mem_map.mp hi
    exact List.idxOf_lt_length_of_mem (List.mem_eraseDups.mpr hc)
  · intro index hi
    have hc := List.mem_eraseDups.mp (List.getElem_mem hi)
    exact List.mem_map.mpr ⟨_, hc, nodup.idxOf_getElem index hi⟩
  · intro j k c c' hj hk
    rw [List.getElem?_map, List.getElem?_map, hj, hk, Option.map_some, Option.map_some,
      Option.some.injEq]
    have hc := List.mem_eraseDups.mpr (List.mem_of_getElem? hj)
    rw [List.idxOf_inj hc]
    exact Prod.ext_iff

/-- An mspid that ends in a role name is told from the shorter one. -/
theorem FromString_identity_table_dotted :
    ∃ env, FromString "OR('a.peer.peer','a.peer','a.peer.peer')".toList = .ok env ∧
      env.rule.leaves = [0, 1, 0] ∧ env.identities.Nodup := by
  have h : FromString "OR('a.peer.peer','a.peer','a.peer.peer')".toList =
      .ok ⟨0, .n_out_of 1 [.signed_by 0, .signed_by 1, .signed_by 0],
        [⟨3, "a.peer".toList⟩, ⟨3, ['a']⟩]⟩ := rfl
  exact ⟨_, h, rfl, (FromString_identity_table h).2.1⟩

end FabricCommon
