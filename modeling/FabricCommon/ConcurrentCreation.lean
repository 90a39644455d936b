import FabricCommon.CaAttempts
import FabricCommon.CaRegistry

namespace FabricCommon

open RequestRun CheckThenCreate StepRun

variable {S ι α : Type}

/-- What the CA counts as a registration: a create request that it has accepted. -/
def registers : Sigma CaAction.Reply → Bool
  | ⟨.createIdentity _ _, .ok _⟩ | ⟨.createAffiliation _ _, .ok _⟩ => true
  | _ => false

/-- Clients at one CA, each about to run its own call. -/
def calls (program : ι → CaM α) (s : S) : System S ι CaAction.Reply (Except CaError α) :=
  ⟨s, fun i => (program i).run, []⟩

section Laws

variable {serve : CaServer S} {registry : S → String → Option String}
  {affiliations : S → String → Bool}

theorem IdentityServiceWrapper.attempt_lawful (ca : IdentityLaws serve registry)
    {service : IdentityServiceWrapper} {options : IdentityOptions}
    (accepted : service.roleError options.role = none → ∀ s,
      registry s options.enrollmentID = none → ∃ secret : String,
        (serve (.createIdentity options.req service.registrar) s).1 = .ok secret) :
    (service.attempt options).Lawful serve
      (fun s => (registry s options.enrollmentID).isSome) registers where
  distinct := by simp [attempt]
  lookup_keeps s := by
    have kept := ca.others_keep (.getIdentity options.enrollmentID service.registrar) s
      (by simp)
    exact congrArg (fun registry => (registry options.enrollmentID).isSome) kept
  lookup_silent s := rfl
  lookup_present s there := by
    obtain ⟨response, answered, result⟩ := ca.lookup_registered options.enrollmentID
      service.registrar s (Option.isSome_iff_ne_none.mp there)
    obtain ⟨entry, held⟩ := heldOf_present (fun _ => (none : Option String)) answered result
    exact ⟨none, held⟩
  lookup_absent s absent := by
    obtain ⟨e, failed, missing⟩ := ca.lookup_absent options.enrollmentID service.registrar s
      (by simpa using absent)
    exact heldOf_absent (fun _ => none) failed missing
  create_absent allowed s absent := by
    obtain ⟨secret, made⟩ := accepted allowed s (by simpa using absent)
    have after := ca.create_registers options.req service.registrar s secret made
    have stored := (congrFun after options.enrollmentID).trans (Function.update_self ..)
    refine ⟨⟨some secret, congrArg (Except.map some) made⟩, congrArg Option.isSome stored, ?_⟩
    exact congrArg (fun reply => registers ⟨_, reply⟩) made
  create_present s there := by
    obtain ⟨e, clash⟩ := ca.clash options.req service.registrar (Option.isSome_iff_ne_none.mp there)
    have after := ca.create_fails options.req service.registrar s e clash
    have kept := congrArg (fun registry => (registry options.enrollmentID).isSome) after
    refine ⟨⟨e, congrArg (Except.map some) clash⟩, kept.trans there, ?_⟩
    exact congrArg (fun reply => registers ⟨_, reply⟩) clash

theorem AffiliationServiceBuilder.attempt_lawful (ca : AffiliationLaws serve affiliations)
    {service : AffiliationServiceBuilder} {name : String} {force : Option Bool}
    (accepted : ∀ s, affiliations s name = false →
      ∃ response : ServiceResponse AffiliationResult,
        (serve (.createAffiliation ⟨name, force.getD false⟩ service.registrar) s).1 =
          .ok response) :
    (service.attempt name force).Lawful serve (affiliations · name) registers where
  distinct := by simp [attempt]
  lookup_keeps s := congrFun (ca.lookup_keeps name service.registrar s) name
  lookup_silent s := rfl
  lookup_present s there := by
    obtain ⟨response, answered, result⟩ := ca.lookup_present name service.registrar s there
    obtain ⟨entry, held⟩ := heldOf_present Sum.inl answered result
    exact ⟨.inl entry, held⟩
  lookup_absent s absent := by
    obtain ⟨e, failed, missing⟩ := ca.lookup_absent name service.registrar s absent
    exact heldOf_absent Sum.inl failed missing
  create_absent _ s absent := by
    obtain ⟨response, made⟩ := accepted s absent
    have there := ca.create_adds _ service.registrar s response made
    refine ⟨⟨.inr response, congrArg (Except.map Sum.inr) made⟩, there, ?_⟩
    exact congrArg (fun reply => registers ⟨_, reply⟩) made
  create_present s there := by
    obtain ⟨e, clash⟩ := ca.clash ⟨name, force.getD false⟩ service.registrar there
    have kept := congrFun (ca.create_fails _ service.registrar s e clash) name
    refine ⟨⟨e, congrArg (Except.map Sum.inr) clash⟩, kept.trans there, ?_⟩
    exact congrArg (fun reply => registers ⟨_, reply⟩) clash

end Laws

section Interleavings

variable [DecidableEq ι]

/-- After every part of the schedule: no call has failed, those that have had their turns have
returned, and once one has, the CA has registered the entry `n` times. -/
def RegisteredTimes (n : Nat) (serve : CaServer S) (program : ι → CaM α) (s : S)
    (schedule : List ι) : Prop :=
  ∀ before, before <+: schedule →
    CreatedTimes registers n ((calls program s).run serve before) before.count

/-- No other client has registered the identity between this one's lookup and its create request,
and a call whose lookup finds none has an allowed role. -/
def IdentityTurn (registry : S → String → Option String) (service : ι → IdentityServiceWrapper)
    (options : ι → IdentityOptions)
    (c : System S ι CaAction.Reply (Except CaError (Option String))) (i : ι) : Prop :=
  ((c.clients i).pending = some (.createIdentity (options i).req (service i).registrar) →
    registry c.state (options i).enrollmentID = none) ∧
  ((c.clients i).pending = some (.getIdentity (options i).enrollmentID (service i).registrar) →
    registry c.state (options i).enrollmentID = none →
      (service i).roleError (options i).role = none)

/-- The same for an affiliation, whose calls have no role. -/
def AffiliationTurn (affiliations : S → String → Bool)
    (service : ι → AffiliationServiceBuilder) (name : String) (force : ι → Option Bool)
    (c : System S ι CaAction.Reply
      (Except CaError (AffiliationResult ⊕ ServiceResponse AffiliationResult))) (i : ι) : Prop :=
  (c.clients i).pending =
      some (.createAffiliation ⟨name, (force i).getD false⟩ (service i).registrar) →
    affiliations c.state name = false

variable {serve : CaServer S} {registry : S → String → Option String}
  {affiliations : S → String → Bool}

/-- The interleavings of calls that look their entry up and create it. -/
theorem registeredTimes_iff {present : S → Bool} {program : ι → CaM α}
    {attempt : ι → Attempt CaAction CaAction.Reply CaError α}
    (runs : ∀ i, (program i).run = (attempt i).program)
    (lawful : ∀ i, (attempt i).Lawful serve present registers) (s : S) (schedule : List ι) :
    RegisteredTimes (!present s).toNat serve program s schedule ↔
      EachStep (System.step serve) (Timely present attempt) (calls program s) schedule := by
  have begun : calls program s = start attempt s := by
    unfold calls start
    simp only [runs]
  unfold RegisteredTimes
  rw [begun]
  exact createdTimes_iff lawful s schedule

theorem identity_registeredTimes_iff (ca : IdentityLaws serve registry) {id : String}
    {service : ι → IdentityServiceWrapper} {options : ι → IdentityOptions}
    (named : ∀ i, (options i).enrollmentID = id)
    (accepted : ∀ i, (service i).roleError (options i).role = none → ∀ s, registry s id = none →
      ∃ secret : String,
        (serve (.createIdentity (options i).req (service i).registrar) s).1 = .ok secret)
    (s : S) (schedule : List ι) :
    RegisteredTimes (registry s id).isNone.toNat serve
        (fun i => (service i).createIfNotExist (options i)) s schedule ↔
      EachStep (System.step serve) (IdentityTurn registry service options)
        (calls (fun i => (service i).createIfNotExist (options i)) s) schedule := by
  have lawful : ∀ i, ((service i).attempt (options i)).Lawful serve
      (fun s => (registry s id).isSome) registers := by
    intro i
    rw [← named i]
    exact IdentityServiceWrapper.attempt_lawful ca fun allowed s absent =>
      accepted i allowed s (named i ▸ absent)
  have timely : Timely (fun s => (registry s id).isSome)
      (fun i => (service i).attempt (options i)) = IdentityTurn registry service options := by
    funext c i
    simp [Timely, IdentityTurn, named, IdentityServiceWrapper.attempt]
  have calls_iff := registeredTimes_iff
    (fun i => (service i).createIfNotExist_run (options i)) lawful s schedule
  rw [timely] at calls_iff
  simpa using calls_iff

theorem affiliation_registeredTimes_iff (ca : AffiliationLaws serve affiliations) {name : String}
    {service : ι → AffiliationServiceBuilder} {force : ι → Option Bool}
    (accepted : ∀ i s, affiliations s name = false →
      ∃ response : ServiceResponse AffiliationResult,
        (serve (.createAffiliation ⟨name, (force i).getD false⟩ (service i).registrar) s).1 =
          .ok response)
    (s : S) (schedule : List ι) :
    RegisteredTimes (!affiliations s name).toNat serve
        (fun i => (service i).createIfNotExist name (force i)) s schedule ↔
      EachStep (System.step serve) (AffiliationTurn affiliations service name force)
        (calls (fun i => (service i).createIfNotExist name (force i)) s) schedule := by
  have lawful : ∀ i, ((service i).attempt name (force i)).Lawful serve (affiliations · name)
      registers := fun i => AffiliationServiceBuilder.attempt_lawful ca (accepted i)
  have timely : Timely (affiliations · name) (fun i => (service i).attempt name (force i)) =
      AffiliationTurn affiliations service name force := by
    funext c i
    simp [Timely, AffiliationTurn, AffiliationServiceBuilder.attempt]
  rw [← timely]
  exact registeredTimes_iff (fun i => (service i).createIfNotExist_run name (force i)) lawful s
    schedule

/-- Calls of any number of clients register their entry once, whatever the interleaving, iff each
of their turns finds the entry as its call needs it. -/
theorem createIfNotExist_registersOnce_iff (ca : IdentityLaws serve registry)
    (affiliationCa : AffiliationLaws serve affiliations) (s : S) (schedule : List ι) :
    (∀ (id : String) (service : ι → IdentityServiceWrapper) (options : ι → IdentityOptions),
      (∀ i, (options i).enrollmentID = id) →
      (∀ i, (service i).roleError (options i).role = none → ∀ s, registry s id = none →
        ∃ secret : String,
          (serve (.createIdentity (options i).req (service i).registrar) s).1 = .ok secret) →
      (RegisteredTimes (registry s id).isNone.toNat serve
          (fun i => (service i).createIfNotExist (options i)) s schedule ↔
        EachStep (System.step serve) (IdentityTurn registry service options)
          (calls (fun i => (service i).createIfNotExist (options i)) s) schedule)) ∧
    (∀ (name : String) (service : ι → AffiliationServiceBuilder) (force : ι → Option Bool),
      (∀ i s, affiliations s name = false → ∃ response : ServiceResponse AffiliationResult,
        (serve (.createAffiliation ⟨name, (force i).getD false⟩ (service i).registrar) s).1 =
          .ok response) →
      (RegisteredTimes (!affiliations s name).toNat serve
          (fun i => (service i).createIfNotExist name (force i)) s schedule ↔
        EachStep (System.step serve) (AffiliationTurn affiliations service name force)
          (calls (fun i => (service i).createIfNotExist name (force i)) s) schedule)) := by
  refine ⟨?_, ?_⟩
  · intro id service options named accepted
    exact identity_registeredTimes_iff ca named accepted s schedule
  · intro name service force accepted
    exact affiliation_registeredTimes_iff affiliationCa accepted s schedule

end Interleavings

def registrar : User := ⟨"admin", "Org1MSP", "certificate"⟩

def identityService : IdentityServiceWrapper :=
  ⟨registrar, ["peer", "orderer", "client", "user"]⟩

def peerOptions : IdentityOptions :=
  ⟨"peer0.org1", none, some "org1.peer", some "peer", none, none, none⟩

/-- Two clients make the same call at a CA without the entry. -/
def twoIdentityCalls (schedule : List Bool) : Prop :=
  RegisteredTimes 1 CaRegistry.serve (fun _ => identityService.createIfNotExist peerOptions)
    (CaRegistry.mk [] []) schedule

def twoAffiliationCalls (schedule : List Bool) : Prop :=
  RegisteredTimes 1 CaRegistry.serve
    (fun _ => (AffiliationServiceBuilder.mk registrar).createIfNotExist "org1.peer" (some true))
    (CaRegistry.mk [] []) schedule

theorem createIfNotExist_registersOnce_iff_sequential :
    twoIdentityCalls [false, false, true] ∧ twoAffiliationCalls [false, false, true] := by
  have once := createIfNotExist_registersOnce_iff (ι := Bool) CaRegistry.identityLaws
    CaRegistry.affiliationLaws (CaRegistry.mk [] []) [false, false, true]
  refine ⟨(once.1 "peer0.org1" (fun _ => identityService) (fun _ => peerOptions) (fun _ => rfl)
    ?_).mpr ?_, (once.2 "org1.peer" (fun _ => ⟨registrar⟩) (fun _ => some true) ?_).mpr ?_⟩
  · intro i _ s absent
    exact CaRegistry.accepts_identity registrar absent
  · refine ⟨⟨fun _ => rfl, fun _ _ => rfl⟩, ⟨fun _ => rfl, fun _ _ => rfl⟩, ⟨?_, ?_⟩, trivial⟩
    · intro asks
      cases asks
    · exact fun _ _ => rfl
  · intro i s absent
    exact CaRegistry.accepts_affiliation registrar absent
  · refine ⟨fun _ => rfl, fun _ => rfl, ?_, trivial⟩
    intro asks
    cases asks

/-- Both lookups come before both create requests, and the second create request fails. -/
theorem not_registersOnce_overlapping :
    ¬ (∀ schedule, twoIdentityCalls schedule) ∧ ¬ ∀ schedule, twoAffiliationCalls schedule := by
  constructor
  · intro h
    have last := h [false, true, false, true] [false, true, false, true] (List.prefix_refl _)
    refine last.no_failure true ?_ ?_
    · exact CaRegistry.fault 74 "Identity 'peer0.org1' is already registered"
    · rfl
  · intro h
    have last := h [false, true, false, true] [false, true, false, true] (List.prefix_refl _)
    refine last.no_failure true ?_ ?_
    · exact CaRegistry.fault 66 "Affiliation already exists"
    · rfl

end FabricCommon
