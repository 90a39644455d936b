import FabricCommon.LifecycleSettings

namespace FabricCommon

open LifecycleWorld

def translatedPolicy (protos : LifecycleProtos) (endorsementPolicy : Option EndorsementPolicy) :
    Except JsError (Option Buffer) :=
  match endorsementPolicy with
  | none => .ok none
  | some endorsementPolicy =>
    (applicationPolicyBuilder endorsementPolicy).map (some ∘ protos.encodeApplicationPolicy)

/-- The collections that a list of configs is translated to, each read as it is in `heap`. -/
def translatedConfigs (heap : ConfigHeap) :
    List (Text × ConfigRef) → Except JsError (List StaticCollectionConfig)
  | [] => .ok []
  | (name, ref) :: entries =>
    match assignConfig (heap ref) with
    | .error err => .error err
    | .ok config =>
      (translatedConfigs heap entries).map (SideDB.buildCollectionConfig name config :: ·)

def translatedCollections (heap : ConfigHeap)
    (collectionsConfig : Option (List (Text × ConfigRef))) :
    Except JsError (Option (List StaticCollectionConfig)) :=
  match collectionsConfig with
  | none => .ok none
  | some entries => (translatedConfigs heap entries).map some

/-- No policy of the settings makes the translation throw. -/
def LifecycleSettings.Translates (protos : LifecycleProtos) (g : LifecycleSettings) : Prop :=
  ∃ policy collections, translatedPolicy protos g.endorsementPolicy = .ok policy ∧
    translatedCollections g.heap g.collectionsConfig = .ok collections

/-- A config without an `endorsementPolicy` has the translation of the caller's own
`endorsement_policy`. -/
def Untouched (heap heap' : ConfigHeap) (entries : List (Text × ConfigRef)) : Prop :=
  ∀ entry ∈ entries, (heap' entry.2).endorsementPolicy = none →
    (heap entry.2).endorsement_policy.map SideDB.collectionPolicy =
      (heap' entry.2).endorsement_policy.map SideDB.collectionPolicy

/-- Nothing that earlier calls left on the proposal or on the configs shows through the settings. -/
structure InForce (w : LifecycleWorld) (g : LifecycleSettings) : Prop where
  policy : g.endorsementPolicy = none → w.operation.proposal.validation_parameter = none
  collections : g.collectionsConfig = none →
    w.operation.proposal.collectionConfigPackage = none
  configs : ∀ entries, g.collectionsConfig = some entries → Untouched w.heap g.heap entries

section

variable {protos : LifecycleProtos} {g : LifecycleSettings} {w : LifecycleWorld}
  {config config' : CollectionSetting}

theorem assignConfig_again {assigned : CollectionSetting}
    (h : assignConfig config = .ok assigned) : assignConfig assigned = .ok assigned := by
  unfold assignConfig at h
  split at h
  next none =>
    cases Except.ok.inj h
    simp only [assignConfig, none]
  next policy set =>
    cases built : applicationPolicyBuilder policy with
    | error err => simp [built, Except.map] at h
    | ok applicationPolicy =>
      simp only [built, Except.map, Except.ok.injEq] at h
      subst h
      simp only [assignConfig, set, built, Except.map]

/-- Writing a config in place does not change what the entries after it are translated to. -/
theorem assignCollections_result (entries : List (Text × ConfigRef)) {heap heap' : ConfigHeap}
    (h : ∀ ref, assignConfig (heap ref) = assignConfig (heap' ref)) :
    (assignCollections entries heap).2 = translatedConfigs heap' entries := by
  induction entries generalizing heap with
  | nil => rfl
  | cons entry entries ih =>
    obtain ⟨name, ref⟩ := entry
    simp only [assignCollections, translatedConfigs, ← h ref]
    cases assigned : assignConfig (heap ref) with
    | error err => rfl
    | ok config =>
      have later : ∀ ref', assignConfig (Function.update heap ref config ref') =
          assignConfig (heap' ref') := by
        intro ref'
        by_cases same : ref' = ref
        · subst same
          rw [Function.update_self, assignConfig_again assigned, ← assigned]
          exact h ref'
        · rw [Function.update_of_ne same]
          exact h ref'
      simp only [ih later]

theorem assignPolicy_spec (protos : LifecycleProtos) (w : LifecycleWorld) :
    (∃ err, translatedPolicy protos w.operation.endorsementPolicy = .error err ∧
      w.assignPolicy protos = (w, .error (.thrown err))) ∨
      ∃ policy, translatedPolicy protos w.operation.endorsementPolicy = .ok policy ∧
        w.assignPolicy protos = (w.setProposal { w.operation.proposal with
          validation_parameter :=
            policy.or w.operation.proposal.validation_parameter }, .ok ()) := by
  unfold assignPolicy translatedPolicy
  cases w.operation.endorsementPolicy with
  | none => exact Or.inr ⟨none, rfl, rfl⟩
  | some endorsementPolicy =>
    simp only
    cases applicationPolicyBuilder endorsementPolicy with
    | error err => exact Or.inl ⟨err, rfl, rfl⟩
    | ok applicationPolicy => exact Or.inr ⟨_, rfl, rfl⟩

theorem assignConfigs_spec (w : LifecycleWorld) :
    (∃ err heap, translatedCollections w.heap w.operation.collectionsConfig = .error err ∧
      w.assignConfigs = ({ w with heap := heap }, .error (.thrown err))) ∨
      ∃ collections heap,
        translatedCollections w.heap w.operation.collectionsConfig = .ok collections ∧
        w.assignConfigs = ({ w with heap := heap }.setProposal { w.operation.proposal with
          collectionConfigPackage :=
            collections.or w.operation.proposal.collectionConfigPackage }, .ok ()) := by
  unfold assignConfigs translatedCollections
  cases w.operation.collectionsConfig with
  | none => exact Or.inr ⟨none, w.heap, rfl, rfl⟩
  | some entries =>
    have result : (assignCollections entries w.heap).2 = translatedConfigs w.heap entries :=
      assignCollections_result entries fun _ => rfl
    simp only
    rw [← result]
    obtain ⟨heap, all⟩ := assignCollections entries w.heap
    cases all with
    | error err => exact Or.inl ⟨err, heap, rfl, rfl⟩
    | ok configs => exact Or.inr ⟨some configs, heap, rfl, rfl⟩

theorem sentBy_assign {policy : Option Buffer} {collections : Option (List StaticCollectionConfig)}
    (hpolicy : translatedPolicy protos w.operation.endorsementPolicy = .ok policy)
    (hcollections : translatedCollections w.heap w.operation.collectionsConfig = .ok collections)
    (init_required : Option Bool) :
    sentBy (w.assign protos init_required) =
      some ⟨policy.or w.operation.proposal.validation_parameter,
        collections.or w.operation.proposal.collectionConfigPackage,
        if init_required.getD false then some true else none⟩ := by
  rcases assignPolicy_spec protos w with ⟨err, untranslated, _⟩ | ⟨policy', translated, assigned⟩
  · rw [untranslated] at hpolicy
    cases hpolicy
  · cases Except.ok.inj (translated.symm.trans hpolicy)
    have step := assignConfigs_spec (w.setProposal { w.operation.proposal with
      validation_parameter := policy.or w.operation.proposal.validation_parameter })
    rcases step with ⟨err, heap, untranslated, _⟩ | ⟨collections', heap, translated', assigned'⟩
    · cases untranslated.symm.trans hcollections
    · cases Except.ok.inj (translated'.symm.trans hcollections)
      simp only [assign, assigned, assigned']
      rfl

theorem sentBy_assign_untranslated (init_required : Option Bool)
    (h : ∀ policy collections,
      translatedPolicy protos w.operation.endorsementPolicy = .ok policy →
      translatedCollections w.heap w.operation.collectionsConfig ≠ .ok collections) :
    sentBy (w.assign protos init_required) = none := by
  rcases assignPolicy_spec protos w with ⟨err, _, assigned⟩ | ⟨policy, translated, assigned⟩
  · simp only [assign, assigned]
    rfl
  · have step := assignConfigs_spec (w.setProposal { w.operation.proposal with
      validation_parameter := policy.or w.operation.proposal.validation_parameter })
    rcases step with ⟨err, heap, _, assigned'⟩ | ⟨collections, heap, translated', _⟩
    · simp only [assign, assigned, assigned']
      rfl
    · exact absurd translated' (h policy collections translated)

/-- Two alike configs are assigned alike, and build the same collection unless the caller set no
`endorsementPolicy` and their written policies differ. -/
theorem assignConfig_pair (h : Alike config config') :
    (∃ err, assignConfig config = .error err ∧ assignConfig config' = .error err) ∨
      ∃ assigned assigned', assignConfig config = .ok assigned ∧
        assignConfig config' = .ok assigned' ∧ ∀ name,
          (SideDB.buildCollectionConfig name assigned =
              SideDB.buildCollectionConfig name assigned' ↔
            (config'.endorsementPolicy = none →
              config.endorsement_policy.map SideDB.collectionPolicy =
                config'.endorsement_policy.map SideDB.collectionPolicy)) := by
  obtain ⟨identities, required, maximum, live, write, read, policy, written⟩ := config
  obtain ⟨_, _, _, _, _, _, policy', written'⟩ := config'
  simp only [Alike, CollectionSetting.mk.injEq, and_true] at h
  obtain ⟨rfl, rfl, rfl, rfl, rfl, rfl, rfl⟩ := h
  cases policy with
  | none =>
    refine Or.inr ⟨_, _, rfl, rfl, fun name => ?_⟩
    simp [SideDB.buildCollectionConfig]
  | some policy =>
    cases built : applicationPolicyBuilder policy with
    | error err =>
      refine Or.inl ⟨err, ?_, ?_⟩ <;> simp only [assignConfig, built, Except.map]
    | ok applicationPolicy =>
      have assigned : ∀ written,
          assignConfig ⟨identities, required, maximum, live, write, read, some policy, written⟩ =
            .ok ⟨identities, required, maximum, live, write, read, some policy,
              some applicationPolicy⟩ := by
        intro written
        simp only [assignConfig, built, Except.map]
      refine Or.inr ⟨_, _, assigned written, assigned written', fun name => ?_⟩
      simp

theorem translatedConfigs_pair {heap heap' : ConfigHeap} (h : ∀ ref, Alike (heap ref) (heap' ref))
    (entries : List (Text × ConfigRef)) :
    (∃ err, translatedConfigs heap entries = .error err ∧
      translatedConfigs heap' entries = .error err) ∨
      ∃ configs configs', translatedConfigs heap entries = .ok configs ∧
        translatedConfigs heap' entries = .ok configs' ∧
        (configs = configs' ↔ Untouched heap heap' entries) := by
  induction entries with
  | nil => exact Or.inr ⟨[], [], rfl, rfl, by simp [Untouched]⟩
  | cons entry entries ih =>
    obtain ⟨name, ref⟩ := entry
    simp only [translatedConfigs]
    rcases assignConfig_pair (h ref) with ⟨err, eq, eq'⟩ | ⟨assigned, assigned', eq, eq', same⟩
    · simp only [eq, eq']
      exact Or.inl ⟨err, rfl, rfl⟩
    · simp only [eq, eq']
      rcases ih with ⟨err, rest, rest'⟩ | ⟨configs, configs', rest, rest', all⟩
      · simp only [rest, rest']
        exact Or.inl ⟨err, rfl, rfl⟩
      · simp only [rest, rest']
        refine Or.inr ⟨_, _, rfl, rfl, ?_⟩
        rw [List.cons_eq_cons, same name, all]
        simp [Untouched]

theorem translatedCollections_pair (h : Follows g w) :
    (∃ err, translatedCollections w.heap w.operation.collectionsConfig = .error err ∧
      translatedCollections g.heap g.collectionsConfig = .error err) ∨
      ∃ collections collections',
        translatedCollections w.heap w.operation.collectionsConfig = .ok collections ∧
        translatedCollections g.heap g.collectionsConfig = .ok collections' ∧
        (collections = none ↔ g.collectionsConfig = none) ∧
        (collections' = none ↔ g.collectionsConfig = none) ∧
        (collections = collections' ↔ ∀ entries, g.collectionsConfig = some entries →
          Untouched w.heap g.heap entries) := by
  rw [h.collectionsConfig]
  cases g.collectionsConfig with
  | none => exact Or.inr ⟨none, none, rfl, rfl, by simp, by simp, by simp⟩
  | some entries =>
    simp only [translatedCollections]
    rcases translatedConfigs_pair h.heap entries with
      ⟨err, eq, eq'⟩ | ⟨configs, configs', eq, eq', same⟩
    · simp only [eq, eq']
      exact Or.inl ⟨err, rfl, rfl⟩
    · simp only [eq, eq']
      refine Or.inr ⟨_, _, rfl, rfl, by simp, by simp, ?_⟩
      simp [same]

theorem translatedPolicy_none {policy : Option Buffer}
    {endorsementPolicy : Option EndorsementPolicy}
    (h : translatedPolicy protos endorsementPolicy = .ok policy) :
    policy = none ↔ endorsementPolicy = none := by
  cases endorsementPolicy with
  | none => cases Except.ok.inj h; simp
  | some endorsementPolicy =>
    unfold translatedPolicy at h
    cases built : applicationPolicyBuilder endorsementPolicy with
    | error err => simp [built, Except.map] at h
    | ok applicationPolicy =>
      simp only [built, Except.map, Except.ok.injEq] at h
      subst h
      simp

theorem or_eq_self_iff {α : Type} {a b : Option α} : a.or b = a ↔ (a = none → b = none) := by
  cases a <;> simp

theorem sentBy_untranslated (h : Follows g w) (none' : ¬ g.Translates protos)
    (init_required : Option Bool) : sentBy (w.assign protos init_required) = none := by
  apply sentBy_assign_untranslated
  rw [h.endorsementPolicy]
  intro policy collections hpolicy hcollections
  rcases translatedCollections_pair h with ⟨err, eq, _⟩ | ⟨_, collections', _, eq', _⟩
  · cases eq.symm.trans hcollections
  · exact none' ⟨policy, collections', hpolicy, eq'⟩

/-- The collections that a call sends are those of a new operation when no package is left over and
the configs still translate as the caller gave them. -/
theorem sentCollections_iff {collections collections' : Option (List StaticCollectionConfig)}
    (off : collections = none ↔ g.collectionsConfig = none)
    (off' : collections' = none ↔ g.collectionsConfig = none)
    (same : collections = collections' ↔ ∀ entries, g.collectionsConfig = some entries →
      Untouched w.heap g.heap entries) (package : Option (List StaticCollectionConfig)) :
    collections.or package = collections' ↔ (g.collectionsConfig = none → package = none) ∧
      ∀ entries, g.collectionsConfig = some entries → Untouched w.heap g.heap entries := by
  rw [← same, ← off']
  cases collections with
  | none =>
    have unset : collections' = none := off'.mpr (off.mp rfl)
    subst unset
    simp
  | some configs =>
    have set : collections' ≠ none := by
      intro unset
      cases off.mpr (off'.mp unset)
    simp [set]

theorem sentBy_iff (h : Follows g w) (init_required : Option Bool) :
    sentBy (w.assign protos init_required) = sentBy (g.world.assign protos init_required) ↔
      (g.Translates protos → InForce w g) := by
  by_cases translates : g.Translates protos
  · obtain ⟨sent, collections', policy, eq'⟩ := translates
    rcases translatedCollections_pair h with
      ⟨err, _, error⟩ | ⟨collections, collections'', eq, eq'', off, off', same⟩
    · cases error.symm.trans eq'
    · cases Except.ok.inj (eq''.symm.trans eq')
      have parameter : sent.or w.operation.proposal.validation_parameter = sent ↔
          (g.endorsementPolicy = none →
            w.operation.proposal.validation_parameter = none) := by
        rw [or_eq_self_iff, translatedPolicy_none policy]
      have package := sentCollections_iff off off' same
        w.operation.proposal.collectionConfigPackage
      have called := sentBy_assign (h.endorsementPolicy ▸ policy) eq init_required
      have fresh : sentBy (g.world.assign protos init_required) =
          some ⟨sent, collections', if init_required.getD false then some true else none⟩ := by
        simpa [LifecycleSettings.world, LifecycleProposal.fresh] using
          sentBy_assign (w := g.world) policy eq' init_required
      rw [called, fresh]
      simp only [Option.some.injEq, SentSettings.mk.injEq, and_true, parameter, package]
      constructor
      · intro held _
        exact ⟨held.1, held.2.1, held.2.2⟩
      · intro inForce
        have held := inForce ⟨sent, collections', policy, eq'⟩
        exact ⟨held.policy, held.collections, held.configs⟩
  · have own : Follows g g.world := ⟨rfl, rfl, fun _ => rfl⟩
    rw [sentBy_untranslated h translates, sentBy_untranslated own translates]
    simp [translates]

end

theorem after_follows (protos : LifecycleProtos) (heap : ConfigHeap) (xs : List LifecycleStep) :
    Follows (settingsAfter heap xs) ((fresh heap).after protos xs) := by
  have alike : ∀ config, Alike config config := fun _ => rfl
  exact StepRun.foldl_simulates (R := fun (w : LifecycleWorld) g => Follows g w)
    (fun _ _ x h => step_follows h x) ⟨rfl, rfl, fun ref => alike (heap ref)⟩ xs

/-- Every call of a run sends what a new operation with the settings in force would send. -/
def SendsSettings (protos : LifecycleProtos) (heap : ConfigHeap) (xs : List LifecycleStep) :
    Prop :=
  ∀ before x rest, xs = before ++ x :: rest →
    (((fresh heap).after protos before).outcome protos x).settings =
      ((settingsAfter heap before).world.outcome protos x).settings

theorem sendsSettings_iff (protos : LifecycleProtos) (heap : ConfigHeap)
    (xs : List LifecycleStep) :
    SendsSettings protos heap xs ↔
      ∀ before x rest, xs = before ++ x :: rest → x.definition.isSome →
        (settingsAfter heap before).Translates protos →
        InForce ((fresh heap).after protos before) (settingsAfter heap before) := by
  constructor
  · intro sends before x rest eq calls
    have same := sends before x rest eq
    obtain ⟨init_required, call⟩ := Option.isSome_iff_exists.mp calls
    rw [outcome_settings, outcome_settings, call] at same
    exact (sentBy_iff (after_follows protos heap before) init_required).mp same
  · intro inForce before x rest eq
    rw [outcome_settings, outcome_settings]
    cases call : x.definition with
    | none => rfl
    | some init_required =>
      have condition := inForce before x rest eq (by rw [call]; rfl)
      exact (sentBy_iff (after_follows protos heap before) init_required).mpr condition

/-- The endorsement policy is cleared between a readiness check and the commit. -/
def clearedPolicy : List LifecycleStep :=
  [.setEndorsementPolicy (some ⟨none, none, some "Endorsement".toList⟩),
   .checkCommitReadiness ⟨some "cc", 1, none, none⟩ ⟨.error "", [], .ok ()⟩,
   .setEndorsementPolicy none,
   .commitChaincodeDefinition ⟨some "cc", 1, none, none⟩ ⟨.error "", [], .ok ()⟩]

theorem commit_sends_cleared_policy :
    ¬ SendsSettings emptyProtos emptyConfigs clearedPolicy := by
  intro sends
  have same := sends (clearedPolicy.take 3) _ [] rfl
  have parameter := congrArg (fun sent => sent.bind (·.validation_parameter)) same
  cases parameter

end FabricCommon
