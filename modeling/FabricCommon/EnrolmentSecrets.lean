import FabricCommon.CaAttempts
import FabricCommon.CaEnrolment
import FabricCommon.CaRegistry

namespace FabricCommon

open RequestRun CheckThenCreate
open CaAction (send)

variable {S α : Type}

/-- A secret that the caller has supplied, or that the CA has answered a create request with. -/
def KnownSecret (supplied : Option String) (before : List (Sigma CaAction.Reply))
    (secret : Option String) : Prop :=
  ∃ value, secret = some value ∧
    (supplied = some value ∨ ∃ req registrar,
      (⟨.createIdentity req registrar, .ok value⟩ : Sigma CaAction.Reply) ∈ before)

/-- An enroll request carries a known secret. -/
def EnrolsKnown (supplied : Option String) (before : List (Sigma CaAction.Reply)) :
    Sigma CaAction.Reply → Prop
  | ⟨.enroll req _, _⟩ => KnownSecret supplied before req.enrollmentSecret
  | _ => True

/-- The CA knows the identity and the caller has no secret for it. -/
def Forgotten (registry : S → String → Option String) (s : S) (id : String)
    (supplied : Option String) : Prop :=
  truthy supplied = false ∧ registry s id ≠ none

variable {serve : CaServer S} {registry : S → String → Option String} {supplied : Option String}
  {before : List (Sigma CaAction.Reply)} {s : S}

theorem forgotten_congr {s' : S} (same : registry s' = registry s) (id : String) :
    Forgotten registry s' id supplied ↔ Forgotten registry s id supplied := by
  unfold Forgotten
  rw [same]

theorem KnownSecret.mono {secret : Option String} (known : KnownSecret supplied before secret)
    (more : List (Sigma CaAction.Reply)) : KnownSecret supplied (before ++ more) secret := by
  obtain ⟨value, rfl, source⟩ := known
  refine ⟨value, rfl, source.imp_right ?_⟩
  intro created
  obtain ⟨req, registrar, created⟩ := created
  exact ⟨req, registrar, List.mem_append_left more created⟩

/-- How a run of `createIfNotExist` from `s` can end, and what it leaves at the CA. -/
inductive CreationRan (registry : S → String → Option String) (s : S) (options : IdentityOptions)
    (registrar : User) (ran : Ran S CaAction.Reply (Except CaError (Option String))) : Prop where
  | existed (known : registry s options.enrollmentID ≠ none)
      (keeps : registry ran.state = registry s) (value : ran.value = .ok none)
  | failed (absent : registry s options.enrollmentID = none) (e : CaError)
      (value : ran.value = .error e)
  | created (absent : registry s options.enrollmentID = none) (secret : String)
      (registers : registry ran.state =
        Function.update (registry s) options.enrollmentID (some secret))
      (assigns : truthy options.enrollmentSecret = true → options.enrollmentSecret = some secret)
      (sent : (⟨.createIdentity options.req registrar, .ok secret⟩ : Sigma CaAction.Reply) ∈
        ran.exchanges)
      (value : ran.value = .ok (some secret))

theorem some_of_truthy {secret : Option String} (given : truthy secret = true) :
    ∃ value, secret = some value := by
  cases secret with
  | none => cases given
  | some value => exact ⟨value, rfl⟩

/-- What must hold after each answer of a step, when it is at stake after one of them only. -/
theorem only_answer {reply : Except CaError α} {a : α} {p : α → Prop} {fails : Prop}
    (others : ∀ b, b ≠ a → p b) (this : p a ↔ ¬ fails) :
    (∀ b, reply = .ok b → p b) ↔ ¬ (reply = .ok a ∧ fails) := by
  constructor
  · intro h both
    exact this.mp (h a both.1) both.2
  · intro fine b answered
    by_cases same : b = a
    · rw [same] at answered ⊢
      exact this.mpr fun failing => fine ⟨answered, failing⟩
    · exact others b same

section Registrations

variable (service : IdentityServiceWrapper) (options : IdentityOptions)

/-- A call of `createIfNotExist` enrols nobody. -/
theorem createIfNotExist_quiet (s : S) :
    ∀ x ∈ ((service.createIfNotExist options).run.exec serve s).exchanges,
      ∀ before, EnrolsKnown supplied before x := by
  rw [service.createIfNotExist_run]
  rcases (service.attempt options).exec_exchanges serve s with one | two
  · rw [one]
    simp [EnrolsKnown, IdentityServiceWrapper.attempt]
  · rw [two]
    simp [EnrolsKnown, IdentityServiceWrapper.attempt]

variable (ca : IdentityLaws serve registry)

include ca

theorem createIfNotExist_ran (s : S) :
    CreationRan registry s options service.registrar
      ((service.createIfNotExist options).run.exec serve s) := by
  have looked := ca.others_keep (.getIdentity options.enrollmentID service.registrar) s (by simp)
  rw [service.createIfNotExist_run]
  by_cases absent : registry s options.enrollmentID = none
  · obtain ⟨e, missed, missing⟩ := ca.lookup_absent options.enrollmentID service.registrar s
      absent
    have held := heldOf_absent (fun _ => (none : Option String)) missed missing
    cases refused : service.roleError options.role with
    | some err =>
      rw [Attempt.exec_refused held refused]
      exact .failed absent err rfl
    | none =>
      rw [Attempt.exec_created held refused]
      cases made : (serve (.createIdentity options.req service.registrar)
        (serve (.getIdentity options.enrollmentID service.registrar) s).2).1 with
      | error e => exact .failed absent e (congrArg (Except.map some) made)
      | ok secret =>
        have registers := ca.create_registers options.req service.registrar _ secret made
        rw [looked] at registers
        refine .created absent secret registers ?_ ?_ (congrArg (Except.map some) made)
        · exact ca.create_assigns options.req service.registrar _ secret made
        · rw [← made]
          exact List.mem_cons_of_mem _ List.mem_cons_self
  · obtain ⟨response, answered, result⟩ := ca.lookup_registered options.enrollmentID
      service.registrar s absent
    obtain ⟨entry, held⟩ := heldOf_present (fun _ => (none : Option String)) answered result
    rw [Attempt.exec_held held]
    exact .existed absent looked rfl

end Registrations

section Reports

variable {gen : CryptoGen} {admin : User} {options : RegisterOptions}

/-- The call of `createIfNotExist` that a registration makes. -/
def RegisterOptions.identity (options : RegisterOptions) : IdentityOptions :=
  ⟨options.enrollmentID, options.enrollmentSecret, options.affiliation, options.role,
    options.attrs, none, none⟩

theorem registerIfNotExist_exec (gen : CryptoGen) (admin : User) (options : RegisterOptions)
    (s : S) :
    (gen.registerIfNotExist admin options).run.exec serve s =
      let service : IdentityServiceWrapper := ⟨admin, gen.allowedType⟩
      let made := (service.createIfNotExist options.identity).run.exec serve s
      ⟨made.state, made.exchanges,
        made.value.map (CryptoGen.report options.enrollmentID options.enrollmentSecret)⟩ :=
  exec_map _ _ s

theorem report_of_missing {id : String} {secret : Option String}
    (missing : truthy supplied = false) :
    CryptoGen.report id supplied secret = ⟨id, secret, .generated⟩ := by
  simp [CryptoGen.report, missing]

theorem report_of_existing {id : String} (given : truthy supplied = true) :
    CryptoGen.report id supplied none = ⟨id, supplied, .existed⟩ := by
  have nothing : truthy none = false := rfl
  simp [CryptoGen.report, given, nothing]

theorem report_of_created (id : String) {secret : String}
    (assigns : truthy supplied = true → supplied = some secret) :
    ∃ status, (status = .assigned ∨ status = .generated) ∧
      CryptoGen.report id supplied (some secret) = ⟨id, some secret, status⟩ := by
  cases given : truthy supplied with
  | true =>
    obtain rfl := assigns given
    exact ⟨.assigned, Or.inl rfl, by simp [CryptoGen.report, given]⟩
  | false => exact ⟨.generated, Or.inr rfl, report_of_missing given⟩

/-- How a run of `registerIfNotExist` from `s` can end. Without a secret of the caller's, the report
on a registered identity is that of a new one. -/
inductive RegistrationRan (registry : S → String → Option String) (s : S)
    (options : RegisterOptions) (registrar : User)
    (ran : Ran S CaAction.Reply (Except CaError Registration)) : Prop where
  | existed (known : registry s options.enrollmentID ≠ none)
      (keeps : registry ran.state = registry s) (secret : String)
      (given : truthy options.enrollmentSecret = true)
      (supplied : options.enrollmentSecret = some secret)
      (value : ran.value = .ok ⟨options.enrollmentID, some secret, .existed⟩)
  | forgotten (known : registry s options.enrollmentID ≠ none)
      (missing : truthy options.enrollmentSecret = false)
      (value : ran.value = .ok ⟨options.enrollmentID, none, .generated⟩)
  | failed (absent : registry s options.enrollmentID = none) (e : CaError)
      (value : ran.value = .error e)
  | created (absent : registry s options.enrollmentID = none) (secret : String)
      (status : RegisterStatus) (fresh : status = .assigned ∨ status = .generated)
      (registers : registry ran.state =
        Function.update (registry s) options.enrollmentID (some secret))
      (sent : (⟨.createIdentity options.identity.req registrar, .ok secret⟩ :
        Sigma CaAction.Reply) ∈ ran.exchanges)
      (value : ran.value = .ok ⟨options.enrollmentID, some secret, status⟩)

theorem registerIfNotExist_ran (ca : IdentityLaws serve registry) (gen : CryptoGen)
    (admin : User) (options : RegisterOptions) (s : S) :
    RegistrationRan registry s options admin
      ((gen.registerIfNotExist admin options).run.exec serve s) := by
  rw [registerIfNotExist_exec]
  cases createIfNotExist_ran ⟨admin, gen.allowedType⟩ options.identity ca s with
  | existed known keeps value =>
    cases given : truthy options.enrollmentSecret with
    | true =>
      obtain ⟨secret, supplied⟩ := some_of_truthy given
      refine .existed known keeps secret given supplied ?_
      dsimp only
      rw [value, ← supplied]
      exact congrArg Except.ok (report_of_existing given)
    | false =>
      refine .forgotten known given ?_
      dsimp only
      rw [value]
      exact congrArg Except.ok (report_of_missing given)
  | failed absent e value =>
    refine .failed absent e ?_
    dsimp only
    rw [value]
    rfl
  | created absent secret registers assigns sent value =>
    obtain ⟨status, fresh, reported⟩ := report_of_created options.enrollmentID assigns
    refine .created absent secret status fresh registers sent ?_
    dsimp only
    rw [value]
    exact congrArg Except.ok reported

/-- The report tells what the call has done at the CA. -/
def ReportsTruly (registry : S → String → Option String) (s : S) (id : String)
    (ran : Ran S CaAction.Reply (Except CaError Registration)) : Prop :=
  ∀ report, ran.value = .ok report →
    (report.status = .existed ↔ registry s id ≠ none) ∧
    (report.status = .existed → registry ran.state = registry s) ∧
    (report.status = .assigned ∨ report.status = .generated ↔
      ∃ secret, report.enrollmentSecret = some secret ∧ registry s id = none ∧
        registry ran.state = Function.update (registry s) id (some secret))

theorem reportsTruly_iff (ca : IdentityLaws serve registry) (gen : CryptoGen) (admin : User)
    (options : RegisterOptions) (s : S) :
    ReportsTruly registry s options.enrollmentID
        ((gen.registerIfNotExist admin options).run.exec serve s) ↔
      ¬ Forgotten registry s options.enrollmentID options.enrollmentSecret := by
  cases registerIfNotExist_ran ca gen admin options s with
  | existed known keeps secret given supplied value =>
    refine iff_of_true ?_ ?_
    · intro report ended
      obtain rfl := Except.ok.inj (value.symm.trans ended)
      simp [known, keeps]
    · exact fun forgotten => absurd (given.symm.trans forgotten.1) (by simp)
  | forgotten known missing value =>
    refine iff_of_false ?_ ?_
    · intro truly
      have told := (truly _ value).1.mpr known
      cases told
    · exact fun fine => fine ⟨missing, known⟩
  | failed absent e value =>
    refine iff_of_true ?_ ?_
    · exact fun report ended => by cases value.symm.trans ended
    · exact fun forgotten => forgotten.2 absent
  | created absent secret status fresh registers sent value =>
    refine iff_of_true ?_ ?_
    · intro report ended
      obtain rfl := Except.ok.inj (value.symm.trans ended)
      rcases fresh with rfl | rfl
      · simp [absent, registers]
      · simp [absent, registers]
    · exact fun forgotten => forgotten.2 absent

end Reports

section Enrolments

/-- An action that enrols nobody. -/
def Quiet (action : CaAction) : Prop :=
  ∀ supplied before reply, EnrolsKnown supplied before ⟨action, reply⟩

variable {req : EnrollmentRequest} {dns : List String}

theorem sends_quiet {action : CaAction} (quiet : Quiet action) :
    Sends serve (EnrolsKnown supplied) before (send action) s :=
  (sends_ask (k := id)).mpr (quiet supplied before _)

theorem sends_quiet_then {action : CaAction} (quiet : Quiet action)
    {next : action.Value → CaM α} :
    Sends serve (EnrolsKnown supplied) before (send action >>= next) s ↔
      ∀ a : action.Value, (serve action s).1 = .ok a →
        Sends serve (EnrolsKnown supplied) (before ++ [⟨action, (serve action s).1⟩]) (next a)
          (serve action s).2 :=
  sends_bind.trans (and_iff_right (sends_quiet quiet))

theorem sends_enroll :
    Sends serve (EnrolsKnown supplied) before (send (.enroll req dns)) s ↔
      KnownSecret supplied before req.enrollmentSecret :=
  sends_ask (k := id)

/-- An enrolment and what follows it, when that is sound once the secret is known. -/
theorem sends_enroll_then {next : Enrollment → CaM α}
    (rest : ∀ more result s, KnownSecret supplied (before ++ more) req.enrollmentSecret →
      Sends serve (EnrolsKnown supplied) (before ++ more) (next result) s) :
    Sends serve (EnrolsKnown supplied) before (send (.enroll req dns) >>= next) s ↔
      KnownSecret supplied before req.enrollmentSecret := by
  refine sends_bind.trans ?_
  constructor
  · intro h
    exact sends_enroll.mp h.1
  · intro known
    exact ⟨sends_enroll.mpr known, fun result _ => rest _ result _ (known.mono _)⟩

theorem sends_register (gen : CryptoGen) (admin : User) (options : RegisterOptions) :
    Sends serve (EnrolsKnown supplied) before (gen.registerIfNotExist admin options) s := by
  unfold Sends
  rw [registerIfNotExist_exec]
  exact StepRun.eachAfter_of_forall fun x sent earlier =>
    createIfNotExist_quiet _ options.identity s x sent (before ++ earlier)

/-- A registration and what follows it, when that starts with an enrolment. -/
theorem sends_register_then (ca : IdentityLaws serve registry) (gen : CryptoGen) (admin : User)
    (options : RegisterOptions) {next : Registration → CaM α}
    (enrols : ∀ registered before s,
      Sends serve (EnrolsKnown options.enrollmentSecret) before (next registered) s ↔
        KnownSecret options.enrollmentSecret before registered.enrollmentSecret) :
    Sends serve (EnrolsKnown options.enrollmentSecret) before
        (gen.registerIfNotExist admin options >>= next) s ↔
      ¬ Forgotten registry s options.enrollmentID options.enrollmentSecret := by
  refine sends_bind.trans ((and_iff_right (sends_register gen admin options)).trans ?_)
  simp only [enrols]
  cases registerIfNotExist_ran ca gen admin options s with
  | existed known keeps secret given supplied value =>
    refine iff_of_true ?_ ?_
    · intro registered ended
      obtain rfl := Except.ok.inj (value.symm.trans ended)
      exact ⟨secret, rfl, Or.inl supplied⟩
    · exact fun forgotten => absurd (given.symm.trans forgotten.1) (by simp)
  | forgotten known missing value =>
    refine iff_of_false ?_ ?_
    · intro enrolled
      obtain ⟨secret, none_some, -⟩ := enrolled _ value
      cases none_some
    · exact fun fine => fine ⟨missing, known⟩
  | failed absent e value =>
    refine iff_of_true ?_ ?_
    · exact fun registered ended => by cases value.symm.trans ended
    · exact fun forgotten => forgotten.2 absent
  | created absent secret status fresh registers sent value =>
    refine iff_of_true ?_ ?_
    · intro registered ended
      obtain rfl := Except.ok.inj (value.symm.trans ended)
      exact ⟨secret, rfl, Or.inr ⟨_, _, List.mem_append_right before sent⟩⟩
    · exact fun forgotten => forgotten.2 absent

/-- The generation of a node finds no crypto of its own and gets to its registration. -/
def GetsToRegistration (serve : CaServer S) (s : S) (admin : User) (type : NodeType) : Prop :=
  let exist : CaAction := .cryptoExistLocal (.node type)
  (serve exist s).1 = .ok false ∧
    (serve (.toAdminCerts admin.certificate (.node type)) (serve exist s).2).1 = .ok ()

/-- Each enroll request of the call carries a known secret. -/
def EnrolsWithKnownSecret (serve : CaServer S) (supplied : Option String) (call : CaM α) (s : S) :
    Prop :=
  Sends serve (EnrolsKnown supplied) [] call s

variable (ca : IdentityLaws serve registry) (gen : CryptoGen) (admin : User) (s : S)

include ca

theorem genClientKeyPair_iff (enrollmentID : String)
    (enrollmentSecret affiliationRoot : Option String) :
    EnrolsWithKnownSecret serve enrollmentSecret
        (gen.genClientKeyPair admin enrollmentID enrollmentSecret affiliationRoot) s ↔
      ¬ Forgotten registry s enrollmentID enrollmentSecret := by
  unfold EnrolsWithKnownSecret CryptoGen.genClientKeyPair
  exact sends_register_then ca gen admin _ fun registered before s => sends_enroll

theorem genUser_iff (nodeType : NodeType) :
    EnrolsWithKnownSecret serve gen.password (gen.genUser admin nodeType) s ↔
      ¬ ((serve (.loadFromLocal nodeType admin.mspId) s).1 = .ok none ∧
        Forgotten registry s (gen.userHostName nodeType) gen.password) := by
  have loads : Quiet (.loadFromLocal nodeType admin.mspId) := fun _ _ _ => trivial
  have kept := ca.others_keep (.loadFromLocal nodeType admin.mspId) s (by simp)
  rw [← forgotten_congr kept]
  refine (sends_quiet_then loads).trans (only_answer ?_ ?_)
  · intro user present
    cases user with
    | some user => exact sends_pure _
    | none => exact absurd rfl present
  · refine sends_register_then ca gen admin _ fun registered before s => ?_
    refine sends_enroll_then fun more result s known => ?_
    have writes : Quiet (.toMSP result (.user nodeType)) := fun _ _ _ => trivial
    exact (sends_quiet_then writes).mpr fun _ _ => sends_quiet loads

/-- What `genOrderer` and `genPeer` do before their registration. -/
theorem sends_node_then (type : NodeType) {id : String} {rest : CaM α} {nothing : α}
    (registers : ∀ before s, Sends serve (EnrolsKnown supplied) before rest s ↔
      ¬ Forgotten registry s id supplied) :
    EnrolsWithKnownSecret serve supplied
        (do
          let exist : Bool ← send (.cryptoExistLocal (.node type))
          if exist then return nothing
          else
            send (.toAdminCerts admin.certificate (.node type))
            rest) s ↔
      ¬ (GetsToRegistration serve s admin type ∧ Forgotten registry s id supplied) := by
  have looks : Quiet (.cryptoExistLocal (.node type)) := fun _ _ _ => trivial
  have certifies : Quiet (.toAdminCerts admin.certificate (.node type)) := fun _ _ _ => trivial
  have looked := ca.others_keep (.cryptoExistLocal (.node type)) s (by simp)
  have certified := ca.others_keep (.toAdminCerts admin.certificate (.node type))
    (serve (.cryptoExistLocal (.node type)) s).2 (by simp)
  rw [← forgotten_congr (certified.trans looked)]
  unfold GetsToRegistration
  rw [and_assoc]
  refine (sends_quiet_then looks).trans (only_answer ?_ ?_)
  · intro exist present
    cases exist with
    | true => exact sends_pure _
    | false => exact absurd rfl present
  · refine (sends_quiet_then certifies).trans (only_answer (fun _ present => ?_) ?_)
    · exact absurd rfl present
    · exact registers _ _

theorem genOrderer_iff (affiliationRoot : Option String) :
    EnrolsWithKnownSecret serve gen.password (gen.genOrderer admin affiliationRoot) s ↔
      ¬ (GetsToRegistration serve s admin .orderer ∧
        Forgotten registry s (gen.hostName .orderer) gen.password) := by
  refine sends_node_then ca admin s .orderer fun before s => ?_
  refine sends_register_then ca gen admin _ fun registered before s => ?_
  refine sends_enroll_then fun more result s known => ?_
  have writes : Quiet (.toMSP result (.node .orderer)) := fun _ _ _ => trivial
  refine (sends_quiet_then writes).mpr fun _ _ => ?_
  refine (sends_enroll_then fun more tlsResult s known => ?_).mpr (known.mono _)
  have writes : Quiet (.toTLS tlsResult (.node .orderer)) := fun _ _ _ => trivial
  exact (sends_quiet_then writes).mpr fun _ _ => sends_pure _

theorem genPeer_iff :
    EnrolsWithKnownSecret serve gen.password (gen.genPeer admin) s ↔
      ¬ (GetsToRegistration serve s admin .peer ∧
        Forgotten registry s (gen.hostName .peer) gen.password) := by
  refine sends_node_then ca admin s .peer fun before s => ?_
  refine sends_register_then ca gen admin _ fun registered before s => ?_
  refine sends_enroll_then fun more result s known => ?_
  have writes : Quiet (.toMSP result (.node .peer)) := fun _ _ _ => trivial
  refine (sends_quiet_then writes).mpr fun _ _ => ?_
  cases gen.TLS with
  | true =>
    refine (sends_enroll_then fun more tlsResult s known => ?_).mpr (known.mono _)
    have writes : Quiet (.toTLS tlsResult (.node .peer)) := fun _ _ _ => trivial
    exact sends_quiet writes
  | false => exact sends_pure ()

/-- Registrations report truly and generations enrol with a known secret, except where the CA
knows an identity that the caller has no secret for. -/
theorem enrolsWithKnownSecret_iff :
    (∀ options, ReportsTruly registry s options.enrollmentID
        ((gen.registerIfNotExist admin options).run.exec serve s) ↔
      ¬ Forgotten registry s options.enrollmentID options.enrollmentSecret) ∧
    (∀ affiliationRoot, EnrolsWithKnownSecret serve gen.password
        (gen.genOrderer admin affiliationRoot) s ↔
      ¬ (GetsToRegistration serve s admin .orderer ∧
        Forgotten registry s (gen.hostName .orderer) gen.password)) ∧
    (EnrolsWithKnownSecret serve gen.password (gen.genPeer admin) s ↔
      ¬ (GetsToRegistration serve s admin .peer ∧
        Forgotten registry s (gen.hostName .peer) gen.password)) ∧
    (∀ nodeType, EnrolsWithKnownSecret serve gen.password (gen.genUser admin nodeType) s ↔
      ¬ ((serve (.loadFromLocal nodeType admin.mspId) s).1 = .ok none ∧
        Forgotten registry s (gen.userHostName nodeType) gen.password)) ∧
    (∀ enrollmentID enrollmentSecret affiliationRoot,
      EnrolsWithKnownSecret serve enrollmentSecret
          (gen.genClientKeyPair admin enrollmentID enrollmentSecret affiliationRoot) s ↔
        ¬ Forgotten registry s enrollmentID enrollmentSecret) := by
  refine ⟨?_, ?_, ?_, ?_, ?_⟩
  · exact fun options => reportsTruly_iff ca gen admin options s
  · exact genOrderer_iff ca gen admin s
  · exact genPeer_iff ca gen admin s
  · exact genUser_iff ca gen admin s
  · exact genClientKeyPair_iff ca gen admin s

end Enrolments

/-- A peer without a configured password. -/
def passwordless : CryptoGen where
  orgName := fun _ => "org1"
  hostName := fun _ => "peer0.org1"
  userHostName := fun _ => "admin@org1"
  password := none
  TLS := false
  allowedType := ["peer", "orderer", "client", "user"]

def org1Admin : User := ⟨"admin", "Org1MSP", "certificate"⟩

theorem enrolsWithKnownSecret_iff_new :
    EnrolsWithKnownSecret CaRegistry.serve none (passwordless.genPeer org1Admin)
      (CaRegistry.mk [] []) := by
  have sound := enrolsWithKnownSecret_iff CaRegistry.identityLaws passwordless org1Admin
    (CaRegistry.mk [] [])
  refine sound.2.2.1.mpr ?_
  intro lost
  exact lost.2.2 rfl

/-- A CA that knows the peer, whose local crypto is lost. -/
def knownPeer : CaRegistry := ⟨[("peer0.org1", "pw")], []⟩

/-- The peer is enrolled without a secret, and the report on it says that one was generated. -/
theorem not_enrolsWithKnownSecret_lost :
    ¬ EnrolsWithKnownSecret CaRegistry.serve none (passwordless.genPeer org1Admin) knownPeer ∧
      ¬ ReportsTruly CaRegistry.secretOf knownPeer "peer0.org1"
        ((passwordless.registerIfNotExist org1Admin
          ⟨"peer0.org1", none, some "org1.peer", some "peer", none⟩).run.exec
            CaRegistry.serve knownPeer) := by
  have known : CaRegistry.secretOf knownPeer "peer0.org1" ≠ none := by decide
  constructor
  · intro sound
    have fine := (genPeer_iff CaRegistry.identityLaws passwordless org1Admin knownPeer).mp sound
    exact fine ⟨⟨rfl, rfl⟩, rfl, known⟩
  · intro truly
    have told := truly ⟨"peer0.org1", none, .generated⟩ rfl
    cases told.1.mpr known

end FabricCommon
