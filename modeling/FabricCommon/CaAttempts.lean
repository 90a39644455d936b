import FabricCommon.CaServices

namespace FabricCommon

open RequestRun CheckThenCreate
open CaAction (send)

theorem send_map {α : Type} (action : CaAction) (f : action.Value → α) :
    (do return f (← send action) : CaM α) =
      ExceptT.mk (.ask action fun reply : Except CaError action.Value => .done (reply.map f)) := by
  show Proc.ask _ _ = Proc.ask _ _
  congr 1
  funext reply
  cases reply <;> rfl

section Attempts

variable {α β : Type}

/-- What `getOne` makes of the reply to its lookup. -/
def found (absent : CaError → Bool) (reply : Except CaError (ServiceResponse β)) :
    Except CaError (Option β) :=
  match reply with
  | .ok response => .ok response.result
  | .error e => if absent e then .ok none else .error e

theorem existing_run (absent : CaError → Bool) (reply : Except CaError (ServiceResponse β)) :
    (existing absent (ExceptT.mk (Proc.done reply))).run = .done (found absent reply) := by
  cases reply with
  | ok response => rfl
  | error e =>
    show ExceptT.run (if absent e then pure none else throw e) =
      Proc.done (if absent e then .ok none else .error e)
    split
    · rfl
    · rfl

/-- How a `createIfNotExist` ends after its lookup, `shown` being what it returns of an entry. -/
def heldOf {R : Type} (read : R → Except CaError (Option β)) (shown : β → α) (reply : R) :
    Option (Except CaError α) :=
  match read reply with
  | .ok (some entry) => some (.ok (shown entry))
  | .ok none => none
  | .error e => some (.error e)

theorem heldOf_present {absent : CaError → Bool} (shown : β → α)
    {reply : Except CaError (ServiceResponse β)} {response : ServiceResponse β}
    (answered : reply = .ok response) (there : response.result ≠ none) :
    ∃ entry, heldOf (found absent) shown reply = some (.ok (shown entry)) := by
  obtain ⟨entry, result⟩ := Option.ne_none_iff_exists'.mp there
  exact ⟨entry, by simp [heldOf, found, answered, result]⟩

theorem heldOf_absent {absent : CaError → Bool} (shown : β → α)
    {reply : Except CaError (ServiceResponse β)} {e : CaError} (failed : reply = .error e)
    (missing : absent e = true) : heldOf (found absent) shown reply = none := by
  simp [heldOf, found, failed, missing]

theorem attemptOf_program {a : Attempt CaAction CaAction.Reply CaError α}
    {read : CaAction.Reply a.lookup → Except CaError (Option β)} {shown : β → α}
    {getOne : CaM (Option β)} {next : Option β → CaM α}
    (looks : getOne = ExceptT.mk (.ask a.lookup fun reply => .done (read reply)))
    (held : a.held = heldOf read shown) (returns : ∀ entry, next (some entry) = pure (shown entry))
    (missed : (next none).run = a.missed) : (getOne >>= next).run = a.program := by
  rw [looks]
  show Proc.ask _ _ = Proc.ask _ _
  congr 1
  funext reply
  show (Proc.done (read reply)).bind _ = a.looked reply
  unfold Attempt.looked
  rw [held]
  unfold heldOf
  cases read reply with
  | error e => rfl
  | ok entry =>
    cases entry with
    | some entry => exact congrArg ExceptT.run (returns entry)
    | none => exact missed

theorem IdentityServiceWrapper.getOne_eq (service : IdentityServiceWrapper)
    (enrollmentID : String) :
    service.getOne enrollmentID =
      ExceptT.mk (.ask (.getIdentity enrollmentID service.registrar) fun reply =>
        .done (found isNotExistError reply)) := by
  show Proc.ask _ _ = Proc.ask _ _
  congr 1
  funext reply
  exact existing_run isNotExistError reply

theorem AffiliationServiceBuilder.getOne_eq (service : AffiliationServiceBuilder)
    (name : String) :
    service.getOne name =
      ExceptT.mk (.ask (.getAffiliation name service.registrar) fun reply =>
        .done (found isNoAffiliationError reply)) := by
  show Proc.ask _ _ = Proc.ask _ _
  congr 1
  funext reply
  exact existing_run isNoAffiliationError reply

def IdentityServiceWrapper.attempt (service : IdentityServiceWrapper)
    (options : IdentityOptions) : Attempt CaAction CaAction.Reply CaError (Option String) where
  lookup := .getIdentity options.enrollmentID service.registrar
  create := .createIdentity options.req service.registrar
  held := heldOf (found isNotExistError) fun _ => none
  refused := service.roleError options.role
  finish := fun reply : Except CaError String => reply.map some

theorem IdentityServiceWrapper.createIfNotExist_run (service : IdentityServiceWrapper)
    (options : IdentityOptions) :
    (service.createIfNotExist options).run = (service.attempt options).program := by
  refine attemptOf_program (service.getOne_eq options.enrollmentID) rfl (fun _ => rfl) ?_
  unfold attempt Attempt.missed
  cases service.roleError options.role with
  | some err => rfl
  | none => exact send_map (.createIdentity options.req service.registrar) some

def AffiliationServiceBuilder.attempt (service : AffiliationServiceBuilder) (name : String)
    (force : Option Bool) : Attempt CaAction CaAction.Reply CaError
      (AffiliationResult ⊕ ServiceResponse AffiliationResult) where
  lookup := .getAffiliation name service.registrar
  create := .createAffiliation ⟨name, force.getD false⟩ service.registrar
  held := heldOf (found isNoAffiliationError) Sum.inl
  refused := none
  finish := fun reply : Except CaError (ServiceResponse AffiliationResult) => reply.map Sum.inr

theorem AffiliationServiceBuilder.createIfNotExist_run (service : AffiliationServiceBuilder)
    (name : String) (force : Option Bool) :
    (service.createIfNotExist name force).run = (service.attempt name force).program :=
  attemptOf_program (service.getOne_eq name) rfl (fun _ => rfl)
    (send_map (.createAffiliation ⟨name, force.getD false⟩ service.registrar) Sum.inr)

end Attempts

end FabricCommon
