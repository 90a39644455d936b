import Mathlib.Data.List.Basic

namespace FabricCommon

structure PeerResponse where
  status : Nat
  message : String
  payload : List UInt8
  deriving DecidableEq, Repr

/-- One entry of `responses`; of its `connection` only the url is read. -/
structure EndorsementResponse where
  response : PeerResponse
  url : String
  deriving DecidableEq, Repr

structure ProposalResponse where
  errors : List String
  responses : List EndorsementResponse
  deriving DecidableEq, Repr

structure CommitResponse where
  status : String
  info : String
  deriving DecidableEq, Repr

/-- A response as `ENDORSE_ERROR` reports it, its payload deleted. -/
structure ReportedResponse where
  status : Nat
  message : String
  deriving DecidableEq, Repr

/-- The errors the interceptors throw, with the properties assigned to them. -/
inductive InterceptorError where
  | SYSTEM_ERROR (errors : List String)
  | ENDORSE_ERROR (errors : List (String × ReportedResponse))
  | COMMIT_ERROR (status info : String)
  deriving DecidableEq, Repr

namespace CommonResponseStatus

def SUCCESS : String := "SUCCESS"
def SERVICE_UNAVAILABLE : String := "SERVICE_UNAVAILABLE"

end CommonResponseStatus

def SanCheck (result : ProposalResponse) : Except InterceptorError (List EndorsementResponse) :=
  if result.errors.length > 0 then .error (.SYSTEM_ERROR result.errors)
  else .ok (result.responses.filter fun r => r.response.status ≠ 200)

/-- `sum[connection.url] = response` on an object whose keys keep the order of insertion. -/
def reportByUrl (sum : List (String × ReportedResponse)) (r : EndorsementResponse) :
    List (String × ReportedResponse) :=
  let report : ReportedResponse := ⟨r.response.status, r.response.message⟩
  if sum.any (fun entry => entry.1 = r.url) then
    sum.map fun entry => if entry.1 = r.url then (r.url, report) else entry
  else sum ++ [(r.url, report)]

def EndorseALL (result : ProposalResponse) (errorsFilter : Option (EndorsementResponse → Bool)) :
    Except InterceptorError ProposalResponse :=
  match SanCheck result with
  | .error err => .error err
  | .ok failed =>
    let endorsementErrors := failed.filter (errorsFilter.getD fun _ => true)
    if endorsementErrors.length > 0 then
      .error (.ENDORSE_ERROR (endorsementErrors.foldl reportByUrl []))
    else .ok result

def CommitSuccess (result : CommitResponse) : Except InterceptorError CommitResponse :=
  if result.status = CommonResponseStatus.SUCCESS ∧ result.info = "" then .ok result
  else .error (.COMMIT_ERROR result.status result.info)

/-- An orderer answer that `CommitSuccess` lets through. -/
def CommitResponse.Accepted (result : CommitResponse) : Prop :=
  result.status = CommonResponseStatus.SUCCESS ∧ result.info = ""

instance (result : CommitResponse) : Decidable result.Accepted :=
  inferInstanceAs (Decidable (_ ∧ _))

/-- A response that counts as a failed endorsement. -/
def EndorsementResponse.Failed (r : EndorsementResponse) : Prop := r.response.status ≠ 200

theorem CommitSuccess_accepted {result : CommitResponse} (h : result.Accepted) :
    CommitSuccess result = .ok result := if_pos h

theorem CommitSuccess_refused {result : CommitResponse} (h : ¬ result.Accepted) :
    CommitSuccess result = .error (.COMMIT_ERROR result.status result.info) := if_neg h

theorem SanCheck_eq {result : ProposalResponse} (errors : result.errors = []) :
    SanCheck result = .ok (result.responses.filter fun r => r.response.status ≠ 200) := by
  simp [SanCheck, errors]

theorem SanCheck_error {result : ProposalResponse} (errors : result.errors ≠ []) :
    SanCheck result = .error (.SYSTEM_ERROR result.errors) := by
  simp [SanCheck, List.length_pos_iff, errors]

theorem EndorseALL_eq_ok {result accepted : ProposalResponse}
    {errorsFilter : Option (EndorsementResponse → Bool)} :
    EndorseALL result errorsFilter = .ok accepted ↔
      accepted = result ∧ result.errors = [] ∧
        ∀ r ∈ result.responses, r.Failed → (errorsFilter.getD fun _ => true) r = false := by
  by_cases errors : result.errors = []
  · have all : (result.responses.filter fun r => r.response.status ≠ 200).filter
        (errorsFilter.getD fun _ => true) = [] ↔
          ∀ r ∈ result.responses, r.Failed → (errorsFilter.getD fun _ => true) r = false := by
      simp only [List.filter_eq_nil_iff, List.mem_filter, decide_eq_true_eq,
        EndorsementResponse.Failed, Bool.not_eq_true, and_imp]
    simp only [EndorseALL, SanCheck_eq errors, gt_iff_lt, List.length_pos_iff]
    split
    next filtered =>
      simp only [reduceCtorEq, false_iff, not_and]
      exact fun _ _ every => filtered (all.mpr every)
    next filtered =>
      have every := all.mp (not_not.mp filtered)
      simp only [Except.ok.injEq, errors, true_and]
      exact ⟨fun h => ⟨h.symm, every⟩, fun h => h.1.symm⟩
  · simp [EndorseALL, SanCheck_error errors, errors]

section Reports

def EndorsementResponse.report (r : EndorsementResponse) : String × ReportedResponse :=
  (r.url, ⟨r.response.status, r.response.message⟩)

/-- As long as no url comes twice, each response is reported for itself. -/
theorem foldl_reportByUrl {rs : List EndorsementResponse} (distinct : (rs.map (·.url)).Nodup) :
    ∀ sum : List (String × ReportedResponse), (∀ r ∈ rs, ∀ entry ∈ sum, entry.1 ≠ r.url) →
      rs.foldl reportByUrl sum = sum ++ rs.map EndorsementResponse.report := by
  induction rs with
  | nil =>
    intro sum _
    simp
  | cons r rs ih =>
    intro sum fresh
    obtain ⟨new, distinct⟩ := List.nodup_cons.mp distinct
    have appended : reportByUrl sum r = sum ++ [r.report] := by
      refine if_neg fun any => ?_
      obtain ⟨entry, listed, same⟩ := List.any_eq_true.mp any
      exact fresh r List.mem_cons_self entry listed (of_decide_eq_true same)
    rw [List.foldl_cons, appended, ih distinct]
    · simp
    · intro r' member entry listed
      rcases List.mem_append.mp listed with listed | listed
      · exact fresh r' (List.mem_cons_of_mem r member) entry listed
      · rw [List.mem_singleton.mp listed]
        intro same
        exact new (List.mem_map.mpr ⟨r', member, same.symm⟩)

/-- The failed responses but those that are tolerated. -/
def ProposalResponse.untolerated (result : ProposalResponse) (tolerates : PeerResponse → Bool) :
    List EndorsementResponse :=
  result.responses.filter fun r => r.response.status ≠ 200 ∧ tolerates r.response = false

variable {result : ProposalResponse} {tolerates : PeerResponse → Bool}

theorem untolerated_eq_nil : result.untolerated tolerates = [] ↔
    ∀ r ∈ result.responses, r.Failed → tolerates r.response = true := by
  simp [ProposalResponse.untolerated, EndorsementResponse.Failed]

/-- The verdict of `EndorseALL`, all in all. -/
theorem EndorseALL_eq {errorsFilter : Option (EndorsementResponse → Bool)}
    (distinct : (result.responses.map (·.url)).Nodup)
    (filters : ∀ r, (errorsFilter.getD fun _ => true) r = !tolerates r.response) :
    EndorseALL result errorsFilter =
      if result.errors ≠ [] then .error (.SYSTEM_ERROR result.errors)
      else if result.untolerated tolerates ≠ [] then
        .error (.ENDORSE_ERROR ((result.untolerated tolerates).map EndorsementResponse.report))
      else .ok result := by
  have filtered : (result.responses.filter fun r => r.response.status ≠ 200).filter
      (errorsFilter.getD fun _ => true) = result.untolerated tolerates := by
    rw [List.filter_filter, ProposalResponse.untolerated]
    refine List.filter_congr fun r _ => ?_
    rw [filters r, Bool.decide_and, Bool.and_comm]
    cases tolerates r.response <;> rfl
  have reported : (result.untolerated tolerates).foldl reportByUrl [] =
      (result.untolerated tolerates).map EndorsementResponse.report := by
    rw [foldl_reportByUrl]
    · rfl
    · exact distinct.sublist (List.filter_sublist.map _)
    · simp
  by_cases errors : result.errors = []
  · simp only [EndorseALL, SanCheck_eq errors, filtered, reported, gt_iff_lt, List.length_pos_iff,
      errors, ne_eq, not_true_eq_false, if_false]
  · simp [EndorseALL, SanCheck_error errors, errors]

end Reports

end FabricCommon
