import FabricCommon.TolerantProposals

namespace FabricCommon

/-- The SDK adds no `queryResults` to the answers to a `QSCCProposal`, whose type is `Proposal`. -/
def NoQueryResults (queryResults : ProposalResponse → Option (List Buffer)) : Prop :=
  ∀ result, queryResults result = none

def ProposalResponse.failed (result : ProposalResponse) : List EndorsementResponse :=
  result.responses.filter fun r => r.response.status ≠ 200

def ProposalResponse.successPayloads (result : ProposalResponse) : List Buffer :=
  (result.responses.filter fun r => r.response.status = 200).map (·.response.payload)

section

variable {Transaction : Type} (queryResults : ProposalResponse → Option (List Buffer))
  (decodeTransaction : Buffer → Except String Transaction) (txId : String)
  (result : ProposalResponse)

/-- A transaction is missing when no peer has it, is what the peers that have it say, and is
unknown when a peer fails in another way. -/
def ReportsTx : Prop :=
  (QueryHub.tx queryResults decodeTransaction txId (.ok result) = .ok [] ↔
    ∀ r ∈ result.responses, isTxNotFound txId r.response = true) ∧
  ((∃ r ∈ result.responses, ¬ r.Failed) →
    (∀ r ∈ result.responses, r.Failed → isTxNotFound txId r.response = true) →
    ∀ transactions, result.successPayloads.mapM decodeTransaction = .ok transactions →
      QueryHub.tx queryResults decodeTransaction txId (.ok result) = .ok transactions) ∧
  ((∃ r ∈ result.responses, r.Failed ∧ isTxNotFound txId r.response = false) →
    EndorseError (QueryHub.tx queryResults decodeTransaction txId (.ok result)))

/-- Some peers have the transaction, the others do not have it yet. -/
def PartlyThere : Prop :=
  (∃ r ∈ result.responses, ¬ r.Failed) ∧ (∃ r ∈ result.responses, r.Failed) ∧
    ∀ r ∈ result.responses, r.Failed → isTxNotFound txId r.response = true

/-- Every peer answers with status 200, but what one of them returns is no transaction. -/
def Garbled : Prop :=
  result.responses ≠ [] ∧ (∀ r ∈ result.responses, ¬ r.Failed) ∧
    ¬ PanicRun.Returns (result.successPayloads.mapM decodeTransaction)

end

variable {txId : String} {result : ProposalResponse}

theorem mem_failed {r : EndorsementResponse} :
    r ∈ result.failed ↔ r ∈ result.responses ∧ r.Failed := by
  simp [ProposalResponse.failed, EndorsementResponse.Failed]

theorem isTxNotFound_failed {r : EndorsementResponse}
    (symptom : isTxNotFound txId r.response = true) : r.Failed := by
  simp only [isTxNotFound, Bool.and_eq_true, decide_eq_true_eq] at symptom
  simp [EndorsementResponse.Failed, symptom.1]

/-- The symptoms are counted among the failures only. -/
theorem TxNotFound_eq (errors : result.errors = []) :
    TxNotFound txId result =
      if result.failed = [] then .ok false
      else if ∀ r ∈ result.failed, isTxNotFound txId r.response = true then .ok true
      else .error (.ENDORSE_ERROR (result.failed.foldl reportByUrl [])) := by
  have checked : SanCheck result = .ok result.failed := SanCheck_eq errors
  simp only [TxNotFound, checked, List.countP_eq_length, gt_iff_lt, List.length_pos_iff, ne_eq,
    ite_not]

section

variable {Transaction : Type} {queryResults : ProposalResponse → Option (List Buffer)}
  {decodeTransaction : Buffer → Except String Transaction}

variable (queryResults decodeTransaction) in
theorem tx_of_symptoms (errors : result.errors = []) (failing : result.failed ≠ [])
    (symptoms : ∀ r ∈ result.failed, isTxNotFound txId r.response = true) :
    QueryHub.tx queryResults decodeTransaction txId (.ok result) = .ok [] := by
  have found : TxNotFound txId result = .ok true := by
    rw [TxNotFound_eq errors, if_neg failing, if_pos symptoms]
  simp only [QueryHub.tx, sendHandled, found]
  rfl

variable (queryResults decodeTransaction) in
theorem tx_of_failure (errors : result.errors = []) {r : EndorsementResponse}
    (member : r ∈ result.failed) (other : isTxNotFound txId r.response = false) :
    EndorseError (QueryHub.tx queryResults decodeTransaction txId (.ok result)) := by
  have found : TxNotFound txId result =
      .error (.ENDORSE_ERROR (result.failed.foldl reportByUrl [])) := by
    rw [TxNotFound_eq errors, if_neg (List.ne_nil_of_mem member), if_neg]
    intro symptoms
    exact absurd (symptoms r member) (by simp [other])
  simp only [QueryHub.tx, sendHandled, found]
  exact ⟨_, rfl⟩

variable (decodeTransaction txId) in
/-- When all peers return the transaction, there is nothing to map. -/
theorem tx_of_success (absent : NoQueryResults queryResults) (errors : result.errors = [])
    (succeeded : result.failed = []) :
    ¬ PanicRun.Returns (QueryHub.tx queryResults decodeTransaction txId (.ok result)) := by
  have found : TxNotFound txId result = .ok false := by
    rw [TxNotFound_eq errors, if_pos succeeded]
  have thrown : QueryHub.tx queryResults decodeTransaction txId (.ok result) =
      .error (.thrown (.TypeError "Cannot read properties of undefined (reading 'map')")) := by
    have mapped : QueryHub.mapResults queryResults decodeTransaction result =
        .error (.thrown (.TypeError "Cannot read properties of undefined (reading 'map')")) := by
      simp only [QueryHub.mapResults, absent result]
    simp only [QueryHub.tx, sendHandled, found]
    exact mapped
  rintro ⟨transactions, returned⟩
  rw [thrown] at returned
  cases returned

theorem failed_eq_nil :
    result.failed = [] ↔ ∀ r ∈ result.responses, ¬ r.Failed := by
  rw [List.eq_nil_iff_forall_not_mem]
  simp only [mem_failed, not_and]

theorem reportsTx_iff_garbled (absent : NoQueryResults queryResults) (errors : result.errors = [])
    (succeeded : ∀ r ∈ result.responses, ¬ r.Failed) :
    ReportsTx queryResults decodeTransaction txId result ↔ Garbled decodeTransaction result := by
  have throws := tx_of_success txId decodeTransaction absent errors (failed_eq_nil.mpr succeeded)
  constructor
  · intro h
    have answered : result.responses ≠ [] := by
      intro empty
      exact throws ⟨[], h.1.mpr (by simp [empty])⟩
    refine ⟨answered, succeeded, ?_⟩
    rintro ⟨transactions, decoded⟩
    obtain ⟨r, member⟩ := List.exists_mem_of_ne_nil _ answered
    exact throws ⟨transactions, h.2.1 ⟨r, member, succeeded r member⟩
      (fun r member bad => absurd bad (succeeded r member)) transactions decoded⟩
  · intro h
    obtain ⟨answered, _, undecoded⟩ := h
    refine ⟨⟨fun returned => absurd ⟨[], returned⟩ throws, ?_⟩, ?_, ?_⟩
    · intro symptoms
      obtain ⟨r, member⟩ := List.exists_mem_of_ne_nil _ answered
      exact absurd (isTxNotFound_failed (symptoms r member)) (succeeded r member)
    · intro _ _ transactions decoded
      exact absurd ⟨transactions, decoded⟩ undecoded
    · rintro ⟨r, member, bad, _⟩
      exact absurd bad (succeeded r member)

theorem reportsTx_iff_whole (errors : result.errors = [])
    (failing : ∃ r ∈ result.responses, r.Failed) :
    ReportsTx queryResults decodeTransaction txId result ↔ ¬ PartlyThere txId result := by
  obtain ⟨r', member', bad⟩ := failing
  have failing : result.failed ≠ [] := List.ne_nil_of_mem (mem_failed.mpr ⟨member', bad⟩)
  constructor
  · rintro h ⟨⟨r, member, success⟩, _, symptoms⟩
    have missing := tx_of_symptoms queryResults decodeTransaction errors failing
      fun r failed => symptoms r (mem_failed.mp failed).1 (mem_failed.mp failed).2
    exact success (isTxNotFound_failed (h.1.mp missing r member))
  · intro whole
    refine ⟨⟨?_, ?_⟩, ?_, ?_⟩
    · intro returned
      have symptoms : ∀ r ∈ result.responses, r.Failed → isTxNotFound txId r.response = true := by
        intro r member failed
        by_contra other
        obtain ⟨_, thrown⟩ := tx_of_failure queryResults decodeTransaction errors
          (mem_failed.mpr ⟨member, failed⟩) (Bool.eq_false_iff.mpr other)
        rw [thrown] at returned
        cases returned
      intro r member
      refine symptoms r member ?_
      by_contra success
      exact whole ⟨⟨r, member, success⟩, ⟨r', member', bad⟩, symptoms⟩
    · intro symptoms
      exact tx_of_symptoms _ _ errors failing fun r failed => symptoms r (mem_failed.mp failed).1
    · intro success symptoms
      exact absurd ⟨success, ⟨r', member', bad⟩, symptoms⟩ whole
    · rintro ⟨r, member, failed, other⟩
      exact tx_of_failure _ _ errors (mem_failed.mpr ⟨member, failed⟩) other

theorem reportsTx_iff (txId : String) (result : ProposalResponse) (errors : result.errors = [])
    (absent : NoQueryResults queryResults) :
    ReportsTx queryResults decodeTransaction txId result ↔
      ((∃ r ∈ result.responses, r.Failed) ∧ ¬ PartlyThere txId result) ∨
        Garbled decodeTransaction result := by
  by_cases failing : ∃ r ∈ result.responses, r.Failed
  · rw [reportsTx_iff_whole errors failing]
    obtain ⟨r, member, bad⟩ := failing
    have clear : ¬ Garbled decodeTransaction result := fun h => h.2.1 r member bad
    simp only [clear, or_false, iff_and_self]
    exact fun _ => ⟨r, member, bad⟩
  · have succeeded : ∀ r ∈ result.responses, ¬ r.Failed :=
      fun r member bad => failing ⟨r, member, bad⟩
    simp only [reportsTx_iff_garbled absent errors succeeded, failing, false_and, false_or]

end

def txPayload : Buffer := [0x0a, 3, 0x0a, 1, 0x78]

/-- The answer of a peer that has the transaction. -/
def havingPeer : EndorsementResponse := ⟨⟨200, "", txPayload⟩, "grpcs://peer0:7051"⟩

/-- The answer of a peer that is behind. -/
def laggingPeer : EndorsementResponse :=
  ⟨⟨500, "Failed to get transaction with id 1, error no such transaction ID [1] in index", []⟩,
    "grpcs://peer1:7051"⟩

theorem reportsTx_iff_lagging :
    ReportsTx (fun _ => none) (fun payload => .ok payload) "1" ⟨[], [laggingPeer]⟩ ↔
      ((∃ r ∈ [laggingPeer], r.Failed) ∧ ¬ PartlyThere "1" ⟨[], [laggingPeer]⟩) ∨
        Garbled (fun payload => .ok payload) ⟨[], [laggingPeer]⟩ :=
  reportsTx_iff "1" ⟨[], [laggingPeer]⟩ rfl fun _ => rfl

/-- The transaction is lost when one peer has it and another does not yet, and when all have it. -/
theorem not_reportsTx_having :
    ¬ ReportsTx (fun _ => none) (fun payload => .ok payload) "1"
        ⟨[], [havingPeer, laggingPeer]⟩ ∧
      ¬ ReportsTx (fun _ => none) (fun payload => .ok payload) "1" ⟨[], [havingPeer]⟩ := by
  constructor
  · intro h
    have missing : QueryHub.tx (fun _ => none) (fun payload => .ok payload) "1"
        (.ok ⟨[], [havingPeer, laggingPeer]⟩) = .ok [] := by decide +kernel
    exact absurd (h.1.mp missing havingPeer List.mem_cons_self) (by decide)
  · intro h
    have having : ¬ havingPeer.Failed := fun bad => bad rfl
    have returned := h.2.1 ⟨havingPeer, List.mem_cons_self, having⟩
      (by simpa using fun bad => absurd bad having) [txPayload] rfl
    cases returned

end FabricCommon
