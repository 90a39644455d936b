import FabricCommon.DefinitionListing
import FabricCommon.LedgerReports

namespace FabricCommon

open ProtoLong ConfigFactory PanicRun

section Decimal

theorem digit_bounds {c : Char} (digit : c.isDigit = true) : 48 ≤ c.toNat ∧ c.toNat ≤ 57 :=
  Char.isDigit_iff_toNat.mp digit

theorem digitValue_digit {c : Char} (digit : c.isDigit = true) :
    digitValue c = some (c.toNat - '0'.toNat) := by
  have bounds := digit_bounds digit
  have range : '0' ≤ c ∧ c ≤ '9' := by
    rw [Char.le_def, Char.le_def, UInt32.le_iff_toNat_le, UInt32.le_iff_toNat_le]
    exact bounds
  simp only [digitValue, range, and_self, if_true]

theorem jsSpace_digit {c : Char} (digit : c.isDigit = true) : jsSpace c = false := by
  obtain ⟨low, high⟩ := digit_bounds digit
  simp only [jsSpace, Bool.or_eq_false_iff, List.contains_eq_mem, decide_eq_false_iff_not,
    List.mem_cons, List.not_mem_nil, or_false, Bool.and_eq_false_iff]
  omega

theorem leadingNumber_digits {digits : Text} (nonempty : digits ≠ [])
    (digit : ∀ c ∈ digits, c.isDigit = true) :
    leadingNumber 10 digits = some (Nat.ofDigitChars 10 digits 0 : Int) := by
  have values : digits.map digitValue = digits.map fun c => some (c.toNat - '0'.toNat) :=
    List.map_congr_left fun c member => digitValue_digit (digit c member)
  have all : (digits.map digitValue).takeWhile (fun value => value.any (· < 10)) =
      digits.map fun c => some (c.toNat - '0'.toNat) := by
    rw [values, List.takeWhile_eq_self_iff]
    intro value member
    obtain ⟨c, listed, rfl⟩ := List.mem_map.mp member
    have bounds := digit_bounds (digit c listed)
    have zero : '0'.toNat = 48 := rfl
    exact decide_eq_true (by omega)
  have given : (digits.map fun c => some (c.toNat - '0'.toNat)) ≠ [] := by
    simpa using nonempty
  simp only [leadingNumber, all, given, if_false, List.foldl_map, Option.getD_some,
    Nat.ofDigitChars_eq_foldl]

theorem parseText_digits {digits : Text} (nonempty : digits ≠ [])
    (digit : ∀ c ∈ digits, c.isDigit = true) :
    parseText digits = some (Nat.ofDigitChars 10 digits 0 : Int) := by
  have number := leadingNumber_digits nonempty digit
  obtain ⟨c, rest, rfl⟩ := List.exists_cons_of_ne_nil nonempty
  have first := digit c List.mem_cons_self
  have trimmed : (c :: rest).dropWhile jsSpace = c :: rest :=
    List.dropWhile_cons_of_neg (by simp [jsSpace_digit first])
  have unsigned : unsignedNumber (c :: rest) = leadingNumber 10 (c :: rest) := by
    unfold unsignedNumber
    split
    next text heq =>
      have := digit 'x' (by rw [heq]; simp)
      cases this
    next text heq =>
      have := digit 'X' (by rw [heq]; simp)
      cases this
    next => rfl
  unfold parseText
  rw [trimmed]
  split
  next text heq =>
    cases heq
    cases first
  next text heq =>
    cases heq
    cases first
  next => exact unsigned.trans number

/-- The decimal form says the number back, as far as a double does. -/
theorem parseIntLong_eq {n : Long} {v : Nat} (value : n.value = v) (exact : v < 2 ^ 53) :
    parseIntLong n = some (v : Int) := by
  have text : n.toString.toList = Nat.toDigits 10 v := by
    simp [Long.toString, value, Int.repr, Nat.repr]
  have parsed := parseText_digits Nat.toDigits_ne_nil
    fun c (member : c ∈ Nat.toDigits 10 v) =>
      Nat.isDigit_of_mem_toDigits (by omega) (by omega) member
  rw [Nat.ofDigitChars_ten_toDigits] at parsed
  simp only [parseIntLong, text, parsed, Option.map_some, Int.natAbs_natCast,
    nearestDouble_of_lt exact]
  by_cases zero : v = 0
  · simp [zero]
  · rw [Int.sign_eq_one_of_pos (by omega), Int.one_mul]

end Decimal

/-- The places where a 64-bit number of the ledger is reported as a JavaScript number, each with the
messages it is read from. -/
inductive NumberReport where
  | blockNumber (block : LedgerBlock)
  | logicalTime (peer : DiscoveredPeer)
  | ledgerHeight (peer : DiscoveredPeer)
  | chainHeight (result : ProposalResponse) (index : Nat)
  | sequence (name : String) (result : ProposalResponse) (index : Nat)

namespace QueriedSequence

def number? : QueriedSequence → Option Int
  | .number n => some n
  | .long _ => none

end QueriedSequence

namespace NumberReport

open LifecycleProposal

/-- What the 64 bits are cut down to. -/
def limit : NumberReport → Int
  | sequence _ _ _ => 2 ^ 31
  | _ => 2 ^ 32

variable (protos : LedgerProtos) (lifecycle : LifecycleProtos)
  (queryResults : ProposalResponse → Option (List Buffer))

/-- The number in the result, of a call that returns. -/
def reported : NumberReport → Option Int
  | blockNumber block => some (blockDecoder.header protos block).number
  | logicalTime peer => (ParsePeerResult protos peer).toOption.map (·.logical_time)
  | ledgerHeight peer => do
    let parsed ← (ParsePeerResult protos peer).toOption
    let state ← parsed.state
    return state.ledger_height
  | chainHeight result index => do
    let infos ← (QueryHub.getChainInfo queryResults protos.hex protos.decodeBlockchainInfo
      (.ok result)).toOption
    let info ← infos[index]?
    return info.height
  | sequence name result index => do
    let out ← (fresh.queryChaincodeDefinition lifecycle (some name) (.ok result)).result.toOption
    let definitions ← out.queryResults[index]?
    let definition ← definitions.head?
    definition.fields.sequence.number?

/-- The field of the message that the number is read from. -/
def field : NumberReport → Option Long
  | blockNumber block => some block.header.number.val
  | logicalTime peer => do
    let message ← (protos.decodeGossipMessage peer.membership_info.payload).toOption
    let alive_msg ← message.alive_msg
    let timestamp ← alive_msg.timestamp
    return timestamp.seq_num.val
  | ledgerHeight peer => do
    let envelope ← peer.state_info
    let message ← (protos.decodeGossipMessage envelope.payload).toOption
    let state_info ← message.state_info
    let properties ← state_info.properties
    return properties.ledger_height.val
  | chainHeight result index => do
    let payloads ← queryResults result
    let payload ← payloads[index]?
    let info ← (protos.decodeBlockchainInfo payload).toOption
    return info.height.val
  | sequence _ result index => do
    let response ← (getResponses result)[index]?
    let definition ← (lifecycle.decodeQueryChaincodeDefinitionResult response.payload).toOption
    return definition.fields.sequence.val

variable {protos lifecycle queryResults} {n : Long} {x : Int}

theorem logicalTime_reported {peer : DiscoveredPeer}
    (read : field protos lifecycle queryResults (logicalTime peer) = some n)
    (told : reported protos lifecycle queryResults (logicalTime peer) = some x) :
    x = n.toInt ∧ n.limit = 2 ^ 32 := by
  obtain ⟨parsed, run, rfl⟩ := Option.map_eq_some_iff.mp told
  obtain ⟨message, alive_msg, timestamp, decoded, alive, time, told, _⟩ :=
    ParsePeerResult_eq_ok (toOption_eq_some.mp run)
  have same : n = timestamp.seq_num.val := by
    simpa [field, decoded, Except.toOption, alive, time, eq_comm] using read
  subst same
  exact ⟨told, timestamp.seq_num.limit⟩

theorem ledgerHeight_reported {peer : DiscoveredPeer}
    (read : field protos lifecycle queryResults (ledgerHeight peer) = some n)
    (told : reported protos lifecycle queryResults (ledgerHeight peer) = some x) :
    x = n.toInt ∧ n.limit = 2 ^ 32 := by
  obtain ⟨parsed, run, told⟩ := Option.bind_eq_some_iff.mp told
  obtain ⟨state, held, told⟩ := Option.bind_eq_some_iff.mp told
  obtain ⟨_, _, _, _, _, _, _, stated⟩ := ParsePeerResult_eq_ok (toOption_eq_some.mp run)
  obtain ⟨envelope, sent, read⟩ := Option.bind_eq_some_iff.mp read
  rw [sent, held] at stated
  obtain ⟨state', stated, same⟩ := bind_eq_ok.mp stated
  cases same
  obtain ⟨message, state_info, properties, decoded, given, listed, rfl⟩ := parseState_eq_ok stated
  have same : n = properties.ledger_height.val := by
    simpa [decoded, Except.toOption, given, listed, eq_comm] using read
  subst same
  exact ⟨(Option.some.inj told).symm, properties.ledger_height.limit⟩

theorem chainHeight_reported {result : ProposalResponse} {index : Nat}
    (read : field protos lifecycle queryResults (chainHeight result index) = some n)
    (told : reported protos lifecycle queryResults (chainHeight result index) = some x) :
    x = n.toInt ∧ n.limit = 2 ^ 32 := by
  obtain ⟨infos, run, told⟩ := Option.bind_eq_some_iff.mp told
  obtain ⟨info, listed, told⟩ := Option.bind_eq_some_iff.mp told
  obtain ⟨payloads, given, read⟩ := Option.bind_eq_some_iff.mp read
  obtain ⟨payload, sent, read⟩ := Option.bind_eq_some_iff.mp read
  obtain ⟨decoded, made, read⟩ := Option.bind_eq_some_iff.mp read
  obtain ⟨payloads', given', each⟩ := QueryHub.getChainInfo_eq_ok (toOption_eq_some.mp run)
  cases given.symm.trans given'
  obtain ⟨decoded', made', height⟩ := ListRules.related_of_getElem? each sent listed
  cases (toOption_eq_some.mp made).symm.trans made'
  cases read
  cases told
  exact ⟨height, decoded.height.limit⟩

theorem sequence_reported {name : String} {result : ProposalResponse} {index : Nat}
    (read : field protos lifecycle queryResults (sequence name result index) = some n)
    (told : reported protos lifecycle queryResults (sequence name result index) = some x) :
    x = n.toInt ∧ n.limit = 2 ^ 31 := by
  obtain ⟨out, run, told⟩ := Option.bind_eq_some_iff.mp told
  obtain ⟨definitions, listed, told⟩ := Option.bind_eq_some_iff.mp told
  obtain ⟨definition, first, told⟩ := Option.bind_eq_some_iff.mp told
  obtain ⟨response, sent, read⟩ := Option.bind_eq_some_iff.mp read
  obtain ⟨decoded, made, read⟩ := Option.bind_eq_some_iff.mp read
  have each := ListRules.related_of_getElem?
    (queryChaincodeDefinition_eq_ok (toOption_eq_some.mp run)) sent listed
  cases read
  refine ⟨?_, decoded.fields.sequence.limit⟩
  unfold decodeDefinitions at each
  split at each
  next named =>
    obtain ⟨queried, single, rfl⟩ := map_eq_ok.mp each
    cases first
    obtain ⟨resultSingle, fields, same, amended, rfl⟩ := decodeNamed_eq_ok.mp single
    obtain ⟨parameter, _, rfl⟩ := singleChaincodeDefinitionAmend_eq_ok.mp amended
    cases (toOption_eq_some.mp made).symm.trans same
    exact (Option.some.inj told).symm
  next unnamed =>
    obtain ⟨long, kept⟩ :=
      decodeListed_sequence each definition (List.mem_of_head? first)
    rw [kept] at told
    cases told

/-- Wherever a number is reported, it is the low half of the field. -/
theorem reported_eq {a : NumberReport} (read : field protos lifecycle queryResults a = some n)
    (told : reported protos lifecycle queryResults a = some x) :
    x = n.toInt ∧ n.limit = a.limit := by
  cases a with
  | blockNumber block =>
    cases read
    cases told
    exact ⟨rfl, block.header.number.limit⟩
  | logicalTime peer => exact logicalTime_reported read told
  | ledgerHeight peer => exact ledgerHeight_reported read told
  | chainHeight result index => exact chainHeight_reported read told
  | sequence name result index => exact sequence_reported read told

variable (protos lifecycle queryResults)

/-- The ledger says `v` and the call returns. -/
def Tells (a : NumberReport) (v : Nat) : Prop :=
  (∃ n, field protos lifecycle queryResults a = some n ∧ n.value = v) ∧
    (reported protos lifecycle queryResults a).isSome

/-- Both numbers are reported as they are, agree with the index that `extractLastConfigIndex` gives
of a block that says the first, and stand in their order. -/
def ReportsExactly (a b : NumberReport) (v w : Nat) : Prop :=
  reported protos lifecycle queryResults a = some (v : Int) ∧
    reported protos lifecycle queryResults b = some (w : Int) ∧
    (∀ block bytes value index, block.metadata[BlockMetadataIndex.LAST_CONFIG]? = some bytes →
      protos.decodeMetadata bytes = .ok value → protos.decodeLastConfig value = .ok index →
      index.val.value = v →
      extractLastConfigIndex protos block = .ok (reported protos lifecycle queryResults a)) ∧
    ∀ x y, reported protos lifecycle queryResults a = some x →
      reported protos lifecycle queryResults b = some y → (x < y ↔ v < w)

variable {protos lifecycle queryResults}

theorem reported_iff {a : NumberReport} {v : Nat}
    (tells : Tells protos lifecycle queryResults a v) :
    reported protos lifecycle queryResults a = some (v : Int) ↔ v < a.limit := by
  obtain ⟨⟨n, read, value⟩, returns⟩ := tells
  obtain ⟨x, told⟩ := Option.isSome_iff_exists.mp returns
  obtain ⟨rfl, limit⟩ := reported_eq read told
  have exact := Long.toInt_eq_value_iff (n := n) (by omega)
  rw [told, Option.some_inj, ← limit, ← value]
  exact exact

theorem extractLastConfigIndex_eq {block : LedgerBlock} {bytes value : Buffer} {index : ULong}
    {v : Nat} (held : block.metadata[BlockMetadataIndex.LAST_CONFIG]? = some bytes)
    (metadata : protos.decodeMetadata bytes = .ok value)
    (lastConfig : protos.decodeLastConfig value = .ok index) (shown : index.val.value = v)
    (bounded : v < 2 ^ 53) : extractLastConfigIndex protos block = .ok (some (v : Int)) := by
  simp only [extractLastConfigIndex, held]
  simp only [destructured, metadata, lastConfig, bind, Except.bind, parseIntLong_eq shown bounded]
  rfl

theorem reportsExactly_iff (a b : NumberReport) (v w : Nat)
    (tells : Tells protos lifecycle queryResults a v)
    (tells' : Tells protos lifecycle queryResults b w) (bounded : v < 2 ^ 53) :
    ReportsExactly protos lifecycle queryResults a b v w ↔ v < a.limit ∧ w < b.limit := by
  rw [← reported_iff tells, ← reported_iff tells']
  constructor
  · intro h
    exact ⟨h.1, h.2.1⟩
  · intro h
    obtain ⟨told, told'⟩ := h
    refine ⟨told, told', ?_, ?_⟩
    · intro block bytes value index held metadata lastConfig shown
      rw [told]
      exact extractLastConfigIndex_eq held metadata lastConfig shown bounded
    · intro x y first second
      cases told.symm.trans first
      cases told'.symm.trans second
      exact Int.ofNat_lt

/-- The bytes of the field at the front of a message if it has this tag, and what follows them.
Their length is taken to be below 128. -/
def lengthDelimited (tag : UInt8) : Buffer → Buffer × Buffer
  | [] => ([], [])
  | [byte] => ([], [byte])
  | byte :: length :: rest =>
    if byte = tag then (rest.take length.toNat, rest.drop length.toNat)
    else ([], byte :: length :: rest)

/-- The number of a message that has no other field. -/
def onlyNumber : Buffer → Except String Nat
  | [] => .ok 0
  | [0x08, number] => if number < 0x80 then .ok number.toNat else .error "index out of range"
  | _ => .error "index out of range"

/-- Classes that decode the empty message only, except for an index below 128. -/
def indexProtos : LedgerProtos where
  hex _ := ""
  utf8 _ := ""
  sha2_256 _ := ""
  decodeSerializedIdentity _ := .ok ⟨"", []⟩
  decodeGossipMessage _ := .ok ⟨0, none, none⟩
  decodeBlockchainInfo _ := .ok ⟨uint64 0, [], []⟩
  decodeMetadata bytes := .ok (lengthDelimited 0x0a bytes).1
  decodeLastConfig value := (onlyNumber value).map uint64

def numbered (number : Nat) : LedgerBlock :=
  ⟨⟨uint64 number, [], []⟩, [[], [0x0a, 2, 0x08, 3]]⟩

theorem tells_numbered (lifecycle : LifecycleProtos) :
    Tells indexProtos lifecycle (fun _ => none) (.blockNumber (numbered 5)) 5 :=
  ⟨⟨_, rfl, by decide⟩, rfl⟩

/-- The answer of a peer that has the sixth definition, in bytes and decoded. -/
def sixthDefinition : ProposalResponse := ⟨[], [⟨⟨200, "", [0x08, 6]⟩, "grpcs://peer0:7051"⟩]⟩

def sixthProtos : LifecycleProtos :=
  { emptyProtos with
    decodeQueryChaincodeDefinitionResult := fun _ =>
      .ok ⟨⟨int64 6, "", "", "", [], none, false⟩, []⟩ }

theorem tells_sixthDefinition :
    Tells indexProtos sixthProtos (fun _ => none) (.sequence "cc" sixthDefinition 0) 6 :=
  ⟨⟨_, rfl, by decide⟩, rfl⟩

theorem reportsExactly_numbered :
    ReportsExactly indexProtos sixthProtos (fun _ => none) (.blockNumber (numbered 5))
      (.sequence "cc" sixthDefinition 0) 5 6 :=
  (reportsExactly_iff _ _ 5 6 (tells_numbered sixthProtos) tells_sixthDefinition
    (by decide)).mpr ⟨by decide, by decide⟩

/-- The first block number that needs more than 32 bits is reported as 0. -/
theorem not_reportsExactly_wrapped :
    ¬ ReportsExactly indexProtos emptyProtos (fun _ => none) (.blockNumber (numbered (2 ^ 32)))
      (.blockNumber (numbered 5)) (2 ^ 32) 5 := by
  intro h
  have wrapped : reported indexProtos emptyProtos (fun _ => none)
      (.blockNumber (numbered (2 ^ 32))) = some 0 := by decide
  exact absurd (wrapped.symm.trans h.1) (by decide)

end NumberReport

end FabricCommon
