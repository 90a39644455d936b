import FabricCommon.BlockDecoder
import FabricCommon.DiscoveryResults

namespace FabricCommon

open PanicRun StepRun

section Unwrapping

variable {α : Type} {value value' : Wrapped α} {map map' map'' : EntryMap String (Wrapped α)}

/-- The entries are as they were decoded. -/
def OnlyMessages (map : EntryMap String (Wrapped α)) : Prop :=
  ∀ entry ∈ map.entries, ∃ items, entry.2 = .message items

theorem Wrapped.returns_unwrap_again (h : value.unwrap = .ok value') :
    Returns value'.unwrap ↔ ∃ items, value = .message items := by
  cases value with
  | message items =>
    cases h
    simp [unwrap]
  | items items =>
    cases h
    simp [unwrap]
  | undefined => cases h

theorem Wrapped.unwrap_ne (h : value.unwrap = .ok value') : value' ≠ value := by
  cases value <;> cases h <;> simp

theorem returns_unwrap_again (h : map.translate Wrapped.unwrap = .ok map') :
    Returns (map'.translate Wrapped.unwrap) ↔ OnlyMessages map := by
  rw [EntryMap.returns_translate]
  refine (ListRules.forall_mem_iff_of_forall₂ ?_).symm
  exact (EntryMap.translate_eq_ok.mp h).imp fun entry entry' related =>
    (Wrapped.returns_unwrap_again related.2).symm

theorem unwrap_again_eq_iff (h : map.translate Wrapped.unwrap = .ok map')
    (h' : map'.translate Wrapped.unwrap = .ok map'') : map'' = map' ↔ map.entries = [] := by
  have first := EntryMap.translate_eq_ok.mp h
  have second := EntryMap.translate_eq_ok.mp h'
  constructor
  · intro same
    rw [same, List.forall₂_same] at second
    by_contra filled
    obtain ⟨entry, mem⟩ := List.exists_mem_of_ne_nil _ filled
    obtain ⟨entry', mem', -⟩ := ListRules.exists_related_of_forall₂ first mem
    exact Wrapped.unwrap_ne (second entry' mem').2 rfl
  · intro empty
    rw [empty, List.forall₂_nil_left_iff] at first
    rw [first, List.forall₂_nil_left_iff] at second
    exact EntryMap.ext_entries (second.trans first.symm)

end Unwrapping

variable {utf8 : Buffer → Text}

namespace ConfigResult

variable {config config' config'' : ConfigResult}

theorem translate_eq_ok :
    config.translate utf8 = .ok config' ↔
      config.msps.translate (MspConfig.translate utf8) = .ok config'.msps ∧
        config.orderers.translate Wrapped.unwrap = .ok config'.orderers := by
  simp only [translate, bind_eq_ok, pure_eq_ok]
  constructor
  · intro h
    obtain ⟨msps, read, orderers, unwrapped, rfl⟩ := h
    exact ⟨read, unwrapped⟩
  · intro h
    exact ⟨_, h.1, _, h.2, rfl⟩

theorem msps_settle (h : config.translate utf8 = .ok config') :
    config'.msps.translate (MspConfig.translate utf8) = .ok config'.msps := by
  exact EntryMap.translate_settles (fun _ _ => MspConfig.translate_settles)
    (translate_eq_ok.mp h).1

theorem returns_translate_again (h : config.translate utf8 = .ok config') :
    Returns (config'.translate utf8) ↔ OnlyMessages config.orderers := by
  rw [← returns_unwrap_again (translate_eq_ok.mp h).2]
  constructor
  · intro again
    obtain ⟨config'', again⟩ := again
    exact ⟨_, (translate_eq_ok.mp again).2⟩
  · intro again
    obtain ⟨orderers, again⟩ := again
    exact ⟨⟨config'.msps, orderers⟩, translate_eq_ok.mpr ⟨msps_settle h, again⟩⟩

theorem translate_again_eq_iff (h : config.translate utf8 = .ok config')
    (h' : config'.translate utf8 = .ok config'') :
    config'' = config' ↔ config.orderers.entries = [] := by
  rw [← unwrap_again_eq_iff (translate_eq_ok.mp h).2 (translate_eq_ok.mp h').2]
  have msps : config''.msps = config'.msps :=
    Except.ok.inj ((translate_eq_ok.mp h').1.symm.trans (msps_settle h))
  constructor
  · intro same
    rw [same]
  · intro orderers
    cases config'
    cases config''
    cases msps
    cases orderers
    rfl

end ConfigResult

namespace DiscoveryResult

/-- The wrapped lists of the result are as they were decoded. -/
def Fresh : DiscoveryResult → Prop
  | config_result config => OnlyMessages config.orderers
  | members peers_by_org => OnlyMessages peers_by_org
  | _ => True

/-- A result has a configuration, or members, or it stays as it is. -/
theorem translate_cases {result result' : DiscoveryResult}
    (h : result.translate utf8 = .ok result') :
    (∃ conf conf', result = .config_result conf ∧ result' = .config_result conf' ∧
        conf.translate utf8 = .ok conf') ∨
      (∃ peers_by_org peers_by_org', result = .members peers_by_org ∧
        result' = .members peers_by_org' ∧
        PeersByOrg.translate peers_by_org = .ok peers_by_org') ∨
      (result' = result ∧ result.config = none ∧ result.peers = none) := by
  cases result with
  | config_result conf =>
    obtain ⟨conf', read, rfl⟩ := map_eq_ok.mp h
    exact Or.inl ⟨conf, conf', rfl, rfl, read⟩
  | members peers_by_org =>
    obtain ⟨peers_by_org', read, rfl⟩ := map_eq_ok.mp h
    exact Or.inr (Or.inl ⟨peers_by_org, peers_by_org', rfl, rfl, read⟩)
  | error content => exact Or.inr (Or.inr ⟨(Except.ok.inj h).symm, rfl, rfl⟩)
  | cc_query_res content => exact Or.inr (Or.inr ⟨(Except.ok.inj h).symm, rfl, rfl⟩)
  | other => exact Or.inr (Or.inr ⟨(Except.ok.inj h).symm, rfl, rfl⟩)

theorem returns_translate_again {result result' : DiscoveryResult}
    (h : result.translate utf8 = .ok result') :
    Returns (result'.translate utf8) ↔ result.Fresh := by
  cases result with
  | config_result config =>
    obtain ⟨config', translated, rfl⟩ := map_eq_ok.mp h
    rw [Fresh, ← ConfigResult.returns_translate_again translated]
    exact returns_map
  | members peers_by_org =>
    obtain ⟨peers', translated, rfl⟩ := map_eq_ok.mp h
    rw [Fresh, ← returns_unwrap_again translated]
    exact returns_map
  | error content => cases h; simp [translate, Fresh]
  | cc_query_res content => cases h; simp [translate, Fresh]
  | other => cases h; simp [translate, Fresh]

end DiscoveryResult

section Results

variable {results results' : List DiscoveryResult}

theorem forall₂_configs (h : Translated utf8 results results') :
    List.Forall₂ (fun config config' => config.translate utf8 = .ok config')
      (configs results) (configs results') := by
  refine List.rel_filterMap ?_ h
  intro result result' translated
  rcases DiscoveryResult.translate_cases translated with
    ⟨config, config', rfl, rfl, read⟩ | ⟨peers, peers', rfl, rfl, _⟩ | ⟨rfl, no_config, _⟩
  · exact Option.Rel.some read
  · exact Option.Rel.none
  · rw [no_config]
    exact Option.Rel.none

theorem forall₂_allPeers (h : Translated utf8 results results') :
    List.Forall₂ (fun peers peers' => PeersByOrg.translate peers = .ok peers')
      (allPeers results) (allPeers results') := by
  refine List.rel_filterMap ?_ h
  intro result result' translated
  rcases DiscoveryResult.translate_cases translated with
    ⟨config, config', rfl, rfl, _⟩ | ⟨peers, peers', rfl, rfl, read⟩ | ⟨rfl, _, no_peers⟩
  · exact Option.Rel.none
  · exact Option.Rel.some read
  · rw [no_peers]
    exact Option.Rel.none

theorem recorded_translated (h : Translated utf8 results results') :
    recorded results' = recorded results := by
  induction results using List.reverseRecOn generalizing results' with
  | nil =>
    cases h
    rfl
  | append_singleton results result ih =>
    obtain ⟨read, result', related, translated, rfl⟩ := ListRules.forall₂_concat_left_iff.mp h
    rw [recorded_concat, recorded_concat, ih related,
      DiscoveryResult.translate_record translated, related.length_eq]

/-- The last of the related entries stays as it is if no entry of its kind changes any more. -/
theorem again_eq_iff {α : Type} {R : α → α → Prop} {P : α → Prop} {o o' o'' : Option α}
    (settled : ∀ a a' a'', R a a' → R a' a'' → (a'' = a' ↔ P a)) (h : Option.Rel R o o')
    (h' : Option.Rel R o' o'') : o'' = o' ↔ ∀ a, o = some a → P a := by
  cases h with
  | none =>
    cases h'
    simp
  | some related =>
    cases h' with
    | some related' => simp [settled _ _ _ related related']

/-- The wrapped lists are as they were decoded, and where they are returned there are none. -/
structure SurvivesReading (results : List DiscoveryResult) : Prop where
  fresh : ∀ result ∈ results, result.Fresh
  orderers : ∀ config, (configs results).getLast? = some config → config.orderers.entries = []
  peers : ∀ peers, (allPeers results).getLast? = some peers → peers.entries = []

theorem ParseResult_rereadable_iff {returned : Returned}
    (first : ParseResult utf8 results = .ok (returned, results')) :
    Rereadable (ParseResult utf8) Returned.view results ↔ SurvivesReading results := by
  obtain ⟨related, rfl⟩ := ParseResult_eq_ok.mp first
  have same := recorded_translated related
  have again : ∀ returned results'', ParseResult utf8 results' = .ok (returned, results'') →
      returned = recorded results := by
    intro returned results'' second
    rw [(ParseResult_eq_ok.mp second).2, same]
  have alike : ∀ results'', Translated utf8 results' results'' →
      ((recorded results).view results'' = (recorded results).view results' ↔
        (∀ config, (configs results).getLast? = some config → config.orderers.entries = []) ∧
          ∀ peers, (allPeers results).getLast? = some peers → peers.entries = []) := by
    intro results'' related'
    have viewed : (recorded results).view results' = _ := same ▸ view_recorded results'
    have viewed' : (recorded results).view results'' = _ :=
      (recorded_translated related').trans same ▸ view_recorded results''
    rw [← again_eq_iff (fun _ _ _ => ConfigResult.translate_again_eq_iff)
      (ListRules.getLast?_of_forall₂ (forall₂_configs related))
      (ListRules.getLast?_of_forall₂ (forall₂_configs related')),
      ← again_eq_iff (fun _ _ _ => unwrap_again_eq_iff)
      (ListRules.getLast?_of_forall₂ (forall₂_allPeers related))
      (ListRules.getLast?_of_forall₂ (forall₂_allPeers related')), viewed, viewed']
    simp
  have returns : Returns (results'.mapM (DiscoveryResult.translate utf8)) ↔
      ∀ result ∈ results, result.Fresh := by
    rw [returns_mapM]
    refine (ListRules.forall_mem_iff_of_forall₂ ?_).symm
    exact related.imp fun _ _ h => (DiscoveryResult.returns_translate_again h).symm
  rw [rereadable_iff first again]
  constructor
  · intro h
    obtain ⟨results'', second, viewed⟩ := h
    have related' := (ParseResult_eq_ok.mp second).1
    obtain ⟨orderers, peers⟩ := (alike results'' related').mp viewed
    exact ⟨returns.mp ⟨results'', mapM_eq_ok.mpr related'⟩, orderers, peers⟩
  · intro h
    obtain ⟨results'', second⟩ := returns.mpr h.fresh
    have related' := mapM_eq_ok.mp second
    refine ⟨results'', ParseResult_eq_ok.mpr ⟨related', same.symm⟩, ?_⟩
    exact (alike results'' related').mpr ⟨h.orderers, h.peers⟩

end Results

namespace blockDecoder

/-- `metadata` returns the array that it has written to. -/
def readMetadata (protos : BlockProtos) (slots : List MetadataSlot) :
    Except String (Unit × List MetadataSlot) :=
  (metadata protos slots).map fun slots => ((), slots)

/-- After the first call the value of the signatures is an object, and no bytes to decode. -/
theorem metadata_not_rereadable {protos : BlockProtos} {slots slots' : List MetadataSlot}
    (onlyBytes : ∀ index, ∃ e, protos.decodeLastConfig (.index index) = .error e)
    (first : metadata protos slots = .ok slots') :
    ¬ Rereadable (readMetadata protos) (fun slots _ => slots) slots := by
  have returned : readMetadata protos slots = .ok ((), slots') := by
    simp [readMetadata, first, Except.map]
  intro h
  obtain ⟨_, slots'', second, -⟩ := h () slots' returned
  obtain ⟨slots'', again, -⟩ := map_eq_ok.mp second
  obtain ⟨_, _, _, _, _, _, -, -, -, -, written⟩ := metadata_eq_ok first
  obtain ⟨value, _, _, _, _, _, held, decoded, -⟩ := metadata_eq_ok again
  rw [written] at held
  obtain ⟨e, refused⟩ := onlyBytes _
  cases held
  cases refused.symm.trans decoded

end blockDecoder

theorem decoders_rereadable_iff (protos : blockDecoder.BlockProtos)
    (onlyBytes : ∀ index, ∃ e, protos.decodeLastConfig (.index index) = .error e) :
    (∀ results returned results', ParseResult utf8 results = .ok (returned, results') →
      (Rereadable (ParseResult utf8) Returned.view results ↔ SurvivesReading results)) ∧
    ∀ slots slots', blockDecoder.metadata protos slots = .ok slots' →
      ¬ Rereadable (blockDecoder.readMetadata protos) (fun slots _ => slots) slots := by
  constructor
  · intro results returned results' first
    exact ParseResult_rereadable_iff first
  · intro slots slots' first
    exact blockDecoder.metadata_not_rereadable onlyBytes first

def latin1 (buffer : Buffer) : Text := buffer.map fun byte => Char.ofNat byte.toNat

/-- A response with one organisation, whose certificates are one buffer each. -/
def configOf (orderers : EntryMap String (Wrapped OrdererEndpoint)) : DiscoveryResult :=
  .config_result ⟨⟨[("Org1MSP", ⟨[], .buffers [[65, 10]], .buffers [], .buffers [], .buffers [[66]],
    .buffers []⟩)], by simp⟩, orderers⟩

/-- Without orderers the response can be read again; a block never can. -/
theorem decoders_rereadable_withoutOrderers :
    Rereadable (ParseResult latin1) Returned.view [configOf ⟨[], by simp⟩] ∧
      ¬ Rereadable (blockDecoder.readMetadata blockDecoder.plainProtos) (fun slots _ => slots)
        [.signed (.bytes []) [], .empty, .codes [0], .empty, .bytes []] := by
  have both := @decoders_rereadable_iff latin1 blockDecoder.plainProtos fun _ => ⟨_, rfl⟩
  constructor
  · refine (both.1 _ _ _ rfl).mpr ⟨?_, ?_, ?_⟩
    · intro result mem
      obtain rfl := List.mem_singleton.mp mem
      intro entry listed
      cases listed
    · intro config last
      cases last
      rfl
    · intro peers last
      cases last
  · exact both.2 _ _ rfl

/-- The orderers of the first result are gone after the second call. -/
theorem ParseResult_consumes_orderers :
    ¬ Rereadable (ParseResult latin1) Returned.view
      [configOf ⟨[("OrdererMSP", .message [⟨"orderer", 7050⟩])], by simp⟩] := by
  intro h
  have survives := (ParseResult_rereadable_iff rfl).mp h
  cases survives.orderers _ rfl

end FabricCommon
