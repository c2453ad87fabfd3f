import SemanticHighlight.Response
import SemanticHighlight.Proofs.Hit.RoundTrip

/-!
# Responses are read back

A response that was read (`Response.IsRead`) is written as a value (`Response.isValue_toJson`) and,
if its scores are finite, read back from it (`Response.decode_toJson`): the page of its hits by
`Hit.decodePage_pageJson`, the accounts of the engine field by field.
-/

namespace SemanticHighlight

open Numeric

namespace ShardFailure

variable {f : ShardFailure} {j : Json}

/-- The names of the parts of a failure. -/
def parts : List String := ["index", "shard", "node", "reason"]

/-- The reason of a failure that was read is a value. -/
theorem isValue_reason (h : decode j = .ok f) : f.reason.IsValue := by
  unfold decode at h
  obtain ⟨r, -, h⟩ := bind_eq_ok_iff.1 h
  obtain ⟨index, -, h⟩ := bind_eq_ok_iff.1 h
  obtain ⟨shard, -, h⟩ := bind_eq_ok_iff.1 h
  obtain ⟨node, -, h⟩ := bind_eq_ok_iff.1 h
  obtain ⟨reason, hreason, h⟩ := bind_eq_ok_iff.1 h
  cases h
  rcases Json.Record.of_defaulted hreason with rfl | ⟨j, -, hj⟩
  · exact Json.isValue_null
  · exact Json.isValue_of_value hj

/-- A failure of a shard reads back. -/
theorem decode_toJson (h : f.reason.IsValue) : decode f.toJson = .ok f := by
  obtain ⟨r, hrecord, hr⟩ : ∃ r, Json.record parts [] f.toJson = .ok r ∧ r.Holds _ :=
    Json.exists_record rfl (by decide) fun _ _ => rfl
  unfold decode
  refine bind_eq_ok_iff.2 ⟨r, hrecord, ?_⟩
  refine bind_eq_ok_iff.2 ⟨_, hr.optional_at 0 rfl fun s _ => Json.readsBack_text s, ?_⟩
  refine bind_eq_ok_iff.2 ⟨_, hr.optional_at 1 rfl fun n _ => Json.readsBack_uint32 n, ?_⟩
  refine bind_eq_ok_iff.2 ⟨_, hr.optional_at 2 rfl fun s _ => Json.readsBack_text s, ?_⟩
  refine bind_eq_ok_iff.2 ⟨_, hr.given_at 3 rfl h.value_eq, ?_⟩
  rfl

/-- A failure of a shard prints as a value. -/
theorem isValue_toJson (h : f.reason.IsValue) : f.toJson.IsValue := by
  refine Json.isValue_ofFields (show parts.Nodup by decide) ?_
  simp only [List.forall_mem_cons]
  exact ⟨Json.holdsValue_map fun s _ => Json.isValue_string s,
    Json.holdsValue_map fun _ _ => Json.isValue_number _,
    Json.holdsValue_map fun s _ => Json.isValue_string s, Json.holdsValue_some h,
    fun _ hf => absurd hf List.not_mem_nil⟩

end ShardFailure

namespace Shards

variable {s : Shards} {j : Json}

/-- The names of the parts of the account of the shards. -/
def parts : List String := ["total", "successful", "skipped", "failed", "failures"]

/-- The reasons that were read with the counts of shards are values. -/
theorem isValue_reasons (h : decode j = .ok s) : ∀ f ∈ s.failures, f.reason.IsValue := by
  unfold decode at h
  obtain ⟨r, -, h⟩ := bind_eq_ok_iff.1 h
  obtain ⟨total, -, h⟩ := bind_eq_ok_iff.1 h
  obtain ⟨successful, -, h⟩ := bind_eq_ok_iff.1 h
  obtain ⟨skipped, -, h⟩ := bind_eq_ok_iff.1 h
  obtain ⟨failed, -, h⟩ := bind_eq_ok_iff.1 h
  obtain ⟨failures, hfailures, h⟩ := bind_eq_ok_iff.1 h
  cases h
  rcases Json.Record.of_defaulted hfailures with rfl | ⟨j, -, hj⟩
  · exact fun f hf => absurd hf List.not_mem_nil
  · intro f hf
    obtain ⟨j, hj⟩ := Json.exists_of_list hj f hf
    exact ShardFailure.isValue_reason hj

/-- The counts of shards read back, with their failures. -/
theorem decode_toJson (h : ∀ f ∈ s.failures, f.reason.IsValue) : decode s.toJson = .ok s := by
  obtain ⟨r, hrecord, hr⟩ : ∃ r, Json.record parts [] s.toJson = .ok r ∧ r.Holds _ :=
    Json.exists_record rfl (by decide) fun _ _ => rfl
  unfold decode
  refine bind_eq_ok_iff.2 ⟨r, hrecord, ?_⟩
  refine bind_eq_ok_iff.2 ⟨_, hr.required_at 0 rfl (Json.readsBack_uint32 _).read, ?_⟩
  refine bind_eq_ok_iff.2 ⟨_, hr.required_at 1 rfl (Json.readsBack_uint32 _).read, ?_⟩
  refine bind_eq_ok_iff.2 ⟨_, hr.given_at 2 rfl (Json.readsBack_uint32 _).read, ?_⟩
  refine bind_eq_ok_iff.2 ⟨_, hr.given_at 3 rfl (Json.readsBack_uint32 _).read, ?_⟩
  refine bind_eq_ok_iff.2 ⟨_, hr.list_at 4 rfl (Json.list_map fun f hf =>
    ShardFailure.decode_toJson (h f hf)), ?_⟩
  rfl

/-- The counts of shards print as a value. -/
theorem isValue_toJson (h : ∀ f ∈ s.failures, f.reason.IsValue) : s.toJson.IsValue := by
  have hfailures : (Json.array (s.failures.map ShardFailure.toJson)).IsValue := by
    refine Json.isValue_array_iff.2 fun j hj => ?_
    obtain ⟨f, hf, rfl⟩ := List.mem_map.1 hj
    exact ShardFailure.isValue_toJson (h f hf)
  refine Json.isValue_ofFields (show parts.Nodup by decide) ?_
  simp only [List.forall_mem_cons]
  exact ⟨Json.holdsValue_some (Json.isValue_number _), Json.holdsValue_some (Json.isValue_number _),
    Json.holdsValue_some (Json.isValue_number _), Json.holdsValue_some (Json.isValue_number _),
    Json.holdsValue_nonempty hfailures, fun _ hf => absurd hf List.not_mem_nil⟩

end Shards

namespace Clusters

/-- The names of the parts of the account of the clusters. -/
def parts : List String := ["total", "successful", "skipped"]

/-- The counts of clusters read back. -/
theorem readsBack (c : Clusters) : Json.ReadsBack decode toJson c := by
  obtain ⟨r, hrecord, hr⟩ : ∃ r, Json.record parts [] c.toJson = .ok r ∧ r.Holds _ :=
    Json.exists_record rfl (by decide) fun _ _ => rfl
  refine ⟨by simp [toJson, Json.ofFields], ?_⟩
  unfold decode
  refine bind_eq_ok_iff.2 ⟨r, hrecord, ?_⟩
  refine bind_eq_ok_iff.2 ⟨_, hr.required_at 0 rfl (Json.readsBack_uint32 _).read, ?_⟩
  refine bind_eq_ok_iff.2 ⟨_, hr.required_at 1 rfl (Json.readsBack_uint32 _).read, ?_⟩
  refine bind_eq_ok_iff.2 ⟨_, hr.required_at 2 rfl (Json.readsBack_uint32 _).read, ?_⟩
  rfl

/-- The counts of clusters print as a value. -/
theorem isValue_toJson (c : Clusters) : c.toJson.IsValue := by
  refine Json.isValue_ofFields (show parts.Nodup by decide) ?_
  simp only [List.forall_mem_cons]
  exact ⟨Json.holdsValue_some (Json.isValue_number _), Json.holdsValue_some (Json.isValue_number _),
    Json.holdsValue_some (Json.isValue_number _), fun _ hf => absurd hf List.not_mem_nil⟩

end Clusters

namespace Response

variable {r : Response} {v : Json}

theorem nodup_parts : parts.Nodup := by decide

/-- What holds of a response that was read. -/
structure IsRead (r : Response) : Prop where
  reasons : ∀ f ∈ r.shards.failures, f.reason.IsValue
  hits : ∀ h ∈ r.hits, h.IsRead
  aggregations : Json.IsOptionalValue r.aggregations
  suggest : Json.IsOptionalValue r.suggest
  profile : Json.IsOptionalValue r.profile

/-- Whether the scores of the hits and of the pages are finite, at every depth. -/
def hasFiniteScores (r : Response) : Bool := Hit.pageHasFiniteScores r.page

/-- What was read, and where its hits come from. -/
theorem of_decode (h : decode v = .ok r) : r.IsRead ∧ ∃ record,
    Json.record parts [] v = .ok record ∧
      record.defaulted "hits" .empty Hit.decodePage = .ok r.page := by
  unfold decode at h
  obtain ⟨record, hrecord, h⟩ := bind_eq_ok_iff.1 h
  obtain ⟨scrollId, -, h⟩ := bind_eq_ok_iff.1 h
  obtain ⟨took, -, h⟩ := bind_eq_ok_iff.1 h
  obtain ⟨timedOut, -, h⟩ := bind_eq_ok_iff.1 h
  obtain ⟨terminatedEarly, -, h⟩ := bind_eq_ok_iff.1 h
  obtain ⟨reducePhases, -, h⟩ := bind_eq_ok_iff.1 h
  obtain ⟨shards, hshards, h⟩ := bind_eq_ok_iff.1 h
  obtain ⟨clusters, -, h⟩ := bind_eq_ok_iff.1 h
  obtain ⟨page, hpage, h⟩ := bind_eq_ok_iff.1 h
  obtain ⟨aggregations, haggregations, h⟩ := bind_eq_ok_iff.1 h
  obtain ⟨suggest, hsuggest, h⟩ := bind_eq_ok_iff.1 h
  obtain ⟨profile, hprofile, h⟩ := bind_eq_ok_iff.1 h
  cases h
  refine ⟨?_, record, hrecord, hpage⟩
  -- what the parts were read as are values, or their defaults, which are none
  exact {
    reasons := by
      rcases Json.Record.of_defaulted hshards with rfl | ⟨j, -, hj⟩
      · exact fun f hf => absurd hf List.not_mem_nil
      · exact Shards.isValue_reasons hj
    hits := by
      rcases Json.Record.of_defaulted hpage with rfl | ⟨j, -, hj⟩
      · exact fun h hh => absurd hh List.not_mem_nil
      · intro h hh
        obtain ⟨j, hread⟩ := Hit.exists_of_decodePage hj h hh
        exact Hit.isRead_of_decode hread
    aggregations := Json.Record.isOptionalValue_of_optional haggregations
    suggest := Json.Record.isOptionalValue_of_optional hsuggest
    profile := Json.Record.isOptionalValue_of_optional hprofile }

/-- A response that was read and has finite scores is read back from what it is written as. -/
theorem decode_toJson (h : r.IsRead) (hfinite : r.hasFiniteScores = true) :
    decode r.toJson = .ok r := by
  obtain ⟨hmaxScore, hscores⟩ := Hit.pageHasFiniteScores_iff.1 hfinite
  have hpage : Hit.decodePage (Hit.pageJson .ofSingle r.page) = .ok r.page :=
    Hit.decodePage_pageJson hmaxScore fun hit hhit =>
      Hit.decode_toJson (h.hits hit hhit) (hscores hit hhit)
  obtain ⟨record, hrecord, hr⟩ : ∃ record, Json.record parts [] r.toJson = .ok record ∧
      record.Holds _ := Json.exists_record rfl nodup_parts fun _ _ => rfl
  -- the fields in the order in which they are read, each found under its own name
  unfold decode
  refine bind_eq_ok_iff.2 ⟨record, hrecord, ?_⟩
  refine bind_eq_ok_iff.2 ⟨_, hr.optional_at 0 rfl fun s _ => Json.readsBack_text s, ?_⟩
  refine bind_eq_ok_iff.2 ⟨_, hr.required_at 1 rfl (Json.readsBack_uint64 _).read, ?_⟩
  refine bind_eq_ok_iff.2 ⟨_, hr.given_at 2 rfl (Json.readsBack_boolean _).read, ?_⟩
  refine bind_eq_ok_iff.2 ⟨_, hr.optional_at 3 rfl fun b _ => Json.readsBack_boolean b, ?_⟩
  refine bind_eq_ok_iff.2 ⟨_, hr.optional_at 4 rfl fun n _ => Json.readsBack_uint32 n, ?_⟩
  refine bind_eq_ok_iff.2 ⟨_, hr.given_at 5 rfl (Shards.decode_toJson h.reasons), ?_⟩
  refine bind_eq_ok_iff.2 ⟨_, hr.optional_at 6 rfl fun c _ => c.readsBack, ?_⟩
  refine bind_eq_ok_iff.2 ⟨_, hr.given_at 7 rfl hpage, ?_⟩
  refine bind_eq_ok_iff.2 ⟨_, hr.value_at 8 rfl h.aggregations, ?_⟩
  refine bind_eq_ok_iff.2 ⟨_, hr.value_at 9 rfl h.suggest, ?_⟩
  refine bind_eq_ok_iff.2 ⟨_, hr.value_at 10 rfl h.profile, ?_⟩
  rfl

/-- A response that was read prints as a value. -/
theorem isValue_toJson (h : r.IsRead) : r.toJson.IsValue := by
  refine Json.isValue_ofFields nodup_parts ?_
  simp only [List.forall_mem_cons]
  exact ⟨Json.holdsValue_map fun s _ => Json.isValue_string s,
    Json.holdsValue_some (Json.isValue_number _), Json.holdsValue_some (Json.isValue_bool _),
    Json.holdsValue_map fun b _ => Json.isValue_bool b,
    Json.holdsValue_map fun _ _ => Json.isValue_number _,
    Json.holdsValue_some (Shards.isValue_toJson h.reasons),
    Json.holdsValue_map fun c _ => c.isValue_toJson,
    Json.holdsValue_some (Hit.isValue_pageJson fun hit hhit =>
      Hit.isValue_toJson (h.hits hit hhit)),
    h.aggregations.holdsValue, h.suggest.holdsValue, h.profile.holdsValue,
    fun _ hf => absurd hf List.not_mem_nil⟩

end Response

end SemanticHighlight
