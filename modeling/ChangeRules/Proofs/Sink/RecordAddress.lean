import ChangeRules.Proofs.Action.Requests
import ChangeRules.Proofs.Text.Percent

/-!
# The addresses of records

Whoever changes a record names a tenant, a table and a record, and all three may be any text. The
address that is asked for is that of the records with a path behind it, in which the three names are
segments of their own: they are read back from it, so the address belongs to these names only, and
none of them reaches beyond its segment.

* `Address.Spells`: a segment that stands for a name.
* `Address.Locates`: an address of a record.
* **`Address.Locates.names_eq`**: it locates one record only.
* **`Outlets.locates_of_update`**: the addresses that are asked for when records change.
-/

namespace ChangeRules

namespace Address

/-- A segment that stands for a name: no delimiter is in it, percent signs begin escapes, and what it
denotes are the bytes of the name. -/
structure Spells (segment : List Char) (name : String) : Prop where
  escaped : Percent.Escaped segment
  bytes : Percent.bytes segment = Text.utf8Bytes name
  decoded : Percent.decode (String.ofList segment) = name

theorem spells_segment (name : String) : Spells (segment name).toList name where
  escaped := escaped_segment name
  bytes := bytes_segment name
  decoded := by rw [String.ofList_toList, decode_segment]

/-- A segment stands for one name only. -/
theorem Spells.name_eq {s : List Char} {name other : String} (h : Spells s name)
    (h' : Spells s other) : name = other :=
  Text.utf8Bytes_injective (h.bytes.symm.trans h'.bytes)

/-- A path that leads to a record: its pieces between slashes are the names of the levels and a segment
for each of the three names, and no query or fragment follows. -/
structure LeadsTo (tenant table recordId : String) (path : List Char) : Prop where
  pieces : ∃ t b r, path.splitOn '/' =
      [[], "tenants".toList, t, "tables".toList, b, "records".toList, r] ∧
    Spells t tenant ∧ Spells b table ∧ Spells r recordId
  unqueried : '?' ∉ path ∧ '#' ∉ path

/-- An address of a record: a base and a path that leads to it. -/
def Locates (base tenant table recordId address : String) : Prop :=
  ∃ path, address = base ++ String.ofList path ∧ LeadsTo tenant table recordId path

variable {base tenant table recordId tenant' table' recordId' address : String}

/-- **An address locates one record only.** -/
theorem Locates.names_eq (h : Locates base tenant table recordId address)
    (h' : Locates base tenant' table' recordId' address) :
    tenant = tenant' ∧ table = table' ∧ recordId = recordId' := by
  obtain ⟨path, rfl, hpath⟩ := h
  obtain ⟨path', heq, hpath'⟩ := h'
  obtain rfl : path = path' := by
    rw [String.append_right_inj] at heq
    exact String.ofList_injective heq
  obtain ⟨t, b, r, hsplit, ht, hb, hr⟩ := hpath.pieces
  obtain ⟨t', b', r', hsplit', ht', hb', hr'⟩ := hpath'.pieces
  obtain ⟨rfl, rfl, rfl⟩ : t = t' ∧ b = b' ∧ r = r' := by simpa [hsplit] using hsplit'
  exact ⟨ht.name_eq ht', hb.name_eq hb', hr.name_eq hr'⟩

/-- The path behind the address of the records. -/
def recordPath (tenant table recordId : String) : List Char :=
  ['/'].intercalate [[], "tenants".toList, (segment tenant).toList, "tables".toList,
    (segment table).toList, "records".toList, (segment recordId).toList]

/-- No piece of the path has a delimiter in it. -/
theorem isDelimiter_of_mem_piece (tenant table recordId : String) :
    ∀ piece ∈ [[], "tenants".toList, (segment tenant).toList, "tables".toList,
      (segment table).toList, "records".toList, (segment recordId).toList],
    ∀ c ∈ piece, Percent.isDelimiter c = false := by
  have hsegment := fun name => (escaped_segment name).isDelimiter_eq_false
  simp only [List.forall_mem_cons]
  exact ⟨by simp, by simp [Percent.isDelimiter], hsegment tenant, by simp [Percent.isDelimiter],
    hsegment table, by simp [Percent.isDelimiter], hsegment recordId, by simp⟩

/-- Slashes are the only delimiters in the path. -/
theorem not_mem_recordPath {d : Char} (hd : Percent.isDelimiter d = true) (hslash : d ≠ '/')
    (tenant table recordId : String) : d ∉ recordPath tenant table recordId := by
  have hpiece : ∀ piece ∈ _, d ∉ piece := fun piece hpiece hmem =>
    absurd (isDelimiter_of_mem_piece tenant table recordId piece hpiece d hmem) (by simp [hd])
  simp only [List.forall_mem_cons] at hpiece
  obtain ⟨-, hlevel, htenant, hlevel', htable, hlevel'', hrecord, -⟩ := hpiece
  simp only [recordPath, List.intercalate, List.intersperse_cons_cons, List.intersperse_singleton,
    List.flatten_cons, List.flatten_nil, List.nil_append, List.append_nil, List.mem_append,
    List.mem_singleton, hslash, hlevel, hlevel', hlevel'', htenant, htable, hrecord, or_self,
    not_false_eq_true]

theorem leadsTo_recordPath (tenant table recordId : String) :
    LeadsTo tenant table recordId (recordPath tenant table recordId) where
  pieces := by
    refine ⟨_, _, _, List.splitOn_intercalate '/' (fun piece hpiece hslash => ?_) (by simp),
      spells_segment tenant, spells_segment table, spells_segment recordId⟩
    exact absurd (isDelimiter_of_mem_piece tenant table recordId piece hpiece '/' hslash) (by decide)
  unqueried := ⟨not_mem_recordPath (by decide) (by decide) tenant table recordId,
    not_mem_recordPath (by decide) (by decide) tenant table recordId⟩

end Address

namespace Outlets

variable {o : Outlets} {tenant table recordId : String} {fields : Value}

open Address

/-- The address of a record is the base with the path behind it. -/
theorem recordsOf_append (s : OutletSettings) (tenant table recordId : String) :
    s.recordsOf tenant table ++ "/" ++ Address.segment recordId =
      withoutSlashes s.recordsAddress ++ String.ofList (recordPath tenant table recordId) := by
  rw [← String.toList_inj]
  simp [OutletSettings.recordsOf, recordPath, List.intercalate]

/-- The requests that were sent between two states of the outlets. -/
def sentUntil (o o' : Outlets) : List Request := o'.network.sent.drop o.network.sent.length

/-- The request that changes a record. -/
def patch (s : OutletSettings) (tenant table recordId : String) (fields : Value) : Request where
  method := "PATCH"
  address := withoutSlashes s.recordsAddress ++ String.ofList (recordPath tenant table recordId)
  body := .object [("fields", fields)]

/-- A change of a record is one request to the records. -/
theorem update_outlets (o : Outlets) (tenant table recordId : String) (fields : Value) :
    (update (.text tenant) (.text table) (.text recordId) fields o).2 =
      (requestRecords (patch o.settings tenant table recordId fields) o).2 := by
  have haddress : o.recordsAddress (.text tenant) (.text table) =
      .ok (o.settings.recordsOf tenant table) := rfl
  rw [update_eq, haddress]
  dsimp only
  rw [updateRequest, Value.display, recordsOf_append]
  rfl

/-- Nothing but the request is sent, as often as the breaker lets it through. -/
theorem sentUntil_requestRecords (o : Outlets) (r : Request) :
    o.sentUntil (requestRecords r o).2 =
      ((o.recordsClient.triesOf r ⟨o.network, o.records⟩).filter Try.isSent).map Try.request := by
  have hsent := (Traffic.traffic_request o.recordsClient r ⟨o.network, o.records⟩).sent
  exact (congrArg (List.drop o.network.sent.length) hsent).trans List.drop_left

theorem eq_of_mem_sentUntil {r r' : Request} (h : r' ∈ o.sentUntil (requestRecords r o).2) :
    r' = r := by
  rw [sentUntil_requestRecords] at h
  obtain ⟨t, ht, rfl⟩ := List.mem_map.mp h
  obtain ⟨line, -, rfl⟩ := List.mem_map.mp (List.mem_filter.mp ht).1
  rfl

/-- The request is sent if the breaker lets it through and it may be tried at all. -/
theorem mem_sentUntil {r : Request} (hattempts : 1 ≤ o.settings.policy.attempts)
    (hadmits : o.records.admits o.network.clock = true) :
    r ∈ o.sentUntil (requestRecords r o).2 := by
  obtain ⟨left, hleft⟩ : ∃ left, o.recordsClient.retrying.attempts.toNat = left + 1 :=
    Nat.exists_eq_succ_of_ne_zero (by
      have : o.recordsClient.retrying.attempts = o.settings.policy.attempts := rfl
      omega)
  have hfirst : (⟨r, o.network, o.records⟩ : Try) ∈
      o.recordsClient.triesOf r ⟨o.network, o.records⟩ := by
    rw [Client.triesOf, hleft, Retrying.tried, List.map_cons]
    exact List.mem_cons_self
  rw [sentUntil_requestRecords]
  exact List.mem_map.mpr ⟨_, List.mem_filter.mpr ⟨hfirst, hadmits⟩, rfl⟩

/-- **The address that is asked for when a record changes** locates this record and no other one,
whatever the names are. -/
theorem locates_of_update (o : Outlets) (tenant table recordId : String) (fields : Value) :
    let sent := o.sentUntil (update (.text tenant) (.text table) (.text recordId) fields o).2
    (∀ r ∈ sent, r.method = "PATCH" ∧
      Locates (withoutSlashes o.settings.recordsAddress) tenant table recordId r.address) ∧
    (1 ≤ o.settings.policy.attempts → o.records.admits o.network.clock = true → sent ≠ []) ∧
    ∀ (o' : Outlets) (tenant' table' recordId' : String) (fields' : Value),
      withoutSlashes o'.settings.recordsAddress = withoutSlashes o.settings.recordsAddress →
      ∀ r ∈ sent, ∀ r' ∈
        o'.sentUntil (update (.text tenant') (.text table') (.text recordId') fields' o').2,
      r.address = r'.address → tenant = tenant' ∧ table = table' ∧ recordId = recordId' := by
  have hlocates : ∀ (o : Outlets) (tenant table recordId : String) (fields : Value), ∀ r ∈
      o.sentUntil (update (.text tenant) (.text table) (.text recordId) fields o).2,
      r.method = "PATCH" ∧
        Locates (withoutSlashes o.settings.recordsAddress) tenant table recordId r.address := by
    intro o tenant table recordId fields r hr
    rw [update_outlets] at hr
    rw [eq_of_mem_sentUntil hr]
    exact ⟨rfl, recordPath tenant table recordId, rfl, leadsTo_recordPath tenant table recordId⟩
  refine ⟨hlocates o tenant table recordId fields, fun hattempts hadmits => ?_, ?_⟩
  · rw [update_outlets]
    exact List.ne_nil_of_mem (mem_sentUntil hattempts hadmits)
  · intro o' tenant' table' recordId' fields' hbase r hr r' hr' heq
    have hr'' := (hlocates o' tenant' table' recordId' fields' r' hr').2
    rw [hbase, ← heq] at hr''
    exact (hlocates o tenant table recordId fields r hr).2.names_eq hr''

/-- Names with delimiters, an escape, and letters that take several bytes. -/
theorem locates_of_update_delimited :
    let o := Outlets.start { recordsAddress := "http://data/" } { sinks := Script.sinks [] }
    let sent := o.sentUntil
      (update (.text "t/1?") (.text "%2F#") (.text "ä/€😀") (.object []) o).2
    sent.map (·.address) =
      ["http://data/tenants/t%2F1%3F/tables/%252F%23/records/%C3%A4%2F%E2%82%AC%F0%9F%98%80"] ∧
    ∀ r ∈ sent, Locates (withoutSlashes "http://data/") "t/1?" "%2F#" "ä/€😀" r.address :=
  ⟨by decide +kernel, fun r hr =>
    ((locates_of_update (.start { recordsAddress := "http://data/" } { sinks := Script.sinks [] })
      "t/1?" "%2F#" "ä/€😀" (.object [])).1 r hr).2⟩

end Outlets

end ChangeRules
