/-
# Appending to the event store

Trusted ingress: an envelope is validated, its kind and provenance are checked against the
registry, its source is bound to one VM scope, and a repeated key is a duplicate or a conflict
by the hash of its payload. Violations are recorded as health events on the store's own
stream, in a transaction of their own. A failed transaction changes nothing; hashes are a
parameter, taken as collision free where it matters.
-/
import Observatory.Events.Validate
import Observatory.Lib.Machine

namespace Observatory

open Lib Events List

/-! ## Tables -/

/-- A row of the events table. -/
structure Store.Event (H : Type) where
  eventID : Nat
  sourceInstanceID : Bytes
  sourceSeq : Bytes
  vmID : Option Bytes
  bootID : Option Bytes
  kind : Bytes
  hostReceivedAt : Bytes
  payload : Bytes
  payloadHash : H
deriving DecidableEq

/-- The store: its events in the order of ingestion, the streams with the VM scope each is bound
to, the last event id issued, and the identity of its own stream. -/
structure Store (H : Type) where
  events : List (Store.Event H)
  streams : List (Bytes × Option Bytes)
  lastID : Nat
  instanceID : Bytes
  systemSeq : Int

namespace Store

variable {H : Type}

/-- Where an envelope landed in the ingestion order. -/
structure AppendResult where
  eventID : Bytes
  deduped : Bool

def AppendResult.zero : AppendResult := ⟨[], false⟩

inductive AppendError where
  | eventIDPreset
  | invalid (problems : List Problem)
  | unregisteredKind (kind : Bytes)
  | provenanceMismatch (kind : Bytes) (registered claimed : Provenance)
  | marshal
  | integrityFailure (source seq : Bytes)
  | streamScopeMismatch (source : Bytes)
  | database
deriving DecidableEq

def Event.key (e : Event H) : Bytes × Bytes := (e.sourceInstanceID, e.sourceSeq)

/-- The row that holds a key. -/
def lookup (s : Store H) (source seq : Bytes) : Option (Event H) :=
  s.events.find? fun e => e.key = (source, seq)

def scopeOf (s : Store H) (source : Bytes) : Option (Option Bytes) :=
  (s.streams.find? fun p => p.1 = source).map (·.2)

/-! ## Invariants -/

/-- The tables are consistent: keys are unique, ids increase, the events of a source carry the
scope it is bound to, and hashes are those of the payloads. -/
structure Wf (hash : Bytes → H) (s : Store H) : Prop where
  keys : (s.events.map Event.key).Nodup
  ids : s.events.Pairwise fun e e' => e.eventID < e'.eventID
  ids_le : ∀ e ∈ s.events, e.eventID ≤ s.lastID
  bound : ∀ e ∈ s.events, s.scopeOf e.sourceInstanceID = some e.vmID
  hashed : ∀ e ∈ s.events, e.payloadHash = hash e.payload

/-- The events of `s` stand in `t` in the same places, and its streams are bound as they were. -/
def Extends (s t : Store H) : Prop :=
  s.events <+: t.events ∧ ∀ source scope, s.scopeOf source = some scope →
    t.scopeOf source = some scope

variable {payload seq source : Bytes} {c : Call} {s t : Store H}

lemma lookup_eq_none :
    s.lookup source seq = none ↔ (source, seq) ∉ s.events.map Event.key := by
  simp [lookup]

lemma mem_of_lookup {e : Event H} (h : s.lookup source seq = some e) :
    e ∈ s.events ∧ e.key = (source, seq) :=
  ⟨mem_of_find?_eq_some h, by simpa using List.find?_some h⟩

lemma lookup_of_extends (hext : Extends s t) {e : Event H} (h : s.lookup source seq = some e) :
    t.lookup source seq = some e := by
  obtain ⟨added, hadded⟩ := hext.1
  rw [lookup, ← hadded, List.find?_append]
  simp only [lookup] at h
  simp [h]

/-- A row is found under its own key. -/
lemma Wf.lookup_of_mem {hash : Bytes → H} (hwf : s.Wf hash) {e : Event H} (he : e ∈ s.events) :
    s.lookup e.sourceInstanceID e.sourceSeq = some e := by
  cases h : s.lookup e.sourceInstanceID e.sourceSeq with
  | none => exact absurd (mem_map_of_mem he) (lookup_eq_none.1 h)
  | some e' =>
    obtain ⟨he', hkey⟩ := mem_of_lookup h
    rw [inj_on_of_nodup_map hwf.keys he' he hkey]

lemma scopeOf_congr (h : t.streams = s.streams) (source : Bytes) :
    t.scopeOf source = s.scopeOf source := by
  simp [scopeOf, h]

lemma scopeOf_append (s : Store H) (source source' : Bytes) (scope : Option Bytes) :
    ({ s with streams := s.streams ++ [(source', scope)] } : Store H).scopeOf source =
      (s.scopeOf source).or (if source' = source then some scope else none) := by
  simp only [scopeOf, List.find?_append, Option.map_or]
  by_cases h : source' = source <;> simp [h]

lemma Extends.refl (s : Store H) : Extends s s := ⟨prefix_refl _, fun _ _ h => h⟩

lemma Extends.trans {u : Store H} (hst : Extends s t) (htu : Extends t u) : Extends s u :=
  ⟨hst.1.trans htu.1, fun _ _ h => htu.2 _ _ (hst.2 _ _ h)⟩

/-- The tables of a new database. -/
def new (H : Type) (instanceID : Bytes) : Store H :=
  { events := [], streams := [], lastID := 0, instanceID := instanceID, systemSeq := 0 }

lemma wf_new (hash : Bytes → H) (instanceID : Bytes) : (new H instanceID).Wf hash :=
  ⟨nodup_nil, .nil, by simp [new], by simp [new], by simp [new]⟩

/-! ## Transactions -/

/-- The checks before the transaction: no preset id, a valid envelope of a registered kind with
that kind's provenance. What passes is the payload to store. -/
def checkAppend (env : Envelope) : Except AppendError Bytes :=
  if env.eventID.isSome then .error .eventIDPreset
  else if env.validate ≠ [] then .error (.invalid env.validate)
  else
    match lookupKind env.kind with
    | none => .error (.unregisteredKind env.kind)
    | some info =>
      if env.provenance ≠ info.provenance then
        .error (.provenanceMismatch env.kind info.provenance env.provenance)
      else
        match env.marshal with
        | none => .error .marshal
        | some payload => .ok payload

lemma checkAppend_eq_ok {env : Envelope} :
    checkAppend env = .ok payload ↔ env.eventID = none ∧ env.validate = [] ∧
      (∃ info, lookupKind env.kind = some info ∧ env.provenance = info.provenance) ∧
      env.marshal = some payload := by
  unfold checkAppend
  by_cases hid : env.eventID.isSome
  · have : env.eventID ≠ none := Option.isSome_iff_ne_none.1 hid
    simp [hid, this]
  have hid' : env.eventID = none := by simpa using hid
  by_cases hvalid : env.validate = []
  · cases hkind : lookupKind env.kind with
    | none => simp [hid', hvalid]
    | some info =>
      by_cases hprov : env.provenance = info.provenance
      · cases hm : env.marshal <;> simp [hid', hvalid, hprov]
      · simp [hid', hvalid, hprov]
  · simp [hid', hvalid]

lemma checkAppend_ne_integrityFailure (env : Envelope) (source seq : Bytes) :
    checkAppend env ≠ .error (.integrityFailure source seq) := by
  unfold checkAppend
  split
  · simp
  split
  · simp
  split
  · simp
  split
  · simp
  split <;> simp

variable [DecidableEq H]

/-- Bind, dedup and insert inside a transaction. On an error the caller rolls back, so the store
that is returned with one is not kept. -/
def appendInTx (s : Store H) (env : Envelope) (payload : Bytes) (hash : H) :
    Store H × AppendResult × Option AppendError :=
  let bound := s.scopeOf env.sourceInstanceID
  if bound.isSome ∧ bound ≠ some env.vmID then
    (s, .zero, some (.streamScopeMismatch env.sourceInstanceID))
  else
    match s.lookup env.sourceInstanceID env.sourceSeq with
    | some e =>
      if hash = e.payloadHash then (s, ⟨formatUint e.eventID, true⟩, none)
      else
        (s, ⟨formatUint e.eventID, false⟩,
          some (.integrityFailure env.sourceInstanceID env.sourceSeq))
    | none =>
      let streams :=
        if bound.isSome then s.streams else s.streams ++ [(env.sourceInstanceID, env.vmID)]
      let row : Event H :=
        { eventID := s.lastID + 1
          sourceInstanceID := env.sourceInstanceID
          sourceSeq := env.sourceSeq
          vmID := env.vmID
          bootID := env.bootID
          kind := env.kind
          hostReceivedAt := env.hostReceivedAt.format
          payload := payload
          payloadHash := hash }
      ({ s with events := s.events ++ [row], streams := streams, lastID := s.lastID + 1 },
        ⟨formatUint (s.lastID + 1), false⟩, none)

/-- One transaction, which the database may fail. -/
def appendTx (s : Store H) (dbOk : Bool) (env : Envelope) (payload : Bytes) (hash : H) :
    Store H × AppendResult × Option AppendError :=
  if dbOk then
    match s.appendInTx env payload hash with
    | (_, res, some err) => (s, res, some err)
    | r => r
  else (s, .zero, some .database)

variable (hash : Bytes → H)

/-- An append that records no health event. -/
def appendPlain (s : Store H) (dbOk : Bool) (env : Envelope) :
    Store H × AppendResult × Option AppendError :=
  match checkAppend env with
  | .error err => (s, .zero, some err)
  | .ok payload => s.appendTx dbOk env payload (hash payload)

/-! ## Health events -/

/-- The next value of a 64-bit counter. -/
def addInt64 (n : Int) : Int := (n + 1 + 2 ^ 63) % 2 ^ 64 - 2 ^ 63

def notApplicableQuality : Quality :=
  { Quality.zero with pathResolution := .notApplicable, attribution := .notApplicable }

def systemEnvelope (s : Store H) (kind sensor : Bytes) (quality : Quality)
    (data : List (Bytes × Json)) (now : Instant) : Envelope :=
  { Envelope.zero with
    schemaVersion := 1
    sourceInstanceID := s.instanceID
    sourceSeq := formatInt (addInt64 s.systemSeq)
    kind := kind
    provenance := .hostObserved
    sensor := sensor
    hostReceivedAt := now
    quality := quality
    data := some data }

/-- Record a health event; the counter of the store's stream moves on whether or not it can be
recorded. -/
def withHealth (s : Store H) (dbOk : Bool) (now : Instant) (kind : Bytes)
    (data : List (Bytes × Json)) : Store H × Option AppendError :=
  let env := s.systemEnvelope kind (ascii "store") notApplicableQuality (mkMap data) now
  let r := appendPlain hash { s with systemSeq := addInt64 s.systemSeq } dbOk env
  (r.1, r.2.2)

/-- The kind and data of the health event a violation is recorded with. -/
def healthOf (env : Envelope) (res : AppendResult) :
    AppendError → Option (Bytes × List (Bytes × Json))
  | .unregisteredKind _ =>
    some (ascii "telemetry.unregistered_kind",
      [(ascii "kind", .str env.kind),
       (ascii "source_instance_id", .str env.sourceInstanceID),
       (ascii "source_seq", .str env.sourceSeq)])
  | .integrityFailure _ _ =>
    some (ascii "telemetry.integrity_failure",
      [(ascii "failure", .str (ascii "seq_payload_conflict")),
       (ascii "source_instance_id", .str env.sourceInstanceID),
       (ascii "source_seq", .str env.sourceSeq),
       (ascii "existing_event_id", .str res.eventID)])
  | .streamScopeMismatch _ =>
    some (ascii "telemetry.integrity_failure",
      [(ascii "failure", .str (ascii "stream_scope_rebind")),
       (ascii "source_instance_id", .str env.sourceInstanceID),
       (ascii "source_seq", .str env.sourceSeq)])
  | _ => none

/-- One call of `Append`, with what the database and the clock do during it. -/
structure Call where
  env : Envelope
  dbOk : Bool
  healthDbOk : Bool
  now : Instant

/-- What `Append` returns; the error of a health event that could not be recorded is joined to
the cause. -/
structure Reply where
  res : AppendResult
  err : Option AppendError
  healthErr : Option AppendError

def append (s : Store H) (c : Call) : Store H × Reply :=
  match s.appendPlain hash c.dbOk c.env with
  | (s', res, none) => (s', ⟨res, none, none⟩)
  | (s', res, some err) =>
    match healthOf c.env res err with
    | none => (s', ⟨res, some err, none⟩)
    | some (kind, data) =>
      let h := s'.withHealth hash c.healthDbOk c.now kind data
      (h.1, ⟨res, some err, h.2⟩)

/-! ## What one append can do -/

/-- The outcomes of an append that records no health event. -/
inductive PlainCase (s : Store H) (env : Envelope) : Store H × AppendResult × Option AppendError → Prop
  | refused (res err) : PlainCase s env (s, res, some err)
  | duplicate (payload e) (hcheck : checkAppend env = .ok payload)
      (hscope : s.scopeOf env.sourceInstanceID ∈ [none, some env.vmID])
      (hlookup : s.lookup env.sourceInstanceID env.sourceSeq = some e)
      (hhash : e.payloadHash = hash payload) :
      PlainCase s env (s, ⟨formatUint e.eventID, true⟩, none)
  | inserted (payload row streams) (hcheck : checkAppend env = .ok payload)
      (hlookup : s.lookup env.sourceInstanceID env.sourceSeq = none)
      (hrow : row.eventID = s.lastID + 1 ∧ row.sourceInstanceID = env.sourceInstanceID ∧
        row.sourceSeq = env.sourceSeq ∧ row.vmID = env.vmID ∧ row.kind = env.kind ∧
        row.payload = payload ∧ row.payloadHash = hash payload)
      (hstreams : s.scopeOf env.sourceInstanceID = some env.vmID ∧ streams = s.streams ∨
        s.scopeOf env.sourceInstanceID = none ∧
          streams = s.streams ++ [(env.sourceInstanceID, env.vmID)]) :
      PlainCase s env
        ({ s with events := s.events ++ [row], streams := streams, lastID := s.lastID + 1 },
          ⟨formatUint (s.lastID + 1), false⟩, none)

lemma appendPlain_cases (s : Store H) (dbOk : Bool) (env : Envelope) :
    PlainCase hash s env (s.appendPlain hash dbOk env) := by
  unfold appendPlain
  cases hcheck : checkAppend env with
  | error err => exact .refused _ _
  | ok payload =>
    cases dbOk with
    | false => exact .refused _ _
    | true =>
      simp only [appendTx, appendInTx, if_true]
      by_cases hscope : (s.scopeOf env.sourceInstanceID).isSome ∧
          s.scopeOf env.sourceInstanceID ≠ some env.vmID
      · rw [if_pos hscope]
        exact .refused _ _
      rw [if_neg hscope]
      cases hlookup : s.lookup env.sourceInstanceID env.sourceSeq with
      | some e =>
        by_cases hhash : hash payload = e.payloadHash
        · simp only [if_pos hhash]
          refine .duplicate payload e hcheck ?_ hlookup hhash.symm
          cases hs : s.scopeOf env.sourceInstanceID <;> simp_all
        · simp only [if_neg hhash]
          exact .refused _ _
      | none =>
        refine .inserted payload _ _ hcheck hlookup ⟨rfl, rfl, rfl, rfl, rfl, rfl, rfl⟩ ?_
        cases hs : s.scopeOf env.sourceInstanceID <;> simp_all

lemma healthOf_kind {env : Envelope} {res : AppendResult} {err : AppendError} {kind : Bytes}
    {data : List (Bytes × Json)} (h : healthOf env res err = some (kind, data)) :
    kind ∈ [ascii "telemetry.unregistered_kind", ascii "telemetry.integrity_failure"] := by
  cases err <;> simp_all [healthOf]

/-- What the appends of health-free calls keep, a call with its health event keeps. -/
lemma append_preserves {P : Store H → Prop} (hseq : ∀ s n, P s → P { s with systemSeq := n })
    (hplain : ∀ s dbOk env, P s → P (s.appendPlain hash dbOk env).1) (hs : P s) (c : Call) :
    P (s.append hash c).1 := by
  have hp := hplain s c.dbOk c.env hs
  unfold append
  cases hcall : s.appendPlain hash c.dbOk c.env with
  | mk s' r =>
    rw [hcall] at hp
    obtain ⟨res, _ | err⟩ := r
    · exact hp
    cases hhealth : healthOf c.env res err with
    | none => simpa [hhealth] using hp
    | some h => simpa [hhealth, withHealth] using hplain _ _ _ (hseq _ _ hp)

/-! ## Appending keeps the invariants -/

/-- Appending only adds events and bindings. -/
lemma extends_appendPlain (s : Store H) (dbOk : Bool) (env : Envelope) :
    Extends s (s.appendPlain hash dbOk env).1 := by
  have hcase := appendPlain_cases hash s dbOk env
  generalize s.appendPlain hash dbOk env = r at hcase ⊢
  cases hcase with
  | refused | duplicate => exact ⟨prefix_refl _, fun _ _ h => h⟩
  | inserted payload row streams _ _ _ hstreams =>
    refine ⟨prefix_append _ _, fun source scope h => ?_⟩
    obtain ⟨-, rfl⟩ | ⟨-, rfl⟩ := hstreams
    · exact h
    · have := scopeOf_append s source env.sourceInstanceID env.vmID
      rw [h] at this
      exact this

lemma Wf.appendPlain (hwf : s.Wf hash) (dbOk : Bool) (env : Envelope) :
    (s.appendPlain hash dbOk env).1.Wf hash := by
  have hext := extends_appendPlain hash s dbOk env
  have hcase := appendPlain_cases hash s dbOk env
  generalize s.appendPlain hash dbOk env = r at hext hcase ⊢
  cases hcase with
  | refused | duplicate => exact hwf
  | inserted payload row streams _ hlookup hrow hstreams =>
    obtain ⟨hid, hsource, hseq, hvm, -, hpayload, hhash⟩ := hrow
    have hkey : row.key = (env.sourceInstanceID, env.sourceSeq) := by simp [Event.key, hsource, hseq]
    have hbound : (scopeOf { s with streams := streams } row.sourceInstanceID) = some row.vmID := by
      rw [hsource, hvm]
      obtain ⟨h, rfl⟩ | ⟨h, rfl⟩ := hstreams
      · exact h
      · simp [scopeOf_append, h]
    refine ⟨?_, ?_, ?_, ?_, ?_⟩
    · have hnew := lookup_eq_none.1 hlookup
      rw [← hkey] at hnew
      rw [map_append, map_singleton]
      exact hwf.keys.append (nodup_singleton _) (disjoint_singleton.2 hnew)
    · simp only [pairwise_append, pairwise_singleton, mem_singleton, true_and]
      refine ⟨hwf.ids, ?_⟩
      rintro e he _ rfl
      have := hwf.ids_le e he
      omega
    · intro e he
      rcases mem_append.1 he with he | he
      · exact (hwf.ids_le e he).trans (Nat.le_succ _)
      · rw [mem_singleton.1 he, hid]
    · intro e he
      rcases mem_append.1 he with he | he
      · exact hext.2 _ _ (hwf.bound e he)
      · rw [mem_singleton.1 he]
        exact hbound
    · intro e he
      rcases mem_append.1 he with he | he
      · exact hwf.hashed e he
      · rw [mem_singleton.1 he, hhash, hpayload]

lemma extends_append (s : Store H) (c : Call) : Extends s (s.append hash c).1 :=
  append_preserves hash (P := Extends s) (fun _ _ h => h)
    (fun t dbOk env h => h.trans (extends_appendPlain hash t dbOk env))
    (.refl s) c

lemma Wf.append (hwf : s.Wf hash) (c : Call) : (s.append hash c).1.Wf hash :=
  append_preserves hash (P := Wf hash) (fun _ _ h => ⟨h.keys, h.ids, h.ids_le, h.bound, h.hashed⟩)
    (fun _ dbOk env h => h.appendPlain hash dbOk env) hwf c

/-! ## Accepted, repeated and refused calls -/

/-- What an accepted call leaves behind: a row under its key, with its payload's hash and its
scope, whose id the call returned. -/
lemma append_accepted (hwf : s.Wf hash) (h : (s.append hash c).2.err = none) :
    ∃ payload e, checkAppend c.env = .ok payload ∧
      (s.append hash c).1.lookup c.env.sourceInstanceID c.env.sourceSeq = some e ∧
      e.payloadHash = hash payload ∧ e.vmID = c.env.vmID ∧
      (s.append hash c).2.res.eventID = formatUint e.eventID := by
  have hplain := hwf.appendPlain hash c.dbOk c.env
  have hcase := appendPlain_cases hash s c.dbOk c.env
  unfold append at h ⊢
  generalize s.appendPlain hash c.dbOk c.env = r at hplain hcase h ⊢
  cases hcase with
  | refused res err =>
    -- whether or not there is a health event, the cause is returned
    cases hhealth : healthOf c.env res err <;> simp [hhealth] at h
  | duplicate payload e hcheck hscope hlookup hhash =>
    obtain ⟨hmem, hkey⟩ := mem_of_lookup hlookup
    have hbound := hwf.bound e hmem
    obtain ⟨hsource, -⟩ := Prod.mk.inj hkey
    rw [hsource] at hbound
    refine ⟨payload, e, hcheck, hlookup, hhash, ?_, rfl⟩
    simpa [hbound] using hscope
  | inserted payload row streams hcheck _ hrow hstreams =>
    obtain ⟨hid, hsource, hseq, hvm, -, -, hhash⟩ := hrow
    refine ⟨payload, row, hcheck, ?_, hhash, hvm, ?_⟩
    · have hmem : row ∈ s.events ++ [row] := by simp
      have := hplain.lookup_of_mem hmem
      rwa [hsource, hseq] at this
    · simp [hid]

/-- An accepted call is a duplicate or inserts its event. -/
lemma append_ok_cases (h : (s.append hash c).2.err = none) :
    ∃ res, PlainCase hash s c.env ((s.append hash c).1, res, none) := by
  have hcase := appendPlain_cases hash s c.dbOk c.env
  unfold append at h ⊢
  cases hcall : s.appendPlain hash c.dbOk c.env with
  | mk s' r =>
    obtain ⟨res, _ | err⟩ := r
    · rw [hcall] at hcase
      exact ⟨res, hcase⟩
    · rw [hcall] at h
      cases hhealth : healthOf c.env res err <;> simp [hhealth] at h

/-- An envelope that is admitted, in the scope of its source and without a conflict is taken unless
the database fails, and then nothing changes. -/
lemma append_formed (hcheck : checkAppend c.env = .ok payload)
    (hscope : s.scopeOf c.env.sourceInstanceID ∈ [none, some c.env.vmID])
    (hkey : ∀ e, s.lookup c.env.sourceInstanceID c.env.sourceSeq = some e →
      e.payloadHash = hash payload) :
    if c.dbOk then (s.append hash c).2.err = none else (s.append hash c).1 = s := by
  have hbound : ¬ ((s.scopeOf c.env.sourceInstanceID).isSome = true ∧
      s.scopeOf c.env.sourceInstanceID ≠ some c.env.vmID) := by
    rintro ⟨hsome, hne⟩
    rcases mem_cons.1 hscope with hnone | hscope
    · rw [hnone] at hsome
      cases hsome
    · exact hne (mem_singleton.1 hscope)
  cases hdb : c.dbOk with
  | false => simp [append, appendPlain, hcheck, appendTx, hdb, healthOf]
  | true =>
    cases hlookup : s.lookup c.env.sourceInstanceID c.env.sourceSeq with
    | none => simp [append, appendPlain, hcheck, appendTx, hdb, appendInTx, hbound, hlookup]
    | some e =>
      simp [append, appendPlain, hcheck, appendTx, hdb, appendInTx, hbound, hlookup, hkey e hlookup]

/-- An envelope whose payload stands under its key is a duplicate, and changes nothing. -/
lemma append_duplicate (hwf : s.Wf hash) {e : Event H} (hdb : c.dbOk = true)
    (hcheck : checkAppend c.env = .ok payload)
    (hlookup : s.lookup c.env.sourceInstanceID c.env.sourceSeq = some e)
    (hhash : e.payloadHash = hash payload) (hvm : e.vmID = c.env.vmID) :
    s.append hash c = (s, ⟨⟨formatUint e.eventID, true⟩, none, none⟩) := by
  obtain ⟨hmem, hkey⟩ := mem_of_lookup hlookup
  have hbound := hwf.bound e hmem
  rw [(Prod.mk.inj hkey).1, hvm] at hbound
  simp [append, appendPlain, hcheck, appendTx, hdb, appendInTx, hbound, hlookup, hhash]

lemma append_conflict (hinj : Function.Injective hash) (hwf : s.Wf hash) {e : Event H}
    (hmem : e ∈ s.events) (hkey : e.key = (c.env.sourceInstanceID, c.env.sourceSeq))
    (hpayload : c.env.marshal ≠ some e.payload) : (s.append hash c).2.err ≠ none := by
  intro h
  obtain ⟨payload, e', hcheck, hlookup, hhash, -, -⟩ := append_accepted hash hwf h
  have hold := hwf.lookup_of_mem hmem
  obtain ⟨hsource, hseq⟩ := Prod.mk.inj hkey
  rw [hsource, hseq] at hold
  rw [lookup_of_extends (extends_append hash s c) hold] at hlookup
  obtain rfl : e = e' := by simpa using hlookup
  rw [hwf.hashed e hmem] at hhash
  refine hpayload ?_
  rw [hinj hhash]
  exact (checkAppend_eq_ok.1 hcheck).2.2.2

/-- A conflict is one with an event under the same key. -/
lemma append_integrity (h : (s.append hash c).2.err = some (.integrityFailure source seq)) :
    ∃ e, s.lookup c.env.sourceInstanceID c.env.sourceSeq = some e := by
  have hplain : (s.appendPlain hash c.dbOk c.env).2.2 = some (.integrityFailure source seq) := by
    unfold append at h
    cases hcall : s.appendPlain hash c.dbOk c.env with
    | mk s' r =>
      rw [hcall] at h
      obtain ⟨res, _ | err⟩ := r
      · cases h
      · cases hhealth : healthOf c.env res err <;> simpa [hhealth] using h
  cases hlookup : s.lookup c.env.sourceInstanceID c.env.sourceSeq with
  | some e => exact ⟨e, rfl⟩
  | none =>
    unfold appendPlain at hplain
    cases hcheck : checkAppend c.env with
    | error err =>
      rw [hcheck] at hplain
      cases hplain
      exact absurd hcheck (checkAppend_ne_integrityFailure c.env source seq)
    | ok payload =>
      rw [hcheck] at hplain
      by_cases hbound : (s.scopeOf c.env.sourceInstanceID).isSome ∧
          s.scopeOf c.env.sourceInstanceID ≠ some c.env.vmID
      all_goals cases hdb : c.dbOk <;> simp [appendTx, appendInTx, hlookup, hbound, hdb] at hplain

/-- The tables of `t` are those of `s`, or have one health event of the store's own stream more,
with the binding of that stream if it is new. -/
def OnlyHealthAdded (s t : Store H) : Prop :=
  t.instanceID = s.instanceID ∧
    (t.events = s.events ∧ t.streams = s.streams ∧ t.lastID = s.lastID ∨
      ∃ row, t.events = s.events ++ [row] ∧ t.lastID = s.lastID + 1 ∧
        row.sourceInstanceID = s.instanceID ∧ row.vmID = none ∧
        row.kind ∈ [ascii "telemetry.unregistered_kind", ascii "telemetry.integrity_failure"] ∧
        t.streams ∈ [s.streams, s.streams ++ [(s.instanceID, none)]])

lemma append_refused (h : (s.append hash c).2.err ≠ none) :
    OnlyHealthAdded s (s.append hash c).1 := by
  have hcase := appendPlain_cases hash s c.dbOk c.env
  unfold append at h ⊢
  generalize s.appendPlain hash c.dbOk c.env = r at hcase h ⊢
  cases hcase with
  | duplicate | inserted => exact absurd rfl h
  | refused res err =>
    cases hhealth : healthOf c.env res err with
    | none => simp [hhealth, OnlyHealthAdded]
    | some kd =>
      obtain ⟨kind, data⟩ := kd
      have hkind := healthOf_kind hhealth
      simp only [hhealth, withHealth]
      -- the health event is an append of its own, to the same tables
      generalize henv : s.systemEnvelope kind _ _ _ c.now = env
      have hcase := appendPlain_cases hash { s with systemSeq := addInt64 s.systemSeq }
        c.healthDbOk env
      generalize appendPlain hash { s with systemSeq := addInt64 s.systemSeq } _ env = r at hcase ⊢
      cases hcase with
      | refused | duplicate => exact ⟨rfl, .inl ⟨rfl, rfl, rfl⟩⟩
      | inserted payload row streams _ _ hrow hstreams =>
        subst henv
        obtain ⟨-, hsource, -, hvm, hrowKind, -, -⟩ := hrow
        refine ⟨rfl, .inr ⟨row, rfl, rfl, hsource, hvm, ?_, ?_⟩⟩
        · rw [hrowKind]
          exact hkind
        · obtain ⟨-, rfl⟩ | ⟨-, rfl⟩ := hstreams
          · exact mem_cons_self
          · exact mem_cons_of_mem _ mem_cons_self

/-! ## Runs -/

/-- What happens to a store: a call, or the process starts again and opens the tables with a new
identity. -/
inductive Action where
  | append (c : Call)
  | reopen (instanceID : Bytes)

def step (s : Store H) : Action → Store H
  | .append c => (s.append hash c).1
  | .reopen instanceID => { s with instanceID := instanceID, systemSeq := 0 }

def runs (s : Store H) (as : List Action) : Store H := as.foldl (step hash) s

lemma runs_preserves {P : Store H → Prop} (hstep : ∀ s a, P s → P (s.step hash a)) (hs : P s)
    (as : List Action) : P (s.runs hash as) := by
  induction as generalizing s with
  | nil => exact hs
  | cons a as ih => exact ih (hstep s a hs)

lemma extends_runs (s : Store H) (as : List Action) : Extends s (s.runs hash as) := by
  refine runs_preserves hash (P := Extends s) (fun t a h => ?_)
    ⟨prefix_refl _, fun _ _ h => h⟩ as
  cases a with
  | append c => exact h.trans (extends_append hash t c)
  | reopen => exact h

lemma Wf.runs (hwf : s.Wf hash) (as : List Action) : (s.runs hash as).Wf hash := by
  refine runs_preserves hash (P := Wf hash) (fun t a h => ?_) hwf as
  cases a with
  | append c => exact h.append hash c
  | reopen => exact ⟨h.keys, h.ids, h.ids_le, h.bound, h.hashed⟩

/-- **The event store over a whole run.**  After any actions `before`, a call `c` and any actions
`after`: no two events share a key, every event stands unchanged where it stood, the events of
a source carry one scope, an envelope that was accepted is a duplicate of its event ever after,
another payload under a taken key is refused, and a refused call adds at most one health
event. -/
theorem append_invariants (hinj : Function.Injective hash) (instanceID : Bytes)
    (before : List Action) (c : Call) (after : List Action) :
    let s := (new H instanceID).runs hash before
    let reply := (s.append hash c).2
    let s' := (s.append hash c).1
    let t := s'.runs hash after
    (s.events.map Event.key).Nodup ∧
    (s.events <+: s'.events ∧ s'.events <+: t.events) ∧
    (∀ e ∈ s.events, ∀ e' ∈ s.events, e.sourceInstanceID = e'.sourceInstanceID →
      e.vmID = e'.vmID) ∧
    (reply.err = none → ∀ again : Call, again.env = c.env → again.dbOk = true →
      t.append hash again = (t, ⟨⟨reply.res.eventID, true⟩, none, none⟩)) ∧
    (∀ e ∈ s.events, e.key = (c.env.sourceInstanceID, c.env.sourceSeq) →
      c.env.marshal ≠ some e.payload → reply.err ≠ none) ∧
    (reply.err ≠ none → OnlyHealthAdded s s') := by
  intro s reply s' t
  have hwf : s.Wf hash := (wf_new hash instanceID).runs hash before
  have hwf' : s'.Wf hash := hwf.append hash c
  refine ⟨hwf.keys, ⟨(extends_append hash s c).1, (extends_runs hash s' after).1⟩, ?_, ?_,
    fun e he hkey hpayload => append_conflict hash hinj hwf he hkey hpayload,
    fun h => append_refused hash h⟩
  · intro e he e' he' hsource
    have hbound := hwf.bound e he
    rw [hsource, hwf.bound e' he'] at hbound
    exact (Option.some.inj hbound).symm
  · intro hok again henv hdb
    obtain ⟨payload, e, hcheck, hlookup, hhash, hvm, hid⟩ := append_accepted hash hwf hok
    have hfound := lookup_of_extends (extends_runs hash s' after) hlookup
    rw [← henv] at hcheck hfound hvm
    have := append_duplicate hash (hwf'.runs hash after) hdb hcheck hfound hhash hvm
    rw [this, ← hid]

/-- An envelope of a host-observed kind, as a source that serves no VM sends it. -/
def sampleEnvelope (note : Bytes) : Envelope :=
  { Envelope.zero with
    schemaVersion := 1
    sourceInstanceID := ascii "11111111-1111-1111-1111-111111111111"
    sourceSeq := ascii "7"
    kind := ascii "vm.created"
    provenance := .hostObserved
    sensor := ascii "probe"
    hostReceivedAt := ⟨63000000000, 0, Instant.zero_nsec_lt⟩
    quality := notApplicableQuality
    data := some [(ascii "note", .str note)] }

def sampleCall (note : Bytes) : Call := ⟨sampleEnvelope note, true, true, ⟨63000000001, 0, Instant.zero_nsec_lt⟩⟩

/-- One event, a repetition and a conflict: the repetition is a duplicate and the conflict leaves
one health event. -/
theorem append_invariants_conflict :
    let s := (new Bytes (ascii "22222222-2222-2222-2222-222222222222")).runs id
      [.append (sampleCall (ascii "first"))]
    let r := s.append id (sampleCall (ascii "second"))
    r.2.err ≠ none ∧ r.1.events.length = 2 ∧ (s.events.map Event.key).Nodup ∧
      OnlyHealthAdded s r.1 := by
  have h := append_invariants (H := Bytes) id Function.injective_id
    (ascii "22222222-2222-2222-2222-222222222222") [.append (sampleCall (ascii "first"))]
    (sampleCall (ascii "second")) []
  have hrefused : ((runs id (new Bytes (ascii "22222222-2222-2222-2222-222222222222"))
      [.append (sampleCall (ascii "first"))]).append id
      (sampleCall (ascii "second"))).2.err ≠ none := by decide +kernel
  exact ⟨hrefused, by decide +kernel, h.1, h.2.2.2.2.2 hrefused⟩

end Store

end Observatory
