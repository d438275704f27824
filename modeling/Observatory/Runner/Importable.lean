/-
# Telemetry that the importer can take

Four checks stand between a push of the guest and its event in the store: the frame is decoded
and its fields checked, the stamped envelope is written, the iterator reads it back, and the
store validates what was read. An envelope that is `Sendable` passes the last three, and the
runner stamps such an envelope for every push it spools whose payload is not `null` and whose
clock, in UTC, is in a year of four digits.
-/
import Observatory.Runner.Telemetry

namespace Observatory.Runner

open Lib Events Guest Spool List Json Envelope

/-! ## Texts that go through unchanged -/

lemma ascii_of_hexGroups {ns : List Nat} {s : Bytes} (h : hexGroups ns s = true) :
    ∀ b ∈ s, b < 0x80 := by
  have hhex : ∀ b, isLowerHex b = true → b < 0x80 := by
    intro b hb
    simp only [isLowerHex, Bool.or_eq_true, Bool.and_eq_true, decide_eq_true_eq] at hb
    simp only [UInt8.le_iff_toNat_le, UInt8.lt_iff_toNat_lt] at hb ⊢
    simp at hb ⊢
    omega
  exact forall_of_hexGroups hhex (by decide) h

lemma sanitize_uuid {s : Bytes} (h : uuidString s = true) : sanitize s = s :=
  sanitize_of_ascii (ascii_of_hexGroups h)

lemma sanitize_decimal {s : Bytes} (h : decimalString s = true) : sanitize s = s := by
  have hall : s.all isDigit = true := by
    match s, h with
    | [b], h => simpa [decimalString, isDecimal] using h
    | b :: c :: bs, h =>
      simp only [decimalString, isDecimal, Bool.and_eq_true] at h
      simpa [h.1.1] using h.2
  exact sanitize_of_ascii fun b hb => Instant.lt_of_isDigit (all_eq_true.1 hall b hb)

/-! ## Stream identities -/

lemma length_hexText (b : Bytes) : (hexText b).length = 2 * b.length := by
  induction b with
  | nil => rfl
  | cons x b ih =>
    rw [hexText, flatMap_cons, length_append, ← hexText, ih]
    simp
    omega

lemma isLowerHex_hexText (b : Bytes) : (hexText b).all isLowerHex = true := by
  have hdigit : ∀ n < 16, isLowerHex (hexDigit n) = true := by decide
  rw [all_eq_true]
  intro c hc
  obtain ⟨x, -, hx⟩ := mem_flatMap.1 hc
  have hlt := x.toNat_lt
  rcases mem_cons.1 hx with rfl | hx
  · exact hdigit _ (by omega)
  · rw [mem_singleton.1 hx]
    exact hdigit _ (by omega)

lemma hexGroups_cons {n m : Nat} {ns : List Nat} {b rest : Bytes} (hb : 2 * b.length = n)
    (h : hexGroups (m :: ns) rest = true) :
    hexGroups (n :: m :: ns) (hexText b ++ 0x2D :: rest) = true := by
  have hlen : (hexText b).length = n := by rw [length_hexText, hb]
  simp only [hexGroups, take_left' hlen, drop_left' hlen, hlen, isLowerHex_hexText]
  have hdrop : (hexText b ++ 0x2D :: rest).drop (n + 1) = rest := by
    rw [← drop_drop, drop_left' hlen]
    rfl
  rw [hdrop]
  simpa using h

lemma uuidString_uuidText {b : Bytes} (hb : b.length = 16) : uuidString (uuidText b) = true := by
  refine hexGroups_cons (by simp [hb]) (hexGroups_cons (by simp [hb]) (hexGroups_cons (by simp [hb])
    (hexGroups_cons (by simp [hb]) ?_)))
  simp [hexGroups, length_hexText, isLowerHex_hexText, hb]

lemma uuidString_telemetryStreamID (P : Setup) (guestEpoch : Bytes) :
    uuidString (telemetryStreamID P guestEpoch) = true := by
  refine uuidString_uuidText ?_
  simp [(P.sha1 _).2]

/-! ## Envelopes that go through -/

/-- A clock reading the runner can stamp: a year of four digits, and not the zero time. -/
def timely (t : Instant) : Bool := decide t.FourDigitYear && !t.truncMicros.isZero

/-- The payload of an envelope: a map of decoded values, not nested too deep. -/
def PayloadOk (conv : FloatText) (ms : List (Bytes × Json)) : Prop :=
  (Json.obj ms).isAny conv = true ∧ (Json.obj ms).depth < maxNestingDepth

/-- What the runner's envelopes have in common. -/
structure Sendable (conv : FloatText) (env : Envelope) : Prop where
  version : env.schemaVersion = 1
  unindexed : env.eventID = none
  vmID : ∃ s, env.vmID = some s ∧ uuidString s = true
  bootID : ∃ s, env.bootID = some s ∧ uuidString s = true
  source : uuidString env.sourceInstanceID = true
  seq : decimalString env.sourceSeq = true
  kind : ∃ info, lookupKind env.kind = some info ∧ env.provenance = info.provenance ∧
    env.provenance.known = true
  sensor : env.sensor ∈ [telemetrySensor, ascii "runner"]
  hostReceivedAt : timely env.hostReceivedAt = true
  host : env.hostBootID = [] ∧ env.hostMonotonicNS = []
  guestWallAt : ∀ t, env.guestWallAt = some t → t.FourDigitYear
  guestMonotonicNS : ∀ s, env.guestMonotonicNS = some s → decimalString s = true
  rest : env.processKey = none ∧ env.runID = none ∧ env.relatedEventIDs = []
  quality : env.quality = Store.notApplicableQuality
  data : ∃ ms, env.data = some ms ∧ PayloadOk conv ms

section Through

variable {conv : FloatText} {env : Envelope}

/-- A payload is decoded again after it was written. -/
lemma PayloadOk.reread {ms : List (Bytes × Json)} (h : PayloadOk conv ms) :
    ∃ ms', decodeMap conv none (obj ms).clean = some (some ms') ∧
      (obj ms').isAny conv = true := by
  obtain ⟨j, hj⟩ := Option.isSome_iff_exists.1 (toAny_clean_isSome (inRange_of_isAny h.1))
  rw [clean, toAny] at hj
  obtain ⟨ms', hms', rfl⟩ := Option.map_eq_some_iff.1 hj
  refine ⟨ms', ?_, isAny_toAny (j := .obj (cleanMembers ms)) ?_⟩
  · rw [clean, decodeMap, Option.getD_none, hms', Option.map_some]
  · rw [toAny, hms', Option.map_some]

lemma Provenance.ofText_text {p : Provenance} (h : p.known = true) :
    Provenance.ofText (sanitize p.text) = p := by
  cases p with
  | hostObserved => decide
  | guestReported => decide
  | derived => decide
  | other s => exact absurd h (by simp [Provenance.known])

lemma reread_notApplicable : Store.notApplicableQuality.reread = Store.notApplicableQuality := by
  have hpath : PathResolution.ofText (sanitize PathResolution.notApplicable.text) = .notApplicable := by
    decide
  have hattr : Attribution.ofText (sanitize Attribution.notApplicable.text) = .notApplicable := by decide
  have hempty : sanitize [] = [] := rfl
  simp [Quality.reread, Store.notApplicableQuality, Quality.zero, hpath, hattr, hempty]

attribute [local simp] Envelope.member Json.allNums

lemma numsOk_member {f : Envelope.Field} (hv : isNumber (formatInt env.schemaVersion) = true)
    (hd : (env.data.elim null obj).numsOk = true) :
    ∀ m ∈ env.member f, m.2.numsOk = true := by
  have hopt (name : Bytes) (x : Option Bytes) :
      ∀ m ∈ optMember name (x.map str), m.2.numsOk = true := by
    cases x <;> simp [optMember, numsOk]
  have htext (name x : Bytes) : ∀ m ∈ textMember name x, m.2.numsOk = true := by
    unfold textMember
    split <;> simp [numsOk]
  have htexts (name : Bytes) (xs : List Bytes) : ∀ m ∈ textsMember name xs, m.2.numsOk = true := by
    unfold textsMember
    split
    · simp
    · intro m hm
      rw [mem_singleton.1 hm]
      refine allNums_arr.2 fun j hj => ?_
      obtain ⟨x, -, rfl⟩ := mem_map.1 hj
      rfl
  have hnull (x : Option Bytes) : (nullable x).numsOk = true := by cases x <;> rfl
  cases f with
  | schemaVersion => simpa [numsOk] using hv
  | data => simpa using hd
  | quality =>
    intro m hm
    rw [mem_singleton.1 hm]
    refine allNums_obj.2 fun m' hm' => ?_
    simp only [Quality.members, mem_append, mem_singleton] at hm'
    rcases hm' with ((((rfl | rfl) | rfl) | rfl) | hm') | hm'
    · rfl
    · rfl
    · rfl
    · rfl
    · exact htext _ _ m' hm'
    · exact htexts _ _ m' hm'
  | vmID | bootID => simpa using hnull _
  | eventID | guestMonotonicNS | processKey | runID => exact hopt _ _
  | guestWallAt =>
    cases hwall : env.guestWallAt <;> simp [hwall, optMember, numsOk]
  | hostBootID | hostMonotonicNS => exact htext _ _
  | relatedEventIDs => exact htexts _ _
  | sourceInstanceID | sourceSeq | kind | provenance | sensor | hostReceivedAt =>
    simp [numsOk]

lemma marshal_isSome (hv : isNumber (formatInt env.schemaVersion) = true)
    (hd : (env.data.elim null obj).numsOk = true) : env.marshal.isSome = true := by
  have hall : (obj env.members).numsOk = true := by
    refine allNums_obj.2 fun m hm => ?_
    obtain ⟨f, -, hmf⟩ := mem_flatMap.1 hm
    exact numsOk_member hv hd m hmf
  rw [marshal, if_pos hall]
  rfl

attribute [local simp] Envelope.reread

/-- What is read back breaks no rule, and is of the same registered kind. -/
lemma Sendable.checkAppend (h : Sendable conv env) {ms : List (Bytes × Json)}
    (hms : (obj ms).isAny conv = true) :
    ∃ payload, Store.checkAppend (env.reread (some ms)) = .ok payload := by
  obtain ⟨vm, hvm, hvmOk⟩ := h.vmID
  obtain ⟨boot, hboot, hbootOk⟩ := h.bootID
  obtain ⟨info, hinfo, hprov, hknown⟩ := h.kind
  obtain ⟨hmem, hkindEq⟩ := lookupKind_eq_some hinfo
  have hkind := kind_of_mem_registry info hmem
  rw [hkindEq] at hkind
  have hkindText : sanitize env.kind = env.kind := sanitize_of_ascii hkind.2
  have hprovText := Provenance.ofText_text hknown
  have hsensor : sanitize env.sensor = env.sensor ∧ 1 ≤ env.sensor.length ∧ env.sensor.length ≤ 64 := by
    have hs := h.sensor
    rcases mem_cons.1 hs with hs | hs
    · rw [hs]
      decide
    · rw [mem_singleton.1 hs]
      decide
  have htime : env.hostReceivedAt.truncMicros.isZero = false := by
    have := h.hostReceivedAt
    simp only [timely, Bool.and_eq_true, Bool.not_eq_true'] at this
    exact this.2
  have hmono : ∀ s, env.guestMonotonicNS = some s → decimalString (sanitize s) = true := by
    intro s hs
    rw [sanitize_decimal (h.guestMonotonicNS s hs)]
    exact h.guestMonotonicNS s hs
  have hmarshal : (env.reread (some ms)).marshal.isSome = true := by
    refine marshal_isSome ?_ (numsOk_of_isAny hms)
    rw [reread, h.version]
    decide
  obtain ⟨payload, hpayload⟩ := Option.isSome_iff_exists.1 hmarshal
  refine ⟨payload, Store.checkAppend_eq_ok.2 ⟨?_, ?_, ⟨info, ?_, ?_⟩, hpayload⟩⟩
  · simp [h.unindexed]
  · rw [validate_eq_nil]
    have hempty : sanitize [] = [] := rfl
    constructor
    case schemaVersion => exact h.version
    case eventID => simp [h.unindexed]
    case vmID => simp [hvm, sanitize_uuid hvmOk, hvmOk]
    case bootID => simp [hboot, sanitize_uuid hbootOk, hbootOk]
    case bootWithVM => simp [hvm]
    case sourceInstanceID => simpa only [reread, sanitize_uuid h.source] using h.source
    case sourceSeq => simpa only [reread, sanitize_decimal h.seq] using h.seq
    case kind => simpa only [reread, hkindText] using hkind.1
    case provenance => simpa only [reread, hprovText] using hknown
    case sensor => simpa only [reread, hsensor.1] using hsensor.2
    case hostReceivedAt => exact htime
    case hostBootID => simp [h.host, hempty]
    case hostMonotonicNS => simp [h.host, hempty]
    case guestMonotonicNS =>
      intro s hs
      obtain ⟨t, ht, rfl⟩ := Option.map_eq_some_iff.1 hs
      exact hmono t ht
    case processKey => simp [h.rest]
    case runID => simp [h.rest]
    case relatedEventIDs => simp [h.rest, relatedProblems]
    case quality =>
      simp only [reread, h.quality, reread_notApplicable]
      decide
    case data => rfl
  · simp only [reread, hkindText]
    exact hinfo
  · simp only [reread, hprovText]
    exact hprov

/-- An envelope the importer takes: once it is written as a frame, the iterator reads an envelope from
it that the store accepts. -/
def Importable (conv : FloatText) (env : Envelope) : Prop :=
  ∃ body env' payload, env.marshal = some body ∧
    (body.length ≤ maxRecordBytes → ∀ rest,
      SegmentIter.next conv (encodeFrame body ++ rest) = .envelope env' rest) ∧
    Store.checkAppend env' = .ok payload

lemma Sendable.importable (h : Sendable conv env) : Importable conv env := by
  obtain ⟨ms, hms, hok⟩ := h.data
  obtain ⟨ms', hreread, hany⟩ := hok.reread
  obtain ⟨payload, hcheck⟩ := h.checkAppend hany
  have hmarshal : env.marshal.isSome = true := by
    refine marshal_isSome ?_ ?_
    · rw [h.version]
      decide
    · rw [hms]
      exact numsOk_of_isAny hok.1
  obtain ⟨body, hbody⟩ := Option.isSome_iff_exists.1 hmarshal
  have hyear : env.hostReceivedAt.FourDigitYear := by
    have := h.hostReceivedAt
    simp only [timely, Bool.and_eq_true, decide_eq_true_eq] at this
    exact this.1
  have hread : unmarshal conv body = some (env.reread (some ms')) := by
    refine unmarshal_marshal hbody h.version hyear h.guestWallAt (fun ms'' hms'' => ?_) ?_
    · obtain rfl := Option.some.inj (hms.symm.trans hms'')
      exact hok.2
    · rw [hms]
      exact hreread
  refine ⟨body, _, payload, hbody, fun hlen rest => ?_, hcheck⟩
  rw [SegmentIter.next_eq, encodeFrame_eq, frameFormat.head_frame hlen]
  simp only [hread]

end Through

/-! ## What the runner stamps -/

/-- A payload that is not `null`, and a clock in a year of four digits. -/
def wellFormed (push : TelemetryPush) : Bool :=
  (push.data.all fun r => match r.value with
    | .null => false
    | _ => true) &&
  (push.guestWallAt == [] || (Instant.parse push.guestWallAt).all fun t => decide t.FourDigitYear)

/-- The identifiers the runner was started with. -/
structure Config.Valid (cfg : Config) : Prop where
  vmID : uuidString cfg.vmID = true
  bootID : uuidString cfg.bootID = true
  instanceID : uuidString cfg.instanceID = true

variable {P : Setup} {streamID : Bytes} {push : TelemetryPush} {now : Instant}

variable {i : Input} {data : Option (List (Bytes × Json))}

lemma payloadOk_of_decodeMap (hpush : push.Checked)
    (hdata : (push.data.map RawJson.value).bind (decodeMap P.conv none) = some data)
    (hgood : wellFormed push = true) : ∃ ms, data = some ms ∧ PayloadOk P.conv ms := by
  obtain ⟨value, hvalue, hdecode⟩ := Option.bind_eq_some_iff.1 hdata
  obtain ⟨r, hr, rfl⟩ := Option.map_eq_some_iff.1 hvalue
  have hdepth := hpush.data r hr
  simp only [wellFormed, hr, Option.all_some, Bool.and_eq_true] at hgood
  cases hcase : r.value with
  | null => simp [hcase] at hgood
  | bool | num | str | arr => simp [hcase, decodeMap] at hdecode
  | obj ms =>
    rw [hcase, decodeMap, Option.getD_none] at hdecode
    obtain ⟨vs, hvs, rfl⟩ := Option.map_eq_some_iff.1 hdecode
    have hany : toAny P.conv (.obj ms) = some (.obj vs) := by rw [toAny, hvs, Option.map_some]
    exact ⟨vs, rfl, isAny_toAny hany, (depth_toAny hany).trans_lt (hcase ▸ hdepth)⟩

lemma sendable_newGuestEnvelope (hcfg : P.cfg.Valid) (hstream : uuidString streamID = true)
    (hpush : push.Checked)
    (hkind : (lookupKind push.kind).map KindInfo.provenance = some .guestReported)
    (hdata : (push.data.map RawJson.value).bind (decodeMap P.conv none) = some data)
    (hnow : timely now = true) (hgood : wellFormed push = true) :
    Sendable P.conv (newGuestEnvelope P.cfg streamID push data now) := by
  obtain ⟨info, hinfo, hprov⟩ := Option.map_eq_some_iff.1 hkind
  obtain ⟨ms, rfl, hms⟩ := payloadOk_of_decodeMap hpush hdata hgood
  constructor
  case vmID => exact ⟨_, rfl, hcfg.vmID⟩
  case bootID => exact ⟨_, rfl, hcfg.bootID⟩
  case kind => exact ⟨info, hinfo, hprov.symm, rfl⟩
  case guestWallAt =>
    intro t ht
    simp only [newGuestEnvelope] at ht
    split at ht
    · cases ht
    · next hne =>
      simp only [wellFormed, Bool.and_eq_true, Bool.or_eq_true, beq_iff_eq, hne, false_or, ht,
        Option.all_some, decide_eq_true_eq] at hgood
      exact hgood.2
  case guestMonotonicNS =>
    intro s hs
    simp only [newGuestEnvelope] at hs
    split at hs
    · cases hs
    · next hne =>
      cases hs
      exact hpush.guestMonotonicNS.resolve_left hne
  case data => exact ⟨ms, rfl, hms⟩
  case version | unindexed | quality => rfl
  case source => exact hstream
  case seq => exact hpush.seq
  case sensor => exact mem_cons_self
  case hostReceivedAt => exact hnow
  case host => exact ⟨rfl, rfl⟩
  case rest => exact ⟨rfl, rfl, rfl⟩

/-- The record of a refusal says everything in texts. -/
lemma sendable_refusal (hcfg : P.cfg.Valid) (hnow : timely now = true) (seq : Nat)
    (info : Option KindInfo) :
    Sendable P.conv (newEnvelope P.cfg seq (refusal streamID push info).1
      (refusal streamID push info).2 now) := by
  have htext : ∀ m ∈ (refusal streamID push info).2, ∃ s, m.2 = .str s := by
    cases info <;> simp [refusal]
  have hkind : ∃ i, lookupKind (refusal streamID push info).1 = some i ∧
      Provenance.hostObserved = i.provenance := by
    cases info with
    | none =>
      have hfound : lookupKind (ascii "telemetry.unregistered_kind") =
          some ⟨ascii "telemetry.unregistered_kind", .hostObserved⟩ := by decide +kernel
      exact ⟨_, hfound, rfl⟩
    | some i =>
      have hfound : lookupKind (ascii "telemetry.integrity_failure") =
          some ⟨ascii "telemetry.integrity_failure", .hostObserved⟩ := by decide +kernel
      exact ⟨_, hfound, rfl⟩
  obtain ⟨i, hi, hprov⟩ := hkind
  constructor
  case vmID => exact ⟨_, rfl, hcfg.vmID⟩
  case bootID => exact ⟨_, rfl, hcfg.bootID⟩
  case kind => exact ⟨i, hi, hprov, rfl⟩
  case guestWallAt | guestMonotonicNS => simp [newEnvelope, zero]
  case data =>
    refine ⟨_, rfl, allNums_obj.2 fun m hm => ?_, Nat.lt_of_le_of_lt (m := 1) ?_ (by decide)⟩
    · obtain ⟨s, hs⟩ := htext m (mem_mkMap hm)
      rw [hs]
      rfl
    · refine depth_obj_le.2 fun m hm => ?_
      obtain ⟨s, hs⟩ := htext m (mem_mkMap hm)
      rw [hs]
      exact le_rfl
  case version | unindexed | quality => rfl
  case source => exact hcfg.instanceID
  case seq => exact isDecimal_formatUint seq
  case sensor => exact .tail _ mem_cons_self
  case hostReceivedAt => exact hnow
  case host => exact ⟨rfl, rfl⟩
  case rest => exact ⟨rfl, rfl, rfl⟩

/-! ## Runs -/

/-- The clock can be stamped, and the push is well formed. -/
def proper : Action → Bool
  | .frame _ data i =>
    timely i.now &&
      match decodeTelemetryPush data with
      | .error _ => true
      | .ok push => wellFormed push
  | _ => true

/-- An append for a push put its frame into the spool, and the importer takes it. -/
def Carried (conv : FloatText) (ops : List FileOp) (env : Envelope) : Prop :=
  Sendable conv env ∧ ∃ body k, env.marshal = some body ∧ body.length ≤ maxRecordBytes ∧
    .write k (encodeFrame body) ∈ ops

lemma Carried.mono {conv : FloatText} {ops more : List FileOp} {env : Envelope}
    (h : Carried conv ops env) : Carried conv (ops ++ more) env := by
  obtain ⟨hsend, body, k, hbody, hlen, hwrite⟩ := h
  exact ⟨hsend, body, k, hbody, hlen, mem_append_left _ hwrite⟩

structure Carries (P : Setup) (s : Client) : Prop where
  conn : ∀ id, s.conn = some id → uuidString id = true
  durable : ∀ d ∈ s.durable, Carried P.conv s.ops d.env
  remembered : ∀ l, s.lastRefusal = some l → Sendable P.conv l.env

variable {s s' : Client}

lemma Carries.append (h : Carries P s) {t : Faults} {env : Envelope} {made : Option Durable}
    (hmade : ∀ d, made = some d → d.env = env ∧ Sendable P.conv env) :
    Carries P (s.append t env made) where
  conn := h.conn
  durable := by
    intro d hd
    have hold : d ∈ s.durable → Carried P.conv (s.ops ++ (s.writer.append t env).ops) d.env :=
      fun hd => (h.durable d hd).mono
    simp only [Client.append] at hd ⊢
    split at hd
    · next hok =>
      rcases mem_append.1 hd with hd | hd
      · exact hold hd
      · obtain ⟨henv, hsend⟩ := hmade d (by simpa using hd)
        obtain ⟨body, env', payload, hbody, -⟩ := hsend.importable
        obtain ⟨hlen, k, hwrite⟩ :=
          Writer.append_writes hbody (Option.isNone_iff_eq_none.1 hok)
        rw [henv]
        exact ⟨hsend, body, k, hbody, hlen.1, mem_append_right _ hwrite⟩
    · exact hold hd
  remembered := h.remembered

lemma Carries.congr (h : Carries P s) (hconn : s'.conn = none ∨ s'.conn = s.conn)
    (hdurable : s'.durable = s.durable) (hops : s'.ops = s.ops)
    (hlast : ∀ l, s'.lastRefusal = some l → Sendable P.conv l.env) : Carries P s' where
  conn := by
    intro id hid
    rcases hconn with hnone | hsame
    · cases hnone.symm.trans hid
    · exact h.conn id (hsame ▸ hid)
  durable := by
    rw [hdurable, hops]
    exact h.durable
  remembered := hlast

/-- The envelope a push is appended with, the one it was refused with included, is sendable. -/
lemma Carries.envelopeFor (h : Carries P s) (hcfg : P.cfg.Valid)
    (hstream : uuidString streamID = true) (hpush : push.Checked)
    (hkind : (lookupKind push.kind).map KindInfo.provenance = some .guestReported)
    (hdata : (push.data.map RawJson.value).bind (decodeMap P.conv none) = some data)
    (hnow : timely i.now = true) (hgood : wellFormed push = true) :
    Sendable P.conv (s.envelopeFor P i streamID push data) := by
  unfold Client.envelopeFor
  cases hreuse : s.lastRefusal.bind fun l => l.reuse streamID push with
  | none => exact sendable_newGuestEnvelope hcfg hstream hpush hkind hdata hnow hgood
  | some env =>
    obtain ⟨l, hl, henv⟩ := Option.bind_eq_some_iff.1 hreuse
    unfold RefusedPush.reuse at henv
    split at henv
    · cases henv
      exact h.remembered l hl
    · cases henv

lemma Carries.health (h : Carries P s) {kind : Bytes} {data : List (Bytes × Json)}
    {made : Option (Bytes × Nat)}
    (hmade : made.isSome = true → Sendable P.conv (newEnvelope P.cfg s.nextSeq kind data i.now)) :
    Carries P (s.appendTelemetryHealth P i kind data made) := by
  have hnext : Carries P { s with seq := s.nextSeq } := ⟨h.conn, h.durable, h.remembered⟩
  refine hnext.append fun d hd => ?_
  obtain ⟨p, hp, rfl⟩ := Option.map_eq_some_iff.1 hd
  exact ⟨rfl, hmade (by rw [hp]; rfl)⟩

lemma Carries.spool (h : Carries P s) (hcfg : P.cfg.Valid) (hstream : uuidString streamID = true)
    (hpush : push.Checked) (hnow : timely i.now = true) (hgood : wellFormed push = true) :
    Carries P (s.spoolTelemetryPush P i streamID push).1 := by
  have hcase := s.spoolTelemetryPush_cases (P := P) i streamID push
  generalize s.spoolTelemetryPush P i streamID push = r at hcase ⊢
  cases hcase with
  | failed | again => exact h
  | refused =>
    exact (h.health fun _ => sendable_refusal hcfg hnow _ _).congr (.inr rfl) rfl rfl h.remembered
  | spooled _ _ hkind hdata _ =>
    have hsend := h.envelopeFor hcfg hstream hpush hkind hdata hnow hgood
    exact (h.append fun d hd => ⟨Option.some.inj hd ▸ rfl, hsend⟩).congr (.inr rfl) rfl rfl (by simp)
  | remembered _ hkind hdata _ =>
    have hsend := h.envelopeFor hcfg hstream hpush hkind hdata hnow hgood
    refine (h.append fun d hd => ⟨Option.some.inj hd ▸ rfl, hsend⟩).congr (.inr rfl) rfl rfl ?_
    intro l hl
    cases hl
    exact hsend

lemma Carries.offer (h : Carries P s) (streamID data : Bytes) : Carries P (s.offer streamID data) := by
  unfold Client.offer
  split
  · exact h
  · exact h.congr (.inr rfl) rfl rfl h.remembered

lemma Carries.step (h : Carries P s) (hcfg : P.cfg.Valid) {a : Action} (hproper : proper a = true)
    (hstep : step P s a = some s') : Carries P s' := by
  cases a with
  | connect reply =>
    simp only [Runner.step] at hstep
    split at hstep
    · cases hstep
      refine ⟨fun id hid => ?_, h.durable, h.remembered⟩
      obtain ⟨ack, -, hack⟩ := Option.bind_eq_some_iff.1 hid
      split at hack
      · cases hack
        exact uuidString_telemetryStreamID P _
      · cases hack
    · cases hstep
  | frame kind data i =>
    obtain ⟨streamID, hconn, rfl⟩ := Option.map_eq_some_iff.1 hstep
    simp only [proper, Bool.and_eq_true] at hproper
    unfold Client.serveFrame
    split
    · exact (h.health (by simp)).congr (.inl rfl) rfl rfl h.remembered
    split
    · exact (h.health (by simp)).congr (.inl rfl) rfl rfl h.remembered
    next push hpush =>
    rw [hpush] at hproper
    have hspool := (h.offer streamID data).spool hcfg (h.conn _ hconn)
      (decodeTelemetryPush_ok hpush) hproper.1 hproper.2
    generalize (s.offer streamID data).spoolTelemetryPush P i streamID push = r at hspool
    obtain ⟨s', _ | seq⟩ := r
    · exact hspool.congr (.inl rfl) rfl rfl hspool.remembered
    · dsimp only
      split
      · exact hspool.congr (.inr rfl) rfl rfl hspool.remembered
      · exact hspool.congr (.inl rfl) rfl rfl hspool.remembered
  | lost streamID data =>
    cases hstep
    exact h.offer streamID data
  | drop =>
    cases hstep
    exact h.congr (.inl rfl) rfl rfl h.remembered
  | other t env taken =>
    cases hstep
    exact (h.append (by simp)).congr (.inr rfl) rfl rfl h.remembered

/-- What the importer makes of an envelope. -/
inductive Verdict where
  | accepted
  | rejected (err : Store.AppendError)
  | corrupt
deriving DecidableEq

def verdict (conv : FloatText) (env : Envelope) : Option Verdict :=
  env.marshal.map fun body =>
    match SegmentIter.next conv (encodeFrame body) with
    | .envelope env' _ =>
      match Store.checkAppend env' with
      | .ok _ => .accepted
      | .error err => .rejected err
    | _ => .corrupt

end Observatory.Runner
