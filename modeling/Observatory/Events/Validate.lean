/-
# Envelope validation and the kind registry

`Envelope.validate` lists the rules of the interchange contract an envelope breaks, in the
order the source checks them; `lookupKind` is the table of kinds that ingress admits, with the
provenance it assigns to each.
-/
import Observatory.Events.Envelope

namespace Observatory.Events

open Lib List

/-! ## Patterns -/

/-- A canonical non-negative decimal integer. -/
def decimalString (s : Bytes) : Bool := isDecimal s

def isLowerHex (b : UInt8) : Bool := (0x30 ≤ b && b ≤ 0x39) || (0x61 ≤ b && b ≤ 0x66)

/-- Groups of hexadecimal digits of the given sizes, separated by dashes. -/
def hexGroups : List Nat → Bytes → Bool
  | [], _ => false
  | [n], s => s.length == n && s.all isLowerHex
  | n :: ns, s =>
    (s.take n).length == n && (s.take n).all isLowerHex && (s.drop n).head? == some 0x2D &&
      hexGroups ns (s.drop (n + 1))

def uuidString (s : Bytes) : Bool := hexGroups [8, 4, 4, 4, 12] s

lemma forall_of_hexGroups {p : UInt8 → Prop} (hhex : ∀ b, isLowerHex b = true → p b)
    (hdash : p 0x2D) {ns : List Nat} {s : Bytes} (h : hexGroups ns s = true) : ∀ b ∈ s, p b := by
  induction ns generalizing s with
  | nil => exact absurd h (by simp [hexGroups])
  | cons n ns ih =>
    cases ns with
    | nil =>
      simp only [hexGroups, Bool.and_eq_true] at h
      exact fun b hb => hhex b (all_eq_true.1 h.2 b hb)
    | cons m ns =>
      simp only [hexGroups, Bool.and_eq_true] at h
      obtain ⟨⟨⟨-, hfront⟩, hhead⟩, hrest⟩ := h
      intro b hb
      rw [← take_append_drop n s, mem_append] at hb
      rcases hb with hb | hb
      · exact hhex b (all_eq_true.1 hfront b hb)
      · cases hdrop : s.drop n with
        | nil => simp [hdrop] at hb
        | cons c cs =>
          have hcs : s.drop (n + 1) = cs := by
            rw [← drop_drop, hdrop]
            rfl
          rw [hdrop] at hb hhead
          rcases mem_cons.1 hb with rfl | hb
          · obtain rfl : b = 0x2D := by simpa using hhead
            exact hdash
          · exact ih hrest b (hcs ▸ hb)

def isLower (b : UInt8) : Bool := 0x61 ≤ b && b ≤ 0x7A

/-- One part of a kind: a lower-case letter, then letters, digits and underscores. -/
def kindPart : Bytes → Bool
  | [] => false
  | b :: bs => isLower b && bs.all fun c => isLower c || isDigit c || c == 0x5F

/-- Parts separated by periods, at least two of them. -/
def kindPattern (s : Bytes) : Bool :=
  2 ≤ (s.splitOn 0x2E).length && (s.splitOn 0x2E).all kindPart

/-! ## Validation -/

/-- A rule an envelope breaks, with the value that breaks it. -/
inductive Problem where
  | schemaVersion (got : Int)
  | eventID (s : Bytes)
  | vmID (s : Bytes)
  | bootID (s : Bytes)
  | bootWithoutVM
  | sourceInstanceID (s : Bytes)
  | sourceSeq (s : Bytes)
  | kind (s : Bytes)
  | provenance (p : Provenance)
  | sensor (len : Nat)
  | hostReceivedAt
  | hostBootID (s : Bytes)
  | hostMonotonicNS (s : Bytes)
  | guestMonotonicNS (s : Bytes)
  | processKey
  | runID (s : Bytes)
  | relatedTooMany
  | relatedNotDecimal (s : Bytes)
  | relatedRepeated (s : Bytes)
  | pathResolution (p : PathResolution)
  | attribution (a : Attribution)
  | notesTooMany
  | dataMissing
deriving DecidableEq

def check (ok : Bool) (p : Problem) : List Problem := if ok then [] else [p]

/-- Report on a pointer that is not nil. -/
def checkPtr (x : Option Bytes) (ok : Bytes → Bool) (p : Bytes → Problem) : List Problem :=
  x.elim [] fun s => check (ok s) (p s)

def Provenance.known : Provenance → Bool
  | .hostObserved | .guestReported | .derived => true
  | .other _ => false

def PathResolution.known : PathResolution → Bool
  | .exactAtCapture | .inferred | .unresolved | .notApplicable => true
  | .other _ => false

def Attribution.known : Attribution → Bool
  | .exact | .inferred | .unknown | .notApplicable => true
  | .other _ => false

def relatedProblems (seen : List Bytes) : List Bytes → List Problem
  | [] => []
  | id :: ids =>
    check (decimalString id) (.relatedNotDecimal id) ++
    check (!seen.contains id) (.relatedRepeated id) ++
    relatedProblems (id :: seen) ids

/-- The rules an envelope breaks. -/
def Envelope.validate (e : Envelope) : List Problem :=
  check (e.schemaVersion = 1) (.schemaVersion e.schemaVersion) ++
  checkPtr e.eventID decimalString .eventID ++
  checkPtr e.vmID uuidString .vmID ++
  checkPtr e.bootID uuidString .bootID ++
  check (!(e.vmID.isNone && e.bootID.isSome)) .bootWithoutVM ++
  check (uuidString e.sourceInstanceID) (.sourceInstanceID e.sourceInstanceID) ++
  check (decimalString e.sourceSeq) (.sourceSeq e.sourceSeq) ++
  check (3 ≤ e.kind.length && e.kind.length ≤ 96 && kindPattern e.kind) (.kind e.kind) ++
  check e.provenance.known (.provenance e.provenance) ++
  check (1 ≤ e.sensor.length && e.sensor.length ≤ 64) (.sensor e.sensor.length) ++
  check (!e.hostReceivedAt.isZero) .hostReceivedAt ++
  check (e.hostBootID.isEmpty || uuidString e.hostBootID) (.hostBootID e.hostBootID) ++
  check (e.hostMonotonicNS.isEmpty || decimalString e.hostMonotonicNS)
    (.hostMonotonicNS e.hostMonotonicNS) ++
  checkPtr e.guestMonotonicNS decimalString .guestMonotonicNS ++
  checkPtr e.processKey (fun k => 1 ≤ k.length && k.length ≤ 256) (fun _ => .processKey) ++
  checkPtr e.runID uuidString .runID ++
  check (e.relatedEventIDs.length ≤ 64) .relatedTooMany ++
  relatedProblems [] e.relatedEventIDs ++
  check e.quality.pathResolution.known (.pathResolution e.quality.pathResolution) ++
  check e.quality.attribution.known (.attribution e.quality.attribution) ++
  check (e.quality.notes.length ≤ 16) .notesTooMany ++
  check e.data.isSome .dataMissing

@[simp] lemma check_eq_nil {ok : Bool} {p : Problem} : check ok p = [] ↔ ok = true := by
  unfold check
  split <;> simp_all

@[simp] lemma checkPtr_eq_nil {x : Option Bytes} {ok : Bytes → Bool} {p : Bytes → Problem} :
    checkPtr x ok p = [] ↔ ∀ s, x = some s → ok s = true := by
  cases x <;> simp [checkPtr]

/-- An envelope that breaks no rule. -/
structure Envelope.Valid (e : Envelope) : Prop where
  schemaVersion : e.schemaVersion = 1
  eventID : ∀ s, e.eventID = some s → decimalString s = true
  vmID : ∀ s, e.vmID = some s → uuidString s = true
  bootID : ∀ s, e.bootID = some s → uuidString s = true
  bootWithVM : e.vmID = none → e.bootID = none
  sourceInstanceID : uuidString e.sourceInstanceID = true
  sourceSeq : decimalString e.sourceSeq = true
  kind : 3 ≤ e.kind.length ∧ e.kind.length ≤ 96 ∧ kindPattern e.kind = true
  provenance : e.provenance.known = true
  sensor : 1 ≤ e.sensor.length ∧ e.sensor.length ≤ 64
  hostReceivedAt : e.hostReceivedAt.isZero = false
  hostBootID : e.hostBootID = [] ∨ uuidString e.hostBootID = true
  hostMonotonicNS : e.hostMonotonicNS = [] ∨ decimalString e.hostMonotonicNS = true
  guestMonotonicNS : ∀ s, e.guestMonotonicNS = some s → decimalString s = true
  processKey : ∀ s, e.processKey = some s → 1 ≤ s.length ∧ s.length ≤ 256
  runID : ∀ s, e.runID = some s → uuidString s = true
  relatedEventIDs : e.relatedEventIDs.length ≤ 64 ∧ relatedProblems [] e.relatedEventIDs = []
  quality : e.quality.pathResolution.known = true ∧ e.quality.attribution.known = true ∧
    e.quality.notes.length ≤ 16
  data : e.data.isSome = true

lemma Envelope.validate_eq_nil {e : Envelope} : e.validate = [] ↔ e.Valid := by
  have hboot : (!(e.vmID.isNone && e.bootID.isSome)) = true ↔ (e.vmID = none → e.bootID = none) := by
    cases e.vmID <;> cases e.bootID <;> simp
  delta Envelope.validate
  simp only [append_eq_nil_iff, check_eq_nil, checkPtr_eq_nil, Bool.and_eq_true,
    Bool.or_eq_true, decide_eq_true_eq, hboot, Bool.not_eq_true', List.isEmpty_iff, and_assoc]
  constructor
  · rintro ⟨h1, h2, h3, h4, h5, h6, h7, h8a, h8b, h8c, h9, h10a, h10b, h11, h12, h13, h14, h15, h16,
      h17, h18, h19, h20, h21, h22⟩
    exact ⟨h1, h2, h3, h4, h5, h6, h7, ⟨h8a, h8b, h8c⟩, h9, ⟨h10a, h10b⟩, h11, h12, h13, h14, h15,
      h16, ⟨h17, h18⟩, ⟨h19, h20, h21⟩, h22⟩
  · rintro ⟨h1, h2, h3, h4, h5, h6, h7, ⟨h8a, h8b, h8c⟩, h9, ⟨h10a, h10b⟩, h11, h12, h13, h14, h15,
      h16, ⟨h17, h18⟩, ⟨h19, h20, h21⟩, h22⟩
    exact ⟨h1, h2, h3, h4, h5, h6, h7, h8a, h8b, h8c, h9, h10a, h10b, h11, h12, h13, h14, h15, h16,
      h17, h18, h19, h20, h21, h22⟩

/-! ## The registry -/

/-- One registered kind: what ingress uses of its entry. -/
structure KindInfo where
  kind : Bytes
  provenance : Provenance
deriving DecidableEq

def registry : List KindInfo :=
  [⟨ascii "fs.modify", .guestReported⟩,
   ⟨ascii "telemetry.loss", .hostObserved⟩,
   ⟨ascii "telemetry.integrity_failure", .hostObserved⟩,
   ⟨ascii "telemetry.unregistered_kind", .hostObserved⟩,
   ⟨ascii "attention.raised", .hostObserved⟩,
   ⟨ascii "attention.queue_overflow", .hostObserved⟩,
   ⟨ascii "annotation.created", .hostObserved⟩,
   ⟨ascii "vm.created", .hostObserved⟩,
   ⟨ascii "vm.state_changed", .hostObserved⟩,
   ⟨ascii "vm.cleanup_failed", .hostObserved⟩,
   ⟨ascii "vm.reconcile_ambiguous", .hostObserved⟩,
   ⟨ascii "vm.deleted", .hostObserved⟩,
   ⟨ascii "operation.state_changed", .hostObserved⟩,
   ⟨ascii "run.created", .hostObserved⟩,
   ⟨ascii "run.state_changed", .hostObserved⟩,
   ⟨ascii "run.progress", .guestReported⟩,
   ⟨ascii "run.result_recorded", .hostObserved⟩,
   ⟨ascii "run.submission_rejected", .hostObserved⟩,
   ⟨ascii "auth.session_created", .hostObserved⟩,
   ⟨ascii "auth.session_ended", .hostObserved⟩,
   ⟨ascii "auth.login_failed", .hostObserved⟩,
   ⟨ascii "auth.token_created", .hostObserved⟩,
   ⟨ascii "auth.token_revoked", .hostObserved⟩,
   ⟨ascii "guest.channel_established", .hostObserved⟩,
   ⟨ascii "guest.channel_lost", .hostObserved⟩,
   ⟨ascii "guest.sensor_health", .guestReported⟩,
   ⟨ascii "vm.vmm_exited", .hostObserved⟩,
   ⟨ascii "spool.recovery_gap", .hostObserved⟩,
   ⟨ascii "net.flow.observed", .hostObserved⟩,
   ⟨ascii "dns.query", .hostObserved⟩,
   ⟨ascii "policy.denial", .hostObserved⟩,
   ⟨ascii "terminal.session_opened", .hostObserved⟩,
   ⟨ascii "terminal.session_closed", .hostObserved⟩,
   ⟨ascii "terminal.output_dropped", .hostObserved⟩]

def lookupKind (kind : Bytes) : Option KindInfo := registry.find? fun k => k.kind = kind

/-- What a registered kind looks like: every entry passes the kind rule of `validate` and is
ASCII. -/
lemma kind_of_mem_registry : ∀ k ∈ registry, (3 ≤ k.kind.length ∧ k.kind.length ≤ 96 ∧
    kindPattern k.kind = true) ∧ ∀ b ∈ k.kind, b < 0x80 := by
  have hall : registry.all (fun k => (3 ≤ k.kind.length && k.kind.length ≤ 96 &&
      kindPattern k.kind) && k.kind.all (· < 0x80)) = true := by decide +kernel
  intro k hk
  have hk := all_eq_true.1 hall k hk
  simpa [and_assoc, all_eq_true] using hk

lemma lookupKind_eq_some {kind : Bytes} {info : KindInfo} (h : lookupKind kind = some info) :
    info ∈ registry ∧ info.kind = kind := by
  have := List.find?_some h
  exact ⟨mem_of_find?_eq_some h, by simpa using this⟩

example : (registry.map KindInfo.kind).Nodup := by decide +kernel

end Observatory.Events
