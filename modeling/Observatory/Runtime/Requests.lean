/-
# What the manager asks of the store

A request to create a VM, a batch of them or a run is checked and filled up with the defaults of
the host before the store is asked: the template is looked up, the name is checked, the sizes are
made positive. Then the hash of the effective request is formed, and the admission decision that
the store will call inside its transaction, over the totals it finds there.

All sizes are 64-bit machine integers; a sum of two wraps around without notice.
-/
import Observatory.Store.History

namespace Observatory.Runtime.Requests

open Lib Store
open Store.Registry (bind_ok_iff)

/-! ## The admission policy -/

/-- The numbers of the host's configuration that admission uses. -/
structure AdmissionConfig where
  allowMemoryOvercommit : Bool
  reserveHostMemoryMinMiB : Int
  reservePerVMHostOverheadMiB : Int
  reserveInspectionSlots : Int
  reserveInspectorMemoryMiB : Int
  reserveInspectorScratchMiB : Int

structure HostResources where
  totalMemoryMiB : Int
  stateDiskFreeMiB : Int

/-- What the policy computes in floating point: the fraction of the host's memory that is kept back,
whether so many CPUs fit on top of those reserved, and the texts of its capacity in a refusal. -/
structure Floats where
  hostMemoryFractionMiB : Int
  vcpuFits : (reserved requested : Int) → Bool
  freeVCPU : (reserved : Int) → Bytes
  usableVCPU : Bytes

structure Policy where
  admission : AdmissionConfig
  host : HostResources
  floats : Floats
  /-- The runtime can measure the disk; otherwise the free space at startup counts. -/
  observesDisk : Bool

structure DiskObservation where
  freeMiB : Int
  materializedMiB : Int

/-- The answer to one measurement of the disk: an error with its text, or the numbers. -/
abbrev DiskProbe := Except Bytes DiskObservation

namespace Policy

variable (p : Policy)

def usableDiskMiB : Int :=
  let usable := wrap64 (p.host.stateDiskFreeMiB - p.admission.reserveInspectorScratchMiB)
  if usable < 0 then 0 else usable

/-- The disk an admission may count on: what is free now, without the scratch space, and the blocks
of live reservations that are allocated already. -/
def diskCapacity (probe : DiskProbe) (totals : ReservationTotals) : Except Bytes Int :=
  if p.observesDisk then
    match probe with
    | .error text => .error (ascii "observe disk capacity: " ++ text)
    | .ok seen =>
      if seen.freeMiB < 0 ∨ seen.materializedMiB < 0 ∨ totals.diskMiB < seen.materializedMiB then
        .error (ascii "invalid disk capacity observation")
      else
        .ok (wrap64 (wrap64 (seen.freeMiB - p.admission.reserveInspectorScratchMiB) +
          seen.materializedMiB))
  else .ok p.usableDiskMiB

def usableMemoryMiB : Int :=
  let hostReserve := max p.admission.reserveHostMemoryMinMiB p.floats.hostMemoryFractionMiB
  let inspectorReserve :=
    wrap64 (p.admission.reserveInspectorMemoryMiB * p.admission.reserveInspectionSlots)
  let usable := wrap64 (wrap64 (p.host.totalMemoryMiB - hostReserve) - inspectorReserve)
  if usable < 0 then 0 else usable

def refuse (message : Bytes) : Admission := .refused ⟨ascii "insufficient_capacity", message⟩

def memoryMessage (memTotalMiB reserved : Int) : Bytes :=
  ascii "memory: need " ++ formatInt memTotalMiB ++ ascii " MiB, only " ++
    formatInt (wrap64 (p.usableMemoryMiB - reserved)) ++ ascii " MiB free (usable " ++
    formatInt p.usableMemoryMiB ++ ascii ", reserved " ++ formatInt reserved ++ ascii ")"

def vcpuMessage (vcpu reserved : Int) : Bytes :=
  ascii "cpu: need " ++ formatInt vcpu ++ ascii " vCPU, only " ++ p.floats.freeVCPU reserved ++
    ascii " vCPU free (usable " ++ p.floats.usableVCPU ++ ascii ", reserved " ++
    formatInt reserved ++ ascii ")"

def measured : Bytes :=
  if p.observesDisk then ascii "live filesystem observation with allocated reservation credit"
  else ascii "host had " ++ formatInt p.host.stateDiskFreeMiB ++ ascii " MiB free at startup"

def diskMessage (diskMiB usable reserved : Int) : Bytes :=
  ascii "disk: need " ++ formatInt diskMiB ++ ascii " MiB, only " ++
    formatInt (wrap64 (usable - reserved)) ++ ascii " MiB free (usable " ++ formatInt usable ++
    ascii "; " ++ p.measured ++ ascii "; " ++ formatInt p.admission.reserveInspectorScratchMiB ++
    ascii " MiB held for inspection scratch; " ++ formatInt reserved ++
    ascii " MiB reserved by VMs)"

/-- `Admit`: memory, unless it may be overcommitted, then the CPUs, then the disk. -/
def admits (probe : DiskProbe) (totals : ReservationTotals) (memTotalMiB vcpu diskMiB : Int) :
    Admission :=
  if !p.admission.allowMemoryOvercommit &&
      decide (p.usableMemoryMiB < wrap64 (totals.memoryMiB + memTotalMiB)) then
    refuse (p.memoryMessage memTotalMiB totals.memoryMiB)
  else if !p.floats.vcpuFits totals.vcpu vcpu then refuse (p.vcpuMessage vcpu totals.vcpu)
  else
    match p.diskCapacity probe totals with
    | .error text => refuse text
    | .ok usable =>
      if usable < wrap64 (totals.diskMiB + diskMiB) then
        refuse (p.diskMessage diskMiB usable totals.diskMiB)
      else .granted

end Policy

/-! ## The host's configuration -/

structure Template where
  templateID : Bytes
  digest : Bytes

/-- The approved templates by their identifiers. They are decoded from JSON, so the identifiers
are well-formed texts. -/
structure Templates where
  entries : List Template
  wellFormed : ∀ tpl ∈ entries, sanitize tpl.templateID = tpl.templateID

def Templates.find (ts : Templates) (id : Bytes) : Option Template :=
  Table.find Template.templateID id ts.entries

structure VMDefaults where
  vcpuCount : Int
  memoryMiB : Int
  rootDiskMiB : Int
  workspaceDiskMiB : Int
  networkProfile : Bytes
  networkPolicyID : Bytes

structure Manager where
  templates : Templates
  vmDefaults : VMDefaults
  policy : Policy
  sha256 : Bytes → Bytes

/-! ## Requests -/

/-- A map of labels, in the order of its keys. -/
structure Labels where
  pairs : List (Bytes × Bytes)
  sorted : (pairs.map Prod.fst).Pairwise (· < ·)

/-- The text the labels are stored as. -/
def Labels.json (l : Labels) : Json := .obj (l.pairs.map fun p => (p.1, .str p.2))

/-- One VM as it is asked for. -/
structure VMRequest where
  name : Bytes
  templateID : Bytes
  vcpuCount : Int
  memoryMiB : Int
  rootDiskMiB : Int
  workspaceDiskMiB : Int
  labels : Labels
  run : Option RunAttachment

structure CreateRequest where
  vm : VMRequest
  idempotencyKey : Option Bytes

structure CreateBatchRequest where
  members : List VMRequest
  reservationMode : Bytes
  onFailure : Bytes
  idempotencyKey : Option Bytes

structure RunRequest where
  vmID : Bytes
  owner : Bytes
  attachment : RunAttachment
  idempotencyKey : Option Bytes

inductive RequestError where
  | runtimeUnavailable
  | invalidRequest (reason : Bytes)
  | templateUnknown (requested : Bytes) (known : List Bytes)
  | member (index : Nat) (err : RequestError)
  | vmNotRunning
  | store (err : StoreError)

/-! ## Checks and defaults -/

namespace Manager

variable (m : Manager)

def lookupTemplate (id : Bytes) : Except RequestError Template :=
  if id = [] then .error (.invalidRequest (ascii "template_id is required"))
  else
    match m.templates.find id with
    | none => .error (.templateUnknown id (m.templates.entries.map Template.templateID))
    | some tpl => .ok tpl

/-- A rune outside of this range is not printable; a byte that is no rune of its own is read as
one that is not. -/
def printable (b : UInt8) : Bool := 0x20 ≤ b && b ≤ 0x7E

def checkName (name : Bytes) : Except RequestError Unit :=
  if name = [] then .error (.invalidRequest (ascii "name is required"))
  else if 128 < name.length then .error (.invalidRequest (ascii "name exceeds 128 bytes"))
  else if !name.all printable then
    .error (.invalidRequest (ascii "name contains non-printable characters"))
  else .ok ()

/-- A size that is not positive stands for the default. -/
def orDefault (n dflt : Int) : Int := if n ≤ 0 then dflt else n

structure Sizes where
  vcpu : Int
  memoryMiB : Int
  rootDiskMiB : Int
  workspaceDiskMiB : Int

def effectiveSizes (req : VMRequest) : Sizes where
  vcpu := orDefault req.vcpuCount m.vmDefaults.vcpuCount
  memoryMiB := orDefault req.memoryMiB m.vmDefaults.memoryMiB
  rootDiskMiB := orDefault req.rootDiskMiB m.vmDefaults.rootDiskMiB
  workspaceDiskMiB := orDefault req.workspaceDiskMiB m.vmDefaults.workspaceDiskMiB

def checkSizes (s : Sizes) : Except RequestError Unit :=
  if s.vcpu ≤ 0 ∨ s.memoryMiB ≤ 0 ∨ s.rootDiskMiB ≤ 0 ∨ s.workspaceDiskMiB ≤ 0 then
    .error (.invalidRequest (ascii "resource values must be positive"))
  else .ok ()

def newVM (req : VMRequest) (tpl : Template) (vmID newRunID : Bytes) : NewVM where
  vmID := vmID
  spec :=
    { name := req.name
      templateID := tpl.templateID
      templateDigest := tpl.digest
      vcpuCount := (m.effectiveSizes req).vcpu
      memoryMiB := (m.effectiveSizes req).memoryMiB
      rootDiskMiB := (m.effectiveSizes req).rootDiskMiB
      workspaceDiskMiB := (m.effectiveSizes req).workspaceDiskMiB
      networkProfile := m.vmDefaults.networkProfile
      networkPolicyID := m.vmDefaults.networkPolicyID
      labels := req.labels.json.encode }
  memoryTotalMiB :=
    wrap64 ((m.effectiveSizes req).memoryMiB + m.policy.admission.reservePerVMHostOverheadMiB)
  run := req.run
  newRunID := newRunID

def resolveMember (req : VMRequest) (vmID newRunID : Bytes) : Except RequestError NewVM := do
  let tpl ← m.lookupTemplate req.templateID
  checkName req.name
  checkSizes (m.effectiveSizes req)
  pure (m.newVM req tpl vmID newRunID)

/-- The members of a batch from a position on; an error tells whose it is. -/
def resolveMembers (ids : Nat → Bytes × Bytes) :
    Nat → List VMRequest → Except RequestError (List NewVM)
  | _, [] => .ok []
  | i, req :: reqs => do
    let vm ← (m.resolveMember req (ids i).1 (ids i).2).mapError (.member i)
    let vms ← resolveMembers ids (i + 1) reqs
    pure (vm :: vms)

/-! ## Hashes -/

def hexDigit (n : Nat) : UInt8 := UInt8.ofNat (if n < 10 then 0x30 + n else 0x57 + n)

def hex (bs : Bytes) : Bytes := bs.flatMap fun b => [hexDigit (b.toNat / 16), hexDigit (b.toNat % 16)]

def num (n : Int) : Json := .num (formatInt n)

/-- What the hash of a single VM is taken over. -/
def effectiveReq (templateID : Bytes) (spec : VMSpec) : Json :=
  .obj [(ascii "template_id", .str templateID), (ascii "name", .str spec.name),
    (ascii "vcpu", num spec.vcpuCount), (ascii "memory_mib", num spec.memoryMiB),
    (ascii "root_disk_mib", num spec.rootDiskMiB),
    (ascii "workspace_disk_mib", num spec.workspaceDiskMiB)]

/-- What the hash of a batch is taken over, for one member of it. -/
def memberSig (spec : VMSpec) (labels : Labels) : Json :=
  .obj [(ascii "name", .str spec.name), (ascii "template_id", .str spec.templateID),
    (ascii "template_digest", .str spec.templateDigest), (ascii "vcpu", num spec.vcpuCount),
    (ascii "memory_mib", num spec.memoryMiB), (ascii "root_disk_mib", num spec.rootDiskMiB),
    (ascii "workspace_disk_mib", num spec.workspaceDiskMiB),
    (ascii "network_profile", .str spec.networkProfile),
    (ascii "network_policy_id", .str spec.networkPolicyID), (ascii "labels", labels.json)]

def batchSig (mode onFailure : Bytes) (members : List Json) : Json :=
  .obj [(ascii "mode", .str mode), (ascii "on_failure", .str onFailure),
    (ascii "members", .arr members)]

def requestHash (sig : Json) : Bytes := hex (m.sha256 sig.encode)

/-- The hash of a run is no digest: the fields are joined, and written in hexadecimal. -/
def runHash (req : RunRequest) : Bytes :=
  let bar := ascii "|"
  if req.idempotencyKey.isSome then
    hex (req.vmID ++ bar ++ req.owner ++ bar ++ req.attachment.goal ++ bar ++
      req.attachment.criteriaType ++ bar ++ req.attachment.onCompletion)
  else hex (req.attachment.goal ++ req.attachment.criteriaType)

/-! ## The calls of the store -/

/-- The input of `CreateVMWithOperation` for a request, with the identifiers drawn for it. -/
def createVMInput (owner : Bytes) (req : CreateRequest) (vmID newRunID : Bytes) :
    Except RequestError CreateVMInput := do
  let vm ← m.resolveMember req.vm vmID newRunID
  pure {
    owner, vm
    idempotencyKey := req.idempotencyKey
    requestHash := m.requestHash (effectiveReq req.vm.templateID vm.spec) }

def batchMode (mode : Bytes) : Except RequestError BatchMode :=
  if mode = ascii "atomic_reservation" then .ok .atomicReservation
  else if mode = ascii "best_effort" then .ok .bestEffort
  else .error (.invalidRequest
    (ascii "reservation_mode must be atomic_reservation or best_effort"))

/-- Nothing said stands for keeping the members that succeed. -/
def effectiveOnFailure (onFailure : Bytes) : Bytes :=
  if onFailure = [] then ascii "keep_successful" else onFailure

def checkOnFailure (onFailure : Bytes) : Except RequestError Unit :=
  if onFailure = ascii "keep_successful" ∨ onFailure = ascii "stop_successful" then .ok ()
  else .error (.invalidRequest (ascii "on_failure must be keep_successful or stop_successful"))

def checkMembers (members : List VMRequest) : Except RequestError Unit :=
  if members = [] then .error (.invalidRequest (ascii "batch must have at least one member"))
  else .ok ()

/-- The signatures of the members that were resolved. -/
def memberSigs (reqs : List VMRequest) (vms : List NewVM) : List Json :=
  List.zipWith (fun req vm => memberSig vm.spec req.labels) reqs vms

def createBatchInput (owner : Bytes) (req : CreateBatchRequest) (ids : Nat → Bytes × Bytes) :
    Except RequestError CreateVMBatchInput := do
  checkMembers req.members
  let mode ← batchMode req.reservationMode
  checkOnFailure (effectiveOnFailure req.onFailure)
  let members ← m.resolveMembers ids 0 req.members
  pure {
    owner, members
    idempotencyKey := req.idempotencyKey
    requestHash := m.requestHash (batchSig req.reservationMode (effectiveOnFailure req.onFailure)
      (memberSigs req.members members))
    reservationMode := mode
    onFailure := effectiveOnFailure req.onFailure }

/-- The input of `CreateRun`: a run on a VM that is running starts at once. -/
def createRunInput (req : RunRequest) : CreateRunInput where
  vmID := req.vmID
  owner := req.owner
  attachment := req.attachment
  idempotencyKey := req.idempotencyKey
  requestHash := runHash req
  initialPhase := .running

/-! ## What has passed the checks -/

variable {m} {req : VMRequest} {vm : NewVM}

lemma resolveMember_ok {vmID newRunID : Bytes} (h : m.resolveMember req vmID newRunID = .ok vm) :
    ∃ tpl, m.lookupTemplate req.templateID = .ok tpl ∧ checkName req.name = .ok () ∧
      vm = m.newVM req tpl vmID newRunID := by
  simp only [resolveMember, bind_ok_iff] at h
  obtain ⟨tpl, htpl, ⟨⟩, hname, -, -, h⟩ := h
  exact ⟨tpl, htpl, hname, (Except.ok.inj h).symm⟩

lemma mapError_ok {α ε ε' : Type} {x : Except ε α} {f : ε → ε'} {a : α}
    (h : x.mapError f = .ok a) : x = .ok a := by
  rcases x with err | b
  · exact nomatch h
  · exact congrArg Except.ok (Except.ok.inj h)

lemma resolveMembers_ok {ids : Nat → Bytes × Bytes} {i : Nat} {reqs : List VMRequest}
    {vms : List NewVM} (h : m.resolveMembers ids i reqs = .ok vms) :
    List.Forall₂ (fun req vm => ∃ vmID newRunID, m.resolveMember req vmID newRunID = .ok vm)
      reqs vms := by
  induction reqs generalizing i vms with
  | nil =>
    cases h
    exact .nil
  | cons req reqs ih =>
    simp only [resolveMembers, bind_ok_iff] at h
    obtain ⟨vm, hvm, rest, hrest, h⟩ := h
    cases h
    exact .cons ⟨_, _, mapError_ok hvm⟩ (ih hrest)

variable (m)

/-! ## The decisions -/

/-- A running total of machine integers. -/
def wrapSum (ns : List Int) : Int := ns.foldl (fun acc n => wrap64 (acc + n)) 0

def admitVM (probe : DiskProbe) (vm : NewVM) (totals : ReservationTotals) : Admission :=
  m.policy.admits probe totals vm.memoryTotalMiB vm.spec.vcpuCount vm.spec.diskMiB

/-- The decisions on a batch: on the totals of its members, or on one of them. -/
def admitBatch (probe : Nat → DiskProbe) (members : List NewVM) : BatchAdmission where
  batch totals := m.policy.admits (probe 0) totals (wrapSum (members.map NewVM.memoryTotalMiB))
    (wrapSum (members.map fun vm => vm.spec.vcpuCount))
    (wrapSum (members.map fun vm => vm.spec.rootDiskMiB + vm.spec.workspaceDiskMiB))
  member position totals size :=
    m.policy.admits (probe position) totals size.memoryTotalMiB size.vcpu size.diskMiB

/-- A start asks again for the memory and the CPUs of the VM's reservation; its disk was never
given back. -/
def admitStart (probe : DiskProbe) (res : Reservation) (totals : ReservationTotals) : Admission :=
  m.policy.admits probe totals res.memoryTotalMiB res.vcpu 0

end Manager

end Observatory.Runtime.Requests
