/-
# Provisioning manifests

The manifest of a VM is the record of what its launch provisioned, and the lease on its host
identities: the slot, from which the jail uid and the guest context id are derived, and the
subnet. There is no other ledger of them in the daemon: a slot is taken as long as a manifest
names it, and the subnet allocator is a cache that every launch rebuilds from the manifests and
from what the root daemon claims.
-/
import Observatory.Network.Alloc

namespace Observatory.Jailer

open Lib Lib.Ipv4 Network List

/-- The side effects of a launch, in their order. -/
inductive Stage where
  | reserved
  | staged
  | network
  | vmmStarted
  | runnerSpawned
  | attached
deriving DecidableEq

structure Manifest where
  startOpID : Bytes := []
  vmID : Bytes
  bootID : Bytes
  slot : Nat
  uid : Int
  gid : Int
  cid : Nat
  cidr : Prefix
  vmmPID : Int := 0
  vmmStart : Bytes := []
  runnerPID : Int := 0
  runnerStart : Bytes := []
  stages : List Stage
deriving DecidableEq

structure Config where
  jailUIDBase : Int
  jailGID : Int
  maxSlots : Nat
  cidBase : Nat
  /-- The pools of the subnet allocator. -/
  pools : List Prefix
  /-- How often a probe is repeated while a SIGTERM lands, and at the proof gate, and how often
  a refused release is retried. -/
  termTicks : Nat
  proofTicks : Nat
  releaseRetries : Nat

/-- The identities that a manifest leases. -/
structure Identity where
  vmID : Bytes
  slot : Nat
  cidr : Prefix

def Manifest.identity (m : Manifest) : Identity := ⟨m.vmID, m.slot, m.cidr⟩

/-! ## The manifests on disk -/

/-- The VM's directory now holds this manifest. -/
def publish (ms : List Manifest) (m : Manifest) : List Manifest :=
  ms.filter (fun m' => m'.vmID ≠ m.vmID) ++ [m]

/-- The VM's directory holds no manifest. -/
def unpublish (ms : List Manifest) (vmID : Bytes) : List Manifest :=
  ms.filter fun m => m.vmID ≠ vmID

def manifestOf (ms : List Manifest) (vmID : Bytes) : Option Manifest :=
  ms.find? fun m => m.vmID = vmID

def allocateSlot (ms : List Manifest) (vmID : Bytes) (maxSlots : Nat) : Option Nat :=
  match manifestOf ms vmID with
  | some m => some m.slot
  | none => (List.range maxSlots).find? fun slot => ms.all fun m => m.slot ≠ slot

/-- `^[a-z0-9][a-z0-9-]{0,62}$` -/
def validVMID (id : Bytes) : Bool :=
  id.all (fun b => (97 ≤ b && b ≤ 122) || (48 ≤ b && b ≤ 57) || b == 45) &&
    !id.isEmpty && id.head? ≠ some 45 && id.length ≤ 63

def validLease (owner : Bytes) (p : Prefix) : Bool :=
  validVMID owner && p.bits == 30 && p.masked == p

/-- The subnets the manifests lease; none if one is invalid or leased twice. -/
def networkLeases (ms : List Manifest) : Option (List (Bytes × Prefix)) :=
  if ms.all (fun m => validLease m.vmID m.cidr) && (ms.map (·.cidr)).Nodup then
    some (ms.map fun m => (m.vmID, m.cidr))
  else none

/-- Add what the root daemon claims; none if a claim is invalid or disagrees with a lease. -/
def mergeClaims (leases : List (Bytes × Prefix)) :
    List (Bytes × Prefix) → Option (List (Bytes × Prefix))
  | [] => some leases
  | (owner, p) :: claims =>
    if !validLease owner p then none
    else
      match leases.find? fun l => l.1 = owner with
      | some l => if l.2 = p then mergeClaims leases claims else none
      | none => mergeClaims (leases ++ [(owner, p)]) claims

/-- Restore leases one by one, up to the first that the allocator refuses. -/
def restoreAll (a : Allocator) : List (Bytes × Prefix) → Bool × Allocator
  | [] => (true, a)
  | l :: leases =>
    match a.restore l.1 (.v4 l.2) with
    | .ok a' => restoreAll a' leases
    | .error _ => (false, a)

def restoreNetworkLeases (a : Allocator) (ms : List Manifest) (claims : List (Bytes × Prefix)) :
    Bool × Allocator :=
  match networkLeases ms with
  | none => (false, a)
  | some leases =>
    match mergeClaims leases claims with
    | none => (false, a)
    | some leases => restoreAll a leases

/-! ## What the functions give -/

variable {a : Allocator} {vmID : Bytes} {claims leases : List (Bytes × Prefix)}
  {ms : List Manifest} {m : Manifest}

lemma mem_publish {m' : Manifest} :
    m' ∈ publish ms m ↔ m' = m ∨ m' ∈ ms ∧ m'.vmID ≠ m.vmID := by
  simp only [publish, mem_append, mem_filter, decide_eq_true_eq, mem_singleton]
  exact or_comm

lemma mem_unpublish :
    m ∈ unpublish ms vmID ↔ m ∈ ms ∧ m.vmID ≠ vmID := by
  simp only [unpublish, mem_filter, decide_eq_true_eq]

lemma manifestOf_some (h : manifestOf ms vmID = some m) : m ∈ ms ∧ m.vmID = vmID :=
  ⟨mem_of_find?_eq_some h, by simpa using List.find?_some h⟩

/-- A slot that is given is the VM's own, or one that no manifest names. -/
lemma allocateSlot_some {maxSlots slot : Nat} (h : allocateSlot ms vmID maxSlots = some slot) :
    (∃ m ∈ ms, m.vmID = vmID ∧ m.slot = slot) ∨ ∀ m ∈ ms, m.slot ≠ slot := by
  rw [allocateSlot] at h
  cases hm : manifestOf ms vmID with
  | some m =>
    rw [hm] at h
    obtain ⟨hmem, hid⟩ := manifestOf_some hm
    exact .inl ⟨m, hmem, hid, Option.some.inj h⟩
  | none =>
    rw [hm] at h
    have hfree := List.find?_some h
    exact .inr (by simpa using hfree)

def Holds (a : Allocator) (leases : List (Bytes × Prefix)) : Prop :=
  ∀ l ∈ leases, a.occupied l.2 = some l.1

/-- Restoring one lease takes none away. -/
lemma occupied_of_restore {a' : Allocator} {v w : Bytes} {p q : Prefix}
    (hok : a.restore v (.v4 p) = .ok a') (h : a.occupied q = some w) :
    a'.occupied q = some w := by
  obtain ⟨rfl, -, howner, -⟩ := Allocator.restore_ok hok
  show Function.update a.occupied p (some v) q = some w
  by_cases hq : q = p
  · rw [hq] at h
    rw [hq, Function.update_self, howner w h]
  · rw [Function.update_of_ne hq, h]

lemma restoreAll_keeps {w : Bytes} {q : Prefix} (h : a.occupied q = some w) :
    (restoreAll a leases).2.occupied q = some w := by
  induction leases generalizing a with
  | nil => exact h
  | cons l leases ih =>
    rw [restoreAll]
    cases hres : a.restore l.1 (.v4 l.2) with
    | error err => exact h
    | ok a' => exact ih (occupied_of_restore hres h)

lemma restoreAll_paired (h : a.Paired) : (restoreAll a leases).2.Paired := by
  induction leases generalizing a with
  | nil => exact h
  | cons l leases ih =>
    rw [restoreAll]
    cases hres : a.restore l.1 (.v4 l.2) with
    | error err => exact h
    | ok a' =>
      obtain ⟨rfl, -, howner, hblock⟩ := Allocator.restore_ok hres
      exact ih (h.assign howner hblock)

lemma restoreAll_holds (h : (restoreAll a leases).1 = true) :
    Holds (restoreAll a leases).2 leases := by
  induction leases generalizing a with
  | nil => exact fun l hl => absurd hl not_mem_nil
  | cons l leases ih =>
    rw [restoreAll] at h ⊢
    cases hres : a.restore l.1 (.v4 l.2) with
    | error err => rw [hres] at h; nomatch h
    | ok a' =>
      rw [hres] at h
      intro l' hl'
      rcases mem_cons.mp hl' with rfl | hl'
      · obtain ⟨rfl, -⟩ := Allocator.restore_ok hres
        exact restoreAll_keeps (Function.update_self ..)
      · exact ih h l' hl'

lemma mergeClaims_subset {merged : List (Bytes × Prefix)}
    (h : mergeClaims leases claims = some merged) : leases ⊆ merged := by
  induction claims generalizing leases with
  | nil =>
    cases h
    exact fun _ hl => hl
  | cons c claims ih =>
    rw [mergeClaims] at h
    split_ifs at h with hvalid
    cases hfind : leases.find? fun l => l.1 = c.1 with
    | none =>
      rw [hfind] at h
      exact fun l hl => ih h (mem_append_left _ hl)
    | some l =>
      simp only [hfind] at h
      split_ifs at h with heq
      exact ih h

/-- After a rebuild that works, the allocator has the subnet of every manifest. -/
theorem restoreNetworkLeases_holds (h : (restoreNetworkLeases a ms claims).1 = true) :
    ∀ m ∈ ms, (restoreNetworkLeases a ms claims).2.occupied m.cidr = some m.vmID := by
  intro m hm
  unfold restoreNetworkLeases at h ⊢
  cases hleases : networkLeases ms with
  | none => rw [hleases] at h; nomatch h
  | some leases =>
    simp only [hleases] at h ⊢
    cases hmerged : mergeClaims leases claims with
    | none => rw [hmerged] at h; nomatch h
    | some merged =>
      simp only [hmerged] at h ⊢
      have hmem : (m.vmID, m.cidr) ∈ leases := by
        rw [networkLeases] at hleases
        split_ifs at hleases
        cases hleases
        exact mem_map_of_mem hm
      exact restoreAll_holds h _ (mergeClaims_subset hmerged hmem)

theorem restoreNetworkLeases_paired (h : a.Paired) :
    (restoreNetworkLeases a ms claims).2.Paired := by
  unfold restoreNetworkLeases
  cases networkLeases ms with
  | none => exact h
  | some leases =>
    dsimp only
    cases mergeClaims leases claims with
    | none => exact h
    | some merged => exact restoreAll_paired h

end Observatory.Jailer
