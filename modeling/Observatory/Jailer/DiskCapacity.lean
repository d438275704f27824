/-
# The disk that admission may count on

Every filesystem the runtime uses must have room for all the disk the VMs were promised. The
images of a VM use up its promise as they fill, so the blocks they have allocated on a filesystem
are credited there, up to the VM's reservation. Of all filesystems, admission is told the numbers
of one that has the least left.
-/
import Mathlib.Data.List.MinMax
import Observatory.Runtime.Admission

namespace Observatory.Jailer.DiskCapacity

open Lib Store List Runtime.Requests Runtime.Requests.Manager
open Store.Registry (bind_ok_iff)

/-! ## The model -/

inductive FileMode where
  | regular
  | symlink
  | other
deriving DecidableEq

structure Stat where
  mode : FileMode
  nlink : Nat
  dev : Nat
  ino : Nat
  /-- Allocated blocks of 512 bytes. -/
  blocks : Nat

inductive Lstat where
  | notExist
  | failed (text : Bytes)
  | found (stat : Stat)

structure DiskFilesystem where
  dev : Nat
  path : Bytes
  credit : Int

/-- What the host answers: `lstat` for paths below the jail base, `statfs` with the number of free
blocks and their size. -/
structure Host where
  jailBase : Bytes
  lstat : List Bytes → Lstat
  statfs : Bytes → Except Bytes (Nat × Nat)

namespace Host

variable (h : Host)

def join (path : List Bytes) : Bytes := h.jailBase ++ path.flatMap fun name => ascii "/" ++ name

def imagePaths (vmID : Bytes) : List (List Bytes) :=
  [ascii "rootfs.ext4", ascii "workspace.ext4"].map fun name =>
    [ascii "firecracker", vmID, ascii "root", name]

def guestDiskError {α : Type} (text : Bytes) : Except Bytes α :=
  .error (ascii "observe guest disk: " ++ text)

/-- No component of the path below the jail base is a symbolic link. -/
def checkComponents (path : List Bytes) : Except Bytes Unit :=
  path.inits.tail.reverse.forM fun component =>
    match h.lstat component with
    | .notExist => pure ()
    | .failed text => guestDiskError text
    | .found stat =>
      if stat.mode = .symlink then
        .error (ascii "guest disk path contains symlink: " ++ h.join component)
      else pure ()

/-- The inodes counted so far, and the bytes allocated for one VM by device. -/
structure Scan where
  seen : List (Nat × Nat)
  allocated : Nat → Option Int

def observeImage (devs : List Nat) (s : Scan) (path : List Bytes) : Except Bytes Scan := do
  h.checkComponents path
  match h.lstat path with
  | .notExist => pure s
  | .failed text => guestDiskError text
  | .found stat =>
    if stat.mode ≠ .regular ∨ stat.nlink ≠ 1 then
      .error (ascii "guest disk is not a private regular file: " ++ h.join path)
    else if stat.dev ∉ devs then .error (ascii "guest disk is on an unconfigured filesystem")
    else if (stat.dev, stat.ino) ∈ s.seen then pure s
    else
      let bytes := wrap64 ((s.allocated stat.dev).getD 0 + wrap64 (stat.blocks * 512))
      pure ⟨(stat.dev, stat.ino) :: s.seen, Function.update s.allocated stat.dev (some bytes)⟩

/-- What a reservation is credited with on a device, if anything of it is there. -/
def creditOf (allocated : Nat → Option Int) (diskMiB : Int) (dev : Nat) : Option Int :=
  (allocated dev).map fun bytes => min (bytes.tdiv (1024 * 1024)) diskMiB

def creditAll (credit : Nat → Option Int) (fs : List DiskFilesystem) : List DiskFilesystem :=
  fs.map fun f => { f with credit := (credit f.dev).elim f.credit fun c => wrap64 (f.credit + c) }

def observeReservation (s : List (Nat × Nat) × List DiskFilesystem) (r : Bytes × Int) :
    Except Bytes (List (Nat × Nat) × List DiskFilesystem) :=
  if [[], ascii ".", ascii ".."].contains r.1 ∨ r.1.any (· ∈ ascii "/\\") then
    .error (ascii "invalid disk reservation owner")
  else do
    let scan ← (imagePaths r.1).foldlM (h.observeImage (s.2.map DiskFilesystem.dev))
      ⟨s.1, fun _ => none⟩
    pure (scan.seen, creditAll (creditOf scan.allocated r.2) s.2)

def free (path : Bytes) : Except Bytes Int :=
  match h.statfs path with
  | .error text => .error (ascii "observe free disk: " ++ text)
  | .ok (bavail, bsize) => .ok ((wrap64 (bavail * bsize)).tdiv (1024 * 1024))

def sample (f : DiskFilesystem) : DiskProbe := do
  let free ← h.free f.path
  pure ⟨free, f.credit⟩

def left (o : DiskObservation) : Int := wrap64 (o.freeMiB + o.materializedMiB)

/-- The first filesystem, in the order the map is walked in, that has the least left. -/
def observeDiskFilesystems (fs : List DiskFilesystem) : DiskProbe := do
  let samples ← fs.mapM h.sample
  pure ((samples.foldl (argAux fun o least => left o < left least) none).getD ⟨0, 0⟩)

def observeSettledDisk (disks : List (Bytes × Int)) (fs : List DiskFilesystem) : DiskProbe := do
  let (_, fs) ← disks.foldlM h.observeReservation ([], fs)
  h.observeDiskFilesystems fs

/-- `ObserveDisk` with the configured filesystems. Nothing is credited while a launch or the
privileged daemon is at work. -/
def observeDisk (settled : Bool) (disks : List (Bytes × Int)) (fs : List DiskFilesystem) :
    DiskProbe :=
  if settled then h.observeSettledDisk disks fs else h.observeDiskFilesystems fs

/-! ## What is credited -/

def allocatedAt (path : List Bytes) (dev : Nat) : Int :=
  match h.lstat path with
  | .found stat => if stat.dev = dev then stat.blocks * 512 else 0
  | _ => 0

/-- The bytes that the images of a VM occupy on a device. -/
def occupied (vmID : Bytes) (dev : Nat) : Int :=
  ((imagePaths vmID).map fun path => h.allocatedAt path dev).sum

/-- A credit that is backed by the VM's reservation and by its images. -/
def Backed (dev : Nat) (r : Bytes × Int) (credit : Int) : Prop :=
  0 ≤ credit ∧ credit ≤ r.2 ∧ credit * (1024 * 1024) ≤ h.occupied r.1 dev

/-- The sums that the observation and the admission form fit. -/
structure Fits (p : Policy) (totals : ReservationTotals) (diskMiB : Int)
    (fs : List DiskFilesystem) : Prop where
  images : ∀ r ∈ totals.disks, ∀ dev, h.occupied r.1 dev < 2 ^ 63
  reserved : ∀ r ∈ totals.disks, 0 ≤ r.2
  sum : (totals.disks.map Prod.snd).sum < 2 ^ 63
  free : ∀ f ∈ fs, ∀ bavail bsize, h.statfs f.path = .ok (bavail, bsize) →
    bavail * bsize + (totals.disks.map Prod.snd).sum < 2 ^ 63
  scratch : fits64 p.admission.reserveInspectorScratchMiB = true
  request : fits64 (totals.diskMiB + diskMiB) = true

variable {h} {dev : Nat} {r : Bytes × Int} {rs : List (Bytes × Int)} {fs fs' : List DiskFilesystem}

lemma allocatedAt_nonneg (path : List Bytes) (dev : Nat) : 0 ≤ h.allocatedAt path dev := by
  unfold allocatedAt
  split
  · split_ifs <;> omega
  · rfl

lemma occupied_nonneg (vmID : Bytes) (dev : Nat) : 0 ≤ h.occupied vmID dev :=
  sum_nonneg (by simp [allocatedAt_nonneg])

lemma sum_backed {credits : List Int} (hbacked : Forall₂ (h.Backed dev) rs credits) :
    0 ≤ credits.sum ∧ credits.sum ≤ (rs.map Prod.snd).sum := by
  induction hbacked with
  | nil => simp
  | cons hcredit _ ih =>
    obtain ⟨hzero, hle, -⟩ := hcredit
    simp only [map_cons, sum_cons]
    omega

/-- What was counted lies between nothing and what there is. -/
def Counted (allocated : Nat → Option Int) (there : Nat → Int) : Prop :=
  ∀ dev bytes, allocated dev = some bytes → 0 ≤ bytes ∧ bytes ≤ there dev

variable {there : Nat → Int} {devs : List Nat} {s s' : Scan}

lemma Counted.observeImage (hs : Counted s.allocated there) {path : List Bytes}
    (hpos : ∀ dev, 0 ≤ there dev) (hfit : ∀ dev, there dev + h.allocatedAt path dev < 2 ^ 63)
    (hok : h.observeImage devs s path = .ok s') :
    Counted s'.allocated fun dev => there dev + h.allocatedAt path dev := by
  have hmore : Counted s.allocated fun dev => there dev + h.allocatedAt path dev := by
    intro dev bytes hbytes
    obtain ⟨hzero, hle⟩ := hs dev bytes hbytes
    exact ⟨hzero, le_add_of_le_of_nonneg hle (allocatedAt_nonneg path dev)⟩
  simp only [Host.observeImage, bind_ok_iff] at hok
  obtain ⟨-, -, hok⟩ := hok
  split at hok
  · cases hok
    exact hmore
  · cases hok
  next stat hstat =>
  split_ifs at hok with hregular hdev hseen
  · cases hok
    exact hmore
  cases hok
  intro dev bytes hbytes
  obtain rfl | hne := eq_or_ne dev stat.dev
  · -- the image is counted on its own device
    have hpath : h.allocatedAt path stat.dev = stat.blocks * 512 := by simp [allocatedAt, hstat]
    have hbefore : 0 ≤ (s.allocated stat.dev).getD 0 ∧
        (s.allocated stat.dev).getD 0 ≤ there stat.dev := by
      cases hold : s.allocated stat.dev with
      | none => exact ⟨le_rfl, hpos _⟩
      | some old => exact hs _ _ hold
    have hfit := hfit stat.dev
    simp only [Function.update_self, Option.some.injEq] at hbytes
    subst hbytes
    simp only [hpath] at hfit ⊢
    rw [wrap64_of_fits (n := stat.blocks * 512) (decide_eq_true ⟨by omega, by omega⟩),
      wrap64_of_fits (decide_eq_true ⟨by omega, by omega⟩)]
    exact ⟨by omega, by omega⟩
  · simp only [Function.update_of_ne hne] at hbytes
    exact hmore dev bytes hbytes

lemma Counted.observeImages {paths : List (List Bytes)} (hs : Counted s.allocated there)
    (hpos : ∀ dev, 0 ≤ there dev)
    (hfit : ∀ dev, there dev + (paths.map fun path => h.allocatedAt path dev).sum < 2 ^ 63)
    (hok : paths.foldlM (h.observeImage devs) s = .ok s') :
    Counted s'.allocated fun dev =>
      there dev + (paths.map fun path => h.allocatedAt path dev).sum := by
  induction paths generalizing s there with
  | nil =>
    cases hok
    simpa using hs
  | cons path paths ih =>
    simp only [foldlM_cons, bind_ok_iff] at hok
    obtain ⟨s₁, hfirst, hrest⟩ := hok
    simp only [map_cons, sum_cons, ← add_assoc] at hfit ⊢
    have hpath := h.allocatedAt_nonneg path
    refine ih (hs.observeImage hpos (fun dev => ?_) hfirst) (fun dev => ?_) hfit hrest
    · have hpaths : 0 ≤ (paths.map fun path => h.allocatedAt path dev).sum :=
        sum_nonneg (by simp [allocatedAt_nonneg])
      have := hfit dev
      omega
    · have := hpath dev
      have := hpos dev
      omega

lemma observeReservation_ok {seen seen' : List (Nat × Nat)} (hr : 0 ≤ r.2)
    (himages : ∀ dev, h.occupied r.1 dev < 2 ^ 63)
    (hfs : ∀ f ∈ fs, 0 ≤ f.credit ∧ f.credit + r.2 < 2 ^ 63)
    (hok : h.observeReservation (seen, fs) r = .ok (seen', fs')) :
    ∃ credit : Nat → Int, (∀ dev, h.Backed dev r (credit dev)) ∧
      fs' = fs.map fun f => { f with credit := f.credit + credit f.dev } := by
  rw [observeReservation] at hok
  split_ifs at hok
  simp only [bind_ok_iff] at hok
  obtain ⟨scan, hscan, hok⟩ := hok
  cases hok
  have hcounted : Counted scan.allocated fun dev => 0 + h.occupied r.1 dev := by
    have hnothing : Counted (fun _ => none) fun _ => 0 := fun _ _ hnone => by cases hnone
    exact hnothing.observeImages (fun _ => le_rfl)
      (fun dev => by simpa [occupied] using himages dev) hscan
  have hbacked : ∀ dev, h.Backed dev r ((creditOf scan.allocated r.2 dev).getD 0) := by
    intro dev
    cases hbytes : scan.allocated dev with
    | none =>
      simpa [creditOf, hbytes, Backed] using ⟨hr, h.occupied_nonneg r.1 dev⟩
    | some bytes =>
      obtain ⟨hzero, hle⟩ : 0 ≤ bytes ∧ bytes ≤ 0 + h.occupied r.1 dev := hcounted dev bytes hbytes
      simp only [creditOf, hbytes, Option.map_some, Option.getD_some, Backed,
        Int.tdiv_eq_ediv_of_nonneg hzero]
      omega
  refine ⟨_, hbacked, map_congr_left fun f hf => ?_⟩
  have hcredit := hbacked f.dev
  cases hc : creditOf scan.allocated r.2 f.dev with
  | none => simp
  | some c =>
    rw [hc] at hcredit
    obtain ⟨hzero, hle, -⟩ : 0 ≤ c ∧ c ≤ r.2 ∧ _ := hcredit
    have hf := hfs f hf
    simp [wrap64_of_fits (n := f.credit + c) (decide_eq_true ⟨by omega, by omega⟩)]

lemma observeReservations_ok {seen seen' : List (Nat × Nat)} (hrs : ∀ r ∈ rs, 0 ≤ r.2)
    (himages : ∀ r ∈ rs, ∀ dev, h.occupied r.1 dev < 2 ^ 63)
    (hfs : ∀ f ∈ fs, 0 ≤ f.credit ∧ f.credit + (rs.map Prod.snd).sum < 2 ^ 63)
    (hok : rs.foldlM h.observeReservation (seen, fs) = .ok (seen', fs')) :
    ∃ credits : Nat → List Int, (∀ dev, Forall₂ (h.Backed dev) rs (credits dev)) ∧
      fs' = fs.map fun f => { f with credit := f.credit + (credits f.dev).sum } := by
  induction rs generalizing seen fs with
  | nil =>
    cases hok
    exact ⟨fun _ => [], fun _ => .nil, by simp⟩
  | cons r rs ih =>
    simp only [foldlM_cons, bind_ok_iff] at hok
    obtain ⟨⟨seen₁, fs₁⟩, hfirst, hrest⟩ := hok
    obtain ⟨hr, hrs⟩ := forall_mem_cons.1 hrs
    obtain ⟨himage, himages⟩ := forall_mem_cons.1 himages
    have hsum : 0 ≤ (rs.map Prod.snd).sum := sum_nonneg (forall_mem_map.2 hrs)
    simp only [map_cons, sum_cons] at hfs
    obtain ⟨credit, hbacked, rfl⟩ :=
      observeReservation_ok hr himage
        (fun f hf => ⟨(hfs f hf).1, by have := hfs f hf; omega⟩) hfirst
    obtain ⟨credits, hcredits, rfl⟩ := ih hrs himages (by
      refine forall_mem_map.2 fun f hf => ?_
      have hf := hfs f hf
      obtain ⟨hzero, hle, -⟩ := hbacked f.dev
      exact ⟨by show 0 ≤ f.credit + _; omega, by show f.credit + _ + _ < _; omega⟩) hrest
    refine ⟨fun dev => credit dev :: credits dev, fun dev => .cons (hbacked dev) (hcredits dev), ?_⟩
    simp [Function.comp_def, add_assoc]

/-! ## What is left -/

lemma mapM_sample_ok {samples : List DiskObservation} (hok : fs.mapM h.sample = .ok samples) :
    (∀ o ∈ samples, ∃ g ∈ fs, h.sample g = .ok o) ∧
      ∀ f ∈ fs, ∃ o ∈ samples, h.sample f = .ok o := by
  induction fs generalizing samples with
  | nil =>
    cases hok
    exact ⟨nofun, nofun⟩
  | cons f fs ih =>
    simp only [mapM_cons, bind_ok_iff] at hok
    obtain ⟨o, ho, os, hos, hok⟩ := hok
    cases hok
    obtain ⟨hleft, hright⟩ := ih hos
    simp only [mem_cons, exists_eq_or_imp, forall_eq_or_imp]
    exact ⟨⟨.inl ho, fun o ho => .inr (hleft o ho)⟩, .inl ho, fun f hf => .inr (hright f hf)⟩

lemma observeDiskFilesystems_ok {o : DiskObservation} (hok : h.observeDiskFilesystems fs = .ok o)
    {f : DiskFilesystem} (hf : f ∈ fs) :
    (∃ g ∈ fs, h.sample g = .ok o) ∧ ∃ o', h.sample f = .ok o' ∧ left o ≤ left o' := by
  simp only [observeDiskFilesystems, bind_ok_iff] at hok
  obtain ⟨samples, hsamples, hok⟩ := hok
  obtain ⟨hleft, hright⟩ := mapM_sample_ok hsamples
  obtain ⟨o', hmem, ho'⟩ := hright f hf
  change Except.ok ((samples.argmin left).getD _) = _ at hok
  cases hmin : samples.argmin left with
  | none => exact absurd (argmin_eq_none.1 hmin) (ne_nil_of_mem hmem)
  | some least =>
    rw [hmin] at hok
    cases hok
    exact ⟨hleft _ (argmin_mem hmin), o', ho', le_of_mem_argmin hmem hmin⟩

variable {p : Policy} {totals : ReservationTotals} {diskMiB : Int}

/-- Filesystems whose credits are within the reservations: if the request is granted on what is
observed of them, each of them covers it. -/
lemma covered_of_granted {memTotalMiB vcpu : Int} (hobserves : p.observesDisk = true)
    (hfits : h.Fits p totals diskMiB fs)
    (hfs : ∀ f ∈ fs, 0 ≤ f.credit ∧ f.credit ≤ (totals.disks.map Prod.snd).sum)
    (hgranted : p.admits (h.observeDiskFilesystems fs) totals memTotalMiB vcpu diskMiB = .granted)
    {f : DiskFilesystem} (hf : f ∈ fs) :
    ∃ free, h.free f.path = .ok free ∧ totals.diskMiB + diskMiB ≤
      free + f.credit - p.admission.reserveInspectorScratchMiB := by
  obtain ⟨-, -, cap, hcap, hle⟩ := admits_granted_iff.1 hgranted
  rw [wrap64_of_fits hfits.request] at hle
  have hscratch := of_decide_eq_true hfits.scratch
  -- a sample of any of them is exact
  have hexact : ∀ f ∈ fs, ∀ o, h.sample f = .ok o → h.free f.path = .ok o.freeMiB ∧
      o.materializedMiB = f.credit ∧ 0 ≤ o.freeMiB ∧ o.freeMiB + f.credit < 2 ^ 63 := by
    intro f hf o ho
    simp only [sample, bind_ok_iff] at ho
    obtain ⟨free, hok, ho⟩ := ho
    cases ho
    refine ⟨hok, rfl, ?_⟩
    rw [Host.free] at hok
    split at hok
    · cases hok
    next bavail bsize hstatfs =>
    obtain rfl := Except.ok.inj hok
    have hfree := hfits.free f hf bavail bsize hstatfs
    have hcredit := hfs f hf
    have hsize : (0 : Int) ≤ bavail * bsize := by positivity
    rw [wrap64_of_fits (decide_eq_true ⟨hsize, by omega⟩), Int.tdiv_eq_ediv_of_nonneg hsize]
    dsimp only
    omega
  cases hok : h.observeDiskFilesystems fs with
  | error text => simp [Policy.diskCapacity, hobserves, hok] at hcap
  | ok o =>
  simp only [Policy.diskCapacity, hobserves, hok, if_true] at hcap
  split_ifs at hcap with hinvalid
  obtain rfl := Except.ok.inj hcap
  obtain ⟨⟨g, hg, hgo⟩, o', ho', hleast⟩ := observeDiskFilesystems_ok hok hf
  obtain ⟨-, hmat, hfree, hsum⟩ := hexact g hg o hgo
  obtain ⟨hok', hmat', hfree', hsum'⟩ := hexact f hf o' ho'
  have hg := hfs g hg
  have hf := hfs f hf
  refine ⟨o'.freeMiB, hok', ?_⟩
  simp only [left, hmat, hmat', wrap64] at hleast hle
  omega

/-- **Disk admission is sound on every filesystem.**  A request that is granted is covered on each
filesystem, by its free space and credits that are backed, less the scratch space. -/
theorem admitted_covered (h : Host) (fs : List DiskFilesystem) (p : Policy)
    (totals : ReservationTotals) (settled : Bool) (memTotalMiB vcpu diskMiB : Int)
    (hobserves : p.observesDisk = true) (hfits : h.Fits p totals diskMiB fs)
    (hfresh : ∀ f ∈ fs, f.credit = 0)
    (hgranted : p.admits (h.observeDisk settled totals.disks fs) totals memTotalMiB vcpu diskMiB =
      .granted) :
    ∀ f ∈ fs, ∃ free credits, h.free f.path = .ok free ∧
      Forall₂ (h.Backed f.dev) totals.disks credits ∧
      totals.diskMiB + diskMiB ≤ free + credits.sum - p.admission.reserveInspectorScratchMiB := by
  -- it is enough to look at the filesystems with what was credited to them
  obtain ⟨credits, hbacked, hgranted⟩ : ∃ credits : Nat → List Int,
      (∀ dev, Forall₂ (h.Backed dev) totals.disks (credits dev)) ∧
      p.admits (h.observeDiskFilesystems (fs.map fun f => { f with credit := (credits f.dev).sum }))
        totals memTotalMiB vcpu diskMiB = .granted := by
    cases settled with
    | false =>
      refine ⟨fun _ => totals.disks.map fun _ => 0, fun dev => ?_, ?_⟩
      · refine forall₂_map_right_iff.2 (forall₂_same.2 fun r hr => ?_)
        exact ⟨le_rfl, hfits.reserved r hr, by simpa using h.occupied_nonneg r.1 dev⟩
      · have hsame :
            (fs.map fun f => { f with credit := (totals.disks.map fun _ => 0).sum }) = fs :=
          (map_congr_left fun f hf => by simpa using congrArg _ (hfresh f hf).symm).trans
            (map_id fs)
        rw [hsame]
        exact hgranted
    | true =>
      simp only [observeDisk, observeSettledDisk, if_true] at hgranted
      cases hfold : totals.disks.foldlM h.observeReservation ([], fs) with
      | error text =>
        obtain ⟨-, -, cap, hcap, -⟩ := admits_granted_iff.1 (hfold ▸ hgranted)
        simp [Policy.diskCapacity, hobserves, bind, Except.bind] at hcap
      | ok s =>
        obtain ⟨credits, hbacked, hcredited⟩ := observeReservations_ok hfits.reserved hfits.images
          (fun f hf => by simpa [hfresh f hf] using hfits.sum) hfold
        refine ⟨credits, hbacked, ?_⟩
        rw [hfold] at hgranted
        rw [map_congr_left fun f hf => by rw [hfresh f hf, zero_add]] at hcredited
        rw [← hcredited]
        exact hgranted
  intro f hf
  have hmapped : h.Fits p totals diskMiB
      (fs.map fun f => { f with credit := (credits f.dev).sum }) :=
    { hfits with free := forall_mem_map.2 hfits.free }
  obtain ⟨free, hfree, hle⟩ := covered_of_granted hobserves hmapped
    (forall_mem_map.2 fun f _ => sum_backed (hbacked f.dev)) hgranted (mem_map_of_mem hf)
  exact ⟨free, credits f.dev, hfree, hbacked f.dev, hle⟩

/-- A host with one filesystem, on which a VM has filled 3 MiB of the 8 MiB it was promised. -/
def demoHost : Host where
  jailBase := ascii "/srv/jail"
  lstat path :=
    if path = [ascii "firecracker", ascii "vm-1", ascii "root", ascii "rootfs.ext4"] then
      .found ⟨.regular, 1, 7, 12, 6144⟩
    else .notExist
  statfs _ := .ok (2560, 4096)

def demoPolicy : Policy :=
  ⟨⟨true, 0, 0, 0, 0, 1⟩, ⟨0, 0⟩, ⟨0, fun _ _ => true, fun _ => [], []⟩, true⟩

/-- 10 MiB are free and 3 are credited: 4 more may be promised. -/
theorem admitted_covered_demo : ∃ free credits, demoHost.free (ascii "/srv") = .ok free ∧
    Forall₂ (demoHost.Backed 7) [(ascii "vm-1", 8)] credits ∧ 8 + 4 ≤ free + credits.sum - 1 := by
  refine demoHost.admitted_covered [⟨7, ascii "/srv", 0⟩] demoPolicy
    ⟨[(ascii "vm-1", 8)], 0, 0, 8, 1⟩ true 0 0 4 rfl
    ⟨?_, by decide, by decide, ?_, by decide, by decide⟩ (by decide) (by decide +kernel) _ (mem_singleton_self _)
  · refine forall_mem_singleton.2 fun dev => ?_
    have hvalue : demoHost.occupied (ascii "vm-1") dev =
        (if 7 = dev then 3145728 else 0) + (0 + 0) := rfl
    simp only [hvalue]
    split_ifs <;> decide
  · refine forall_mem_singleton.2 fun bavail bsize hstatfs => ?_
    cases hstatfs
    decide

end Host

end Observatory.Jailer.DiskCapacity
