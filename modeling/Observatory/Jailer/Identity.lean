/-
# Host identities are not shared

Whatever transactions are run, whichever of their steps fail and wherever the daemon crashes, no
two manifests name the same slot or the same subnet. A launch reads its slot off the manifests
and its subnet off an allocator it has just rebuilt from them, and nothing else runs until it has
published them.

That a slot is *given away* only after a successful release is a different matter: the manifest
is the lease, and the removal of a VM's directory can fail, or the daemon crash, when the manifest
is already gone.
-/
import Observatory.Jailer.Host

namespace Observatory.Jailer

open Lib Lib.Ipv4 Network List

/-! ## The invariant -/

/-- The removal of a VM's directory that takes its manifest works. -/
def notCut : (c : Call) → c.Choice → Prop
  | .removeStateDir _, e => e ≠ .cut
  | _, _ => True

/-- With `strict`, removals are not cut short. -/
def allowed : Bool → (c : Call) → c.Choice → Prop
  | true => notCut
  | false => fun _ _ => True

def Derived (cfg : Config) (m : Manifest) : Prop :=
  m.uid = cfg.jailUIDBase + m.slot ∧ m.cid = (cfg.cidBase + m.slot) % 2 ^ 32

def Free (ms : List Manifest) (i : Identity) : Prop :=
  ∀ m ∈ ms, m.vmID ≠ i.vmID → m.slot ≠ i.slot ∧ m.cidr ≠ i.cidr

structure Sound (cfg : Config) (strict : Bool) (h : Host) : Prop where
  owners : (h.manifests.map (·.vmID)).Nodup
  apart : ∀ m ∈ h.manifests, Free h.manifests m.identity
  derived : ∀ m ∈ h.manifests, Derived cfg m
  paired : h.alloc.Paired
  held : strict = true → ∀ v, h.held v = (manifestOf h.manifests v).map Manifest.identity

variable {cfg : Config} {strict : Bool} {h : Host}

lemma sound_initial : Sound cfg strict (Host.initial cfg) where
  owners := nodup_nil
  apart _ hm := absurd hm not_mem_nil
  derived _ hm := absurd hm not_mem_nil
  paired := Allocator.paired_new _ _
  held _ _ := rfl

lemma Sound.restart (hs : Sound cfg strict h) : Sound cfg strict (h.restart cfg) :=
  { hs with paired := Allocator.paired_new _ _ }

/-! ## Publishing and removing -/

lemma manifestOf_unpublish (ms : List Manifest) (w v : Bytes) :
    manifestOf (unpublish ms w) v = if v = w then none else manifestOf ms v := by
  induction ms with
  | nil => simp [manifestOf, unpublish]
  | cons m ms ih =>
    unfold manifestOf unpublish at ih ⊢
    by_cases hm : m.vmID = w
    · rw [filter_cons_of_neg (by simpa using hm), ih]
      by_cases hv : v = w
      · simp [hv]
      · rw [if_neg hv, if_neg hv, List.find?_cons_of_neg]
        simpa [hm] using fun heq => hv heq.symm
    · rw [filter_cons_of_pos (by simpa using hm)]
      by_cases hmv : m.vmID = v
      · rw [List.find?_cons_of_pos (by simpa using hmv), List.find?_cons_of_pos
          (by simpa using hmv), if_neg (hmv ▸ hm)]
      · rw [List.find?_cons_of_neg (by simpa using hmv), List.find?_cons_of_neg
          (by simpa using hmv), ih]

lemma manifestOf_publish (ms : List Manifest) (m : Manifest) (v : Bytes) :
    manifestOf (publish ms m) v = if v = m.vmID then some m else manifestOf ms v := by
  have hkept := manifestOf_unpublish ms m.vmID v
  unfold manifestOf unpublish at hkept
  rw [manifestOf, publish, List.find?_append, hkept]
  by_cases hv : v = m.vmID
  · simp [hv]
  · simp [hv, Ne.symm hv, manifestOf]

variable {i : Identity} {m : Manifest}

lemma free_unpublish {ms : List Manifest} (hf : Free ms i) (v : Bytes) :
    Free (unpublish ms v) i :=
  fun m hm => hf m (mem_unpublish.1 hm).1

lemma free_publish {ms : List Manifest} (hf : Free ms m.identity) :
    Free (publish ms m) m.identity := by
  intro m' hm'
  rcases mem_publish.1 hm' with rfl | ⟨hm', -⟩
  · exact fun hne => absurd rfl hne
  · exact hf m' hm'

lemma Sound.publish (hs : Sound cfg strict h) (hf : Free h.manifests m.identity)
    (hd : Derived cfg m) : Sound cfg strict { h with
      manifests := publish h.manifests m
      held := Function.update h.held m.vmID (some m.identity) } where
  owners := by
    show ((Jailer.publish h.manifests m).map (·.vmID)).Nodup
    rw [Jailer.publish, map_append, map_singleton]
    refine List.Nodup.append ?_ (nodup_singleton _) ?_
    · exact hs.owners.sublist (filter_sublist.map _)
    · rw [disjoint_singleton]
      intro hmem
      obtain ⟨m', hm', heq⟩ := mem_map.1 hmem
      exact absurd heq (by simpa using (mem_filter.1 hm').2)
  apart := by
    intro m₁ hm₁
    rcases mem_publish.1 hm₁ with rfl | ⟨hold₁, hne₁⟩
    · exact free_publish hf
    · intro m₂ hm₂ hne
      rcases mem_publish.1 hm₂ with rfl | ⟨hold₂, -⟩
      · -- the new manifest against an old one, the other way round
        obtain ⟨hslot, hcidr⟩ := hf m₁ hold₁ hne₁
        exact ⟨hslot.symm, hcidr.symm⟩
      · exact hs.apart m₁ hold₁ m₂ hold₂ hne
  derived := by
    intro m' hm'
    rcases mem_publish.1 hm' with rfl | ⟨hm', -⟩
    · exact hd
    · exact hs.derived m' hm'
  paired := hs.paired
  held := by
    intro hstrict v
    show Function.update h.held m.vmID (some m.identity) v = _
    rw [manifestOf_publish]
    by_cases hv : v = m.vmID
    · rw [hv, Function.update_self, if_pos rfl]
      rfl
    · rw [Function.update_of_ne hv, if_neg hv]
      exact hs.held hstrict v

/-- The manifest is gone, and so is what was held, unless removals may be cut short. -/
lemma Sound.unpublish (hs : Sound cfg strict h) (vmID : Bytes) {held : Bytes → Option Identity}
    (hheld : strict = true → held = Function.update h.held vmID none) :
    Sound cfg strict { h with manifests := unpublish h.manifests vmID, held := held } where
  owners := hs.owners.sublist (filter_sublist.map _)
  apart m hm := free_unpublish (hs.apart m (mem_unpublish.1 hm).1) vmID
  derived m hm := hs.derived m (mem_unpublish.1 hm).1
  paired := hs.paired
  held := by
    intro hstrict v
    show held v = _
    rw [hheld hstrict, manifestOf_unpublish]
    by_cases hv : v = vmID
    · rw [hv, Function.update_self, if_pos rfl]
      rfl
    · rw [Function.update_of_ne hv, if_neg hv]
      exact hs.held hstrict v

/-! ## One call -/

def Fits (cfg : Config) (i : Identity) (m : Manifest) : Prop := m.identity = i ∧ Derived cfg m

def Writes (cfg : Config) (i : Identity) : Call → Prop
  | .writeManifest m => Fits cfg i m
  | _ => True

def Granted (cfg : Config) (strict : Bool) (i : Identity) (h : Host) : Prop :=
  Sound cfg strict h ∧ Free h.manifests i

lemma Granted.of_mem (hs : Sound cfg strict h) (hm : m ∈ h.manifests) :
    Granted cfg strict m.identity h ∧ Fits cfg m.identity m :=
  ⟨⟨hs, hs.apart m hm⟩, rfl, hs.derived m hm⟩

lemma sound_acquire (hs : Sound cfg strict h) (vmID : Bytes) :
    Sound cfg strict (h.acquire vmID).1 ∧ (h.acquire vmID).1.manifests = h.manifests := by
  rw [Host.acquire]
  cases hacq : h.alloc.acquire vmID with
  | none => exact ⟨hs, rfl⟩
  | some out =>
    obtain ⟨res, alloc⟩ := out
    cases res with
    | ok p => exact ⟨{ hs with paired := (Allocator.acquire_ok hs.paired hacq).1 }, rfl⟩
    | error err => exact ⟨{ hs with paired := Allocator.acquire_error hacq ▸ hs.paired }, rfl⟩

def Silent : Call → Prop
  | .writeManifest _ => False
  | _ => True

lemma silent_of_neutral (c : Call) (hc : Neutral c) : Silent c := by
  cases c with
  | writeManifest m => exact hc
  | _ => trivial

lemma exec_silent {c : Call} {e : c.Choice} (hc : Silent c) (hs : Sound cfg strict h)
    (hok : allowed strict c e) :
    Sound cfg strict (c.exec cfg h e).1 ∧ (c.exec cfg h e).1.manifests ⊆ h.manifests := by
  cases c with
  | writeManifest m => exact hc.elim
  | removeStateDir vmID =>
    cases e with
    | kept => exact ⟨hs, List.Subset.refl _⟩
    | cut =>
      refine ⟨hs.unpublish vmID fun hstrict => ?_, filter_subset_self _⟩
      subst hstrict
      exact absurd rfl hok
    | done => exact ⟨hs.unpublish vmID fun _ => rfl, filter_subset_self _⟩
  | restoreNetworkLeases =>
    cases e with
    | none => exact ⟨hs, List.Subset.refl _⟩
    | some claims =>
      exact ⟨{ hs with paired := restoreNetworkLeases_paired hs.paired }, List.Subset.refl _⟩
  | acquire vmID =>
    obtain ⟨hs', hms⟩ := sound_acquire hs vmID
    exact ⟨hs', by rw [Call.exec, hms]; exact List.Subset.refl _⟩
  | releaseLease vmID =>
    exact ⟨{ hs with paired := hs.paired.release vmID }, List.Subset.refl _⟩
  | _ => exact ⟨hs, List.Subset.refl _⟩

/-- Every call keeps the host sound, and keeps free what was free, if a manifest is written only
for an identity that is. -/
lemma exec_granted {c : Call} {e : c.Choice} (hw : Writes cfg i c) (hg : Granted cfg strict i h)
    (hok : allowed strict c e) :
    Granted cfg strict i (c.exec cfg h e).1 := by
  obtain ⟨hs, hf⟩ := hg
  have hsilent : Silent c → Granted cfg strict i (c.exec cfg h e).1 := by
    intro hc
    obtain ⟨hs', hms⟩ := exec_silent hc hs hok
    exact ⟨hs', fun m hm => hf m (hms hm)⟩
  cases c with
  | writeManifest m =>
    obtain ⟨rfl, hd⟩ := hw
    cases e with
    | kept => exact ⟨hs, hf⟩
    | unsynced | done => exact ⟨hs.publish hf hd, free_publish hf⟩
  | _ => exact hsilent trivial

/-! ## Transactions that have an identity -/

section Safe

variable {i : Identity} {α : Type}

def Keeps (cfg : Config) (strict : Bool) (p : Txn α) (h : Host) (Φ : Host → α → Prop) : Prop :=
  p.Safe (Call.exec cfg) (allowed strict) (Sound cfg strict) h Φ

variable {vmID : Bytes} {Φ : Host → α → Prop}

lemma keeps_ask {c : Call} {k : c.Reply → Txn α} (hw : Writes cfg i c) (hg : Granted cfg strict i h)
    (hk : ∀ h' r, Granted cfg strict i h' → Keeps cfg strict (k r) h' Φ) :
    Keeps cfg strict (ask c >>= k) h Φ :=
  ⟨hg.1, fun _ he => hk _ _ (exec_granted hw hg he)⟩

/-- A transaction that writes no manifest. -/
lemma keeps_of_silent {p : Txn α} (hp : p.Uses Silent) (hs : Sound cfg strict h) :
    Keeps cfg strict p h fun h' _ => Sound cfg strict h' :=
  Prog.safe_of_uses hp (fun _ hs => hs) (fun _ _ _ hc hs he => (exec_silent hc hs he).1) hs

lemma keeps_silent_bind {β : Type} {p : Txn β} {k : β → Txn α} (hp : p.Uses Silent)
    (hs : Sound cfg strict h) (hk : ∀ h' b, Sound cfg strict h' → Keeps cfg strict (k b) h' Φ) :
    Keeps cfg strict (p >>= k) h Φ :=
  Prog.Safe.bind ((keeps_of_silent hp hs).mono fun h' b hs' _ => hk h' b hs')

lemma uses_attempt (step : HostStep) : (attempt step).Uses Silent :=
  (neutral_attempt step).mono silent_of_neutral

lemma uses_whenever {b : Bool} {p : Txn Unit} (hp : p.Uses Silent) :
    (whenever b p).Uses Silent := by
  cases b with
  | false => trivial
  | true => exact hp

lemma keeps_pure {a : α} (hs : Sound cfg strict h) (hΦ : Φ h a) :
    Keeps cfg strict (pure a) h Φ :=
  ⟨hs, hΦ⟩

/-- The recovered process does not change the identity. -/
lemma keeps_resolveStartOutcome {m : Manifest} (hm : Fits cfg i m)
    (hg : Granted cfg strict i h) : Keeps cfg strict (resolveStartOutcome m) h
      fun h' r => Granted cfg strict i h' ∧ ∀ m', r = some m' → Fits cfg i m' := by
  unfold resolveStartOutcome
  split_ifs with hknown
  · exact keeps_pure hg.1 ⟨hg, fun m' hm' => Option.some.inj hm' ▸ hm⟩
  refine keeps_ask trivial hg fun h₁ outcome hg₁ => ?_
  have hnone : Keeps cfg strict (pure none) h₁
      fun h' r => Granted cfg strict i h' ∧ ∀ m', r = some m' → Fits cfg i m' :=
    keeps_pure hg₁.1 ⟨hg₁, nofun⟩
  rcases outcome with _ | _ | (_ | ⟨pid, starttime⟩) | _
  · exact hnone
  · exact keeps_pure hg₁.1 ⟨hg₁, fun m' hm' => Option.some.inj hm' ▸ hm⟩
  · exact hnone
  · dsimp only
    split_ifs with hbad
    · exact hnone
    · refine keeps_ask (show Fits cfg i _ from hm) hg₁ fun h₂ ok hg₂ => ?_
      refine keeps_pure hg₂.1 ⟨hg₂, fun m' hm' => ?_⟩
      split_ifs at hm' with hwritten
      cases Option.some.inj hm'
      exact hm
  · exact hnone

lemma uses_releaseHost (vmID : Bytes) : (releaseHost cfg vmID).Uses Silent := by
  refine ((neutral_releaseVMWhenDead _).mono silent_of_neutral).bind fun vmErr => ?_
  refine ⟨trivial, fun netOk => ⟨trivial, fun stageOk => ?_⟩⟩
  show Prog.Uses _ (if _ then _ else _)
  split
  · trivial
  refine ((neutral_chrootDebt vmErr).mono silent_of_neutral).bind fun debt => ?_
  split
  · trivial
  split
  · trivial
  refine ⟨trivial, fun removed => ?_⟩
  show Prog.Uses _ (if _ then _ else _)
  split
  · exact ⟨trivial, fun _ => trivial⟩
  · trivial

lemma keeps_readManifest {k : ManifestRead → Txn α} (hs : Sound cfg strict h)
    (hok : ∀ m ∈ h.manifests, Keeps cfg strict (k (.ok m)) h Φ)
    (hnone : Keeps cfg strict (k .notExist) h Φ) (hfailed : Keeps cfg strict (k .failed) h Φ) :
    Keeps cfg strict (ask (.readManifest vmID) >>= k) h Φ := by
  refine ⟨hs, fun readable _ => ?_⟩
  show Keeps cfg strict (k (h.readManifest vmID readable)) h Φ
  rw [Host.readManifest]
  split
  · exact hfailed
  · cases hm : manifestOf h.manifests vmID with
    | none => exact hnone
    | some m => exact hok m (manifestOf_some hm).1

lemma keeps_releaseHost (hs : Sound cfg strict h) (vmID : Bytes) :
    Keeps cfg strict (releaseHost cfg vmID) h fun _ _ => True :=
  (keeps_of_silent (uses_releaseHost vmID) hs).mono fun _ _ _ _ => trivial

lemma keeps_doRelease (hs : Sound cfg strict h) (vmID : Bytes) :
    Keeps cfg strict (doRelease cfg vmID) h fun _ _ => True := by
  refine keeps_readManifest hs (fun m hm => ?_) (keeps_releaseHost hs vmID)
    (keeps_pure hs trivial)
  obtain ⟨hg, hfits⟩ := Granted.of_mem hs hm
  refine Prog.Safe.bind ((keeps_resolveStartOutcome hfits hg).mono ?_)
  intro h' r _ hpost
  cases r with
  | none => exact keeps_pure hpost.1.1 trivial
  | some m' => exact keeps_releaseHost hpost.1.1 vmID

lemma keeps_doRollback (hs : Sound cfg strict h) (vmID : Bytes) :
    Keeps cfg strict (doRollback cfg vmID) h fun _ _ => True := by
  refine keeps_readManifest hs (fun m hm => ?_) (keeps_pure hs trivial) (keeps_pure hs trivial)
  obtain ⟨hg, hfits⟩ := Granted.of_mem hs hm
  refine Prog.Safe.bind ((keeps_resolveStartOutcome hfits hg).mono ?_)
  intro h₁ r _ hpost
  cases r with
  | none => exact keeps_pure hpost.1.1 trivial
  | some m' =>
    refine keeps_silent_bind (uses_whenever (uses_attempt _)) hpost.1.1 fun h₂ _ hs₂ => ?_
    refine keeps_silent_bind (uses_whenever ((uses_attempt _).bind fun _ => uses_attempt _)) hs₂
      fun h₃ _ hs₃ => ?_
    refine keeps_silent_bind (uses_attempt _) hs₃ fun h₄ _ hs₄ => ?_
    exact Prog.Safe.bind ((keeps_doRelease hs₄ vmID).mono fun _ _ hs' _ => keeps_pure hs' trivial)

/-! ### The launch -/

variable {m : Manifest}

lemma keeps_rollback (hs : Sound cfg strict h) (vmID : Bytes) (stage : Stage) :
    Keeps cfg strict (rollback cfg vmID stage) h fun _ _ => True :=
  Prog.Safe.bind ((keeps_doRollback hs vmID).mono fun _ _ hs' _ => keeps_pure hs' trivial)

lemma keeps_record {stage : Stage} {next : Txn (Except LaunchError Unit)} (hm : Fits cfg i m)
    (hg : Granted cfg strict i h)
    (hnext : ∀ h', Granted cfg strict i h' → Keeps cfg strict next h' fun _ _ => True) :
    Keeps cfg strict (record cfg m stage next) h fun _ _ => True := by
  refine keeps_ask hm hg fun h' ok hg' => ?_
  split
  · exact hnext h' hg'
  · exact keeps_rollback hg'.1 m.vmID stage

lemma keeps_launchAttach (hm : Fits cfg i m) (hg : Granted cfg strict i h) :
    Keeps cfg strict (launchAttach cfg m) h fun _ _ => True := by
  refine keeps_ask trivial hg fun h₁ ok hg₁ => ?_
  split
  · exact keeps_ask (show Fits cfg i _ from hm) hg₁ fun h₂ _ hg₂ => keeps_pure hg₂.1 trivial
  · exact keeps_rollback hg₁.1 m.vmID _

lemma keeps_launchRunner (hm : Fits cfg i m) (hg : Granted cfg strict i h) :
    Keeps cfg strict (launchRunner cfg m) h fun _ _ => True := by
  refine keeps_ask trivial hg fun h₁ instanceID hg₁ => ?_
  split
  · exact keeps_rollback hg₁.1 m.vmID _
  refine keeps_ask trivial hg₁ fun h₂ opened hg₂ => ?_
  split
  · exact keeps_rollback hg₂.1 m.vmID _
  refine keeps_ask trivial hg₂ fun h₃ spawned hg₃ => ?_
  rcases spawned with _ | ⟨pid, starttime⟩
  · exact keeps_rollback hg₃.1 m.vmID _
  · exact keeps_record (show Fits cfg i _ from hm) hg₃ fun h₄ hg₄ =>
      keeps_launchAttach (show Fits cfg i _ from hm) hg₄

lemma keeps_launchVMM (hm : Fits cfg i m) (hg : Granted cfg strict i h) :
    Keeps cfg strict (launchVMM cfg m) h fun _ _ => True := by
  refine keeps_ask trivial hg fun h₁ hashed hg₁ => ?_
  split
  · exact keeps_rollback hg₁.1 m.vmID _
  refine keeps_ask trivial hg₁ fun h₂ opID hg₂ => ?_
  refine keeps_record (show Fits cfg i _ from hm) hg₂ fun h₃ hg₃ => ?_
  refine keeps_ask trivial hg₃ fun h₄ reply hg₄ => ?_
  cases reply with
  | unknown => exact keeps_pure hg₄.1 trivial
  | refused =>
    refine keeps_ask (show Fits cfg i _ from hm) hg₄ fun h₅ ok hg₅ => ?_
    split
    · exact keeps_rollback hg₅.1 m.vmID _
    · exact keeps_pure hg₅.1 trivial
  | started pid starttime =>
    exact keeps_record (show Fits cfg i _ from hm) hg₄ fun h₅ hg₅ =>
      keeps_launchRunner (show Fits cfg i _ from hm) hg₅

lemma keeps_launchNetwork (hm : Fits cfg i m) (hg : Granted cfg strict i h) :
    Keeps cfg strict (launchNetwork cfg m) h fun _ _ => True := by
  refine keeps_ask trivial hg fun h₁ ok hg₁ => ?_
  split
  · exact keeps_record (show Fits cfg i _ from hm) hg₁ fun h₂ hg₂ =>
      keeps_launchVMM (show Fits cfg i _ from hm) hg₂
  · exact keeps_rollback hg₁.1 m.vmID _

lemma keeps_launchStage (hm : Fits cfg i m) (hg : Granted cfg strict i h) :
    Keeps cfg strict (launchStage cfg m) h fun _ _ => True := by
  refine keeps_ask trivial hg fun h₁ ok hg₁ => ?_
  split
  · exact keeps_record (show Fits cfg i _ from hm) hg₁ fun h₂ hg₂ =>
      keeps_launchNetwork (show Fits cfg i _ from hm) hg₂
  · exact keeps_rollback hg₁.1 m.vmID _

lemma keeps_launchReserved (hm : Fits cfg i m) (hg : Granted cfg strict i h) (fresh : Bool) :
    Keeps cfg strict (launchReserved cfg m fresh) h fun _ _ => True := by
  refine keeps_ask hm hg fun h₁ ok hg₁ => ?_
  split
  · exact keeps_launchStage hm hg₁
  · have hcleanup : (do
        let removed ← ask (.removeStateDir m.vmID)
        whenever removed (ask (.releaseLease m.vmID))).Uses Silent :=
      ⟨trivial, fun _ => uses_whenever ⟨trivial, fun _ => trivial⟩⟩
    exact keeps_silent_bind (uses_whenever hcleanup) hg₁.1 fun h₂ _ hs₂ => keeps_pure hs₂ trivial

/-- What the launch reads off the host makes the identity free: the slot is the VM's own or no
one's, and the subnet is the VM's in an allocator that knows those of all manifests. -/
lemma free_of_allocated (hs : Sound cfg strict h) {slot : Nat} {p : Prefix} {alloc : Allocator}
    (hslot : allocateSlot h.manifests vmID cfg.maxSlots = some slot)
    (hknown : ∀ m ∈ h.manifests, h.alloc.occupied m.cidr = some m.vmID)
    (hacq : h.alloc.acquire vmID = some (.ok p, alloc)) :
    Free h.manifests ⟨vmID, slot, p⟩ := by
  intro m hm hne
  constructor
  · rcases allocateSlot_some hslot with ⟨m', hm', rfl, rfl⟩ | hfree
    · exact (hs.apart m' hm' m hm hne).1
    · exact hfree m hm
  · rintro rfl
    -- the allocator gives the subnet to the VM, but it is the other VM's
    obtain ⟨-, howner, hcase⟩ := Allocator.acquire_ok hs.paired hacq
    rcases hcase with rfl | ⟨-, hfree⟩
    · exact hne (Option.some.inj ((hknown m hm).symm.trans howner))
    · exact nomatch hfree.symm.trans (hknown m hm)

lemma keeps_restoreNetworkLeases {k : Bool → Txn α} (hs : Sound cfg strict h)
    (hfail : ∀ h', Sound cfg strict h' → Keeps cfg strict (k false) h' Φ)
    (hok : ∀ h', Sound cfg strict h' →
      (∀ m ∈ h'.manifests, h'.alloc.occupied m.cidr = some m.vmID) →
      Keeps cfg strict (k true) h' Φ) :
    Keeps cfg strict (ask .restoreNetworkLeases >>= k) h Φ := by
  refine ⟨hs, fun claims _ => ?_⟩
  cases claims with
  | none => exact hfail h hs
  | some claims =>
    have hs' : Sound cfg strict (h.restoreNetworkLeases (some claims)).1 :=
      { hs with paired := restoreNetworkLeases_paired hs.paired }
    show Keeps cfg strict (k (h.restoreNetworkLeases (some claims)).2) _ Φ
    cases hres : (h.restoreNetworkLeases (some claims)).2 with
    | false => exact hfail _ hs'
    | true => exact hok _ hs' (restoreNetworkLeases_holds hres)

lemma keeps_allocateSlot {k : Option Nat → Txn α} (hs : Sound cfg strict h)
    (hnone : Keeps cfg strict (k none) h Φ)
    (hsome : ∀ slot, allocateSlot h.manifests vmID cfg.maxSlots = some slot →
      Keeps cfg strict (k (some slot)) h Φ) :
    Keeps cfg strict (ask (.allocateSlot vmID) >>= k) h Φ := by
  refine ⟨hs, fun readable _ => ?_⟩
  show Keeps cfg strict (k (h.allocateSlot vmID cfg.maxSlots readable)) h Φ
  rw [Host.allocateSlot]
  split
  · cases hslot : allocateSlot h.manifests vmID cfg.maxSlots with
    | none => exact hnone
    | some slot => exact hsome slot hslot
  · exact hnone

lemma keeps_acquire {k : Option Prefix → Txn α} (hs : Sound cfg strict h)
    (hnone : ∀ h', Sound cfg strict h' → Keeps cfg strict (k none) h' Φ)
    (hsome : ∀ p alloc, h.alloc.acquire vmID = some (.ok p, alloc) →
      Sound cfg strict { h with alloc := alloc } →
      Keeps cfg strict (k (some p)) { h with alloc := alloc } Φ) :
    Keeps cfg strict (ask (.acquire vmID) >>= k) h Φ := by
  refine ⟨hs, fun _ _ => ?_⟩
  have hs' := (sound_acquire hs vmID).1
  show Keeps cfg strict (k (h.acquire vmID).2) (h.acquire vmID).1 Φ
  rw [Host.acquire] at hs' ⊢
  cases hacq : h.alloc.acquire vmID with
  | none => exact hnone h hs
  | some out =>
    obtain ⟨res, alloc⟩ := out
    rw [hacq] at hs'
    cases res with
    | ok p => exact hsome p alloc hacq hs'
    | error err => exact hnone _ hs'

lemma keeps_look {c : Call} {k : c.Reply → Txn α} (hs : Sound cfg strict h)
    (hc : ∀ e, (c.exec cfg h e).1 = h) (hk : ∀ r, Keeps cfg strict (k r) h Φ) :
    Keeps cfg strict (ask c >>= k) h Φ := by
  refine ⟨hs, fun e _ => ?_⟩
  rw [hc e]
  exact hk _

/-- The calls of a launch from the slot to the subnet leave the manifests and the allocator alone,
so what was read stays true until the manifest is published. -/
lemma keeps_launchSubnet (hs : Sound cfg strict h) {bootID : Bytes} {slot : Nat} {fresh : Bool}
    (hknown : ∀ m ∈ h.manifests, h.alloc.occupied m.cidr = some m.vmID)
    (hslot : allocateSlot h.manifests vmID cfg.maxSlots = some slot) :
    Keeps cfg strict (launchSubnet cfg vmID bootID slot fresh) h fun _ _ => True := by
  refine keeps_look hs (fun _ => rfl) fun made => ?_
  split
  · exact keeps_pure hs trivial
  refine keeps_acquire hs (fun h₁ hs₁ => keeps_pure hs₁ trivial) fun p alloc hacq hs₁ => ?_
  exact keeps_launchReserved ⟨rfl, rfl, rfl⟩ ⟨hs₁, free_of_allocated hs hslot hknown hacq⟩ fresh

lemma keeps_launch (hs : Sound cfg strict h) (vmID specBootID : Bytes) :
    Keeps cfg strict (launch cfg vmID specBootID) h fun _ _ => True := by
  refine keeps_restoreNetworkLeases hs (fun h₁ hs₁ => keeps_pure hs₁ trivial)
    fun h₁ hs₁ hknown => ?_
  refine keeps_allocateSlot hs₁ (keeps_pure hs₁ trivial) fun slot hslot => ?_
  refine keeps_look hs₁ (fun _ => rfl) fun existing => ?_
  rw [chooseBootID]
  split
  · refine keeps_look hs₁ (fun _ => rfl) fun bootID => ?_
    cases bootID with
    | none => exact keeps_pure hs₁ trivial
    | some bootID => exact keeps_launchSubnet hs₁ hknown hslot
  · exact keeps_launchSubnet hs₁ hknown hslot

/-! ### Stopping and adopting -/

lemma uses_vmmProvenGone (m : Manifest) : (vmmProvenGone m).Uses Silent := by
  rw [vmmProvenGone]
  split_ifs
  · trivial
  · exact ⟨trivial, fun _ => trivial⟩
  · exact ⟨trivial, fun _ => trivial⟩

lemma uses_pollVMMGone (m : Manifest) (ticks : Nat) : (pollVMMGone m ticks).Uses Silent := by
  induction ticks with
  | zero => trivial
  | succ ticks ih =>
    refine ⟨trivial, fun more => ?_⟩
    show Prog.Uses _ (if _ then _ else _)
    split
    · refine (uses_vmmProvenGone m).bind fun gone => ?_
      split
      · trivial
      · exact ih
    · trivial

lemma uses_awaitVMMGone (m : Manifest) (ticks : Nat) : (awaitVMMGone m ticks).Uses Silent := by
  refine (uses_vmmProvenGone m).bind fun gone => ?_
  split
  · trivial
  · exact uses_pollVMMGone m ticks

lemma uses_signalVMM (m : Manifest) (forceImmediate : Bool) :
    (signalVMM cfg m forceImmediate).Uses Silent := by
  rw [signalVMM]
  split
  · exact uses_attempt _
  · refine (uses_attempt _).bind fun _ => ?_
    exact (uses_awaitVMMGone m _).bind fun gone => uses_whenever (uses_attempt _)

lemma uses_stopVMM (m : Manifest) (forceImmediate : Bool) :
    (stopVMM cfg m forceImmediate).Uses Silent := by
  refine ((neutral_requestShutdown m forceImmediate).mono silent_of_neutral).bind fun claimed => ?_
  refine Prog.Uses.bind ?_ fun graceful => ?_
  · rw [confirmShutdown]
    split
    · exact uses_vmmProvenGone m
    · trivial
  refine (uses_whenever (uses_signalVMM m forceImmediate)).bind fun _ => ?_
  refine (uses_awaitVMMGone m _).bind fun gone => ?_
  split
  · exact (neutral_finishStop cfg _).mono silent_of_neutral
  · trivial

lemma keeps_doStop (hs : Sound cfg strict h) (vmID : Bytes) (forceImmediate : Bool) :
    Keeps cfg strict (doStop cfg vmID forceImmediate) h fun _ _ => True := by
  refine keeps_readManifest hs (fun m hm => ?_) ?_ (keeps_pure hs trivial)
  · obtain ⟨hg, hfits⟩ := Granted.of_mem hs hm
    refine Prog.Safe.bind ((keeps_resolveStartOutcome hfits hg).mono ?_)
    intro h₁ r _ hpost
    cases r with
    | none => exact keeps_pure hpost.1.1 trivial
    | some m' =>
      exact (keeps_of_silent (uses_stopVMM m' forceImmediate) hpost.1.1).mono fun _ _ _ _ => trivial
  · have hp := (neutral_stopWithoutManifest cfg).mono silent_of_neutral
    exact (keeps_of_silent hp hs).mono fun _ _ _ _ => trivial

lemma keeps_respawnRunner (hm : Fits cfg i m) (hg : Granted cfg strict i h) :
    Keeps cfg strict (respawnRunner m) h fun _ _ => True := by
  refine keeps_ask trivial hg fun h₁ opened hg₁ => ?_
  split
  · exact keeps_pure hg₁.1 trivial
  refine keeps_ask trivial hg₁ fun h₂ spawned hg₂ => ?_
  rcases spawned with _ | ⟨pid, starttime⟩
  · exact keeps_pure hg₂.1 trivial
  · exact keeps_ask (show Fits cfg i _ from hm) hg₂ fun h₃ _ hg₃ => keeps_pure hg₃.1 trivial

lemma keeps_adoptRunner (hm : Fits cfg i m) (hg : Granted cfg strict i h) :
    Keeps cfg strict (adoptRunner m) h fun _ _ => True := by
  refine keeps_ask trivial hg fun h₁ state hg₁ => ?_
  refine keeps_ask trivial hg₁ fun h₂ alive hg₂ => ?_
  cases state with
  | none => exact keeps_respawnRunner hm hg₂
  | some s =>
    dsimp only
    split
    · exact keeps_pure hg₂.1 trivial
    · exact keeps_respawnRunner hm hg₂

lemma keeps_reconcileOne (hs : Sound cfg strict h) (vmID : Bytes) :
    Keeps cfg strict (reconcileOne vmID) h fun _ _ => True := by
  refine keeps_readManifest hs (fun m hm => ?_) (keeps_pure hs trivial) (keeps_pure hs trivial)
  obtain ⟨hg, hfits⟩ := Granted.of_mem hs hm
  refine Prog.Safe.bind ((keeps_resolveStartOutcome hfits hg).mono ?_)
  intro h₁ r _ hpost
  cases r with
  | none => exact keeps_pure hpost.1.1 trivial
  | some m' =>
    dsimp only
    split
    · exact keeps_pure hpost.1.1 trivial
    refine keeps_ask trivial hpost.1 fun h₂ stat hg₂ => ?_
    split
    · exact keeps_adoptRunner (hpost.2 m' rfl) hg₂
    · exact keeps_pure hg₂.1 trivial

/-! ## Whole runs -/

lemma keeps_ignore {p : Txn α} (hp : Keeps cfg strict p h fun _ _ => True) :
    Keeps cfg strict (ignore p) h fun _ _ => True :=
  Prog.Safe.bind (hp.mono fun _ _ hs _ => keeps_pure hs trivial)

lemma keeps_job (j : Job) (hs : Sound cfg strict h) :
    Keeps cfg strict (j.prog cfg) h fun _ _ => True := by
  cases j with
  | new =>
    refine keeps_ignore (keeps_of_silent (p := ask .restoreNetworkLeases) ?_ hs |>.mono ?_)
    · exact ⟨trivial, fun _ => trivial⟩
    · exact fun _ _ _ _ => trivial
  | launch vmID bootID => exact keeps_ignore (keeps_launch hs vmID bootID)
  | stop vmID forceImmediate => exact keeps_ignore (keeps_doStop hs vmID forceImmediate)
  | release vmID => exact keeps_ignore (keeps_doRelease hs vmID)
  | rollback vmID => exact keeps_doRollback hs vmID
  | reconcile vmID => exact keeps_ignore (keeps_reconcileOne hs vmID)

end Safe

lemma Sound.run {eps : List (Episode Call.Choice Job)}
    (hrun : run (Host.step cfg) (Host.initial cfg) eps = some h)
    (hmeets : Along (Host.step cfg) (EpisodeMeets (Call.exec cfg) (Job.prog cfg) (allowed strict))
      (Host.initial cfg) eps) : Sound cfg strict h :=
  episodes_invariant (fun j _ hs => keeps_job j hs) (fun _ hs => hs.restart) sound_initial hmeets
    hrun

/-- Slots that fit into the context id give different ones. -/
lemma cid_ne {base s s' : Nat} (hs : s < 2 ^ 32) (hs' : s' < 2 ^ 32) (hne : s ≠ s') :
    (base + s) % 2 ^ 32 ≠ (base + s') % 2 ^ 32 := by
  omega

/-- Manifests of different VMs differ in all they lease. -/
lemma Sound.pairwise (hs : Sound cfg strict h) : h.manifests.Pairwise fun m m' =>
    m.slot ≠ m'.slot ∧ m.cidr ≠ m'.cidr ∧ m.uid ≠ m'.uid ∧
      (m.slot < 2 ^ 32 → m'.slot < 2 ^ 32 → m.cid ≠ m'.cid) := by
  have howners : h.manifests.Pairwise fun m m' => m.vmID ≠ m'.vmID :=
    pairwise_map.1 hs.owners
  refine howners.imp_of_mem ?_
  intro m m' hm hm' hne
  obtain ⟨hslot, hcidr⟩ := hs.apart m' hm' m hm hne
  obtain ⟨huid, hcid⟩ := hs.derived m hm
  obtain ⟨huid', hcid'⟩ := hs.derived m' hm'
  refine ⟨hslot, hcidr, ?_, fun hlt hlt' => ?_⟩
  · rw [huid, huid']
    have : m.slot ≠ m'.slot := hslot
    omega
  · rw [hcid, hcid']
    exact cid_ne hlt hlt' hslot

lemma Sound.held_of_mem (hs : Sound cfg true h) (hm : m ∈ h.manifests) :
    h.held m.vmID = some m.identity := by
  rw [hs.held rfl]
  cases hfind : manifestOf h.manifests m.vmID with
  | none =>
    rw [manifestOf, List.find?_eq_none] at hfind
    exact absurd (decide_eq_true rfl) (hfind m hm)
  | some m' =>
    obtain ⟨hm', hid⟩ := manifestOf_some hfind
    rw [inj_on_of_nodup_map hs.owners hm' hm hid]
    rfl

lemma Sound.mem_of_held (hs : Sound cfg true h) {v : Bytes} (hi : h.held v = some i) :
    ∃ m ∈ h.manifests, m.vmID = v ∧ m.identity = i := by
  rw [hs.held rfl] at hi
  obtain ⟨m, hfind, hid⟩ := Option.map_eq_some_iff.1 hi
  obtain ⟨hm, hv⟩ := manifestOf_some hfind
  exact ⟨m, hm, hv, hid⟩

/-- **Host identities are not shared.**  After any sequence of transactions, with any steps
failing and the daemon crashing anywhere, two manifests on disk differ in slot, subnet, uid and
context id. If moreover no removal of a VM's directory was cut short after it took the manifest,
then what VMs hold, from the moment a manifest is visible until its removal has returned nil, is
never shared either: a slot or a subnet that a VM is given was released before. -/
theorem identities_exclusive (cfg : Config) {eps : List (Episode Call.Choice Job)} {h : Host}
    (hrun : run (Host.step cfg) (Host.initial cfg) eps = some h) : (h.manifests.Pairwise fun m m' =>
      m.slot ≠ m'.slot ∧ m.cidr ≠ m'.cidr ∧ m.uid ≠ m'.uid ∧
        (m.slot < 2 ^ 32 → m'.slot < 2 ^ 32 → m.cid ≠ m'.cid)) ∧
    (Along (Host.step cfg) (EpisodeMeets (Call.exec cfg) (Job.prog cfg) notCut)
        (Host.initial cfg) eps →
      (∀ m ∈ h.manifests, h.held m.vmID = some m.identity) ∧
      ∀ v w i j, v ≠ w → h.held v = some i → h.held w = some j →
        i.slot ≠ j.slot ∧ i.cidr ≠ j.cidr) := by
  constructor
  · have hs : Sound cfg false h := by
      refine Sound.run hrun (along_of_forall (fun _ _ => ?_) _ eps)
      exact Prog.meets_of_forall _ fun _ _ _ => trivial
    exact hs.pairwise
  · intro hmeets
    have hs : Sound cfg true h := Sound.run hrun hmeets
    refine ⟨fun m hm => hs.held_of_mem hm, ?_⟩
    intro v w i j hne hi hj
    obtain ⟨m, hm, rfl, rfl⟩ := hs.mem_of_held hi
    obtain ⟨m', hm', rfl, rfl⟩ := hs.mem_of_held hj
    exact hs.apart m' hm' m hm hne

/-! ### Two runs -/

/-- Every step works. -/
def fine : Answer Call.Choice
  | .restoreNetworkLeases => some []
  | .allocateSlot _ => true
  | .acquire _ => ()
  | .releaseLease _ => ()
  | .readManifest _ => true
  | .writeManifest _ => .done
  | .removeStateDir _ => .done
  | .newUUID => some [1]
  | .newOpID => [1]
  | .host _ => true
  | .startVM _ => .started 7 [55]
  | .spawnRunner => some (8, [56])
  | .queryOperation _ => none
  | .releaseVM => .ok
  | .statChroot => .notExist
  | .runnerAlive => true
  | .readRunnerState => none
  | .shutdownGuest => .accepted
  | .pollRunnerPhase => .vmmExited
  | .statProc _ => .notExist
  | .readProcStat _ => .notExist
  | .tick => true

/-- The removal of a directory takes the manifest and then fails. -/
def cutting : Answer Call.Choice
  | .removeStateDir _ => .cut
  | c => fine c

/-- Two subnets and two slots. -/
def demoConfig : Config where
  jailUIDBase := 20000
  jailGID := 500
  maxSlots := 2
  cidBase := 3
  pools := [prefix30 0, prefix30 4]
  termTicks := 1
  proofTicks := 1
  releaseRetries := 1

/-- A transaction that works, up to a crash after so many calls. -/
def works (job : Job) (calls : Nat) : Episode Call.Choice Job := ⟨job, List.replicate calls fine⟩

/-- Two VMs are launched, the daemon crashing in the middle of the second launch; one is released,
and a third takes its place. -/
def demoEpisodes : List (Episode Call.Choice Job) :=
  [works (.launch [97] []) 40, works (.launch [98] []) 9, works .new 40,
    works (.launch [98] []) 40, works (.stop [97] false) 40, works (.release [97]) 40,
    works (.launch [99] []) 40]

lemma works_meets {job : Job} {calls : Nat} :
    EpisodeMeets (Call.exec cfg) (Job.prog cfg) notCut h (works job calls) := by
  refine Prog.meets_of_forall _ fun e he c => ?_
  rw [eq_of_mem_replicate he]
  cases c with
  | removeStateDir vmID => exact nofun
  | _ => trivial

theorem identities_exclusive_demo : ∃ h,
    run (Host.step demoConfig) (Host.initial demoConfig) demoEpisodes = some h ∧
    h.manifests.map Manifest.slot = [1, 0] ∧
    ∀ v w i j, v ≠ w → h.held v = some i → h.held w = some j →
      i.slot ≠ j.slot ∧ i.cidr ≠ j.cidr := by
  refine ⟨_, yields (by decide +kernel), by decide +kernel,
    ((identities_exclusive demoConfig (yields _)).2 ?_).2⟩
  exact ⟨works_meets, fun _ _ => ⟨works_meets, fun _ _ => ⟨works_meets, fun _ _ => ⟨works_meets,
    fun _ _ => ⟨works_meets, fun _ _ => ⟨works_meets, fun _ _ => ⟨works_meets,
    fun _ _ => trivial⟩⟩⟩⟩⟩⟩⟩

/-- The release of a VM removes its manifest and then fails, and says so. The next launch gives
its slot, and with it the uid and the context id, to another VM. -/
theorem slot_given_without_release : ∃ h,
    run (Host.step demoConfig) (Host.initial demoConfig)
      [works (.launch [97] []) 40, ⟨.release [97], List.replicate 40 cutting⟩,
        works (.launch [98] []) 40] = some h ∧
    (h.held [97]).map Identity.slot = some 0 ∧ (h.held [98]).map Identity.slot = some 0 := by
  decide +kernel

end Observatory.Jailer
