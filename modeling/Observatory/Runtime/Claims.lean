/-
# Claims on the life of a VM

Work on a VM claims it first. Any number of foreground operations share a claim, which counts
them; a background retry of a cleanup has a claim of its own and shares it with nobody. An
operation that finds a retry cancels it, waits for its channel to be closed, and looks again.

A claim is an object: who holds it keeps a reference to it, and the map of claims is a second
one. Each passage under the lock is one step here.
-/
import Observatory.Lib.Bytes
import Observatory.Lib.Machine
import Mathlib.Logic.Function.Basic

namespace Observatory.Runtime.Claims

open Lib Function List

/-- A claim object. -/
structure LifecycleClaim where
  users : Int := 0
  /-- The channel of a retry, and whether it is closed; foreground claims have none. -/
  retryDone : Option Bool := none
  cancelled : Bool := false

/-- Who asked for a claim, and how far they came. -/
inductive Caller where
  /-- About to take the lock. -/
  | looking (vmID : Bytes)
  /-- Waits for the channel of a claim. -/
  | waiting (vmID : Bytes) (claim : Nat)
  | foreground (vmID : Bytes) (claim : Nat)
  | retry (vmID : Bytes) (claim : Nat)
  | done

structure Cleanup where
  claims : Bytes → Option Nat
  objects : Nat → LifecycleClaim
  /-- The next object to be made. -/
  next : Nat
  callers : List Caller

namespace Cleanup

/-- Nobody has asked for anything. -/
def idle : Cleanup := ⟨fun _ => none, fun _ => {}, 0, []⟩

/-- Enter a new object under a VM. -/
def enter (s : Cleanup) (vmID : Bytes) (claim : LifecycleClaim) : Cleanup :=
  { s with
    claims := update s.claims vmID (some s.next)
    objects := update s.objects s.next claim
    next := s.next + 1 }

/-- One passage of `claimLifecycle` through its loop. -/
def claimLifecycle (s : Cleanup) (i : Nat) (vmID : Bytes) : Cleanup :=
  let s := if s.claims vmID = none then s.enter vmID {} else s
  match s.claims vmID with
  | none => s
  | some ref =>
    let claim := s.objects ref
    match claim.retryDone with
    | none =>
      { s with
        objects := update s.objects ref { claim with users := claim.users + 1 }
        callers := s.callers.set i (.foreground vmID ref) }
    | some _ =>
      { s with
        objects := update s.objects ref { claim with cancelled := true }
        callers := s.callers.set i (.waiting vmID ref) }

def releaseLifecycle (s : Cleanup) (i : Nat) (vmID : Bytes) (ref : Nat) : Cleanup :=
  let claim := s.objects ref
  { s with
    claims := if claim.users - 1 = 0 then update s.claims vmID none else s.claims
    objects := update s.objects ref { claim with users := claim.users - 1 }
    callers := s.callers.set i .done }

def claimCleanup (s : Cleanup) (vmID : Bytes) : Cleanup :=
  if s.claims vmID = none then
    { s.enter vmID { retryDone := some false } with
      callers := s.callers ++ [.retry vmID s.next] }
  else s

def releaseCleanup (s : Cleanup) (i : Nat) (vmID : Bytes) (ref : Nat) : Cleanup :=
  { s with
    claims := update s.claims vmID none
    objects := update s.objects ref
      { s.objects ref with retryDone := some true, cancelled := true }
    callers := s.callers.set i .done }

end Cleanup

inductive Event where
  /-- A foreground operation comes up. -/
  | operation (vmID : Bytes)
  | retry (vmID : Bytes)
  /-- A caller takes the lock to claim its VM. -/
  | claim (i : Nat)
  /-- A waiter finds the channel closed. -/
  | wake (i : Nat)
  /-- The context of a waiter ends. -/
  | giveUp (i : Nat)
  | release (i : Nat)

def step (s : Cleanup) : Event → Option Cleanup
  | .operation vmID => some { s with callers := s.callers ++ [.looking vmID] }
  | .retry vmID => some (s.claimCleanup vmID)
  | .claim i =>
    match s.callers[i]? with
    | some (.looking vmID) => some (s.claimLifecycle i vmID)
    | _ => none
  | .wake i =>
    match s.callers[i]? with
    | some (.waiting vmID ref) =>
      if (s.objects ref).retryDone = some true then
        some { s with callers := s.callers.set i (.looking vmID) }
      else none
    | _ => none
  | .giveUp i =>
    match s.callers[i]? with
    | some (.waiting _ _) => some { s with callers := s.callers.set i .done }
    | _ => none
  | .release i =>
    match s.callers[i]? with
    | some (.foreground vmID ref) => some (s.releaseLifecycle i vmID ref)
    | some (.retry vmID ref) => some (s.releaseCleanup i vmID ref)
    | _ => none

/-! ## Holders -/

def Caller.isForeground (vmID : Bytes) : Caller → Bool
  | .foreground v _ => v = vmID
  | _ => false

def Caller.isRetry (vmID : Bytes) : Caller → Bool
  | .retry v _ => v = vmID
  | _ => false

namespace Cleanup

def foregrounds (s : Cleanup) (vmID : Bytes) : Nat := s.callers.countP (Caller.isForeground vmID)

def retries (s : Cleanup) (vmID : Bytes) : Nat := s.callers.countP (Caller.isRetry vmID)

end Cleanup

lemma countP_set_add {α : Type} {p : α → Bool} {l : List α} {i : Nat} {x : α} (y : α)
    (h : l[i]? = some x) : (l.set i y).countP p + (p x).toNat = l.countP p + (p y).toNat := by
  obtain ⟨hi, rfl⟩ := List.getElem?_eq_some_iff.1 h
  have hle : (if p l[i] = true then 1 else 0) ≤ l.countP p := by
    split
    · next hx => exact one_le_countP_iff.2 ⟨_, getElem_mem hi, hx⟩
    · exact Nat.zero_le _
  rw [countP_set hi]
  generalize l.countP p = n at hle ⊢
  cases hx : p l[i] <;> cases hy : p y <;> simp only [hx, Bool.toNat] at hle ⊢ <;> grind

/-! ## What is known of one VM -/

def Fits (s : Cleanup) (vmID : Bytes) (claim : LifecycleClaim) : Prop :=
  (claim.retryDone = none ∧ claim.users = s.foregrounds vmID ∧ 0 < s.foregrounds vmID ∧
      s.retries vmID = 0) ∨
    (claim.retryDone = some false ∧ s.foregrounds vmID = 0 ∧ s.retries vmID = 1)

structure Accounted (s : Cleanup) (vmID : Bytes) : Prop where
  free : s.claims vmID = none → s.foregrounds vmID = 0 ∧ s.retries vmID = 0
  held : ∀ ref, s.claims vmID = some ref → ref < s.next ∧ Fits s vmID (s.objects ref)
  foreground : ∀ ref, .foreground vmID ref ∈ s.callers → s.claims vmID = some ref
  retry : ∀ ref, .retry vmID ref ∈ s.callers → s.claims vmID = some ref

/-- Every VM is accounted for, and no object is the claim of two. -/
structure Inv (s : Cleanup) : Prop where
  accounted : ∀ vmID, Accounted s vmID
  apart : ∀ v w ref, s.claims v = some ref → s.claims w = some ref → v = w

lemma inv_idle : Inv Cleanup.idle :=
  ⟨fun _ => ⟨fun _ => ⟨rfl, rfl⟩, nofun, nofun, nofun⟩, nofun⟩

variable {s s' : Cleanup} {v vmID : Bytes} {i ref : Nat}

lemma Accounted.frame (h : Accounted s vmID) (hclaims : s'.claims vmID = s.claims vmID)
    (hobjects : ∀ ref, s.claims vmID = some ref → s'.objects ref = s.objects ref)
    (hnext : s.next ≤ s'.next)
    (hforeground : ∀ ref, .foreground vmID ref ∈ s'.callers → .foreground vmID ref ∈ s.callers)
    (hretry : ∀ ref, .retry vmID ref ∈ s'.callers → .retry vmID ref ∈ s.callers)
    (hf : s'.foregrounds vmID = s.foregrounds vmID) (hr : s'.retries vmID = s.retries vmID) :
    Accounted s' vmID where
  free hnone := by
    rw [hf, hr]
    exact h.free (hclaims ▸ hnone)
  held ref href := by
    have hold := hclaims ▸ href
    obtain ⟨hlt, hfits⟩ := h.held ref hold
    refine ⟨by omega, ?_⟩
    rw [hobjects ref hold, Fits, hf, hr]
    exact hfits
  foreground ref hmem := hclaims.trans (h.foreground ref (hforeground ref hmem))
  retry ref hmem := hclaims.trans (h.retry ref (hretry ref hmem))

lemma accounted_of_held (hclaims : s.claims v = some ref) (hlt : ref < s.next)
    (hfits : Fits s v (s.objects ref))
    (hcallers : ∀ r, .foreground v r ∈ s.callers ∨ .retry v r ∈ s.callers → r = ref) :
    Accounted s v where
  free hnone := absurd (hclaims.symm.trans hnone) (by simp)
  held r hr := Option.some.inj (hclaims.symm.trans hr) ▸ ⟨hlt, hfits⟩
  foreground r hmem := by rw [hcallers r (.inl hmem), hclaims]
  retry r hmem := by rw [hcallers r (.inr hmem), hclaims]

/-! ## Replacing a caller -/

section set

variable {x y : Caller}

lemma foregrounds_set (vmID : Bytes) (hx : s.callers[i]? = some x)
    (hcallers : s'.callers = s.callers.set i y) :
    s'.foregrounds vmID + (x.isForeground vmID).toNat =
      s.foregrounds vmID + (y.isForeground vmID).toNat := by
  rw [Cleanup.foregrounds, hcallers]
  exact countP_set_add y hx

lemma retries_set (vmID : Bytes) (hx : s.callers[i]? = some x)
    (hcallers : s'.callers = s.callers.set i y) :
    s'.retries vmID + (x.isRetry vmID).toNat = s.retries vmID + (y.isRetry vmID).toNat := by
  rw [Cleanup.retries, hcallers]
  exact countP_set_add y hx

lemma mem_callers_set {z : Caller} (hcallers : s'.callers = s.callers.set i y)
    (h : z ∈ s'.callers) : z ∈ s.callers ∨ z = y :=
  mem_or_eq_of_mem_set (hcallers ▸ h)

lemma Accounted.ref_of_set (h : Accounted s v) (hcallers : s'.callers = s.callers.set i y)
    (hold : ∀ r, s.claims v = some r → r = ref)
    (hy : ∀ r, y = .foreground v r ∨ y = .retry v r → r = ref) :
    ∀ r, .foreground v r ∈ s'.callers ∨ .retry v r ∈ s'.callers → r = ref := by
  rintro r (hmem | hmem) <;> rcases mem_callers_set hcallers hmem with hmem | heq
  · exact hold r (h.foreground r hmem)
  · exact hy r (.inl heq.symm)
  · exact hold r (h.retry r hmem)
  · exact hy r (.inr heq.symm)

lemma Accounted.set (h : Accounted s vmID) (hx : s.callers[i]? = some x)
    (hcallers : s'.callers = s.callers.set i y) (hxf : x.isForeground vmID = false)
    (hyf : y.isForeground vmID = false) (hxr : x.isRetry vmID = false)
    (hyr : y.isRetry vmID = false) (hclaims : s'.claims vmID = s.claims vmID)
    (hobjects : ∀ ref, s.claims vmID = some ref → s'.objects ref = s.objects ref)
    (hnext : s.next ≤ s'.next) : Accounted s' vmID := by
  refine h.frame hclaims hobjects hnext (fun ref hmem => ?_) (fun ref hmem => ?_) ?_ ?_
  · rcases mem_callers_set hcallers hmem with hmem | rfl
    · exact hmem
    · simp [Caller.isForeground] at hyf
  · rcases mem_callers_set hcallers hmem with hmem | rfl
    · exact hmem
    · simp [Caller.isRetry] at hyr
  · have hcount := foregrounds_set vmID hx hcallers
    simpa [hxf, hyf] using hcount
  · have hcount := retries_set vmID hx hcallers
    simpa [hxr, hyr] using hcount

end set

/-! ## Each step -/

lemma Inv.operation (h : Inv s) (vmID : Bytes) :
    Inv { s with callers := s.callers ++ [.looking vmID] } := by
  refine ⟨fun w => (h.accounted w).frame rfl (fun _ _ => rfl) le_rfl ?_ ?_ ?_ ?_, h.apart⟩
  · intro ref hmem
    simpa using hmem
  · intro ref hmem
    simpa using hmem
  · simp [Cleanup.foregrounds, Caller.isForeground]
  · simp [Cleanup.retries, Caller.isRetry]

/-- A caller that holds nothing goes on to hold nothing. -/
lemma Inv.pass (h : Inv s) {x y : Caller} (hx : s.callers[i]? = some x)
    (hxf : ∀ w, x.isForeground w = false) (hyf : ∀ w, y.isForeground w = false)
    (hxr : ∀ w, x.isRetry w = false) (hyr : ∀ w, y.isRetry w = false) :
    Inv { s with callers := s.callers.set i y } :=
  ⟨fun w => (h.accounted w).set hx rfl (hxf w) (hyf w) (hxr w) (hyr w) rfl (fun _ _ => rfl) le_rfl,
    h.apart⟩

lemma Inv.other (h : Inv s) {w : Bytes} {c : LifecycleClaim} (hv : s.claims v = some ref)
    (hw : w ≠ v) {r : Nat} (hr : s.claims w = some r) : update s.objects ref c r = s.objects r := by
  refine update_of_ne ?_ _ _
  rintro rfl
  exact hw (h.apart w v r hr hv)

lemma Inv.fresh (h : Inv s) {c : LifecycleClaim} {w : Bytes} {r : Nat} (hr : s.claims w = some r) :
    update s.objects s.next c r = s.objects r := by
  have hlt := ((h.accounted w).held r hr).1
  exact update_of_ne (by omega) _ _

lemma Inv.apart_enter (h : Inv s) {w w' : Bytes} {r : Nat}
    (hw : update s.claims v (some s.next) w = some r)
    (hw' : update s.claims v (some s.next) w' = some r) : w = w' := by
  have hkey : ∀ u, update s.claims v (some s.next) u = some r →
      u = v ∧ r = s.next ∨ s.claims u = some r ∧ r < s.next := by
    intro u hu
    by_cases huv : u = v
    · subst huv
      rw [update_self] at hu
      exact .inl ⟨rfl, (Option.some.inj hu).symm⟩
    · rw [update_of_ne huv] at hu
      exact .inr ⟨hu, ((h.accounted u).held r hu).1⟩
  rcases hkey w hw with ⟨rfl, hr⟩ | ⟨hw, hr⟩ <;> rcases hkey w' hw' with ⟨rfl, hr'⟩ | ⟨hw', hr'⟩
  · rfl
  · omega
  · omega
  · exact h.apart w w' r hw hw'

/-! ### A foreground claim -/

lemma claimLifecycle_new (h : s.claims v = none) :
    s.claimLifecycle i v =
      { s.enter v { users := 1 } with callers := s.callers.set i (.foreground v s.next) } := by
  simp [Cleanup.claimLifecycle, h, Cleanup.enter, update_idem]

lemma claimLifecycle_shared (h : s.claims v = some ref) (hd : (s.objects ref).retryDone = none) :
    s.claimLifecycle i v =
      { s with
        objects := update s.objects ref
          { s.objects ref with users := (s.objects ref).users + 1 }
        callers := s.callers.set i (.foreground v ref) } := by
  simp [Cleanup.claimLifecycle, h, hd]

lemma claimLifecycle_wait {closed : Bool} (h : s.claims v = some ref)
    (hd : (s.objects ref).retryDone = some closed) :
    s.claimLifecycle i v =
      { s with
        objects := update s.objects ref { s.objects ref with cancelled := true }
        callers := s.callers.set i (.waiting v ref) } := by
  simp [Cleanup.claimLifecycle, h, hd]

@[simp] lemma isForeground_foreground (v w : Bytes) (r : Nat) :
    (Caller.foreground v r).isForeground w = decide (v = w) := rfl

@[simp] lemma isRetry_retry (v w : Bytes) (r : Nat) :
    (Caller.retry v r).isRetry w = decide (v = w) := rfl

/-- One more operation holds the VM, under an entry that is new or that others share. -/
lemma Inv.hold (h : Inv s) (hx : s.callers[i]? = some (.looking v))
    (hcallers : s'.callers = s.callers.set i (.foreground v ref))
    (hclaims : s'.claims = update s.claims v (some ref)) (hold : ∀ r, s.claims v = some r → r = ref)
    (hobjects : ∀ w r, w ≠ v → s.claims w = some r → s'.objects r = s.objects r)
    (hnext : s.next ≤ s'.next) (hlt : ref < s'.next) (hretries : s.retries v = 0)
    (hdone : (s'.objects ref).retryDone = none)
    (husers : (s'.objects ref).users = s.foregrounds v + 1) (w : Bytes) : Accounted s' w := by
  by_cases hw : w = v
  · subst hw
    have hf' := foregrounds_set w hx hcallers
    have hr' := retries_set w hx hcallers
    simp only [Caller.isForeground, Caller.isRetry, decide_true, Bool.toNat_true,
      Bool.toNat_false, Nat.add_zero] at hf' hr'
    refine accounted_of_held (by rw [hclaims, update_self]) hlt
      (.inl ⟨hdone, by omega, by omega, by omega⟩) ?_
    refine (h.accounted w).ref_of_set hcallers hold fun r hr => ?_
    simpa [eq_comm] using hr
  · refine (h.accounted w).set hx hcallers rfl (by simp [Ne.symm hw]) rfl rfl ?_ (hobjects w · hw)
      hnext
    rw [hclaims, update_of_ne hw]

lemma Inv.claim_new (h : Inv s) (hx : s.callers[i]? = some (.looking v))
    (hv : s.claims v = none) : Inv (s.claimLifecycle i v) := by
  obtain ⟨hf, hr⟩ := (h.accounted v).free hv
  rw [claimLifecycle_new hv]
  refine ⟨h.hold hx rfl rfl (fun r hr => by simp [hv] at hr) (fun w r _ hr => h.fresh hr)
    (Nat.le_succ _) (Nat.lt_succ_self _) hr ?_ ?_, fun w w' r hw hw' => h.apart_enter hw hw'⟩
  · simp [Cleanup.enter]
  · simp [Cleanup.enter, hf]

lemma Inv.claim_shared (h : Inv s) (hx : s.callers[i]? = some (.looking v))
    (hv : s.claims v = some ref) (hd : (s.objects ref).retryDone = none) :
    Inv (s.claimLifecycle i v) := by
  obtain ⟨hlt, ⟨-, husers, -, hretries⟩ | ⟨hretry, -, -⟩⟩ := (h.accounted v).held ref hv
  · rw [claimLifecycle_shared hv hd]
    refine ⟨h.hold hx rfl (by rw [← hv, update_eq_self])
      (fun r hr => Option.some.inj (hr.symm.trans hv)) (fun w r hw hr => h.other hv hw hr) le_rfl
      hlt hretries ?_ ?_, h.apart⟩
    · simpa using hd
    · simp [husers]
  · cases hd.symm.trans hretry

lemma Inv.claim_wait (h : Inv s) {closed : Bool} (hx : s.callers[i]? = some (.looking v))
    (hv : s.claims v = some ref) (hd : (s.objects ref).retryDone = some closed) :
    Inv (s.claimLifecycle i v) := by
  rw [claimLifecycle_wait hv hd]
  have hpass := h.pass (y := .waiting v ref) hx (fun _ => rfl) (fun _ => rfl) (fun _ => rfl)
    (fun _ => rfl)
  refine ⟨fun w => ?_, h.apart⟩
  have hw := hpass.accounted w
  refine ⟨hw.free, fun r hr => ?_, hw.foreground, hw.retry⟩
  obtain ⟨hlt, hfits⟩ := hw.held r hr
  refine ⟨hlt, ?_⟩
  -- being cancelled changes nothing of what the claim accounts for
  have hsame : (update s.objects ref { s.objects ref with cancelled := true } r).retryDone =
      (s.objects r).retryDone ∧
      (update s.objects ref { s.objects ref with cancelled := true } r).users =
        (s.objects r).users := by
    by_cases hr : r = ref
    · subst hr
      simp
    · simp [update_of_ne hr]
  rw [Fits, hsame.1, hsame.2]
  exact hfits

/-! ### Releases -/

lemma foregrounds_pos (h : .foreground v ref ∈ s.callers) : 0 < s.foregrounds v :=
  countP_pos_iff.2 ⟨_, h, by simp⟩

lemma retries_pos (h : .retry v ref ∈ s.callers) : 0 < s.retries v :=
  countP_pos_iff.2 ⟨_, h, by simp⟩

lemma apart_update_none (h : Inv s) {w w' : Bytes} {r : Nat}
    (hw : update s.claims v none w = some r) (hw' : update s.claims v none w' = some r) :
    w = w' := by
  have hold : ∀ u, update s.claims v none u = some r → s.claims u = some r := by
    intro u hu
    by_cases huv : u = v
    · subst huv
      simp at hu
    · rwa [update_of_ne huv] at hu
  exact h.apart w w' r (hold w hw) (hold w' hw')

/-- A VM that nobody holds any longer, and whose entry is gone. -/
lemma accounted_of_free (hclaims : s.claims v = none) (hf : s.foregrounds v = 0)
    (hr : s.retries v = 0) : Accounted s v where
  free _ := ⟨hf, hr⟩
  held ref href := absurd (hclaims.symm.trans href) (by simp)
  foreground ref hmem := absurd (foregrounds_pos hmem) (by omega)
  retry ref hmem := absurd (retries_pos hmem) (by omega)

attribute [local simp] Cleanup.releaseLifecycle

lemma Inv.releaseLifecycle (h : Inv s) (hx : s.callers[i]? = some (.foreground v ref)) :
    Inv (s.releaseLifecycle i v ref) := by
  have hmem := mem_of_getElem? hx
  have hv := (h.accounted v).foreground ref hmem
  have hpos := foregrounds_pos hmem
  obtain ⟨hlt, hfits⟩ := (h.accounted v).held ref hv
  obtain ⟨hdone, husers, -, hretries⟩ :
      (s.objects ref).retryDone = none ∧ (s.objects ref).users = s.foregrounds v ∧
        0 < s.foregrounds v ∧ s.retries v = 0 := by
    rcases hfits with hfits | ⟨-, hzero, -⟩
    · exact hfits
    · omega
  have hcallers : (s.releaseLifecycle i v ref).callers = s.callers.set i .done := rfl
  have hf' := foregrounds_set v hx hcallers
  have hr' := retries_set v hx hcallers
  simp only [Caller.isForeground, Caller.isRetry, decide_true, Bool.toNat_true,
    Bool.toNat_false, Nat.add_zero] at hf' hr'
  have hother : ∀ w, w ≠ v → Accounted (s.releaseLifecycle i v ref) w := by
    intro w hw
    refine (h.accounted w).set hx rfl (by simp [Ne.symm hw]) rfl rfl rfl ?_ ?_ le_rfl
    · simp only [Cleanup.releaseLifecycle]
      split
      · exact update_of_ne hw _ _
      · rfl
    · intro r hr
      exact h.other hv hw hr
  by_cases hlast : (s.objects ref).users - 1 = 0
  · -- the last one out takes the entry along
    have hclaims : (s.releaseLifecycle i v ref).claims = update s.claims v none := by
      simp [hlast]
    refine ⟨fun w => ?_, fun w w' r hw hw' => ?_⟩
    · by_cases hw : w = v
      · subst hw
        exact accounted_of_free (by rw [hclaims, update_self]) (by omega) (by omega)
      · exact hother w hw
    · rw [hclaims] at hw hw'
      exact apart_update_none h hw hw'
  · have hclaims : (s.releaseLifecycle i v ref).claims = s.claims := by
      simp [hlast]
    refine ⟨fun w => ?_, fun w w' r hw hw' => h.apart w w' r (hclaims ▸ hw) (hclaims ▸ hw')⟩
    by_cases hw : w = v
    · subst hw
      have hobject : ((s.releaseLifecycle i w ref).objects ref).users =
          (s.objects ref).users - 1 := by
        simp
      refine accounted_of_held (hclaims ▸ hv) hlt
        (.inl ⟨by simpa using hdone, by omega, by omega, by omega⟩) ?_
      exact (h.accounted w).ref_of_set hcallers
        (fun r hr => Option.some.inj (hr.symm.trans hv)) (by simp)
    · exact hother w hw

lemma Inv.releaseCleanup (h : Inv s) (hx : s.callers[i]? = some (.retry v ref)) :
    Inv (s.releaseCleanup i v ref) := by
  have hmem := mem_of_getElem? hx
  have hv := (h.accounted v).retry ref hmem
  have hpos := retries_pos hmem
  obtain ⟨-, hfits⟩ := (h.accounted v).held ref hv
  have hcallers : (s.releaseCleanup i v ref).callers = s.callers.set i .done := rfl
  have hf' := foregrounds_set v hx hcallers
  have hr' := retries_set v hx hcallers
  simp only [Caller.isForeground, Caller.isRetry, decide_true, Bool.toNat_true,
    Bool.toNat_false, Nat.add_zero] at hf' hr'
  refine ⟨fun w => ?_, fun w w' r hw hw' => apart_update_none h hw hw'⟩
  by_cases hw : w = v
  · subst hw
    rcases hfits with ⟨-, -, -, hzero⟩ | ⟨-, hzero, hone⟩
    · omega
    · refine accounted_of_free ?_ (by omega) (by omega)
      simp [Cleanup.releaseCleanup]
  · refine (h.accounted w).set hx rfl rfl rfl (by simp [Ne.symm hw]) rfl ?_ ?_ le_rfl
    · exact update_of_ne hw _ _
    · intro r hr
      exact h.other hv hw hr

/-! ### The claim of a retry -/

lemma Inv.claimCleanup (h : Inv s) (vmID : Bytes) : Inv (s.claimCleanup vmID) := by
  unfold Cleanup.claimCleanup
  split
  · next hv =>
    refine ⟨fun w => ?_, fun w w' r hw hw' => h.apart_enter hw hw'⟩
    by_cases hw : w = vmID
    · subst hw
      obtain ⟨hf, hr⟩ := (h.accounted w).free hv
      refine accounted_of_held (update_self ..) (Nat.lt_succ_self _) (.inr ⟨?_, ?_, ?_⟩) ?_
      · simp [Cleanup.enter]
      · simpa [Cleanup.foregrounds, Caller.isForeground] using hf
      · simpa [Cleanup.retries, Caller.isRetry] using hr
      · rintro r (hmem | hmem) <;> rcases mem_append.1 hmem with hmem | hmem
        · exact absurd ((h.accounted w).foreground r hmem) (by simp [hv])
        · exact absurd hmem (by simp)
        · exact absurd ((h.accounted w).retry r hmem) (by simp [hv])
        · exact (Caller.retry.inj (mem_singleton.1 hmem)).2
    · refine (h.accounted w).frame (update_of_ne hw _ _) (fun r hr => h.fresh hr) (Nat.le_succ _)
        ?_ ?_ ?_ ?_
      · intro ref hmem
        simpa using hmem
      · intro ref hmem
        rcases mem_append.1 hmem with hmem | hmem
        · exact hmem
        · exact absurd (Caller.retry.inj (mem_singleton.1 hmem)).1 hw
      · simp [Cleanup.foregrounds, Caller.isForeground]
      · simp [Cleanup.retries, Caller.isRetry, Ne.symm hw]
  · exact h

/-! ## Every run -/

lemma Inv.step (h : Inv s) {a : Event} (hstep : step s a = some s') : Inv s' := by
  cases a with
  | operation vmID =>
    cases hstep
    exact h.operation vmID
  | retry vmID =>
    cases hstep
    exact h.claimCleanup vmID
  | claim i =>
    simp only [Claims.step] at hstep
    split at hstep
    · next v hx =>
      cases hstep
      cases hv : s.claims v with
      | none => exact h.claim_new hx hv
      | some ref =>
        cases hd : (s.objects ref).retryDone with
        | none => exact h.claim_shared hx hv hd
        | some closed => exact h.claim_wait hx hv hd
    · cases hstep
  | wake i =>
    simp only [Claims.step] at hstep
    split at hstep
    · next v ref hx =>
      split at hstep
      · cases hstep
        exact h.pass hx (fun _ => rfl) (fun _ => rfl) (fun _ => rfl) fun _ => rfl
      · cases hstep
    · cases hstep
  | giveUp i =>
    simp only [Claims.step] at hstep
    split at hstep
    · next v ref hx =>
      cases hstep
      exact h.pass hx (fun _ => rfl) (fun _ => rfl) (fun _ => rfl) fun _ => rfl
    · cases hstep
  | release i =>
    simp only [Claims.step] at hstep
    split at hstep
    · next v ref hx =>
      cases hstep
      exact h.releaseLifecycle hx
    · next v ref hx =>
      cases hstep
      exact h.releaseCleanup hx
    · cases hstep

/-- **Claims exclude each other.**  However operations and retries on any VMs interleave: a VM is
held by foreground operations only, or by one retry only; the counter of a foreground claim is the
number of operations that hold the VM; and a VM that nobody holds has no entry. -/
theorem claims_exclude {as : List Event} (hrun : run step Cleanup.idle as = some s) (vmID : Bytes) :
    (s.foregrounds vmID = 0 ∨ s.retries vmID = 0) ∧ s.retries vmID ≤ 1 ∧
      (∀ ref, s.claims vmID = some ref → 0 < s.foregrounds vmID →
        (s.objects ref).users = s.foregrounds vmID) ∧
      (s.foregrounds vmID = 0 → s.retries vmID = 0 → s.claims vmID = none) := by
  have hinv : Inv s := run_preserves (fun _ _ _ h hstep => h.step hstep) inv_idle hrun
  have hvm := hinv.accounted vmID
  cases hclaim : s.claims vmID with
  | none =>
    obtain ⟨hf, hr⟩ := hvm.free hclaim
    refine ⟨.inl hf, by omega, ?_, fun _ _ => rfl⟩
    intro ref href
    cases href
  | some ref =>
    rcases (hvm.held ref hclaim).2 with ⟨-, husers, hpos, hr⟩ | ⟨-, hf, hr⟩
    · refine ⟨.inr hr, by omega, ?_, fun hf => by omega⟩
      intro r href _
      cases href
      exact husers
    · refine ⟨.inl hf, by omega, fun _ _ hpos => by omega, fun _ hr' => by omega⟩

/-- A retry is found by an operation, which waits for it; two operations then hold the VM. -/
def overlapping : List Event :=
  [Event.retry (ascii "v"), .operation (ascii "v"), .claim 1, .operation (ascii "v"), .release 0,
    .wake 1, .claim 1, .claim 2]

theorem claims_exclude_overlapping : ∃ s, run step Cleanup.idle overlapping = some s ∧
    s.foregrounds (ascii "v") = 2 ∧ s.claims (ascii "v") = some 1 ∧ (s.objects 1).users = 2 := by
  obtain ⟨s, hs, hf, hclaim⟩ : ∃ s, run step Cleanup.idle overlapping = some s ∧
      s.foregrounds (ascii "v") = 2 ∧ s.claims (ascii "v") = some 1 := by decide
  have husers := (claims_exclude hs (ascii "v")).2.2.1 1 hclaim (by omega)
  exact ⟨s, hs, hf, hclaim, by omega⟩

end Observatory.Runtime.Claims
