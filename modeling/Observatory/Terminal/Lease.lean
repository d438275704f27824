/-
# The writer lease

Of the attachments of a session one may type, the one that holds the lease. A holder that leaves
keeps it for a grace window. No timer ends the window: the next call does, whichever it is. Who
watches the lease waits for a channel, which is closed when the holder changes. Connections have
names, and the empty name is nobody's.
-/
import Observatory.Lib.Bytes

namespace Observatory.Terminal

open Lib

structure Lease where
  grace : Nat
  /-- The connection that may type; empty when there is none. -/
  holder : Bytes
  /-- When the holder left; `none` is the zero time. -/
  releasedAt : Option Int
  /-- The change channel handed out, by number. It is open, and those before it are closed. -/
  changed : Nat

namespace Lease

def newLease (grace : Int) : Lease := ⟨grace.toNat, [], none, 0⟩

def notifyLocked (l : Lease) : Lease := { l with changed := l.changed + 1 }

/-- A lease whose holder left is dropped once its grace is over. -/
def expireLocked (now : Int) (l : Lease) : Lease :=
  match l.releasedAt with
  | none => l
  | some at_ =>
    if l.holder ≠ [] ∧ l.grace ≤ now - at_ then
      notifyLocked { l with holder := [], releasedAt := none }
    else l

/-- How `Acquire` and `Steal` make `conn` the holder; the channel stays if it was. -/
def give (conn : Bytes) (l : Lease) : Lease :=
  { (if l.holder = conn then l else l.notifyLocked) with holder := conn, releasedAt := none }

/-- Whether `conn` may type. The name returned with it is the holder of the lease left. -/
def acquire (now : Int) (conn : Bytes) (l : Lease) : Bool × Lease :=
  if (l.expireLocked now).holder = [] ∨ (l.expireLocked now).holder = conn then
    (true, (l.expireLocked now).give conn)
  else (false, l.expireLocked now)

-- The clock may read the zero time; the lease then looks as if the holder had stayed.
def release (now : Int) (conn : Bytes) (l : Lease) : Lease :=
  if (l.expireLocked now).holder ≠ conn ∨ (l.expireLocked now).releasedAt.isSome then
    l.expireLocked now
  else { l.expireLocked now with releasedAt := if now = 0 then none else some now }

/-- Take the lease at once; also the connection that it was taken from, empty if there is none. -/
def steal (now : Int) (conn : Bytes) (l : Lease) : Bytes × Lease :=
  (if (l.expireLocked now).holder = conn then [] else (l.expireLocked now).holder,
    (l.expireLocked now).give conn)

def currentHolder (now : Int) (l : Lease) : Bytes := (l.expireLocked now).holder

def isWriter (now : Int) (conn : Bytes) (l : Lease) : Bool :=
  (l.expireLocked now).holder ≠ [] && (l.expireLocked now).holder = conn

inductive Call where
  | acquire (conn : Bytes)
  | release (conn : Bytes)
  | steal (conn : Bytes)
  | holder
  | isWriter (conn : Bytes)

def call (now : Int) (l : Lease) : Call → Lease
  | .acquire conn => (l.acquire now conn).2
  | .release conn => l.release now conn
  | .steal conn => (l.steal now conn).2
  | .holder | .isWriter _ => l.expireLocked now

def after (l : Lease) (cs : List (Int × Call)) : Lease := cs.foldl (fun l c => l.call c.1 c.2) l

variable {l : Lease} {now : Int} {conn : Bytes}

lemma holder_expireLocked (now : Int) (l : Lease) :
    (l.expireLocked now).holder = [] ∨ (l.expireLocked now).holder = l.holder := by
  rw [expireLocked]
  cases l.releasedAt with
  | none => exact .inr rfl
  | some _ =>
    dsimp only
    split_ifs
    · exact .inl rfl
    · exact .inr rfl

lemma holder_release (now : Int) (conn : Bytes) (l : Lease) :
    (l.release now conn).holder = (l.expireLocked now).holder := by
  rw [release]
  split_ifs <;> rfl

@[simp] lemma holder_give (conn : Bytes) (l : Lease) : (l.give conn).holder = conn := rfl

lemma grace_expireLocked (now : Int) (l : Lease) : (l.expireLocked now).grace = l.grace := by
  rw [expireLocked]
  cases l.releasedAt with
  | none => rfl
  | some _ =>
    dsimp only
    split_ifs <;> rfl

lemma grace_give (conn : Bytes) (l : Lease) : (l.give conn).grace = l.grace := by
  rw [give]
  split_ifs <;> rfl

lemma grace_call (now : Int) (l : Lease) (c : Call) : (l.call now c).grace = l.grace := by
  rw [← grace_expireLocked now l]
  cases c with
  | acquire conn =>
    rw [call, acquire]
    split_ifs
    · exact grace_give conn _
    · rfl
  | release conn =>
    rw [call, release]
    split_ifs <;> rfl
  | steal conn => exact grace_give conn _
  | holder | isWriter _ => rfl

lemma grace_after (l : Lease) (cs : List (Int × Call)) : (l.after cs).grace = l.grace := by
  induction cs generalizing l with
  | nil => rfl
  | cons c cs ih => exact (ih _).trans (grace_call c.1 l c.2)

/-! ## What a holder keeps -/

/-- `conn` holds the lease, and if it has left, its grace is not over at time `u`. -/
structure Keeps (conn : Bytes) (u : Int) (l : Lease) : Prop where
  holder : l.holder = conn
  within : ∀ at_ ∈ l.releasedAt, u - at_ < l.grace

namespace Keeps

variable {u : Int}

lemma expireLocked (h : Keeps conn u l) (hnow : now ≤ u) : l.expireLocked now = l := by
  rw [Lease.expireLocked]
  cases hat : l.releasedAt with
  | none => rfl
  | some at_ =>
    have hlt := h.within at_ hat
    exact if_neg fun hover => by omega

lemma currentHolder (h : Keeps conn u l) : l.currentHolder u = conn := by
  rw [Lease.currentHolder, h.expireLocked le_rfl, h.holder]

lemma give (conn : Bytes) (u : Int) (l : Lease) : Keeps conn u (l.give conn) :=
  ⟨rfl, nofun⟩

lemma take {c : Call} (h : c = .acquire conn ∧ (l.acquire now conn).1 = true ∨ c = .steal conn) :
    Keeps conn u (l.call now c) := by
  rcases h with ⟨rfl, hgranted⟩ | rfl
  · rw [Lease.call]
    rw [acquire] at hgranted ⊢
    split_ifs at hgranted ⊢
    exact give conn u _
  · exact give conn u _

lemma call (h : Keeps conn u l) (hne : conn ≠ []) (hnow : now ≤ u) {c : Call}
    (hsteal : ∀ d, c = .steal d → d = conn) (hrelease : c = .release conn → u - now < l.grace) :
    Keeps conn u (l.call now c) := by
  have hexp := h.expireLocked hnow
  cases c with
  | acquire d =>
    rw [Lease.call, acquire, hexp]
    split_ifs with hfree
    · rcases hfree with hnil | hd
      · exact absurd (h.holder.symm.trans hnil) hne
      · exact hd.symm.trans h.holder ▸ give d u l
    · exact h
  | release d =>
    rw [Lease.call, release, hexp]
    split_ifs with hkept hzero
    · exact h
    · exact ⟨h.holder, nofun⟩
    · have hd : d = conn := by
        by_contra hd
        exact hkept (.inl fun heq => hd (heq.symm.trans h.holder))
      refine ⟨h.holder, fun at_ hat => ?_⟩
      cases hat
      exact hrelease (by rw [hd])
  | steal d =>
    rw [hsteal d rfl]
    exact give conn u _
  | holder | isWriter d =>
    show Keeps conn u (l.expireLocked now)
    rwa [hexp]

lemma after (hne : conn ≠ []) {cs : List (Int × Call)} (h : Keeps conn u l)
    (hcs : ∀ x ∈ cs, x.1 ≤ u ∧ (∀ d, x.2 = .steal d → d = conn) ∧
      (x.2 = .release conn → u - x.1 < l.grace)) : Keeps conn u (l.after cs) := by
  induction cs generalizing l with
  | nil => exact h
  | cons c cs ih =>
    obtain ⟨hnow, hsteal, hrelease⟩ := hcs c (.head _)
    refine ih (h.call hne hnow hsteal hrelease) fun x hx => ?_
    rw [grace_call]
    exact hcs x (.tail _ hx)

lemma acquire (h : Keeps conn u l) (hne : conn ≠ []) (d : Bytes) :
    (l.acquire u d).1 = decide (d = conn) ∧ (l.acquire u d).2.holder = conn := by
  rw [Lease.acquire, h.expireLocked le_rfl, h.holder]
  by_cases hd : conn = d
  · subst hd
    simp
  · simp [hne, hd, Ne.symm hd, h.holder]

end Keeps

/-! ## The change channel -/

/-- From `l` to `m` the channel is closed if the holder is another. -/
structure Follows (l m : Lease) : Prop where
  le : l.changed ≤ m.changed
  closed : m.holder ≠ l.holder → l.changed < m.changed

namespace Follows

lemma refl (l : Lease) : Follows l l := ⟨le_rfl, fun h => absurd rfl h⟩

lemma trans {m n : Lease} (h : Follows l m) (h' : Follows m n) : Follows l n := by
  refine ⟨h.le.trans h'.le, fun hne => ?_⟩
  by_cases hm : m.holder = l.holder
  · exact h.le.trans_lt (h'.closed (hm ▸ hne))
  · exact (h.closed hm).trans_le h'.le

lemma expireLocked (now : Int) (l : Lease) : Follows l (l.expireLocked now) := by
  rw [Lease.expireLocked]
  cases l.releasedAt with
  | none => exact refl l
  | some at_ =>
    dsimp only
    split_ifs
    · exact ⟨Nat.le_succ _, fun _ => Nat.lt_succ_self _⟩
    · exact refl l

lemma give (conn : Bytes) (l : Lease) : Follows l (l.give conn) := by
  rw [Lease.give]
  split_ifs with heq
  · exact ⟨le_rfl, fun h => absurd heq.symm h⟩
  · exact ⟨Nat.le_succ _, fun _ => Nat.lt_succ_self _⟩

/-- After it has dropped a lease that is over, a call changes the holder only as it closes the
channel. -/
lemma call (now : Int) (l : Lease) (c : Call) : Follows (l.expireLocked now) (l.call now c) := by
  cases c with
  | acquire conn =>
    rw [Lease.call, acquire]
    split_ifs
    · exact give conn _
    · exact refl _
  | release conn =>
    rw [Lease.call, release]
    split_ifs <;> exact ⟨le_rfl, fun h => absurd rfl h⟩
  | steal conn => exact give conn _
  | holder | isWriter conn => exact refl _

end Follows

/-- **The writer lease.**  After any calls, by whoever and whenever:

* who acquired or stole the lease has it until it releases it or another steals it;
* who then releases it has it until its grace is over or another steals it; an `Acquire` in that
  time gives it back, and is refused to the others;
* a release by another connection leaves what any call leaves;
* one connection at most is the writer;
* a call that leaves another holder has closed the channel. -/
theorem writer_lease (grace : Int) (cs : List (Int × Call)) :
    let l := (newLease grace).after cs
    (∀ conn t c mid u, conn ≠ [] →
      (c = .acquire conn ∧ (l.acquire t conn).1 = true ∨ c = .steal conn) →
      (∀ x ∈ mid, x.1 ≤ u ∧ x.2 ≠ .release conn ∧ ∀ d, x.2 = .steal d → d = conn) →
      let m := (l.call t c).after mid
      m.currentHolder u = conn ∧ ∀ rest v, u ≤ v → v - u < grace →
        (∀ x ∈ rest, u ≤ x.1 ∧ x.1 ≤ v ∧ ∀ d, x.2 = .steal d → d = conn) →
        let n := (m.call u (.release conn)).after rest
        n.currentHolder v = conn ∧
          ∀ d, (n.acquire v d).1 = decide (d = conn) ∧ (n.acquire v d).2.holder = conn) ∧
    (∀ conn t, l.currentHolder t ≠ conn → l.release t conn = l.call t .holder) ∧
    (∀ t c d, l.isWriter t c = true → l.isWriter t d = true → c = d) ∧
    ∀ t c, (l.call t c).holder ≠ l.holder ∨ (l.call t c).holder ≠ l.currentHolder t →
      l.changed < (l.call t c).changed := by
  intro l
  refine ⟨?_, fun conn t hne => if_pos (.inl hne), ?_, ?_⟩
  · intro conn t c mid u hne htake hmid m
    -- Until it releases the lease, its grace is not over at any time.
    have hkept : ∀ v, u ≤ v → Keeps conn v m := by
      intro v hv
      refine (Keeps.take htake).after hne fun x hx => ?_
      obtain ⟨hx, hrelease, hsteal⟩ := hmid x hx
      exact ⟨hx.trans hv, hsteal, fun h => absurd h hrelease⟩
    refine ⟨(hkept u le_rfl).currentHolder, fun rest v huv hv hrest => ?_⟩
    have hgrace : ((m.call u (.release conn)).grace : Int) = max grace 0 := by
      rw [grace_call, grace_after, grace_call, grace_after]
      exact Int.toNat_eq_max grace
    have hleft : Keeps conn v (m.call u (.release conn)) := by
      refine (hkept v huv).call hne huv nofun fun _ => ?_
      rw [← grace_call u m (.release conn), hgrace]
      omega
    have hn := hleft.after hne fun x hx => by
      obtain ⟨hux, hxv, hsteal⟩ := hrest x hx
      exact ⟨hxv, hsteal, fun _ => by omega⟩
    exact ⟨hn.currentHolder, hn.acquire hne⟩
  · intro t c d hc hd
    have hc' := ((Bool.and_eq_true _ _).mp hc).2
    exact (of_decide_eq_true hc').symm.trans (of_decide_eq_true ((Bool.and_eq_true _ _).mp hd).2)
  · rintro t c (hstored | hcurrent)
    · exact ((Follows.expireLocked t l).trans (.call t l c)).closed hstored
    · exact (Follows.expireLocked t l).le.trans_lt ((Follows.call t l c).closed hcurrent)

end Lease

end Observatory.Terminal
