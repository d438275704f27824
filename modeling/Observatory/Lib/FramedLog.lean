/-
# Logs of checksummed frames

A frame is the length of a body, its checksum and the body; a log is a sequence of frames,
ended by a marker when its writer closed it and by anything when it did not. `head` reads what
stands at the front of a log, `Split` says how a whole byte string falls into frames and what
stops the reading, and `split` computes it. Every byte string splits in exactly one way.
-/
import Observatory.Lib.Bytes

namespace Observatory.Lib

open List

/-- The parameters of a framed log. The marker stands where a length would, so it is no
length a frame may have. -/
structure FrameFormat where
  maxBody : Nat
  marker : Nat
  sum : Bytes → Nat
  maxBody_lt : maxBody < marker
  marker_lt : marker < 2 ^ 32
  sum_lt : ∀ b, sum b < 2 ^ 32

namespace FrameFormat

variable (F : FrameFormat)

def frame (body : Bytes) : Bytes := putUint32 body.length ++ putUint32 (F.sum body) ++ body

def frames (bodies : List Bytes) : Bytes := bodies.flatMap F.frame

/-- What stops the reading of a log. -/
inductive Tail where
  /-- the bytes end before a frame does, or there are none -/
  | torn
  | marked
  | oversize
  | badSum
deriving DecidableEq

/-- What stands at the front of a log. -/
inductive Head where
  | stop (t : Tail)
  | body (b rest : Bytes)

/-- Read the front of a log. -/
def head (bs : Bytes) : Head :=
  match takeUint32 bs with
  | none => .stop .torn
  | some (len, bs) =>
    if len = F.marker then .stop .marked
    else if F.maxBody < len then .stop .oversize
    else
      match takeUint32 bs with
      | none => .stop .torn
      | some (sum, bs) =>
        if bs.length < len then .stop .torn
        else if F.sum (bs.take len) ≠ sum then .stop .badSum
        else .body (bs.take len) (bs.drop len)

/-- How a byte string falls into frames. -/
inductive Split : Bytes → List Bytes → Tail → Prop where
  | stop {bs : Bytes} {t : Tail} (h : F.head bs = .stop t) : Split bs [] t
  | body {bs b rest : Bytes} {bodies : List Bytes} {t : Tail} (h : F.head bs = .body b rest)
      (hr : Split rest bodies t) : Split bs (b :: bodies) t

def splitAux : Nat → Bytes → List Bytes × Tail
  | 0, _ => ([], .torn)
  | fuel + 1, bs =>
    match F.head bs with
    | .stop t => ([], t)
    | .body b rest => (b :: (splitAux fuel rest).1, (splitAux fuel rest).2)

/-- Split a byte string into its bodies and what stops the reading. -/
def split (bs : Bytes) : List Bytes × Tail := F.splitAux (bs.length + 1) bs

variable {F}

variable {bs : Bytes} {bodies : List Bytes} {t : Tail}

lemma head_eq_body {b rest : Bytes} (h : F.head bs = .body b rest) :
    b.length ≤ F.maxBody ∧ bs = F.frame b ++ rest := by
  unfold head at h
  split at h
  · cases h
  next len bs1 h1 =>
  split at h
  · cases h
  split at h
  · cases h
  next hmax =>
  split at h
  · cases h
  next sum bs2 h2 =>
  split at h
  · cases h
  next hlen =>
  split at h
  · cases h
  next hsum =>
  obtain ⟨rfl, rfl⟩ : bs2.take len = b ∧ bs2.drop len = rest := by simpa using h
  have hb : (bs2.take len).length = len := by rw [length_take]; omega
  refine ⟨by omega, ?_⟩
  rw [frame, hb, not_ne_iff.1 hsum, append_assoc, append_assoc, take_append_drop,
    ← eq_putUint32_of_takeUint32 h2, ← eq_putUint32_of_takeUint32 h1]

lemma head_frame {body : Bytes} (h : body.length ≤ F.maxBody) (rest : Bytes) :
    F.head (F.frame body ++ rest) = .body body rest := by
  have hm := F.maxBody_lt
  have hl := F.marker_lt
  have hlen : takeUint32 (F.frame body ++ rest) =
      some (body.length, putUint32 (F.sum body) ++ (body ++ rest)) := by
    rw [frame, append_assoc, append_assoc]
    exact takeUint32_putUint32 (by omega) _
  have hsum := takeUint32_putUint32 (F.sum_lt body) (body ++ rest)
  have hnot : ¬ (body ++ rest).length < body.length := by simp
  have htake : (body ++ rest).take body.length = body := by simp
  have hdrop : (body ++ rest).drop body.length = rest := by simp
  simp only [head, hlen, hsum, if_neg (show ¬ body.length = F.marker by omega),
    if_neg (show ¬ F.maxBody < body.length by omega), if_neg hnot, htake, hdrop, ne_eq,
    not_true_eq_false, if_false]

lemma head_marker (rest : Bytes) : F.head (putUint32 F.marker ++ rest) = .stop .marked := by
  simp only [head, takeUint32_putUint32 F.marker_lt, if_true]

lemma head_nil : F.head [] = .stop .torn := rfl

lemma length_lt_of_body {b rest : Bytes} (h : F.head bs = .body b rest) :
    rest.length < bs.length := by
  obtain ⟨-, rfl⟩ := head_eq_body h
  simp only [frame, putUint32, length_append, length_cons, length_nil]
  omega

lemma split_of_splitAux {fuel : Nat} (hf : bs.length < fuel) :
    F.Split bs (F.splitAux fuel bs).1 (F.splitAux fuel bs).2 := by
  induction fuel generalizing bs with
  | zero => omega
  | succ fuel ih =>
    cases h : F.head bs with
    | stop t =>
      simp only [splitAux, h]
      exact .stop h
    | body b rest =>
      simp only [splitAux, h]
      exact .body h (ih (by have := length_lt_of_body h; omega))

lemma split_spec (bs : Bytes) : F.Split bs (F.split bs).1 (F.split bs).2 :=
  split_of_splitAux (Nat.lt_succ_self _)

lemma Split.unique {bodies' : List Bytes} {t' : Tail} (h : F.Split bs bodies t)
    (h' : F.Split bs bodies' t') : bodies = bodies' ∧ t = t' := by
  induction h generalizing bodies' t' with
  | stop h =>
    cases h' with
    | stop h2 =>
      rw [h] at h2
      exact ⟨rfl, by simpa using h2⟩
    | body h2 _ =>
      rw [h] at h2
      cases h2
  | body h _ ih =>
    cases h' with
    | stop h2 =>
      rw [h] at h2
      cases h2
    | body h2 hr =>
      rw [h] at h2
      obtain ⟨rfl, rfl⟩ : _ ∧ _ := by simpa using h2
      obtain ⟨rfl, rfl⟩ := ih hr
      exact ⟨rfl, rfl⟩

lemma split_eq (h : F.Split bs bodies t) :
    F.split bs = (bodies, t) := by
  obtain ⟨h1, h2⟩ := (split_spec bs).unique h
  exact Prod.ext h1 h2

lemma Split.frames_append {bodies' : List Bytes} (hb : ∀ b ∈ bodies', b.length ≤ F.maxBody)
    (h : F.Split bs bodies t) :
    F.Split (F.frames bodies' ++ bs) (bodies' ++ bodies) t := by
  induction bodies' with
  | nil => exact h
  | cons b bodies' ih =>
    rw [frames, flatMap_cons, append_assoc]
    exact .body (head_frame (hb b (.head _)) _)
      (ih fun x hx => hb x (.tail _ hx))

end FrameFormat

end Observatory.Lib
