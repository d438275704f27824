/-
# Cleanup retries are fair

A retry pass takes a page of the rows that need cleanup, from the row on at which the last pass
ended, and the next one starts over if the page was short. While the set of these rows stays the
same and nothing interrupts the passes, they go round it: no row comes a second time before every
row has come once, however the attempts end.
-/
import Observatory.Lib.Log
import Observatory.Runtime.System

namespace Observatory.Runtime

open Lib Store List Prog

namespace Fairness

/-- The rows with their numbers. -/
def numbered (vms : List VM) : List (Nat × VM) := vms.zipIdx.map fun (vm, i) => (i + 1, vm)

/-- What has come of the passes so far: where the next one starts, and the rows attempted. -/
structure Progress where
  after : Nat
  attempted : List Nat

variable {rows : List Nat} {g : Progress} {v : Bytes}

def Progress.pass (rows : List Nat) (g : Progress) : Progress :=
  let page := (Log.past id g.after rows).take cleanupRetryPage
  ⟨if page.length < cleanupRetryPage then 0 else page.getLast?.getD g.after, g.attempted ++ page⟩

/-- Where passes are in a round: `done` was attempted in this one, the `j`-th, and each of the `m`
rounds before took as many passes as there are pages, a last short one included. -/
def InRound (rows : List Nat) (k : Nat) (g : Progress) : Prop :=
  ∃ m j done, k = m * (rows.length / cleanupRetryPage + 1) + j ∧
    done.length = j * cleanupRetryPage ∧ done ++ Log.past id g.after rows = rows ∧
    g.attempted = (List.replicate m rows).flatten ++ done

variable {k : Nat}

lemma InRound.pass (hordered : Log.Ordered id rows) (hpos : ∀ n ∈ rows, 0 < n)
    (h : InRound rows k g) : InRound rows (k + 1) (g.pass rows) := by
  obtain ⟨m, j, done, rfl, hlength, hsplit, hattempted⟩ := h
  have hrest := hordered.page_append_past (prefix_refl rows) g.after cleanupRetryPage
  have hcount := congrArg List.length hsplit
  rw [length_append] at hcount
  simp only [InRound, Progress.pass]
  generalize hpage : (Log.past id g.after rows).take cleanupRetryPage = page at hrest ⊢
  have htaken := congrArg List.length hpage
  rw [length_take] at htaken
  split
  · -- a short page is all that was left
    have hall : page = Log.past id g.after rows := by
      rw [← hpage]
      exact take_of_length_le (by omega)
    have hzero : Log.past id 0 rows = rows := filter_eq_self.2 fun n hn => by simpa using hpos n hn
    have hpages : rows.length / cleanupRetryPage = j := by
      rw [← hcount, hlength]
      exact Nat.div_eq_of_lt_le (by omega) (by rw [Nat.succ_mul]; omega)
    refine ⟨m + 1, 0, [], ?_, by simp, hzero, ?_⟩
    · rw [hpages, Nat.succ_mul]
      omega
    · rw [hattempted, hall, append_assoc, hsplit, List.replicate_succ', flatten_append]
      simp
  · refine ⟨m, j + 1, done ++ page, by omega, ?_, ?_, by rw [hattempted, append_assoc]⟩
    · rw [length_append, Nat.succ_mul]
      omega
    · rw [Option.map_id] at hrest
      rw [append_assoc]
      exact (congrArg (done ++ ·) hrest).trans hsplit

end Fairness

end Observatory.Runtime
