/-
The numbers of the threads (`ThreadInformation`).

A thread gets its number when it first asks for its information, from a
counter that all threads share and that wraps.

# The numbers

So the number of a thread is its place in the order of the first accesses,
as an `int` (`run_eq`, by induction over the calls with the last one split
off). Threads that ask again get what they have. Two threads have one
number only if their places are a multiple of 2^32 apart; but the DLT
library, which is handed eight bits of it, sees the same number every 256
threads (`thread_numbers`).

# One thread

Whether an application has several threads is read off the counter, which is
1 behind the first thread, and behind every 2^32 more.
-/
import IviLogging.Common
import Mathlib.Data.List.Dedup
import Mathlib.Data.List.Induction
import Mathlib.Data.Nat.ModEq

namespace IviLogging

/-- `sNextID`, and the `thread_local` of each thread that was accessed. -/
structure ThreadNumbers where
  sNextID : Int32 := 0
  threadID : Nat → Option Int32 := fun _ => none

namespace ThreadNumbers

/-- `getThreadInformation`, called by a thread: the first call constructs
the `ThreadInformation`. -/
def getThreadInformation (s : ThreadNumbers) (t : Nat) : ThreadNumbers :=
  match s.threadID t with
  | some _ => s
  | none =>
      { sNextID := s.sNextID + 1
        threadID := Function.update s.threadID t (some s.sNextID) }

/-- `isMultithreadedApp`. -/
def isMultithreadedApp (s : ThreadNumbers) : Bool := decide (s.sNextID ≠ 1)

/-- Some calls, in the order of the accesses to the counter. -/
def run (calls : List Nat) : ThreadNumbers :=
  calls.foldl getThreadInformation {}

/-- The threads, in the order of their first calls. -/
def order (calls : List Nat) : List Nat := calls.reverse.dedup.reverse

-- ================================================================= the order

/-- A call more: a thread that has asked before changes nothing in the
order. -/
theorem order_concat (calls : List Nat) (t : Nat) :
    order (calls ++ [t])
      = if t ∈ calls then order calls else order calls ++ [t] := by
  unfold order
  rw [List.reverse_append, List.reverse_singleton, List.singleton_append]
  by_cases ht : t ∈ calls
  · rw [List.dedup_cons_of_mem (List.mem_reverse.mpr ht), if_pos ht]
  · rw [List.dedup_cons_of_notMem (fun h => ht (List.mem_reverse.mp h)),
      if_neg ht, List.reverse_cons]

/-- The order has the threads that have asked. -/
theorem mem_order {calls : List Nat} {t : Nat} :
    t ∈ order calls ↔ t ∈ calls := by
  simp [order]

/-- The counter is how many threads there are, and a thread's number its
place among them. -/
theorem run_eq (calls : List Nat) :
    (run calls).sNextID = Int32.ofNat (order calls).length
      ∧ ∀ t, (run calls).threadID t
        = if t ∈ calls then some (Int32.ofNat ((order calls).idxOf t))
          else none := by
  induction calls using List.reverseRecOn with
  | nil => exact ⟨rfl, fun _ => rfl⟩
  | append_singleton calls t ih =>
      obtain ⟨hnext, hids⟩ := ih
      have hrun : run (calls ++ [t]) = (run calls).getThreadInformation t :=
        List.foldl_concat ..
      rw [hrun, order_concat]
      unfold getThreadInformation
      -- the thread has its number, or gets the next one
      by_cases ht : t ∈ calls
      · rw [hids t, if_pos ht, if_pos ht]
        refine ⟨hnext, fun u => ?_⟩
        rw [hids u]
        by_cases hu : u ∈ calls
        · simp [hu]
        · have hne : u ≠ t := fun heq => hu (heq ▸ ht)
          simp [hu, hne]
      · have hfresh : t ∉ order calls := fun h => ht (mem_order.mp h)
        rw [hids t, if_neg ht, if_neg ht]
        refine ⟨?_, fun u => ?_⟩
        · show (run calls).sNextID + 1 = _
          rw [hnext, List.length_append]
          exact (Int32.ofNat_add ..).symm
        · show Function.update _ t _ u = _
          by_cases hu : u = t
          · subst hu
            rw [Function.update_self, List.idxOf_append_of_notMem hfresh]
            simp [hnext]
          · rw [Function.update_of_ne hu, hids u]
            by_cases hmem : u ∈ calls
            · rw [List.idxOf_append_of_mem (mem_order.mpr hmem)]
              simp [hmem]
            · simp [hmem, hu]

/-- Numbers as an `int`. -/
theorem ofNat_eq_iff (m n : Nat) :
    Int32.ofNat m = Int32.ofNat n ↔ m ≡ n [MOD 2 ^ 32] := by
  have hbits : ∀ k, (Int32.ofNat k).toUInt32.toNat = k % 2 ^ 32 :=
    fun k => BitVec.toNat_ofNat k 32
  rw [Nat.ModEq, ← hbits, ← hbits, UInt32.toNat_inj]
  refine ⟨fun h => congrArg Int32.toUInt32 h, fun h => ?_⟩
  simpa only [Int32.toInt32_toUInt32] using congrArg UInt32.toInt32 h

/-- Eight bits of a number. -/
theorem toUInt8_eq_iff (m n : Nat) :
    (Int32.ofNat m).toUInt32.toUInt8 = (Int32.ofNat n).toUInt32.toUInt8
      ↔ m ≡ n [MOD 256] := by
  have hbits : ∀ k, (Int32.ofNat k).toUInt32.toUInt8.toNat = k % 256 := by
    intro k
    have hword : (Int32.ofNat k).toUInt32.toNat = k % 2 ^ 32 :=
      BitVec.toNat_ofNat k 32
    rw [UInt32.toNat_toUInt8, hword]
    omega
  rw [Nat.ModEq, ← hbits, ← hbits, UInt8.toNat_inj]

/-- The number of a thread is its place in the order of the first calls,
and the counter is how many there were, both as an `int`, which wraps. So
two threads that have asked have one number exactly if their places are the
same up to 2 ^ 32, and one for the DLT library, which gets eight bits, if
they are the same up to 256; and the application is taken for one of a
single thread if there is one up to 2 ^ 32. A thread that has not asked has
no number. -/
theorem thread_numbers (calls : List Nat) :
    (∀ t, (run calls).threadID t
        = if t ∈ calls then some (Int32.ofNat ((order calls).idxOf t))
          else none)
      ∧ (∀ t ∈ calls, ∀ u ∈ calls,
        ((run calls).threadID t = (run calls).threadID u
            ↔ (order calls).idxOf t ≡ (order calls).idxOf u [MOD 2 ^ 32])
          ∧ (((run calls).threadID t).map (fun id => id.toUInt32.toUInt8)
              = ((run calls).threadID u).map (fun id => id.toUInt32.toUInt8)
            ↔ (order calls).idxOf t ≡ (order calls).idxOf u [MOD 256]))
      ∧ (run calls).sNextID = Int32.ofNat (order calls).length
      ∧ ((run calls).isMultithreadedApp = false
        ↔ (order calls).length ≡ 1 [MOD 2 ^ 32]) := by
  obtain ⟨hnext, hids⟩ := run_eq calls
  refine ⟨hids, ?_, hnext, ?_⟩
  · intro t ht u hu
    rw [hids t, if_pos ht, hids u, if_pos hu]
    simp only [Option.map_some, Option.some_inj]
    exact ⟨ofNat_eq_iff _ _, toUInt8_eq_iff _ _⟩
  · rw [isMultithreadedApp, hnext, decide_eq_false_iff_not, not_not]
    exact ofNat_eq_iff _ 1

/-- Two threads, of which one asks twice. -/
example : (run [7, 3, 7]).threadID 7 = some 0
    ∧ (run [7, 3, 7]).threadID 3 = some 1
    ∧ (run [7, 3, 7]).threadID 5 = none
    ∧ (run [7, 3, 7]).isMultithreadedApp = true := by
  decide

end ThreadNumbers

end IviLogging
