/-
The entry of a log statement (`LogEntry`), which hands values to its
backends.

# Writing some at once

`write` takes any number of arguments. For each backend it makes the
writes inside of the argument list of one call, `[](...) {}((f(args),
0)...)`. The calls in it do not overlap, but in which order they are made
is left to the compiler; it may be another one for each backend, whose
types make it another function. So `write` is run under an evaluation
order: what the arguments of the `i`-th backend's call are, in the order
in which they are evaluated (`Permitted`).

# Streaming them

Streaming the values calls `write` for each of them, with a single
argument and so with nothing to choose. The two agree only where the order
does not matter (`write_eq_stream_iff`): a backend that is enabled gets the
arguments in the order that was chosen for it, and all orders of some
arguments are one list only if the arguments are all the same.
-/
import Mathlib.Data.List.Basic

namespace IviLogging

variable {V : Type*}

/-- What an entry knows of a backend: if it is enabled, and what it was
given. -/
structure Backend (V : Type*) where
  enabled : Bool
  received : List V := []

/-- `write` of a backend. -/
def Backend.write (log : Backend V) (v : V) : Backend V :=
  { log with received := log.received ++ [v] }

/-- `for_each_in_tuple_`, from the index `i` on. -/
def forEachInTuple (func : Nat → Backend V → Backend V) (i : Nat) :
    List (Backend V) → List (Backend V)
  | [] => []
  | log :: logs => func i log :: forEachInTuple func (i + 1) logs

namespace LogEntry

/-- `for_each_argument`, under an evaluation order. -/
def forEachArgument (f : Backend V → V → Backend V) (order : List V)
    (log : Backend V) : Backend V :=
  order.foldl f log

/-- `write`, under an evaluation order for each backend. -/
def write (order : Nat → List V) (logs : List (Backend V)) :
    List (Backend V) :=
  forEachInTuple
    (fun i log =>
      if log.enabled then forEachArgument Backend.write (order i) log else log)
    0 logs

/-- The orders in which the arguments may be evaluated. -/
def Permitted (args : List V) (order : Nat → List V) : Prop :=
  ∀ i, (order i).Perm args

/-- `log << a1 << a2 << ..`: a call of `write` for each value. -/
def stream (args : List V) (logs : List (Backend V)) : List (Backend V) :=
  args.foldl (fun logs a => write (fun _ => [a]) logs) logs

-- ======================================================= one evaluation

/-- A backend that gets some values, if it is enabled. -/
def receive (args : List V) (log : Backend V) : Backend V :=
  if log.enabled then { log with received := log.received ++ args } else log

/-- A backend gets the values in the order of the evaluation. -/
theorem forEachArgument_eq (order : List V) (log : Backend V) :
    forEachArgument Backend.write order log
      = { log with received := log.received ++ order } := by
  unfold forEachArgument
  induction order generalizing log with
  | nil => simp
  | cons a order ih =>
      rw [List.foldl_cons, ih]
      simp [Backend.write]

/-- The loop over the backends does what its body does to each. -/
theorem forEachInTuple_congr {f g : Nat → Backend V → Backend V}
    {logs : List (Backend V)} {i : Nat}
    (h : ∀ j, ∀ log ∈ logs, f j log = g j log) :
    forEachInTuple f i logs = forEachInTuple g i logs := by
  induction logs generalizing i with
  | nil => rfl
  | cons log logs ih =>
      unfold forEachInTuple
      rw [h i log (List.mem_cons_self ..),
        ih fun j log hlog => h j log (List.mem_cons_of_mem _ hlog)]

/-- A body that does not look at the index. -/
theorem forEachInTuple_const (f : Backend V → Backend V) (i : Nat)
    (logs : List (Backend V)) :
    forEachInTuple (fun _ => f) i logs = logs.map f := by
  induction logs generalizing i with
  | nil => rfl
  | cons log logs ih =>
      rw [List.map_cons, ← ih (i + 1)]
      rfl

/-- Each enabled backend gets the values in its order. -/
theorem write_eq (order : Nat → List V) (logs : List (Backend V)) :
    write order logs = forEachInTuple (fun i => receive (order i)) 0 logs := by
  apply forEachInTuple_congr
  intro i log _
  rw [forEachArgument_eq]
  rfl

/-- Under one order for all backends. -/
theorem write_const (args : List V) (logs : List (Backend V)) :
    write (fun _ => args) logs = logs.map (receive args) := by
  rw [write_eq, forEachInTuple_const]

/-- Some values, and some more. -/
theorem receive_receive (args args' : List V) (log : Backend V) :
    receive args' (receive args log) = receive (args ++ args') log := by
  by_cases henabled : log.enabled = true
  · simp [receive, henabled]
  · simp [receive, henabled]

/-- Streaming gives every enabled backend the values in order. -/
theorem stream_eq (args : List V) (logs : List (Backend V)) :
    stream args logs = logs.map (receive args) := by
  unfold stream
  induction args generalizing logs with
  | nil =>
      have hid : receive ([] : List V) = id := by
        funext log
        simp [receive]
      rw [hid, List.map_id]
      rfl
  | cons a args ih =>
      rw [List.foldl_cons, ih, write_const, List.map_map]
      apply List.map_congr_left
      intro log _
      exact receive_receive [a] args log

-- ============================================================ all orders

/-- A list all of whose orders are the same has one value only. -/
theorem eq_of_perm_eq {args : List V} (h : ∀ l, l.Perm args → l = args)
    {a b : V} (ha : a ∈ args) (hb : b ∈ args) : a = b := by
  have hhead : ∀ {c : V}, c ∈ args → args.head? = some c := by
    intro c hc
    obtain ⟨front, back, rfl⟩ := List.append_of_mem hc
    rw [← h (c :: (front ++ back)) List.perm_middle.symm]
    rfl
  exact Option.some.inj ((hhead ha).symm.trans (hhead hb))

/-- And a list of one value only has one order. -/
theorem perm_eq_of_eq {args : List V} (h : ∀ a ∈ args, ∀ b ∈ args, a = b)
    {l : List V} (hl : l.Perm args) : l = args := by
  cases args with
  | nil => exact List.perm_nil.mp hl
  | cons a as =>
      have hall : ∀ b ∈ a :: as, b = a := fun b hb =>
        h b hb a (List.mem_cons_self ..)
      rw [List.eq_replicate_of_mem hall] at hl ⊢
      exact List.perm_replicate.mp hl

theorem receive_of_disabled {log : Backend V} (h : log.enabled = false)
    (args : List V) : receive args log = log := by
  simp [receive, h]

/-- An enabled backend tells the orders apart. -/
theorem receive_injective {log : Backend V} (h : log.enabled = true)
    {args args' : List V} (heq : receive args log = receive args' log) :
    args = args' := by
  have hreceived := congrArg Backend.received heq
  simpa [receive, h] using hreceived

/-- Writing some arguments at once is streaming them one by one, for every
evaluation order, exactly if no backend is enabled or the arguments are all
the same. -/
theorem write_eq_stream_iff (args : List V) (logs : List (Backend V)) :
    stream args logs = logs.map (receive args)
      ∧ ((∀ order, Permitted args order →
          write order logs = stream args logs)
        ↔ (∀ log ∈ logs, log.enabled = false)
          ∨ ∀ a ∈ args, ∀ b ∈ args, a = b) := by
  refine ⟨stream_eq args logs, ?_, ?_⟩
  · intro h
    by_cases hall : ∀ log ∈ logs, log.enabled = false
    · exact Or.inl hall
    · simp only [not_forall, Bool.not_eq_false] at hall
      obtain ⟨log, hlog, henabled⟩ := hall
      -- each order of the arguments is one an enabled backend may get, and it
      -- tells them apart
      refine Or.inr fun a ha b hb => ?_
      refine eq_of_perm_eq (fun l hl => ?_) ha hb
      have hwrite := h (fun _ => l) fun _ => hl
      rw [write_const, stream_eq] at hwrite
      exact receive_injective henabled (List.map_inj_left.mp hwrite log hlog)
  · intro h order horder
    rw [write_eq, stream_eq, ← forEachInTuple_const (receive args) 0]
    apply forEachInTuple_congr
    intro i log hlog
    rcases h with hdisabled | hsame
    · rw [receive_of_disabled (hdisabled log hlog),
        receive_of_disabled (hdisabled log hlog)]
    · rw [perm_eq_of_eq hsame (horder i)]

-- ============================================================== a sample

/-- One enabled backend, and the last argument evaluated first. -/
theorem write_reverses :
    Permitted [1, 2] (fun _ => [2, 1])
      ∧ (write (fun _ => [2, 1]) [⟨true, []⟩]).map Backend.received = [[2, 1]]
      ∧ (stream [1, 2] [⟨true, []⟩]).map Backend.received = [[1, 2]] :=
  ⟨fun _ => List.Perm.swap 1 2 [], rfl, rfl⟩

end LogEntry

end IviLogging
