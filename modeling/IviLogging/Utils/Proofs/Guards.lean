/-
What the assertions of a byte array let through.

`operator[]` and `writeAt` have an assertion in front of them, and both
compare with the length field. That field is the size while the static
buffer is in use, and -1 afterwards, which as an unsigned number is the
largest there is.

# The two modes

So the static mode checks what it should, up to a sum that wraps
(`accepts_static`), and the dynamic mode checks nothing (`accepts_dynamic`).
`Access.Guarded` is the condition under which the assertion accepts exactly
the accesses that stay inside: in the dynamic mode it accepts all, so the
access must be inside; and an index of 2^64 - 1 is refused and is outside.

# The programs

The mode's invariant holds in every program, whatever it does and however
large what it asks for (`run_wf`): the operations that fail leave nothing
behind. So the exact condition is one on the array at hand (`guards_iff`).
-/
import IviLogging.Utils.Proofs.ByteArray

namespace IviLogging

namespace ByteArray

-- ============================================================== accesses

/-- An access with an assertion in front of it: `operator[]`, and
`writeAt` of some bytes. -/
inductive Access
  | element (index : Nat)
  | range (position sizeInByte : Nat)

/-- The assertion holds. -/
def accepts (a : ByteArray) : Access → Bool
  | .element index => decide (index < a.length)
  | .range position sizeInByte =>
      decide ((position + sizeInByte) % 2 ^ 64 ≤ a.length)

/-- The access stays in the bytes of the array. -/
def Access.Inside (a : ByteArray) : Access → Prop
  | .element index => index < a.size
  | .range position sizeInByte => position + sizeInByte ≤ a.size

/-- The array is in its static buffer, or the access is one that the value
-1 of the length field does not let through by mistake; and the end of a
range does not wrap, or wraps to a place behind the array. -/
def Access.Guarded (a : ByteArray) : Access → Prop
  | .element index =>
      a.usesStaticBuffer = true ∨ index < a.size ∨ 2 ^ 64 - 1 ≤ index
  | .range position sizeInByte =>
      if a.usesStaticBuffer then
        position + sizeInByte < 2 ^ 64
          ∨ a.size < (position + sizeInByte) % 2 ^ 64
      else position + sizeInByte ≤ a.size

/-- The assertions are those of the operations. -/
theorem setAt_eq (a : ByteArray) (index : Nat) (v : UInt8) :
    a.setAt index v
      = if a.accepts (.element index) then a.store index [v] else none := by
  simp only [setAt, accepts, decide_eq_true_eq]

/-- The same of a range. -/
theorem writeAt_eq (a : ByteArray) (position : Nat) (src : List UInt8) :
    a.writeAt position src
      = if a.accepts (.range position src.length) then
          a.store position src
        else none := by
  simp only [writeAt, accepts, decide_eq_true_eq]

-- ============================================================ the invariant

section Invariant

variable {a b : ByteArray}

/-- A resize that is defined keeps the mode's invariant, -/
theorem Wf.resize (h : a.Wf) {n : Nat} (hb : a.resize n = some b) :
    b.Wf := by
  by_cases hn : n ≤ charVectorMaxSize
  · obtain ⟨c, rest, hc, hresized⟩ := resize_spec h hn
    rw [hc] at hb
    cases hb
    exact hresized.wf
  · rw [resize_eq_none (Nat.lt_of_not_le hn)] at hb
    cases hb

/-- and so does a copy into the bytes, -/
theorem Wf.store (h : a.Wf) {off : Nat} {src : List UInt8}
    (hb : a.store off src = some b) : b.Wf := by
  unfold Wf at h
  unfold ByteArray.store at hb
  cases hmode : a.dynamicData with
  | none =>
      rw [hmode] at h
      simp only [hmode] at hb
      split at hb
      · cases hb
        exact h
      · cases hb
  | some v =>
      rw [hmode] at h
      simp only [hmode] at hb
      split at hb
      · next hoff =>
          cases hb
          refine ⟨?_, h.2⟩
          rw [Buffer.length_write hoff]
          exact h.1
      · cases hb

/-- and an append, which is made of the two. -/
theorem Wf.append (h : a.Wf) {src : List UInt8}
    (hb : a.append src = some b) : b.Wf := by
  obtain ⟨c, hc, hstore⟩ := Option.bind_eq_some_iff.mp hb
  exact (h.resize hc).store hstore

theorem wf_fresh (memory : StaticData) : (fresh memory).Wf :=
  Nat.zero_le _

/-- An operation on one of the arrays. -/
theorem wf_updateAt {arrays arrays' : List ByteArray} {i : Nat}
    {f : ByteArray → Option ByteArray} (h : ∀ a ∈ arrays, a.Wf)
    (hf : ∀ a b, a.Wf → f a = some b → b.Wf)
    (hupdate : updateAt arrays i f = some arrays') :
    ∀ a ∈ arrays', a.Wf := by
  obtain ⟨x, hx, hmap⟩ := Option.bind_eq_some_iff.mp hupdate
  obtain ⟨x', hfx, heq⟩ := Option.map_eq_some_iff.mp hmap
  subst heq
  have hwf := hf x x' (h x (List.mem_of_getElem? hx)) hfx
  intro a ha
  rcases List.mem_or_eq_of_mem_set ha with hold | hnew
  · exact h a hold
  · exact hnew ▸ hwf

/-- No operation breaks the mode of an array: those that change one array keep
its mode's invariant, and a new array is a fresh one or an append to it. -/
theorem wf_step {arrays arrays' : List ByteArray} {op : Op}
    (h : ∀ a ∈ arrays, a.Wf) (hstep : step arrays op = some arrays') :
    ∀ a ∈ arrays', a.Wf := by
  -- a new array behind the others
  have hconcat : ∀ b : ByteArray, b.Wf → ∀ a ∈ arrays ++ [b], a.Wf := by
    intro b hb a ha
    rcases List.mem_append.mp ha with hold | hnew
    · exact h a hold
    · rw [List.mem_singleton.mp hnew]
      exact hb
  cases op with
  | construct memory =>
      cases hstep
      exact hconcat _ (wf_fresh memory)
  | copyConstruct memory j =>
      obtain ⟨b, hb, hmap⟩ := Option.bind_eq_some_iff.mp hstep
      obtain ⟨a, ha, heq⟩ := Option.map_eq_some_iff.mp hmap
      subst heq
      exact hconcat a ((wf_fresh memory).append ha)
  | assign i j =>
      simp only [step, Option.ite_none_left_eq_some] at hstep
      obtain ⟨b, hb, hupdate⟩ := Option.bind_eq_some_iff.mp hstep.2
      apply wf_updateAt h _ hupdate
      intro a c ha hc
      obtain ⟨d, hd, hstore⟩ := Option.bind_eq_some_iff.mp hc
      exact (ha.resize hd).store hstore
  | resize i n => exact wf_updateAt h (fun _ _ ha hb => ha.resize hb) hstep
  | append i src => exact wf_updateAt h (fun _ _ ha hb => ha.append hb) hstep
  | appendByte i v =>
      exact wf_updateAt h (fun _ _ ha hb => ha.append hb) hstep
  | writeAt i position src =>
      apply wf_updateAt h _ hstep
      intro a b ha hb
      exact ha.store (Option.ite_none_right_eq_some.mp hb).2
  | setAt i index v =>
      apply wf_updateAt h _ hstep
      intro a b ha hb
      exact ha.store (Option.ite_none_right_eq_some.mp hb).2

/-- So every program keeps it. -/
theorem run_wf {ops : List Op} {arrays : List ByteArray}
    (hrun : Transition.run step [] ops = some arrays) :
    ∀ a ∈ arrays, a.Wf := by
  have hempty : ∀ a ∈ ([] : List ByteArray), a.Wf := by
    intro a ha
    cases ha
  exact Transition.run_invariant (fun as => ∀ a ∈ as, a.Wf)
    (fun _ _ _ h hstep => wf_step h hstep) hempty hrun

end Invariant

-- =========================================================== the assertions

section Assertions

variable {a : ByteArray}

/-- In the static buffer the length field is the size. -/
theorem accepts_static (h : a.Wf) (hmode : a.usesStaticBuffer = true)
    (x : Access) : (a.accepts x = true ↔ x.Inside a) ↔ x.Guarded a := by
  have hstatic : staticSize = 512 := rfl
  have hnone : a.dynamicData = none := Option.isNone_iff_eq_none.mp hmode
  have hsize : a.size = a.length := by rw [size, hnone]
  have hlength : a.length ≤ staticSize := by
    unfold Wf at h
    rw [hnone] at h
    exact h
  cases x with
  | element index =>
      simp only [accepts, Access.Inside, Access.Guarded, hsize, hmode,
        decide_eq_true_eq, true_or]
  | range position sizeInByte =>
      simp only [accepts, Access.Inside, Access.Guarded, hsize, hmode,
        decide_eq_true_eq, if_true]
      omega

/-- In the vector it is the largest `size_t`. -/
theorem accepts_dynamic (h : a.Wf) (hmode : a.usesStaticBuffer = false)
    (x : Access) : (a.accepts x = true ↔ x.Inside a) ↔ x.Guarded a := by
  have hmax : charVectorMaxSize = 2 ^ 63 - 1 := rfl
  have hsize := size_le h
  obtain ⟨v, hv⟩ : ∃ v, a.dynamicData = some v := by
    apply Option.ne_none_iff_exists'.mp
    intro hnone
    rw [usesStaticBuffer, hnone] at hmode
    cases hmode
  have hlength : a.length = 2 ^ 64 - 1 := by
    unfold Wf at h
    rw [hv] at h
    exact h.2
  cases x with
  | element index =>
      simp only [accepts, Access.Inside, Access.Guarded, hlength, hmode,
        decide_eq_true_eq, Bool.false_eq_true, false_or]
      omega
  | range position sizeInByte =>
      simp only [accepts, Access.Inside, Access.Guarded, hlength, hmode,
        decide_eq_true_eq, Bool.false_eq_true, if_false]
      omega

/-- In every program an array's assertions accept exactly the accesses to
its bytes where the access is guarded. -/
theorem guards_iff {ops : List Op} {arrays : List ByteArray}
    (hrun : Transition.run step [] ops = some arrays) {a : ByteArray}
    (ha : a ∈ arrays) (x : Access) :
    (a.accepts x = true ↔ x.Inside a) ↔ x.Guarded a := by
  have hwf := run_wf hrun a ha
  cases hmode : a.usesStaticBuffer with
  | true => exact accepts_static hwf hmode x
  | false => exact accepts_dynamic hwf hmode x

end Assertions

-- ============================================================== a sample

/-- A program with an array that has grown out of its static buffer. -/
def grownProgram : List Op := [.construct sampleMemory, .resize 0 600]

/-- It has one array, of 600 bytes, and the length field is -1. -/
theorem run_grownProgram :
    ∃ a, Transition.run step [] grownProgram = some [a]
      ∧ a.size = 600 ∧ a.length = 2 ^ 64 - 1 := by
  have hroom : 600 ≤ charVectorMaxSize := by simp [charVectorMaxSize]
  obtain ⟨a, rest, ha, hresized⟩ := resize_spec (wf_fresh sampleMemory) hroom
  refine ⟨a, ?_, hresized.size, ?_⟩
  · show ((some (fresh sampleMemory)).bind fun x =>
      (x.resize 600).map fun x' => [x']).bind (fun s => some s) = _
    rw [Option.bind_some, ha]
    rfl
  · cases ha
    rfl

theorem guards_iff_sample :
    ∃ a, Transition.run step [] grownProgram = some [a]
      ∧ ((a.accepts (.element 599) = true ↔ (Access.element 599).Inside a)
        ↔ (Access.element 599).Guarded a) := by
  obtain ⟨a, hrun, -, -⟩ := run_grownProgram
  exact ⟨a, hrun, guards_iff hrun (List.mem_singleton_self _) _⟩

/-- The element behind the last one is accepted. -/
theorem index_behind_accepted :
    ∃ a, Transition.run step [] grownProgram = some [a]
      ∧ a.accepts (.element 600) = true
      ∧ ¬ (Access.element 600).Inside a := by
  obtain ⟨a, hrun, hsize, hlength⟩ := run_grownProgram
  refine ⟨a, hrun, ?_, ?_⟩
  · rw [accepts, hlength]
    decide
  · rw [Access.Inside, hsize]
    exact Nat.lt_irrefl _

end ByteArray

end IviLogging
