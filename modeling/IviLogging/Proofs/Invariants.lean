/-
What a program keeps of its backends.

An invariant of a backend is proved of its operations one by one. A program
calls them in an order that its statements determine, and this module says
what is kept of the backends by every program, as the rule of a loop does.

# The records

An entry lives while what stands behind its `<<` is evaluated, and that may
log, so records are not done one after the other: those that are not done
are a stack, with the record of the innermost entry on top. What is kept is
said of the contexts that are in use, of that stack and of the state
(`Maintains`). An entry puts a record on the stack and its end takes it
away; what is written changes the one on top.

# The rule

What each operation keeps is kept by every program
(`Maintains.program`), by recursion over its statements. The records that a
program begins it ends, if it is not ended itself: a process that is
aborted leaves those of the entries it was in (`World.Keeps`).

What is kept of a backend by itself is kept of it among others
(`Maintains.component`).
-/
import IviLogging.Proofs.LogContext

namespace IviLogging

variable {V E K M : Type}

/-- What the operations of some backends keep: of the contexts in use, the
records that are not done, and the state. -/
structure Maintains (bs : Backends V E K)
    (Inv : (Nat → Bool) → List bs.Data → bs.State → Prop) : Prop where
  registerContext : ∀ {used ds s c t}, Inv used ds s → used c = false →
    bs.registerContext s c = some t →
    Inv (Function.update used c true) ds t
  init : ∀ {used ds s c info created t d}, Inv used ds s → used c = true →
    bs.init s c info created = some (t, d) → Inv used (d :: ds) t
  write : ∀ {used ds s d v d'}, Inv used (d :: ds) s →
    bs.write s d v = some d' → Inv used (d' :: ds) s
  setHexEnabled : ∀ {used ds s d} enabled, Inv used (d :: ds) s →
    Inv used (bs.setHexEnabled d enabled :: ds) s
  destroy : ∀ {used ds s d destroyed t}, Inv used (d :: ds) s →
    bs.destroy s d destroyed = some t → Inv used ds t
  control : ∀ {used ds s command t}, Inv used ds s →
    bs.control s command = some t → Inv used ds t

/-- It holds of the process with these records, and with some more if the
process has ended. -/
def World.Keeps {bs : Backends V E K}
    (Inv : (Nat → Bool) → List bs.Data → bs.State → Prop)
    (ds : List bs.Data) (w : World bs M) : Prop :=
  ∃ begun, Inv w.registered (begun ++ ds) w.state
    ∧ (w.aborted = false → begun = [])

namespace Maintains

section Component

variable {part whole : Backends V E K}
  {Inv : (Nat → Bool) → List part.Data → part.State → Prop}

/-- Among others: the part of each record that is the component's. -/
theorem component (keep : Maintains part Inv) (π : Component part whole) :
    Maintains whole fun used ds s => Inv used (ds.map π.data) (π.state s) where
  registerContext hinv hunused h :=
    keep.registerContext hinv hunused (π.registerContext h)
  init hinv hused h := keep.init hinv hused (π.init h)
  write hinv h := keep.write hinv (π.write h)
  setHexEnabled enabled hinv := by
    rw [List.map_cons, π.setHexEnabled]
    exact keep.setHexEnabled enabled hinv
  destroy hinv h := keep.destroy hinv (π.destroy h)
  control hinv h := keep.control hinv (π.control h)

end Component

variable {bs : Backends V E K}
  {Inv : (Nat → Bool) → List bs.Data → bs.State → Prop} {ds : List bs.Data}

/-- A process that goes on has no more records than before. -/
theorem of_alive {w : World bs M} (h : w.Keeps Inv ds)
    (halive : w.aborted = false) : Inv w.registered ds w.state := by
  obtain ⟨begun, hinv, hnone⟩ := h
  rw [hnone halive] at hinv
  exact hinv

/-- No record is left over. -/
theorem keeps {w : World bs M} (hinv : Inv w.registered ds w.state) :
    w.Keeps Inv ds :=
  ⟨[], hinv, fun _ => rfl⟩

/-- A first use of a context, behind which it is in use. -/
theorem checkContext (keep : Maintains bs Inv) {w w' : World bs M}
    (hinv : Inv w.registered ds w.state) {c : Nat}
    (h : w.checkContext c = some w') :
    Inv w'.registered ds w'.state ∧ w'.registered c = true := by
  unfold World.checkContext at h
  by_cases hregistered : w.registered c = true
  · rw [if_pos hregistered] at h
    cases h
    exact ⟨hinv, hregistered⟩
  · rw [if_neg hregistered] at h
    obtain ⟨t, ht, rfl⟩ := Option.map_eq_some_iff.mp h
    have hunused := Bool.eq_false_iff.mpr hregistered
    exact ⟨keep.registerContext hinv hunused ht, Function.update_self ..⟩

/-- The end of an entry is the end of its record, unless the process ended
before. -/
theorem destroyEntry (keep : Maintains bs Inv) {w w' : World bs M}
    {info : LogInfo} {destroyed : E} {d : bs.Data}
    (h : w.Keeps Inv (d :: ds))
    (hend : w.destroyEntry info destroyed d = some w') :
    w'.Keeps Inv ds := by
  unfold World.destroyEntry at hend
  by_cases haborted : w.aborted = true
  · rw [if_pos haborted] at hend
    cases hend
    obtain ⟨begun, hinv, -⟩ := h
    -- the process ended inside, and the record stays on the stack
    refine ⟨begun ++ [d], ?_, fun halive => ?_⟩
    · rw [List.append_assoc]
      exact hinv
    · rw [haborted] at halive
      cases halive
  · rw [if_neg haborted] at hend
    obtain ⟨t, ht, rfl⟩ := Option.map_eq_some_iff.mp hend
    have hinv := of_alive h (Bool.eq_false_iff.mpr haborted)
    exact ⟨[], keep.destroy hinv ht, fun _ => rfl⟩

mutual

/-- What is kept is kept by a statement. The four theorems are one induction
over the syntax: the records of the open entries are a stack, and a
statement leaves it as it was, -/
theorem exec (keep : Maintains bs Inv) {ds : List bs.Data}
    {w w' : World bs M} (hinv : Inv w.registered ds w.state)
    (s : LogStatement V E K M) (h : w.exec s = some w') :
    w'.Keeps Inv ds := by
  match s with
  | .compute f =>
      cases h
      exact keeps (w := { w with memory := f w.memory }) hinv
  | .control command =>
      obtain ⟨t, ht, rfl⟩ := Option.map_eq_some_iff.mp h
      exact keeps (w := { w with state := t }) (keep.control hinv ht)
  | .log c info created destroyed operands =>
      rw [World.exec] at h
      obtain ⟨w₁, hcheck, h⟩ := Option.bind_eq_some_iff.mp h
      obtain ⟨hinv₁, hused⟩ := keep.checkContext hinv hcheck
      by_cases henabled : bs.isEnabled w₁.state c info.level = true
      · rw [if_pos henabled] at h
        obtain ⟨r, hcreate, hentry⟩ := Option.bind_eq_some_iff.mp h
        obtain ⟨⟨t, d⟩, hinit, rfl⟩ := Option.map_eq_some_iff.mp hcreate
        obtain ⟨⟨w₂, d₂⟩, hstream, hend⟩ := Option.bind_eq_some_iff.mp hentry
        -- the record is on top while the operands are evaluated
        have hrecord := keep.init hinv₁ hused hinit
        exact keep.destroyEntry
          (keep.stream (keeps (w := { w₁ with state := t }) hrecord) operands
            hstream) hend
      · rw [if_neg henabled] at h
        cases h
        exact keeps hinv₁

/-- by some statements, -/
theorem execAll (keep : Maintains bs Inv) {ds : List bs.Data}
    {w w' : World bs M} (hkeeps : w.Keeps Inv ds)
    (ss : List (LogStatement V E K M)) (h : w.execAll ss = some w') :
    w'.Keeps Inv ds := by
  match ss with
  | [] =>
      cases h
      exact hkeeps
  | s :: rest =>
      rw [World.execAll] at h
      by_cases haborted : w.aborted = true
      · rw [if_pos haborted] at h
        cases h
        exact hkeeps
      · rw [if_neg haborted] at h
        obtain ⟨w₁, hfirst, hrest⟩ := Option.bind_eq_some_iff.mp h
        have halive := Bool.eq_false_iff.mpr haborted
        exact keep.execAll (keep.exec (of_alive hkeeps halive) s hfirst) rest
          hrest

/-- by what stands behind a `<<`, which changes the record of its entry, -/
theorem insert (keep : Maintains bs Inv) {ds : List bs.Data}
    {w w' : World bs M} {d d' : bs.Data}
    (hinv : Inv w.registered (d :: ds) w.state)
    (operand : LogOperand V E K M)
    (h : w.insert d operand = some (w', d')) :
    w'.Keeps Inv (d' :: ds) := by
  match operand with
  | .setHexEnabled enabled =>
      cases h
      exact keeps (keep.setHexEnabled enabled hinv)
  | .insert evaluation value =>
      rw [World.insert] at h
      obtain ⟨w₁, heval, h⟩ := Option.bind_eq_some_iff.mp h
      -- what is evaluated logs above the record, and ends what it begins
      have hkeeps := keep.execAll (keeps hinv) evaluation heval
      by_cases haborted : w₁.aborted = true
      · rw [if_pos haborted] at h
        cases h
        exact hkeeps
      · rw [if_neg haborted] at h
        obtain ⟨d₁, hwrite, heq⟩ := Option.map_eq_some_iff.mp h
        cases heq
        exact keeps (keep.write
          (of_alive hkeeps (Bool.eq_false_iff.mpr haborted)) hwrite)

/-- and by all of that. -/
theorem stream (keep : Maintains bs Inv) {ds : List bs.Data}
    {w w' : World bs M} {d d' : bs.Data} (hkeeps : w.Keeps Inv (d :: ds))
    (operands : List (LogOperand V E K M))
    (h : w.stream d operands = some (w', d')) :
    w'.Keeps Inv (d' :: ds) := by
  match operands with
  | [] =>
      cases h
      exact hkeeps
  | operand :: rest =>
      rw [World.stream] at h
      by_cases haborted : w.aborted = true
      · rw [if_pos haborted] at h
        cases h
        exact hkeeps
      · rw [if_neg haborted] at h
        obtain ⟨⟨w₁, d₁⟩, hfirst, hrest⟩ := Option.bind_eq_some_iff.mp h
        have halive := Bool.eq_false_iff.mpr haborted
        exact keep.stream
          (keep.insert (of_alive hkeeps halive) operand hfirst) rest hrest

end

/-- A program, which begins with no records. -/
theorem program (keep : Maintains bs Inv) {w w' : World bs M}
    (hinv : Inv w.registered [] w.state) {p : List (LogStatement V E K M)}
    (h : w.execAll p = some w') : w'.Keeps Inv [] :=
  keep.execAll (keeps hinv) p h

end Maintains

end IviLogging
