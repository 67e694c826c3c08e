/-
What the DLT library gets to see.

This backend does not talk to the daemon itself, it calls the DLT library.
What the library makes of the calls is not under the control of the source;
in which order they come is.

# The order

`Ordered` says of a list of calls that each is allowed behind those in
front of it. The application is registered first, in one call or in two,
and only then its contexts, each of them once and in front of its messages.
A message ends behind its own start, which the library has accepted.
Messages nest, and two of one context and level may be open at once, so
what is allowed is a matter of counting: a message may end as long as fewer
have ended than have begun.

# The invariant

So the invariant counts as well (`Orderly`): of the messages of a context
and a level as many have begun as have ended, and as have a record that is
enabled. Each operation is one more call, behind which the numbers are
right again (`Orderly.call`). A start adds to what has begun and puts a
record on the stack; the end of the record adds to what has ended. What a
value is written as does not matter here (`open_write`). A context in use
is registered, and that is behind the application (`Orderly.app_of_used`).

# The programs

The invariant is one of the operations of a backend, so it is kept by every
program and among other backends (`maintains_orderly`). Unless the process
was ended there is no record left, and every message that was begun has an
end (`library_calls_ordered`).
-/
import IviLogging.Dlt.Context
import IviLogging.Proofs.ContextTypes
import IviLogging.Proofs.Invariants

namespace IviLogging.Dlt

open DltCpp (DltConstants)

-- ================================================================= the calls

namespace LibraryCall

/-- The registration of a context. -/
def registers (c : Nat) : LibraryCall → Bool
  | .registerContext c' _ _ => decide (c' = c)
  | _ => false

/-- The start of a message, if the library accepts it. -/
def begins (c : Nat) (level : Int) : LibraryCall → Bool
  | .logWriteStart c' level' result =>
      decide (c' = c ∧ level' = level ∧ 0 < result)
  | _ => false

/-- The end of a message. -/
def ends (c : Nat) (level : Int) : LibraryCall → Bool
  | .logWriteFinish c' level' _ => decide (c' = c ∧ level' = level)
  | _ => false

end LibraryCall

open LibraryCall

/-- The calls that register the application: one, and another one with the
PID as the id if the library does not take the first. -/
def registration (env : Environment) : Option (List LibraryCall) := do
  let id := cText env.app.id.chars
  let description ← DltContexts.formatted 1024 DltContexts.descriptionFormat
    [.string (cText env.app.description.chars ++ [0]),
      .word32 env.pid.toUInt32]
  if env.registerApp id description ≠ 0 then do
    let pidAsHexString ←
      DltContexts.formatted 5 [37, 88] [.word32 env.pid.toUInt32]
    some [.registerApp id description,
      .registerApp pidAsHexString description]
  else some [.registerApp id description]

/-- What the library may be called with behind some calls, of which the
registration of the application is none. -/
def Allowed (parent : Nat → LogContextCommon) (before : List LibraryCall) :
    LibraryCall → Prop
  | .registerApp _ _ => False
  | .registerContext c id description =>
      before.countP (registers c) = 0 ∧ id = cText (parent c).id.chars
        ∧ description = cText (parent c).description.chars
  | .logWriteStart c _ _ => before.countP (registers c) = 1
  | .logWriteFinish c level _ =>
      before.countP (ends c level) < before.countP (begins c level)

/-- All calls are such. -/
def Ordered (parent : Nat → LogContextCommon) (calls : List LibraryCall) :
    Prop :=
  ∀ before call after, calls = before ++ call :: after →
    Allowed parent before call

/-- No call at all. -/
theorem Ordered.nil (parent : Nat → LogContextCommon) : Ordered parent [] := by
  intro before call after h
  exact absurd h.symm (by simp)

/-- One call more, which is allowed behind the others. -/
theorem Ordered.concat {parent : Nat → LogContextCommon}
    {calls : List LibraryCall} {call : LibraryCall} (h : Ordered parent calls)
    (hcall : Allowed parent calls call) : Ordered parent (calls ++ [call]) := by
  intro before call' after heq
  rcases List.eq_nil_or_concat after with rfl | ⟨after, last, rfl⟩
  · obtain ⟨rfl, hlast⟩ := List.append_inj' heq rfl
    cases hlast
    exact hcall
  · rw [List.concat_eq_append, ← List.cons_append, ← List.append_assoc]
      at heq
    exact h before call' after (List.append_inj' heq rfl).1

-- ============================================================= the invariant

/-- The record has begun a message of this context and level. -/
def LogData.isOpen (c : Nat) (level : Int) (d : LogData) : Bool :=
  d.enabled && decide (d.context = c ∧ d.dltLogLevel = level)

/-- The calls so far: those that register the application, and the rest, which
is ordered. Each context in use has been registered once, and the messages
that have begun are those that have ended and those that have a record. -/
structure Orderly (env : Environment) (parent : Nat → LogContextCommon)
    (used : Nat → Bool) (ds : List LogData) (s : DltContexts)
    (first rest : List LibraryCall) : Prop where
  contextsOf : s.parent = parent
  calls : s.calls = first ++ rest
  app : s.appRegistered = true → registration env = some first
  none : s.appRegistered = false → first = [] ∧ rest = []
  ordered : Ordered parent rest
  contexts : ∀ c, rest.countP (registers c) = if used c then 1 else 0
  messages : ∀ c level, rest.countP (begins c level)
    = rest.countP (ends c level) + ds.countP (LogData.isOpen c level)

section Protocol

variable {env : Environment} {parent : Nat → LogContextCommon}
  {used : Nat → Bool} {ds : List LogData} {s : DltContexts}
  {first rest : List LibraryCall}

/-- One more call, behind which some records are open. What it has to be is
that it is allowed behind the others, and that it leaves both counts right:
the registrations of each context, and for each context and level the
starts, which are the ends and the records that are still open. -/
theorem Orderly.call (h : Orderly env parent used ds s first rest)
    (happ : s.appRegistered = true) {call : LibraryCall}
    (hcall : Allowed parent rest call) {used' : Nat → Bool}
    {ds' : List LogData}
    (hcontexts : ∀ c, (rest.countP (registers c)
      + if registers c call then 1 else 0) = if used' c then 1 else 0)
    (hmessages : ∀ c level,
      (rest.countP (begins c level) + if begins c level call then 1 else 0)
        = (rest.countP (ends c level) + if ends c level call then 1 else 0)
          + ds'.countP (LogData.isOpen c level)) :
    Orderly env parent used' ds' (s.call call) first (rest ++ [call]) where
  contextsOf := h.contextsOf
  calls := by
    show s.calls ++ [call] = _
    rw [h.calls, List.append_assoc]
  app := h.app
  none hnot := absurd (happ.symm.trans hnot) Bool.noConfusion
  ordered := h.ordered.concat hcall
  contexts c := by
    rw [List.countP_append, List.countP_singleton]
    exact hcontexts c
  messages c level := by
    rw [List.countP_append, List.countP_append, List.countP_singleton,
      List.countP_singleton]
    exact hmessages c level

/-- The registration of the application makes its calls, if the texts of the id
and of the description can be made. -/
theorem registerDLTApp_eq (env : Environment) (s : DltContexts) :
    s.registerDLTApp env (cText env.app.id.chars)
        (cText env.app.description.chars)
      = (registration env).map fun first =>
          { s with calls := s.calls ++ first, appRegistered := true } := by
  unfold DltContexts.registerDLTApp registration
  cases DltContexts.formatted 1024 DltContexts.descriptionFormat
      [.string (cText env.app.description.chars ++ [0]),
        .word32 env.pid.toUInt32] with
  | none => rfl
  | some description =>
      simp only [Option.bind_eq_bind, Option.bind_some]
      split
      · cases DltContexts.formatted 5 [37, 88]
            [.word32 env.pid.toUInt32] with
        | none => rfl
        | some pidAsHexString => simp [DltContexts.call]
      · rfl

/-- A context registers behind the application. The first one registers the
application as well, in front of itself; then its own registration is one
more call, which is allowed as long as there was none. -/
theorem Orderly.registerContext (h : Orderly env parent used ds s first rest)
    {c : Nat} (hunused : used c = false) {t : DltContexts}
    (ht : s.registerContext env c = some t) :
    ∃ first' rest', Orderly env parent (Function.update used c true) ds t
      first' rest' := by
  obtain ⟨s₁, hs₁, rfl⟩ := Option.map_eq_some_iff.mp ht
  -- the first context registers the application
  have happ : ∃ first', Orderly env parent used ds s₁ first' rest
      ∧ s₁.appRegistered = true := by
    cases happ : s.appRegistered with
    | true =>
        rw [if_pos happ] at hs₁
        cases hs₁
        exact ⟨first, h, happ⟩
    | false =>
        rw [if_neg (by rw [happ]; exact Bool.noConfusion),
          registerDLTApp_eq] at hs₁
        obtain ⟨first', hfirst', rfl⟩ := Option.map_eq_some_iff.mp hs₁
        obtain ⟨rfl, rfl⟩ := h.none happ
        refine ⟨first', ⟨h.contextsOf, ?_, fun _ => hfirst', ?_, h.ordered,
          h.contexts, h.messages⟩, rfl⟩
        · show s.calls ++ first' = _
          rw [h.calls, List.append_nil, List.nil_append, List.append_nil]
        · intro hnot
          cases hnot
  obtain ⟨first', h₁, happ⟩ := happ
  have hcount := h₁.contexts c
  rw [hunused] at hcount
  have hcalled : Orderly env parent (Function.update used c true) ds
      (s₁.call (.registerContext c (cText (parent c).id.chars)
        (cText (parent c).description.chars))) first'
      (rest ++ [.registerContext c (cText (parent c).id.chars)
        (cText (parent c).description.chars)]) := by
    have hallowed : Allowed parent rest (.registerContext c
        (cText (parent c).id.chars) (cText (parent c).description.chars)) :=
      ⟨hcount, rfl, rfl⟩
    -- its own registrations are one more, and all else is as it was
    refine h₁.call happ hallowed (fun c' => ?_) fun c' level => ?_
    · by_cases hc : c' = c
      · subst hc
        simp [registers, hcount]
      · rw [h₁.contexts c', Function.update_of_ne hc]
        simp [registers, Ne.symm hc]
    · simpa [begins, ends] using h₁.messages c' level
  refine ⟨first', _, ⟨hcalled.contextsOf, ?_, hcalled.app, hcalled.none,
    hcalled.ordered, hcalled.contexts, hcalled.messages⟩⟩
  rw [← hcalled.calls, h₁.contextsOf]

/-- A context in use is behind the registration of the application. -/
theorem Orderly.app_of_used (h : Orderly env parent used ds s first rest)
    {c : Nat} (hused : used c = true) : s.appRegistered = true := by
  by_contra hnot
  obtain ⟨-, hrest⟩ := h.none (Bool.eq_false_iff.mpr hnot)
  have hcount := h.contexts c
  rw [hrest, hused] at hcount
  cases hcount

/-- A message begins on a context in use. -/
theorem Orderly.logWriteStart (h : Orderly env parent used ds s first rest)
    {d : LogData} {result : Int} (hused : used d.context = true)
    (henabled : d.enabled = decide (0 < result)) :
    ∃ rest', Orderly env parent used (d :: ds)
      (s.call (.logWriteStart d.context d.dltLogLevel result)) first
      rest' := by
  have hcontext : rest.countP (registers d.context) = 1 :=
    (h.contexts d.context).trans (if_pos hused)
  have hallowed : Allowed parent rest
      (.logWriteStart d.context d.dltLogLevel result) := hcontext
  refine ⟨_, h.call (h.app_of_used hused) hallowed (fun c => ?_)
    fun c level => ?_⟩
  · simpa [registers] using h.contexts c
  · have hopen : begins c level
        (.logWriteStart d.context d.dltLogLevel result) = d.isOpen c level := by
      rw [Bool.eq_iff_iff]
      simp only [begins, LogData.isOpen, henabled, Bool.and_eq_true,
        decide_eq_true_eq]
      tauto
    -- the start counts exactly if the record is enabled
    rw [hopen, h.messages c level, List.countP_cons]
    simp only [ends, Bool.false_eq_true, if_false]
    omega

/-- A message ends that has begun: its record is on the stack, so of its
context and level more have begun than have ended. -/
theorem Orderly.logWriteFinish {d : LogData}
    (h : Orderly env parent used (d :: ds) s first rest)
    (henabled : d.enabled = true) (written : List UserLogWrite) :
    ∃ rest', Orderly env parent used ds
      (s.call (.logWriteFinish d.context d.dltLogLevel written)) first
      rest' := by
  have hself : d.isOpen d.context d.dltLogLevel = true := by
    simp [LogData.isOpen, henabled]
  have hcount := h.messages d.context d.dltLogLevel
  rw [List.countP_cons, if_pos hself] at hcount
  -- a message has begun, so there were calls
  have happ : s.appRegistered = true := by
    by_contra hnot
    obtain ⟨-, hrest⟩ := h.none (Bool.eq_false_iff.mpr hnot)
    rw [hrest] at hcount
    simp at hcount
  have hallowed : Allowed parent rest
      (.logWriteFinish d.context d.dltLogLevel written) := by
    show rest.countP (ends d.context d.dltLogLevel)
      < rest.countP (begins d.context d.dltLogLevel)
    omega
  refine ⟨_, h.call happ hallowed (fun c => ?_) fun c level => ?_⟩
  · simpa [registers] using h.contexts c
  · have hends : ends c level
        (.logWriteFinish d.context d.dltLogLevel written)
          = d.isOpen c level := by
      simp [ends, LogData.isOpen, henabled]
    rw [hends, h.messages c level, List.countP_cons]
    simp only [begins, Bool.false_eq_true, if_false]
    omega

/-- A record that has begun no message ends. -/
theorem Orderly.dropped {d : LogData}
    (h : Orderly env parent used (d :: ds) s first rest)
    (hdisabled : d.enabled = false) :
    Orderly env parent used ds s first rest :=
  { h with
    messages := by
      intro c level
      have hclosed : d.isOpen c level = false := by
        simp [LogData.isOpen, hdisabled]
      rw [h.messages c level, List.countP_cons, hclosed]
      rfl }

/-- A value is written into the message that the record has. -/
theorem open_write {d d' : LogData} {v : WriteCall} (h : d.write v = some d') :
    (fun c level => d'.isOpen c level) = d.isOpen := by
  -- a string view goes through a buffer, and is left out if the record is not
  -- enabled
  have hput : d' = d ∨ ∃ w, d' = d.put w := by
    cases v with
    | stringView v =>
        have hformatted : d.writeFormatted (ascii ['%', '.', '*', 's'])
            [.word32 (UInt32.ofNat v.length), .string v] = some d' := h
        unfold LogData.writeFormatted at hformatted
        split at hformatted
        · obtain ⟨buffer, -, rfl⟩ := Option.map_eq_some_iff.mp hformatted
          exact .inr ⟨_, rfl⟩
        · exact .inl (Option.some.inj hformatted).symm
    | _ => exact .inr ⟨_, (Option.some.inj h).symm⟩
  rcases hput with rfl | ⟨w, rfl⟩ <;> rfl

/-- Nothing but what makes it open is looked at in a record. -/
theorem Orderly.congr {d d' : LogData}
    (h : Orderly env parent used (d :: ds) s first rest)
    (hopen : ∀ c level, d'.isOpen c level = d.isOpen c level) :
    Orderly env parent used (d' :: ds) s first rest :=
  { h with
    messages := by
      intro c level
      rw [h.messages c level, List.countP_cons, List.countP_cons,
        hopen c level] }

/-- There are no calls in the beginning. -/
theorem orderly_initial (hunused : ∀ c, used c = false) :
    Orderly env parent used [] { parent := parent } [] [] where
  contextsOf := rfl
  calls := rfl
  app h := nomatch h
  none _ := ⟨rfl, rfl⟩
  ordered := .nil parent
  contexts c := by
    rw [hunused c]
    rfl
  messages _ _ := rfl

variable [DltConstants]

/-- The order of the calls is kept by each operation of the backend. Only a
registration, a start and a finish make calls; a write changes a record in
what no count looks at, and a level is set without the library. -/
theorem maintains_orderly (env : Environment)
    (parent : Nat → LogContextCommon) :
    Maintains (.ofList [dltContextClass env]) fun used ds s =>
      ∃ first rest,
        Orderly env parent used (ds.map Prod.fst) s.1 first rest where
  registerContext := by
    rintro used ds s c t ⟨first, rest, h⟩ hunused ht
    exact h.registerContext hunused (Backends.registerContext_single ht)
  init := by
    rintro used ds s c info created t d ⟨first, rest, h⟩ hused ht
    have hinit := Option.some.inj (Backends.init_single ht)
    obtain ⟨hstate, hrecord⟩ := Prod.mk.inj hinit
    refine ⟨first, ?_⟩
    show ∃ rest, Orderly env parent used (d.1 :: ds.map Prod.fst) t.1 _ rest
    rw [← hstate, ← hrecord]
    exact h.logWriteStart hused rfl
  write := by
    rintro used ds s d v d' ⟨first, rest, h⟩ hwrite
    refine ⟨first, rest, h.congr fun c level => ?_⟩
    have hpart := Backends.write_single hwrite
    by_cases henabled : (dltContextClass env).dataEnabled s.1 d.1 = true
    · rw [if_pos henabled] at hpart
      exact congrFun (congrFun (open_write hpart) c) level
    · rw [if_neg henabled] at hpart
      rw [Option.some.inj hpart]
  setHexEnabled := by
    rintro used ds s d enabled ⟨first, rest, h⟩
    exact ⟨first, rest, h.congr fun _ _ => rfl⟩
  destroy := by
    rintro used ds s d destroyed t ⟨first, rest, h⟩ ht
    have hdestroy : (if d.1.enabled then some _ else some _) = some t.1 :=
      Backends.destroy_single ht
    by_cases henabled : d.1.enabled = true
    · rw [if_pos henabled] at hdestroy
      rw [← Option.some.inj hdestroy]
      exact ⟨first, h.logWriteFinish henabled _⟩
    · rw [if_neg henabled] at hdestroy
      rw [← Option.some.inj hdestroy]
      exact ⟨first, rest, h.dropped (Bool.eq_false_iff.mpr henabled)⟩
  control := by
    rintro used ds s command t ⟨first, rest, h⟩ ht
    have hcontrol := Backends.control_single ht
    refine ⟨first, rest, ?_⟩
    cases command with
    | setActiveLogLevel c level =>
        rw [← Option.some.inj hcontrol]
        exact ⟨h.contextsOf, h.calls, h.app, h.none, h.ordered, h.contexts,
          h.messages⟩
    | stream event =>
        rw [← Option.some.inj hcontrol]
        exact h
    | receive chunk =>
        rw [← Option.some.inj hcontrol]
        exact h

/-- Whatever a program logs, from the start of its process on: the library
gets to see the application first, then every context once, in front of its
messages, with the ids that it was created with; a message ends behind its
start, which the library has accepted, and only once. If the process was not
ended, every message has an end. -/
theorem library_calls_ordered (parent : Nat → LogContextCommon)
    (front back : List (BackendType NativeValue Moment Command)) {M : Type}
    {p : List (LogStatement NativeValue Moment Command M)}
    {w w' : World (.ofList (front ++ dltContextClass env :: back)) M}
    (hstart : ((Component.only (dltContextClass env) back front).state
      w.state).1 = { parent := parent })
    (hunused : ∀ c, w.registered c = false)
    (hrun : w.execAll p = some w') :
    ∃ first rest,
      (((Component.only (dltContextClass env) back front).state
          w'.state).1 : DltContexts).calls = first ++ rest
        ∧ (registration env = some first ∨ first = [] ∧ rest = [])
        ∧ Ordered parent rest
        ∧ (w'.aborted = false → ∀ c level,
          rest.countP (begins c level) = rest.countP (ends c level)) := by
  have hinitial : Orderly env parent w.registered []
      ((Component.only (dltContextClass env) back front).state w.state).1
      [] [] :=
    hstart.symm ▸ orderly_initial hunused
  have keep := (maintains_orderly env parent).component
    (Component.only (dltContextClass env) back front)
  obtain ⟨begun, ⟨first, rest, h⟩, hnone⟩ :=
    keep.program ⟨[], [], hinitial⟩ hrun
  refine ⟨first, rest, h.calls, ?_, h.ordered, fun halive c level => ?_⟩
  · cases happ : (((Component.only (dltContextClass env) back front).state
        w'.state).1 : DltContexts).appRegistered with
    | true => exact .inl (h.app happ)
    | false => exact .inr (h.none happ)
  · rw [h.messages c level, hnone halive]
    rfl

end Protocol

-- ================================================================== a sample

/-- A process whose id the library does not take, and that is registered by
its PID. -/
def sampleEnvironment : Environment where
  pid := 4711
  app := sampleApp
  base := ⟨false, false⟩
  registerApp id _ := if id = sampleApp.id.chars then -1 else 0
  registeredLevel _ := some 4

/-- The process, at its start. -/
def sampleWorld : World (.ofList
    [@dltContextClass DltCpp.documentedConstants sampleEnvironment])
    Unit where
  memory := ()
  registered _ := false
  state := ({ parent := fun _ => sampleContext }, ())
  aborted := false

theorem library_calls_ordered_sample :
    ∃ w', sampleWorld.execAll sampleProgram = some w'
      ∧ ∃ first rest, w'.state.1.calls = first ++ rest
        ∧ (registration sampleEnvironment = some first
          ∨ first = [] ∧ rest = [])
        ∧ Ordered (fun _ => sampleContext) rest
        ∧ (w'.aborted = false → ∀ c level,
          rest.countP (begins c level) = rest.countP (ends c level)) := by
  have hrun : (sampleWorld.execAll sampleProgram).isSome = true := by
    decide
  obtain ⟨w', hw'⟩ := Option.isSome_iff_exists.mp hrun
  exact ⟨w', hw', @library_calls_ordered sampleEnvironment
    DltCpp.documentedConstants (fun _ => sampleContext) [] [] _ _ _ _ rfl
    (fun _ => rfl) hw'⟩

end IviLogging.Dlt
