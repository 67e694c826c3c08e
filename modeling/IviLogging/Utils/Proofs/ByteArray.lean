/-
A byte array is a plain growable vector.

`ByteArray` begins in a static buffer of 512 bytes and goes over to a vector
when it has to grow beyond that. From outside it should be one thing: a
sequence of bytes that can be resized, appended to and copied.

# The vector

That thing is a list. A `resize` adds elements that nobody has given a
value, in the static buffer whatever was there and in the vector zeros, so
the elements of the list may be open (`PartialVector`). Its operations are
those of lists (`vectorStep`).

# The refinement

`Refines` ties a byte array to such a list: the mode's invariant, the size,
and the known elements. Three lemmas say what `resize` does, in either mode
and where it switches between them (`resize_dynamic`, `resize_static`,
`resize_switch`); behind `resize_spec` nobody asks for the mode again. The
same is so of a copy into the bytes (`store_spec`). The other operations are
made of these two: `append` resizes and stores, and so do a copy and an
assignment.

# The programs

Every operation that the vectors can do, the byte arrays do as well and stay
with them (`RefinesAll.step`), wherever the 512 bytes lie. So every program
runs on the byte arrays if it runs on the vectors
(`byteArray_refines_vector`); that is a simulation, from the library.
-/
import IviLogging.Lib.PartialVector
import IviLogging.Lib.Transition
import IviLogging.Utils.ByteArray

namespace IviLogging

open PartialVector (Agrees)

namespace ByteArray

-- ============================================================ the vector

/-- The vectors after an operation of the program; `none` for an index out
of range, and for more bytes than a vector can have. -/
def vectorStep (vectors : List (List (Option UInt8))) :
    Op → Option (List (List (Option UInt8)))
  | .construct _ => some (vectors ++ [[]])
  | .copyConstruct _ j => vectors[j]?.map fun ys => vectors ++ [ys]
  | .assign i j =>
      if i = j then none
      else vectors[j]?.bind fun ys => updateAt vectors i fun _ => some ys
  | .resize i n => updateAt vectors i fun xs =>
      if n ≤ charVectorMaxSize then some (PartialVector.resize xs n) else none
  | .append i src => updateAt vectors i fun xs =>
      if xs.length + src.length ≤ charVectorMaxSize then
        some (xs ++ src.map some)
      else none
  | .appendByte i v => updateAt vectors i fun xs =>
      if xs.length + 1 ≤ charVectorMaxSize then some (xs ++ [some v])
      else none
  | .writeAt i position src => updateAt vectors i fun xs =>
      if position + src.length ≤ xs.length then
        some (Buffer.write xs position (src.map some))
      else none
  | .setAt i index v => updateAt vectors i fun xs =>
      if index < xs.length then some (xs.set index (some v)) else none

-- ========================================================= the refinement

/-- The static length fits the static buffer; in dynamic mode the field is
-1. -/
def Wf (a : ByteArray) : Prop :=
  match a.dynamicData with
  | none => a.length ≤ staticSize
  | some v => v.elements.length ≤ charVectorMaxSize ∧ a.length = 2 ^ 64 - 1

/-- The array is the vector. -/
structure Refines (a : ByteArray) (xs : List (Option UInt8)) : Prop where
  wf : a.Wf
  size : a.size = xs.length
  agrees : Agrees xs a.contents

/-- The contents are in the static buffer, -/
theorem contents_static {a : ByteArray} (h : a.dynamicData = none) :
    a.contents = a.staticData.bytes.take a.length := by
  rw [contents, getData, size, h]

/-- or they are the elements of the vector. -/
theorem contents_dynamic {a : ByteArray} {v : CharVector}
    (h : a.dynamicData = some v) : a.contents = v.elements := by
  rw [contents, getData, size, h]
  exact List.take_left

/-- There are as many as the size says. -/
theorem length_contents {a : ByteArray} (h : a.Wf) :
    a.contents.length = a.size := by
  unfold Wf at h
  cases hmode : a.dynamicData with
  | none =>
      rw [hmode] at h
      rw [contents_static hmode, List.length_take, a.staticData.length_eq,
        size, hmode]
      exact Nat.min_eq_left h
  | some v => rw [contents_dynamic hmode, size, hmode]

/-- No array has more bytes than a vector can have. -/
theorem size_le {a : ByteArray} (h : a.Wf) : a.size ≤ charVectorMaxSize := by
  have hstatic : staticSize = 512 := rfl
  have hmax : charVectorMaxSize = 2 ^ 63 - 1 := rfl
  unfold Wf at h
  unfold size
  cases hmode : a.dynamicData with
  | none =>
      rw [hmode] at h
      show a.length ≤ charVectorMaxSize
      omega
  | some v =>
      rw [hmode] at h
      exact h.1

/-- Neither mode has less room than bytes. -/
theorem size_le_capacity {a : ByteArray} (h : a.Wf) :
    a.size ≤ a.capacity := by
  unfold Wf at h
  unfold size capacity
  cases hmode : a.dynamicData with
  | none =>
      rw [hmode] at h
      exact h
  | some v => exact Nat.le_refl _

/-- The length field is the size, or too large to be one. -/
theorem size_le_length {a : ByteArray} (h : a.Wf) : a.size ≤ a.length := by
  have hmax : charVectorMaxSize = 2 ^ 63 - 1 := rfl
  unfold Wf at h
  unfold size
  cases hmode : a.dynamicData with
  | none => exact Nat.le_refl _
  | some v =>
      rw [hmode] at h
      obtain ⟨hle, hlength⟩ := h
      show v.elements.length ≤ a.length
      omega

/-- The array after a `resize` to `n`: the first bytes are kept, and those that
are new may be any. -/
structure Resized (a : ByteArray) (n : Nat) (b : ByteArray)
    (rest : List UInt8) : Prop where
  wf : b.Wf
  size : b.size = n
  contents : b.contents = a.contents.take n ++ rest
  length : rest.length = n - a.size

/-- The vector is resized: it is cut, and what was behind stays in its memory,
or it fills up with zeros. -/
theorem resize_dynamic {a : ByteArray} (h : a.Wf) {v : CharVector}
    (hmode : a.dynamicData = some v) {n : Nat} (hn : n ≤ charVectorMaxSize) :
    ∃ b rest, a.resize n = some b ∧ Resized a n b rest := by
  unfold Wf at h
  rw [hmode] at h
  obtain ⟨hmax, hlength⟩ := h
  have hsize : a.size = v.elements.length := by rw [size, hmode]
  simp only [resize, hmode, if_pos hn]
  -- a vector is cut, or filled up
  by_cases hle : n ≤ v.elements.length
  · have hcut : (v.resize n).elements = v.elements.take n := by
      rw [CharVector.resize, if_pos hle]
    have hcount : (v.resize n).elements.length = n := by
      rw [hcut, List.length_take]
      exact Nat.min_eq_left hle
    refine ⟨_, [], rfl, ⟨?_, hlength⟩, hcount, ?_, ?_⟩
    · rw [hcount]
      exact hn
    · rw [contents_dynamic rfl, contents_dynamic hmode, List.append_nil]
      exact hcut
    · rw [hsize, List.length_nil]
      omega
  · have hgrown : (v.resize n).elements
        = v.elements ++ List.replicate (n - v.elements.length) 0 := by
      rw [CharVector.resize, if_neg hle]
    have hcount : (v.resize n).elements.length = n := by
      rw [hgrown, List.length_append, List.length_replicate]
      omega
    refine ⟨_, List.replicate (n - v.elements.length) 0, rfl,
      ⟨?_, hlength⟩, hcount, ?_, ?_⟩
    · rw [hcount]
      exact hn
    · rw [contents_dynamic rfl, contents_dynamic hmode,
        List.take_of_length_le (by omega)]
      exact hgrown
    · rw [hsize, List.length_replicate]

/-- Only the length changes: what is new is what lay there. -/
theorem resize_static {a : ByteArray} (h : a.Wf)
    (hmode : a.dynamicData = none) {n : Nat} (hn : n ≤ staticSize) :
    ∃ b rest, a.resize n = some b ∧ Resized a n b rest := by
  unfold Wf at h
  rw [hmode] at h
  have hsize : a.size = a.length := by rw [size, hmode]
  have hbytes := a.staticData.length_eq
  simp only [resize, hmode, if_pos hn]
  refine ⟨_, (a.staticData.bytes.drop a.length).take (n - a.length), rfl,
    hn, rfl, ?_, ?_⟩
  · rw [contents_static rfl, contents_static hmode]
    -- the first `n` bytes of the buffer, cut where the array ended
    have hsplit : List.take n (a.staticData.bytes.take a.length
        ++ a.staticData.bytes.drop a.length) = _ := List.take_append
    rw [List.take_append_drop, List.length_take, hbytes,
      Nat.min_eq_left h] at hsplit
    exact hsplit
  · rw [hsize, List.length_take, List.length_drop, hbytes]
    omega

/-- The switch carries the bytes of the static buffer over: they are copied
to the front of a vector of zeros that is as long as it has to be. -/
theorem resize_switch {a : ByteArray} (h : a.Wf)
    (hmode : a.dynamicData = none) {n : Nat} (hlarge : ¬ n ≤ staticSize)
    (hn : n ≤ charVectorMaxSize) :
    ∃ b rest, a.resize n = some b ∧ Resized a n b rest := by
  unfold Wf at h
  rw [hmode] at h
  have hsize : a.size = a.length := by rw [size, hmode]
  have htake : (a.staticData.bytes.take a.length).length = a.length := by
    rw [List.length_take, a.staticData.length_eq, Nat.min_eq_left h]
  have hgrown : (({} : CharVector).resize n).elements
      = List.replicate n 0 := by
    have hpos : ¬ n ≤ ({} : CharVector).elements.length := by
      rw [List.length_nil]
      omega
    rw [CharVector.resize, if_neg hpos]
    simp
  -- a vector of zeros, with the old bytes copied to its front
  have helements : Buffer.write (({} : CharVector).resize n).elements 0
        (a.staticData.bytes.take a.length)
      = a.staticData.bytes.take a.length
        ++ List.replicate (n - a.length) 0 := by
    rw [hgrown, Buffer.write_zero, htake, List.drop_replicate]
  have hcount : (Buffer.write (({} : CharVector).resize n).elements 0
      (a.staticData.bytes.take a.length)).length = n := by
    rw [helements, List.length_append, htake, List.length_replicate]
    omega
  simp only [resize, hmode, if_neg hlarge, if_pos hn]
  refine ⟨_, List.replicate (n - a.length) 0, rfl, ⟨?_, rfl⟩, hcount, ?_, ?_⟩
  · rw [hcount]
    exact hn
  · rw [contents_dynamic rfl, contents_static hmode,
      List.take_of_length_le (i := n) (by omega)]
    exact helements
  · rw [hsize, List.length_replicate]

/-- A size that fits: the mode is kept or switched, and the bytes kept. -/
theorem resize_spec {a : ByteArray} (h : a.Wf) {n : Nat}
    (hn : n ≤ charVectorMaxSize) :
    ∃ b rest, a.resize n = some b ∧ Resized a n b rest := by
  cases hmode : a.dynamicData with
  | some v => exact resize_dynamic h hmode hn
  | none =>
      by_cases hfits : n ≤ staticSize
      · exact resize_static h hmode hfits
      · exact resize_switch h hmode hfits hn

/-- One that does not. -/
theorem resize_eq_none {a : ByteArray} {n : Nat}
    (hn : charVectorMaxSize < n) : a.resize n = none := by
  have hstatic : staticSize ≤ charVectorMaxSize := by
    simp [staticSize, charVectorMaxSize]
  unfold resize
  cases a.dynamicData with
  | some v =>
      show (if n ≤ charVectorMaxSize then _ else _) = _
      rw [if_neg (by omega)]
  | none =>
      show (if n ≤ staticSize then _
        else if n ≤ charVectorMaxSize then _ else _) = _
      rw [if_neg (by omega), if_neg (by omega)]

/-- A copy into the bytes of the array, in either mode. It changes neither the
size nor the mode, so the contents are copied into as well. -/
theorem store_spec {a : ByteArray} (h : a.Wf) (off : Nat) (src : List UInt8)
    (hoff : off + src.length ≤ a.size) :
    ∃ b, a.store off src = some b ∧ b.Wf ∧ b.size = a.size
      ∧ b.contents = Buffer.write a.contents off src := by
  unfold Wf at h
  cases hmode : a.dynamicData with
  | some v =>
      rw [hmode] at h
      have hsize : a.size = v.elements.length := by rw [size, hmode]
      rw [hsize] at hoff
      have hlength := Buffer.length_write hoff
      simp only [store, hmode, if_pos hoff]
      refine ⟨_, rfl, ⟨?_, h.2⟩, ?_, ?_⟩
      · rw [hlength]
        exact h.1
      · rw [hsize]
        exact hlength
      · rw [contents_dynamic rfl, contents_dynamic hmode]
  | none =>
      rw [hmode] at h
      have hsize : a.size = a.length := by rw [size, hmode]
      rw [hsize] at hoff
      have hfits : off + src.length ≤ staticSize := Nat.le_trans hoff h
      simp only [store, hmode, dif_pos hfits]
      refine ⟨_, rfl, h, ?_, ?_⟩
      · rw [hsize]
        rfl
      · rw [contents_static rfl, contents_static hmode]
        exact Buffer.take_write_inside hoff
          (by rw [a.staticData.length_eq]; exact h)

namespace Refines

variable {a b : ByteArray} {xs ys : List (Option UInt8)}

/-- A fresh array is the empty vector. -/
theorem fresh (memory : StaticData) : Refines (ByteArray.fresh memory) [] := by
  refine ⟨Nat.zero_le _, rfl, ?_⟩
  rw [contents_static rfl]
  exact List.Forall₂.nil

theorem length_le (h : Refines a xs) : xs.length ≤ charVectorMaxSize := by
  rw [← h.size]
  exact size_le h.wf

theorem resize (h : Refines a xs) {n : Nat} (hn : n ≤ charVectorMaxSize) :
    ∃ b, a.resize n = some b ∧ Refines b (PartialVector.resize xs n) := by
  obtain ⟨b, rest, heq, hresized⟩ := resize_spec h.wf hn
  refine ⟨b, heq, hresized.wf, ?_, ?_⟩
  · rw [hresized.size, PartialVector.length_resize]
  · rw [hresized.contents]
    apply h.agrees.resize
    rw [hresized.length, h.size]

theorem store (h : Refines a xs) (off : Nat) {src : List UInt8}
    (hsrc : Agrees ys src) (hoff : off + ys.length ≤ xs.length) :
    ∃ b, a.store off src = some b ∧ Refines b (Buffer.write xs off ys) := by
  rw [hsrc.length_eq, ← h.size] at hoff
  obtain ⟨b, heq, hwf, hsize, hcontents⟩ := store_spec h.wf off src hoff
  refine ⟨b, heq, hwf, ?_, ?_⟩
  · rw [hsize, h.size, Buffer.length_write]
    rw [hsrc.length_eq, ← h.size]
    exact hoff
  · rw [hcontents]
    exact h.agrees.write hsrc off

/-- An append is a resize and a copy behind the old bytes. -/
theorem append (h : Refines a xs) {src : List UInt8} (hsrc : Agrees ys src)
    (hmax : xs.length + ys.length ≤ charVectorMaxSize) :
    ∃ b, a.append src = some b ∧ Refines b (xs ++ ys) := by
  have hsize : charVectorMaxSize = 2 ^ 63 - 1 := rfl
  have hmod : (a.size + src.length) % 2 ^ 64 = xs.length + ys.length := by
    rw [h.size, ← hsrc.length_eq]
    omega
  obtain ⟨b, hb, hrefines⟩ := h.resize hmax
  obtain ⟨c, hc, hstored⟩ := hrefines.store xs.length hsrc
    (by rw [PartialVector.length_resize])
  rw [PartialVector.write_resize] at hstored
  refine ⟨c, ?_, hstored⟩
  rw [ByteArray.append, hmod, hb, h.size]
  exact hc

/-- A copy is an append to a fresh array. -/
theorem copyConstruct (h : Refines b ys) (memory : StaticData) :
    ∃ a, ByteArray.copyConstruct memory b = some a ∧ Refines a ys :=
  (Refines.fresh memory).append h.agrees (by
    rw [List.length_nil, Nat.zero_add]
    exact h.length_le)

/-- An assignment is a resize and a copy of all bytes. -/
theorem assign (h : Refines a xs) (h' : Refines b ys) :
    ∃ c, a.assign b = some c ∧ Refines c ys := by
  obtain ⟨c, hc, hrefines⟩ := h.resize h'.length_le
  obtain ⟨d, hd, hstored⟩ := hrefines.store 0 h'.agrees
    (by rw [PartialVector.length_resize, Nat.zero_add])
  rw [PartialVector.write_resize_zero] at hstored
  refine ⟨d, ?_, hstored⟩
  rw [ByteArray.assign, h'.size, hc]
  exact hd

theorem le_length (h : Refines a xs) : xs.length ≤ a.length := by
  rw [← h.size]
  exact size_le_length h.wf

/-- A copy inside of the array passes the assertion, as the length field is the
size or larger. -/
theorem writeAt (h : Refines a xs) {position : Nat} {src : List UInt8}
    (hposition : position + src.length ≤ xs.length) :
    ∃ b, a.writeAt position src = some b
      ∧ Refines b (Buffer.write xs position (src.map some)) := by
  have hmod := Nat.mod_le (position + src.length) (2 ^ 64)
  have hlength := h.le_length
  rw [ByteArray.writeAt, if_pos (by omega)]
  apply h.store _ (Agrees.of_known src)
  rw [List.length_map]
  exact hposition

theorem setAt (h : Refines a xs) {index : Nat} (hindex : index < xs.length)
    (v : UInt8) :
    ∃ b, a.setAt index v = some b ∧ Refines b (xs.set index (some v)) := by
  have hlength := h.le_length
  rw [ByteArray.setAt, if_pos (by omega)]
  have hset : xs.set index (some v) = Buffer.write xs index [some v] := by
    rw [List.set_eq_take_append_cons_drop, if_pos hindex]
    simp [Buffer.write]
  rw [hset]
  exact h.store _ (Agrees.of_known [v]) hindex

end Refines

-- ============================================================== programs

/-- The arrays of a program are its vectors. -/
structure RefinesAll (arrays : List ByteArray)
    (vectors : List (List (Option UInt8))) : Prop where
  length : arrays.length = vectors.length
  refines : ∀ (i : Nat) (a : ByteArray) (xs : List (Option UInt8)),
    arrays[i]? = some a → vectors[i]? = some xs → Refines a xs

namespace RefinesAll

variable {arrays : List ByteArray}
  {vectors vectors' : List (List (Option UInt8))}

theorem get (h : RefinesAll arrays vectors) {i : Nat}
    {xs : List (Option UInt8)} (hi : vectors[i]? = some xs) :
    ∃ a, arrays[i]? = some a ∧ Refines a xs := by
  have hlt : i < arrays.length := by
    rw [h.length]
    exact (List.getElem?_eq_some_iff.mp hi).1
  exact ⟨arrays[i], List.getElem?_eq_getElem hlt,
    h.refines i _ xs (List.getElem?_eq_getElem hlt) hi⟩

/-- One more array, and one more vector. -/
theorem concat (h : RefinesAll arrays vectors) {a : ByteArray}
    {xs : List (Option UInt8)} (hnew : Refines a xs) :
    RefinesAll (arrays ++ [a]) (vectors ++ [xs]) := by
  refine ⟨by simp [h.length], ?_⟩
  intro i b ys hb hys
  rcases Nat.lt_or_ge i arrays.length with hlt | hge
  · rw [List.getElem?_append_left hlt] at hb
    rw [List.getElem?_append_left (by rw [← h.length]; exact hlt)] at hys
    exact h.refines i b ys hb hys
  · rw [List.getElem?_append_right hge, List.getElem?_singleton] at hb
    rw [List.getElem?_append_right (by rw [← h.length]; exact hge),
      List.getElem?_singleton, ← h.length] at hys
    split at hb
    · next hzero =>
        rw [if_pos hzero] at hys
        cases hb
        cases hys
        exact hnew
    · cases hb

theorem set (h : RefinesAll arrays vectors) {i : Nat} {a : ByteArray}
    {xs : List (Option UInt8)} (hnew : Refines a xs) :
    RefinesAll (arrays.set i a) (vectors.set i xs) := by
  refine ⟨by simp [h.length], ?_⟩
  intro k b ys hb hys
  rw [List.getElem?_set] at hb hys
  -- the array itself, or one of the others
  by_cases hk : i = k
  · rw [if_pos hk] at hb hys
    split at hb
    · split at hys
      · cases hb
        cases hys
        exact hnew
      · cases hys
    · cases hb
  · rw [if_neg hk] at hb hys
    exact h.refines k b ys hb hys

/-- An operation on one array that does what one on its vector does. -/
theorem updateAt (h : RefinesAll arrays vectors) {i : Nat}
    {f : ByteArray → Option ByteArray}
    {g : List (Option UInt8) → Option (List (Option UInt8))}
    (hfg : ∀ a xs xs', Refines a xs → g xs = some xs' →
      ∃ a', f a = some a' ∧ Refines a' xs')
    (hvectors : ByteArray.updateAt vectors i g = some vectors') :
    ∃ arrays', ByteArray.updateAt arrays i f = some arrays'
      ∧ RefinesAll arrays' vectors' := by
  obtain ⟨xs, hxs, hmap⟩ := Option.bind_eq_some_iff.mp hvectors
  obtain ⟨xs', hg, heq⟩ := Option.map_eq_some_iff.mp hmap
  cases heq
  obtain ⟨a, ha, hrefines⟩ := h.get hxs
  obtain ⟨a', hf, hrefines'⟩ := hfg a xs xs' hrefines hg
  refine ⟨arrays.set i a', ?_, h.set hrefines'⟩
  rw [ByteArray.updateAt, ha, Option.bind_some, hf, Option.map_some]

/-- The same for one the vector can do only where `P` holds. -/
theorem updateAt_ite (h : RefinesAll arrays vectors) {i : Nat}
    {f : ByteArray → Option ByteArray} {P : List (Option UInt8) → Prop}
    [DecidablePred P] {g : List (Option UInt8) → List (Option UInt8)}
    (hfg : ∀ a xs, Refines a xs → P xs →
      ∃ a', f a = some a' ∧ Refines a' (g xs))
    (hvectors : ByteArray.updateAt vectors i
      (fun xs => if P xs then some (g xs) else none) = some vectors') :
    ∃ arrays', ByteArray.updateAt arrays i f = some arrays'
      ∧ RefinesAll arrays' vectors' := by
  refine h.updateAt ?_ hvectors
  intro a xs xs' ha hg
  obtain ⟨hP, heq⟩ := Option.ite_none_right_eq_some.mp hg
  cases heq
  exact hfg a xs ha hP

/-- Every operation the vectors can do, the arrays do. An operation on one
array is one on one vector, and a copy takes what its source refines to. -/
theorem step (h : RefinesAll arrays vectors) {op : Op}
    (hstep : vectorStep vectors op = some vectors') :
    ∃ arrays', ByteArray.step arrays op = some arrays'
      ∧ RefinesAll arrays' vectors' := by
  cases op with
  | construct memory =>
      cases hstep
      exact ⟨_, rfl, h.concat (Refines.fresh memory)⟩
  | copyConstruct memory j =>
      obtain ⟨ys, hys, heq⟩ := Option.map_eq_some_iff.mp hstep
      cases heq
      obtain ⟨b, hb, hrefines⟩ := h.get hys
      obtain ⟨a, ha, hcopy⟩ := hrefines.copyConstruct memory
      refine ⟨arrays ++ [a], ?_, h.concat hcopy⟩
      simp only [ByteArray.step, hb, Option.bind_some, ha, Option.map_some]
  | assign i j =>
      simp only [vectorStep, Option.ite_none_left_eq_some] at hstep
      obtain ⟨hne, hstep⟩ := hstep
      obtain ⟨ys, hys, hupdate⟩ := Option.bind_eq_some_iff.mp hstep
      obtain ⟨b, hb, hrefines⟩ := h.get hys
      simp only [ByteArray.step, if_neg hne, hb, Option.bind_some]
      refine h.updateAt ?_ hupdate
      intro a xs xs' ha heq
      cases heq
      exact ha.assign hrefines
  | resize i n =>
      refine h.updateAt_ite ?_ hstep
      intro a xs ha hn
      exact ha.resize hn
  | append i src =>
      refine h.updateAt_ite ?_ hstep
      intro a xs ha hmax
      apply ha.append (Agrees.of_known src)
      rw [List.length_map]
      exact hmax
  | appendByte i v =>
      refine h.updateAt_ite ?_ hstep
      intro a xs ha hmax
      exact ha.append (Agrees.of_known [v]) hmax
  | writeAt i position src =>
      refine h.updateAt_ite ?_ hstep
      intro a xs ha hposition
      exact ha.writeAt hposition
  | setAt i index v =>
      refine h.updateAt_ite ?_ hstep
      intro a xs ha hindex
      exact ha.setAt hindex v

end RefinesAll

/-- Every program the growable vectors can run, the byte arrays run: each
has the size of its vector and every byte the vector knows, and a capacity
of at least its size. -/
theorem byteArray_refines_vector {ops : List Op}
    {vectors : List (List (Option UInt8))}
    (hrun : Transition.run vectorStep [] ops = some vectors) :
    ∃ arrays, Transition.run step [] ops = some arrays
      ∧ arrays.length = vectors.length
      ∧ ∀ (i : Nat) (a : ByteArray) (xs : List (Option UInt8)),
        arrays[i]? = some a → vectors[i]? = some xs →
        a.size = xs.length
          ∧ (∀ (k : Nat) (b : UInt8), xs[k]? = some (some b) →
              a.getData[k]? = some b)
          ∧ a.size ≤ a.capacity := by
  have hempty : RefinesAll [] [] := by
    refine ⟨rfl, ?_⟩
    intro i a xs ha
    cases ha
  have hstep : ∀ as xs op xs', RefinesAll as xs →
      vectorStep xs op = some xs' →
      ∃ as', step as op = some as' ∧ RefinesAll as' xs' :=
    fun _ _ _ _ h hop => h.step hop
  obtain ⟨arrays, hrun', hall⟩ :=
    Transition.run_simulation RefinesAll hstep hempty hrun
  refine ⟨arrays, hrun', hall.length, ?_⟩
  intro i a xs ha hxs
  have hrefines := hall.refines i a xs ha hxs
  refine ⟨hrefines.size, ?_, size_le_capacity hrefines.wf⟩
  intro k b hk
  have hget := hrefines.agrees.getElem? hk
  rw [contents, List.getElem?_take] at hget
  split at hget
  · exact hget
  · cases hget

-- ============================================================== a sample

/-- Memory of the fixed inputs. -/
def sampleMemory : StaticData := ⟨List.replicate staticSize 255, List.length_replicate⟩

/-- One array grows out of its static buffer, another one is assigned to
it, and it is copied. -/
def samplePrograms : List Op :=
  [.construct sampleMemory, .append 0 [65, 66], .resize 0 600,
    .construct sampleMemory, .append 1 [67], .assign 0 1,
    .copyConstruct sampleMemory 0]

theorem byteArray_refines_vector_sample :
    ∃ arrays, Transition.run step [] samplePrograms = some arrays
      ∧ arrays.length = 3
      ∧ ∀ (i : Nat) (a : ByteArray) (xs : List (Option UInt8)),
        arrays[i]? = some a →
        [[some 67], [some 67], [some 67]][i]? = some xs →
        a.size = xs.length
          ∧ (∀ (k : Nat) (b : UInt8), xs[k]? = some (some b) →
              a.getData[k]? = some b)
          ∧ a.size ≤ a.capacity :=
  byteArray_refines_vector
    (show Transition.run vectorStep [] samplePrograms
      = some [[some 67], [some 67], [some 67]] from rfl)

end ByteArray

end IviLogging
