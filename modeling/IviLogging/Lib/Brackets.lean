/-
Trees in brackets.

# The tokens

A tree is written down as tokens: a leaf by its code, and a node between
the opening and the closing token of its kind, with the separator of its
kind between the children. The first child has no separator in front of it
and each other one has, so the children are written by two functions
(`tokensInside`, `tokensBehind`), and a row of anything with separators is
`separated`.

# What can be read

Where the alphabet keeps its tokens apart (`Readable`), nothing is lost:
the trees can be read off the tokens, one tree in front of whatever may
follow it (`tokens_append_inj`), and a row of trees as a whole
(`flatMap_tokens_inj`). The code of a leaf need not tell where it ends by
itself, only in front of what may follow a tree.

The proof is by the two trees at once. A leaf and a node begin with other
tokens, two nodes with the token of one kind, and then their children are
read up to the closing token, which is neither a separator nor the beginning
of a child.
-/
import Mathlib.Data.List.Basic

namespace Brackets

universe u v w

variable {ι : Type u} {β : Type v} {τ : Type w}

-- ================================================================ separators

/-- Some rows one behind the other, `first` in front of the first and
`separator` in front of each other one. -/
def separated {α : Type*} (first separator : List α) :
    List (List α) → List α
  | [] => []
  | x :: xs => first ++ (x ++ xs.flatMap (separator ++ ·))

/-- Behind the first row the separator is in front of every one. -/
theorem separated_self {α : Type*} (separator : List α)
    (xs : List (List α)) :
    separated separator separator xs = xs.flatMap (separator ++ ·) := by
  cases xs with
  | nil => rfl
  | cons x xs => rw [separated, List.flatMap_cons, List.append_assoc]

/-- The elements may be mapped before the rows are put together. -/
theorem map_separated {α β : Type*} (f : α → β) (first separator : List α)
    (xs : List (List α)) :
    (separated first separator xs).map f
      = separated (first.map f) (separator.map f) (xs.map (List.map f)) := by
  cases xs with
  | nil => rfl
  | cons x xs =>
      simp only [separated, List.map_cons, List.map_append, List.map_flatMap,
        List.flatMap_map]

/-- The same for a map that makes several elements of one. -/
theorem flatMap_separated {α β : Type*} (f : α → List β)
    (first separator : List α) (xs : List (List α)) :
    (separated first separator xs).flatMap f
      = separated (first.flatMap f) (separator.flatMap f)
        (xs.map (List.flatMap f)) := by
  cases xs with
  | nil => rfl
  | cons x xs =>
      simp only [separated, List.map_cons, List.flatMap_append,
        List.flatMap_assoc, List.flatMap_map]

-- ================================================================ the tokens

/-- A tree with leaves in `β` and inner nodes of the kinds `ι`. -/
inductive Tree (ι : Type u) (β : Type v)
  | leaf (a : β)
  | node (kind : ι) (children : List (Tree ι β))

/-- The tokens of each kind of node and the codes of the leaves. -/
structure Alphabet (ι : Type u) (β : Type v) (τ : Type w) where
  opening : ι → τ
  separator : ι → τ
  closing : ι → τ
  code : β → List τ

namespace Alphabet

variable (A : Alphabet ι β τ)

mutual

/-- The tokens of a tree. -/
def tokens : Tree ι β → List τ
  | .leaf a => A.code a
  | .node kind children =>
      A.opening kind :: (tokensInside kind children ++ [A.closing kind])

/-- The tokens of the children of a node. -/
def tokensInside (kind : ι) : List (Tree ι β) → List τ
  | [] => []
  | t :: ts => tokens t ++ tokensBehind kind ts

/-- The tokens of the children behind the first one. -/
def tokensBehind (kind : ι) : List (Tree ι β) → List τ
  | [] => []
  | t :: ts => A.separator kind :: (tokens t ++ tokensBehind kind ts)

end

/-- Behind the first child a separator is in front of every one. -/
theorem tokensBehind_eq (kind : ι) (ts : List (Tree ι β)) :
    A.tokensBehind kind ts
      = (ts.map A.tokens).flatMap ([A.separator kind] ++ ·) := by
  induction ts with
  | nil => rw [tokensBehind, List.map_nil, List.flatMap_nil]
  | cons t ts ih =>
      rw [tokensBehind, ih, List.map_cons, List.flatMap_cons]
      rfl

/-- The children of a node are separated. -/
theorem tokensInside_eq (kind : ι) (ts : List (Tree ι β)) :
    A.tokensInside kind ts
      = separated [] [A.separator kind] (ts.map A.tokens) := by
  cases ts with
  | nil => rw [tokensInside, List.map_nil, separated]
  | cons t ts =>
      rw [tokensInside, tokensBehind_eq, List.map_cons, separated,
        List.nil_append]

-- =============================================================== readability

/-- A token that a tree begins with. -/
def Starts (x : τ) : Prop :=
  (∃ kind, x = A.opening kind) ∨ ∃ a xs, A.code a = x :: xs

/-- A token that stands between trees. -/
def Delimits (x : τ) : Prop :=
  (∃ kind, x = A.separator kind) ∨ ∃ kind, x = A.closing kind

/-- What may stand behind a tree. -/
def Follows (r : List τ) : Prop :=
  ∀ x ∈ r.head?, A.Starts x ∨ A.Delimits x

/-- The alphabet keeps its tokens apart. -/
structure Readable : Prop where
  opening_injective : Function.Injective A.opening
  separator_ne_closing : ∀ kind, A.separator kind ≠ A.closing kind
  closing_not_starts : ∀ kind, ¬ A.Starts (A.closing kind)
  code_ne_nil : ∀ a, A.code a ≠ []
  code_ne_opening : ∀ a kind xs, A.code a ≠ A.opening kind :: xs
  code_inj : ∀ a a' r r', A.Follows r → A.Follows r' →
    A.code a ++ r = A.code a' ++ r' → a = a' ∧ r = r'

variable {A}

/-- Nothing may follow a tree. -/
theorem follows_nil : A.Follows [] := by
  intro x hx
  cases hx

/-- The end of the node around it may. -/
theorem follows_closing (kind : ι) (r : List τ) :
    A.Follows (A.closing kind :: r) := by
  intro x hx
  cases hx
  exact Or.inr (Or.inr ⟨kind, rfl⟩)

/-- Behind a child of a node there is a separator or the closing token. -/
theorem follows_tokensBehind (kind : ι) (ts : List (Tree ι β))
    (r : List τ) :
    A.Follows (A.tokensBehind kind ts ++ A.closing kind :: r) := by
  cases ts with
  | nil =>
      rw [tokensBehind, List.nil_append]
      exact follows_closing kind r
  | cons t ts =>
      intro x hx
      rw [tokensBehind] at hx
      cases hx
      exact Or.inr (Or.inl ⟨kind, rfl⟩)

section Readable

variable (h : A.Readable)

include h

/-- A tree has a first token. -/
theorem exists_start (t : Tree ι β) :
    ∃ x xs, A.tokens t = x :: xs ∧ A.Starts x := by
  cases t with
  | leaf a =>
      cases hcode : A.code a with
      | nil => exact absurd hcode (h.code_ne_nil a)
      | cons x xs =>
          refine ⟨x, xs, ?_, Or.inr ⟨a, xs, hcode⟩⟩
          rw [tokens, hcode]
  | node kind children => exact ⟨_, _, by rw [tokens], Or.inl ⟨kind, rfl⟩⟩

/-- The end of a node is not taken for a child. -/
theorem closing_cons_ne (kind : ι) (t : Tree ι β) (r r' : List τ) :
    A.closing kind :: r ≠ A.tokens t ++ r' := by
  intro heq
  obtain ⟨x, xs, htokens, hstarts⟩ := exists_start h t
  rw [htokens, List.cons_append] at heq
  obtain ⟨hhead, -⟩ := List.cons.inj heq
  exact h.closing_not_starts kind (hhead ▸ hstarts)

/-- A leaf is not taken for a node. -/
theorem code_append_ne (a : β) (kind : ι) (r r' : List τ) :
    A.code a ++ r ≠ A.opening kind :: r' := by
  intro heq
  cases hcode : A.code a with
  | nil => exact h.code_ne_nil a hcode
  | cons x xs =>
      rw [hcode, List.cons_append] at heq
      obtain ⟨hhead, -⟩ := List.cons.inj heq
      exact h.code_ne_opening a kind xs (hhead ▸ hcode)

mutual

/-- A tree can be read in front of what may follow it. -/
theorem tokens_append_inj : ∀ (s t : Tree ι β) (r r' : List τ),
    A.Follows r → A.Follows r' →
    A.tokens s ++ r = A.tokens t ++ r' → s = t ∧ r = r'
  | .leaf a, .leaf a', r, r', hr, hr', heq => by
      rw [tokens, tokens] at heq
      obtain ⟨ha, hrest⟩ := h.code_inj a a' r r' hr hr' heq
      exact ⟨congrArg Tree.leaf ha, hrest⟩
  | .leaf a, .node kind ts, r, r', _, _, heq => by
      rw [tokens, tokens, List.cons_append] at heq
      exact absurd heq (code_append_ne h a kind _ _)
  | .node kind ss, .leaf a, r, r', _, _, heq => by
      rw [tokens, tokens, List.cons_append] at heq
      exact absurd heq.symm (code_append_ne h a kind _ _)
  | .node kind ss, .node kind' ts, r, r', _, _, heq => by
      rw [tokens, tokens, List.cons_append, List.cons_append,
        List.append_assoc, List.append_assoc] at heq
      obtain ⟨hopening, hrest⟩ := List.cons.inj heq
      obtain rfl := h.opening_injective hopening
      -- one kind on both sides, so the same closing token is looked for
      obtain ⟨hchildren, hr⟩ := tokensInside_append_inj kind ss ts r r' hrest
      rw [hchildren]
      exact ⟨rfl, hr⟩

/-- So can the children of a node, in front of its end, which is not taken
for the beginning of a child. -/
theorem tokensInside_append_inj (kind : ι) :
    ∀ (ss ts : List (Tree ι β)) (r r' : List τ),
    A.tokensInside kind ss ++ A.closing kind :: r
      = A.tokensInside kind ts ++ A.closing kind :: r' →
    ss = ts ∧ r = r'
  | [], [], r, r', heq => by
      rw [tokensInside, List.nil_append, List.nil_append] at heq
      exact ⟨rfl, (List.cons.inj heq).2⟩
  | [], t :: ts, r, r', heq => by
      rw [tokensInside, tokensInside, List.nil_append,
        List.append_assoc] at heq
      exact absurd heq (closing_cons_ne h kind t _ _)
  | s :: ss, [], r, r', heq => by
      rw [tokensInside, tokensInside, List.nil_append,
        List.append_assoc] at heq
      exact absurd heq.symm (closing_cons_ne h kind s _ _)
  | s :: ss, t :: ts, r, r', heq => by
      rw [tokensInside, tokensInside, List.append_assoc,
        List.append_assoc] at heq
      -- behind the first child there is a separator or the end, either way
      -- something that may follow a tree
      obtain ⟨hfirst, hbehind⟩ := tokens_append_inj s t _ _
        (follows_tokensBehind kind ss r) (follows_tokensBehind kind ts r') heq
      obtain ⟨hothers, hr⟩ := tokensBehind_append_inj kind ss ts r r' hbehind
      rw [hfirst, hothers]
      exact ⟨rfl, hr⟩

/-- So can those behind the first one: the separator in front of each of them
is not the end. -/
theorem tokensBehind_append_inj (kind : ι) :
    ∀ (ss ts : List (Tree ι β)) (r r' : List τ),
    A.tokensBehind kind ss ++ A.closing kind :: r
      = A.tokensBehind kind ts ++ A.closing kind :: r' →
    ss = ts ∧ r = r'
  | [], [], r, r', heq => by
      rw [tokensBehind, List.nil_append, List.nil_append] at heq
      exact ⟨rfl, (List.cons.inj heq).2⟩
  | [], t :: ts, r, r', heq => by
      rw [tokensBehind, tokensBehind, List.nil_append,
        List.cons_append] at heq
      exact absurd (List.cons.inj heq).1.symm (h.separator_ne_closing kind)
  | s :: ss, [], r, r', heq => by
      rw [tokensBehind, tokensBehind, List.nil_append,
        List.cons_append] at heq
      exact absurd (List.cons.inj heq).1 (h.separator_ne_closing kind)
  | s :: ss, t :: ts, r, r', heq => by
      rw [tokensBehind, tokensBehind, List.cons_append, List.cons_append,
        List.append_assoc, List.append_assoc] at heq
      obtain ⟨-, hrest⟩ := List.cons.inj heq
      obtain ⟨hfirst, hbehind⟩ := tokens_append_inj s t _ _
        (follows_tokensBehind kind ss r) (follows_tokensBehind kind ts r')
        hrest
      obtain ⟨hothers, hr⟩ := tokensBehind_append_inj kind ss ts r r' hbehind
      rw [hfirst, hothers]
      exact ⟨rfl, hr⟩

end

/-- And so may a row of trees, which begins with the first token of one. -/
theorem follows_flatMap_tokens (ts : List (Tree ι β)) :
    A.Follows (ts.flatMap A.tokens) := by
  cases ts with
  | nil => exact follows_nil
  | cons t ts =>
      obtain ⟨x, xs, htokens, hstarts⟩ := exists_start h t
      intro y hy
      rw [List.flatMap_cons, htokens] at hy
      cases hy
      exact Or.inl hstarts

/-- A row of trees can be read. -/
theorem flatMap_tokens_inj {ss ts : List (Tree ι β)}
    (heq : ss.flatMap A.tokens = ts.flatMap A.tokens) : ss = ts := by
  have hne : ∀ (t : Tree ι β) (ts : List (Tree ι β)),
      (t :: ts).flatMap A.tokens ≠ [] := by
    intro t ts hnil
    obtain ⟨x, xs, htokens, -⟩ := exists_start h t
    rw [List.flatMap_cons, htokens] at hnil
    cases hnil
  -- a tree leaves a token, so the rows end together
  induction ss generalizing ts with
  | nil =>
      cases ts with
      | nil => rfl
      | cons t ts => exact absurd heq.symm (hne t ts)
  | cons s ss ih =>
      cases ts with
      | nil => exact absurd heq (hne s ss)
      | cons t ts =>
          rw [List.flatMap_cons, List.flatMap_cons] at heq
          obtain ⟨hfirst, hrest⟩ := tokens_append_inj h s t _ _
            (follows_flatMap_tokens h ss) (follows_flatMap_tokens h ts) heq
          rw [hfirst, ih hrest]

end Readable

end Alphabet

end Brackets
