import Mathlib.Data.List.Forall2
/-!
# Lexers by their pending token

A lexer reads a text character by character and keeps the token it is in: the
next character extends that token, or ends it and starts another.  A text is
then read piece by piece wherever no piece extends the last token of the one
before, and a template of the tokens is met piece by piece too.
-/

namespace Dbmaster.Lib.Tokens

structure Lexer (σ χ τ : Type*) where
  /-- nothing is pending -/
  idle : σ
  start : χ → σ
  extend : σ → χ → Option σ
  finish : σ → List τ
  extend_idle : ∀ c, extend idle c = none
  finish_idle : finish idle = []

namespace Lexer

variable {σ χ τ : Type*} (m : Lexer σ χ τ)

def next (s : σ) (c : χ) : σ := (m.extend s c).getD (m.start c)

/-- What is pending after the text. -/
def pending (s : σ) (text : List χ) : σ := text.foldl m.next s

/-- The tokens that end within the text. -/
def emitted : σ → List χ → List τ
  | _, [] => []
  | s, c :: text => (if (m.extend s c).isNone then m.finish s else []) ++ emitted (m.next s c) text

def readFrom (s : σ) (text : List χ) : List τ := m.emitted s text ++ m.finish (m.pending s text)

def tokens (text : List χ) : List τ := m.readFrom m.idle text

/-- The text does not extend the pending token. -/
def Parts (s : σ) (text : List χ) : Prop := ∀ c ∈ text.head?, m.extend s c = none

variable {m} {s s' : σ} {c : χ} {text : List χ}

theorem pending_append (s : σ) (a b : List χ) :
    m.pending s (a ++ b) = m.pending (m.pending s a) b := List.foldl_append

theorem emitted_append (s : σ) (a b : List χ) :
    m.emitted s (a ++ b) = m.emitted s a ++ m.emitted (m.pending s a) b := by
  induction a generalizing s with
  | nil => rfl
  | cons c a ih =>
      rw [List.cons_append, emitted, ih, emitted, List.append_assoc]
      rfl

theorem readFrom_nil (s : σ) : m.readFrom s [] = m.finish s := rfl

theorem readFrom_cons_of_extend (h : m.extend s c = some s') :
    m.readFrom s (c :: text) = m.readFrom s' text := by
  have hnext : m.next s c = s' := by rw [next, h, Option.getD_some]
  unfold readFrom
  rw [emitted, h, hnext, if_neg (by simp), List.nil_append]
  show m.emitted s' text ++ m.finish (m.pending (m.next s c) text) = _
  rw [hnext]

theorem readFrom_cons_of_none (h : m.extend s c = none) :
    m.readFrom s (c :: text) = m.finish s ++ m.readFrom (m.start c) text := by
  have hnext : m.next s c = m.start c := by rw [next, h, Option.getD_none]
  unfold readFrom
  rw [emitted, h, hnext, if_pos Option.isNone_none, List.append_assoc]
  show m.finish s ++ (m.emitted (m.start c) text ++ m.finish (m.pending (m.next s c) text)) = _
  rw [hnext]

theorem tokens_cons (c : χ) (text : List χ) :
    m.tokens (c :: text) = m.readFrom (m.start c) text := by
  rw [tokens, readFrom_cons_of_none (m.extend_idle c), m.finish_idle, List.nil_append]

theorem tokens_nil : m.tokens [] = [] := by rw [tokens, readFrom_nil, m.finish_idle]

/-- What does not extend the pending token is read on its own. -/
theorem readFrom_of_parts (h : m.Parts s text) :
    m.readFrom s text = m.finish s ++ m.tokens text := by
  cases text with
  | nil => rw [readFrom_nil, tokens_nil, List.append_nil]
  | cons c text => rw [readFrom_cons_of_none (h c rfl), tokens_cons]

theorem pending_of_parts (h : m.Parts s text) (hne : text ≠ []) :
    m.pending s text = m.pending m.idle text := by
  cases text with
  | nil => exact absurd rfl hne
  | cons c text =>
      have hnext : m.next s c = m.next m.idle c := by
        rw [next, next, h c rfl, m.extend_idle]
      show m.pending (m.next s c) text = m.pending (m.next m.idle c) text
      rw [hnext]

theorem readFrom_append {a b : List χ} (h : m.Parts (m.pending s a) b) :
    m.readFrom s (a ++ b) = m.readFrom s a ++ m.tokens b := by
  have hb := readFrom_of_parts h
  unfold readFrom at hb ⊢
  rw [emitted_append, pending_append, List.append_assoc, List.append_assoc, hb]

theorem tokens_append {a b : List χ} (h : m.Parts (m.pending m.idle a) b) :
    m.tokens (a ++ b) = m.tokens a ++ m.tokens b := readFrom_append h

/-! ## One token -/

/-- A text that extends the pending token to its end is all in that token. -/
theorem emitted_pending_of_extends (h : text.foldlM m.extend s = some s') :
    m.emitted s text = [] ∧ m.pending s text = s' := by
  induction text generalizing s with
  | nil =>
      cases h
      exact ⟨rfl, rfl⟩
  | cons c text ih =>
      rw [List.foldlM_cons] at h
      obtain ⟨t, ht, hrest⟩ := Option.bind_eq_some_iff.mp h
      have hnext : m.next s c = t := by rw [next, ht, Option.getD_some]
      obtain ⟨hemitted, hpending⟩ := ih hrest
      rw [emitted, ht, if_neg (by simp), List.nil_append, hnext]
      refine ⟨hemitted, ?_⟩
      show m.pending (m.next s c) text = s'
      rw [hnext, hpending]

theorem readFrom_of_extends (h : text.foldlM m.extend s = some s') :
    m.readFrom s text = m.finish s' := by
  obtain ⟨hemitted, hpending⟩ := emitted_pending_of_extends h
  rw [readFrom, hemitted, hpending, List.nil_append]

theorem pending_of_extends (h : text.foldlM m.extend s = some s') : m.pending s text = s' :=
  (emitted_pending_of_extends h).2

/-- What every token of a kind keeps when it is extended, the first one of the text keeps. -/
theorem readFrom_first {K : σ → Prop} {F : τ → Prop}
    (hextend : ∀ s, K s → ∀ c s', m.extend s c = some s' → K s')
    (hfinish : ∀ s, K s → ∃ t rest, m.finish s = t :: rest ∧ F t) (hs : K s)
    (text : List χ) : ∃ t rest, m.readFrom s text = t :: rest ∧ F t := by
  induction text generalizing s with
  | nil => exact hfinish s hs
  | cons c text ih =>
      cases hc : m.extend s c with
      | some s' =>
          rw [readFrom_cons_of_extend hc]
          exact ih (hextend s hs c s' hc)
      | none =>
          obtain ⟨t, rest, ht, hfirst⟩ := hfinish s hs
          refine ⟨t, rest ++ m.readFrom (m.start c) text, ?_, hfirst⟩
          rw [readFrom_cons_of_none hc, ht, List.cons_append]

/-! ## Pieces -/

/-- The pending states stay of a kind. -/
theorem pending_invariant {K : σ → Prop} (hs : K s)
    (h : ∀ c ∈ text, ∀ s, K s → K (m.next s c)) : K (m.pending s text) := by
  induction text generalizing s with
  | nil => exact hs
  | cons c text ih =>
      exact ih (h c List.mem_cons_self s hs) fun d hd => h d (List.mem_cons_of_mem c hd)

/-- Pieces that extend no state of a kind, and end in one, are read one by one. -/
theorem readFrom_flatMap {ι : Type*} {K : σ → Prop} (piece : ι → List χ) {xs : List ι}
    (hparts : ∀ x ∈ xs, ∀ s, K s → m.Parts s (piece x))
    (hne : ∀ x ∈ xs, piece x ≠ [])
    (hends : ∀ x ∈ xs, K (m.pending m.idle (piece x))) (hs : K s) :
    m.readFrom s (xs.flatMap piece) = m.finish s ++ xs.flatMap fun x => m.tokens (piece x) := by
  induction xs generalizing s with
  | nil => rw [List.flatMap_nil, readFrom_nil, List.flatMap_nil, List.append_nil]
  | cons x xs ih =>
      have hx : m.Parts s (piece x) := hparts x List.mem_cons_self s hs
      have hend := hends x List.mem_cons_self
      rw [← pending_of_parts hx (hne x List.mem_cons_self)] at hend
      have hrest := ih (fun y hy => hparts y (List.mem_cons_of_mem x hy))
        (fun y hy => hne y (List.mem_cons_of_mem x hy))
        (fun y hy => hends y (List.mem_cons_of_mem x hy)) hend
      have hfirst := readFrom_of_parts hx
      unfold readFrom at hrest hfirst ⊢
      rw [List.flatMap_cons, emitted_append, pending_append, List.append_assoc, hrest,
        ← List.append_assoc, hfirst, List.flatMap_cons, List.append_assoc]

/-- The first piece stands at the start of the text. -/
theorem tokens_flatMap_cons {ι : Type*} {K : σ → Prop} (piece : ι → List χ) {x : ι}
    {xs : List ι} (hparts : ∀ y ∈ xs, ∀ s, K s → m.Parts s (piece y))
    (hne : ∀ y ∈ xs, piece y ≠ [])
    (hends : ∀ y ∈ x :: xs, K (m.pending m.idle (piece y))) :
    m.tokens ((x :: xs).flatMap piece) = (x :: xs).flatMap fun y => m.tokens (piece y) := by
  have hrest := readFrom_flatMap piece hparts hne
    (fun y hy => hends y (List.mem_cons_of_mem x hy)) (hends x List.mem_cons_self)
  unfold tokens readFrom at hrest ⊢
  rw [List.flatMap_cons, emitted_append, pending_append, List.append_assoc, hrest,
    List.flatMap_cons, List.append_assoc]

end Lexer

/-! ## Characters

Over characters a bounded quantifier is decided along its list.
-/

scoped instance (priority := 2000) decidableForallMem (p : Char → Prop) [DecidablePred p]
    (text : List Char) : Decidable (∀ c ∈ text, p c) := List.decidableBAll p text

scoped instance (priority := 2000) decidableExistsMem (p : Char → Prop) [DecidablePred p]
    (text : List Char) : Decidable (∃ c ∈ text, p c) := List.decidableBEx p text

scoped instance (priority := 2000) decidableForallMemOption (p : Char → Prop) [DecidablePred p]
    (c : Option Char) : Decidable (∀ d ∈ c, p d) := c.decidableForallMem

/-! ## Templates -/

variable {α β ι : Type*} {R : α → β → Prop}

/-- Where no piece has too few tokens, a template is met piece by piece. -/
theorem forall₂_append_iff {ps ps' : List α} {qs qs' : List β} (h : ps.length ≤ qs.length)
    (h' : ps'.length ≤ qs'.length) :
    List.Forall₂ R (ps ++ ps') (qs ++ qs') ↔ List.Forall₂ R ps qs ∧ List.Forall₂ R ps' qs' := by
  constructor
  · intro hall
    have hlength := hall.length_eq
    rw [List.length_append, List.length_append] at hlength
    have hsame : qs.length = ps.length := by omega
    have htake := List.forall₂_take_append _ _ _ hall
    have hdrop := List.forall₂_drop_append _ _ _ hall
    rw [hsame, List.take_left] at htake
    rw [hsame, List.drop_left] at hdrop
    exact ⟨htake, hdrop⟩
  · rintro ⟨hfirst, hrest⟩
    exact List.rel_append hfirst hrest

theorem length_flatMap_le {slots : ι → List α} {found : ι → List β} {xs : List ι}
    (h : ∀ x ∈ xs, (slots x).length ≤ (found x).length) :
    (xs.flatMap slots).length ≤ (xs.flatMap found).length := by
  induction xs with
  | nil => exact Nat.le_refl 0
  | cons x xs ih =>
      rw [List.flatMap_cons, List.flatMap_cons, List.length_append, List.length_append]
      exact Nat.add_le_add (h x List.mem_cons_self)
        (ih fun y hy => h y (List.mem_cons_of_mem x hy))

theorem forall₂_flatMap_iff {slots : ι → List α} {found : ι → List β} {xs : List ι}
    (h : ∀ x ∈ xs, (slots x).length ≤ (found x).length) :
    List.Forall₂ R (xs.flatMap slots) (xs.flatMap found) ↔
      ∀ x ∈ xs, List.Forall₂ R (slots x) (found x) := by
  induction xs with
  | nil => simp
  | cons x xs ih =>
      have htail : ∀ y ∈ xs, (slots y).length ≤ (found y).length := by
        intro y hy
        exact h y (List.mem_cons_of_mem x hy)
      rw [List.flatMap_cons, List.flatMap_cons,
        forall₂_append_iff (h x List.mem_cons_self) (length_flatMap_le htail), ih htail,
        List.forall_mem_cons]

end Dbmaster.Lib.Tokens
