import Dbmaster.Lib.TopList
import Dbmaster.Reports.Writer
import Mathlib.Algebra.Order.Field.Rat
import Mathlib.Data.Prod.Lex
import Mathlib.Data.Sum.Order
/-!
# The summary of the slow queries

The endpoint that shows the groups of a window, the first few by a figure that the caller
names.  The groups are ordered by an expression over the rows, and the figure counts the
queries that the rows stand for.
-/

namespace Dbmaster.Reports.Summary

open Dbmaster.Lib.Fibers Dbmaster.Lib.TopList Dbmaster.Reports.Writer

/-- The content of `query_stats`; a row of a counter stands for at least one query. -/
structure QueryStats where
  rows : List Sample
  counted : ∀ x ∈ rows, ∀ n, x.queryCount = some n → 0 < n

/-- The key `digest`, `db_kind`, `conn_id` and the rows that have it. -/
abbrev Group := (String × String × String) × List Sample

structure DigestAggRow (R : Type*) where
  digest : String
  dbKind : String
  connId : String
  count : Int
  totalMs : Int
  avgMs : R
  maxMs : Int
  firstSeen : Int
  lastSeen : Int
deriving DecidableEq

structure QueryStatsSummaryQuery where
  window : Option String
  connId : Option String
  sort : Option String
  limit : Option Int

def queryStatsWindow (raw : Option String) : Int :=
  match raw with
  | some "1h" => 3600000000000
  | some "7d" => 604800000000000
  | _ => 86400000000000

inductive SortExpr
  /-- `COUNT(*)` -/
  | countRows
  /-- `AVG(elapsed_ms)` -/
  | avgElapsed
  /-- `MAX(elapsed_ms)` -/
  | maxElapsed
  /-- `SUM(elapsed_ms)` -/
  | sumElapsed
deriving DecidableEq

def queryStatsSortExpr (raw : Option String) : SortExpr :=
  match raw with
  | some "count" => .countRows
  | some "avg_ms" => .avgElapsed
  | some "max_ms" => .maxElapsed
  | _ => .sumElapsed

/-- `limit.unwrap_or(20).clamp(1, 100)` -/
def limitOf (raw : Option Int) : Nat := (max 1 (min (raw.getD 20) 100)).toNat

def minimum (f : Sample → Int) (rows : List Sample) : Int :=
  rows.foldl (fun m x => min m (f x)) (((rows.head?).map f).getD 0)

def lastSeen (g : Group) : Int := maximum Sample.capturedAt g.2

def rowCount (g : Group) : Int := g.2.length

/-- `captured_at >= ?1 AND (?2 IS NULL OR conn_id = ?2)` -/
def matching (stats : QueryStats) (since : Int) (connId : Option String) : List Sample :=
  (rowsFrom stats.rows since).filter fun x => decide (connId = none ∨ connId = some x.connId)

def digestGroups (rows : List Sample) : List Group :=
  groups (fun x : Sample => (x.digest, x.dbKind, x.connId)) rows

section Divide

/-! `divide` is the division of two integers as REALs. -/

variable {R : Type*} [LinearOrder R] (divide : Int → Int → R)

/-- The columns of a group. -/
def aggRow (g : Group) : DigestAggRow R where
  digest := g.1.1
  dbKind := g.1.2.1
  connId := g.1.2.2
  count := countOf g.2
  totalMs := elapsedOf g.2
  avgMs := divide (elapsedOf g.2) (countOf g.2)
  maxMs := maximum Sample.elapsedMs g.2
  firstSeen := minimum Sample.capturedAt g.2
  lastSeen := lastSeen g

/-- An INTEGER or a REAL. -/
def sortValue (e : SortExpr) (g : Group) : Int ⊕ₗ R :=
  match e with
  | .countRows => Sum.inlₗ (rowCount g)
  | .avgElapsed => Sum.inrₗ (divide (elapsedOf g.2) (rowCount g))
  | .maxElapsed => Sum.inlₗ (maximum Sample.elapsedMs g.2)
  | .sumElapsed => Sum.inlₗ (elapsedOf g.2)

/-- `{sort_expr} DESC, last_seen DESC` lets `g` stand before `h`. -/
def Before (e : SortExpr) (g h : Group) : Prop :=
  toLex (sortValue divide e h, lastSeen h) ≤ toLex (sortValue divide e g, lastSeen g)

instance (e : SortExpr) : DecidableRel (Before divide e) :=
  fun g h => inferInstanceAs (Decidable
    (toLex (sortValue divide e h, lastSeen h) ≤ toLex (sortValue divide e g, lastSeen g)))

instance (e : SortExpr) : Std.Total (Before divide e) := ⟨fun _ _ => le_total _ _⟩

instance (e : SortExpr) : IsTrans Group (Before divide e) := ⟨fun _ _ _ hgh hhk => hhk.trans hgh⟩

/-- What `aggregate` can return: the engine is free to choose the order of ties. -/
def Aggregates (stats : QueryStats) (since : Int) (connId : Option String) (e : SortExpr)
    (limit : Nat) (answer : List (DigestAggRow R)) : Prop :=
  ∃ sorted, Sorts (Before divide e) (digestGroups (matching stats since connId)) sorted ∧
    answer = (sorted.take limit).map (aggRow divide)

def windowGroups (stats : QueryStats) (now : Int) (q : QueryStatsSummaryQuery) : List Group :=
  digestGroups (matching stats (now - queryStatsWindow q.window) q.connId)

/-- The items that `query_stats_summary` can return. -/
def Summarises (stats : QueryStats) (now : Int) (q : QueryStatsSummaryQuery)
    (items : List (DigestAggRow R)) : Prop :=
  Aggregates divide stats (now - queryStatsWindow q.window) q.connId (queryStatsSortExpr q.sort)
    (limitOf q.limit) items

/-- One of the answers. -/
def aggregate (stats : QueryStats) (since : Int) (connId : Option String) (e : SortExpr)
    (limit : Nat) : List (DigestAggRow R) :=
  (((digestGroups (matching stats since connId)).insertionSort (Before divide e)).take limit).map
    (aggRow divide)

theorem aggregates_aggregate (stats : QueryStats) (since : Int) (connId : Option String)
    (e : SortExpr) (limit : Nat) :
    Aggregates divide stats since connId e limit (aggregate divide stats since connId e limit) :=
  ⟨_, ⟨List.perm_insertionSort _ _, List.pairwise_insertionSort _ _⟩, rfl⟩

/-! ## The figures -/

/-- A figure of an item that a caller can sort by. -/
inductive Figure
  | count
  | avgMs
  | maxMs
  | totalMs

def figureNamed (raw : Option String) : Figure :=
  match raw with
  | some "count" => .count
  | some "avg_ms" => .avgMs
  | some "max_ms" => .maxMs
  | _ => .totalMs

/-- The figure as the item shows it. -/
def shown (f : Figure) (item : DigestAggRow R) : Int ⊕ₗ R :=
  match f with
  | .count => Sum.inlₗ item.count
  | .avgMs => Sum.inrₗ item.avgMs
  | .maxMs => Sum.inlₗ item.maxMs
  | .totalMs => Sum.inlₗ item.totalMs

/-- No item, and nothing that was left out of `all`, shows more than an item before it. -/
structure RankedByShown (f : Figure) (all items : List (DigestAggRow R)) : Prop where
  descending : items.Pairwise fun a b => shown f b ≤ shown f a
  leftOut : ∀ row ∈ all, row ∉ items → ∀ item ∈ items, shown f row ≤ shown f item

/-- The expression that orders for a figure. -/
def Figure.expr (f : Figure) : SortExpr :=
  match f with
  | .count => .countRows
  | .avgMs => .avgElapsed
  | .maxMs => .maxElapsed
  | .totalMs => .sumElapsed

theorem queryStatsSortExpr_eq (raw : Option String) :
    queryStatsSortExpr raw = (figureNamed raw).expr := by
  unfold queryStatsSortExpr figureNamed
  split <;> rfl

end Divide

/-! ## Ordered by one value, shown by another -/

/-- Where a group can be among the first `n` by `value`, its `figure` is not below that of a
group that can come after it. -/
def Follows {β : Type*} [LinearOrder β] (value figure : Group → β) (n : Nat) (all : List Group) :
    Prop :=
  ∀ g ∈ all, ∀ h ∈ all, toLex (value h, lastSeen h) ≤ toLex (value g, lastSeen g) →
    (all.filter fun x =>
      decide (toLex (value g, lastSeen g) < toLex (value x, lastSeen x))).length < n →
    figure h ≤ figure g

section Follows

variable {β γ : Type*} [LinearOrder β] [LinearOrder γ] {value figure : Group → β}

theorem follows_self (value : Group → β) (n : Nat) (all : List Group) :
    Follows value value n all := by
  intro g _ h _ hle _
  exact (Prod.Lex.toLex_le_toLex'.mp hle).1

theorem toLex_le_comp {φ : β → γ} (hφ : StrictMono φ) (g h : Group) :
    toLex (φ (value h), lastSeen h) ≤ toLex (φ (value g), lastSeen g) ↔
      toLex (value h, lastSeen h) ≤ toLex (value g, lastSeen g) := by
  rw [Prod.Lex.toLex_le_toLex, Prod.Lex.toLex_le_toLex, hφ.lt_iff_lt, hφ.injective.eq_iff]

theorem follows_comp {φ : β → γ} (hφ : StrictMono φ) (n : Nat) (all : List Group) :
    Follows (fun g => φ (value g)) (fun g => φ (figure g)) n all ↔ Follows value figure n all := by
  have hfilter : ∀ g, (all.filter fun x =>
      decide (toLex (φ (value g), lastSeen g) < toLex (φ (value x), lastSeen x))) =
      all.filter fun x => decide (toLex (value g, lastSeen g) < toLex (value x, lastSeen x)) := by
    intro g
    apply List.filter_congr
    intro x _
    apply decide_eq_decide.mpr
    rw [← not_le, ← not_le, toLex_le_comp hφ]
  simp only [Follows, toLex_le_comp hφ, hfilter, hφ.le_iff_le]

end Follows

section Embeddings

variable {β γ : Type*} [LinearOrder β] [LinearOrder γ]

theorem inl_strictMono : StrictMono (fun b : β => (Sum.inlₗ b : β ⊕ₗ γ)) :=
  fun _ _ h => Sum.Lex.inl_lt_inl_iff.mpr h

theorem inr_strictMono : StrictMono (fun c : γ => (Sum.inrₗ c : β ⊕ₗ γ)) :=
  fun _ _ h => Sum.Lex.inr_lt_inr_iff.mpr h

end Embeddings

section Ranking

variable {R : Type*} [LinearOrder R] (divide : Int → Int → R)

/-- The rows of a group and the queries that they stand for put the groups in one order, as far
as the limit reaches. -/
def CountersFollow (f : Figure) (n : Nat) (all : List Group) : Prop :=
  match f with
  | .count => Follows rowCount (fun g => countOf g.2) n all
  | .avgMs => Follows (fun g => divide (elapsedOf g.2) (rowCount g))
      (fun g => divide (elapsedOf g.2) (countOf g.2)) n all
  | .maxMs => True
  | .totalMs => True

theorem follows_shown_iff (f : Figure) (n : Nat) (all : List Group) :
    Follows (sortValue divide f.expr) (fun g => shown f (aggRow divide g)) n all ↔
      CountersFollow divide f n all := by
  cases f with
  | count => exact @follows_comp Int (Int ⊕ₗ R) _ _ _ _ _ inl_strictMono n all
  | avgMs => exact @follows_comp R (Int ⊕ₗ R) _ _ _ _ _ inr_strictMono n all
  | maxMs => exact iff_of_true (follows_self _ n all) trivial
  | totalMs => exact iff_of_true (follows_self _ n all) trivial

omit [LinearOrder R] in
theorem aggRow_inj {rows : List Sample} {g h : Group} (hg : g ∈ digestGroups rows)
    (hh : h ∈ digestGroups rows) (heq : aggRow divide g = aggRow divide h) : g = h := by
  have hkeys : ((digestGroups rows).map Prod.fst).Nodup := by
    rw [digestGroups, map_fst_groups]
    exact List.nodup_dedup _
  apply List.inj_on_of_nodup_map hkeys hg hh
  have hdigest := congrArg DigestAggRow.digest heq
  have hkind := congrArg DigestAggRow.dbKind heq
  have hconn := congrArg DigestAggRow.connId heq
  exact Prod.ext hdigest (Prod.ext hkind hconn)

theorem rankedByShown_iff {rows : List Sample} {e : SortExpr} {sorted : List Group}
    (hsorts : Sorts (Before divide e) (digestGroups rows) sorted) (f : Figure) (n : Nat) :
    RankedByShown f ((digestGroups rows).map (aggRow divide))
        ((sorted.take n).map (aggRow divide)) ↔
      Ranked (fun g h => shown f (aggRow divide h) ≤ shown f (aggRow divide g)) n sorted := by
  have hin : ∀ {g}, g ∈ sorted ↔ g ∈ digestGroups rows := hsorts.perm.mem_iff
  have hout : ∀ {g}, g ∈ sorted →
      (aggRow divide g ∈ (sorted.take n).map (aggRow divide) ↔ g ∈ sorted.take n) := by
    intro g hg
    refine ⟨fun hmem => ?_, List.mem_map_of_mem⟩
    obtain ⟨h, hh, heq⟩ := List.mem_map.mp hmem
    rwa [← aggRow_inj divide (hin.mp (List.mem_of_mem_take hh)) (hin.mp hg) heq]
  rw [ranked_iff_leftOut (hsorts.perm.nodup_iff.mpr (nodup_groups _ rows))]
  constructor
  · rintro ⟨hdesc, hleft⟩
    refine ⟨List.pairwise_map.mp hdesc, fun h hh hnot g hg => ?_⟩
    exact hleft _ (List.mem_map_of_mem (hin.mp hh)) (fun hmem => hnot ((hout hh).mp hmem)) _
      (List.mem_map_of_mem hg)
  · rintro ⟨hdesc, hleft⟩
    refine ⟨List.pairwise_map.mpr hdesc, ?_⟩
    intro row hrow hnot item hitem
    obtain ⟨h, hh, rfl⟩ := List.mem_map.mp hrow
    obtain ⟨g, hg, rfl⟩ := List.mem_map.mp hitem
    exact hleft h (hin.mpr hh) (fun hmem => hnot (List.mem_map_of_mem hmem)) g hg

theorem ranked_iff_follows {all : List Group} (hnodup : all.Nodup) (e : SortExpr)
    (figure : Group → Int ⊕ₗ R) (n : Nat) :
    (∀ sorted, Sorts (Before divide e) all sorted →
        Ranked (fun g h => figure h ≤ figure g) n sorted) ↔
      Follows (sortValue divide e) figure n all := by
  have hstrict : ∀ g, strictly (Before divide e) all g = all.filter fun x =>
      decide (toLex (sortValue divide e g, lastSeen g) <
        toLex (sortValue divide e x, lastSeen x)) := by
    intro g
    apply List.filter_congr
    intro x _
    exact decide_eq_decide.mpr not_le
  rw [ranked_iff hnodup, Follows]
  simp only [hstrict]
  constructor
  · intro h g hg k hk hle hlt
    by_cases hne : g = k
    · rw [hne]
    · exact h g hg k hk hne hle hlt
  · intro h g hg k hk _ hle hlt
    exact h g hg k hk hle hlt

/-- The items are ranked by the figure they show if and only if the queries that the rows of a
counter stand for leave the order of the groups as it is. -/
theorem summary_ranked_iff (stats : QueryStats) (now : Int) (q : QueryStatsSummaryQuery) :
    (∀ items, Summarises divide stats now q items →
        RankedByShown (figureNamed q.sort) ((windowGroups stats now q).map (aggRow divide)) items) ↔
      CountersFollow divide (figureNamed q.sort) (limitOf q.limit) (windowGroups stats now q) := by
  have hnodup : (windowGroups stats now q).Nodup := nodup_groups _ _
  rw [← follows_shown_iff, ← queryStatsSortExpr_eq, ← ranked_iff_follows divide hnodup]
  constructor
  · intro h sorted hsorts
    exact (rankedByShown_iff divide hsorts _ _).mp (h _ ⟨sorted, hsorts, rfl⟩)
  · rintro h items ⟨sorted, hsorts, rfl⟩
    exact (rankedByShown_iff divide hsorts _ _).mpr (h sorted hsorts)

/-- A counter row of ten queries comes after two events. -/
theorem counter_after_events :
    let stats : QueryStats :=
      ⟨[⟨"SELECT a", "mysql", "c1", 5000, some 10, "ok", 1⟩,
        ⟨"SELECT b", "mysql", "c1", 1000, none, "ok", 2⟩,
        ⟨"SELECT b", "mysql", "c1", 1000, none, "ok", 3⟩], by decide⟩
    let q : QueryStatsSummaryQuery := ⟨none, none, some "count", none⟩
    let divide : Int → Int → ℚ := fun a b => a / b
    ∃ items, Summarises divide stats 4 q items ∧
      ¬ RankedByShown (figureNamed q.sort) ((windowGroups stats 4 q).map (aggRow divide)) items := by
  intro stats q divide
  refine ⟨_, aggregates_aggregate divide stats _ none .countRows 20, fun h => ?_⟩
  have hdesc := h.descending
  revert hdesc
  decide

end Ranking

end Dbmaster.Reports.Summary
