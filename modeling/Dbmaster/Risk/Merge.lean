import Dbmaster.Lib.Accumulate
import Dbmaster.Risk.Classify
import Mathlib.Data.List.Nodup
import Mathlib.Order.Bounds.Basic
/-!
# Verdicts merge

The walk threads one verdict through every statement, but what it does there is to
merge in what the statement alone would get.  Merging takes the worse class and
joins the reasons.
-/

namespace Dbmaster.Risk.Merge

open Dbmaster.Lib.Accumulate Dbmaster.Risk.Ast Dbmaster.Risk.Classify

/-! ## Merging -/

def merge (v w : RiskVerdict) : RiskVerdict where
  riskClass := if v.riskClass.rank < w.riskClass.rank then w.riskClass else v.riskClass
  reasons := v.reasons ++ w.reasons.filter (· ∉ v.reasons)

theorem rank_merge (v w : RiskVerdict) :
    (merge v w).riskClass.rank = max v.riskClass.rank w.riskClass.rank := by
  unfold merge
  dsimp only
  split_ifs with hlt
  · exact (Nat.max_eq_right hlt.le).symm
  · exact (Nat.max_eq_left (Nat.not_lt.mp hlt)).symm

theorem mem_reasons_merge {v w : RiskVerdict} {reason : String} :
    reason ∈ (merge v w).reasons ↔ reason ∈ v.reasons ∨ reason ∈ w.reasons := by
  by_cases hv : reason ∈ v.reasons <;> simp [merge, hv]

theorem nodup_merge {v w : RiskVerdict} (hv : v.reasons.Nodup) (hw : w.reasons.Nodup) :
    (merge v w).reasons.Nodup := by
  apply List.Nodup.append hv (hw.filter _)
  intro reason hold hnew
  have hnot := (List.mem_filter.mp hnew).2
  simp [hold] at hnot

theorem RiskClass.eq_of_rank {a b : RiskClass} (h : a.rank = b.rank) : a = b := by
  cases a <;> cases b <;> first | rfl | exact absurd h (by decide)

theorem merge_assoc (u v w : RiskVerdict) : merge (merge u v) w = merge u (merge v w) := by
  have hclass : (merge (merge u v) w).riskClass = (merge u (merge v w)).riskClass := by
    apply RiskClass.eq_of_rank
    rw [rank_merge, rank_merge, rank_merge, rank_merge, Nat.max_assoc]
  have hreasons : (merge (merge u v) w).reasons = (merge u (merge v w)).reasons := by
    simp only [merge, List.filter_append, List.append_assoc, List.filter_filter,
      List.append_cancel_left_eq]
    apply List.filter_congr
    intro reason _
    by_cases hu : reason ∈ u.reasons <;> simp [hu]
  calc merge (merge u v) w
      = ⟨(merge (merge u v) w).riskClass, (merge (merge u v) w).reasons⟩ := rfl
    _ = ⟨(merge u (merge v w)).riskClass, (merge u (merge v w)).reasons⟩ := by
        rw [hclass, hreasons]

instance : Monoid RiskVerdict where
  one := .empty
  mul := merge
  mul_assoc := merge_assoc
  one_mul v := by
    show merge .empty v = v
    have hclass : (merge .empty v).riskClass = v.riskClass := by
      apply RiskClass.eq_of_rank
      rw [rank_merge]
      exact Nat.zero_max _
    calc merge .empty v = ⟨(merge .empty v).riskClass, [] ++ v.reasons.filter (· ∉ [])⟩ := rfl
      _ = v := by simp [hclass]
  mul_one v := by
    show merge v .empty = v
    simp [merge, RiskVerdict.empty, RiskClass.rank]

theorem bump_eq_mul (v : RiskVerdict) (riskClass : RiskClass) (reason : String) :
    v.bump riskClass reason = v * ⟨riskClass, [reason]⟩ := by
  show v.bump riskClass reason = merge v ⟨riskClass, [reason]⟩
  by_cases hmem : reason ∈ v.reasons <;> simp [RiskVerdict.bump, merge, hmem]

/-! ## The walk accumulates -/

/-- The function merges a verdict in, whose reasons are distinct. -/
structure Adds (f : RiskVerdict → RiskVerdict) : Prop where
  accumulates : Accumulates f
  nodup : (f 1).reasons.Nodup

theorem adds_id : Adds fun v => v := ⟨accumulates_id, List.nodup_nil⟩

theorem adds_bump (riskClass : RiskClass) (reason : String) :
    Adds fun v => v.bump riskClass reason := by
  have hmul : (fun v : RiskVerdict => v.bump riskClass reason) =
      fun v => v * ⟨riskClass, [reason]⟩ := by
    funext v
    exact bump_eq_mul v riskClass reason
  refine ⟨hmul ▸ accumulates_mul _, ?_⟩
  rw [bump_eq_mul, one_mul]
  exact List.nodup_singleton reason

theorem Adds.comp {f g : RiskVerdict → RiskVerdict} (hg : Adds g) (hf : Adds f) :
    Adds fun v => g (f v) := by
  refine ⟨hg.accumulates.comp hf.accumulates, ?_⟩
  rw [hg.accumulates (f 1)]
  exact nodup_merge hf.nodup hg.nodup

theorem Adds.ite {f g : RiskVerdict → RiskVerdict} (p : Prop) [Decidable p] (hf : Adds f)
    (hg : Adds g) : Adds fun v => if p then f v else g v := by
  by_cases hp : p
  · simpa only [if_pos hp] using hf
  · simpa only [if_neg hp] using hg

mutual

theorem adds_classifyStatement (s : Statement) : Adds (classifyStatement s) := by
  match s with
  | .query q => exact adds_classifyQuery q
  | .explain analyze _ statement =>
      exact (adds_classifyStatement statement).ite (analyze = true) adds_id
  | .showInfo _ _ => exact adds_id
  | .transaction _ | .modify _ | .useDatabase | .setSession | .call | .execute | .prepare
  | .ddl _ | .other => exact adds_bump _ _

theorem adds_classifyQuery (q : Query) : Adds (classifyQuery q) := by
  match q with
  | .mk ctes body locks _ _ _ =>
      have hlocks : Adds fun v => if locks = 0 then v
          else v.bump .write "locking read (FOR UPDATE/FOR SHARE)" :=
        adds_id.ite (locks = 0) (adds_bump _ _)
      have hhead := hlocks.comp (adds_classifyCtes ctes)
      match body with
      | .select s => exact (adds_classifySelect s).comp hhead
      | .query q => exact (adds_classifyQuery q).comp hhead
      | .setOperation l r =>
          exact ((adds_classifySetExpr r).comp (adds_classifySetExpr l)).comp hhead
      | .insert statement | .update statement | .delete statement | .merge statement =>
          exact (adds_classifyStatement statement).comp hhead
      | .values _ | .table => exact hhead

theorem adds_classifyCtes (ctes : List Query) : Adds (classifyCtes ctes) := by
  match ctes with
  | [] => exact adds_id
  | q :: ctes => exact (adds_classifyCtes ctes).comp (adds_classifyQuery q)

theorem adds_classifySetExpr (body : SetExpr) : Adds (classifySetExpr body) := by
  match body with
  | .select s => exact adds_classifySelect s
  | .query q => exact adds_classifyQuery q
  | .setOperation l r => exact (adds_classifySetExpr r).comp (adds_classifySetExpr l)
  | .insert statement | .update statement | .delete statement | .merge statement =>
      exact adds_classifyStatement statement
  | .values _ | .table => exact adds_id

theorem adds_classifySelect (s : Select) : Adds (classifySelect s) := by
  match s with
  | .mk _ _ projection into _ _ _ selection _ _ having _ _ _ =>
      have hinto : Adds fun v => if into then v.bump .write "SELECT INTO" else v :=
        (adds_bump _ _).ite (into = true) adds_id
      exact (adds_classifyIfSome having).comp ((adds_classifyIfSome selection).comp
        ((adds_classifyProjection projection).comp hinto))

theorem adds_classifyIfSome (o : Option Expr) : Adds (classifyIfSome o) := by
  match o with
  | none => exact adds_id
  | some e => exact adds_classifyExpr e

theorem adds_classifyProjection (items : List SelectItem) : Adds (classifyProjection items) := by
  match items with
  | [] => exact adds_id
  | .unnamedExpr e :: items | .exprWithAlias e :: items =>
      exact (adds_classifyProjection items).comp (adds_classifyExpr e)
  | .other _ :: items => exact adds_classifyProjection items

theorem adds_classifyExpr (e : Expr) : Adds (classifyExpr e) := by
  match e with
  | .function func =>
      have hcall : Adds fun v => if isSideEffectFunction func then
          v.bump .write "side-effect function in expression" else v :=
        (adds_bump _ _).ite (isSideEffectFunction func = true) adds_id
      exact (adds_walkFunctionArgs func).comp hcall
  | .nested inner | .unaryOp inner | .cast inner | .isNull inner | .isNotNull inner =>
      exact adds_classifyExpr inner
  | .binaryOp l r => exact (adds_classifyExpr r).comp (adds_classifyExpr l)
  | .inList e list => exact (adds_classifyExprs list).comp (adds_classifyExpr e)
  | .inSubquery e q => exact (adds_classifyQuery q).comp (adds_classifyExpr e)
  | .existsQuery q | .subquery q => exact adds_classifyQuery q
  | .case operand conditions elseResult =>
      exact (adds_classifyIfSome elseResult).comp
        ((adds_classifyConditions conditions).comp (adds_classifyIfSome operand))
  | .between e _ _ | .like e _ | .iLike e _ | .similarTo e _ => exact adds_classifyExpr e
  | .inUnnest e arrayExpr => exact (adds_classifyExpr arrayExpr).comp (adds_classifyExpr e)
  | .other _ => exact adds_id

theorem adds_classifyExprs (list : List Expr) : Adds (classifyExprs list) := by
  match list with
  | [] => exact adds_id
  | e :: list => exact (adds_classifyExprs list).comp (adds_classifyExpr e)

theorem adds_walkFunctionArgs (func : Function) : Adds (walkFunctionArgs func) := by
  match func with
  | .mk _ _ args _ _ _ _ =>
      match args with
      | .list args => exact adds_classifyArgs args
      | .none | .subquery _ => exact adds_id

theorem adds_classifyArgs (args : List FunctionArg) : Adds (classifyArgs args) := by
  match args with
  | [] => exact adds_id
  | .unnamedExpr e :: args => exact (adds_classifyArgs args).comp (adds_classifyExpr e)
  | .unnamedWildcard :: args | .named _ :: args => exact adds_classifyArgs args

theorem adds_classifyConditions (conditions : List CaseWhen) :
    Adds (classifyConditions conditions) := by
  match conditions with
  | [] => exact adds_id
  | .mk condition result :: conditions =>
      exact (adds_classifyConditions conditions).comp
        ((adds_classifyExpr result).comp (adds_classifyExpr condition))

end

/-! ## Lists of statements -/

/-- The verdict on a statement taken alone. -/
def alone (s : Statement) : RiskVerdict := classifyStatement s .empty

theorem classifyStatements_eq (statements : List Statement) (v : RiskVerdict) :
    classifyStatements statements v = v * (statements.map alone).prod :=
  Accumulates.foldl_eq_prod (fun s => (adds_classifyStatement s).accumulates) statements v

theorem mem_reasons_prod {vs : List RiskVerdict} {reason : String} :
    reason ∈ vs.prod.reasons ↔ ∃ v ∈ vs, reason ∈ v.reasons := by
  induction vs with
  | nil => exact ⟨nofun, fun ⟨v, hv, _⟩ => nomatch hv⟩
  | cons v vs ih =>
      rw [List.prod_cons, List.exists_mem_cons_iff, ← ih]
      exact mem_reasons_merge

theorem nodup_reasons_prod {vs : List RiskVerdict} (h : ∀ v ∈ vs, v.reasons.Nodup) :
    vs.prod.reasons.Nodup := by
  induction vs with
  | nil => exact List.nodup_nil
  | cons v vs ih =>
      rw [List.forall_mem_cons] at h
      rw [List.prod_cons]
      exact nodup_merge h.1 (ih h.2)

/-- The class of a product is the worst of the classes, and `ReadOnly` when there is none. -/
theorem rank_prod (vs : List RiskVerdict) :
    (∀ v ∈ vs, v.riskClass.rank ≤ vs.prod.riskClass.rank) ∧
      (vs.prod.riskClass.rank = 0 ∨ ∃ v ∈ vs, vs.prod.riskClass.rank = v.riskClass.rank) := by
  induction vs with
  | nil => exact ⟨nofun, .inl rfl⟩
  | cons v vs ih =>
      have hmax : (v :: vs).prod.riskClass.rank =
          max v.riskClass.rank vs.prod.riskClass.rank := rank_merge v vs.prod
      obtain ⟨hle, hreached⟩ := ih
      rw [hmax, List.forall_mem_cons, List.exists_mem_cons_iff]
      refine ⟨⟨by omega, fun w hw => ?_⟩, ?_⟩
      · have hlater := hle w hw
        omega
      · rcases Nat.le_total vs.prod.riskClass.rank v.riskClass.rank with hv | hvs
        · exact .inr (.inl (Nat.max_eq_left hv))
        · rw [Nat.max_eq_right hvs]
          exact hreached.imp id .inr

/-! ## The verdict on a text -/

/-- What the scan for executable comments alone says. -/
def commentVerdict (sql : List Char) : List RiskVerdict :=
  if containsExecutableComment sql then
    [⟨.write, ["executable comment (/*! */) not allowed"]⟩]
  else []

theorem classify_eq_prod {parseWith : Parser} {sql : List Char} {statements : List Statement}
    (hparse : parseAny parseWith sql = some statements) (hne : statements ≠ []) :
    classify parseWith sql = (commentVerdict sql ++ statements.map alone).prod := by
  have hstart : (if containsExecutableComment sql then
      RiskVerdict.empty.bump .write "executable comment (/*! */) not allowed"
      else RiskVerdict.empty) = (commentVerdict sql).prod := by
    unfold commentVerdict
    split_ifs
    · rw [List.prod_singleton, bump_eq_mul]
      exact one_mul _
    · rfl
  obtain ⟨s, rest, rfl⟩ := List.exists_cons_of_ne_nil hne
  rw [List.prod_append, ← hstart, ← classifyStatements_eq]
  simp only [classify, hparse]

/-- The verdict merges those of the statements and that of the scan: the worst class,
and all the reasons once each. -/
structure Merges (sql : List Char) (statements : List Statement) (verdict : RiskVerdict) :
    Prop where
  worst : IsGreatest {rank | (∃ s ∈ statements, rank = (alone s).riskClass.rank) ∨
    containsExecutableComment sql = true ∧ rank = RiskClass.write.rank} verdict.riskClass.rank
  reasons : ∀ reason, reason ∈ verdict.reasons ↔
    (∃ s ∈ statements, reason ∈ (alone s).reasons) ∨
      containsExecutableComment sql = true ∧ reason = "executable comment (/*! */) not allowed"
  distinct : verdict.reasons.Nodup

theorem mem_commentVerdict {sql : List Char} {v : RiskVerdict} :
    v ∈ commentVerdict sql ↔ containsExecutableComment sql = true ∧
      v = ⟨.write, ["executable comment (/*! */) not allowed"]⟩ := by
  unfold commentVerdict
  split_ifs with hcomment <;> simp [hcomment]

theorem merges_classify {parseWith : Parser} {sql : List Char} {statements : List Statement}
    (hparse : parseAny parseWith sql = some statements) (hne : statements ≠ []) :
    Merges sql statements (classify parseWith sql) := by
  rw [classify_eq_prod hparse hne]
  obtain ⟨hle, hreached⟩ := rank_prod (commentVerdict sql ++ statements.map alone)
  refine ⟨⟨?_, ?_⟩, fun reason => ?_, ?_⟩
  · rcases hreached with hzero | ⟨v, hv, hrank⟩
    · -- then the first statement is a read
      obtain ⟨s, rest, rfl⟩ := List.exists_cons_of_ne_nil hne
      have hs := hle (alone s) (by simp)
      rw [hzero, Nat.le_zero] at hs
      exact .inl ⟨s, List.mem_cons_self, hzero.trans hs.symm⟩
    · rcases List.mem_append.mp hv with hcomment | hstatement
      · obtain ⟨htrue, rfl⟩ := mem_commentVerdict.mp hcomment
        exact .inr ⟨htrue, hrank⟩
      · obtain ⟨s, hs, rfl⟩ := List.mem_map.mp hstatement
        exact .inl ⟨s, hs, hrank⟩
  · rintro rank (⟨s, hs, rfl⟩ | ⟨hcomment, rfl⟩)
    · exact hle _ (List.mem_append_right _ (List.mem_map_of_mem hs))
    · exact hle _ (List.mem_append_left _ (mem_commentVerdict.mpr ⟨hcomment, rfl⟩))
  · rw [mem_reasons_prod]
    constructor
    · rintro ⟨v, hv, hmem⟩
      rcases List.mem_append.mp hv with hcomment | hstatement
      · obtain ⟨htrue, rfl⟩ := mem_commentVerdict.mp hcomment
        exact .inr ⟨htrue, List.mem_singleton.mp hmem⟩
      · obtain ⟨s, hs, rfl⟩ := List.mem_map.mp hstatement
        exact .inl ⟨s, hs, hmem⟩
    · rintro (⟨s, hs, hmem⟩ | ⟨hcomment, rfl⟩)
      · exact ⟨alone s, List.mem_append_right _ (List.mem_map_of_mem hs), hmem⟩
      · exact ⟨_, List.mem_append_left _ (mem_commentVerdict.mpr ⟨hcomment, rfl⟩),
          List.mem_singleton_self _⟩
  · apply nodup_reasons_prod
    intro v hv
    rcases List.mem_append.mp hv with hcomment | hstatement
    · rw [(mem_commentVerdict.mp hcomment).2]
      exact List.nodup_singleton _
    · obtain ⟨s, -, rfl⟩ := List.mem_map.mp hstatement
      exact (adds_classifyStatement s).nodup

/-- A text with more statements does not get a lesser class. -/
theorem Merges.rank_le {sql sql' : List Char} {statements statements' : List Statement}
    {v v' : RiskVerdict} (h : Merges sql statements v) (h' : Merges sql' statements' v')
    (hcomment : containsExecutableComment sql = true → containsExecutableComment sql' = true)
    (hsub : statements ⊆ statements') : v.riskClass.rank ≤ v'.riskClass.rank := by
  apply h'.worst.2
  rcases h.worst.1 with ⟨s, hs, hrank⟩ | ⟨htrue, hrank⟩
  · exact .inl ⟨s, hsub hs, hrank⟩
  · exact .inr ⟨hcomment htrue, hrank⟩

/-- The verdict on a text with statements merges those of its statements and of the
scan.  It is that of every text with the same statements, in any order and number, and
no less severe than that of a text with fewer. -/
theorem classify_merges {parseWith : Parser} {sql : List Char} {statements : List Statement}
    (hparse : parseAny parseWith sql = some statements) (hne : statements ≠ []) :
    Merges sql statements (classify parseWith sql) ∧
      (∀ sql' statements', parseAny parseWith sql' = some statements' →
        containsExecutableComment sql' = containsExecutableComment sql →
        (∀ s, s ∈ statements' ↔ s ∈ statements) →
        (classify parseWith sql').riskClass = (classify parseWith sql).riskClass ∧
          ∀ reason, reason ∈ (classify parseWith sql').reasons ↔
            reason ∈ (classify parseWith sql).reasons) ∧
      (∀ sql' statements', parseAny parseWith sql' = some statements' →
        (containsExecutableComment sql = true → containsExecutableComment sql' = true) →
        statements ⊆ statements' →
        (classify parseWith sql).riskClass.rank ≤ (classify parseWith sql').riskClass.rank) := by
  have hmerges := merges_classify hparse hne
  have hnonempty : ∀ statements', statements ⊆ statements' → statements' ≠ [] := by
    rintro statements' hsub rfl
    exact hne (List.subset_nil.mp hsub)
  refine ⟨hmerges, fun sql' statements' hparse' hcomment hsame => ?_,
    fun sql' statements' hparse' hcomment hsub => ?_⟩
  · have hmerges' := merges_classify hparse' (hnonempty statements' fun s => (hsame s).mpr)
    constructor
    · apply RiskClass.eq_of_rank
      apply Nat.le_antisymm
      · exact hmerges'.rank_le hmerges (hcomment ▸ id) fun s => (hsame s).mp
      · exact hmerges.rank_le hmerges' (hcomment ▸ id) fun s => (hsame s).mpr
    · intro reason
      rw [hmerges.reasons, hmerges'.reasons, hcomment]
      simp only [hsame]
  · exact hmerges.rank_le (merges_classify hparse' (hnonempty statements' hsub)) hcomment hsub

/-- `SELECT 1` -/
def selectOne : Statement :=
  .query (.mk [] (.select (.mk [] [] [.unnamedExpr (.other [])] false [] [] none none [] [] none []
    none [])) 0 [] [] [])

def statementOf (text : List Char) : Option Statement :=
  if text = "SELECT 1".toList then some selectOne
  else if text = "DELETE FROM t".toList then some (.modify .delete)
  else if text = "DROP TABLE t".toList then some (.ddl .drop)
  else if text = "COMMIT".toList then some (.transaction .commit)
  else none

/-- A script of these statements. -/
def parseScript : Parser := fun _ sql => (sql.splitOn ';').mapM statementOf

/-- A read, a write and a schema change: the verdict is that of the last, in another order and
with one of them twice as well, and a transaction statement makes it worse. -/
theorem classify_merges_script :
    let sql := "SELECT 1;DELETE FROM t;DROP TABLE t".toList
    let verdict := classify parseScript sql
    Merges sql [selectOne, .modify .delete, .ddl .drop] verdict ∧
      verdict.riskClass = .ddl ∧
      verdict.reasons = ["data-modifying statement", "schema/privilege change (DDL)"] ∧
      (classify parseScript "DROP TABLE t;DELETE FROM t;SELECT 1;DROP TABLE t".toList).riskClass =
        verdict.riskClass ∧
      verdict.riskClass.rank ≤ (classify parseScript
        "SELECT 1;DELETE FROM t;COMMIT;DROP TABLE t".toList).riskClass.rank := by
  intro sql verdict
  have hparse : parseAny parseScript sql = some [selectOne, .modify .delete, .ddl .drop] := rfl
  obtain ⟨hmerges, hsame, hmore⟩ := classify_merges hparse (List.cons_ne_nil _ _)
  refine ⟨hmerges, by decide +kernel, by decide +kernel, ?_, ?_⟩
  · refine (hsame _ [.ddl .drop, .modify .delete, selectOne, .ddl .drop] rfl (by decide +kernel)
      fun s => ?_).1
    simp only [List.mem_cons, List.not_mem_nil]
    tauto
  · refine hmore _ [selectOne, .modify .delete, .transaction .commit, .ddl .drop] rfl
      (by decide +kernel) ?_
    intro s hs
    simp only [List.mem_cons, List.not_mem_nil] at hs ⊢
    tauto

/-! ## Texts without statements, and executable comments -/

/-- An empty text has no statement, and every other one is the same. -/
def parseSelectOne : Parser := fun _ sql => some (if sql = [] then [] else [selectOne])

/-- A text without statements is classed as a write, which one more statement lowers; and
an executable comment makes a write of a text whose statements are reads. -/
theorem empty_text_worse :
    ¬ (∀ parseWith sql sql' statements s, parseAny parseWith sql = some statements →
        parseAny parseWith sql' = some (statements ++ [s]) →
        (classify parseWith sql).riskClass.rank ≤ (classify parseWith sql').riskClass.rank) ∧
      ¬ (∀ parseWith sql statements, parseAny parseWith sql = some statements →
        IsGreatest {rank | rank = 0 ∨ ∃ s ∈ statements, rank = (alone s).riskClass.rank}
          (classify parseWith sql).riskClass.rank) := by
  constructor
  · intro hall
    have hle := hall parseSelectOne [] "SELECT 1".toList [] selectOne rfl rfl
    exact absurd hle (by decide)
  · intro hall
    have hgreatest := hall parseSelectOne "SELECT 1 /*! , 2 */".toList [selectOne] rfl
    rcases hgreatest.1 with hzero | ⟨s, hs, hrank⟩
    · exact absurd hzero (by decide)
    · rw [List.mem_singleton.mp hs] at hrank
      exact absurd hrank (by decide)

end Dbmaster.Risk.Merge
