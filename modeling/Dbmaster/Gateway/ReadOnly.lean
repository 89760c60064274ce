import Dbmaster.Gateway.Query
import Mathlib.Tactic.ByContra
/-!
# `read_only` across the execution legs

What modifies the target is given, for any engine, as a predicate on the
statements and commands.  The `mongo`, `redis` and `tdengine` legs refuse what
their classifier takes for a write; the `sql` leg refuses nothing.
-/

namespace Dbmaster.Gateway.ReadOnly

open Dbmaster.Lib Dbmaster.Gateway.Stream Dbmaster.Gateway.Classify Dbmaster.Gateway.Query

variable {modifies : Command → Prop} {conn : ConnRow} {target : Target}

def AnsweredReadOnly (run : Run) : Prop :=
  ∃ e, run.answer = .error e ∧ e.engineCode = some "READONLY"

def SendsModifying (modifies : Command → Prop) (run : Run) : Prop :=
  ∃ sent ∈ run.sent, modifies sent.2

/-- On this row nothing modifying is sent, and what would have been sent on a
writable row is answered `READONLY`. -/
def Enforced (modifies : Command → Prop) (conn : ConnRow) (target : Target)
    (payload : Payload) : Prop :=
  ¬ SendsModifying modifies (runPayload conn target payload) ∧
    (SendsModifying modifies (runPayload { conn with readOnly := 0 } target payload) →
      AnsweredReadOnly (runPayload conn target payload))

/-! ## The condition -/

/-- The connection loads and opens, and its family takes the kind. -/
def Reached (conn : ConnRow) (target : Target) (payload : Payload) : Prop :=
  target.loads = .ok () ∧ target.opens = .ok () ∧
    match payload with
    | .sql _ => ∃ family, familyFor conn.dbType = .ok family ∧
        family ≠ .mongo ∧ family ≠ .redis ∧ family ≠ .tdengine
    | .mongo doc => familyFor conn.dbType = .ok .mongo ∧ target.pings = .ok () ∧ doc ≠ []
    | .redisCommand _ | .redisPipeline _ _ => familyFor conn.dbType = .ok .redis
    | .tdengine _ => familyFor conn.dbType = .ok .tdengine

/-- Some statement or command of the request modifies the target. -/
def Carries (modifies : Command → Prop) : Payload → Prop
  | .sql text => modifies (.sql text)
  | .mongo doc => modifies (.mongo doc)
  | .redisCommand command => modifies (.redis command)
  | .redisPipeline commands _ => ∃ command ∈ commands, modifies (.redis command)
  | .tdengine text => modifies (.tdengine text)

/-- The leg's classifier takes some command of the request for a write.  The
`sql` leg has no classifier for this. -/
def Recognised (target : Target) : Payload → Prop
  | .sql _ => False
  | .mongo doc => ∃ name, Mongo.commandNameOf doc = some name ∧
      Mongo.isWriteCommand name doc = true
  | .redisCommand command =>
      Redis.isWrite target.aclFetched target.aclCache command.name = true
  | .redisPipeline commands _ => ∃ command ∈ commands,
      Redis.isWrite target.aclFetched target.aclCache command.name = true
  | .tdengine text => Tdengine.isWriteStatement text = true

/-! ## The legs -/

@[simp] theorem not_sendsModifying_refuse (e : StreamQueryError) :
    ¬ SendsModifying modifies (refuse e) := by
  simp [SendsModifying, refuse]

theorem guardReadOnly_iff (target : Target) (commands : List RedisCommand) :
    Redis.guardReadOnly target.aclFetched target.aclCache (commands.map (·.name)) = true ↔
      ∃ command ∈ commands,
        Redis.isWrite target.aclFetched target.aclCache command.name = true := by
  rw [Redis.guardReadOnly_eq]
  simp

theorem runRedisInner_unguarded {family : Family} {commands : List RedisCommand} {mode : Mode}
    (h : ¬ ∃ command ∈ commands,
      Redis.isWrite target.aclFetched target.aclCache command.name = true) :
    runRedisInner conn family target commands mode =
      runRedisInner { conn with readOnly := 0 } family target commands mode := by
  rw [← guardReadOnly_iff] at h
  simp [runRedisInner, h]

theorem runRedisInner_guarded (family : Family) (commands : List RedisCommand) (mode : Mode)
    (hro : conn.readOnly ≠ 0)
    (h : ∃ command ∈ commands,
      Redis.isWrite target.aclFetched target.aclCache command.name = true) :
    (∃ e, runRedisInner conn family target commands mode = refuse e) ∧
      (family = .redis → target.opens = .ok () →
        AnsweredReadOnly (runRedisInner conn family target commands mode)) := by
  rw [← guardReadOnly_iff] at h
  by_cases hfamily : family = .redis
  · cases hopens : target.opens with
    | error e => exact ⟨⟨e, by simp [runRedisInner, hfamily, hopens]⟩, fun _ hok => by cases hok⟩
    | ok _ =>
        have hrun : runRedisInner conn family target commands mode =
            refuse (readOnlyError "command") := by
          simp [runRedisInner, hfamily, hopens, hro, h]
        exact ⟨⟨_, hrun⟩, fun _ _ => ⟨_, congrArg Run.answer hrun, rfl⟩⟩
  · exact ⟨⟨_, by simp [runRedisInner, hfamily]; rfl⟩, fun hf => absurd hf hfamily⟩

theorem run_of_not_recognised {payload : Payload} (h : ¬ Recognised target payload) :
    runPayload conn target payload =
      runPayload { conn with readOnly := 0 } target payload := by
  unfold runPayload
  cases familyFor conn.dbType with
  | error e => rfl
  | ok family =>
  cases target.loads with
  | error e => rfl
  | ok _ =>
  cases payload with
  | sql text => rfl
  | mongo doc =>
      have hnone : ∀ name, Mongo.commandNameOf doc = some name →
          Mongo.isWriteCommand name doc = false := fun name hname => by
        rw [← Bool.not_eq_true]
        exact fun hwrite => h ⟨name, hname, hwrite⟩
      simp only [runMongoInner]
      split
      · rfl
      · split
        · rfl
        · rename_i name hname
          simp [hnone name hname]
  | redisCommand command =>
      exact runRedisInner_unguarded (by simpa [Recognised] using h)
  | redisPipeline commands atomic => exact runRedisInner_unguarded h
  | tdengine text =>
      have hread : ¬ Tdengine.isWriteStatement text = true := h
      simp [runTdengineInner, hread]

/-- A recognised request is refused; once the target is reached, as `READONLY`. -/
theorem run_of_recognised {payload : Payload} (hro : conn.readOnly ≠ 0)
    (h : Recognised target payload) :
    (∃ e, runPayload conn target payload = refuse e) ∧
      (Reached conn target payload → AnsweredReadOnly (runPayload conn target payload)) := by
  unfold runPayload Reached
  cases familyFor conn.dbType with
  | error e =>
      refine ⟨⟨e, rfl⟩, fun hreached => ?_⟩
      cases payload <;> simp at hreached
  | ok family =>
  cases target.loads with
  | error e => exact ⟨⟨e, rfl⟩, fun hreached => by simp at hreached⟩
  | ok _ =>
  cases payload with
  | sql text => exact absurd h id
  | mongo doc =>
      obtain ⟨name, hname, hwrite⟩ := h
      by_cases hfamily : family = .mongo
      · have hrun : runMongoInner conn family target doc =
            refuse (readOnlyError "command") := by
          simp [runMongoInner, hfamily, hname, hro, hwrite]
        exact ⟨⟨_, hrun⟩, fun _ => ⟨_, congrArg Run.answer hrun, rfl⟩⟩
      · exact ⟨⟨_, by simp [runMongoInner, hfamily]; rfl⟩,
          fun hreached => absurd (by simpa using hreached.2.2.1) hfamily⟩
  | redisCommand command =>
      obtain ⟨hrefused, hanswer⟩ := runRedisInner_guarded family [command] .single hro
        (by simpa [Recognised] using h)
      exact ⟨hrefused, fun hreached => hanswer (by simpa using hreached.2.2) hreached.2.1⟩
  | redisPipeline commands atomic =>
      obtain ⟨hrefused, hanswer⟩ := runRedisInner_guarded family commands
        (.pipeline atomic) hro h
      exact ⟨hrefused, fun hreached => hanswer (by simpa using hreached.2.2) hreached.2.1⟩
  | tdengine text =>
      have hwrite : Tdengine.isWriteStatement text = true := h
      by_cases hfamily : family = .tdengine
      · have hrun : runTdengineInner conn family target text =
            refuse (readOnlyError "statement") := by
          simp [runTdengineInner, hfamily, hro, hwrite]
        exact ⟨⟨_, hrun⟩, fun _ => ⟨_, congrArg Run.answer hrun, rfl⟩⟩
      · exact ⟨⟨_, by simp [runTdengineInner, hfamily]; rfl⟩,
          fun hreached => absurd (by simpa using hreached.2.2) hfamily⟩

theorem sendsModifying_sendWhen {opens : Except StreamQueryError Unit}
    {commands : List (Mode × Command)} {command : Command}
    (hall : ∀ sent ∈ commands, sent.2 = command) (hne : commands ≠ []) :
    SendsModifying modifies (sendWhen opens target commands) ↔
      opens = .ok () ∧ modifies command := by
  cases opens with
  | error e => simp [sendWhen]
  | ok _ =>
      simp only [SendsModifying, sendWhen, true_and]
      constructor
      · rintro ⟨sent, hmem, hmod⟩
        rwa [hall sent hmem] at hmod
      · intro hmod
        obtain ⟨sent, hmem⟩ := List.exists_mem_of_ne_nil commands hne
        exact ⟨sent, hmem, by rwa [hall sent hmem]⟩

@[simp] theorem sendsModifying_sendWhen_single {opens : Except StreamQueryError Unit}
    {mode : Mode} {command : Command} :
    SendsModifying modifies (sendWhen opens target [(mode, command)]) ↔
      opens = .ok () ∧ modifies command :=
  sendsModifying_sendWhen (by simp) (by simp)

theorem sendsModifying_runInner {family : Family} {text : String} :
    SendsModifying modifies (runInner family target text) ↔
      (target.opens = .ok () ∧ family ≠ .mongo ∧ family ≠ .redis ∧ family ≠ .tdengine) ∧
        modifies (.sql text) := by
  cases family with
  | mySql mode =>
      have hmysql : ∀ sent ∈ mysqlCommands mode target.refusesPrepare text,
          sent.2 = .sql text := by
        unfold mysqlCommands
        cases mode <;> split_ifs <;> simp
      have hne : mysqlCommands mode target.refusesPrepare text ≠ [] := by
        unfold mysqlCommands
        cases mode <;> split_ifs <;> simp
      simp [runInner, sendsModifying_sendWhen hmysql hne]
  | postgres | sqlite | clickhouse | sqlServer => simp [runInner]
  | mongo | redis | tdengine => simp [runInner]

theorem sendsModifying_runRedisInner {family : Family} {commands : List RedisCommand}
    {mode : Mode} :
    SendsModifying modifies
        (runRedisInner { conn with readOnly := 0 } family target commands mode) ↔
      (target.opens = .ok () ∧ family = .redis) ∧
        ∃ command ∈ commands, modifies (.redis command) := by
  by_cases hfamily : family = .redis
  · cases hopens : target.opens with
    | error e => simp [runRedisInner, hfamily, hopens]
    | ok _ => simp [runRedisInner, hfamily, hopens, SendsModifying]
  · simp [runRedisInner, hfamily]

theorem sendsModifying_writable (payload : Payload) :
    SendsModifying modifies (runPayload { conn with readOnly := 0 } target payload) ↔
      Reached conn target payload ∧ Carries modifies payload := by
  unfold runPayload Reached
  cases familyFor conn.dbType with
  | error e => cases payload <;> simp
  | ok family =>
  cases target.loads with
  | error e => simp
  | ok _ =>
  cases payload with
  | sql text =>
      simp only [sendsModifying_runInner, Carries, Except.ok.injEq, exists_eq_left', true_and]
  | mongo doc =>
      by_cases hfamily : family = .mongo
      · cases doc with
        | nil => simp [runMongoInner, hfamily, Mongo.commandNameOf]
        | cons m members =>
            cases hopens : target.opens with
            | error e => simp [runMongoInner, hfamily, Mongo.commandNameOf, hopens]
            | ok _ =>
                simp [runMongoInner, hfamily, Mongo.commandNameOf, hopens, Carries]
      · simp [runMongoInner, hfamily]
  | redisCommand command =>
      simp [sendsModifying_runRedisInner, Carries]
  | redisPipeline commands atomic =>
      simp [sendsModifying_runRedisInner, Carries]
  | tdengine text =>
      by_cases hfamily : family = .tdengine
      · simp [runTdengineInner, hfamily, Carries]
      · simp [runTdengineInner, hfamily]

/-! ## `read_only` is enforced -/

/-- On a `read_only` row a request is kept from modifying the target, and
answered `READONLY`, exactly when it does not reach the target, does not
modify, or is recognised by the classifier of its leg. -/
theorem readOnly_enforced_iff (modifies : Command → Prop) (conn : ConnRow) (target : Target)
    (payload : Payload) (hro : conn.readOnly ≠ 0) :
    Enforced modifies conn target payload ↔
      (Reached conn target payload → Carries modifies payload →
        Recognised target payload) := by
  unfold Enforced
  rw [sendsModifying_writable]
  constructor
  · rintro ⟨hnot, -⟩ hreached hcarries
    by_contra hunrecognised
    rw [run_of_not_recognised hunrecognised, sendsModifying_writable] at hnot
    exact hnot ⟨hreached, hcarries⟩
  · intro hcond
    by_cases hrecognised : Recognised target payload
    · obtain ⟨⟨e, hrefused⟩, hanswer⟩ := run_of_recognised hro hrecognised
      refine ⟨?_, fun hsent => hanswer hsent.1⟩
      rw [hrefused]
      exact not_sendsModifying_refuse e
    · have hnone : ¬ (Reached conn target payload ∧ Carries modifies payload) :=
        fun hsent => hrecognised (hcond hsent.1 hsent.2)
      refine ⟨?_, fun hsent => absurd hsent hnone⟩
      rw [run_of_not_recognised hrecognised, sendsModifying_writable]
      exact hnone

def answeringTarget : Target where
  loads := .ok ()
  opens := .ok ()
  pings := .ok ()
  aclFetched := none
  aclCache := none
  refusesPrepare := false
  answer := .ok ()

/-- The `mongo` leg refuses an insert, whatever is taken to modify. -/
theorem readOnly_enforced_insert :
    Enforced (fun _ => True) ⟨"mongodb", 1⟩ answeringTarget (.mongo [("insert", .str "c")]) :=
  (readOnly_enforced_iff _ _ _ _ (by decide)).mpr fun _ _ => ⟨"insert", rfl, by decide⟩

/-! ## The `sql` leg -/

/-- A data-modifying first word, for the concrete requests. -/
def modifiesByFirstWord : Command → Prop
  | .sql text => Tdengine.firstWord text.toList ∈
      ["DELETE".toList, "INSERT".toList, "UPDATE".toList, "DROP".toList]
  | _ => False

def deleteBody : QueryBody where
  sql := some "DELETE FROM t"
  kind := none
  command := none
  pipeline := none
  atomic := none
  rowLimit := none
  timeoutMs := none

def readOnlyMysql : ConnRow := ⟨"mysql", 1⟩

/-- An accepted `DELETE` reaches the `read_only` MySQL connection. -/
theorem delete_not_refused :
    (gwQuery ⟨500, 10000, 30⟩ (fun _ => 1) deleteBody).map (·.payload) =
        .ok (.sql "DELETE FROM t") ∧
      ¬ Enforced modifiesByFirstWord readOnlyMysql answeringTarget (.sql "DELETE FROM t") := by
  refine ⟨rfl, fun henforced => henforced.1 ?_⟩
  refine ⟨(.prepare, .sql "DELETE FROM t"), List.mem_cons_self, ?_⟩
  show Tdengine.firstWord "DELETE FROM t".toList ∈ _
  decide

end Dbmaster.Gateway.ReadOnly
